import Forecast.Model.Token
import Forecast.Proofs.Text.Trimmed

/-!
# Words and names

A name consists of letters, digits and underscores, a word of at least one of
them, and an identifier begins with a letter. None has a blank or a point.
-/

namespace Forecast

open Text

/-! ## Characters of names -/

theorem isNameChar_bounds {c : Char} (h : isNameChar c = true) : 48 ≤ c.toNat ∧ c.toNat ≤ 122 := by
  delta isNameChar Char.isAlphanum Char.isAlpha Char.isUpper Char.isLower Char.isDigit at h
  simp only [Bool.or_eq_true, Bool.and_eq_true, decide_eq_true_eq, UInt32.le_iff_toNat_le,
    beq_iff_eq, Char.toNat] at h ⊢
  rcases h with h | rfl
  · grind
  · decide

theorem isBlank_of_isNameChar {c : Char} (h : isNameChar c = true) : isBlank c = false := by
  have := isNameChar_bounds h
  simp [isBlank, isSpace]
  omega

theorem isLineBreak_of_isNameChar {c : Char} (h : isNameChar c = true) : isLineBreak c = false := by
  have := isNameChar_bounds h
  simp [isLineBreak]
  omega

theorem isNameChar_of_isAlpha {c : Char} (h : c.isAlpha = true) : isNameChar c = true := by
  simp [isNameChar, Char.isAlphanum, h]

/-! ## Names -/

/-- A text of name characters. -/
def IsName (s : String) : Prop :=
  ∀ c ∈ s.toList, isNameChar c = true

instance (s : String) : Decidable (IsName s) :=
  List.decidableBAll _ s.toList

/-- A text without a point. -/
def PointFree (s : String) : Prop :=
  '.' ∉ s.toList

instance (s : String) : Decidable (PointFree s) :=
  inferInstanceAs (Decidable ('.' ∉ s.toList))

theorem IsName.point_notMem {s : String} (h : IsName s) : PointFree s := by
  intro mem
  exact absurd (h '.' mem) (by decide)

theorem IsName.trimmed {s : String} (h : IsName s) : Trimmed s.toList where
  first c hc := isBlank_of_isNameChar (h c (List.mem_of_mem_head? hc))
  last c hc := isBlank_of_isNameChar (h c (List.mem_of_mem_getLast? hc))

/-! ## Words and identifiers -/

/-- A text of letters, digits and underscores. -/
structure IsWord (s : String) : Prop where
  named : IsName s
  nonempty : s ≠ ""

/-- A name that begins with a letter. -/
structure IsIdentifier (s : String) : Prop where
  named : IsName s
  letter : s.toList.head?.any Char.isAlpha = true

instance (s : String) : Decidable (IsWord s) :=
  decidable_of_iff (IsName s ∧ s ≠ "") ⟨fun h => ⟨h.1, h.2⟩, fun h => ⟨h.named, h.nonempty⟩⟩

instance (s : String) : Decidable (IsIdentifier s) :=
  decidable_of_iff (IsName s ∧ s.toList.head?.any Char.isAlpha = true)
    ⟨fun h => ⟨h.1, h.2⟩, fun h => ⟨h.named, h.letter⟩⟩

theorem IsWord.toList_ne_nil {s : String} (h : IsWord s) : s.toList ≠ [] :=
  fun eq => h.nonempty (String.toList_eq_nil_iff.1 eq)

theorem IsIdentifier.exists_cons {s : String} (h : IsIdentifier s) :
    ∃ c rest, s.toList = c :: rest ∧ c.isAlpha = true := by
  have letter := h.letter
  cases chars : s.toList with
  | nil => simp [chars] at letter
  | cons c rest => exact ⟨c, rest, rfl, by simpa [chars] using letter⟩

theorem IsIdentifier.isWord {s : String} (h : IsIdentifier s) : IsWord s where
  named := h.named
  nonempty := by
    rintro rfl
    have letter := h.letter
    simp at letter

end Forecast

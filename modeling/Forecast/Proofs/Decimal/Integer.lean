import Forecast.Proofs.Decimal.Numeral
import Forecast.Proofs.Text.Trimmed

/-!
# Integers as they are written

An integer is written with decimal digits of any script, after a minus sign or
none. It is read as what it denotes unless it has too many digits. Zeros in
front count among them.
-/

namespace Forecast

open Text

namespace Decimal

variable {s : List Char} {c : Char} {n : Int}

def valueOf (s : List Char) : Nat :=
  ofDigits (s.filterMap digitValue?)

/-- Digits, after a minus sign or none, and the integer that they denote. -/
inductive IsInteger : List Char → Int → Prop
  | plain {s : List Char} (digits : IsDigits s) : IsInteger s (valueOf s)
  | negative {s : List Char} (digits : IsDigits s) : IsInteger ('-' :: s) (-(valueOf s : Int))

theorem isBlank_of_isDecimalDigit (h : isDecimalDigit c = true) : isBlank c = false := by
  have printed : ¬c.toNat ≤ 0x1F := by
    intro control
    have ascii : c.toNat < 128 := by omega
    have before : ¬48 ≤ c.toNat := by omega
    simp [isDecimalDigit, digitValue?, ascii, before] at h
  simp [isBlank, isSpace_of_isDecimalDigit h, printed]

theorem spanDigits_of_forall (digits : ∀ c ∈ s, isDecimalDigit c = true) (grouped after : Bool) :
    spanDigits grouped after s = (s.filterMap digitValue?, []) := by
  induction s generalizing after with
  | nil => rfl
  | cons c s ih =>
    have digit := digits c (by simp)
    have plain : c ≠ '_' := by
      rintro rfl
      exact absurd digit (by decide)
    obtain ⟨d, found⟩ := Option.isSome_iff_exists.1 digit
    simp only [spanDigits_cons plain, found, ih (fun d hd => digits d (by simp [hd])) true,
      List.filterMap_cons]

theorem IsInteger.isBlank_eq_false (h : IsInteger s n) : ∀ c ∈ s, isBlank c = false := by
  cases h with
  | plain digits => exact fun c hc => isBlank_of_isDecimalDigit (digits.digits c hc)
  | negative digits =>
    rintro c (_ | ⟨_, hc⟩)
    · decide
    · exact isBlank_of_isDecimalDigit (digits.digits c hc)

theorem IsInteger.ne_nil (h : IsInteger s n) : s ≠ [] := by
  cases h with
  | plain digits => exact digits.nonempty
  | negative digits => simp

theorem IsInteger.trimmed (h : IsInteger s n) : Trimmed s where
  first := fun c hc => h.isBlank_eq_false c (List.mem_of_mem_head? hc)
  last := fun c hc => h.isBlank_eq_false c (List.mem_of_mem_getLast? hc)

theorem IsDigits.unsigned (digits : IsDigits s) : ∀ c ∈ s.head?, c ≠ '+' ∧ c ≠ '-' := by
  have stop := digits.stop []
  rwa [List.append_nil] at stop

theorem spanSign_of_isDigits (digits : IsDigits s) : spanSign s = (false, s) := by
  fun_cases spanSign s with
  | case1 rest => exact absurd rfl (digits.unsigned '-' rfl).2
  | case2 rest => exact absurd rfl (digits.unsigned '+' rfl).1
  | case3 => rfl

theorem length_digitValues (digits : ∀ c ∈ s, isDecimalDigit c = true) :
    (s.filterMap digitValue?).length = s.length := by
  rw [List.length_filterMap_eq_countP, List.countP_eq_length]
  exact digits

theorem int_of_spanSign {digits : List Char} {negative : Bool} (plain : strip isSpace s = s)
    (sign : spanSign s = (negative, digits)) (written : IsDigits digits) :
    int s = if digits.length > digitLimit then .tooLong digits.length
      else .value (if negative then -(valueOf digits : Int) else valueOf digits) := by
  have count := length_digitValues written.digits
  rw [int, plain, sign]
  simp only [spanDigits_of_forall written.digits]
  split
  · rename_i span
    rw [(Prod.mk.inj span).1, List.length_nil] at count
    exact absurd (List.length_eq_zero_iff.1 count.symm) written.nonempty
  · rename_i span
    cases (Prod.mk.inj span).2
  · rename_i span
    cases span
    rw [count]
    rfl

theorem int_of_isInteger (h : IsInteger s n) :
    int s = if s.countP isDecimalDigit > digitLimit then .tooLong (s.countP isDecimalDigit)
      else .value n := by
  have stripped : strip isSpace s = s := by
    apply strip_of_forall
    intro c hc
    have visible := h.isBlank_eq_false c hc
    rw [isBlank, Bool.or_eq_false_iff] at visible
    exact visible.1
  cases h with
  | plain digits =>
    rw [int_of_spanSign stripped (spanSign_of_isDigits digits) digits,
      List.countP_eq_length.2 digits.digits]
    rfl
  | negative digits =>
    have minus : isDecimalDigit '-' = false := by decide
    rw [int_of_spanSign stripped rfl digits, List.countP_cons_of_neg (by simp [minus]),
      List.countP_eq_length.2 digits.digits]
    rfl

end Decimal
end Forecast

import Forecast.Proofs.Statement.Written

/-!
# Copies of line items

`sum(code)` copies the line item of a code, unless the code ends like a pattern.
The code alone does so as well unless its text is a formula of another form: a
signed sum, or `sum(...)` or `cumsum(...)`. Such a text does not even read the
line item whose code it is.
-/

namespace Forecast

open Text

namespace Formula

/-- A text that is written as no function of another one. -/
structure IsUnwrapped (text : String) : Prop where
  notSum : ∀ inner : String, text ≠ "sum(" ++ inner ++ ")"
  notTotal : ∀ inner : String, text ≠ "cumsum(" ++ inner ++ ")"

/-- A code that is no formula of another form. -/
structure IsBare (code : String) : Prop extends IsUnwrapped code where
  unsigned : '+' ∉ code.toList ∧ '-' ∉ code.toList

variable {s above pattern : List Char} {start code : String} {items : Entries LineItem}

/-! ## Functions and what is inside -/

theorem drop_length_append (start : String) (rest : List Char) :
    (start.toList ++ rest).drop start.length = rest :=
  List.drop_left' String.length_toList

theorem inside?_written (start inner : String) :
    inside? start (start ++ inner ++ ")").toList = some (trim inner.toList) := by
  have text : (start ++ inner ++ ")").toList = start.toList ++ (inner.toList ++ [')']) := by simp
  rw [text, inside?, drop_length_append]
  simp

theorem inside?_eq_some (opens : start.toList.getLast? ≠ some ')') :
    inside? start code.toList = some pattern ↔
      ∃ inner : String, code = start ++ inner ++ ")" ∧ pattern = trim inner.toList := by
  constructor
  · intro found
    unfold inside? at found
    split at found
    · rename_i both
      obtain ⟨starts, ends⟩ := Bool.and_eq_true_iff.1 both
      obtain ⟨rest, text⟩ := List.isPrefixOf_iff_prefix.1 starts
      rw [← text] at ends found
      rcases List.eq_nil_or_concat rest with rfl | ⟨inner, c, rfl⟩
      · rw [List.append_nil] at ends
        exact absurd (beq_iff_eq.1 ends) opens
      · have closing : c = ')' := by simpa using ends
        rw [drop_length_append] at found
        simp only [List.concat_eq_append, List.dropLast_concat, Option.some.injEq] at found
        refine ⟨String.ofList inner, ?_, by simp [found]⟩
        rw [← String.toList_inj, ← text]
        simp [closing]
    · cases found
  · rintro ⟨inner, rfl, rfl⟩
    exact inside?_written start inner

theorem inside?_eq_none (opens : start.toList.getLast? ≠ some ')') :
    inside? start code.toList = none ↔ ∀ inner : String, code ≠ start ++ inner ++ ")" := by
  rw [Option.eq_none_iff_forall_ne_some]
  constructor
  · rintro none inner rfl
    exact none _ (inside?_written start inner)
  · intro other pattern found
    obtain ⟨inner, written, -⟩ := (inside?_eq_some opens).1 found
    exact other inner written

theorem dropEnding?_eq_some {ending : List Char} :
    dropEnding? ending s = some above ↔ s = above ++ ending := by
  unfold dropEnding?
  constructor
  · intro found
    split at found
    · rename_i ends
      obtain ⟨rest, rfl⟩ := List.isSuffixOf_iff_suffix.1 ends
      simpa using found
    · cases found
  · rintro rfl
    simp

theorem dropEnding?_eq_none {ending : List Char} :
    dropEnding? ending s = none ↔ ¬ending <:+ s := by
  simp [dropEnding?, List.isSuffixOf_iff_suffix]

/-! ## The form of a text -/

/-- The formula that a text denotes, by its form. -/
inductive Form (text : String) : Formula → Prop
  | leaves {inner above : String} (written : text = "sum(" ++ inner ++ ")")
      (pattern : trim inner.toList = above.toList ++ ['.', '*']) : Form text (.leaves above)
  | copy {inner : String} (written : text = "sum(" ++ inner ++ ")")
      (single : ¬['.', '*'] <:+ trim inner.toList) :
      Form text (.copy (String.ofList (trim inner.toList)))
  | runningTotal {inner : String} (written : text = "cumsum(" ++ inner ++ ")") :
      Form text (.runningTotal (String.ofList (trim inner.toList)))
  | signedSum (plain : IsUnwrapped text) (signed : '+' ∈ text.toList ∨ '-' ∈ text.toList) :
      Form text (.signedSum (terms text.toList))
  | bare (bare : IsBare text) : Form text (.copy text)

theorem form_ofText (trimmed : trim code.toList = code.toList) : Form code (ofText code) := by
  unfold ofText
  rw [trimmed]
  dsimp only
  split
  · rename_i pattern found
    obtain ⟨inner, written, rfl⟩ := (inside?_eq_some (by decide)).1 found
    split
    · rename_i above ends
      exact .leaves written (by simpa using dropEnding?_eq_some.1 ends)
    · rename_i other
      exact .copy written (dropEnding?_eq_none.1 other)
  · rename_i notSum
    split
    · rename_i found
      obtain ⟨inner, written, rfl⟩ := (inside?_eq_some (by decide)).1 found
      exact .runningTotal written
    · rename_i notTotal
      have plain : IsUnwrapped code :=
        ⟨(inside?_eq_none (by decide)).1 notSum, (inside?_eq_none (by decide)).1 notTotal⟩
      split
      · rename_i signs
        exact .signedSum plain (by simpa using signs)
      · rename_i unsigned
        rw [String.ofList_toList]
        exact .bare ⟨plain, by simpa using unsigned⟩

theorem ofText_of_isBare (trimmed : trim code.toList = code.toList) (bare : IsBare code) :
    ofText code = .copy code := by
  have form := form_ofText trimmed
  generalize ofText code = f at form ⊢
  cases form with
  | leaves written => exact absurd written (bare.notSum _)
  | copy written => exact absurd written (bare.notSum _)
  | runningTotal written => exact absurd written (bare.notTotal _)
  | signedSum _ signed => exact absurd signed (not_or.2 bare.unsigned)
  | bare => rfl

theorem ofText_sum (trimmed : trim code.toList = code.toList)
    (noPattern : ¬['.', '*'] <:+ code.toList) :
    ofText ("sum(" ++ code ++ ")") = .copy code := by
  have text : trim ("sum(" ++ code ++ ")").toList = ("sum(" ++ code ++ ")").toList := by
    have start : Trimmed "sum(".toList := trimmed_of_trim_eq (by decide)
    have finish : Trimmed ")".toList := trimmed_of_trim_eq (by decide)
    simpa using (start.append finish (by decide) (by decide) code.toList).trim_eq
  unfold ofText
  rw [text]
  dsimp only
  rw [inside?_written, trimmed]
  dsimp only
  rw [dropEnding?_eq_none.2 noPattern, String.ofList_toList]

/-! ## What a code that is not bare reads -/

/-- There is no sign in the pieces between signs. -/
theorem unsigned_of_mem_signedPieces (sign : Sign) (s : List Char) :
    ∀ p ∈ signedPieces sign s, ∀ c ∈ p.2, c ≠ '+' ∧ c ≠ '-' := by
  induction s generalizing sign with
  | nil => simp [signedPieces]
  | cons c s ih =>
    by_cases signed : ∃ u, c = mark u
    · obtain ⟨u, rfl⟩ := signed
      rw [signedPieces_mark, List.forall_mem_cons]
      exact ⟨by simp, ih u⟩
    · have plain : c ≠ '+' ∧ c ≠ '-' :=
        ⟨fun plus => signed ⟨.plus, plus⟩, fun minus => signed ⟨.minus, minus⟩⟩
      have rest := ih sign
      rw [signedPieces_cons plain]
      cases pieces : signedPieces sign s with
      | nil => simp
      | cons first more =>
        rw [pieces, List.forall_mem_cons] at rest
        rw [List.modifyHead_cons, List.forall_mem_cons]
        exact ⟨List.forall_mem_cons.2 ⟨plain, rest.1⟩, rest.2⟩

theorem unsigned_of_mem_terms {t : Sign × String} (h : t ∈ terms s) :
    ∀ c ∈ t.2.toList, c ≠ '+' ∧ c ≠ '-' := by
  simp only [terms, List.mem_map, List.mem_filter] at h
  obtain ⟨_, ⟨⟨p, hp, rfl⟩, -⟩, rfl⟩ := h
  intro c hc
  rw [String.toList_ofList] at hc
  exact unsigned_of_mem_signedPieces .plus s p hp c (trim_subset _ hc)

/-- A code that names another one after its beginning is not below it. -/
theorem not_isBelow {above code : String} {front behind : List Char} (later : front ≠ [])
    (written : code.toList = front ++ (above.toList ++ '.' :: behind)) :
    isBelow above code = false := by
  rw [Bool.eq_false_iff]
  intro below
  obtain ⟨part, rfl, plain⟩ := isBelow_iff.1 below
  have longer := List.length_pos_iff.2 later
  have same : above.toList ++ '.' :: part.toList = (front ++ above.toList) ++ '.' :: behind := by
    simpa using written
  rcases List.append_eq_append_iff.1 same with ⟨gap, continues, rest⟩ | ⟨gap, continues, -⟩
  · -- the point after the later name lies in the last part
    have length := congrArg List.length continues
    simp only [List.length_append] at length
    cases gap with
    | nil =>
      rw [List.length_nil] at length
      omega
    | cons c gap =>
      rw [List.cons_append, List.cons.injEq] at rest
      exact plain (by simp [rest.2])
  · have length := congrArg List.length continues
    simp only [List.length_append] at length
    omega

theorem ofList_trim_ne {inner : String} (written : code = start ++ inner ++ ")") :
    String.ofList (trim inner.toList) ≠ code := by
  intro same
  have length := congrArg (fun s : String => s.toList.length) (same.trans written)
  have trimming := length_trim_le inner.toList
  simp only [String.toList_ofList, String.toList_append, List.length_append] at length
  have closing : ")".toList.length = 1 := rfl
  omega

/-- A code that is written as the sum of some leaves is none of them. -/
theorem notMem_leafCodes {inner above : String} (written : code = "sum(" ++ inner ++ ")")
    (pattern : trim inner.toList = above.toList ++ ['.', '*']) :
    code ∉ Lines.leafCodes items above := by
  intro leaf
  obtain ⟨e, he, rfl⟩ := List.mem_map.1 leaf
  have below := (Bool.and_eq_true_iff.1 (List.mem_filter.1 he).2).1
  obtain ⟨before, after, cut, -⟩ := exists_trim inner.toList
  rw [pattern] at cut
  have text : e.1.toList =
      ("sum(".toList ++ before) ++ (above.toList ++ '.' :: '*' :: (after ++ [')'])) := by
    simp [written, cut]
  rw [not_isBelow (by simp) text] at below
  cases below

/-- The formula of a code that is not bare reads other codes only. -/
theorem ne_of_mem_summands (trimmed : trim code.toList = code.toList) (other : ¬IsBare code)
    {t : Sign × String} (h : t ∈ (ofText code).summands items) : t.2 ≠ code := by
  have form := form_ofText trimmed
  generalize ofText code = f at form h
  cases form with
  | leaves written pattern =>
    obtain ⟨below, hbelow, rfl⟩ := List.mem_map.1 h
    rintro (rfl : below = code)
    exact notMem_leafCodes written pattern hbelow
  | copy written =>
    rw [List.mem_singleton.1 h]
    exact ofList_trim_ne written
  | runningTotal written =>
    rw [List.mem_singleton.1 h]
    exact ofList_trim_ne written
  | signedSum _ signed =>
    have unsigned := unsigned_of_mem_terms h
    rintro rfl
    rcases signed with plus | minus
    · exact (unsigned _ plus).1 rfl
    · exact (unsigned _ minus).2 rfl
  | bare bare => exact absurd bare other

end Formula

open Formula

namespace Template

variable {α : Type} {t : Template} {lines : Lines α}

/-- Lines that have all items of a template. -/
def Covers (t : Template) (lines : Lines α) : Prop :=
  ∀ i ∈ t.items, lines.has i.code = true

theorem covers_blank [Amount α] (t : Template) (months : Nat) :
    t.Covers (Financials.blank t months : Lines α) := by
  intro i hi
  have listed :
      ∃ name ∈ Entries.keys (t.items.map fun i => (i.code, (Series.zeros months : Series α))),
        i.code = id name :=
    ⟨i.code, by simpa [Entries.keys] using ⟨i, hi, rfl⟩, rfl⟩
  exact Entries.has_iff.2 ((Entries.mem_keys_foldl_put id).2 (.inr listed))

theorem Covers.put (h : t.Covers lines) (code : String) (xs : Series α) :
    t.Covers (lines.put code xs) := by
  intro i hi
  rw [Entries.has, Entries.lookup_put]
  split
  · rfl
  · exact h i hi

end Template

namespace Lines

variable {α : Type} [Amount α] {items : Entries LineItem} {lines : Lines α} {months : Nat}

/-- A text that denotes a copy of a series, without a notice, also as the formula of an item. -/
structure IsCopy (items : Entries LineItem) (lines : Lines α) (months : Nat) (text : String)
    (xs : Series α) : Prop where
  amounts : lines.formula items months (.ofText text) = xs
  notices : ∀ user, lines.formulaNotices user (.ofText text) = []
  item : ∀ i : LineItem, i.formula = some text → i.cumulative = false →
    lines.evaluate items months i = (xs, [])

theorem isCopy_of_ofText {text code : String} {xs : Series α} (visible : text ≠ "")
    (copy : ofText text = .copy code) (found : lines.lookup code = some xs) :
    IsCopy items lines months text xs := by
  have amounts : lines.formula items months (.ofText text) = xs := by
    rw [copy, formula, read, found, Option.getD_some]
  have notices (user : String) : lines.formulaNotices user (.ofText text) = [] := by
    simp [copy, formulaNotices, missing, Entries.has, found]
  refine ⟨amounts, notices, ?_⟩
  intro i written once
  have asked : i.formula? = some text := by simp [LineItem.formula?, written, visible]
  simp [evaluate, asked, amounts, notices, once]

/-- `sum(code)` copies the line item of a trimmed code that does not end like a pattern, and so does
the code alone if it is bare. If it is not, it is a formula of another form, which does not read
that line item. The lines of a template have all its items from the start, and keep them. -/
theorem copies_code (t : Template) (months : Nat) :
    t.Covers (Financials.blank t months : Lines α) ∧
    ∀ lines : Lines α, t.Covers lines →
      (∀ code xs, t.Covers (lines.put code xs)) ∧
      ∀ i ∈ t.items, trim i.code.toList = i.code.toList → i.code ≠ "" →
        ¬['.', '*'] <:+ i.code.toList →
        ∃ xs, lines.lookup i.code = some xs ∧
          IsCopy t.byCode lines months ("sum(" ++ i.code ++ ")") xs ∧
          (IsBare i.code → IsCopy t.byCode lines months i.code xs) ∧
          (¬IsBare i.code → Form i.code (.ofText i.code) ∧ ∀ ys,
            Lines.formula t.byCode (lines.put i.code ys) months (.ofText i.code) =
              lines.formula t.byCode months (.ofText i.code)) := by
  refine ⟨Template.covers_blank t months, ?_⟩
  intro lines covers
  refine ⟨covers.put, ?_⟩
  intro i hi trimmed nonempty noPattern
  obtain ⟨xs, found⟩ := Option.isSome_iff_exists.1 (covers i hi)
  refine ⟨xs, found, ?_, ?_, ?_⟩
  · exact isCopy_of_ofText (by simp [String.ext_iff]) (ofText_sum trimmed noPattern) found
  · intro bare
    exact isCopy_of_ofText nonempty (ofText_of_isBare trimmed bare) found
  · intro other
    refine ⟨form_ofText trimmed, ?_⟩
    intro ys
    apply formula_congr
    intro u hu
    rw [read_put, if_neg (ne_of_mem_summands trimmed other hu)]

/-- A template with a code that reads like a difference of the others. -/
def netDebtEntries : List (String × Value) :=
  [("name", .text "Debt"),
    ("statements", .record [("debt", .record [("code", .text "debt"), ("name", .text "Debt"),
      ("lineItems", .list [.record [("code", .text "net")], .record [("code", .text "debt")],
        .record [("code", .text "net-debt")]])])])]

def netDebt : Template where
  name := "Debt"
  statements :=
    [("debt", ⟨"debt", "Debt", "",
      [⟨"net", none, 0, .plus, none, false, false, none⟩,
        ⟨"debt", none, 0, .plus, none, false, false, none⟩,
        ⟨"net-debt", none, 0, .plus, none, false, false, none⟩]⟩)]

def netDebtLines : Lines Float :=
  [("net", [5, 5]), ("debt", [2, 2]), ("net-debt", [1, 1])]

theorem netDebt_covers : netDebt.Covers netDebtLines := by
  unfold Template.Covers
  decide

theorem copies_code_netDebt :
    netDebt.Covers netDebtLines ∧ IsBare "debt" ∧ ¬IsBare "net-debt" ∧
      IsCopy netDebt.byCode netDebtLines 2 "sum(net-debt)" [1, 1] ∧
      IsCopy netDebt.byCode netDebtLines 2 "debt" [2, 2] ∧
      Form "net-debt" (.ofText "net-debt") ∧
      ∀ ys, Lines.formula netDebt.byCode (netDebtLines.put "net-debt" ys) 2 (.ofText "net-debt") =
        netDebtLines.formula netDebt.byCode 2 (.ofText "net-debt") := by
  obtain ⟨-, copies⟩ := (copies_code netDebt 2).2 netDebtLines netDebt_covers
  have bare : IsBare "debt" :=
    ⟨⟨(inside?_eq_none (by decide)).1 (by decide), (inside?_eq_none (by decide)).1 (by decide)⟩,
      by decide⟩
  have signed : ¬IsBare "net-debt" := fun bare => absurd bare.unsigned (by decide)
  obtain ⟨_, ⟨⟩, sum, -, unread⟩ :=
    copies netDebt.items[2] (by simp) (by decide) (by decide) (by decide)
  obtain ⟨_, ⟨⟩, -, alone, -⟩ :=
    copies netDebt.items[1] (by simp) (by decide) (by decide) (by decide)
  exact ⟨netDebt_covers, bare, signed, sum, alone bare, unread signed⟩

/-- A code that reads like a difference is no copy of its line item. -/
theorem difference_not_copied :
    Template.ofEntries netDebtEntries = .ok netDebt ∧ netDebt.Covers netDebtLines ∧
      ∃ i ∈ netDebt.items, trim i.code.toList = i.code.toList ∧ i.code ≠ "" ∧
        ¬['.', '*'] <:+ i.code.toList ∧
        netDebtLines.lookup i.code = some [1, 1] ∧
        netDebtLines.formula netDebt.byCode 2 (.ofText i.code) = [3, 3] := by
  refine ⟨rfl, netDebt_covers, netDebt.items[2], by simp, by decide, by decide, by decide, rfl, ?_⟩
  decide +kernel

end Lines
end Forecast

import Forecast.Proofs.Statement.Equations
import Forecast.Proofs.Text.Word

/-!
# Signed sums as they are written

A signed sum is written as codes with signs between them, and a sign in front or
none; blanks may stand around the signs. Whatever the codes are, such a text is
read as the sum of just these codes, each with the sign before it.
-/

namespace Forecast

open Text

namespace Formula

/-- A code that can stand in a signed sum: not empty, and without blanks, signs and parentheses. -/
structure IsCode (code : String) : Prop where
  nonempty : code.toList ≠ []
  plain : ∀ c ∈ code.toList, isBlank c = false ∧ c ≠ '+' ∧ c ≠ '-' ∧ c ≠ '('

theorem isCode_of_words {words : List String} (some : words ≠ []) (each : ∀ s ∈ words, IsWord s) :
    IsCode (".".intercalate words) where
  nonempty := by
    have trimmed : ∀ s ∈ words.map String.toList, Trimmed s ∧ s ≠ [] := by
      rw [List.forall_mem_map]
      exact fun s hs => ⟨(each s hs).named.trimmed, by simpa using (each s hs).nonempty⟩
    rw [String.toList_intercalate]
    exact (Trimmed.intercalate _ trimmed).2 (by simpa using some)
  plain := by
    rw [String.toList_intercalate]
    have point : ∀ c ∈ ".".toList, isBlank c = false ∧ c ≠ '+' ∧ c ≠ '-' ∧ c ≠ '(' := by
      intro c hc
      cases List.mem_singleton.1 hc
      decide
    apply forall_mem_intercalate point
    rw [List.forall_mem_map]
    intro s hs c hc
    have named := (each s hs).named c hc
    refine ⟨isBlank_of_isNameChar named, ?_, ?_, ?_⟩ <;>
    · rintro rfl
      exact absurd named (by decide)

def mark : Sign → Char
  | .plus => '+'
  | .minus => '-'

/-- A sign and a code, with blanks before each of them. -/
structure WrittenTerm where
  before : List Char
  sign : Sign
  between : List Char
  code : String
  blank : ∀ c ∈ before ++ between, isBlank c = true
  isCode : IsCode code

def WrittenTerm.chars (t : WrittenTerm) : List Char :=
  t.before ++ mark t.sign :: (t.between ++ t.code.toList)

def WrittenTerm.term (t : WrittenTerm) : Sign × String :=
  (t.sign, t.code)

/-- A code, with a sign in front or none, and further terms, with blanks around. There is at least
one sign; without any, a formula is a copy. -/
structure WrittenSum where
  before : List Char
  /-- A sign in front, with the blanks after it. -/
  front : Option (Sign × List Char)
  code : String
  more : List WrittenTerm
  after : List Char
  blank : ∀ c ∈ before ++ after, isBlank c = true
  front_blank : ∀ u ∈ front, ∀ c ∈ u.2, isBlank c = true
  isCode : IsCode code
  signed : front.isSome ∨ more ≠ []

namespace WrittenSum

def core (w : WrittenSum) : List Char :=
  let codes := w.code.toList ++ w.more.flatMap (·.chars)
  match w.front with
  | none => codes
  | some (sign, gap) => mark sign :: (gap ++ codes)

def text (w : WrittenSum) : String :=
  String.ofList (w.before ++ (w.core ++ w.after))

/-- The codes with their signs; the first one is added if it has none. -/
def terms (w : WrittenSum) : List (Sign × String) :=
  ((w.front.map (·.1)).getD .plus, w.code) :: w.more.map (·.term)

end WrittenSum

variable {s rest gap gap' : List Char} {sign u : Sign} {code text : String}
  {pieces : List (Sign × List Char)}

/-! ## Pieces between signs -/

theorem signedPieces_cons {c : Char} (plain : c ≠ '+' ∧ c ≠ '-') (sign : Sign) (rest : List Char) :
    signedPieces sign (c :: rest) = (signedPieces sign rest).modifyHead fun p =>
      (p.1, c :: p.2) := by
  rw [signedPieces]
  · exact fun same => plain.1 same
  · exact fun same => plain.2 same

theorem signedPieces_mark (sign u : Sign) (rest : List Char) :
    signedPieces sign (mark u :: rest) = (sign, []) :: signedPieces u rest := by
  cases u <;> rfl

theorem signedPieces_append_mark (unsigned : ∀ c ∈ s, c ≠ '+' ∧ c ≠ '-') (sign u : Sign)
    (rest : List Char) :
    signedPieces sign (s ++ mark u :: rest) = (sign, s) :: signedPieces u rest := by
  induction s with
  | nil => exact signedPieces_mark sign u rest
  | cons c s ih =>
    rw [List.cons_append, signedPieces_cons (unsigned c (by simp)),
      ih fun d hd => unsigned d (by simp [hd])]
    rfl

theorem signedPieces_of_unsigned (unsigned : ∀ c ∈ s, c ≠ '+' ∧ c ≠ '-') (sign : Sign) :
    signedPieces sign s = [(sign, s)] := by
  induction s with
  | nil => rfl
  | cons c s ih =>
    rw [signedPieces_cons (unsigned c (by simp)), ih fun d hd => unsigned d (by simp [hd])]
    rfl

/-- The codes among pieces: those that are not blank. -/
def codesOf (pieces : List (Sign × List Char)) : List (Sign × String) :=
  ((pieces.map fun p => (p.1, trim p.2)).filter fun p => !p.2.isEmpty).map
    fun p => (p.1, String.ofList p.2)

theorem terms_eq (s : List Char) : terms s = codesOf (signedPieces .plus s) := rfl

theorem codesOf_cons_blank (blank : ∀ c ∈ gap, isBlank c = true) (sign : Sign)
    (pieces : List (Sign × List Char)) : codesOf ((sign, gap) :: pieces) = codesOf pieces := by
  simp [codesOf, trim_eq_nil.2 blank]

theorem IsCode.trimmed (h : IsCode code) : Trimmed code.toList where
  first := fun c hc => (h.plain c (List.mem_of_mem_head? hc)).1
  last := fun c hc => (h.plain c (List.mem_of_mem_getLast? hc)).1

theorem IsCode.unsigned (h : IsCode code) : ∀ c ∈ code.toList, c ≠ '+' ∧ c ≠ '-' :=
  fun c hc => ⟨(h.plain c hc).2.1, (h.plain c hc).2.2.1⟩

theorem codesOf_cons (h : IsCode code) (blank : ∀ c ∈ gap ++ gap', isBlank c = true) (sign : Sign)
    (pieces : List (Sign × List Char)) :
    codesOf ((sign, gap ++ (code.toList ++ gap')) :: pieces) = (sign, code) :: codesOf pieces := by
  have visible : code.toList.isEmpty = false := List.isEmpty_eq_false_iff.2 h.nonempty
  simp [codesOf, h.trimmed.trim_surrounded h.nonempty blank, visible]

theorem unsigned_of_blank (blank : ∀ c ∈ s, isBlank c = true) : ∀ c ∈ s, c ≠ '+' ∧ c ≠ '-' := by
  intro c hc
  constructor <;>
  · rintro rfl
    exact absurd (blank _ hc) (by decide)

/-- The codes are found among the pieces, each with the sign before it. -/
theorem codesOf_signedPieces (h : IsCode code) (blank : ∀ c ∈ gap, isBlank c = true) (sign : Sign)
    (more : List WrittenTerm) :
    codesOf (signedPieces sign (gap ++ (code.toList ++ more.flatMap (·.chars)))) =
      (sign, code) :: more.map (·.term) := by
  induction more generalizing sign gap code with
  | nil =>
    have unsigned : ∀ c ∈ gap ++ (code.toList ++ []), c ≠ '+' ∧ c ≠ '-' := by
      rw [List.append_nil, List.forall_mem_append]
      exact ⟨unsigned_of_blank blank, h.unsigned⟩
    rw [List.flatMap_nil, signedPieces_of_unsigned unsigned, codesOf_cons h (by simpa using blank)]
    rfl
  | cons t more ih =>
    have before : ∀ c ∈ t.before, isBlank c = true := fun c hc => t.blank c (by simp [hc])
    have between : ∀ c ∈ t.between, isBlank c = true := fun c hc => t.blank c (by simp [hc])
    have around : ∀ c ∈ gap ++ t.before, isBlank c = true :=
      List.forall_mem_append.2 ⟨blank, before⟩
    have unsigned : ∀ c ∈ gap ++ (code.toList ++ t.before), c ≠ '+' ∧ c ≠ '-' := by
      rw [List.forall_mem_append, List.forall_mem_append]
      exact ⟨unsigned_of_blank blank, h.unsigned, unsigned_of_blank before⟩
    have split : gap ++ (code.toList ++ (t :: more).flatMap (·.chars)) =
        (gap ++ (code.toList ++ t.before)) ++
          mark t.sign :: (t.between ++ (t.code.toList ++ more.flatMap (·.chars))) := by
      simp [WrittenTerm.chars]
    rw [split, signedPieces_append_mark unsigned, codesOf_cons h around, ih t.isCode between]
    rfl

/-! ## The whole sum -/

theorem isBlank_mark (u : Sign) : isBlank (mark u) = false := by
  cases u <;> decide

theorem codes_ne_nil (h : IsCode code) (more : List WrittenTerm) :
    code.toList ++ more.flatMap (·.chars) ≠ [] :=
  List.append_ne_nil_of_left_ne_nil h.nonempty _

/-- Terms begin and end with codes. -/
theorem trimmed_codes (h : IsCode code) (more : List WrittenTerm) :
    Trimmed (code.toList ++ more.flatMap (·.chars)) := by
  induction more generalizing code with
  | nil => simpa using h.trimmed
  | cons t more ih =>
    have split : (t :: more).flatMap (·.chars) = (t.before ++ mark t.sign :: t.between) ++
        (t.code.toList ++ more.flatMap (·.chars)) := by
      simp [WrittenTerm.chars]
    rw [split, ← List.append_assoc]
    exact h.trimmed.append (ih t.isCode) h.nonempty (codes_ne_nil t.isCode more) _

theorem opening_ne_mark (u : Sign) : '(' ≠ mark u := by
  cases u <;> decide

theorem opening_not_mem_of_blank (blank : ∀ c ∈ s, isBlank c = true) : '(' ∉ s := by
  intro hc
  exact absurd (blank _ hc) (by decide)

theorem IsCode.opening_not_mem (h : IsCode code) : '(' ∉ code.toList :=
  fun hc => (h.plain _ hc).2.2.2 rfl

theorem WrittenTerm.opening_not_mem (t : WrittenTerm) : '(' ∉ t.chars := by
  have blank := opening_not_mem_of_blank t.blank
  simp only [List.mem_append, not_or] at blank
  simp [WrittenTerm.chars, blank, opening_ne_mark, t.isCode.opening_not_mem]

/-- A function's name with its parenthesis is not found where there is no parenthesis. -/
theorem inside?_of_not_mem {start : String} (opening : '(' ∈ start.toList) (absent : '(' ∉ s) :
    inside? start s = none := by
  rw [inside?, if_neg]
  intro both
  have starts := List.isPrefixOf_iff_prefix.1 (Bool.and_eq_true_iff.1 both).1
  exact absent (starts.subset opening)

namespace WrittenSum

variable (w : WrittenSum)

theorem trimmed_core : Trimmed w.core := by
  unfold core
  cases w.front with
  | none => exact trimmed_codes w.isCode w.more
  | some leading =>
    have sign : Trimmed [mark leading.1] := by
      constructor <;> simpa using isBlank_mark leading.1
    exact sign.append (trimmed_codes w.isCode w.more) (by simp)
      (codes_ne_nil w.isCode w.more) leading.2

theorem core_ne_nil : w.core ≠ [] := by
  unfold core
  cases w.front with
  | none => exact codes_ne_nil w.isCode w.more
  | some leading => simp

theorem trim_text : trim w.text.toList = w.core := by
  rw [text, String.toList_ofList]
  exact w.trimmed_core.trim_surrounded w.core_ne_nil w.blank

theorem opening_not_mem : '(' ∉ w.core := by
  have codes : '(' ∉ w.code.toList ++ w.more.flatMap (·.chars) := by
    simp only [List.mem_append, List.mem_flatMap, not_or, not_exists, not_and]
    exact ⟨w.isCode.opening_not_mem, fun t _ => t.opening_not_mem⟩
  unfold core
  cases front : w.front with
  | none => exact codes
  | some leading =>
    have gap := opening_not_mem_of_blank (w.front_blank leading (by simp [front]))
    have all := List.mem_append.not.2 (not_or.2 ⟨gap, codes⟩)
    exact List.mem_cons.not.2 (not_or.2 ⟨opening_ne_mark leading.1, all⟩)

theorem exists_mark : ∃ u, mark u ∈ w.core := by
  unfold core
  cases front : w.front with
  | some leading => exact ⟨leading.1, by simp⟩
  | none =>
    have some : w.more ≠ [] := by simpa [front] using w.signed
    obtain ⟨t, more, terms⟩ := List.exists_cons_of_ne_nil some
    exact ⟨t.sign, by simp [terms, WrittenTerm.chars]⟩

theorem terms_core : Formula.terms w.core = w.terms := by
  rw [terms_eq]
  unfold core terms
  cases front : w.front with
  | none =>
    have gap : ∀ c ∈ ([] : List Char), isBlank c = true := by simp
    exact codesOf_signedPieces w.isCode gap .plus w.more
  | some leading =>
    have gap := w.front_blank leading (by simp [front])
    dsimp only
    rw [signedPieces_mark, codesOf_cons_blank (by simp)]
    exact codesOf_signedPieces w.isCode gap leading.1 w.more

/-- A written sum denotes the sum of its codes with their signs. -/
theorem ofText_text : Formula.ofText w.text = .signedSum w.terms := by
  have signs : (w.core.contains '+' || w.core.contains '-') = true := by
    obtain ⟨u, hu⟩ := w.exists_mark
    cases u with
    | plus => simp [show '+' ∈ w.core from hu]
    | minus => simp [show '-' ∈ w.core from hu]
  unfold ofText
  rw [w.trim_text]
  dsimp only
  rw [inside?_of_not_mem (by decide) w.opening_not_mem,
    inside?_of_not_mem (by decide) w.opening_not_mem]
  dsimp only
  rw [if_pos signs, w.terms_core]

theorem startsRunningTotal_text : Formula.startsRunningTotal w.text = false := by
  rw [Bool.eq_false_iff]
  intro starts
  rw [startsRunningTotal, w.trim_text, List.isPrefixOf_iff_prefix] at starts
  exact w.opening_not_mem (starts.subset (by decide))

end WrittenSum

end Formula

open Formula

variable {α : Type} [Amount α]

namespace Formula.WrittenSum

/-- From zeros on, each code adds its series times its sign; a code that is not known adds zeros. -/
def total (w : WrittenSum) (lines : Lines α) (months : Nat) : Series α :=
  w.terms.foldl
    (fun sum t => Lines.plus sum
      (((lines.lookup t.2).getD (Series.zeros months)).map (Lines.factor t.1 * ·)))
    (Series.zeros months)

/-- A notice for each time that a code is named which is not known. -/
def unknown (w : WrittenSum) (lines : Lines α) (user : String) : List Notice :=
  (w.terms.filter fun t => ¬lines.has t.2).map fun t => .unknownItem t.2 user

end Formula.WrittenSum

namespace Lines

variable {items : Entries LineItem} {lines : Lines α} {months : Nat} {i : LineItem}

theorem formula?_of_written {w : WrittenSum} (written : i.formula = some w.text) :
    i.formula? = some w.text := by
  have visible : w.text.isEmpty = false := by
    rw [String.isEmpty_eq_false_iff, ne_eq, ← String.toList_eq_nil_iff]
    intro empty
    have core := w.trim_text
    rw [empty] at core
    exact w.core_ne_nil core.symm
  simp [LineItem.formula?, written, visible]

theorem evaluate_written {w : WrittenSum} (written : i.formula = some w.text) :
    lines.evaluate items months i =
      (if i.cumulative then Series.runningTotal (w.total lines months) else w.total lines months,
        w.unknown lines i.code) := by
  unfold evaluate
  rw [formula?_of_written written]
  dsimp only
  rw [w.ofText_text, w.startsRunningTotal_text, Bool.not_false, Bool.and_true]
  exact congrArg (Prod.mk _) (flatMap_notices _ _ w.terms)

/-- A written sum adds up its codes from left to right, each with the sign before it, with a notice
for each that is not known. Codes are words with points between them, but may hold other characters
as well. Where such a sum is the formula of an item, only the code of the item changes. -/
theorem sums_written (items : Entries LineItem) (lines : Lines α) (months : Nat) :
    (∀ words : List String, words ≠ [] → (∀ s ∈ words, IsWord s) → IsCode (".".intercalate words)) ∧
    ∀ w : WrittenSum,
      lines.formula items months (.ofText w.text) = w.total lines months ∧
      (∀ user, lines.formulaNotices user (.ofText w.text) = w.unknown lines user) ∧
      (lines.Sized months →
        (w.total lines months).length = months ∧
        ∀ m < months, (w.total lines months)[m]? = some (lines.signedAmount w.terms m)) ∧
      ∀ i : LineItem, i.formula = some w.text → ∀ notices,
        Lines.step items months (lines, notices) i =
          (lines.put i.code
              (if i.cumulative then Series.runningTotal (w.total lines months)
                else w.total lines months),
            notices ++ w.unknown lines i.code) := by
  refine ⟨fun words some each => isCode_of_words some each, fun w => ⟨?_, ?_, ?_, ?_⟩⟩
  · rw [w.ofText_text]
    rfl
  · intro user
    rw [w.ofText_text]
    exact flatMap_notices _ _ w.terms
  · intro sized
    exact ⟨sized.length_signedSum w.terms, fun m inside => sized.getElem?_signedSum inside w.terms⟩
  · intro i written notices
    rw [step, evaluate_written written]

def netFlow : WrittenSum where
  before := [' ']
  front := some (.minus, [' '])
  code := ".".intercalate ["cash", "in"]
  more := [⟨[], .plus, [], ".".intercalate ["gone"],
    by simp, isCode_of_words (by simp) (by decide)⟩,
    ⟨[' ', ' '], .minus, ['\t'], ".".intercalate ["cash", "in"], List.all_eq_true.1 rfl,
      isCode_of_words (by simp) (by decide)⟩]
  after := ['\n']
  blank := List.all_eq_true.1 rfl
  front_blank := by
    rintro _ ⟨⟩
    exact List.all_eq_true.1 rfl
  isCode := isCode_of_words (by simp) (by decide)
  signed := .inl rfl

def cashFlow : Lines Float :=
  [("cash.in", [3, 4]), ("net", [0, 0])]

theorem sums_written_netFlow :
    netFlow.text = " - cash.in+gone  -\tcash.in\n" ∧ cashFlow.Sized 2 ∧
      Lines.step [] 2 (cashFlow, [])
          ⟨"net", none, 0, .plus, some netFlow.text, false, false, none⟩ =
        ([("cash.in", [3, 4]), ("net", [-6, -8])], [.unknownItem "gone" "net"]) ∧
      cashFlow.signedAmount netFlow.terms 1 = -8 := by
  obtain ⟨-, written⟩ := sums_written [] cashFlow 2
  obtain ⟨-, -, sums, steps⟩ := written netFlow
  have sized : cashFlow.Sized 2 := by
    intro code
    unfold read cashFlow
    rw [List.lookup_cons, List.lookup_cons]
    cases code == "cash.in" <;> cases code == "net" <;> rfl
  have total : netFlow.total cashFlow 2 = [-6, -8] := by decide +kernel
  refine ⟨rfl, sized, ?_, ?_⟩
  · rw [steps _ rfl, total]
    rfl
  · have second := (sums sized).2 1 (by decide)
    rw [total] at second
    exact (Option.some.inj second).symm

end Lines
end Forecast

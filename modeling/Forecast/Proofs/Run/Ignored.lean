import Forecast.Proofs.Run.Override

/-!
# Keys that are no months

Most keys that denote no month of a series are ignored, each with one notice.
But a text that looks like a month is always read as an integer, and reading it
fails if it has more than one minus sign, a digit that takes no part in decimal
numbers, or too many digits. With such a key no change is made at all.
-/

namespace Forecast

open Outcome Text

namespace Text

variable {s : List Char}

theorem Trimmed.strip_eq (h : Trimmed s) : strip isSpace s = s := by
  have visible : ∀ c, isBlank c = false → isSpace c = false := by
    intro c hc
    rw [isBlank, Bool.or_eq_false_iff] at hc
    exact hc.1
  have last : ∀ c ∈ s.reverse.head?, isSpace c = false := by
    rw [List.head?_reverse]
    exact fun c hc => visible c (h.last c hc)
  rw [strip, dropEnd, dropWhile_eq_self fun c hc => visible c (h.first c hc),
    dropWhile_eq_self last, List.reverse_reverse]

end Text

namespace Decimal

variable {s : List Char} {n : Int}

/-- What is read as an integer consists of decimal digits, not too many of them, after its sign. -/
theorem isDigits_of_int (stripped : strip isSpace s = s) (plain : '_' ∉ (spanSign s).2)
    (h : int s = .value n) :
    IsDigits (spanSign s).2 ∧ (spanSign s).2.length ≤ digitLimit := by
  unfold int at h
  rw [stripped] at h
  generalize spanSign s = signed at h plain
  obtain ⟨negative, body⟩ := signed
  obtain ⟨digits, cut, decimal⟩ := exists_spanDigits false body
  dsimp only at h plain ⊢
  rw [spanDigits_eq plain] at h
  split at h
  · cases h
  · cases h
  · rename_i nonempty _ span
    split at h
    · cases h
    · split at h
      · rename_i short empty
        rw [span, List.isEmpty_iff.1 empty, List.append_nil] at cut
        subst cut
        rw [← spanDigits_eq plain false false, spanDigits_of_forall decimal] at span
        have count := congrArg List.length (Prod.mk.inj span).1
        rw [length_digitValues decimal] at count
        refine ⟨⟨?_, decimal⟩, by omega⟩
        rintro rfl
        exact nonempty (List.length_eq_zero_iff.1 count.symm)
      · cases h

end Decimal

namespace Overrides

variable {o : Overrides} {output channel : String} {key v : Value} {m : Int} {length : Nat}
  {es : MonthValues} {changes : List (Int × Value)} {ignored : List Value} {xs ys : Series Float}
  {s minuses digits : List Char}

/-! ## Texts that look like months -/

/-- Minus signs and digits of any kind: what a text is taken for a month by. -/
structure IsMonthLike (s minuses digits : List Char) : Prop where
  cut : s = minuses ++ digits
  signs : ∀ c ∈ minuses, c = '-'
  nonempty : digits ≠ []
  like : ∀ c ∈ digits, isDigitLike c = true

/-- A text that looks like a month and is not read as an integer: it has two minus signs, a digit
that is not decimal, or more digits than are read. -/
inductive Misread : Value → Prop
  | text {s : String} {minuses digits : List Char}
      (like : IsMonthLike (trim s.toList) minuses digits)
    (cause : 1 < minuses.length ∨ (∃ c ∈ digits, isDecimalDigit c = false) ∨
      Decimal.digitLimit < digits.length) : Misread (.text s)

theorem looksLikeMonth_iff :
    looksLikeMonth s = true ↔ ∃ minuses digits, IsMonthLike (trim s) minuses digits := by
  have cut := List.takeWhile_append_dropWhile (p := (· == '-')) (l := trim s)
  simp only [looksLikeMonth, Bool.and_eq_true, Bool.not_eq_true', List.isEmpty_eq_false_iff,
    List.all_eq_true]
  constructor
  · rintro ⟨nonempty, like⟩
    exact ⟨_, _, cut.symm, fun c hc => by simpa using List.mem_takeWhile_imp hc, nonempty, like⟩
  · rintro ⟨minuses, digits, same, signs, nonempty, like⟩
    have stop : ∀ c ∈ digits.head?, (c == '-') = false := by
      intro c hc
      have digit := like c (List.mem_of_mem_head? hc)
      rw [beq_eq_false_iff_ne]
      rintro rfl
      exact absurd digit (by decide)
    have rest : (trim s).dropWhile (· == '-') = digits := by
      rw [same, List.dropWhile_append_of_pos fun c hc => by simp [signs c hc],
        dropWhile_eq_self stop]
    rw [rest]
    exact ⟨nonempty, like⟩

namespace IsMonthLike

theorem notMem_digits (h : IsMonthLike s minuses digits) {c : Char}
    (other : isDigitLike c = false) :
    c ∉ digits := by
  intro hc
  rw [h.like c hc] at other
  cases other

theorem spanSign (h : IsMonthLike s minuses digits) :
    (Decimal.spanSign s).2 = minuses.tail ++ digits := by
  rw [h.cut]
  cases minuses with
  | nil =>
    fun_cases Decimal.spanSign digits with
    | case1 => exact absurd List.mem_cons_self (h.notMem_digits (c := '-') (by decide))
    | case2 => exact absurd List.mem_cons_self (h.notMem_digits (c := '+') (by decide))
    | case3 => simp
  | cons c rest =>
    cases h.signs c (by simp)
    rfl

theorem of_int (h : IsMonthLike s minuses digits) (trimmed : Trimmed s) {n : Int}
    (read : Decimal.int s = .value n) :
    minuses.length ≤ 1 ∧ (∀ c ∈ digits, isDecimalDigit c = true) ∧
      digits.length ≤ Decimal.digitLimit := by
  have plain : '_' ∉ (Decimal.spanSign s).2 := by
    rw [h.spanSign, List.mem_append, not_or]
    refine ⟨fun hc => ?_, h.notMem_digits (by decide)⟩
    exact absurd (h.signs _ (List.mem_of_mem_tail hc)) (by decide)
  obtain ⟨written, short⟩ := Decimal.isDigits_of_int trimmed.strip_eq plain read
  rw [h.spanSign] at written short
  have single : minuses.tail = [] := by
    apply List.eq_nil_iff_forall_not_mem.2
    intro c hc
    have digit := written.digits c (List.mem_append_left _ hc)
    rw [h.signs c (List.mem_of_mem_tail hc)] at digit
    exact absurd digit (by decide)
  rw [single, List.nil_append] at written short
  refine ⟨?_, written.digits, short⟩
  have count := congrArg List.length single
  rw [List.length_tail, List.length_nil] at count
  omega

theorem isInteger (h : IsMonthLike s minuses digits) (single : minuses.length ≤ 1)
    (decimal : ∀ c ∈ digits, isDecimalDigit c = true) : ∃ n, Decimal.IsInteger s n := by
  have written : Decimal.IsDigits digits := ⟨h.nonempty, decimal⟩
  rw [h.cut]
  cases minuses with
  | nil => exact ⟨_, .plain written⟩
  | cons c rest =>
    cases h.signs c (by simp)
    cases rest with
    | nil => exact ⟨_, .negative written⟩
    | cons _ _ => simp at single

end IsMonthLike

theorem Misread.fails (h : Misread key) : ∃ fault, month? key = .error fault := by
  cases h with
  | @text s minuses digits like cause =>
    have looks : looksLikeMonth s.toList = true := looksLikeMonth_iff.2 ⟨_, _, like⟩
    rw [month?, if_pos looks, Value.intOfText, String.toList_ofList]
    split
    · rename_i n read
      obtain ⟨single, decimal, short⟩ := like.of_int (trimmed_trim s.toList) read
      rcases cause with more | ⟨c, hc, other⟩ | long
      · omega
      · rw [decimal c hc] at other
        cases other
      · omega
    · exact ⟨_, rfl⟩
    · exact ⟨_, rfl⟩

theorem looksLikeMonth_of_denotes {s : String} (h : Denotes (.text s) m) :
    looksLikeMonth s.toList = true := by
  cases h with
  | text cut blank written =>
    apply looksLikeMonth_of_isInteger _ written
    rw [cut, written.trimmed.trim_surrounded written.ne_nil blank]

theorem month?_of_not_misread (h : ¬Misread key) :
    (∃ m, Denotes key m ∧ month? key = .ok (some m)) ∨
      (∀ m, ¬Denotes key m) ∧ month? key = .ok none := by
  cases key with
  | int n => exact .inl ⟨n, .int n, rfl⟩
  | text s =>
    cases looks : looksLikeMonth s.toList with
    | true =>
      obtain ⟨minuses, digits, like⟩ := looksLikeMonth_iff.1 looks
      have decimal : ∀ c ∈ digits, isDecimalDigit c = true := by
        intro c hc
        by_contra other
        exact h ⟨like, .inr (.inl ⟨c, hc, by simpa using other⟩)⟩
      have single : minuses.length ≤ 1 := Nat.le_of_not_lt fun more => h ⟨like, .inl more⟩
      have short : ¬digits.length > Decimal.digitLimit := fun long => h ⟨like, .inr (.inr long)⟩
      obtain ⟨n, written⟩ := like.isInteger single decimal
      obtain ⟨before, after, cut, blank⟩ := exists_trim s.toList
      have signs : minuses.countP isDecimalDigit = 0 := by
        rw [List.countP_eq_zero]
        intro c hc
        rw [like.signs c hc]
        decide
      refine .inl ⟨n, .text cut blank written, ?_⟩
      rw [month?, if_pos looks, Value.intOfText, String.toList_ofList,
        Decimal.int_of_isInteger written,
        like.cut, List.countP_append, signs, List.countP_eq_length.2 decimal, Nat.zero_add,
        if_neg short]
      rfl
    | false =>
      refine .inr ⟨fun m denotes => ?_, by rw [month?, if_neg (by simp [looks])]⟩
      rw [looksLikeMonth_of_denotes denotes] at looks
      cases looks
  | _ => exact .inr ⟨by rintro m ⟨⟩, rfl⟩

/-! ## What becomes of a key -/

/-- The keys of a channel in order: those that denote a month of the series are its changes, the
others are ignored. -/
inductive Treated (length : Nat) : MonthValues → List (Int × Value) → List Value → Prop
  | nil : Treated length [] [] []
  | applied {key v : Value} {m : Int} {es : MonthValues} {changes : List (Int × Value)}
    {ignored : List Value} (denotes : Denotes key m) (inside : 0 ≤ m ∧ m < length)
    (rest : Treated length es changes ignored) :
    Treated length ((key, v) :: es) ((m, v) :: changes) ignored
  | ignored {key v : Value} {es : MonthValues} {changes : List (Int × Value)} {ignored : List Value}
    (outside : ∀ m, Denotes key m → ¬(0 ≤ m ∧ m < length))
    (rest : Treated length es changes ignored) :
    Treated length ((key, v) :: es) changes (key :: ignored)

theorem exists_treated (length : Nat) (es : MonthValues) :
    ∃ changes ignored, Treated length es changes ignored := by
  induction es with
  | nil => exact ⟨[], [], .nil⟩
  | cons e es ih =>
    obtain ⟨changes, ignored, rest⟩ := ih
    by_cases month : ∃ m, Denotes e.1 m ∧ 0 ≤ m ∧ m < length
    · obtain ⟨m, denotes, inside⟩ := month
      exact ⟨_, _, .applied denotes inside rest⟩
    · exact ⟨_, _, .ignored (fun m denotes inside => month ⟨m, denotes, inside⟩) rest⟩

theorem Treated.inside (treated : Treated length es changes ignored) :
    ∀ e ∈ changes, 0 ≤ e.1 ∧ e.1 < length := by
  induction treated with
  | nil => simp
  | applied _ inside _ ih => exact List.forall_mem_cons.2 ⟨inside, ih⟩
  | ignored _ _ ih => exact ih

theorem applyOne_of_misread (output channel : String) (xs : Series Float) (h : Misread key)
    (v : Value) :
    ∃ fault, (applyOne output channel xs (key, v)).outcome = .error fault := by
  obtain ⟨fault, failed⟩ := h.fails
  exact ⟨.number fault, by rw [applyOne, failed]; rfl⟩

theorem applyOne_of_read {month : Option Int} (read : month? key = .ok month) (v : Value) :
    applyOne output channel xs (key, v) =
      match position? xs.length month with
      | none => ⟨[.monthOutOfRange output channel key], .ok xs⟩
      | some p => ⟨[], (v.toFloat.mapError Fault.number).map (xs.set p ·)⟩ := by
  have month : ((do return ← month? key : Except Fault (Option Int)) : Logged _) = pure month := by
    rw [read]
    rfl
  rw [applyOne, month, pure_bind]
  cases position? xs.length _ with
  | none => rfl
  | some p => cases v.toFloat <;> rfl

theorem applyOne_inside (read : ¬Misread key) (denotes : Denotes key m)
    (inside : 0 ≤ m ∧ m < xs.length) (v : Value) :
    applyOne output channel xs (key, v) = ⟨[], place xs (m, v)⟩ := by
  have month : month? key = .ok (some m) := by
    rcases month?_of_not_misread read with ⟨n, -, known⟩ | ⟨none, -⟩
    · have unique := month?_of_denotes denotes
      split at unique
      · rw [known] at unique
        cases unique
      · exact unique
    · exact absurd denotes (none m)
  have position : position? xs.length (some m) = some m.toNat := if_pos inside
  rw [applyOne_of_read month, position, place, if_pos inside]

theorem applyOne_outside (read : ¬Misread key)
    (outside : ∀ m, Denotes key m → ¬(0 ≤ m ∧ m < xs.length)) (v : Value) :
    applyOne output channel xs (key, v) = ⟨[.monthOutOfRange output channel key], .ok xs⟩ := by
  rcases month?_of_not_misread read with ⟨m, denotes, month⟩ | ⟨-, month⟩
  · have position : position? xs.length (some m) = none := if_neg (outside m denotes)
    rw [applyOne_of_read month, position]
  · rw [applyOne_of_read month]
    rfl

/-! ## Tables with any keys -/

/-- A misread key stops everything; if there is none, the changes are made in their order. -/
theorem foldlM_treated (treated : Treated length es changes ignored) (same : xs.length = length) :
    (es.foldlM (applyOne output channel) xs).outcome = .ok ys ↔
      (∀ e ∈ es, ¬Misread e.1) ∧ changes.foldlM place xs = .ok ys := by
  induction treated generalizing xs with
  | nil => simp
  | @applied key v m es changes ignored denotes inside rest ih =>
    subst same
    rw [List.foldlM_cons, Logged.outcome_bind, List.foldlM_cons, List.forall_mem_cons]
    by_cases read : Misread key
    · obtain ⟨fault, failed⟩ := applyOne_of_misread output channel xs read v
      rw [failed]
      simp [read, bind, Except.bind]
    · rw [applyOne_inside read denotes inside]
      simp only [bind_eq_ok, read, not_false_eq_true, true_and]
      constructor
      · rintro ⟨zs, placed, rest⟩
        obtain ⟨reads, rest⟩ := (ih (length_place placed)).1 rest
        exact ⟨reads, zs, placed, rest⟩
      · rintro ⟨reads, zs, placed, rest⟩
        exact ⟨zs, placed, (ih (length_place placed)).2 ⟨reads, rest⟩⟩
  | @ignored key v es changes ignored outside rest ih =>
    subst same
    rw [List.foldlM_cons, Logged.outcome_bind, List.forall_mem_cons]
    by_cases read : Misread key
    · obtain ⟨fault, failed⟩ := applyOne_of_misread output channel xs read v
      rw [failed]
      simp [read, bind, Except.bind]
    · rw [applyOne_outside read outside, ok_bind, ih rfl]
      simp [read]

theorem notices_treated (treated : Treated length es changes ignored) (same : xs.length = length)
    (made : (es.foldlM (applyOne output channel) xs).outcome = .ok ys) :
    (es.foldlM (applyOne output channel) xs).notices =
      ignored.map (Notice.monthOutOfRange output channel) := by
  have read := ((foldlM_treated treated same).1 made).1
  induction treated generalizing xs with
  | nil => rfl
  | @applied key v m es changes ignored denotes inside rest ih =>
    subst same
    rw [List.forall_mem_cons] at read
    rw [List.foldlM_cons] at made ⊢
    rw [applyOne_inside read.1 denotes inside] at made ⊢
    rw [Logged.outcome_bind, bind_eq_ok] at made
    obtain ⟨zs, placed, made⟩ := made
    rw [Logged.notices_bind_ok _ placed, ih (length_place placed) made read.2]
    rfl
  | @ignored key v es changes ignored outside rest ih =>
    subst same
    rw [List.forall_mem_cons] at read
    rw [List.foldlM_cons] at made ⊢
    rw [applyOne_outside read.1 outside] at made ⊢
    rw [Logged.outcome_bind, ok_bind] at made
    rw [Logged.notices_bind_ok _ rfl, ih rfl made read.2]
    rfl

/-- Whatever the keys are, each one denotes a month of the series and is a change, or is ignored.
The series is changed just if no key is misread and the values of all changes are numbers. Then each
month holds the value of its last change, and each key that is ignored has made one notice. -/
theorem applied_or_ignored (o : Overrides) (output channel : String) (xs : Series Float) :
    ∃ changes ignored, Treated xs.length (o.months output channel) changes ignored ∧
      ((∃ ys, (o.apply output channel xs).outcome = .ok ys) ↔
        (∀ e ∈ o.months output channel, ¬Misread e.1) ∧ ∀ e ∈ changes, ∃ x, e.2.toFloat = .ok x) ∧
      ∀ ys, (o.apply output channel xs).outcome = .ok ys →
        Landed changes xs ys ∧ (o.apply output channel xs).notices =
          ignored.map (Notice.monthOutOfRange output channel) := by
  obtain ⟨changes, ignored, treated⟩ := exists_treated xs.length (o.months output channel)
  have outcome {ys : Series Float} : (o.apply output channel xs).outcome = .ok ys ↔ _ :=
    foldlM_treated treated rfl
  refine ⟨changes, ignored, treated, ?_, fun ys made => ⟨?_, notices_treated treated rfl made⟩⟩
  · rw [exists_congr fun _ => outcome, exists_and_left, exists_foldlM_place]
    apply and_congr_right
    intro _
    constructor
    · exact fun numbers e mem => numbers e mem (treated.inside e mem).1 (treated.inside e mem).2
    · exact fun numbers e mem _ _ => numbers e mem
  · exact landed_of_foldlM (outcome.1 made).2

def mixed : Overrides :=
  [("a", some [("val", some [(.int 1, .float 3), (.null, .float 4), (.text " 0\t", .float 5),
    (.text "soon", .float 6), (.text "+1", .float 7), (.bool true, .float 8),
    (.int 2, .float 9)])])]

example : mixed.apply "a" "val" [0, 0] =
    ⟨[.null, .text "soon", .text "+1", .bool true, .int 2].map (.monthOutOfRange "a" "val"),
      .ok [5, 3]⟩ := rfl

/-- Two minus signs are no number, but the key is not ignored either. -/
theorem aborts_twoMinuses :
    Misread (.text "--1") ∧ ((single ['-', '-', '1']).apply "a" "val" [0, 0]).outcome =
      .error (.number (.notInteger "--1")) := by
  have like : IsMonthLike (trim "--1".toList) ['-', '-'] ['1'] :=
    ⟨rfl, by simp, by simp, List.all_eq_true.1 rfl⟩
  exact ⟨.text like (.inl (by decide)), rfl⟩

end Overrides
end Forecast

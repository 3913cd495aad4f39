import Forecast.Proofs.Decimal.Integer
import Forecast.Proofs.Outcome
import Forecast.Run.Override

/-!
# Overridden months

What a table of overrides asks for in a channel of an output are changes, each
of a month, in the order of the keys. Whatever the keys are written like, a
month holds the value of its last change, or what it held before.
-/

namespace Forecast

open Outcome Text

namespace Overrides

variable {o : Overrides} {output channel : String} {key v : Value} {m : Int} {e : Int × Value}
  {changes changes' : List (Int × Value)} {xs ys zs : Series Float} {s body : List Char}

/-! ## Keys -/

/-- An integer denotes itself, and so does a text of one that may have blanks around it. -/
inductive Denotes : Value → Int → Prop
  | int (n : Int) : Denotes (.int n) n
  | text {s : String} {before body after : List Char} {n : Int}
    (cut : s.toList = before ++ (body ++ after)) (blank : ∀ c ∈ before ++ after, isBlank c = true)
    (written : Decimal.IsInteger body n) : Denotes (.text s) n

def digitCount : Value → Nat
  | .text s => s.toList.countP isDecimalDigit
  | _ => 0

theorem dropWhile_minus (digits : Decimal.IsDigits s) : s.dropWhile (· == '-') = s :=
  dropWhile_eq_self fun c hc => by simpa using (digits.unsigned c hc).2

theorem looksLikeMonth_of_isInteger (trimmed : trim s = body) (h : Decimal.IsInteger body m) :
    looksLikeMonth s = true := by
  obtain ⟨digits, rest, written⟩ : ∃ digits, body.dropWhile (· == '-') = digits ∧
      Decimal.IsDigits digits := by
    cases h with
    | plain written => exact ⟨_, dropWhile_minus written, written⟩
    | negative written =>
      exact ⟨_, by rw [List.dropWhile_cons_of_pos (by decide), dropWhile_minus written], written⟩
  have like : ∀ c ∈ digits, isDigitLike c = true := fun c hc => by
    rw [isDigitLike, written.digits c hc, Bool.true_or]
  rw [looksLikeMonth, trimmed, rest]
  simpa [written.nonempty] using like

theorem month?_of_denotes (h : Denotes key m) :
    month? key = if digitCount key > Decimal.digitLimit then
      .error (.tooManyDigits (digitCount key))
      else .ok (some m) := by
  cases h with
  | int n => rfl
  | @text s before body after n cut blank written =>
    have trimmed : trim s.toList = body := by
      rw [cut, written.trimmed.trim_surrounded written.ne_nil blank]
    have blanks : ∀ t ⊆ before ++ after, t.countP isDecimalDigit = 0 := by
      intro t part
      rw [List.countP_eq_zero]
      intro c hc digit
      have visible := Decimal.isBlank_of_isDecimalDigit digit
      rw [blank c (part hc)] at visible
      cases visible
    have count : digitCount (.text s) = body.countP isDecimalDigit := by
      rw [digitCount, cut, List.countP_append, List.countP_append,
        blanks before (List.subset_append_left _ _), blanks after (List.subset_append_right _ _)]
      simp
    rw [month?, if_pos (looksLikeMonth_of_isInteger trimmed written), Value.intOfText,
      String.toList_ofList, trimmed, Decimal.int_of_isInteger written, count]
    by_cases long : body.countP isDecimalDigit > Decimal.digitLimit
    · rw [if_pos long, if_pos long]
      rfl
    · rw [if_neg long, if_neg long]
      rfl

/-! ## Tables -/

/-- A key with a value asks for a change of a month to this value. -/
def Reads (entry : Value × Value) (change : Int × Value) : Prop :=
  Denotes entry.1 change.1 ∧ entry.2 = change.2

/-- What a table asks for in a channel of an output: the months of its keys with their values, in
order. It asks for nothing if the output or the channel is left out, or is set to nothing. -/
inductive Asks (o : Overrides) (output channel : String) : List (Int × Value) → Prop
  | months {channels : Entries (Option MonthValues)} {months : MonthValues}
    {changes : List (Int × Value)} (outputs : o.lookup output = some (some channels))
    (given : channels.lookup channel = some (some months))
    (read : List.Forall₂ Reads months changes) : Asks o output channel changes
  | noOutput (none : o.lookup output = none) : Asks o output channel []
  | emptyOutput (empty : o.lookup output = some none) : Asks o output channel []
  | noChannel {channels : Entries (Option MonthValues)}
    (outputs : o.lookup output = some (some channels)) (none : channels.lookup channel = none) :
    Asks o output channel []
  | emptyChannel {channels : Entries (Option MonthValues)}
    (outputs : o.lookup output = some (some channels))
    (empty : channels.lookup channel = some none) : Asks o output channel []

theorem Asks.read (asked : o.Asks output channel changes) :
    List.Forall₂ Reads (o.months output channel) changes := by
  cases asked with
  | months outputs given read => simpa [Overrides.months, outputs, given] using read
  | noOutput none => simp [Overrides.months, none]
  | emptyOutput empty => simp [Overrides.months, empty]
  | noChannel outputs none => simp [Overrides.months, outputs, none]
  | emptyChannel outputs empty => simp [Overrides.months, outputs, empty]

/-- No key of a channel has more digits than are read. -/
def Readable (o : Overrides) (output channel : String) : Prop :=
  ∀ e ∈ o.months output channel, digitCount e.1 ≤ Decimal.digitLimit

/-! ## Changes -/

/-- Replaces the amount of a month of the series; another month changes nothing. -/
def place (xs : Series Float) (e : Int × Value) : Except Fault (Series Float) :=
  if 0 ≤ e.1 ∧ e.1 < xs.length then (e.2.toFloat.mapError Fault.number).map (xs.set e.1.toNat ·)
  else .ok xs

theorem place_eq_ok : place xs e = .ok ys ↔
    (0 ≤ e.1 ∧ e.1 < xs.length) ∧ (∃ x, e.2.toFloat = .ok x ∧ xs.set e.1.toNat x = ys) ∨
      ¬(0 ≤ e.1 ∧ e.1 < xs.length) ∧ xs = ys := by
  rw [place]
  split
  · rename_i inside
    simp only [map_eq_ok, mapError_eq_ok, inside, and_self, true_and, not_true, false_and, or_false]
  · rename_i outside
    simp only [outside, false_and, false_or, not_false_eq_true, true_and, Except.ok.injEq]

theorem outcome_applyOne {change : Value × Value} (h : Denotes change.1 m) :
    (applyOne output channel xs change).outcome =
      if digitCount change.1 > Decimal.digitLimit then
        .error (.number (.tooManyDigits (digitCount change.1)))
      else place xs (m, change.2) := by
  rw [applyOne, month?_of_denotes h]
  split
  · rfl
  · have month : (do return ← (.ok (some m) : Except NumberFault (Option Int)) :
        Except Fault (Option Int)) = .ok (some m) := rfl
    rw [month, Logged.outcome_bind, Logged.outcome_lift, ok_bind, place]
    by_cases inside : 0 ≤ m ∧ m < xs.length
    · have position : position? xs.length (some m) = some m.toNat := if_pos inside
      rw [position, if_pos inside]
      cases change.2.toFloat with
      | error fault => rfl
      | ok x => rfl
    · have position : position? xs.length (some m) = none := if_neg inside
      rw [position, if_neg inside]
      rfl

theorem length_place (h : place xs e = .ok ys) : ys.length = xs.length := by
  rcases place_eq_ok.1 h with ⟨-, x, -, rfl⟩ | ⟨-, rfl⟩
  · exact List.length_set
  · rfl

theorem getElem?_place_self {m : Nat} (h : place xs e = .ok ys) (inside : m < xs.length)
    (here : e.1 = m) : ∃ x, e.2.toFloat = .ok x ∧ ys[m]? = some x := by
  rcases place_eq_ok.1 h with ⟨-, x, number, rfl⟩ | ⟨outside, -⟩
  · refine ⟨x, number, ?_⟩
    rw [here, Int.toNat_natCast, List.getElem?_set_self inside]
  · omega

theorem getElem?_place_of_ne {m : Nat} (h : place xs e = .ok ys) (other : e.1 ≠ m) :
    ys[m]? = xs[m]? := by
  rcases place_eq_ok.1 h with ⟨⟨natural, -⟩, x, -, rfl⟩ | ⟨-, rfl⟩
  · exact List.getElem?_set_ne (by omega)
  · rfl

/-- All changes of months of the series are made if all their values are numbers. -/
theorem exists_foldlM_place : (∃ ys, changes.foldlM place xs = .ok ys) ↔
    ∀ e ∈ changes, 0 ≤ e.1 → e.1 < xs.length → ∃ x, e.2.toFloat = .ok x := by
  induction changes generalizing xs with
  | nil => exact ⟨by simp, fun _ => ⟨xs, rfl⟩⟩
  | cons e changes ih =>
    simp only [List.foldlM_cons, bind_eq_ok, List.forall_mem_cons]
    constructor
    · rintro ⟨ys, zs, first, rest⟩
      refine ⟨fun natural inside => ?_, ?_⟩
      · rcases place_eq_ok.1 first with ⟨-, x, number, -⟩ | ⟨outside, -⟩
        · exact ⟨x, number⟩
        · exact absurd ⟨natural, inside⟩ outside
      · rw [← length_place first]
        exact ih.1 ⟨ys, rest⟩
    · rintro ⟨number, numbers⟩
      obtain ⟨zs, first⟩ : ∃ zs, place xs e = .ok zs := by
        by_cases inside : 0 ≤ e.1 ∧ e.1 < xs.length
        · obtain ⟨x, known⟩ := number inside.1 inside.2
          exact ⟨_, place_eq_ok.2 (.inl ⟨inside, x, known, rfl⟩)⟩
        · exact ⟨xs, place_eq_ok.2 (.inr ⟨inside, rfl⟩)⟩
      rw [← length_place first] at numbers
      obtain ⟨ys, rest⟩ := ih.2 numbers
      exact ⟨ys, zs, first, rest⟩

/-! ## What a series holds in the end -/

/-- The value of the last change of a month. -/
def lastFor (changes : List (Int × Value)) (m : Int) : Option Value :=
  ((changes.filter (·.1 == m)).map (·.2)).getLast?

theorem lastFor_cons : lastFor (e :: changes) m =
    (lastFor changes m).or (if e.1 = m then some e.2 else none) := by
  by_cases here : e.1 = m
  · simp [lastFor, here, List.getLast?_cons]
  · simp [lastFor, here]

/-- Each month of a series holds the value of its last change, and without one what it held. -/
structure Landed (changes : List (Int × Value)) (xs ys : Series Float) : Prop where
  length : ys.length = xs.length
  changed : ∀ (m : Nat) (v : Value), m < xs.length → lastFor changes m = some v →
    ∃ x, v.toFloat = .ok x ∧ ys[m]? = some x
  kept : ∀ m : Nat, lastFor changes m = none → ys[m]? = xs[m]?

theorem landed_of_foldlM (h : changes.foldlM place xs = .ok ys) : Landed changes xs ys := by
  induction changes generalizing xs with
  | nil =>
    cases h
    exact ⟨rfl, nofun, fun _ _ => rfl⟩
  | cons e changes ih =>
    rw [List.foldlM_cons, bind_eq_ok] at h
    obtain ⟨zs, first, rest⟩ := h
    have landed := ih rest
    refine ⟨landed.length.trans (length_place first), ?_, ?_⟩
    · intro m v inside last
      rw [lastFor_cons] at last
      cases later : lastFor changes m with
      | some w =>
        rw [later] at last
        cases last
        exact landed.changed m v (by rwa [length_place first]) later
      | none =>
        rw [later, Option.none_or, Option.ite_none_right_eq_some] at last
        obtain ⟨here, value⟩ := last
        cases value
        rw [landed.kept m later]
        exact getElem?_place_self first inside here
    · intro m none
      rw [lastFor_cons, Option.or_eq_none_iff, ite_eq_right_iff] at none
      obtain ⟨later, other⟩ := none
      rw [landed.kept m later]
      exact getElem?_place_of_ne first (fun here => nomatch other here)

theorem Landed.unique (h : Landed changes xs ys) (h' : Landed changes xs zs) : ys = zs := by
  apply List.ext_getElem?
  intro m
  by_cases inside : m < xs.length
  · cases last : lastFor changes m with
    | none => rw [h.kept m last, h'.kept m last]
    | some v =>
      obtain ⟨x, number, holds⟩ := h.changed m v inside last
      obtain ⟨x', number', holds'⟩ := h'.changed m v inside last
      rw [number] at number'
      cases number'
      rw [holds, holds']
  · rw [List.getElem?_eq_none (by rw [h.length]; omega),
      List.getElem?_eq_none (by rw [h'.length]; omega)]

theorem Landed.congr (h : Landed changes xs ys)
    (same : ∀ m : Nat, m < xs.length → lastFor changes' m = lastFor changes m) :
    Landed changes' xs ys := by
  refine ⟨h.length, fun m v inside last => h.changed m v inside (by rwa [← same m inside]), ?_⟩
  intro m none
  by_cases inside : m < xs.length
  · exact h.kept m (by rwa [← same m inside])
  · rw [List.getElem?_eq_none (by rw [h.length]; omega), List.getElem?_eq_none (by omega)]

theorem Landed.twice (h : Landed changes xs ys) (h' : Landed changes ys zs) :
    Landed changes xs zs where
  length := h'.length.trans h.length
  changed := fun m v inside last => h'.changed m v (by rwa [h.length]) last
  kept := fun m none => (h'.kept m none).trans (h.kept m none)

/-! ## Tables and series -/

/-- The months of a table are replaced by the changes that it asks for, if its keys can be read. -/
theorem foldlM_applyOne {months : MonthValues} (read : List.Forall₂ Reads months changes) :
    months.foldlM (fun zs e => (applyOne output channel zs e).outcome) xs = .ok ys ↔
      (∀ e ∈ months, digitCount e.1 ≤ Decimal.digitLimit) ∧ changes.foldlM place xs = .ok ys := by
  induction read generalizing xs with
  | nil => simp
  | @cons e c months changes here _ ih =>
    obtain ⟨denotes, value⟩ := here
    rw [List.foldlM_cons, List.foldlM_cons, outcome_applyOne denotes, value, List.forall_mem_cons]
    by_cases long : digitCount e.1 > Decimal.digitLimit
    · rw [if_pos long]
      constructor
      · rintro ⟨⟩
      · rintro ⟨⟨short, -⟩, -⟩
        omega
    · rw [if_neg long]
      simp only [bind_eq_ok, ih]
      constructor
      · rintro ⟨zs, placed, readable, rest⟩
        exact ⟨⟨by omega, readable⟩, zs, placed, rest⟩
      · rintro ⟨⟨-, readable⟩, zs, placed, rest⟩
        exact ⟨zs, placed, readable, rest⟩

theorem Asks.outcome_eq_ok (asked : o.Asks output channel changes) :
    (o.apply output channel xs).outcome = .ok ys ↔
      o.Readable output channel ∧ changes.foldlM place xs = .ok ys := by
  rw [Overrides.apply, Logged.outcome_foldlM]
  exact foldlM_applyOne asked.read

/-- Whatever else a table asks for and whatever its keys are written like, what becomes of a series
depends on the changes of each of its months, in their order. -/
theorem Asks.outcome_congr {o' : Overrides} (asked : o.Asks output channel changes)
    (h : (o.apply output channel xs).outcome = .ok ys) (asked' : o'.Asks output channel changes')
    (readable : o'.Readable output channel)
    (same : ∀ m : Nat, m < xs.length →
      changes'.filter (·.1 == (m : Int)) = changes.filter (·.1 == (m : Int))) :
    (o'.apply output channel xs).outcome = .ok ys := by
  obtain ⟨-, placed⟩ := asked.outcome_eq_ok.1 h
  have numbers := exists_foldlM_place.1 ⟨ys, placed⟩
  have numbers' : ∀ e ∈ changes', 0 ≤ e.1 → e.1 < xs.length → ∃ x, e.2.toFloat = .ok x := by
    intro e mem natural inside
    have here : e ∈ changes'.filter (·.1 == (e.1.toNat : Int)) :=
      List.mem_filter.2 ⟨mem, by simp [Int.toNat_of_nonneg natural]⟩
    rw [same e.1.toNat (by omega)] at here
    exact numbers e (List.mem_filter.1 here).1 natural inside
  obtain ⟨zs, placed'⟩ := exists_foldlM_place.2 numbers'
  have agree : ∀ m : Nat, m < xs.length → lastFor changes' m = lastFor changes m := by
    intro m inside
    rw [lastFor, lastFor, same m inside]
  cases (landed_of_foldlM placed').unique ((landed_of_foldlM placed).congr agree)
  exact asked'.outcome_eq_ok.2 ⟨readable, placed'⟩

/-- Overrides land verbatim: if every key denotes a month, the months of a series are replaced just
if no key has more digits than are read and all values for its months are numbers. Then each month
holds the value of its last key. Keys outside of the series, the order of different months and all
else in the table change nothing, nor does a second time. -/
theorem lands_verbatim (asked : o.Asks output channel changes) :
    ((∃ ys, (o.apply output channel xs).outcome = .ok ys) ↔ o.Readable output channel ∧
      ∀ e ∈ changes, 0 ≤ e.1 → e.1 < xs.length → ∃ x, e.2.toFloat = .ok x) ∧
    ∀ ys, (o.apply output channel xs).outcome = .ok ys →
      Landed changes xs ys ∧ (o.apply output channel ys).outcome = .ok ys ∧
      ∀ o' : Overrides, o'.Readable output channel →
        (o'.Asks output channel (changes.filter fun e => 0 ≤ e.1 ∧ e.1 < xs.length) →
          (o'.apply output channel xs).outcome = .ok ys) ∧
        ∀ changes', o'.Asks output channel changes' →
          (∀ m, changes'.filter (·.1 == m) = changes.filter (·.1 == m)) →
          (o'.apply output channel xs).outcome = .ok ys := by
  constructor
  · simp only [asked.outcome_eq_ok, exists_and_left, exists_foldlM_place]
  intro ys h
  obtain ⟨readable, placed⟩ := asked.outcome_eq_ok.1 h
  have landed := landed_of_foldlM placed
  refine ⟨landed, ?_, fun o' readable' => ⟨fun asked' => ?_, fun changes' asked' same => ?_⟩⟩
  · have numbers := exists_foldlM_place.1 ⟨ys, placed⟩
    rw [← landed.length] at numbers
    obtain ⟨zs, again⟩ := exists_foldlM_place.2 numbers
    cases (landed.twice (landed_of_foldlM again)).unique landed
    exact asked.outcome_eq_ok.2 ⟨readable, again⟩
  · apply asked.outcome_congr h asked' readable'
    intro m inside
    rw [List.filter_filter]
    apply List.filter_congr
    intro e _
    by_cases here : e.1 = m
    · simp [here, inside]
    · simp [here]
  · exact asked.outcome_congr h asked' readable' fun m _ => same m

def crowded : Overrides :=
  [("b", none), ("a", some [("t", none), ("val", some [(.int 1, .float 3), (.text "-1", .float 4),
    (.text " 01\t", .float 5), (.int (-2), .int 9), (.text "0", .float 6), (.int 2, .float 7)])])]

def crowdedChanges : List (Int × Value) :=
  [(1, .float 3), (-1, .float 4), (1, .float 5), (-2, .int 9), (0, .float 6), (2, .float 7)]

theorem asks_crowded : crowded.Asks "a" "val" crowdedChanges := by
  have one : Decimal.IsDigits ['1'] := ⟨by simp, List.all_eq_true.1 rfl⟩
  have zero : Decimal.IsDigits ['0'] := ⟨by simp, List.all_eq_true.1 rfl⟩
  have padded : Decimal.IsDigits ['0', '1'] := ⟨by simp, List.all_eq_true.1 rfl⟩
  apply Asks.months rfl rfl
  refine .cons ⟨.int 1, rfl⟩ (.cons ⟨?_, rfl⟩ (.cons ⟨?_, rfl⟩ (.cons ⟨.int (-2), rfl⟩
    (.cons ⟨?_, rfl⟩ (.cons ⟨.int 2, rfl⟩ .nil)))))
  · exact @Denotes.text "-1" [] ['-', '1'] [] (-1) rfl (by simp) (.negative one)
  · exact @Denotes.text " 01\t" [' '] ['0', '1'] ['\t'] 1 rfl
      (List.all_eq_true.1 rfl) (.plain padded)
  · exact @Denotes.text "0" [] ['0'] [] 0 rfl (by simp) (.plain zero)

theorem lands_verbatim_crowded : (crowded.apply "a" "val" [0, 0]).outcome = .ok [6, 5] ∧
    (crowded.apply "a" "val" [6, 5]).outcome = .ok [6, 5] := by
  obtain ⟨success, lands⟩ := @lands_verbatim crowded "a" "val" crowdedChanges [0, 0] asks_crowded
  have readable : ∀ e ∈ crowded.months "a" "val", digitCount e.1 ≤ Decimal.digitLimit := by decide
  have numbers : ∀ e ∈ crowdedChanges, 0 ≤ e.1 → e.1 < 2 → ∃ x, e.2.toFloat = .ok x := by
    simp [crowdedChanges]
  obtain ⟨ys, h⟩ := success.2 ⟨readable, numbers⟩
  obtain ⟨landed, again, -⟩ := lands ys h
  obtain ⟨_, six, first⟩ := landed.changed 0 (.float 6) (by decide) rfl
  obtain ⟨_, five, second⟩ := landed.changed 1 (.float 5) (by decide) rfl
  cases six
  cases five
  obtain ⟨a, b, rfl⟩ := List.length_eq_two.1 landed.length
  cases first
  cases second
  exact ⟨h, again⟩

def single (digits : List Char) : Overrides :=
  [("a", some [("val", some [(.text (String.ofList digits), .float 5)])])]

/-- A key with too many digits denotes a month, and is neither applied nor ignored. -/
theorem fails_of_long (written : Decimal.IsDigits s) (long : Decimal.digitLimit < s.length) :
    (single s).Asks "a" "val" [(Decimal.valueOf s, .float 5)] ∧
      ((single s).apply "a" "val" xs).outcome = .error (.number (.tooManyDigits s.length)) := by
  have denotes := @Denotes.text (String.ofList s) [] s [] _ (by simp) (by simp) (.plain written)
  have count : digitCount (.text (String.ofList s)) = s.length := by
    rw [digitCount, String.toList_ofList, List.countP_eq_length.2 written.digits]
  have only : (single s).months "a" "val" = [(.text (String.ofList s), .float 5)] := rfl
  refine ⟨.months rfl rfl (.cons ⟨denotes, rfl⟩ .nil), ?_⟩
  rw [Overrides.apply, only, Logged.outcome_foldlM, List.foldlM_cons,
    outcome_applyOne denotes, count, if_pos long]
  rfl

theorem fails_longMonth : ∃ m, (single (List.replicate 4301 '1')).Asks "a" "val" [(m, .float 5)] ∧
    ((single (List.replicate 4301 '1')).apply "a" "val" [0, 0]).outcome =
      .error (.number (.tooManyDigits 4301)) := by
  have written : Decimal.IsDigits (List.replicate 4301 '1') := by
    refine ⟨List.ne_nil_of_length_pos (by rw [List.length_replicate]; omega), fun c hc => ?_⟩
    rw [List.eq_of_mem_replicate hc]
    decide
  have long : Decimal.digitLimit < (List.replicate 4301 '1').length := by
    rw [List.length_replicate]
    decide
  obtain ⟨asked, fails⟩ := @fails_of_long [0, 0] _ written long
  rw [List.length_replicate] at fails
  exact ⟨_, asked, fails⟩

end Overrides
end Forecast

import Forecast.Compute.Library
import Forecast.Proofs.Compute.Cut
import Forecast.Proofs.Compute.Subscribers
import Forecast.Proofs.Related
import Mathlib.Data.Rat.Floor

/-!
# Nothing before the start

Eight functions of the library begin at a start month. Before it they answer
zero, and what they answer from it on does not depend on what they are given for
the months before: they leave these months out, or start afresh, or multiply
them by zero. Both follow from reading two tasks at once that are the same from
the start on.
-/

namespace Forecast

open Outcome

namespace Series

section

variable {α : Type} [Amount α] {start : Int} {months : Nat} {xs ys : Series α}

/-- An input over the horizon; one of a single amount has it in every month. -/
def spread (months : Nat) : Series α → Series α
  | [x] => constant months x
  | xs => xs

/-- The same amounts from a month on, in as many months. -/
structure SameFrom (start : Int) (xs ys : Series α) : Prop where
  length : ys.length = xs.length
  later : ∀ m : Nat, start ≤ m → ys[m]? = xs[m]?

/-- Series over the horizon that are the same from a month on. -/
structure SameOver (start : Int) (months : Nat) (xs ys : Series α) : Prop extends
    SameFrom start xs ys where
  whole : xs.length = months

/-- A series over the horizon that is zero in the months before the start. -/
structure SilentBefore (start : Int) (months : Nat) (xs : Series α) : Prop where
  length : xs.length = months
  early : ∀ m < months, (m : Int) < start → xs[m]? = some 0

omit [Amount α] in
theorem SameFrom.refl (start : Int) (xs : Series α) : SameFrom start xs xs :=
  ⟨rfl, fun _ _ => rfl⟩

omit [Amount α] in
/-- What comes after so many months is the same, if nothing else is. -/
theorem sameFrom_append {n : Nat} (xs ys rest : Series α) (length : xs.length = n)
    (length' : ys.length = n) : SameFrom (n : Int) (xs ++ rest) (ys ++ rest) where
  length := by simp [length, length']
  later m late := by
    rw [List.getElem?_append_right (by omega), List.getElem?_append_right (by omega),
      length, length']

omit [Amount α] in
theorem SameOver.length_right (same : SameOver start months xs ys) : ys.length = months :=
  same.length.trans same.whole

omit [Amount α] in
theorem SameOver.zipWith {xs' ys' : Series α} (op : α → α → α) (left : SameOver start months xs xs')
    (right : SameOver start months ys ys') :
    SameOver start months (List.zipWith op xs ys) (List.zipWith op xs' ys') where
  length := by simp [left.length, right.length]
  later m late := by
    rw [List.getElem?_zipWith, List.getElem?_zipWith, left.later m late, right.later m late]
  whole := by simp [left.whole, right.whole]

theorem getElem?_startingAt (start : Int) (xs : Series α) (m : Nat) :
    (startingAt start xs)[m]? = xs[m]?.map fun x => if (m : Int) < start then 0 else x := by
  simp [startingAt, List.getElem?_mapIdx]

theorem SameFrom.getD_eq (same : SameFrom start xs ys) {m : Nat} (late : start ≤ m) :
    ys.getD m 0 = xs.getD m 0 := by
  rw [List.getD_eq_getElem?_getD, List.getD_eq_getElem?_getD, same.later m late]

theorem SameFrom.startingAt_eq (same : SameFrom start xs ys) :
    startingAt start ys = startingAt start xs := by
  apply List.ext_getElem?
  intro m
  rw [getElem?_startingAt, getElem?_startingAt]
  by_cases early : (m : Int) < start
  · by_cases inside : m < xs.length
    · have inside' : m < ys.length := same.length ▸ inside
      simp [early, inside, inside']
    · rw [List.getElem?_eq_none (Nat.not_lt.1 inside),
        List.getElem?_eq_none (same.length ▸ Nat.not_lt.1 inside)]
  · rw [same.later m (by omega)]

theorem silentBefore_startingAt (length : xs.length = months) :
    SilentBefore start months (startingAt start xs) where
  length := by rw [length_startingAt, length]
  early m inside early := by
    have found : xs[m]? = some xs[m] := List.getElem?_eq_getElem (length ▸ inside)
    rw [getElem?_startingAt, found, Option.map_some, if_pos early]

theorem silentBefore_of_getD (length : xs.length = months)
    (zero : ∀ m : Nat, m < start → xs.getD m 0 = 0) : SilentBefore start months xs where
  length := length
  early m inside early := by
    have found : xs[m]? = some (xs.getD m 0) := by
      simp [List.getD_eq_getElem?_getD, length, inside]
    rw [found, zero m early]

/-! ### Inputs -/

omit [Amount α] in
theorem length_spread (fits : xs.length = months ∨ xs.length = 1) :
    (xs.spread months).length = months := by
  unfold spread
  split
  · exact length_constant months _
  · rename_i several
    apply fits.resolve_right
    intro single
    obtain ⟨x, rfl⟩ := List.length_eq_one_iff.1 single
    exact several x rfl

theorem add_spread {target : Series α} (length : target.length = months) (given : Series α) :
    target.add given = target.add (given.spread months) := by
  unfold spread
  split
  · rename_i x
    have each : List.zipWith (· + ·) target (constant months x) = target.map (· + x) := by
      apply List.ext_getElem (by simp [length])
      intro m _ _
      simp [constant]
    have same : target.length = (constant months x).length := by simp [length]
    rw [add_of_length_eq same, each]
    unfold add
    -- Over a single month the series is added as one of the same length, which comes to the same.
    split
    · rename_i single
      obtain ⟨y, rfl⟩ := List.length_eq_one_iff.1 single
      rfl
    · rfl
  · rfl

theorem exists_add_error {target given : Series α} (length : target.length = months)
    (unfit : (given.spread months).length ≠ months) : ∃ e, target.add given = .error e := by
  unfold add
  split
  · rename_i same
    exact absurd (length_spread (.inl (same.symm.trans length))) unfit
  · split
    · exact absurd (length_constant months _) unfit
    · split
      · exact ⟨_, rfl⟩
      · exact ⟨_, rfl⟩

/-- Sums that are the same from the start on, so far, stay so. -/
theorem add_sameFrom {target target' given given' : Series α}
    (sums : SameOver start months target target')
    (same : SameFrom start (given.spread months) (given'.spread months)) :
    Related (SameOver start months) (target.add given) (target'.add given') := by
  by_cases fit : (given.spread months).length = months
  · have both : SameOver start months (given.spread months) (given'.spread months) := ⟨same, fit⟩
    rw [add_spread sums.whole, add_spread sums.length_right,
      add_of_length_eq (sums.whole.trans fit.symm),
      add_of_length_eq (sums.length_right.trans both.length_right.symm)]
    exact .ok (sums.zipWith _ both)
  · have unfit' : (given'.spread months).length ≠ months := same.length ▸ fit
    obtain ⟨e, failed⟩ := exists_add_error sums.whole fit
    obtain ⟨e', failed'⟩ := exists_add_error sums.length_right unfit'
    rw [failed, failed']
    exact .error e e'

theorem sum_sameFrom {inputs inputs' : List (Series α)}
    (same : List.Forall₂ (fun xs ys => SameFrom start (xs.spread months) (ys.spread months))
      inputs inputs') :
    RelatedIf (∀ xs ∈ inputs, xs.length = months ∨ xs.length = 1) (SameOver start months)
      (sum months inputs) (sum months inputs') := by
  constructor
  · apply Related.foldlM_forall₂ same ⟨.refl start _, length_zeros months⟩
    intro xs ys given a b sums
    exact add_sameFrom sums given
  · intro fits
    have step : ∀ xs ∈ inputs, ∀ total : Series α, total.length = months →
        ∃ next, total.add xs = .ok next ∧ next.length = months := by
      intro xs hxs total length
      have fit := length_spread (fits xs hxs)
      refine ⟨_, (add_spread length xs).trans (add_of_length_eq (length.trans fit.symm)), ?_⟩
      simp [length, fit]
    obtain ⟨total, done, -⟩ := exists_foldlM _ step (length_zeros months)
    exact ⟨total, done⟩

end

/-! ### Products -/

variable {start : Int} {months : Nat} {xs ys ys' : Series Rat}

theorem SilentBefore.mul (silent : SilentBefore start months xs) (length : ys.length = months) :
    SilentBefore start months (List.zipWith (· * ·) xs ys) where
  length := by simp [silent.length, length]
  early m inside early := by
    have factor : ys[m]? = some ys[m] := List.getElem?_eq_getElem (length ▸ inside)
    rw [List.getElem?_zipWith, silent.early m inside early, factor]
    exact congrArg some (zero_mul _)

/-- What is multiplied by zero is not seen. -/
theorem SilentBefore.mul_eq (silent : SilentBefore start months xs)
    (same : SameOver start months ys ys') :
    List.zipWith (· * ·) xs ys' = List.zipWith (· * ·) xs ys := by
  have product := silent.mul same.whole
  have product' := silent.mul same.length_right
  apply List.ext_getElem?
  intro m
  by_cases before : m < months ∧ (m : Int) < start
  · rw [product.early m before.1 before.2, product'.early m before.1 before.2]
  · by_cases inside : m < months
    · rw [List.getElem?_zipWith, List.getElem?_zipWith, same.later m (by omega)]
    · have beyond : months ≤ m := Nat.not_lt.1 inside
      rw [List.getElem?_eq_none (product'.length ▸ beyond),
        List.getElem?_eq_none (product.length ▸ beyond)]

end Series

/-! ## Tasks -/

/-- The assumptions that functions read month by month from the start on, and their defaults. -/
def monthlyAssumptions : List (String × Rat) :=
  [("factor", 1), ("amount", 0), ("churn", 0), ("price", 0), ("productivity", 1), ("headCount", 0),
    ("salary", 0)]

/-- Two tasks with the same start, whose inputs and monthly assumptions are the same from a month
on. -/
structure Task.SameFrom (start : Int) (t u : Task Rat) : Prop where
  months : u.months = t.months
  output : u.output = t.output
  first : u.settings.scalar "startMonth" = t.settings.scalar "startMonth"
  inputs : List.Forall₂
    (fun xs ys => Series.SameFrom start (xs.spread t.months) (ys.spread t.months)) t.inputs u.inputs
  assumptions : ∀ a ∈ monthlyAssumptions, Related (Series.SameFrom start)
    (t.settings.series t.months a.1 a.2) (u.settings.series t.months a.1 a.2)

/-- A task whose inputs fit the horizon and whose monthly assumptions can be read. -/
structure Task.Given (t : Task Rat) : Prop where
  inputs : ∀ xs ∈ t.inputs, xs.length = t.months ∨ xs.length = 1
  assumptions : ∀ a ∈ monthlyAssumptions, ∃ xs, t.settings.series t.months a.1 a.2 = .ok xs

theorem Task.SameFrom.refl (start : Int) (t : Task Rat) : t.SameFrom start t where
  months := rfl
  output := rfl
  first := rfl
  inputs := List.forall₂_same.2 fun _ _ => .refl start _
  assumptions _ _ := .self fun _ _ => .refl start _

theorem Settings.month_of_scalar {s : Settings Rat} {name : String} {x : Rat}
    (h : s.scalar name = .ok x) : s.month name = .ok ⌊x⌋ := by
  rw [month, h, ok_bind]
  rfl

namespace Compute

/-- Both answer the same series, over the horizon of a task and zero before the start; they do
answer if the task is given. -/
abbrev GatedFrom (start : Int) (t : Task Rat) (x y : Except Fault (Entries (Series Rat))) : Prop :=
  RelatedIf t.Given (fun a b => b = a ∧ ∀ c ∈ a, Series.SilentBefore start t.months c.2) x y

/-- A computation that sees nothing of what is before the start, and answers zero there. -/
def Gated (f : Computation Rat) : Prop :=
  ∀ (t u : Task Rat) (first : Rat), t.settings.scalar "startMonth" = .ok first →
    t.SameFrom ⌊first⌋ u →
    GatedFrom ⌊first⌋ t (f t) (f u)

section

variable {t u : Task Rat} {start : Int} {first : Rat}

theorem month_sameFrom (begins : t.settings.scalar "startMonth" = .ok first)
    (same : t.SameFrom ⌊first⌋ u) :
    RelatedIf t.Given (fun a b => a = ⌊first⌋ ∧ b = ⌊first⌋) (t.settings.month "startMonth")
      (u.settings.month "startMonth") := by
  rw [Settings.month_of_scalar begins, Settings.month_of_scalar (same.first.trans begins)]
  exact .ok ⟨rfl, rfl⟩

theorem combined_sameFrom (same : t.SameFrom start u) :
    RelatedIf t.Given (Series.SameOver start t.months) (combined t) (combined u) := by
  unfold combined
  rw [same.months]
  exact ((Series.sum_sameFrom same.inputs).mono Task.Given.inputs fun _ _ h => h).mapError

theorem series_sameFrom {name : String} {default : Rat} (same : t.SameFrom start u)
    (mem : (name, default) ∈ monthlyAssumptions) :
    RelatedIf t.Given (Series.SameOver start t.months)
      (t.settings.series t.months name default) (u.settings.series u.months name default) := by
  constructor
  · rw [same.months]
    apply (same.assumptions _ mem).with_left.mono
    rintro a b ⟨read, later⟩
    exact ⟨later, Setting.length_of_series? read⟩
  · exact fun given => given.assumptions _ mem

/-! ## Quantities -/

theorem startingAt_gated {xs ys : Series Rat} (same : t.SameFrom start u)
    (later : Series.SameOver start t.months xs ys) :
    GatedFrom start t (pure [(t.output, Series.startingAt start xs)])
      (pure [(u.output, Series.startingAt start ys)]) := by
  rw [same.output, later.startingAt_eq]
  exact .ok ⟨rfl, List.forall_mem_singleton.2 (Series.silentBefore_startingAt later.whole)⟩

def scaled (op : Rat → Rat → Rat) (t : Task Rat) : Except Fault (Entries (Series Rat)) := do
  let base ← combined t
  let factor ← t.settings.series t.months "factor" 1
  let start ← t.settings.month "startMonth"
  return [(t.output, Series.startingAt start (List.zipWith op base factor))]

theorem scaled_gated (op : Rat → Rat → Rat) : Gated (scaled op) := by
  intro t u first begins same
  unfold scaled
  apply (combined_sameFrom same).bind
  intro base base' bases
  apply (series_sameFrom same (by decide)).bind
  intro factor factor' factors
  apply (month_sameFrom begins same).bind
  rintro _ _ ⟨rfl, rfl⟩
  exact startingAt_gated same (bases.zipWith op factors)

theorem multiply_gated : Gated multiply := scaled_gated (· * ·)

theorem divide_gated : Gated divide := scaled_gated quotient

theorem quantStart_gated : Gated quantStart := by
  intro t u first begins same
  unfold quantStart
  apply (series_sameFrom same (by decide)).bind
  intro amount amount' amounts
  apply (month_sameFrom begins same).bind
  rintro _ _ ⟨rfl, rfl⟩
  exact startingAt_gated same amounts

/-! ## Staff -/

theorem staff_gated {heads heads' : Series Rat}
    (begins : t.settings.scalar "startMonth" = .ok first) (same : t.SameFrom ⌊first⌋ u)
    (later : Series.SameOver ⌊first⌋ t.months heads heads') :
    GatedFrom ⌊first⌋ t (staff t heads) (staff u heads') := by
  unfold staff
  apply (month_sameFrom begins same).bind
  rintro _ _ ⟨rfl, rfl⟩
  apply (series_sameFrom same (by decide)).bind
  intro salary salary' salaries
  have silent : Series.SilentBefore ⌊first⌋ t.months (Series.startingAt ⌊first⌋ heads) :=
    Series.silentBefore_startingAt later.whole
  rw [later.startingAt_eq, silent.mul_eq salaries]
  refine .ok ⟨rfl, ?_⟩
  simp [silent, silent.mul salaries.whole]

theorem staffDiv_gated : Gated staffDiv := by
  intro t u first begins same
  unfold staffDiv
  apply (combined_sameFrom same).bind
  intro activity activity' activities
  apply (series_sameFrom same (by decide)).bind
  intro rate rate' rates
  exact staff_gated begins same (activities.zipWith quotient rates)

theorem staffTeam_gated : Gated staffTeam := by
  intro t u first begins same
  unfold staffTeam
  apply (series_sameFrom same (by decide)).bind
  intro heads heads' counts
  exact staff_gated begins same counts

theorem staffRole_gated : Gated staffRole := by
  intro t u first begins same
  unfold staffRole
  rw [same.months]
  exact staff_gated begins same ⟨.refl _ _, Series.length_constant _ _⟩

/-! ## Subscribers -/

/-- Retention starts afresh at the start, from nobody. -/
theorem retention_gated (begins : t.settings.scalar "startMonth" = .ok first)
    (same : t.SameFrom ⌊first⌋ u) :
    RelatedIf t.Given
      (fun a b => b = a ∧ Series.SilentBefore ⌊first⌋ t.months (a.map (·.active)) ∧
        Series.SilentBefore ⌊first⌋ t.months (a.map (·.churned)))
      (retention t) (retention u) := by
  unfold retention retain
  apply (combined_sameFrom same).bind
  intro added added' gains
  apply (series_sameFrom same (by decide)).bind
  intro churn churn' rates
  apply (month_sameFrom begins same).bind
  rintro _ _ ⟨rfl, rfl⟩
  have fits : churn.length = added.length := rates.whole.trans gains.whole.symm
  have fits' : churn'.length = added'.length := rates.length_right.trans gains.length_right.symm
  obtain ⟨months, done, retains⟩ := retains_retainFrom fits ⌊first⌋ 0 0
  obtain ⟨months', done', retains'⟩ := retains_retainFrom fits' ⌊first⌋ 0 0
  -- Nobody comes into the first month from the start on, whatever was added and lost before it.
  have alike : months' = months := retains.unique retains' gains.length fun m late =>
    ⟨gains.getD_eq late, rates.getD_eq late⟩
  have length : months.length = t.months := retains.length.trans gains.whole
  rw [done, done', alike]
  refine .ok ⟨rfl, Series.silentBefore_of_getD (by rw [List.length_map, length]) ?_,
    Series.silentBefore_of_getD (by rw [List.length_map, length]) ?_⟩
  · exact fun m early => (retains.early early).1
  · exact fun m early => (retains.early early).2

theorem subRetain_gated : Gated subRetain := by
  intro t u first begins same
  unfold subRetain
  apply (retention_gated begins same).bind
  rintro months _ ⟨rfl, active, churned⟩
  refine .ok ⟨rfl, ?_⟩
  simp [active, churned]

theorem subMth_gated : Gated subMth := by
  intro t u first begins same
  unfold subMth
  apply (retention_gated begins same).bind
  rintro months _ ⟨rfl, active, churned⟩
  apply (series_sameFrom same (by decide)).bind
  intro price price' prices
  refine .ok ⟨by rw [active.mul_eq prices], ?_⟩
  simp [active, churned, active.mul prices.whole]

end

/-! ## The functions that begin -/

/-- The functions of the library that begin at a start month. -/
def beginning : List String :=
  ["Multiply", "Divide", "QuantStart", "SubRetain", "SubMth", "StaffDiv", "StaffTeam", "StaffRole"]

theorem beginning_gated : ∀ name ∈ beginning, ∃ f, find name = .ok f ∧ Gated f := by
  simp only [beginning, List.forall_mem_cons]
  exact ⟨⟨_, rfl, multiply_gated⟩, ⟨_, rfl, divide_gated⟩, ⟨_, rfl, quantStart_gated⟩,
    ⟨_, rfl, subRetain_gated⟩, ⟨_, rfl, subMth_gated⟩, ⟨_, rfl, staffDiv_gated⟩,
    ⟨_, rfl, staffTeam_gated⟩, ⟨_, rfl, staffRole_gated⟩, by simp⟩

/-- Nothing happens before the start. A function that begins at a start month answers every task
that is given, with series that are zero in the months before the start. It answers the same to
every other task whose inputs and monthly assumptions are the same from the start on. -/
theorem silent_before_start :
    ∀ name ∈ beginning, ∃ f : Computation Rat, find name = .ok f ∧
      ∀ (t : Task Rat) (first : Rat), t.settings.scalar "startMonth" = .ok first →
        (t.Given → ∃ channels, f t = .ok channels) ∧
        (∀ channels, f t = .ok channels →
          ∀ c ∈ channels, c.2.length = t.months ∧ ∀ m < t.months, (m : Int) < ⌊first⌋ →
            c.2[m]? = some 0) ∧
        ∀ u, t.SameFrom ⌊first⌋ u → ∀ channels, f u = .ok channels ↔ f t = .ok channels := by
  intro name mem
  obtain ⟨f, found, gated⟩ := beginning_gated name mem
  refine ⟨f, found, fun t first begins => ⟨?_, ?_, ?_⟩⟩
  · exact (gated t t first begins (.refl _ t)).succeeds
  · intro channels answered c hc
    have silent := ((gated t t first begins (.refl _ t)).related.of_ok answered answered).2 c hc
    exact ⟨silent.length, silent.early⟩
  · intro u same channels
    have alike := (gated t u first begins same).related.mono fun a b h => h.1
    rw [Related.eq_ok_iff (k := id) alike]
    simp

def launching (early : Rat) : Task Rat where
  months := 4
  inputs := [[early, early, 3, 4], [5]]
  settings :=
    ⟨[("startMonth", .scalar (5 / 2)), ("price", .scalar 1)],
      [("price", .series [early, 7, 2]), ("churn", .series [early, early, 1, 1 / 2])]⟩
  output := "plan"

theorem launching_sameFrom (early early' : Rat) :
    (launching early).SameFrom 2 (launching early') where
  months := rfl
  output := rfl
  first := rfl
  inputs :=
    .cons (Series.sameFrom_append [early, early] [early', early'] [3, 4] rfl rfl)
      (.cons (.refl _ _) .nil)
  assumptions := by
    have unset (x : Rat) : Series.SameFrom 2 (Series.constant 4 x) (Series.constant 4 x) :=
      .refl _ _
    simp only [monthlyAssumptions, List.forall_mem_cons]
    refine ⟨.ok (unset 1), .ok (unset 0), .ok ?_, .ok ?_, .ok (unset 1), .ok (unset 0),
      .ok (unset 0), by simp⟩
    · exact Series.sameFrom_append [early, early] [early', early'] [1, 1 / 2] rfl rfl
    · exact Series.sameFrom_append [early, 7] [early', 7] [2, 2] rfl rfl

theorem launching_given (early : Rat) : (launching early).Given where
  inputs := by simp [launching]
  assumptions := by
    simp only [monthlyAssumptions, List.forall_mem_cons]
    exact ⟨⟨_, rfl⟩, ⟨_, rfl⟩, ⟨_, rfl⟩, ⟨_, rfl⟩, ⟨_, rfl⟩, ⟨_, rfl⟩, ⟨_, rfl⟩, by simp⟩

theorem silent_before_start_launching :
    "SubMth" ∈ beginning ∧ (launching 1).settings.scalar "startMonth" = .ok (5 / 2) ∧
      (launching 1).Given ∧ (∃ channels, subMth (launching 1) = .ok channels) ∧
      (launching 1).SameFrom ⌊(5 / 2 : Rat)⌋ (launching (-100)) ∧
      subMth (launching (-100)) =
        .ok [("act", [0, 0, 8, 13]), ("chu", [0, 0, 0, 4]), ("rev", [0, 0, 16, 26])] := by
  have begins : (launching 1).settings.scalar "startMonth" = .ok (5 / 2) := rfl
  have floor : ⌊(5 / 2 : Rat)⌋ = 2 := by decide +kernel
  have same : (launching 1).SameFrom ⌊(5 / 2 : Rat)⌋ (launching (-100)) :=
    floor ▸ launching_sameFrom 1 (-100)
  have answered : subMth (launching 1) =
      .ok [("act", [0, 0, 8, 13]), ("chu", [0, 0, 0, 4]), ("rev", [0, 0, 16, 26])] := by
    with_unfolding_all rfl
  obtain ⟨f, found, each⟩ := silent_before_start "SubMth" (by decide)
  cases found
  obtain ⟨answers, -, alike⟩ := each _ _ begins
  exact ⟨by decide, begins, launching_given 1, answers (launching_given 1), same,
    (alike _ same _).2 answered⟩

end Compute

end Forecast

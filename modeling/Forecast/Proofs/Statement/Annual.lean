import Forecast.Proofs.Statement.Equations
import Mathlib.Algebra.BigOperators.Fin
import Mathlib.Data.Rat.Floor

/-!
# Annual totals

Every month belongs to one year, the last of which may have fewer than twelve.
The amount of a year is the sum of its months, so the years of a line item add
up to all its months. A sum of line items is one of their years as well: what
is added up month by month may be added up year by year. A running total may
not.
-/

namespace Forecast

open Outcome

namespace Horizon

variable {months m year : Nat}

def monthsIn (months year : Nat) : Finset Nat :=
  (Finset.range months).filter fun m => m / 12 = year

theorem mem_monthsIn : m ∈ monthsIn months year ↔ m < months ∧ m / 12 = year := by
  rw [monthsIn, Finset.mem_filter, Finset.mem_range]

theorem year_lt_yearsFor (inside : m < months) : m / 12 < yearsFor months := by
  unfold yearsFor
  omega

theorem yearsFor_eq_ceil (months : Nat) : yearsFor months = ⌈(months : Rat) / 12⌉₊ := by
  apply eq_of_forall_lt_iff
  intro year
  have begun : year < yearsFor months ↔ year * 12 < months := by
    unfold yearsFor
    omega
  rw [Nat.lt_ceil, lt_div_iff₀ (by norm_num), begun]
  exact_mod_cast Iff.rfl

end Horizon

open Horizon

namespace Financials

variable {xs : Series Rat} {months year : Nat}

/-- Over rationals the order in which a year is added up does not matter. -/
theorem blockSum_eq_sum (xs : Series Rat) : blockSum xs = List.sum xs := by
  have fold (start : Rat) (rest : Series Rat) : rest.foldl (· + ·) start = start +
      List.sum rest := by
    induction rest generalizing start with
    | nil => simp
    | cons x rest ih =>
      rw [List.foldl_cons, ih, List.sum_cons]
      ring
  fun_cases blockSum xs with
  | case1 a b c d e f g h rest =>
    rw [fold]
    simp only [List.sum_cons]
    ring
  | case2 => rfl
  | case3 x rest =>
    rw [fold, List.sum_cons]
    ring

theorem sum_eq_sum_range (xs : Series Rat) :
    List.sum xs = ∑ m ∈ Finset.range xs.length, xs.getD m 0 := by
  rw [Finset.sum_range, ← Fin.sum_univ_getElem]
  simp

theorem sum_monthsOf (xs : Series Rat) (year : Nat) :
    List.sum (monthsOf xs year) = ∑ m ∈ monthsIn xs.length year, xs.getD m 0 := by
  rw [sum_eq_sum_range]
  refine Finset.sum_nbij' (fun k => 12 * year + k) (fun m => m - 12 * year) ?_ ?_ ?_ ?_ ?_
  · intro k hk
    simp only [monthsOf, List.length_take, List.length_drop, Finset.mem_range] at hk
    rw [mem_monthsIn]
    omega
  · intro m hm
    rw [mem_monthsIn] at hm
    simp only [monthsOf, List.length_take, List.length_drop, Finset.mem_range]
    omega
  · intro k _
    omega
  · intro m hm
    rw [mem_monthsIn] at hm
    omega
  · intro k hk
    simp only [monthsOf, List.length_take, List.length_drop, Finset.mem_range] at hk
    have inside : k < 12 := by omega
    simp [monthsOf, List.getD_eq_getElem?_getD, inside]

theorem length_annualSeries (years : Nat) (xs : Series Rat) :
    (annualSeries years xs).length = years := by
  simp [annualSeries]

/-- The amount of a year is the sum of its months. -/
theorem getElem?_annualSeries {years : Nat} (inside : year < years) (xs : Series Rat) :
    (annualSeries years xs)[year]? = some (∑ m ∈ monthsIn xs.length year, xs.getD m 0) := by
  simp [annualSeries, inside, blockSum_eq_sum, sum_monthsOf]

theorem sum_annualSeries (xs : Series Rat) :
    List.sum (annualSeries (yearsFor xs.length) xs) = List.sum xs := by
  have each : ∀ year ∈ Finset.range (yearsFor xs.length),
      (annualSeries (yearsFor xs.length) xs).getD year 0 = ∑ m ∈ monthsIn xs.length year,
      xs.getD m 0 := by
    intro year inside
    rw [List.getD_eq_getElem?_getD, getElem?_annualSeries (Finset.mem_range.1 inside),
      Option.getD_some]
  rw [sum_eq_sum_range, length_annualSeries, Finset.sum_congr rfl each, sum_eq_sum_range]
  refine Finset.sum_fiberwise_of_maps_to ?_ _
  intro m inside
  exact Finset.mem_range.2 (year_lt_yearsFor (Finset.mem_range.1 inside))

end Financials

/-! ## Equations of years -/

variable {lines : Lines Rat} {months year : Nat} {t : Template} {i : LineItem}

/-- Terms that are each a sum over months add up to the sum of what they add up to in each month. -/
theorem foldl_sum {β : Type} {ms : Finset Nat} {amount : β → Nat → Rat} {total : β → Rat}
    (each : ∀ t, total t = ∑ m ∈ ms, amount t m) (terms : List β) :
    terms.foldl (fun sum t => sum + total t) 0 =
      ∑ m ∈ ms, terms.foldl (fun sum t => sum + amount t m) 0 := by
  have from' (start : Nat → Rat) : terms.foldl (fun sum t => sum + total t) (∑ m ∈ ms, start m) =
      ∑ m ∈ ms, terms.foldl (fun sum t => sum + amount t m) (start m) := by
    induction terms generalizing start with
    | nil => rfl
    | cons t terms ih =>
      rw [List.foldl_cons, each, ← Finset.sum_add_distrib, ih]
      rfl
  simpa using from' fun _ => 0

namespace Lines

def annual (lines : Lines Rat) (months : Nat) : Lines Rat :=
  lines.mapValues (Financials.annualSeries (yearsFor months))

theorem amount_annual (sized : lines.Sized months) (inside : year < yearsFor months)
    (code : String) :
    (lines.annual months).amount code year = ∑ m ∈ monthsIn months year, lines.amount code m := by
  have length := sized code
  unfold read at length
  unfold amount annual
  rw [Entries.lookup_mapValues]
  cases found : lines.lookup code with
  | none => simp
  | some xs =>
    rw [found, Option.getD_some] at length
    subst length
    simp [Financials.getElem?_annualSeries inside, List.getD_eq_getElem?_getD]

theorem signedAmount_annual (sized : lines.Sized months) (inside : year < yearsFor months)
    (terms : List (Sign × String)) :
    (lines.annual months).signedAmount terms year =
      ∑ m ∈ monthsIn months year, lines.signedAmount terms m := by
  refine foldl_sum (fun t => ?_) terms
  rw [amount_annual sized inside, Finset.mul_sum]

end Lines

/-- What a formula asks for in a year, unless it is a running total. -/
theorem Formula.amount_annual {f : Formula} (sized : lines.Sized months)
    (inside : year < yearsFor months) (once : f.isRunningTotal = false) :
    f.amount t (lines.annual months) year = ∑ m ∈ monthsIn months year, f.amount t lines m := by
  cases f with
  | leaves above => exact foldl_sum (fun i : LineItem => Lines.amount_annual sized inside i.code) _
  | copy code => exact Lines.amount_annual sized inside code
  | runningTotal code => cases once
  | signedSum terms => exact Lines.signedAmount_annual sized inside terms

namespace LineItem

/-- An item that adds up others as they are: no leaf, not cumulative, and its formula is no running
total. -/
structure IsSum (i : LineItem) : Prop where
  inner : i.isLeaf = false
  once : i.cumulative = false
  plain : ∀ text, i.formula? = some text → (Formula.ofText text).isRunningTotal = false

namespace IsSum

variable (h : i.IsSum)
include h

theorem accumulates : i.accumulates = false := by
  rw [LineItem.accumulates, h.once, Bool.false_and]

theorem hasChildren (formula : i.formula? = none) : i.hasChildren = true := by
  simpa [LineItem.isLeaf, formula] using h.inner

theorem base_annual (sized : lines.Sized months) (inside : year < yearsFor months)
    (received : Series Rat) :
    i.base t (lines.annual months) received year =
      ∑ m ∈ monthsIn months year, i.base t lines received m := by
  unfold LineItem.base
  cases formula : i.formula? with
  | some text => exact Formula.amount_annual sized inside (h.plain text formula)
  | none =>
    simp only [h.hasChildren formula, if_true]
    exact Lines.signedAmount_annual sized inside _

/-- A sum says nothing of what the item has received itself. -/
theorem satisfied_received {α : Type} [Amount α] {lines : Lines α} {received : Series α}
    (satisfied : i.Satisfied t months received lines) (received' : Series α) :
    i.Satisfied t months received' lines := by
  have same : i.base t lines received = i.base t lines received' := by
    funext m
    unfold LineItem.base
    cases formula : i.formula? with
    | some text => rfl
    | none => simp only [h.hasChildren formula, if_true]
  rwa [LineItem.Satisfied, ← same]

/-- The equation of a sum holds of its years if it holds of its months. -/
theorem satisfied_annual {received : Series Rat} (sized : lines.Sized months)
    (satisfied : i.Satisfied t months received lines) :
    i.Satisfied t (yearsFor months) received (lines.annual months) := by
  obtain ⟨xs, found, length, each⟩ := satisfied
  refine ⟨Financials.annualSeries (yearsFor months) xs, ?_, ?_, ?_⟩
  · rw [Lines.annual, Entries.lookup_mapValues, found]
    rfl
  · exact Financials.length_annualSeries _ _
  · intro year inside
    rw [Financials.getElem?_annualSeries inside, if_neg (by simp [h.accumulates]),
      h.base_annual sized inside, length]
    congr 1
    apply Finset.sum_congr rfl
    intro m hm
    rw [List.getD_eq_getElem?_getD, each m (mem_monthsIn.1 hm).1, Option.getD_some,
      if_neg (by simp [h.accumulates])]

end IsSum
end LineItem

namespace Financials

variable {α : Type} [Amount α] {schema : Schema} {channels : List (ChannelSeries α)}
  {f : Financials α}
  {c c' : Collected α}

theorem sized_addTo {label : String} {s : ChannelSeries α} {destination : String}
    (sized : c.lines.Sized months) (h : (addTo t label s c destination).outcome = .ok c') :
    c'.lines.Sized months := by
  rcases addTo_ok h with ⟨-, rfl⟩ | ⟨total, sum, found, added, lines⟩
  · exact sized
  · intro code
    rw [lines, Lines.read_put]
    split
    · have length := sized destination
      rw [Lines.read, found] at length
      exact (Series.length_add added).trans length
    · exact sized code

theorem sized_collect {s : ChannelSeries α} (sized : c.lines.Sized months)
    (h : (collect schema t c s).outcome = .ok c') : c'.lines.Sized months := by
  unfold collect at h
  split at h
  · cases h
    exact sized
  · rw [Logged.outcome_foldlM] at h
    exact foldlM_keeps (fun c : Collected α => c.lines.Sized months)
      (fun _ _ _ _ sized h => sized_addTo sized h) h sized

theorem sized_blank (t : Template) (months : Nat) : (blank t months : Lines α).Sized months := by
  intro code
  unfold Lines.read
  cases found : (blank t months : Lines α).lookup code with
  | none => simp
  | some xs =>
    obtain ⟨i, -, same⟩ := List.mem_map.1 (Entries.mem_of_mem_ofList (Entries.mem_of_lookup found))
    cases same
    simp

theorem sized_build (built : (build channels months schema t).outcome = .ok f) :
    f.lines.Sized months := by
  obtain ⟨c, collected, rfl⟩ := exists_collected built
  rw [Logged.outcome_foldlM] at collected
  exact sized_compute t (foldlM_keeps (fun c : Collected α => c.lines.Sized months)
    (fun _ _ _ _ sized h => sized_collect sized h) collected (sized_blank t months))

theorem satisfied_standard {i : LineItem} (known : i ∈ Template.standard.items) (sum : i.IsSum)
    (built : (build channels months schema Template.standard).outcome = .ok f) :
    i.Satisfied Template.standard months [] f.lines := by
  have clear : i.isHalfRunning = false := by
    rw [LineItem.isHalfRunning, sum.once, Bool.false_and]
  obtain ⟨total, -, satisfied⟩ :=
    satisfied_of_build Template.standard_distinct Template.standard_ordered built known clear
  exact sum.satisfied_received satisfied []

/-- Annual totals over rationals: there is a year for each twelve months that are begun, each month
counts in just one year, and the years of each line item add up to its months. The equations that
hold of months hold of years too, but for leaves and running totals; in a standard statement they
all hold of the months. -/
theorem annual_foots {channels : List (ChannelSeries Rat)} {f : Financials Rat}
    (built : (build channels months schema t).outcome = .ok f) :
    f.annual.periods = ⌈(months : Rat) / 12⌉₊ ∧ f.annual.frequency = .annual ∧
      f.annual.lines.keys = f.lines.keys ∧
      (∀ m < months, ∃! year, year < f.annual.periods ∧ m ∈ monthsIn months year) ∧
      (∀ code xs, f.lines.lookup code = some xs → xs.length = months ∧
        ∃ ys, f.annual.lines.lookup code = some ys ∧ ys.length = f.annual.periods ∧
          (∀ year < f.annual.periods, ys[year]? = some (∑ m ∈ monthsIn months year, xs.getD m 0)) ∧
          List.sum ys = List.sum xs) ∧
      (∀ i : LineItem, i.IsSum → i.Satisfied t months [] f.lines →
        i.Satisfied t f.annual.periods [] f.annual.lines) ∧
      (t = Template.standard → ∀ i ∈ t.items, i.IsSum → i.Satisfied t months [] f.lines) := by
  have sized := sized_build built
  have periods : f.periods = months := by
    obtain ⟨c, -, rfl⟩ := exists_collected built
    rfl
  have years : f.annual.periods = yearsFor months := congrArg yearsFor periods
  have lines : f.annual.lines = f.lines.annual months := by
    rw [← periods]
    rfl
  rw [years, lines]
  refine ⟨yearsFor_eq_ceil months, rfl, Entries.keys_mapValues _ _, ?_, ?_, ?_, ?_⟩
  · intro m inside
    refine ⟨m / 12, ⟨year_lt_yearsFor inside, mem_monthsIn.2 ⟨inside, rfl⟩⟩, ?_⟩
    exact fun year h => (mem_monthsIn.1 h.2).2.symm
  · intro code xs found
    have length := sized code
    rw [Lines.read, found, Option.getD_some] at length
    subst length
    refine ⟨rfl, annualSeries (yearsFor xs.length) xs, ?_, length_annualSeries _ _, ?_,
      sum_annualSeries xs⟩
    · rw [Lines.annual, Entries.lookup_mapValues, found]
      rfl
    · exact fun year inside => getElem?_annualSeries inside xs
  · exact fun i sum satisfied => sum.satisfied_annual sized satisfied
  · rintro rfl i known sum
    exact satisfied_standard known sum built

def tappedLong : List (ChannelSeries Rat) :=
  [⟨"Tap", "tap", "val", List.replicate 14 3⟩, ⟨"Drain", "drain", "val", List.replicate 14 1⟩]

theorem annual_foots_tank :
    ∃ f, (build tappedLong 14 tankSchema tank).outcome = .ok f ∧ f.annual.periods = 2 ∧
      f.annual.lines.amount "flow.in" 1 = 6 ∧ f.annual.lines.amount "flow.out" 1 = 2 ∧
      f.annual.lines.amount "flow" 1 = 4 := by
  have distinct : (tank.items.map (·.code)).Nodup := by decide
  have ordered : tank.Ordered := by
    unfold Template.Ordered
    decide
  have fits : ∀ s ∈ tappedLong, s.amounts.length = 14 := by decide
  obtain ⟨f, built⟩ : ∃ f, (build tappedLong 14 tankSchema tank).outcome = .ok f := by
    obtain ⟨c, -, built⟩ := exists_build tankSchema distinct fits
    exact ⟨_, built⟩
  obtain ⟨periods, -, -, -, years, equations, -⟩ := annual_foots built
  have two : f.annual.periods = 2 := periods.trans (yearsFor_eq_ceil 14).symm
  have last : monthsIn 14 1 = {12, 13} := by decide
  have second {code : String} {xs : Series Rat} {x y : Rat} (found : f.lines.lookup code = some xs)
      (twelve : xs[12]? = some x) (thirteen : xs[13]? = some y) :
      f.annual.lines.amount code 1 = x + y := by
    obtain ⟨-, ys, foundYears, -, sums, -⟩ := years code xs found
    rw [Lines.amount, foundYears, Option.bind_some, sums 1 (by rw [two]; decide), last,
      Finset.sum_pair (by decide), List.getD_eq_getElem?_getD, List.getD_eq_getElem?_getD, twelve,
      thirteen]
    rfl
  obtain ⟨_, -, net⟩ := satisfied_of_build distinct ordered built (i := tank.items[0]) (by simp) rfl
  obtain ⟨tap, tapSum, _, foundTap, -, tapped⟩ :=
    satisfied_of_build distinct ordered built (i := tank.items[1]) (by simp) rfl
  obtain ⟨drain, drainSum, _, foundDrain, -, drained⟩ :=
    satisfied_of_build distinct ordered built (i := tank.items[2]) (by simp) rfl
  cases tapSum
  cases drainSum
  have sum : tank.items[0].IsSum := ⟨rfl, rfl, by rintro _ ⟨⟩⟩
  have flow := equations tank.items[0] sum (sum.satisfied_received net [])
  rw [two] at flow
  have inflow : f.annual.lines.amount "flow.in" 1 = 0 + 3 + (0 + 3) :=
    second foundTap (tapped 12 (by decide)) (tapped 13 (by decide))
  have outflow : f.annual.lines.amount "flow.out" 1 = 0 + 1 + (0 + 1) :=
    second foundDrain (drained 12 (by decide)) (drained 13 (by decide))
  have difference : f.annual.lines.amount "flow" 1 =
      0 + 1 * f.annual.lines.amount "flow.in" 1 + -1 * f.annual.lines.amount "flow.out" 1 :=
    flow.amount (by decide)
  refine ⟨f, built, two, ?_⟩
  rw [difference, inflow, outflow]
  norm_num

end Financials
end Forecast

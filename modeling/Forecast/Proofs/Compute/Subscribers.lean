import Forecast.Compute.Subscribers
import Forecast.Proofs.Outcome
import Forecast.Proofs.Statement.Exact
import Mathlib.Algebra.BigOperators.Intervals
import Mathlib.Tactic.Linarith

/-!
# Subscribers month by month

Over exact amounts, the subscribers of a month follow from those of the month
before, what is added and the rate at which they are lost. Nothing that happens
before the start month has an effect. If nothing negative is added and no more
than all are lost, nobody is dropped: those who are there and those who were
lost are those who were added.
-/

namespace Forecast.Compute

open Outcome

variable {start : Int} {month m : Nat} {carried : Rat} {added churn : Series Rat}
  {months : List (Retention Rat)}

theorem clamp_eq_max (x : Rat) : Amount.clamp x = max 0 x := by
  unfold Amount.clamp
  split
  · rename_i above
    have positive : 0 < x := above
    exact (max_eq_right positive.le).symm
  · rename_i below
    have bounded : ¬0 < x := below
    exact (max_eq_left (not_lt.1 bounded)).symm

/-- What a month retains when `carried` subscribers come from the month before: nothing before the
start. -/
def retained (start : Int) (month : Nat) (carried added rate : Rat) : Retention Rat :=
  if (month : Int) < start then ⟨0, 0⟩
  else ⟨max 0 (carried + added - carried * rate), carried * rate⟩

def activeIn (months : List (Retention Rat)) (m : Nat) : Rat :=
  (months.map (·.active)).getD m 0

def churnedIn (months : List (Retention Rat)) (m : Nat) : Rat :=
  (months.map (·.churned)).getD m 0

/-- Those who come into a month from the month before; `carried` come into the first one. -/
def comingInto (carried : Rat) (months : List (Retention Rat)) : Nat → Rat
  | 0 => carried
  | m + 1 => activeIn months m

theorem activeIn_eq (months : List (Retention Rat)) (m : Nat) :
    activeIn months m = (months[m]?.map (·.active)).getD 0 := by
  rw [activeIn, List.getD_eq_getElem?_getD, List.getElem?_map]

theorem churnedIn_eq (months : List (Retention Rat)) (m : Nat) :
    churnedIn months m = (months[m]?.map (·.churned)).getD 0 := by
  rw [churnedIn, List.getD_eq_getElem?_getD, List.getElem?_map]

theorem comingInto_succ_cons (carried : Rat) (now : Retention Rat) (rest : List (Retention Rat))
    (m : Nat) : comingInto carried (now :: rest) (m + 1) = comingInto now.active rest m := by
  cases m <;> rfl

/-- Each month follows from the month before; `month` is the number of the first one. -/
structure Retains (start : Int) (month : Nat) (carried : Rat) (added churn : Series Rat)
    (months : List (Retention Rat)) : Prop where
  length : months.length = added.length
  each : ∀ m < added.length, months[m]? =
    some (retained start (month + m) (comingInto carried months m) (added.getD m 0)
      (churn.getD m 0))

theorem retainFrom_cons (start : Int) (month : Nat) (carried x rate : Rat)
    (added churn : Series Rat) :
    retainFrom start month carried (x :: added) (rate :: churn) =
      (retainFrom start (month + 1) (retained start month carried x rate).active added churn).map
        (retained start month carried x rate :: ·) := by
  rw [retainFrom, retained]
  split
  · rfl
  · simp only [clamp_eq_max]

theorem Retains.cons {x rate : Rat}
    (rest : Retains start (month + 1) (retained start month carried x rate).active
      added churn months) :
    Retains start month carried (x :: added) (rate :: churn)
      (retained start month carried x rate :: months) where
  length := by simp [rest.length]
  each := by
    intro m inside
    cases m with
    | zero => rfl
    | succ m =>
      have later := rest.each m (by simpa using inside)
      have number : month + 1 + m = month + (m + 1) := by omega
      rw [List.getElem?_cons_succ, later, number, comingInto_succ_cons]
      rfl

/-- With a rate for every month, every month is retained. -/
theorem retains_retainFrom (same : churn.length = added.length) (start : Int) (month : Nat)
    (carried : Rat) :
    ∃ months, retainFrom start month carried added churn = .ok months ∧
      Retains start month carried added churn months := by
  induction added generalizing churn month carried with
  | nil => exact ⟨[], rfl, rfl, by simp⟩
  | cons x added ih =>
    obtain ⟨rate, churn, rfl⟩ := List.exists_cons_of_length_eq_add_one same
    have others : churn.length = added.length := by simpa using same
    obtain ⟨months, hmonths, rest⟩ :=
      ih others (month + 1) (retained start month carried x rate).active
    refine ⟨_, ?_, rest.cons⟩
    rw [retainFrom_cons, hmonths]
    rfl

namespace Retains

variable (h : Retains start 0 0 added churn months)
include h

theorem getElem?_beyond (beyond : added.length ≤ m) : months[m]? = none :=
  List.getElem?_eq_none (h.length ▸ beyond)

theorem early (early : (m : Int) < start) : activeIn months m = 0 ∧ churnedIn months m = 0 := by
  rw [activeIn_eq, churnedIn_eq]
  by_cases inside : m < added.length
  · rw [h.each m inside, Nat.zero_add, retained, if_pos early]
    exact ⟨rfl, rfl⟩
  · rw [h.getElem?_beyond (by omega)]
    exact ⟨rfl, rfl⟩

theorem late (inside : m < added.length) (late : start ≤ m) :
    churnedIn months m = comingInto 0 months m * churn.getD m 0 ∧
      activeIn months m = max 0 (comingInto 0 months m + added.getD m 0 - churnedIn months m) := by
  have here := h.each m inside
  rw [Nat.zero_add, retained, if_neg (by omega)] at here
  have lost : churnedIn months m = comingInto 0 months m * churn.getD m 0 := by
    rw [churnedIn_eq, here]
    rfl
  refine ⟨lost, ?_⟩
  rw [activeIn_eq, here, lost]
  rfl

theorem activeIn_nonneg (m : Nat) : 0 ≤ activeIn months m := by
  by_cases inside : m < added.length
  · by_cases early : (m : Int) < start
    · rw [(h.early early).1]
    · rw [(h.late inside (by omega)).2]
      exact le_max_left 0 _
  · rw [activeIn_eq, h.getElem?_beyond (by omega)]
    exact le_refl 0

theorem comingInto_nonneg (m : Nat) : 0 ≤ comingInto 0 months m := by
  cases m with
  | zero => exact le_refl 0
  | succ m => exact h.activeIn_nonneg m

theorem comingInto_first : comingInto 0 months start.toNat = 0 := by
  cases first : start.toNat with
  | zero => rfl
  | succ m => exact (h.early (by omega)).1

/-- What is retained does not depend on what is before the start. -/
theorem unique {added' churn' : Series Rat} {months' : List (Retention Rat)}
    (h' : Retains start 0 0 added' churn' months') (length : added'.length = added.length)
    (agree : ∀ m : Nat, start ≤ m →
      added'.getD m 0 = added.getD m 0 ∧ churn'.getD m 0 = churn.getD m 0) :
    months' = months := by
  have step : ∀ m, comingInto 0 months' m = comingInto 0 months m → months'[m]? = months[m]? := by
    intro m coming
    by_cases inside : m < added.length
    · rw [h.each m inside, h'.each m (by omega), coming]
      unfold retained
      split
      · rfl
      · obtain ⟨gain, rate⟩ := agree m (by omega)
        rw [gain, rate]
    · rw [h.getElem?_beyond (by omega), h'.getElem?_beyond (by omega)]
  apply List.ext_getElem?
  intro m
  induction m with
  | zero => exact step 0 rfl
  | succ m ih =>
    apply step
    rw [comingInto, comingInto, activeIn_eq, activeIn_eq, ih]

/-- Where nothing negative is added and no more than all are lost, nobody is dropped. -/
theorem unclamped (inside : m < added.length) (late : start ≤ m) (gain : 0 ≤ added.getD m 0)
    (most : churn.getD m 0 ≤ 1) :
    activeIn months m = comingInto 0 months m + added.getD m 0 - churnedIn months m := by
  obtain ⟨lost, now⟩ := h.late inside late
  have kept : 0 ≤ comingInto 0 months m * (1 - churn.getD m 0) :=
    mul_nonneg (h.comingInto_nonneg m) (sub_nonneg.2 most)
  have above : 0 ≤ comingInto 0 months m + added.getD m 0 - churnedIn months m := by
    rw [lost]
    linarith
  rw [now, max_eq_right above]

/-- If nobody is dropped from the start on, those who are there and those who were lost are those
who were added. -/
theorem conserved (undropped : ∀ m < added.length, start ≤ m →
      activeIn months m = comingInto 0 months m + added.getD m 0 - churnedIn months m)
    (inside : m < added.length) (late : start.toNat ≤ m) :
    activeIn months m + ∑ k ∈ Finset.Icc start.toNat m, churnedIn months k =
      ∑ k ∈ Finset.Icc start.toNat m, added.getD k 0 := by
  induction m, late using Nat.le_induction with
  | base =>
    rw [Finset.Icc_self, Finset.sum_singleton, Finset.sum_singleton, undropped _ inside (by omega),
      h.comingInto_first]
    ring
  | succ m later ih =>
    have before := ih (by omega)
    rw [Finset.sum_Icc_succ_top (by omega), Finset.sum_Icc_succ_top (by omega),
      undropped (m + 1) inside (by omega), comingInto]
    linarith

end Retains

/-- Every month is retained from the month before, nothing before the start has an effect, and where
nothing negative is added and no more than all are lost from the start on, nobody is dropped: those
who are there and those who were lost are those who were added. -/
theorem retain_conserves (same : churn.length = added.length) (start : Int) :
    ∃ months, retain start added churn = .ok months ∧ months.length = added.length ∧
      (∀ m : Nat, m < start → activeIn months m = 0 ∧ churnedIn months m = 0) ∧
      (∀ m, 0 ≤ activeIn months m) ∧
      (∀ m < added.length, start ≤ m →
        churnedIn months m = comingInto 0 months m * churn.getD m 0 ∧
        activeIn months m = max 0 (comingInto 0 months m + added.getD m 0 - churnedIn months m)) ∧
      (∀ added' churn' : Series Rat, added'.length = added.length → churn'.length = churn.length →
        (∀ m : Nat, start ≤ m →
          added'.getD m 0 = added.getD m 0 ∧ churn'.getD m 0 = churn.getD m 0) →
        retain start added' churn' = .ok months) ∧
      ((∀ m < added.length, start ≤ m →
          0 ≤ added.getD m 0 ∧ 0 ≤ churn.getD m 0 ∧ churn.getD m 0 ≤ 1) →
        ∀ m < added.length, start ≤ m →
          activeIn months m = comingInto 0 months m + added.getD m 0 - churnedIn months m ∧
          activeIn months m + ∑ k ∈ Finset.Icc start.toNat m, churnedIn months k =
            ∑ k ∈ Finset.Icc start.toNat m, added.getD k 0) := by
  obtain ⟨months, hmonths, retains⟩ := retains_retainFrom same start 0 0
  refine ⟨months, hmonths, retains.length, fun m => retains.early, retains.activeIn_nonneg,
    fun m => retains.late, ?_, ?_⟩
  · intro added' churn' length length' agree
    obtain ⟨months', hmonths', retains'⟩ :=
      retains_retainFrom (by rw [length', length, same] : churn'.length = added'.length) start 0 0
    rw [← retains.unique retains' length agree]
    exact hmonths'
  · intro shares
    have undropped : ∀ m < added.length, start ≤ m →
        activeIn months m = comingInto 0 months m + added.getD m 0 - churnedIn months m := by
      intro m inside late
      obtain ⟨gain, -, most⟩ := shares m inside late
      exact retains.unclamped inside late gain most
    intro m inside late
    exact ⟨undropped m inside late, retains.conserved undropped inside (by omega)⟩

/-- What is added, and which part is lost; what stands before the second month is neither. -/
def newcomers : Series Rat := [-50, 100, 0, 20]
def losses : Series Rat := [7, 1 / 10, 1 / 2, 1]

theorem retain_conserves_newcomers :
    losses.length = newcomers.length ∧
      (∀ m < newcomers.length, (1 : Int) ≤ m →
        0 ≤ newcomers.getD m 0 ∧ 0 ≤ losses.getD m 0 ∧ losses.getD m 0 ≤ 1) ∧
      ∃ months, retain 1 newcomers losses = .ok months ∧ months.map (·.active) = [0, 100, 50, 20] ∧
        retain 1 (0 :: newcomers.tail) (0 :: losses.tail) = .ok months ∧
        activeIn months 3 + ∑ k ∈ Finset.Icc 1 3, churnedIn months k = 120 := by
  have same : losses.length = newcomers.length := rfl
  have shares : ∀ m < newcomers.length, (1 : Int) ≤ m →
      0 ≤ newcomers.getD m 0 ∧ 0 ≤ losses.getD m 0 ∧ losses.getD m 0 ≤ 1 := by
    decide +kernel
  have computed : retain 1 newcomers losses = .ok [⟨0, 0⟩, ⟨100, 0⟩, ⟨50, 50⟩, ⟨20, 50⟩] := by
    with_unfolding_all rfl
  obtain ⟨months, hmonths, -, -, -, -, alike, conserved⟩ := retain_conserves same 1
  refine ⟨same, shares, months, hmonths, ?_, ?_, ?_⟩
  · cases computed.symm.trans hmonths
    rfl
  · apply alike _ _ rfl rfl
    intro m late
    cases m with
    | zero => omega
    | succ m => exact ⟨rfl, rfl⟩
  · have total := (conserved shares 3 (by decide) (by decide)).2
    have sum : ∑ k ∈ Finset.Icc 1 3, newcomers.getD k 0 = 120 := by decide +kernel
    exact total.trans sum

end Forecast.Compute

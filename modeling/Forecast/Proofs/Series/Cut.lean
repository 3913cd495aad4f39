import Forecast.Proofs.Series
import Mathlib.Data.List.Basic

/-!
# The first months of a series

Most of what is done with a series can be done with its first months just as
well: the first months of the result are the result of the first months.
-/

namespace Forecast.Series

open Outcome

variable {α : Type} [Amount α] {months n : Nat} {target given total xs : Series α}

omit [Amount α] in
theorem take_constant (shorter : n ≤ months) (x : α) :
    (constant months x).take n = constant n x := by
  rw [constant, constant, List.take_replicate, Nat.min_eq_left shorter]

theorem take_zeros (shorter : n ≤ months) : (zeros months : Series α).take n = zeros n :=
  take_constant shorter 0

omit [Amount α] in
theorem take_mapIdx {β : Type} (f : Nat → α → β) (xs : List α) (n : Nat) :
    (xs.mapIdx f).take n = (xs.take n).mapIdx f := by
  apply List.ext_getElem?
  intro m
  simp only [List.getElem?_take, List.getElem?_mapIdx]
  split <;> rfl

theorem take_startingAt (start : Int) (xs : Series α) (n : Nat) :
    (startingAt start xs).take n = startingAt start (xs.take n) :=
  take_mapIdx _ xs n

theorem take_map_range {β : Type} (shorter : n ≤ months) (f : Nat → β) :
    ((List.range months).map f).take n = (List.range n).map f := by
  rw [← List.map_take, List.take_range, Nat.min_eq_left shorter]

theorem take_single (shorter : n ≤ months) (month : Int) (x : α) :
    (single months month x).take n = single n month x :=
  take_map_range shorter _

theorem single_of_le {month : Int} (beyond : (months : Int) ≤ month) (x : α) :
    single months month x = zeros months := by
  apply List.eq_replicate_iff.2
  refine ⟨length_single _ _ _, ?_⟩
  intro y hy
  obtain ⟨m, hm, rfl⟩ := List.mem_map.1 hy
  have := List.mem_range.1 hm
  exact if_neg (by omega)

theorem take_runningFrom (start : α) (xs : Series α) (n : Nat) :
    (runningFrom start xs).take n = runningFrom start (xs.take n) := by
  induction xs generalizing start n with
  | nil => simp [runningFrom]
  | cons x xs ih =>
    cases n with
    | zero => rfl
    | succ n => simp [runningFrom, ih]

theorem take_runningTotal (xs : Series α) (n : Nat) :
    (runningTotal xs).take n = runningTotal (xs.take n) := by
  cases xs with
  | nil => simp [runningTotal]
  | cons x xs =>
    cases n with
    | zero => rfl
    | succ n => simp [runningTotal, take_runningFrom]

omit [Amount α] in
theorem take_fit (shorter : n ≤ months) (default : α) (xs : Series α) :
    (fit months default xs).take n = fit n default (xs.take n) := by
  rw [fit, fit, List.take_append, List.take_take, List.take_take, Nat.min_eq_left shorter,
    Nat.min_self]
  by_cases long : n ≤ xs.length
  · have reached : n - (xs.take months).length = 0 := by
      rw [List.length_take]
      omega
    have full : n - (xs.take n).length = 0 := by
      rw [List.length_take]
      omega
    rw [reached, full, List.take_zero]
    rfl
  · have whole : xs.take n = xs := List.take_of_length_le (by omega)
    have whole' : xs.take months = xs := List.take_of_length_le (by omega)
    rw [whole, whole', take_constant (by omega)]

omit [Amount α] in
theorem fit_take (n : Nat) (default : α) (xs : Series α) :
    fit n default (xs.take n) = fit n default xs := by
  rw [← take_fit (Nat.le_refl n), List.take_of_length_le (Nat.le_of_eq (length_fit n default xs))]

theorem take_add (same : target.length = given.length) (h : target.add given = .ok total) :
    add (target.take n) (given.take n) = .ok (total.take n) := by
  rw [add_of_length_eq same] at h
  cases h
  rw [add_of_length_eq (by simp [same]), List.take_zipWith]

theorem take_sum {inputs : List (Series α)} (fits : ∀ xs ∈ inputs, xs.length = months)
    (shorter : n ≤ months) (h : sum months inputs = .ok total) :
    sum n (inputs.map (List.take n)) = .ok (total.take n) := by
  have step : ∀ xs ∈ inputs, ∀ t t' : Series α, t.length = months → t.add xs = .ok t' →
      add (t.take n) (xs.take n) = .ok (t'.take n) ∧ t'.length = months := by
    intro xs mem t t' length added
    exact ⟨take_add (length.trans (fits xs mem).symm) added, (length_add added).trans length⟩
  rw [sum, ← take_zeros shorter]
  exact (foldlM_map (List.take n) (List.take n) _ step h (length_zeros months)).1

end Forecast.Series

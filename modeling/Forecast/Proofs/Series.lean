import Forecast.Proofs.Outcome
import Forecast.Series

/-!
# Series month by month

Adding series keeps the months of the first one. A running total is, in every
month, the running total of the month before and the amount of the month.
-/

namespace Forecast.Series

open Outcome

variable {α : Type} [Amount α] {months m : Nat} {target given total xs : Series α}

def cumulated (amount : Nat → α) : Nat → α
  | 0 => amount 0
  | m + 1 => cumulated amount m + amount (m + 1)

theorem length_add (h : target.add given = .ok total) : total.length = target.length := by
  unfold add at h
  split at h
  · rename_i same
    cases h
    simp [same]
  · split at h
    · cases h
      simp
    · split at h <;> cases h

theorem length_sum {inputs : List (Series α)} (h : sum months inputs = .ok total) :
    total.length = months := by
  refine foldlM_keeps (fun t : Series α => t.length = months) ?_ h (by simp)
  intro given _ u v hu hv
  rw [length_add hv, hu]

theorem exists_sum {inputs : List (Series α)} (fits : ∀ xs ∈ inputs, xs.length = months) :
    ∃ total, sum months inputs = .ok total ∧ total.length = months := by
  apply exists_foldlM (fun total : Series α => total.length = months) ?_ (length_zeros months)
  intro xs hxs total length
  have same : total.length = xs.length := by rw [length, fits xs hxs]
  exact ⟨_, add_of_length_eq same, by simp [← same, length]⟩

theorem sum_append {inputs more : List (Series α)} (h : sum months inputs = .ok total) :
    sum months (inputs ++ more) = more.foldlM add total := by
  unfold sum at h ⊢
  rw [List.foldlM_append, h, ok_bind]

theorem getElem?_zeros (inside : m < months) : (zeros months : Series α)[m]? = some 0 := by
  simp [zeros, constant, inside]

theorem getElem?_zero_runningFrom (start : α) (xs : Series α) :
    (runningFrom start xs)[0]? = xs[0]?.map (start + ·) := by
  cases xs <;> rfl

theorem getElem?_succ_runningFrom {before amount : α} (start : α)
    (earlier : (runningFrom start xs)[m]? = some before) (h : xs[m + 1]? = some amount) :
    (runningFrom start xs)[m + 1]? = some (before + amount) := by
  induction xs generalizing start m with
  | nil => simp at h
  | cons x xs ih =>
    rw [List.getElem?_cons_succ] at h
    cases m with
    | zero =>
      rw [runningFrom, List.getElem?_cons_zero, Option.some.injEq] at earlier
      rw [runningFrom, List.getElem?_cons_succ, getElem?_zero_runningFrom, h, earlier]
      rfl
    | succ m =>
      rw [runningFrom, List.getElem?_cons_succ] at earlier ⊢
      exact ih (start + x) earlier h

theorem getElem?_succ_runningTotal {before amount : α}
    (earlier : (runningTotal xs)[m]? = some before) (h : xs[m + 1]? = some amount) :
    (runningTotal xs)[m + 1]? = some (before + amount) := by
  cases xs with
  | nil => simp at h
  | cons x xs =>
    rw [List.getElem?_cons_succ] at h
    cases m with
    | zero =>
      rw [runningTotal, List.getElem?_cons_zero, Option.some.injEq] at earlier
      rw [runningTotal, List.getElem?_cons_succ, getElem?_zero_runningFrom, h, earlier]
      rfl
    | succ m =>
      rw [runningTotal, List.getElem?_cons_succ] at earlier ⊢
      exact getElem?_succ_runningFrom x earlier h

theorem getElem?_runningTotal {amount : Nat → α} (each : ∀ k ≤ m, xs[k]? = some (amount k)) :
    (runningTotal xs)[m]? = some (cumulated amount m) := by
  induction m with
  | zero =>
    have first := each 0 (Nat.le_refl 0)
    cases xs with
    | nil => simp at first
    | cons x xs => exact first
  | succ m ih =>
    have earlier := ih fun k hk => each k (Nat.le_succ_of_le hk)
    exact getElem?_succ_runningTotal earlier (each (m + 1) (Nat.le_refl _))

end Forecast.Series

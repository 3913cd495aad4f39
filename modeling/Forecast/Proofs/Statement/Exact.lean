import Forecast.Proofs.Statement.Evaluation
import Mathlib.Algebra.BigOperators.Group.Finset.Basic
import Mathlib.Algebra.BigOperators.Ring.List
import Mathlib.Data.Rat.Defs
import Mathlib.Tactic.Ring

/-!
# Line items over exact amounts

Over rationals every month of a line item is a signed sum of the same month of
other items, or of all months up to it. Series of the length of the horizon are
enough for this; the order in which amounts are added does not matter.
-/

namespace Forecast

/-- The amounts of months up to and including one. -/
def Series.upTo (xs : Series Rat) (m : Nat) : Rat :=
  ∑ k ∈ Finset.range (m + 1), xs.getD k 0

namespace Series

variable {xs ys : Series Rat} {m : Nat}

theorem ext_getD (same : xs.length = ys.length)
    (each : ∀ m < xs.length, xs.getD m 0 = ys.getD m 0) :
    xs = ys := by
  apply List.ext_getElem same
  intro m h h'
  simpa [List.getD_eq_getElem?_getD, h, h'] using each m h

theorem getD_zipWith {f : Rat → Rat → Rat} (zero : f 0 0 = 0) (same : xs.length = ys.length)
    (m : Nat) :
    (List.zipWith f xs ys).getD m 0 = f (xs.getD m 0) (ys.getD m 0) := by
  simp only [List.getD_eq_getElem?_getD, List.getElem?_zipWith]
  rcases Nat.lt_or_ge m xs.length with h | h
  · have h' : m < ys.length := by omega
    simp [h, h']
  · have h' : ys.length ≤ m := by omega
    simp [h, h', zero]

theorem getD_plus (same : xs.length = ys.length) (m : Nat) :
    (Lines.plus xs ys).getD m 0 = xs.getD m 0 + ys.getD m 0 :=
  getD_zipWith (zero_add 0) same m

theorem getD_scaled (c : Rat) (xs : Series Rat) (m : Nat) :
    (xs.map (c * ·)).getD m 0 = c * xs.getD m 0 := by
  simp only [List.getD_eq_getElem?_getD, List.getElem?_map]
  cases xs[m]? <;> simp

theorem getD_zeros (months m : Nat) : (zeros months : Series Rat).getD m 0 = 0 := by
  unfold zeros constant
  simp only [List.getD_eq_getElem?_getD, List.getElem?_replicate]
  split <;> rfl

theorem getD_runningFrom (total : Rat) (inside : m < xs.length) :
    (runningFrom total xs).getD m 0 = total + xs.upTo m := by
  induction xs generalizing total m with
  | nil => simp at inside
  | cons x xs ih =>
    cases m with
    | zero => simp [runningFrom, upTo]
    | succ m =>
      have inside' : m < xs.length := by simpa using inside
      rw [upTo, Finset.sum_range_succ', runningFrom, List.getD_cons_succ, ih (total + x) inside']
      simp only [List.getD_cons_succ, List.getD_cons_zero, upTo]
      ring

theorem getD_runningTotal (inside : m < xs.length) : (runningTotal xs).getD m 0 = xs.upTo m := by
  cases xs with
  | nil => simp at inside
  | cons x xs =>
    cases m with
    | zero => simp [runningTotal, upTo]
    | succ m =>
      have inside' : m < xs.length := by simpa using inside
      rw [upTo, Finset.sum_range_succ', runningTotal, List.getD_cons_succ,
        getD_runningFrom x inside']
      simp only [List.getD_cons_succ, List.getD_cons_zero, upTo]
      ring

end Series

theorem Formula.exists_code_of_isRunningTotal {f : Formula} (h : f.isRunningTotal = true) :
    ∃ code, f = .runningTotal code := by
  cases f with
  | runningTotal code => exact ⟨code, rfl⟩
  | _ => cases h

theorem Formula.startsRunningTotal_of_ofText {text code : String}
    (h : Formula.ofText text = .runningTotal code) : Formula.startsRunningTotal text = true := by
  unfold ofText at h
  dsimp only at h
  split at h
  · split at h <;> cases h
  · split at h
    · rename_i inside
      unfold inside? at inside
      split at inside
      · rename_i both
        exact (Bool.and_eq_true_iff.1 both).1
      · cases inside
    · split at h <;> cases h

namespace Lines

variable {items : Entries LineItem} {lines lines' : Lines Rat} {months m : Nat} {i : LineItem}
  {terms : List (Sign × String)}

/-- A signed sum in one month. -/
def sumAt (lines : Lines Rat) (months : Nat) (terms : List (Sign × String)) (m : Nat) : Rat :=
  (terms.map fun t => factor t.1 * (lines.read months t.2).getD m 0).sum

theorem getD_foldl_plus {β : Type} {f : β → Series Rat} {terms : List β} {total : Series Rat}
    (sized : ∀ t ∈ terms, (f t).length = months) (start : total.length = months) (m : Nat) :
    (terms.foldl (fun total t => plus total (f t)) total).getD m 0 =
      total.getD m 0 + (terms.map fun t => (f t).getD m 0).sum := by
  induction terms generalizing total with
  | nil => simp
  | cons t terms ih =>
    have same : total.length = (f t).length := by rw [start, sized t (by simp)]
    have next : (plus total (f t)).length = months := by simp [plus, start, ← same]
    have rest : ∀ u ∈ terms, (f u).length = months := by
      intro u hu
      exact sized u (List.mem_cons_of_mem _ hu)
    rw [List.foldl_cons, ih rest next, Series.getD_plus same, List.map_cons, List.sum_cons]
    ring

theorem getD_copy (code : String) (m : Nat) :
    (lines.read months code).getD m 0 = lines.sumAt months [(.plus, code)] m := by
  simp [sumAt, factor]

theorem getD_running (running : Bool) {base : Series Rat} {amount : Nat → Rat}
    (length : base.length = months) (inside : m < months) (same : ∀ k, base.getD k 0 = amount k) :
    (if running then Series.runningTotal base else base).getD m 0 =
      if running then ∑ k ∈ Finset.range (m + 1), amount k else amount m := by
  cases running with
  | false => simpa using same m
  | true =>
    rw [if_pos rfl, if_pos rfl, Series.getD_runningTotal (by omega), Series.upTo]
    simp only [same]

section

variable (sized : lines.Sized months)
include sized

theorem getD_signedSum (terms : List (Sign × String)) (m : Nat) :
    (signedSum lines months terms).getD m 0 = lines.sumAt months terms m := by
  have scaled : ∀ t ∈ terms, ((lines.read months t.2).map (factor t.1 * ·)).length = months := by
    intro t _
    rw [List.length_map]
    exact sized t.2
  rw [signedSum, getD_foldl_plus scaled (by simp), Series.getD_zeros, zero_add]
  simp only [Series.getD_scaled]
  rfl

theorem getD_leaves (above : String) (m : Nat) :
    (lines.formula items months (.leaves above)).getD m 0 =
      lines.sumAt months ((Formula.leaves above).summands items) m := by
  rw [formula, getD_foldl_plus (fun code _ => sized code) (by simp), Series.getD_zeros, zero_add]
  simp [sumAt, Formula.summands, factor, Function.comp_def]

/-- A formula that is no running total is the signed sum of its summands. -/
theorem getD_formula {f : Formula} (once : f.isRunningTotal = false) (m : Nat) :
    (lines.formula items months f).getD m 0 = lines.sumAt months (f.summands items) m := by
  cases f with
  | leaves above => exact getD_leaves sized above m
  | copy code => exact getD_copy code m
  | runningTotal code => cases once
  | signedSum terms => exact getD_signedSum sized terms m

/-- An item is the signed sum of its summands, or the running total of that. -/
theorem getD_evaluate (inside : m < months) :
    (lines.evaluate items months i).1.getD m 0 =
      if i.runs then ∑ k ∈ Finset.range (m + 1), lines.sumAt months (i.summands items) k
      else lines.sumAt months (i.summands items) m := by
  unfold evaluate
  cases h : i.formula? with
  | some text =>
    have summands : i.summands items = (Formula.ofText text).summands items := by
      simp only [LineItem.summands, h]
    have runs : i.runs = ((Formula.ofText text).isRunningTotal ||
        (i.cumulative && !Formula.startsRunningTotal text)) := by
      simp only [LineItem.runs, h]
    rw [runs, summands]
    cases kind : (Formula.ofText text).isRunningTotal with
    | false =>
      exact getD_running _ (sized.length_formula items _) inside (getD_formula sized kind)
    | true =>
      obtain ⟨code, total⟩ := Formula.exists_code_of_isRunningTotal kind
      dsimp only
      rw [Formula.startsRunningTotal_of_ofText total, total, Bool.not_true, Bool.and_false]
      exact getD_running true (sized code) inside (getD_copy code)
  | none =>
    have summands : i.summands items =
        if i.hasChildren then childTerms items i else [(.plus, i.code)] := by
      simp only [LineItem.summands, h]
    have runs : i.runs = (i.cumulative && !i.hasChildren) := by
      simp only [LineItem.runs, h]
    rw [runs, summands]
    dsimp only
    cases i.hasChildren with
    | true =>
      rw [Bool.not_true, Bool.and_false]
      exact getD_signedSum sized _ m
    | false =>
      rw [Bool.not_false, Bool.and_true, if_neg Bool.false_ne_true, if_neg Bool.false_ne_true,
        apply_ite Prod.fst]
      exact getD_running _ (sized i.code) inside (getD_copy i.code)

end

end Lines
end Forecast

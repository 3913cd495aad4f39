import Forecast.Proofs.Statement.Exact
import Forecast.Proofs.Statement.Ordered
import Mathlib.Algebra.BigOperators.Ring.Finset

/-!
# Movements of balances

A balance is a signed sum of items that run, and each of these adds up a signed
sum of what leaves have received. Unfolding the items in between shows of which
movements a balance consists, and the balance of a month is the sum of these
movements up to the month.
-/

namespace Forecast

def Sign.times : Sign → Sign → Sign
  | .plus, s => s
  | .minus, .plus => .minus
  | .minus, .minus => .plus

theorem factor_times (s s' : Sign) :
    (Lines.factor (s.times s') : Rat) = Lines.factor s * Lines.factor s' := by
  cases s <;> cases s' <;> decide +kernel

def Sign.distribute (s : Sign) (terms : List (Sign × String)) : List (Sign × String) :=
  terms.map fun u => (s.times u.1, u.2)

namespace LineItem

/-- Replaces an item by what it sums, if it neither is a leaf nor runs. -/
def unfoldIn (items : Entries LineItem) (i : LineItem) (terms : List (Sign × String)) :
    List (Sign × String) :=
  terms.flatMap fun t =>
    if t.2 = i.code ∧ i.isLeaf = false ∧ i.runs = false then t.1.distribute (i.summands items)
    else [t]

/-- A signed sum with the items replaced that neither are leaves nor run, the last one first. -/
def unfolded (items : Entries LineItem) (order : List LineItem) (terms : List (Sign × String)) :
    List (Sign × String) :=
  order.foldr (unfoldIn items) terms

/-- What an item that runs adds up, if that is a signed sum of plain leaves or its own receipts. -/
def movements? (items : Entries LineItem) (order : List LineItem) (i : LineItem) :
    Option (List (Sign × String)) :=
  if i.runs then
    if i.isLeaf then some [(.plus, i.code)]
    else
      let terms := unfolded items order (i.summands items)
      if terms.all fun u => (items.lookup u.2).any isPlain then some terms else none
  else none

/-- The movements of a signed sum of items that run. -/
def movementsOf? (items : Entries LineItem) (order : List LineItem) :
    List (Sign × String) → Option (List (Sign × String))
  | [] => some []
  | t :: terms => do
    let i ← items.lookup t.2
    let own ← movements? items order i
    let rest ← movementsOf? items order terms
    return t.1.distribute own ++ rest

end LineItem

/-- The movements of the balance that a code has. -/
def Template.movements? (items : Entries LineItem) (order : List LineItem) (code : String) :
    Option (List (Sign × String)) :=
  LineItem.movementsOf? items order (LineItem.unfolded items order [(.plus, code)])

/-- What the item of a code sums, if it neither is a leaf nor runs. -/
def Template.sums? (items : Entries LineItem) (code : String) : Option (List (Sign × String)) := do
  let i ← items.lookup code
  if i.isLeaf || i.runs then none else some (i.summands items)

namespace Lines

variable {items : Entries LineItem} {lines : Lines Rat} {months m : Nat} {i : LineItem}

@[simp] theorem sumAt_nil : lines.sumAt months [] m = 0 := rfl

@[simp] theorem sumAt_cons (t : Sign × String) (terms : List (Sign × String)) :
    lines.sumAt months (t :: terms) m =
      factor t.1 * (lines.read months t.2).getD m 0 + lines.sumAt months terms m := rfl

@[simp] theorem sumAt_append (terms more : List (Sign × String)) :
    lines.sumAt months (terms ++ more) m =
      lines.sumAt months terms m + lines.sumAt months more m := by
  simp [sumAt]

theorem sumAt_distribute (s : Sign) (terms : List (Sign × String)) :
    lines.sumAt months (s.distribute terms) m = factor s * lines.sumAt months terms m := by
  induction terms with
  | nil => simp [Sign.distribute]
  | cons u terms ih =>
    rw [Sign.distribute, List.map_cons, ← Sign.distribute, sumAt_cons, sumAt_cons, ih, factor_times]
    ring

/-- Unfolding an item keeps a signed sum if the equation of the item holds. -/
theorem sumAt_unfoldIn (terms : List (Sign × String))
    (equation : i.isLeaf = false → i.runs = false →
      (lines.read months i.code).getD m 0 = lines.sumAt months (i.summands items) m) :
    lines.sumAt months (i.unfoldIn items terms) m = lines.sumAt months terms m := by
  induction terms with
  | nil => rfl
  | cons t terms ih =>
    unfold LineItem.unfoldIn at ih ⊢
    rw [List.flatMap_cons, sumAt_append, sumAt_cons, ih]
    congr 1
    split
    · rename_i inner
      rw [sumAt_distribute, inner.1, equation inner.2.1 inner.2.2]
    · simp

theorem sumAt_unfolded {order : List LineItem} (terms : List (Sign × String))
    (equations : ∀ i ∈ order, i.isLeaf = false → i.runs = false →
      (lines.read months i.code).getD m 0 = lines.sumAt months (i.summands items) m) :
    lines.sumAt months (LineItem.unfolded items order terms) m = lines.sumAt months terms m := by
  unfold LineItem.unfolded
  induction order with
  | nil => rfl
  | cons i order ih =>
    rw [List.foldr_cons, sumAt_unfoldIn _ (equations i (by simp))]
    exact ih fun j hj => equations j (by simp [hj])

end Lines

namespace Financials

open Lines

section

variable {t : Template} {lines : Lines Rat} {months m : Nat} {i : LineItem}
  (distinct : (t.items.map (·.code)).Nodup) (sized : lines.Sized months) (inside : m < months)
include distinct sized inside

theorem getD_compute_of_leaf (known : i ∈ t.items) (leaf : i.isLeaf = true) :
    ((compute t months lines).1.read months i.code).getD m 0 =
      if i.runs then ∑ k ∈ Finset.range (m + 1), lines.sumAt months [(.plus, i.code)] k
      else lines.sumAt months [(.plus, i.code)] m := by
  rw [read_compute_of_leaf distinct known leaf, getD_evaluate sized inside,
    LineItem.summands_of_isLeaf _ leaf]

theorem sumAt_compute_of_plain {terms : List (Sign × String)}
    (plain : ∀ u ∈ terms, ∃ i ∈ t.items, i.code = u.2 ∧ i.isPlain = true) :
    (compute t months lines).1.sumAt months terms m = lines.sumAt months terms m := by
  induction terms with
  | nil => rfl
  | cons u terms ih =>
    obtain ⟨i, known, bears, plainItem⟩ := plain u (by simp)
    obtain ⟨leaf, once⟩ := Bool.and_eq_true_iff.1 plainItem
    rw [Bool.not_eq_true', ← LineItem.runs_of_isLeaf leaf] at once
    have received := getD_compute_of_leaf distinct sized inside known leaf
    rw [once, bears] at received
    rw [sumAt_cons, sumAt_cons, ih fun v hv => plain v (by simp [hv]), received]
    simp [sumAt, factor]

variable (ordered : t.Ordered)
include ordered

theorem getD_compute_of_inner (known : i ∈ t.items) (inner : i.isLeaf = false) :
    ((compute t months lines).1.read months i.code).getD m 0 =
      if i.runs then
        ∑ k ∈ Finset.range (m + 1), (compute t months lines).1.sumAt months (i.summands t.byCode) k
      else (compute t months lines).1.sumAt months (i.summands t.byCode) m := by
  rw [read_compute_of_ordered ordered distinct known inner,
    getD_evaluate (sized_compute t sized) inside]

theorem getD_compute_of_sums {code : String} {terms : List (Sign × String)}
    (h : Template.sums? t.byCode code = some terms) :
    ((compute t months lines).1.read months code).getD m 0 =
      (compute t months lines).1.sumAt months terms m := by
  simp only [Template.sums?, Option.bind_eq_bind, Option.bind_eq_some_iff] at h
  obtain ⟨i, found, h⟩ := h
  obtain ⟨known, rfl⟩ := Template.of_lookup_byCode distinct found
  split at h
  · cases h
  · rename_i inner
    cases h
    rw [Bool.or_eq_true, not_or, Bool.not_eq_true, Bool.not_eq_true] at inner
    rw [getD_compute_of_inner distinct sized inside ordered known inner.1,
      if_neg (by simp [inner.2])]

theorem sumAt_compute_unfolded (terms : List (Sign × String)) :
    (compute t months lines).1.sumAt months (LineItem.unfolded t.byCode t.items terms) m =
      (compute t months lines).1.sumAt months terms m := by
  apply sumAt_unfolded
  intro i known inner once
  simpa [once] using getD_compute_of_inner distinct sized inside ordered known inner

/-- An item that runs is the sum of its movements up to a month. -/
theorem getD_compute_of_movements {terms : List (Sign × String)} (known : i ∈ t.items)
    (moves : LineItem.movements? t.byCode t.items i = some terms) :
    ((compute t months lines).1.read months i.code).getD m 0 =
      ∑ k ∈ Finset.range (m + 1), lines.sumAt months terms k := by
  unfold LineItem.movements? at moves
  split at moves
  · rename_i runs
    split at moves
    · rename_i leaf
      cases moves
      rw [getD_compute_of_leaf distinct sized inside known leaf, if_pos runs]
    · rename_i inner
      dsimp only at moves
      split at moves
      · rename_i plain
        cases moves
        rw [getD_compute_of_inner distinct sized inside ordered known (by simpa using inner),
          if_pos runs]
        apply Finset.sum_congr rfl
        intro k hk
        have inside' : k < months := by
          have := Finset.mem_range.1 hk
          omega
        rw [← sumAt_compute_unfolded distinct sized inside' ordered]
        apply sumAt_compute_of_plain distinct sized inside'
        intro u hu
        have settled := List.all_eq_true.1 plain u hu
        cases found : t.byCode.lookup u.2 with
        | none => simp [found] at settled
        | some j =>
          obtain ⟨knownLeaf, bears⟩ := Template.of_lookup_byCode distinct found
          exact ⟨j, knownLeaf, bears, by simpa [found] using settled⟩
      · cases moves
  · cases moves

theorem sumAt_compute_of_movements {terms moves : List (Sign × String)}
    (h : LineItem.movementsOf? t.byCode t.items terms = some moves) :
    (compute t months lines).1.sumAt months terms m =
      ∑ k ∈ Finset.range (m + 1), lines.sumAt months moves k := by
  induction terms generalizing moves with
  | nil =>
    cases h
    simp
  | cons u terms ih =>
    simp only [LineItem.movementsOf?, Option.bind_eq_bind, Option.bind_eq_some_iff] at h
    obtain ⟨i, found, own, hown, rest, hrest, h⟩ := h
    cases h
    obtain ⟨known, bears⟩ := Template.of_lookup_byCode distinct found
    have balance := getD_compute_of_movements distinct sized inside ordered known hown
    rw [bears] at balance
    rw [sumAt_cons, ih hrest, balance, Finset.mul_sum, ← Finset.sum_add_distrib]
    apply Finset.sum_congr rfl
    intro k hk
    rw [sumAt_append, sumAt_distribute]

theorem getD_compute_of_balance {code : String} {moves : List (Sign × String)}
    (h : Template.movements? t.byCode t.items code = some moves) :
    ((compute t months lines).1.read months code).getD m 0 =
      ∑ k ∈ Finset.range (m + 1), lines.sumAt months moves k := by
  rw [← sumAt_compute_of_movements distinct sized inside ordered h,
    sumAt_compute_unfolded distinct sized inside ordered]
  exact getD_copy code m

end

end Financials
end Forecast

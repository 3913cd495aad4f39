import Forecast.Statement
import Mathlib.Data.List.Basic

/-!
# Computing line items

Computing a line item reads the codes of its terms and nothing else, and changes
no code but its own. A plain leaf, which neither sums nor accumulates, does not
even change that. So if every term of an item is settled when the item is
computed, its equation still holds once all items are computed.
-/

namespace Forecast

/-- The signed codes that a formula sums. -/
def Formula.summands (items : Entries LineItem) : Formula → List (Sign × String)
  | .leaves above => (Lines.leafCodes items above).map fun code => (.plus, code)
  | .copy code => [(.plus, code)]
  | .runningTotal code => [(.plus, code)]
  | .signedSum terms => terms

def Formula.isRunningTotal : Formula → Bool
  | .runningTotal _ => true
  | _ => false

namespace LineItem

/-- The signed codes that an item sums; a leaf sums what it has received itself. -/
def summands (items : Entries LineItem) (i : LineItem) : List (Sign × String) :=
  match i.formula? with
  | some text => (Formula.ofText text).summands items
  | none => if i.hasChildren then Lines.childTerms items i else [(.plus, i.code)]

/-- Whether an item reports the running total of what it sums. -/
def runs (i : LineItem) : Bool :=
  match i.formula? with
  | some text =>
    (Formula.ofText text).isRunningTotal || (i.cumulative && !Formula.startsRunningTotal text)
  | none => i.cumulative && !i.hasChildren

/-- A leaf that reports just what it has received. -/
def isPlain (i : LineItem) : Bool :=
  i.isLeaf && !i.cumulative

variable {i : LineItem}

theorem isLeaf_iff : i.isLeaf = true ↔ i.formula? = none ∧ i.hasChildren = false := by
  simp [isLeaf]

theorem summands_of_isLeaf (items : Entries LineItem) (leaf : i.isLeaf = true) :
    i.summands items = [(.plus, i.code)] := by
  obtain ⟨noFormula, childless⟩ := isLeaf_iff.1 leaf
  simp [summands, noFormula, childless]

theorem runs_of_isLeaf (leaf : i.isLeaf = true) : i.runs = i.cumulative := by
  obtain ⟨noFormula, childless⟩ := isLeaf_iff.1 leaf
  simp [runs, noFormula, childless]

end LineItem

namespace Lines

variable {α : Type} [Amount α] {items : Entries LineItem} {lines lines' : Lines α} {months : Nat}
  {i : LineItem} {code : String} {order before after : List LineItem}

theorem read_put (lines : Lines α) (months : Nat) (code other : String) (xs : Series α) :
    Lines.read (lines.put code xs) months other =
      if other = code then xs else lines.read months other := by
  rw [read, Entries.lookup_put]
  split <;> rfl

theorem signedSum_congr {terms : List (Sign × String)}
    (same : ∀ t ∈ terms, lines.read months t.2 = lines'.read months t.2) :
    signedSum lines months terms = signedSum lines' months terms := by
  apply List.foldl_ext
  intro total t ht
  rw [same t ht]

theorem formula_congr {f : Formula}
    (same : ∀ t ∈ f.summands items, lines.read months t.2 = lines'.read months t.2) :
    lines.formula items months f = lines'.formula items months f := by
  cases f with
  | leaves above =>
    apply List.foldl_ext
    intro total code hcode
    rw [same (.plus, code) (List.mem_map_of_mem hcode)]
  | copy code => exact same (.plus, code) (by simp [Formula.summands])
  | runningTotal code =>
    exact congrArg Series.runningTotal (same (.plus, code) (by simp [Formula.summands]))
  | signedSum terms => exact signedSum_congr same

/-- An item reads its summands. -/
theorem evaluate_congr
    (same : ∀ t ∈ i.summands items, lines.read months t.2 = lines'.read months t.2) :
    (lines.evaluate items months i).1 = (lines'.evaluate items months i).1 := by
  unfold LineItem.summands at same
  unfold evaluate
  cases formula : i.formula? with
  | some text =>
    simp only [formula] at same ⊢
    rw [formula_congr same]
  | none =>
    simp only [formula] at same ⊢
    split at same
    · rename_i children
      rw [if_pos children, if_pos children, signedSum_congr same]
    · rename_i childless
      have own := same (.plus, i.code) (by simp)
      rw [if_neg childless, if_neg childless, own]

theorem evaluate_of_leaf (leaf : i.isLeaf = true) :
    lines.evaluate items months i =
      (if i.cumulative then Series.runningTotal (lines.read months i.code)
        else lines.read months i.code, []) := by
  obtain ⟨noFormula, childless⟩ := LineItem.isLeaf_iff.1 leaf
  unfold evaluate
  rw [noFormula, childless]
  cases i.cumulative <;> rfl

theorem evaluate_plain (plain : i.isPlain = true) :
    (lines.evaluate items months i).1 = lines.read months i.code := by
  rw [LineItem.isPlain, Bool.and_eq_true, Bool.not_eq_true'] at plain
  obtain ⟨leaf, once⟩ := plain
  rw [evaluate_of_leaf leaf, once, if_neg Bool.false_ne_true]

def run (items : Entries LineItem) (months : Nat) (order : List LineItem) (lines : Lines α) :
    Lines α :=
  order.foldl (fun lines i => lines.put i.code (lines.evaluate items months i).1) lines

theorem fst_foldl_step (order : List LineItem) (state : Lines α × List Notice) :
    (order.foldl (step items months) state).1 = run items months order state.1 := by
  induction order generalizing state with
  | nil => rfl
  | cons i order ih => exact ih _

theorem run_append (before after : List LineItem) (lines : Lines α) :
    run items months (before ++ after) lines =
      run items months after (run items months before lines) :=
  List.foldl_append

theorem read_run_of_settled (settled : ∀ j ∈ order, j.code = code → j.isPlain = true) :
    (run items months order lines).read months code = lines.read months code := by
  induction order generalizing lines with
  | nil => rfl
  | cons i order ih =>
    rw [run, List.foldl_cons, ← run, ih fun j hj => settled j (List.mem_cons_of_mem _ hj), read_put]
    split
    · rename_i own
      rw [evaluate_plain (settled i (by simp) own.symm), own]
    · rfl

theorem mem_keys_run :
    code ∈ (run items months order lines).keys ↔ code ∈ lines.keys ∨
    ∃ i ∈ order, i.code = code := by
  induction order generalizing lines with
  | nil => simp [run]
  | cons i order ih =>
    rw [run, List.foldl_cons, ← run, ih, Entries.mem_keys_put, List.exists_mem_cons_iff, eq_comm,
      or_assoc, or_left_comm]

/-- Every code has an amount for every month. -/
def Sized (lines : Lines α) (months : Nat) : Prop :=
  ∀ code, (lines.read months code).length = months

theorem length_foldl_plus {β : Type} {f : β → Series α} {terms : List β} {total : Series α}
    (sized : ∀ t ∈ terms, (f t).length = months) (start : total.length = months) :
    (terms.foldl (fun total t => plus total (f t)) total).length = months := by
  induction terms generalizing total with
  | nil => exact start
  | cons t terms ih =>
    apply ih fun u hu => sized u (List.mem_cons_of_mem _ hu)
    simp [plus, start, sized t]

namespace Sized

variable (sized : lines.Sized months)
include sized

theorem length_signedSum (terms : List (Sign × String)) :
    (signedSum lines months terms).length = months := by
  apply length_foldl_plus
  · intro t _
    simpa using sized t.2
  · simp

theorem length_formula (items : Entries LineItem) (f : Formula) :
    (lines.formula items months f).length = months := by
  cases f with
  | leaves above => exact length_foldl_plus (fun code _ => sized code) (by simp)
  | copy code => exact sized code
  | runningTotal code => simpa [formula] using sized code
  | signedSum terms => exact sized.length_signedSum terms

theorem length_evaluate (items : Entries LineItem) (i : LineItem) :
    (lines.evaluate items months i).1.length = months := by
  unfold evaluate
  cases i.formula? with
  | some text =>
    dsimp only
    split
    · rw [Series.length_runningTotal, sized.length_formula items]
    · exact sized.length_formula items _
  | none =>
    dsimp only
    split
    · exact sized.length_signedSum _
    · split
      · rw [Series.length_runningTotal, sized]
      · exact sized i.code

theorem run (items : Entries LineItem) (order : List LineItem) :
    (run items months order lines).Sized months := by
  induction order generalizing lines with
  | nil => exact sized
  | cons i order ih =>
    apply ih
    intro code
    rw [read_put]
    split
    · exact sized.length_evaluate items i
    · exact sized code

end Sized

section

variable (distinct : (order.map (·.code)).Nodup) (cut : order = before ++ i :: after)
include distinct cut

/-- In the end an item has what it was given when it was computed. -/
theorem read_run_of_cut :
    (run items months order lines).read months i.code =
      ((run items months before lines).evaluate items months i).1 := by
  have later : ∀ j ∈ after, j.code = i.code → j.isPlain = true := by
    intro j hj same
    rw [cut, List.map_append, List.map_cons, List.nodup_append, List.nodup_cons] at distinct
    exact absurd (same ▸ List.mem_map_of_mem hj) distinct.2.1.1
  rw [cut, run_append, run, List.foldl_cons, ← run, read_run_of_settled later, read_put, if_pos rfl]

/-- The equation of an item holds in the end if no later item changes what it sums. -/
theorem read_run_of_ready
    (ready : ∀ t ∈ i.summands items, ∀ j ∈ i :: after, j.code = t.2 → j.isPlain = true) :
    (run items months order lines).read months i.code =
      ((run items months order lines).evaluate items months i).1 := by
  rw [read_run_of_cut distinct cut]
  apply evaluate_congr
  intro t ht
  rw [cut, run_append, read_run_of_settled (ready t ht)]

/-- A leaf has in the end what follows from what it has received. -/
theorem read_run_of_leaf (leaf : i.isLeaf = true) :
    (run items months order lines).read months i.code = (lines.evaluate items months i).1 := by
  rw [read_run_of_cut distinct cut]
  apply evaluate_congr
  intro t ht
  rw [LineItem.summands_of_isLeaf items leaf] at ht
  cases List.mem_singleton.1 ht
  apply read_run_of_settled
  intro j hj same
  rw [cut, List.map_append, List.map_cons, List.nodup_append] at distinct
  exact absurd same (distinct.2.2 j.code (List.mem_map_of_mem hj) i.code (by simp))

end

end Lines
end Forecast

import Forecast.Proofs.Statement.Movements

/-!
# Items beside their totals

A template may give a sum twice: an item adds its children by their signs, and a
total beside it follows from a formula. If term by term both read the same code,
or the total reads the total of what the item reads, then in an ordered template
they have the same series, whatever the channels are added to.
-/

namespace Forecast

namespace Template

/-- The code of the total that stands beside an item. -/
def totalCode (code : String) : String :=
  code ++ ".total"

/-- Whether a term of a total stands for a term of the item beside it: it reads the same code, or
the total of an item with children among those below. -/
def StandsFor (below : List LineItem) (u v : Sign × String) : Prop :=
  u.1 = v.1 ∧ (u.2 = v.2 ∨
    v.2 = totalCode u.2 ∧ ∃ j ∈ below, j.hasChildren = true ∧ j.code = u.2)

instance (below : List LineItem) (u v : Sign × String) : Decidable (StandsFor below u v) :=
  inferInstanceAs (Decidable (_ ∧ (_ ∨ _ ∧ _)))

/-- Whether an item and its total sum the same terms, one standing for the other. -/
def Matched (items : Entries LineItem) (below : List LineItem) (code : String) : Prop :=
  match sums? items code, sums? items (totalCode code) with
  | some terms, some terms' => List.Forall₂ (StandsFor below) terms terms'
  | _, _ => False

instance (items : Entries LineItem) (below : List LineItem) (code : String) :
    Decidable (Matched items below code) := by
  unfold Matched
  split <;> infer_instance

/-- Whether each item with children is matched by its total, given the items below it. -/
def Paired (items : Entries LineItem) : List LineItem → Prop
  | [] => True
  | i :: below => (i.hasChildren = true → Matched items below i.code) ∧ Paired items below

instance decidablePaired (items : Entries LineItem) :
    (l : List LineItem) → Decidable (Paired items l)
  | [] => inferInstanceAs (Decidable True)
  | _ :: below =>
    have := decidablePaired items below
    inferInstanceAs (Decidable ((_ → _) ∧ _))

theorem Matched.exists_terms {items : Entries LineItem} {below : List LineItem} {code : String}
    (h : Matched items below code) : ∃ terms terms', sums? items code = some terms ∧
      sums? items (totalCode code) = some terms' ∧ List.Forall₂ (StandsFor below) terms terms' := by
  unfold Matched at h
  split at h
  · exact ⟨_, _, ‹_›, ‹_›, h⟩
  · exact h.elim

end Template

theorem Lines.sumAt_congr {lines : Lines Rat} {months m : Nat} {terms terms' : List (Sign × String)}
    (same : List.Forall₂ (fun u v => u.1 = v.1 ∧ lines.read months u.2 = lines.read months v.2)
      terms terms') : lines.sumAt months terms m = lines.sumAt months terms' m := by
  induction same with
  | nil => rfl
  | cons head _ ih => rw [sumAt_cons, sumAt_cons, ih, head.1, head.2]

namespace Financials

variable {t : Template} {lines : Lines Rat} {months m : Nat} {i : LineItem} {l : List LineItem}

/-- Items with children have the series of the totals that match them: the totals are matched from
the last item up, so that those an item may rely on come first. -/
theorem read_compute_total (distinct : (t.items.map (·.code)).Nodup) (ordered : t.Ordered)
    (sized : lines.Sized months) (paired : Template.Paired t.byCode l) :
    ∀ i ∈ l, i.hasChildren = true → (compute t months lines).1.read months i.code =
      (compute t months lines).1.read months (Template.totalCode i.code) := by
  have sized' := sized_compute t sized
  induction l with
  | nil => simp
  | cons i below ih =>
    obtain ⟨here, later⟩ := paired
    have earlier := ih later
    intro j hj parent
    rcases List.mem_cons.1 hj with rfl | hj
    · obtain ⟨terms, terms', sums, sums', stand⟩ := (here parent).exists_terms
      apply Series.ext_getD ((sized' _).trans (sized' _).symm)
      intro m inside
      rw [sized'] at inside
      rw [getD_compute_of_sums distinct sized inside ordered sums,
        getD_compute_of_sums distinct sized inside ordered sums']
      apply Lines.sumAt_congr
      refine stand.imp ?_
      rintro u v ⟨sign, same | ⟨total, k, hk, children, bears⟩⟩
      · exact ⟨sign, by rw [same]⟩
      · refine ⟨sign, ?_⟩
        rw [total, ← bears]
        exact earlier k hk children
    · exact earlier j hj parent

theorem getD_compute_of_children (distinct : (t.items.map (·.code)).Nodup) (ordered : t.Ordered)
    (sized : lines.Sized months) (known : i ∈ t.items) (parent : i.hasChildren = true)
    (noFormula : i.formula? = none) (inside : m < months) :
    ((compute t months lines).1.read months i.code).getD m 0 =
      (compute t months lines).1.sumAt months (Lines.childTerms t.byCode i) m := by
  have inner : i.isLeaf = false := by simp [LineItem.isLeaf, parent]
  have once : i.runs = false := by simp [LineItem.runs, noFormula, parent]
  have children : i.summands t.byCode = Lines.childTerms t.byCode i := by
    simp [LineItem.summands, noFormula, parent]
  rw [getD_compute_of_inner distinct sized inside ordered known inner, once, children]
  rfl

end Financials

end Forecast

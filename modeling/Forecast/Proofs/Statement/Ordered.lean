import Forecast.Proofs.Statement.Evaluation
import Mathlib.Data.List.Nodup
import Mathlib.Data.List.Perm.Basic

/-!
# Ordered templates

A template is ordered if each code that an item sums is a plain leaf, or is
computed before the item: in an earlier statement, or in the same statement at
a greater depth, or at the same depth and listed earlier. Then the equations of
all items hold at once when the statements are computed.
-/

namespace Forecast

namespace Template

/-- Whether a code may be summed by an item, given the items of the earlier statements, those of its
own and, among these, those listed before it. -/
def MayRead (all earlier own before : List LineItem) (i : LineItem) (code : String) : Prop :=
  (∃ j ∈ all, j.isPlain = true ∧ j.code = code) ∨ (∃ j ∈ earlier, j.code = code) ∨
    (∃ j ∈ before, j.depth = i.depth ∧ j.code = code) ∨
      (∃ j ∈ own, i.depth < j.depth ∧ j.code = code) ∨ ∀ j ∈ all, j.code ≠ code

instance (all earlier own before : List LineItem) (i : LineItem) (code : String) :
    Decidable (MayRead all earlier own before i code) :=
  inferInstanceAs (Decidable (_ ∨ _ ∨ _ ∨ _ ∨ _))

/-- Whether the items from some item of a statement on may read what they sum. -/
def ItemsOrdered (items : Entries LineItem) (all earlier own : List LineItem) :
    (before rest : List LineItem) → Prop
  | _, [] => True
  | before, i :: rest =>
    (i.isLeaf = true ∨ ∀ t ∈ i.summands items, MayRead all earlier own before i t.2) ∧
      ItemsOrdered items all earlier own (before ++ [i]) rest

instance decidableItemsOrdered (items : Entries LineItem) (all earlier own : List LineItem) :
    (before rest : List LineItem) → Decidable (ItemsOrdered items all earlier own before rest)
  | _, [] => inferInstanceAs (Decidable True)
  | before, i :: rest =>
    have := decidableItemsOrdered items all earlier own (before ++ [i]) rest
    inferInstanceAs (Decidable (_ ∧ _))

/-- Whether the statements after some items may read what they sum. -/
def StatementsOrdered (items : Entries LineItem) (all : List LineItem) :
    (earlier : List LineItem) → (statements : List (List LineItem)) → Prop
  | _, [] => True
  | earlier, own :: rest =>
    ItemsOrdered items all earlier own [] own ∧ StatementsOrdered items all (earlier ++ own) rest

instance decidableStatementsOrdered (items : Entries LineItem) (all : List LineItem) :
    (earlier : List LineItem) → (statements : List (List LineItem)) →
      Decidable (StatementsOrdered items all earlier statements)
  | _, [] => inferInstanceAs (Decidable True)
  | earlier, own :: rest =>
    have := decidableStatementsOrdered items all (earlier ++ own) rest
    inferInstanceAs (Decidable (_ ∧ _))

/-- Every item sums only what is settled before it. -/
def Ordered (t : Template) : Prop :=
  StatementsOrdered t.byCode t.items [] (t.statements.map (·.2.items))

def evaluated (t : Template) : List LineItem :=
  t.statements.flatMap fun s => Lines.evaluationOrder s.2.items

variable {t : Template} {items : Entries LineItem}
  {all earlier own seen before after : List LineItem}
  {i : LineItem}

theorem evaluated_perm (t : Template) : t.evaluated.Perm t.items :=
  List.Perm.flatMap_left _ fun _ _ => List.mergeSort_perm _ _

theorem nodup_evaluated (distinct : (t.items.map (·.code)).Nodup) :
    (t.evaluated.map (·.code)).Nodup :=
  (t.evaluated_perm.map _).nodup_iff.2 distinct

theorem byCode_of_distinct (distinct : (t.items.map (·.code)).Nodup) :
    t.byCode = t.items.map fun i => (i.code, i) := by
  apply Entries.ofList_of_nodup
  simpa [Entries.keys, Function.comp_def] using distinct

theorem eq_of_code_eq (distinct : (t.items.map (·.code)).Nodup) {j : LineItem} (hi : i ∈ t.items)
    (hj : j ∈ t.items) (same : i.code = j.code) : i = j :=
  List.inj_on_of_nodup_map distinct hi hj same

theorem of_lookup_byCode (distinct : (t.items.map (·.code)).Nodup) {code : String}
    (h : t.byCode.lookup code = some i) : i ∈ t.items ∧ i.code = code := by
  rw [byCode_of_distinct distinct] at h
  obtain ⟨j, known, same⟩ := List.mem_map.1 (Entries.mem_of_lookup h)
  cases same
  exact ⟨known, rfl⟩

theorem ItemsOrdered.of_cut
    (ordered : ItemsOrdered items all earlier own seen (before ++ i :: after)) :
    i.isLeaf = true ∨ ∀ u ∈ i.summands items, MayRead all earlier own (seen ++ before) i u.2 := by
  induction before generalizing seen with
  | nil => simpa using ordered.1
  | cons j before ih => simpa using ih ordered.2

theorem StatementsOrdered.of_cut {before after : List (List LineItem)}
    (ordered : StatementsOrdered items all earlier (before ++ own :: after)) :
    ItemsOrdered items all (earlier ++ before.flatten) own [] own := by
  induction before generalizing earlier with
  | nil => simpa using ordered.1
  | cons other before ih => simpa using ih ordered.2

theorem deeper_trans (a b c : LineItem) (h : decide (b.depth ≤ a.depth) = true)
    (h' : decide (c.depth ≤ b.depth) = true) : decide (c.depth ≤ a.depth) = true := by
  simp only [decide_eq_true_eq] at *
  omega

theorem deeper_total (a b : LineItem) :
    (decide (b.depth ≤ a.depth) || decide (a.depth ≤ b.depth)) = true := by
  simp only [Bool.or_eq_true, decide_eq_true_eq]
  omega

theorem mem_evaluationOrder : i ∈ Lines.evaluationOrder own ↔ i ∈ own :=
  (List.mergeSort_perm _ _).mem_iff

theorem pair_sublist_of_listed {j : LineItem} (listed : own = before ++ i :: after)
    (hj : j ∈ before)
    (same : j.depth = i.depth) : [j, i].Sublist (Lines.evaluationOrder own) := by
  apply List.pair_sublist_mergeSort deeper_trans deeper_total (by simp [same])
  rw [listed]
  exact (List.singleton_sublist.2 hj).append (List.singleton_sublist.2 (by simp))

theorem pair_sublist_of_deeper {j : LineItem} (hi : i ∈ own) (hj : j ∈ own)
    (deeper : i.depth < j.depth) : [j, i].Sublist (Lines.evaluationOrder own) := by
  obtain ⟨x, y, sorted⟩ := List.append_of_mem (mem_evaluationOrder.2 hj)
  have pairwise : (Lines.evaluationOrder own).Pairwise fun a b =>
      decide (b.depth ≤ a.depth) = true :=
    List.pairwise_mergeSort deeper_trans deeper_total own
  have position : i ∈ x ++ j :: y := sorted ▸ mem_evaluationOrder.2 hi
  rw [sorted, List.pairwise_append] at pairwise
  -- what comes before a deeper item is at least as deep
  have notBefore : i ∉ x := by
    intro hx
    have := pairwise.2.2 i hx j (by simp)
    simp only [decide_eq_true_eq] at this
    omega
  have notSame : i ≠ j := by
    rintro rfl
    omega
  have behind : i ∈ y := by simpa [notBefore, notSame] using position
  rw [sorted]
  exact ((List.singleton_sublist.2 behind).cons_cons j).trans (List.sublist_append_right x _)

theorem notMem_of_pair {j : LineItem} (pair : [j, i].Sublist (before ++ i :: after))
    (distinct : (before ++ i :: after).Nodup) : j ∉ i :: after := by
  rw [List.nodup_append, List.nodup_cons] at distinct
  obtain ⟨front, back, split, hfront, hback⟩ := List.sublist_append_iff.1 pair
  cases front with
  | nil =>
    rw [List.nil_append] at split
    subst split
    exact absurd (List.singleton_sublist.1 hback.of_cons_cons) distinct.2.1.1
  | cons k front =>
    obtain ⟨rfl, -⟩ := List.cons.inj split
    intro hj
    exact distinct.2.2 j (hfront.subset (by simp)) j hj rfl

section

variable {s : String × Statement} {pre post : List (String × Statement)} {j : LineItem}

theorem pair_sublist_evaluated (cut : t.statements = pre ++ s :: post)
    (pair : [j, i].Sublist (Lines.evaluationOrder s.2.items)) : [j, i].Sublist t.evaluated := by
  rw [evaluated, cut, List.flatMap_append, List.flatMap_cons]
  exact pair.trans ((List.sublist_append_left _ _).trans (List.sublist_append_right _ _))

theorem pair_sublist_of_earlier (cut : t.statements = pre ++ s :: post)
    (hj : j ∈ pre.flatMap fun s => s.2.items) (hi : i ∈ s.2.items) :
    [j, i].Sublist t.evaluated := by
  obtain ⟨other, hother, hj⟩ := List.mem_flatMap.1 hj
  have first : j ∈ pre.flatMap fun s => Lines.evaluationOrder s.2.items :=
    List.mem_flatMap.2 ⟨other, hother, mem_evaluationOrder.2 hj⟩
  have second : i ∈ Lines.evaluationOrder s.2.items := mem_evaluationOrder.2 hi
  rw [evaluated, cut, List.flatMap_append, List.flatMap_cons]
  apply (List.singleton_sublist.2 first).append
  exact List.singleton_sublist.2 (List.mem_append_left _ second)

/-- A code that an item may read is a plain leaf, or computed before it, or unknown. -/
theorem MayRead.settled {code : String} (cut : t.statements = pre ++ s :: post)
    (listed : s.2.items = before ++ i :: after)
    (may : MayRead t.items (pre.flatMap fun s => s.2.items) s.2.items before i code) :
    (∃ j ∈ t.items, j.isPlain = true ∧ j.code = code) ∨
      (∃ j ∈ t.items, j.code = code ∧ [j, i].Sublist t.evaluated) ∨
        ∀ j ∈ t.items, j.code ≠ code := by
  have own : ∀ j ∈ s.2.items, j ∈ t.items := by
    intro j hj
    rw [items, cut]
    exact List.mem_flatMap.2 ⟨s, by simp, hj⟩
  have hi : i ∈ s.2.items := by simp [listed]
  rcases may with plain | ⟨j, hj, bears⟩ | ⟨j, hj, level, bears⟩ | ⟨j, hj, deeper, bears⟩ | unknown
  · exact .inl plain
  · refine .inr (.inl ⟨j, ?_, bears, pair_sublist_of_earlier cut hj hi⟩)
    rw [items, cut, List.flatMap_append]
    exact List.mem_append_left _ hj
  · have pair := pair_sublist_of_listed listed hj level
    exact .inr (.inl ⟨j, own j (by simp [listed, hj]), bears, pair_sublist_evaluated cut pair⟩)
  · have pair := pair_sublist_of_deeper hi hj deeper
    exact .inr (.inl ⟨j, own j hj, bears, pair_sublist_evaluated cut pair⟩)
  · exact .inr (.inr unknown)

theorem Ordered.mayRead (ordered : t.Ordered) (cut : t.statements = pre ++ s :: post)
    (listed : s.2.items = before ++ i :: after) (inner : i.isLeaf = false) :
    ∀ u ∈ i.summands t.byCode,
      MayRead t.items (pre.flatMap fun s => s.2.items) s.2.items before i u.2 := by
  unfold Ordered at ordered
  rw [cut, List.map_append, List.map_cons] at ordered
  have own := ordered.of_cut
  rw [listed] at own
  have reads := own.of_cut.resolve_left (by simp [inner])
  rw [← listed] at reads
  simpa [List.flatMap_def] using reads

end

/-- When an item is computed, what it sums is settled: no later item changes it. -/
theorem Ordered.exists_ready (ordered : t.Ordered) (distinct : (t.items.map (·.code)).Nodup)
    (known : i ∈ t.items) (inner : i.isLeaf = false) :
    ∃ before after, t.evaluated = before ++ i :: after ∧
      ∀ u ∈ i.summands t.byCode, ∀ j ∈ i :: after, j.code = u.2 → j.isPlain = true := by
  obtain ⟨s, hs, hi⟩ := List.mem_flatMap.1 known
  obtain ⟨pre, post, cut⟩ := List.append_of_mem hs
  obtain ⟨_, _, listed⟩ := List.append_of_mem hi
  obtain ⟨before, after, position⟩ := List.append_of_mem (t.evaluated_perm.mem_iff.2 known)
  refine ⟨before, after, position, ?_⟩
  intro u hu j hj same
  have hjt : j ∈ t.items := by
    rw [← t.evaluated_perm.mem_iff, position]
    exact List.mem_append_right _ hj
  rcases (ordered.mayRead cut listed inner u hu).settled cut listed with
    ⟨k, hk, plain, bears⟩ | ⟨k, hk, bears, pair⟩ | unknown
  · cases eq_of_code_eq distinct hk hjt (bears.trans same.symm)
    exact plain
  · cases eq_of_code_eq distinct hk hjt (bears.trans same.symm)
    rw [position] at pair
    exact absurd hj (notMem_of_pair pair (position ▸ (nodup_evaluated distinct).of_map _))
  · exact absurd same (unknown j hjt)

end Template

namespace Financials

variable {α : Type} [Amount α] {t : Template} {months : Nat} {lines : Lines α} {i : LineItem}

theorem fst_compute (t : Template) (months : Nat) (lines : Lines α) :
    (compute t months lines).1 = Lines.run t.byCode months t.evaluated lines :=
  Lines.fst_foldl_step _ _

theorem sized_compute (t : Template) (sized : lines.Sized months) :
    (compute t months lines).1.Sized months := by
  rw [fst_compute]
  exact sized.run t.byCode t.evaluated

theorem lookup_compute {code : String} (known : code ∈ t.items.map (·.code)) :
    (compute t months lines).1.lookup code = some
      ((compute t months lines).1.read months code) := by
  obtain ⟨i, hi, rfl⟩ := List.mem_map.1 known
  have key : i.code ∈ (compute t months lines).1.keys := by
    rw [fst_compute]
    exact Lines.mem_keys_run.2 (.inr ⟨i, t.evaluated_perm.mem_iff.2 hi, rfl⟩)
  obtain ⟨xs, found⟩ := Entries.exists_lookup key
  rw [Lines.read, found, Option.getD_some]

/-- Once an ordered template is computed, the equations of all its inner items hold. -/
theorem read_compute_of_ordered (ordered : t.Ordered) (distinct : (t.items.map (·.code)).Nodup)
    (known : i ∈ t.items) (inner : i.isLeaf = false) :
    (compute t months lines).1.read months i.code =
      ((compute t months lines).1.evaluate t.byCode months i).1 := by
  obtain ⟨before, after, cut, ready⟩ := ordered.exists_ready distinct known inner
  rw [fst_compute]
  exact Lines.read_run_of_ready (Template.nodup_evaluated distinct) cut ready

/-- A leaf keeps what it has received, or reports its running total. -/
theorem read_compute_of_leaf (distinct : (t.items.map (·.code)).Nodup) (known : i ∈ t.items)
    (leaf : i.isLeaf = true) :
    (compute t months lines).1.read months i.code = (lines.evaluate t.byCode months i).1 := by
  obtain ⟨before, after, cut⟩ := List.append_of_mem (t.evaluated_perm.mem_iff.2 known)
  rw [fst_compute]
  exact Lines.read_run_of_leaf (Template.nodup_evaluated distinct) cut leaf

end Financials
end Forecast

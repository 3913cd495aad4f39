import Mathlib.Data.Fintype.EquivFin
import Mathlib.Data.List.Chain
import Mathlib.Data.Set.Finite.List
import Mathlib.Logic.Relation

/-!
# Grounded lists and closed walks

A list is grounded if everything that an element leads to stands behind it.
Nothing on a grounded list lies on a cycle; and where each of finitely many
elements leads to another of them, there is one. A closed walk is a cycle that
can be shown.
-/

namespace Forecast.Order

open Relation

variable {α : Type} {R : α → α → Prop}

/-- Each element stands once, before all that it leads to. -/
def Grounded (R : α → α → Prop) : List α → Prop
  | [] => True
  | a :: l => a ∉ l ∧ (∀ b, R a b → b ∈ l) ∧ Grounded R l

namespace Grounded

variable {l : List α} {a b : α}

theorem nodup (h : Grounded R l) : l.Nodup := by
  induction l with
  | nil => exact List.nodup_nil
  | cons a l ih => exact List.nodup_cons.2 ⟨h.1, ih h.2.2⟩

theorem mem_of_rel (h : Grounded R l) (ha : a ∈ l) (hab : R a b) : b ∈ l := by
  induction l with
  | nil => simp at ha
  | cons c l ih =>
    rcases List.mem_cons.1 ha with rfl | ha
    · exact List.mem_cons_of_mem _ (h.2.1 b hab)
    · exact List.mem_cons_of_mem _ (ih h.2.2 ha)

theorem mem_of_transGen (h : Grounded R l) (ha : a ∈ l) (hab : TransGen R a b) : b ∈ l := by
  induction hab with
  | single hab => exact h.mem_of_rel ha hab
  | tail _ hbc hb => exact h.mem_of_rel hb hbc

theorem not_transGen_self (h : Grounded R l) (ha : a ∈ l) : ¬TransGen R a a := by
  induction l with
  | nil => simp at ha
  | cons c l ih =>
    intro loop
    rcases List.mem_cons.1 ha with rfl | ha
    · -- the first step leaves the head, and the tail never leads back to it
      obtain ⟨b, hab, hba⟩ := TransGen.head'_iff.1 loop
      have hb := h.2.1 b hab
      rcases hba.cases_head with rfl | ⟨c, hbc, hca⟩
      · exact h.1 hb
      · exact h.1 (h.2.2.mem_of_transGen hb (TransGen.head' hbc hca))
    · exact ih h.2.2 ha loop

/-- In a grounded list, what an element leads to stands behind each place where the list is cut. -/
theorem mem_of_append {front back : List α} (h : Grounded R (front ++ a :: back)) (hab : R a b) :
    b ∈ back := by
  induction front with
  | nil => exact h.2.1 b hab
  | cons c front ih => exact ih h.2.2

end Grounded

/-- Where each of finitely many elements leads to one of them, some cycle runs through them. -/
theorem exists_transGen_self {l : List α} (nonempty : l ≠ [])
    (onward : ∀ a ∈ l, ∃ b ∈ l, R a b) :
    ∃ a ∈ l, TransGen (fun x y => x ∈ l ∧ y ∈ l ∧ R x y) a a := by
  by_contra acyclic
  let S := fun x y : {a // a ∈ l} => TransGen (fun x y => x ∈ l ∧ y ∈ l ∧ R x y) y.1 x.1
  have : Finite {a // a ∈ l} := (List.finite_toSet l).to_subtype
  have : IsTrans _ S := ⟨fun _ _ _ hab hbc => hbc.trans hab⟩
  have : Std.Irrefl S := ⟨fun a loop => acyclic ⟨a.1, a.2, loop⟩⟩
  obtain ⟨first, hfirst⟩ := List.exists_mem_of_ne_nil l nonempty
  obtain ⟨⟨a, ha⟩, -, least⟩ :=
    (Finite.wellFounded_of_trans_of_irrefl S).has_min Set.univ ⟨⟨first, hfirst⟩, trivial⟩
  obtain ⟨b, hb, hab⟩ := onward a ha
  exact least ⟨b, hb⟩ trivial (TransGen.single ⟨ha, hb, hab⟩)

/-- A walk of steps in `R` that ends where it starts and meets no other element twice. -/
structure ClosedWalk (R : α → α → Prop) (walk : List α) : Prop where
  steps : walk.IsChain R
  closed : ∃ a inner, walk = a :: inner ++ [a]
  simple : walk.dropLast.Nodup

theorem ClosedWalk.mono {S : α → α → Prop} {walk : List α} (h : ClosedWalk R walk)
    (imp : ∀ a b, R a b → S a b) : ClosedWalk S walk where
  steps := h.steps.imp imp
  closed := h.closed
  simple := h.simple

theorem ClosedWalk.length {walk : List α} (h : ClosedWalk R walk) : 2 ≤ walk.length := by
  obtain ⟨a, inner, rfl⟩ := h.closed
  simp

theorem transGen_of_isChain {a b : α} {inner : List α} (h : (a :: inner ++ [b]).IsChain R) :
    TransGen R a b := by
  induction inner generalizing a with
  | nil => exact TransGen.single (List.isChain_pair.1 h)
  | cons c inner ih =>
    rw [List.cons_append, List.cons_append, List.isChain_cons_cons] at h
    exact TransGen.head h.1 (ih h.2)

theorem ClosedWalk.transGen {walk : List α} (h : ClosedWalk R walk) : ∃ a, TransGen R a a := by
  obtain ⟨a, inner, rfl⟩ := h.closed
  exact ⟨a, transGen_of_isChain h.steps⟩

end Forecast.Order

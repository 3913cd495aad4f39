import Forecast.Order
import Forecast.Proofs.Order.Grounded
import Mathlib.Data.List.Perm.Basic

/-!
# Settling

While nodes are taken from the queue, every node is queued, waits or is done;
what is queued needs only what is done, and what waits lists exactly the needs
that are not done. So at the end the nodes that are done form a grounded list,
and each node that still waits needs another one that does.
-/

namespace Forecast.Order

open scoped List

variable {needs : String → List String} {nodes queue done : List String} {waiting : Waiting}

/-- The state of settling nodes with known needs. -/
structure Settling (needs : String → List String) (nodes queue : List String) (waiting : Waiting)
    (done : List String) : Prop where
  grounded : Grounded (fun n p => p ∈ needs n) done
  ready : ∀ n ∈ queue, ∀ p ∈ needs n, p ∈ done
  nonempty : ∀ w ∈ waiting, w.2 ≠ []
  distinct : ∀ w ∈ waiting, w.2.Nodup
  missing : ∀ w ∈ waiting, ∀ p, p ∈ w.2 ↔ p ∈ needs w.1 ∧ p ∉ done
  all : queue ++ waiting.keys ++ done ~ nodes

theorem keys_filter_append_perm (p : String × List String → Bool) (w : Waiting) :
    Entries.keys (w.filter p) ++ Entries.keys (w.filter fun e => !p e) ~ w.keys := by
  simp only [Entries.keys, ← List.map_append]
  exact (List.filter_append_perm p w).map _

theorem release_eq (node : String) (waiting : Waiting) :
    release node waiting =
      (Entries.keys ((waiting.mapValues (·.erase node)).filter fun w => w.2.isEmpty),
        (waiting.mapValues (·.erase node)).filter fun w => !w.2.isEmpty) := by
  simp only [release, List.partition_eq_filter_filter]
  rfl

theorem mem_release_fst {node n : String} :
    n ∈ (release node waiting).1 ↔ ∃ w ∈ waiting, w.2.erase node = [] ∧ w.1 = n := by
  simp only [release_eq, Entries.keys, Entries.mapValues, List.mem_map, List.mem_filter]
  constructor
  · rintro ⟨_, ⟨⟨w, hw, rfl⟩, empty⟩, rfl⟩
    exact ⟨w, hw, by simpa using empty, rfl⟩
  · rintro ⟨w, hw, empty, rfl⟩
    exact ⟨_, ⟨⟨w, hw, rfl⟩, by simpa using empty⟩, rfl⟩

theorem mem_release_snd {node : String} {e : String × List String} :
    e ∈ (release node waiting).2 ↔
      ∃ w ∈ waiting, w.2.erase node ≠ [] ∧ (w.1, w.2.erase node) = e := by
  simp only [release_eq, Entries.mapValues, List.mem_filter, List.mem_map]
  constructor
  · rintro ⟨⟨w, hw, rfl⟩, nonempty⟩
    exact ⟨w, hw, by simpa using nonempty, rfl⟩
  · rintro ⟨w, hw, nonempty, rfl⟩
    exact ⟨⟨w, hw, rfl⟩, by simpa using nonempty⟩

theorem release_perm (node : String) (waiting : Waiting) :
    (release node waiting).1 ++ (release node waiting).2.keys ~ waiting.keys := by
  rw [release_eq, ← Entries.keys_mapValues (·.erase node) waiting]
  exact keys_filter_append_perm _ _

/-- Taking a node from the queue. -/
theorem Settling.step {node : String} (distinct : nodes.Nodup)
    (h : Settling needs nodes (node :: queue) waiting done) :
    Settling needs nodes (queue ++ (release node waiting).1) (release node waiting).2
      (node :: done) := by
  have off : node ∉ done := by
    have := h.all.nodup_iff.2 distinct
    simp only [List.cons_append, List.nodup_cons, List.mem_append, not_or] at this
    exact this.1.2
  have erased : ∀ w ∈ waiting, ∀ p, p ∈ w.2.erase node ↔ p ∈ needs w.1 ∧ p ∉ node :: done := by
    intro w hw p
    rw [(h.distinct w hw).mem_erase_iff, h.missing w hw, List.mem_cons, not_or]
    tauto
  refine ⟨⟨off, h.ready node (by simp), h.grounded⟩, ?_, ?_, ?_, ?_, ?_⟩
  · intro n hn p hp
    rcases List.mem_append.1 hn with hn | hn
    · exact List.mem_cons_of_mem _ (h.ready n (by simp [hn]) p hp)
    · obtain ⟨w, hw, nothing, rfl⟩ := mem_release_fst.1 hn
      by_contra missing
      have := (erased w hw p).2 ⟨hp, missing⟩
      simp [nothing] at this
  · intro e he
    obtain ⟨w, -, nonempty, rfl⟩ := mem_release_snd.1 he
    exact nonempty
  · intro e he
    obtain ⟨w, hw, -, rfl⟩ := mem_release_snd.1 he
    exact (h.distinct w hw).erase node
  · intro e he
    obtain ⟨w, hw, -, rfl⟩ := mem_release_snd.1 he
    exact erased w hw
  · refine List.Perm.trans ?_ h.all
    calc queue ++ (release node waiting).1 ++ (release node waiting).2.keys ++ node :: done
        _ = queue ++ ((release node waiting).1 ++ (release node waiting).2.keys) ++
            node :: done := by
          simp
        _ ~ queue ++ waiting.keys ++ node :: done :=
          ((release_perm node waiting).append_left queue).append_right _
        _ ~ node :: (queue ++ waiting.keys ++ done) := List.perm_middle
        _ = node :: queue ++ waiting.keys ++ done := by simp

theorem Settling.settle (distinct : nodes.Nodup) (h : Settling needs nodes queue waiting done) :
    Settling needs nodes [] (settle queue waiting done).2 (settle queue waiting done).1 := by
  fun_induction Order.settle queue waiting done with
  | case1 waiting done => exact h
  | case2 waiting done node rest ih => exact ih (h.step distinct)

theorem Settling.perm (h : Settling needs nodes [] [] done) : done ~ nodes := by
  simpa [Entries.keys] using h.all

/-- What waits when the queue is empty needs something else that waits. -/
theorem Settling.exists_waiting (known : ∀ n ∈ nodes, ∀ p ∈ needs n, p ∈ nodes)
    (h : Settling needs nodes [] waiting done) {n : String} (hn : n ∈ waiting.keys) :
    ∃ p ∈ waiting.keys, p ∈ needs n := by
  obtain ⟨w, hw, rfl⟩ := List.mem_map.1 hn
  obtain ⟨p, hp⟩ := List.exists_mem_of_ne_nil _ (h.nonempty w hw)
  obtain ⟨needed, open_⟩ := (h.missing w hw p).1 hp
  have place : ∀ q, q ∈ nodes ↔ q ∈ waiting.keys ∨ q ∈ done := by
    intro q
    rw [← h.all.mem_iff]
    simp
  have hp := known w.1 ((place _).2 (.inl hn)) p needed
  exact ⟨p, ((place p).1 hp).resolve_right open_, needed⟩

end Forecast.Order

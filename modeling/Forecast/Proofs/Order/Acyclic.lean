import Forecast.Proofs.Order.Dependencies
import Forecast.Proofs.Order.Search
import Forecast.Proofs.Order.Settled

/-!
# Orders exist for acyclic models

A linked model can be ordered exactly if no output depends on itself through
others. The order lists every output once, after all that it depends on. If
there is none, the fault shows a cycle: a walk from an output back to itself
along which each output depends on the one before it.
-/

namespace Forecast.Order

open Outcome Relation

variable {source m : Model} {s : Symbols}

/-- Every output with what it depends on. -/
def needsTable (m : Model) (s : Symbols) : Waiting :=
  s.outputOrder.map fun n => (n, needs m s n)

/-- What is done in the end, the last output first, and what still waits. -/
def settled (m : Model) (s : Symbols) : List String × Waiting :=
  settle (Entries.keys ((needsTable m s).filter fun w => w.2.isEmpty))
    ((needsTable m s).filter fun w => !w.2.isEmpty) []

def ofDone (m : Model) (s : Symbols) (done : List String) : Order where
  nodes := s.outputOrder
  order := done.reverse
  dependencies := needsTable m s
  dependents := dependentsOf s.outputOrder (m.definitions.flatMap (needsOf s))
  owners := s.outputs.mapValues fun o => o.definition.name

theorem ofModel_eq (linked : Linked m s) :
    ofModel m s =
      if (settled m s).2.isEmpty then .ok (ofDone m s (settled m s).1)
      else
        .error (.cyclic ⟨findCycle
          (fun n => ((ofDone m s (settled m s).1).dependents.lookup n).getD [])
          (Entries.keys (settled m s).2)⟩) := by
  rw [ofModel, mapM_dependenciesOf linked]
  have flat : (m.definitions.map (needsOf s)).flatten = m.definitions.flatMap (needsOf s) := rfl
  simp only [liftM, monadLift, MonadLift.monadLift, Except.mapError, ok_bind, flat,
    List.partition_eq_filter_filter]
  rfl

theorem settling_start (m : Model) (s : Symbols) :
    Settling (needs m s) s.outputOrder (Entries.keys ((needsTable m s).filter fun w => w.2.isEmpty))
      ((needsTable m s).filter fun w => !w.2.isEmpty) [] := by
  refine ⟨trivial, ?_, ?_, ?_, ?_, ?_⟩
  · intro n hn p hp
    simp only [needsTable, Entries.keys, List.mem_map, List.mem_filter] at hn
    obtain ⟨_, ⟨⟨n, -, rfl⟩, empty⟩, rfl⟩ := hn
    simp only [List.isEmpty_iff] at empty
    simp [empty] at hp
  · intro w hw
    simpa using (List.mem_filter.1 hw).2
  · intro w hw
    obtain ⟨n, -, rfl⟩ := List.mem_map.1 (List.mem_filter.1 hw).1
    exact nodup_needs m s n
  · intro w hw p
    obtain ⟨n, -, rfl⟩ := List.mem_map.1 (List.mem_filter.1 hw).1
    simp
  · have nodes : (needsTable m s).keys = s.outputOrder := by
      simp [needsTable, Entries.keys, Function.comp_def]
    rw [List.append_nil, ← nodes]
    exact keys_filter_append_perm _ _

theorem settling_settled (linked : Linked m s) :
    Settling (needs m s) s.outputOrder [] (settled m s).2 (settled m s).1 :=
  (settling_start m s).settle (nodup_outputOrder linked)

theorem lookup_needsTable (linked : Linked m s) (n : String) :
    ((needsTable m s).lookup n).getD [] = needs m s n := by
  by_cases known : n ∈ s.outputOrder
  · rw [needsTable, lookup_map_pair _ known, Option.getD_some]
  · have absent : (needsTable m s).lookup n = none := by
      rw [Entries.lookup_eq_none]
      simpa [needsTable, Entries.keys, Function.comp_def] using known
    rw [← keys_flatMap_needsOf linked, ← Entries.lookup_eq_none] at known
    rw [absent, needs, known]

theorem mem_dependents (linked : Linked m s) (done : List String) {n p : String} :
    n ∈ ((ofDone m s done).dependents.lookup p).getD [] ↔ p ∈ needs m s n := by
  by_cases known : p ∈ s.outputOrder
  · rw [ofDone, mem_dependentsOf known]
    refine ⟨fun h => h.2, fun h => ⟨?_, h⟩⟩
    by_contra unknown
    rw [← keys_flatMap_needsOf linked, ← Entries.lookup_eq_none] at unknown
    simp [needs, unknown] at h
  · have absent : (ofDone m s done).dependents.lookup p = none := by
      rw [Entries.lookup_eq_none]
      simpa [ofDone, dependentsOf, Entries.keys, Function.comp_def] using known
    rw [absent]
    simp only [Option.getD_none, List.not_mem_nil, false_iff]
    exact fun h => known (mem_needs_outputOrder linked h)

/-- What an order of a linked model says. -/
structure Sorts (o : Order) (m : Model) (s : Symbols) : Prop where
  nodes : o.nodes = s.outputOrder
  once : o.order.Nodup
  complete : o.order.Perm s.outputOrder
  /-- Every output stands behind all that it depends on. -/
  behind : ∀ before output after, o.order = before ++ output :: after →
    ∀ p ∈ (o.dependencies.lookup output).getD [], p ∈ before
  keys_dependencies : o.dependencies.keys = s.outputOrder
  keys_dependents : o.dependents.keys = s.outputOrder
  dependencies : ∀ consumer producer,
    producer ∈ (o.dependencies.lookup consumer).getD [] ↔ DependsOn m s consumer producer
  dependents : ∀ consumer producer,
    consumer ∈ (o.dependents.lookup producer).getD [] ↔
      producer ∈ (o.dependencies.lookup consumer).getD []
  nodup_dependencies : ∀ output, ((o.dependencies.lookup output).getD []).Nodup
  nodup_dependents : ∀ output, ((o.dependents.lookup output).getD []).Nodup

theorem sorts_ofDone (linked : Linked m s) {done : List String}
    (h : Settling (needs m s) s.outputOrder [] [] done) : (ofDone m s done).Sorts m s where
  nodes := rfl
  once := List.nodup_reverse.2 h.grounded.nodup
  complete := (List.reverse_perm _).trans h.perm
  behind before output after cut p hp := by
    rw [ofDone, lookup_needsTable linked] at hp
    have cut' : done = after.reverse ++ output :: before.reverse := by
      have := congrArg List.reverse cut
      simpa [ofDone] using this
    have grounded := h.grounded
    rw [cut'] at grounded
    simpa using grounded.mem_of_append hp
  keys_dependencies := by simp [ofDone, needsTable, Entries.keys, Function.comp_def]
  keys_dependents := by simp [ofDone, dependentsOf, Entries.keys, Function.comp_def]
  dependencies consumer producer := by
    rw [← mem_needs linked, ← lookup_needsTable linked]
    rfl
  dependents consumer producer := by
    rw [mem_dependents linked, ← lookup_needsTable linked]
    rfl
  nodup_dependencies output := by
    rw [ofDone, lookup_needsTable linked]
    exact nodup_needs m s output
  nodup_dependents output := by
    by_cases known : output ∈ s.outputOrder
    · rw [ofDone, dependentsOf, lookup_map_pair _ known, Option.getD_some]
      exact (nodup_outputOrder linked).filter _
    · have absent : (ofDone m s done).dependents.lookup output = none := by
        rw [Entries.lookup_eq_none]
        simpa [ofDone, dependentsOf, Entries.keys, Function.comp_def] using known
      simp [absent]

theorem acyclic_of_settling (linked : Linked m s) {done : List String}
    (h : Settling (needs m s) s.outputOrder [] [] done) (output : String) :
    ¬TransGen (DependsOn m s) output output := by
  intro loop
  obtain ⟨_, -, last⟩ := TransGen.tail'_iff.1 loop
  have known := h.perm.mem_iff.2 (linked.mem_outputOrder_of_dependsOn last)
  exact h.grounded.not_transGen_self known
    (TransGen.mono (fun _ _ step => (mem_needs linked).2 step) _ _ loop)

/-- What is left waiting runs through a cycle, which the search finds. -/
theorem closedWalk_of_settling (linked : Linked m s) {done : List String} {left : Waiting}
    (h : Settling (needs m s) s.outputOrder [] left done) (nonempty : left ≠ []) :
    ClosedWalk (fun x y => DependsOn m s y x)
      (findCycle (fun n => ((ofDone m s done).dependents.lookup n).getD [])
        (Entries.keys left)) := by
  have onward : ∀ n ∈ Entries.keys left, ∃ p ∈ Entries.keys left, p ∈ needs m s n :=
    fun n hn => h.exists_waiting (fun _ _ _ => mem_needs_outputOrder linked) hn
  obtain ⟨a, -, loop⟩ := exists_transGen_self (by simpa [Entries.keys] using nonempty) onward
  have loop' : TransGen (Among (fun n => ((ofDone m s done).dependents.lookup n).getD [])
      (Entries.keys left)) a a := by
    rw [← transGen_swap]
    exact TransGen.mono
      (fun x y step => ⟨step.2.1, step.1, (mem_dependents linked done).2 step.2.2⟩) _ _ loop
  apply (closedWalk_findCycle (findCycle_ne_nil loop')).mono
  intro x y step
  exact (mem_needs linked).1 ((mem_dependents linked done).1 step.2.2)

theorem sorts_of_ofModel (linked : Linked m s) {o : Order} (h : ofModel m s = .ok o) :
    o.Sorts m s := by
  rw [ofModel_eq linked] at h
  split at h
  · rename_i nothing
    have settling := settling_settled linked
    rw [List.isEmpty_iff.1 nothing] at settling
    cases h
    exact sorts_ofDone linked settling
  · cases h

theorem dependencies_of_ofModel (linked : Linked m s) {o : Order} (h : ofModel m s = .ok o)
    (output : String) : (o.dependencies.lookup output).getD [] = needs m s output := by
  rw [ofModel_eq linked] at h
  split at h
  · cases h
    exact lookup_needsTable linked output
  · cases h

theorem settled_of_acyclic (linked : Linked m s)
    (acyclic : ∀ output, ¬TransGen (DependsOn m s) output output) : (settled m s).2 = [] := by
  by_contra waits
  obtain ⟨a, loop⟩ := (closedWalk_of_settling linked (settling_settled linked) waits).transGen
  exact acyclic a (transGen_swap.1 loop)

theorem acyclic_of_ofModel (linked : Linked m s) {o : Order} (h : ofModel m s = .ok o)
    (output : String) :
    ¬TransGen (DependsOn m s) output output := by
  rw [ofModel_eq linked] at h
  split at h
  · rename_i nothing
    have settling := settling_settled linked
    rw [List.isEmpty_iff.1 nothing] at settling
    exact acyclic_of_settling linked settling output
  · cases h

/-- A linked model can be ordered exactly if no output depends on itself; the order sorts its
outputs, and otherwise the fault shows a cycle. -/
theorem exists_order_iff_acyclic (index : Symbols.ofModel source = .ok s)
    (link : source.link s = .ok m) :
    ((∃ o, ofModel m s = .ok o) ↔ ∀ output, ¬TransGen (DependsOn m s) output output) ∧
      (∀ o, ofModel m s = .ok o → o.Sorts m s) ∧
        ∀ fault, ofModel m s = .error fault →
          ∃ walk, fault = .cyclic ⟨walk⟩ ∧ 2 ≤ walk.length ∧
            ClosedWalk (fun x y => DependsOn m s y x) walk := by
  have linked := linked_of_link index link
  have settling := settling_settled linked
  have result := ofModel_eq linked
  by_cases nothing : (settled m s).2 = []
  · rw [nothing] at settling
    rw [if_pos (by simp [nothing])] at result
    refine ⟨⟨fun _ => acyclic_of_settling linked settling, fun _ => ⟨_, result⟩⟩,
      fun _ => sorts_of_ofModel linked, ?_⟩
    intro fault hfault
    rw [result] at hfault
    cases hfault
  · have walk := closedWalk_of_settling linked settling nothing
    rw [if_neg (by simpa using nothing)] at result
    refine ⟨⟨?_, ?_⟩, fun _ => sorts_of_ofModel linked, ?_⟩
    · rintro ⟨o, ho⟩
      rw [result] at ho
      cases ho
    · intro acyclic
      obtain ⟨a, loop⟩ := walk.transGen
      exact absurd (transGen_swap.1 loop) (acyclic a)
    · intro fault hfault
      rw [result] at hfault
      cases hfault
      exact ⟨_, rfl, walk.length, walk⟩

def reader (name : String) (reads outputs : List String) : Definition where
  name := name
  kind := "Sum"
  arguments := reads.map fun r => .reference r "val" (r ++ ".val") none
  outputs := outputs
  inline := []
  sectionName := "S"
  comment := ""
  line := 1

def ring : Model where
  sections := []
  definitions := [reader "A" ["B"] [], reader "B" ["c"] ["b"], reader "C" ["A"] ["c"],
    reader "D" ["b", "c"] ["d", "e"]]
  metadata := []

theorem order_of_ring : ∃ s m, Symbols.ofModel ring = .ok s ∧ ring.link s = .ok m ∧
    ∃ walk, ofModel m s = .error (.cyclic ⟨walk⟩) ∧ 2 ≤ walk.length ∧
      ClosedWalk (fun x y => DependsOn m s y x) walk := by
  obtain ⟨sorted, -, faults⟩ := @exists_order_iff_acyclic ring _ _ rfl rfl
  refine ⟨_, _, rfl, rfl, ?_⟩
  cases result : ofModel _ _ with
  | error fault =>
    obtain ⟨walk, rfl, walks⟩ := faults fault result
    exact ⟨walk, rfl, walks⟩
  | ok o =>
    -- A reads the output of B, that of B reads C's, and that of C reads A
    refine absurd (.tail (b := "c") (.tail (b := "b") (.single ?_) ?_) ?_)
      (sorted.1 ⟨o, result⟩ "A")
    · exact ⟨_, .head _, [[0]], [0], rfl, .head _, 0, .head _, _, rfl, .head _⟩
    · exact ⟨_, .tail _ (.head _), [[0]], [0], rfl, .head _, 0, .head _, _, rfl, .head _⟩
    · exact ⟨_, .tail _ (.tail _ (.head _)), [[0]], [0], rfl, .head _, 0, .head _, _, rfl, .head _⟩

end Forecast.Order

import Forecast.Order
import Forecast.Proofs.Linking

/-!
# Dependencies

`DependsOn` says which outputs an output reads, from the assignment of
arguments to outputs alone. The table of dependencies that an order is computed
from lists exactly these, each name once, and the table of dependents is its
inverse.
-/

namespace Forecast

open Outcome

/-- An output depends on the outputs that the arguments feeding it read. -/
def DependsOn (m : Model) (s : Symbols) (consumer producer : String) : Prop :=
  ∃ d ∈ m.definitions, ∃ positions feed,
    d.feeds (s.outputsOf d.name).length = .ok positions ∧
      (consumer, feed) ∈ (s.outputsOf d.name).zip positions ∧
        ∃ i ∈ feed, ∃ a, d.arguments[i]? = some a ∧ producer ∈ s.producers a

namespace Linked

variable {m : Model} {s : Symbols} {d : Definition} {output : String}

theorem mem_outputOrder_of_producers (linked : Linked m s) {a : Argument}
    (h : output ∈ s.producers a) : output ∈ s.outputOrder := by
  cases a with
  | reference name field raw spreadOf =>
    simp only [Symbols.producers] at h
    split at h
    · rename_i known
      cases List.mem_singleton.1 h
      exact Entries.has_iff.1 known
    · rw [Symbols.outputsOf] at h
      cases found : s.outputsByObject.lookup name with
      | none => simp [found] at h
      | some outputs =>
        rw [found, Option.getD_some] at h
        have mem := Entries.mem_of_lookup found
        rw [linked.outputsByObject, List.mem_map] at mem
        obtain ⟨d, hd, eq⟩ := mem
        cases eq
        exact linked.mem_outputOrder hd h
  | spread object field raw => simp [Symbols.producers] at h
  | number value raw => simp [Symbols.producers] at h
  | word text => simp [Symbols.producers] at h

theorem mem_outputOrder_of_dependsOn (linked : Linked m s) {consumer producer : String}
    (h : DependsOn m s consumer producer) : producer ∈ s.outputOrder := by
  obtain ⟨_, _, _, _, _, _, _, _, _, _, read⟩ := h
  exact linked.mem_outputOrder_of_producers read

end Linked

def Definition.feedTable (d : Definition) : Entries (List Nat) :=
  d.outputNames.zip (Forecast.feeds d.arguments.length d.outputNames.length)

@[simp] theorem Definition.keys_feedTable (d : Definition) : d.feedTable.keys = d.outputNames :=
  List.map_fst_zip (Nat.le_of_eq (length_feeds _ _).symm)

theorem Definition.exists_feed {d : Definition} {output : String} (h : output ∈ d.outputNames) :
    ∃ feed, (output, feed) ∈ d.feedTable := by
  rw [← d.keys_feedTable] at h
  obtain ⟨⟨_, feed⟩, mem, rfl⟩ := List.mem_map.1 h
  exact ⟨feed, mem⟩

theorem Linked.lookup_feedTable {m : Model} {s : Symbols} (linked : Linked m s) {d : Definition}
    (hd : d ∈ m.definitions) {output : String} {feed : List Nat}
    (h : (output, feed) ∈ d.feedTable) :
    d.feedTable.lookup output = some feed := by
  apply Entries.lookup_of_mem _ h
  rw [d.keys_feedTable]
  exact linked.nodup_outputNames hd

namespace Order

variable {m : Model} {s : Symbols}

/-- What the arguments at some positions read, every name once. -/
def needsAt (s : Symbols) (d : Definition) (feed : List Nat) : List String :=
  (feed.flatMap fun i => (d.arguments[i]?.map s.producers).getD []).eraseDups

def needsOf (s : Symbols) (d : Definition) : Entries (List String) :=
  d.feedTable.mapValues (needsAt s d)

/-- What an output of a model depends on. -/
def needs (m : Model) (s : Symbols) (output : String) : List String :=
  ((m.definitions.flatMap (needsOf s)).lookup output).getD []

theorem nodup_eraseDups (l : List String) : l.eraseDups.Nodup := by
  match l with
  | [] => simp
  | a :: l =>
    rw [List.eraseDups_cons, List.nodup_cons, List.mem_eraseDups]
    exact ⟨by simp, nodup_eraseDups _⟩
termination_by l.length
decreasing_by
  have := List.length_filter_le (fun b => !b == a) l
  simp only [List.length_cons]
  omega

theorem mem_needsAt {d : Definition} {feed : List Nat} {p : String} :
    p ∈ needsAt s d feed ↔ ∃ i ∈ feed, ∃ a, d.arguments[i]? = some a ∧ p ∈ s.producers a := by
  simp only [needsAt, List.mem_eraseDups, List.mem_flatMap]
  refine exists_congr fun i => and_congr_right fun _ => ?_
  cases d.arguments[i]? <;> simp

@[simp] theorem keys_needsOf (s : Symbols) (d : Definition) :
    (needsOf s d).keys = d.outputNames := by
  rw [needsOf, Entries.keys_mapValues, d.keys_feedTable]

theorem keys_flatMap_needsOf (linked : Linked m s) :
    Entries.keys (m.definitions.flatMap (needsOf s)) = s.outputOrder := by
  rw [Entries.keys_flatMap, Symbols.outputOrder, linked.outputs]
  simp

theorem dependenciesOf_eq (linked : Linked m s) {d : Definition} (hd : d ∈ m.definitions) :
    dependenciesOf s d = .ok (needsOf s d) := by
  simp only [dependenciesOf, linked.outputsOf hd, linked.routed d hd]
  rfl

theorem mapM_dependenciesOf (linked : Linked m s) :
    m.definitions.mapM (dependenciesOf s) = .ok (m.definitions.map (needsOf s)) := by
  rw [mapM_eq_ok, List.forall₂_map_right_iff]
  exact List.forall₂_same.2 fun d hd => dependenciesOf_eq linked hd

theorem nodup_outputOrder (linked : Linked m s) : s.outputOrder.Nodup := by
  rw [Symbols.outputOrder, linked.outputs]
  exact linked.outputs_nodup

theorem needs_eq (linked : Linked m s) {d : Definition} (hd : d ∈ m.definitions)
    {output : String} {feed : List Nat} (h : (output, feed) ∈ d.feedTable) :
    needs m s output = needsAt s d feed := by
  have found : (m.definitions.flatMap (needsOf s)).lookup output = some (needsAt s d feed) := by
    apply Entries.lookup_of_mem
    · rw [keys_flatMap_needsOf linked]
      exact nodup_outputOrder linked
    · exact List.mem_flatMap.2 ⟨d, hd, List.mem_map.2 ⟨(output, feed), h, rfl⟩⟩
  rw [needs, found, Option.getD_some]

theorem mem_needs (linked : Linked m s) {consumer producer : String} :
    producer ∈ needs m s consumer ↔ DependsOn m s consumer producer := by
  constructor
  · intro h
    by_cases known : consumer ∈ s.outputOrder
    · obtain ⟨d, hd, mem⟩ := linked.exists_owner known
      obtain ⟨feed, hfeed⟩ := Definition.exists_feed mem
      rw [needs_eq linked hd hfeed, mem_needsAt] at h
      refine ⟨d, hd, feeds d.arguments.length d.outputNames.length, feed, ?_, ?_, h⟩
      · rw [linked.outputsOf hd]
        exact linked.routed d hd
      · rwa [linked.outputsOf hd]
    · rw [← keys_flatMap_needsOf linked, ← Entries.lookup_eq_none] at known
      simp [needs, known] at h
  · rintro ⟨d, hd, positions, feed, routed, hfeed, h⟩
    rw [linked.outputsOf hd] at routed hfeed
    cases Definition.feeds_ok routed
    rwa [needs_eq linked hd hfeed, mem_needsAt]

theorem nodup_needs (m : Model) (s : Symbols) (output : String) : (needs m s output).Nodup := by
  rw [needs]
  cases found : (m.definitions.flatMap (needsOf s)).lookup output with
  | none => simp
  | some l =>
    have mem := Entries.mem_of_lookup found
    simp only [needsOf, Entries.mapValues, List.mem_flatMap, List.mem_map, Prod.mk.injEq] at mem
    obtain ⟨d, -, ⟨_, feed⟩, -, -, rfl⟩ := mem
    exact nodup_eraseDups _

theorem mem_needs_outputOrder (linked : Linked m s) {n p : String} (h : p ∈ needs m s n) :
    p ∈ s.outputOrder :=
  linked.mem_outputOrder_of_dependsOn ((mem_needs linked).1 h)

theorem lookup_map_pair {β : Type} (f : String → β) {nodes : List String} {n : String}
    (h : n ∈ nodes) : (nodes.map fun n => (n, f n)).lookup n = some (f n) := by
  induction nodes with
  | nil => simp at h
  | cons a nodes ih =>
    by_cases eq : n = a
    · subst eq
      simp
    · have ne : (n == a) = false := by simpa using eq
      rw [List.map_cons, List.lookup_cons, ne]
      exact ih ((List.mem_cons.1 h).resolve_left eq)

theorem mem_dependentsOf {nodes : List String} {dependencies : Entries (List String)} {n p : String}
    (h : p ∈ nodes) :
    n ∈ ((dependentsOf nodes dependencies).lookup p).getD [] ↔
      n ∈ nodes ∧ p ∈ (dependencies.lookup n).getD [] := by
  rw [dependentsOf, lookup_map_pair _ h]
  simp

end Order
end Forecast

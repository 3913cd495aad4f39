import Forecast.Linking
import Forecast.Proofs.FanIn
import Forecast.Proofs.Symbols
import Mathlib.Data.List.Nodup

/-!
# Linked models

Linking changes nothing of a definition but its arguments, and afterwards every
argument can be resolved: no spread is left, every reference names an object or
an output, and the arguments can be assigned to the outputs. `Linked` collects
what ordering and running a model rely on.
-/

namespace Forecast

open Outcome

variable {source m : Model} {s : Symbols}

/-- An argument that needs no further linking. -/
def Symbols.Resolves (s : Symbols) : Argument → Prop
  | .reference name _ _ _ => s.has name = true
  | .spread .. => False
  | .number .. => True
  | .word _ => True

/-- A linked model, with the names it was linked by. -/
structure Linked (m : Model) (s : Symbols) : Prop where
  objects : s.objects.keys = m.definitions.map (·.name)
  objects_nodup : (m.definitions.map (·.name)).Nodup
  outputs : s.outputs.keys = m.definitions.flatMap (·.outputNames)
  outputs_nodup : (m.definitions.flatMap (·.outputNames)).Nodup
  owner : ∀ d ∈ m.definitions, ∀ output ∈ d.outputNames, s.ownerOf? output = some d.name
  outputsByObject : s.outputsByObject = m.definitions.map fun d => (d.name, d.outputNames)
  shared : ∀ d ∈ m.definitions, ∀ e ∈ m.definitions, e.name ∈ d.outputNames → e.name = d.name
  resolved : ∀ d ∈ m.definitions, ∀ a ∈ d.arguments, s.Resolves a
  routed : ∀ d ∈ m.definitions,
    d.feeds d.outputNames.length = .ok (feeds d.arguments.length d.outputNames.length)

theorem Definition.feeds_ok {d : Definition} {positions : List (List Nat)}
    (h : d.feeds d.outputNames.length = .ok positions) :
    positions = Forecast.feeds d.arguments.length d.outputNames.length :=
  eq_feeds_of_ok (List.length_pos_iff.2 d.outputNames_ne_nil) h

theorem Definition.lookup_of_mem {β : Type} {definitions : List Definition}
    (distinct : (definitions.map (·.name)).Nodup) (f : Definition → β) {d : Definition}
    (hd : d ∈ definitions) :
    (definitions.map fun d => (d.name, f d)).lookup d.name = some (f d) := by
  apply Entries.lookup_of_mem
  · simpa [Entries.keys, Function.comp_def] using distinct
  · exact List.mem_map.2 ⟨d, hd, rfl⟩

namespace Symbols.Lists

theorem mem_outputs (lists : s.Lists source) {d : Definition} (hd : d ∈ source.definitions)
    {output : String} (mem : output ∈ d.outputNames) :
    (output, ⟨d, d.outputs.isEmpty⟩) ∈ s.outputs := by
  rw [lists.outputs]
  exact List.mem_flatMap.2 ⟨d, hd, List.mem_map.2 ⟨output, mem, rfl⟩⟩

theorem keys_outputs (lists : s.Lists source) :
    s.outputs.keys = source.definitions.flatMap (·.outputNames) := by
  rw [lists.outputs, Entries.keys, List.map_flatMap]
  congr 1
  funext d
  exact keys_owned d

theorem keys_objects (lists : s.Lists source) :
    s.objects.keys = source.definitions.map (·.name) := by
  simp [lists.objects, Entries.keys]

theorem outputsOf (lists : s.Lists source) {d : Definition} (hd : d ∈ source.definitions) :
    s.outputsOf d.name = d.outputNames := by
  have distinct := lists.objects_nodup
  rw [lists.keys_objects] at distinct
  rw [Symbols.outputsOf, lists.outputsByObject, Definition.lookup_of_mem distinct _ hd]
  rfl

theorem mem_of_lookup (lists : s.Lists source) {name : String} {d : Definition}
    (h : s.objects.lookup name = some d) : d ∈ source.definitions ∧ d.name = name := by
  have mem := Entries.mem_of_lookup h
  rw [lists.objects, List.mem_map] at mem
  obtain ⟨e, he, eq⟩ := mem
  cases eq
  exact ⟨he, rfl⟩

/-- Expansion leaves only arguments that are resolved. -/
theorem resolves_of_expand (lists : s.Lists source) {d : Definition} {a : Argument}
    {expanded : List Argument} (h : s.expand d a = .ok expanded) :
    ∀ b ∈ expanded, s.Resolves b := by
  cases a with
  | reference name field raw spreadOf =>
    simp only [Symbols.expand] at h
    split at h
    · rename_i known
      cases h
      simpa [Symbols.Resolves] using known
    · cases h
  | spread object field raw =>
    simp only [Symbols.expand] at h
    split at h
    · cases h
    · rename_i target found
      split at h
      · cases h
      · rename_i declares
        cases h
        intro b hb
        obtain ⟨output, mem, rfl⟩ := List.mem_map.1 hb
        have named : output ∈ target.outputNames := by
          simpa [Definition.outputNames, declares] using mem
        have known := lists.mem_outputs (lists.mem_of_lookup found).1 named
        simp only [Symbols.Resolves, Symbols.has, Bool.or_eq_true]
        exact .inr (Entries.has_iff.2 (List.mem_map_of_mem known))
  | number value raw =>
    cases h
    simp [Symbols.Resolves]
  | word text =>
    cases h
    simp [Symbols.Resolves]

end Symbols.Lists

/-- A linked definition differs from its source in its arguments alone. -/
theorem Symbols.linkDefinition_ok {d d' : Definition} (h : s.linkDefinition d = .ok d') :
    ∃ expanded, d.arguments.mapM (s.expand d) = .ok expanded ∧
      d' = { d with arguments := expanded.flatten } ∧
      ∃ positions, d'.feeds (s.outputsOf d.name).length = .ok positions := by
  simp only [Symbols.linkDefinition, bind_eq_ok, pure_eq_ok] at h
  obtain ⟨expanded, hexpanded, positions, hpositions, rfl⟩ := h
  exact ⟨expanded, hexpanded, rfl, positions, hpositions⟩

theorem Symbols.Lists.resolved_of_linkDefinition (lists : s.Lists source) {d d' : Definition}
    (h : s.linkDefinition d = .ok d') : ∀ a ∈ d'.arguments, s.Resolves a := by
  obtain ⟨expanded, hexpanded, rfl, -⟩ := s.linkDefinition_ok h
  intro a ha
  obtain ⟨group, hgroup, ha⟩ := List.mem_flatten.1 ha
  obtain ⟨b, -, hb⟩ := exists_of_mem_mapM hexpanded hgroup
  exact lists.resolves_of_expand hb a ha

theorem Model.definitions_of_link (h : source.link s = .ok m) :
    source.definitions.mapM s.linkDefinition = .ok m.definitions := by
  simp only [Model.link, bind_eq_ok, pure_eq_ok] at h
  obtain ⟨linked, hlinked, rfl⟩ := h
  exact hlinked

/-- What linking keeps of every definition, it keeps of their list. -/
theorem Model.map_definitions_of_link {β : Type} (f : Definition → β)
    (keeps : ∀ d arguments, f { d with arguments } = f d) (h : source.link s = .ok m) :
    m.definitions.map f = source.definitions.map f := by
  apply map_of_mapM f f ?_ (Model.definitions_of_link h)
  intro d d' hd
  obtain ⟨_, _, rfl, _⟩ := s.linkDefinition_ok hd
  exact keeps _ _

theorem linked_of_link (index : Symbols.ofModel source = .ok s) (link : source.link s = .ok m) :
    Linked m s := by
  have lists := Symbols.lists_of_ofModel index
  have names : m.definitions.map (·.name) = source.definitions.map (·.name) :=
    Model.map_definitions_of_link _ (fun _ _ => rfl) link
  have outputNames : m.definitions.map (·.outputNames) = source.definitions.map (·.outputNames) :=
    Model.map_definitions_of_link _ (fun _ _ => rfl) link
  have flat : m.definitions.flatMap (·.outputNames) =
      source.definitions.flatMap (·.outputNames) := by
    rw [List.flatMap_def, List.flatMap_def, outputNames]
  have objects_nodup := lists.keys_objects ▸ lists.objects_nodup
  have outputs_nodup := lists.keys_outputs ▸ lists.outputs_nodup
  -- every linked definition comes from one of the source
  have origin : ∀ d ∈ m.definitions, ∃ d₀ ∈ source.definitions, s.linkDefinition d₀ = .ok d := by
    intro d hd
    exact exists_of_mem_mapM (Model.definitions_of_link link) hd
  refine
    { objects := by rw [lists.keys_objects, names]
      objects_nodup := by rwa [names]
      outputs := by rw [lists.keys_outputs, flat]
      outputs_nodup := by rwa [flat]
      owner := ?_
      outputsByObject := ?_
      shared := ?_
      resolved := ?_
      routed := ?_ }
  · intro d hd output mem
    obtain ⟨d₀, hd₀, linked⟩ := origin d hd
    obtain ⟨_, _, rfl, _⟩ := s.linkDefinition_ok linked
    have found := Entries.lookup_of_mem lists.outputs_nodup (lists.mem_outputs hd₀ mem)
    simp [Symbols.ownerOf?, found]
  · rw [lists.outputsByObject]
    exact (Model.map_definitions_of_link _ (fun _ _ => rfl) link).symm
  · intro d hd e he shared
    obtain ⟨d₀, hd₀, linkedD⟩ := origin d hd
    obtain ⟨e₀, he₀, linkedE⟩ := origin e he
    obtain ⟨_, _, rfl, _⟩ := s.linkDefinition_ok linkedD
    obtain ⟨_, _, rfl, _⟩ := s.linkDefinition_ok linkedE
    exact lists.shared d₀ hd₀ e₀ he₀ shared
  · intro d hd
    obtain ⟨d₀, _, linked⟩ := origin d hd
    exact lists.resolved_of_linkDefinition linked
  · intro d hd
    obtain ⟨d₀, hd₀, linked⟩ := origin d hd
    obtain ⟨_, _, rfl, positions, routed⟩ := s.linkDefinition_ok linked
    rw [lists.outputsOf hd₀] at routed
    rw [← Definition.feeds_ok routed]
    exact routed

namespace Linked

variable (linked : Linked m s) {d : Definition} {output : String}
include linked

theorem outputsOf (hd : d ∈ m.definitions) : s.outputsOf d.name = d.outputNames := by
  rw [Symbols.outputsOf, linked.outputsByObject, Definition.lookup_of_mem linked.objects_nodup _ hd]
  rfl

theorem eq_of_name_eq {e : Definition} (hd : d ∈ m.definitions) (he : e ∈ m.definitions)
    (h : d.name = e.name) : d = e :=
  List.inj_on_of_nodup_map linked.objects_nodup hd he h

theorem find (hd : d ∈ m.definitions) : m.find? d.name = some d := by
  cases h : m.find? d.name with
  | none =>
    have := List.find?_eq_none.1 h d hd
    simp at this
  | some e =>
    have same : e.name = d.name := by simpa using List.find?_some h
    rw [linked.eq_of_name_eq hd (List.mem_of_find?_eq_some h) same.symm]

theorem exists_owner (h : output ∈ s.outputOrder) :
    ∃ d ∈ m.definitions, output ∈ d.outputNames := by
  rw [Symbols.outputOrder, linked.outputs] at h
  exact List.mem_flatMap.1 h

theorem mem_outputOrder (hd : d ∈ m.definitions) (h : output ∈ d.outputNames) :
    output ∈ s.outputOrder := by
  rw [Symbols.outputOrder, linked.outputs]
  exact List.mem_flatMap.2 ⟨d, hd, h⟩

theorem nodup_outputNames (hd : d ∈ m.definitions) : d.outputNames.Nodup :=
  (List.nodup_flatMap.1 linked.outputs_nodup).1 d hd

end Linked
end Forecast

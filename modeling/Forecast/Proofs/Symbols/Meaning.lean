import Forecast.Proofs.Linking

/-!
# What names mean

A model has a table of symbols exactly if its names can be told apart: objects
have distinct names, so have all outputs, and an output bears the name of an
object only if it is an output of that object. The table then lists the outputs
in the order of the text, each with the one object that declares it, and every
name that is known stands for one object.
-/

namespace Forecast.Symbols

variable {m : Model} {s : Symbols}

/-- A name stands for an object as its own name, or as the name of one of its outputs. -/
inductive Denotes (s : Symbols) (name : String) : Definition → Prop
  | object {d : Definition} (h : s.objects.lookup name = some d) : Denotes s name d
  | output {o : OutputOwner} (h : s.outputs.lookup name = some o) : Denotes s name o.definition

/-- What a table of symbols settles about the names of a model. -/
structure Settled (m : Model) (s : Symbols) : Prop where
  outputs : s.outputOrder = m.definitions.flatMap (·.outputNames)
  outputs_nodup : s.outputOrder.Nodup
  objects : s.outputsByObject.keys = m.definitions.map (·.name)
  declared : ∀ output o, s.outputs.lookup output = some o → o.definition ∈ m.definitions
  /-- An output belongs to one object, which declares it and is the only one to list it. -/
  owner : ∀ output o, s.outputs.lookup output = some o → ∀ d ∈ m.definitions,
    (output ∈ d.outputNames ↔ d = o.definition) ∧ (output ∈ s.outputsOf d.name ↔ d = o.definition)
  synthetic : ∀ output o, s.outputs.lookup output = some o →
    (o.synthetic = true ↔ o.definition.outputs = [])
  shared : ∀ name d o, s.objects.lookup name = some d → s.outputs.lookup name = some o →
    o.definition = d
  meaning : ∀ name, s.has name = true → ∃! d, s.Denotes name d

namespace Lists

variable {name output : String} {d e : Definition} {o : OutputOwner}

theorem eq_of_name_eq (lists : s.Lists m) (hd : d ∈ m.definitions) (he : e ∈ m.definitions)
    (same : d.name = e.name) : d = e := by
  have distinct := lists.keys_objects ▸ lists.objects_nodup
  exact List.inj_on_of_nodup_map distinct hd he same

theorem declares_of_lookup (lists : s.Lists m) (found : s.outputs.lookup output = some o) :
    o.definition ∈ m.definitions ∧ output ∈ o.definition.outputNames ∧
      o.synthetic = o.definition.outputs.isEmpty := by
  have mem := Entries.mem_of_lookup found
  rw [lists.outputs, List.mem_flatMap] at mem
  obtain ⟨d, hd, mem⟩ := mem
  obtain ⟨_, here, same⟩ := List.mem_map.1 mem
  cases same
  exact ⟨hd, here, rfl⟩

theorem eq_owner (lists : s.Lists m) (found : s.outputs.lookup output = some o)
    (hd : d ∈ m.definitions) (mem : output ∈ d.outputNames) : d = o.definition := by
  have here := Entries.lookup_of_mem lists.outputs_nodup (lists.mem_outputs hd mem)
  rw [here] at found
  cases found
  rfl

theorem owner_eq_object (lists : s.Lists m) (object : s.objects.lookup name = some d)
    (output : s.outputs.lookup name = some o) : o.definition = d := by
  obtain ⟨hd, rfl⟩ := lists.mem_of_lookup object
  obtain ⟨ho, declares, -⟩ := lists.declares_of_lookup output
  exact lists.eq_of_name_eq ho hd (lists.shared _ ho _ hd declares).symm

theorem denotes_unique (lists : s.Lists m) (hd : s.Denotes name d) (he : s.Denotes name e) :
    d = e := by
  cases hd with
  | object object =>
    cases he with
    | object object' => exact Option.some.inj (object.symm.trans object')
    | output output => exact (lists.owner_eq_object object output).symm
  | output output =>
    cases he with
    | object object => exact lists.owner_eq_object object output
    | output output' => rw [Option.some.inj (output.symm.trans output')]

theorem settled (lists : s.Lists m) : Settled m s where
  outputs := lists.keys_outputs
  outputs_nodup := lists.outputs_nodup
  objects := by simp [lists.outputsByObject, Entries.keys]
  declared := fun _ _ found => (lists.declares_of_lookup found).1
  owner := by
    intro output o found d hd
    have declares : output ∈ d.outputNames ↔ d = o.definition := by
      constructor
      · exact lists.eq_owner found hd
      · rintro rfl
        exact (lists.declares_of_lookup found).2.1
    rw [lists.outputsOf hd]
    exact ⟨declares, declares⟩
  synthetic := by
    intro output o found
    rw [(lists.declares_of_lookup found).2.2, List.isEmpty_iff]
  shared := fun _ _ _ => lists.owner_eq_object
  meaning := by
    intro name known
    obtain ⟨d, hd⟩ : ∃ d, s.Denotes name d := by
      rw [has, Bool.or_eq_true, Entries.has_iff, Entries.has_iff] at known
      rcases known with object | output
      · obtain ⟨d, found⟩ := Entries.exists_lookup object
        exact ⟨d, .object found⟩
      · obtain ⟨o, found⟩ := Entries.exists_lookup output
        exact ⟨o.definition, .output found⟩
    exact ⟨d, hd, fun e he => lists.denotes_unique he hd⟩

end Lists

/-- A model has symbols exactly if its objects have distinct names, its outputs have distinct names,
and no output bears the name of another object; then every name has one meaning. -/
theorem exists_settled_iff_distinct (m : Model) :
    ((∃ s, ofModel m = .ok s) ↔ Distinct m) ∧ ∀ s, ofModel m = .ok s → Settled m s :=
  ⟨exists_ofModel_iff, fun _ h => (lists_of_ofModel h).settled⟩

def ownNames : Model :=
  let object (name : String) (outputs : List String) (line : Nat) : Definition :=
    { name, kind := "Sum", arguments := [], outputs, inline := [], sectionName := "S",
      comment := "", line }
  ⟨[], [object "Plan" ["Plan", "extra"] 2, object "Solo" [] 3], []⟩

theorem settled_ownNames : Distinct ownNames ∧ ∃ s, ofModel ownNames = .ok s ∧
    s.outputOrder = ["Plan", "extra", "Solo"] ∧ Settled ownNames s :=
  ⟨(exists_settled_iff_distinct ownNames).1.1 ⟨_, rfl⟩, _, rfl, rfl,
    (exists_settled_iff_distinct ownNames).2 _ rfl⟩

end Forecast.Symbols

import Forecast.Proofs.Outcome
import Forecast.Symbols

/-!
# The names of a model

A table of symbols that exists lists every object and every output of its model
once, in the order of the definitions, and an output shares its name with an
object only if it belongs to it.
-/

namespace Forecast.Symbols

open Outcome

variable {m : Model} {s : Symbols}

def owned (d : Definition) : Entries OutputOwner :=
  d.outputNames.map fun output => (output, ⟨d, d.outputs.isEmpty⟩)

@[simp] theorem keys_owned (d : Definition) : (owned d).keys = d.outputNames := by
  simp [owned, Entries.keys, Function.comp_def]

/-- A fold whose steps append entries under new keys appends all of them, under distinct keys. -/
theorem foldlM_append {ε α β : Type} {f : Entries β → α → Except ε (Entries β)}
    {entries : α → Entries β}
    (step : ∀ t a t', f t a = .ok t' → t' = t ++ entries a ∧ (t.keys.Nodup → t'.keys.Nodup))
    {l : List α} {t t' : Entries β} (h : l.foldlM f t = .ok t') :
    t' = t ++ l.flatMap entries ∧ (t.keys.Nodup → t'.keys.Nodup) := by
  induction l generalizing t with
  | nil =>
    cases h
    simp
  | cons a l ih =>
    rw [List.foldlM_cons, bind_eq_ok] at h
    obtain ⟨u, hu, h⟩ := h
    obtain ⟨rfl, distinct⟩ := step t a u hu
    obtain ⟨rfl, distinct'⟩ := ih h
    exact ⟨by simp, fun ht => distinct' (distinct ht)⟩

theorem nodup_keys_snoc {β : Type} {t : Entries β} {key : String} (value : β) (new : key ∉ t.keys)
    (h : t.keys.Nodup) : (t ++ [(key, value)] : Entries β).keys.Nodup := by
  rw [← Entries.put_of_notMem value new]
  exact Entries.nodup_keys_put key value h

theorem addObject_ok {objects objects' : Entries Definition} {d : Definition}
    (h : addObject objects d = .ok objects') :
    objects' = objects ++ [(d.name, d)] ∧ (objects.keys.Nodup → objects'.keys.Nodup) := by
  unfold addObject at h
  split at h
  · cases h
  · rename_i new
    cases h
    exact ⟨rfl, nodup_keys_snoc d (Entries.lookup_eq_none.1 new)⟩

theorem addOutput_ok {objects : Entries Definition} {d : Definition} {output : String}
    {outputs outputs' : Entries OutputOwner}
    (h : addOutput objects d outputs output = .ok outputs') :
    outputs' = outputs ++ [(output, ⟨d, d.outputs.isEmpty⟩)] ∧ output ∉ outputs.keys ∧
      ∀ other, objects.lookup output = some other → other.name = d.name := by
  unfold addOutput at h
  split at h
  · cases h
  · rename_i new
    have absent := Entries.lookup_eq_none.1 new
    split at h
    · rename_i other found
      split at h
      · cases h
      · rename_i same
        cases h
        refine ⟨rfl, absent, ?_⟩
        intro other' found'
        rw [found] at found'
        cases found'
        exact not_not.1 same
    · rename_i unknown
      cases h
      exact ⟨rfl, absent, by simp [unknown]⟩

theorem addOutputs_ok {objects : Entries Definition} {d : Definition}
    {outputs outputs' : Entries OutputOwner}
    (h : d.outputNames.foldlM (addOutput objects d) outputs = .ok outputs') :
    outputs' = outputs ++ owned d ∧ (outputs.keys.Nodup → outputs'.keys.Nodup) := by
  have step : ∀ t output t', addOutput objects d t output = .ok t' →
      t' = t ++ [(output, ⟨d, d.outputs.isEmpty⟩)] ∧ (t.keys.Nodup → t'.keys.Nodup) := by
    intro t output t' ht
    obtain ⟨rfl, new, -⟩ := addOutput_ok ht
    exact ⟨rfl, nodup_keys_snoc _ new⟩
  obtain ⟨rfl, distinct⟩ := foldlM_append step h
  exact ⟨by rw [owned, List.map_eq_flatMap], distinct⟩

/-- What the symbols of a model say about it. -/
structure Lists (s : Symbols) (m : Model) : Prop where
  objects : s.objects = m.definitions.map fun d => (d.name, d)
  objects_nodup : s.objects.keys.Nodup
  outputs : s.outputs = m.definitions.flatMap owned
  outputs_nodup : s.outputs.keys.Nodup
  outputsByObject : s.outputsByObject = m.definitions.map fun d => (d.name, d.outputNames)
  /-- An output that bears the name of an object belongs to it. -/
  shared : ∀ d ∈ m.definitions, ∀ e ∈ m.definitions, e.name ∈ d.outputNames → e.name = d.name

theorem lists_of_ofModel (h : ofModel m = .ok s) : s.Lists m := by
  simp only [ofModel, bind_eq_ok, pure_eq_ok] at h
  obtain ⟨objects, hobjects, outputs, houtputs, rfl⟩ := h
  have addObjects : ∀ t d t', addObject t d = .ok t' →
      t' = t ++ [(d.name, d)] ∧ (t.keys.Nodup → t'.keys.Nodup) := fun _ _ _ => addObject_ok
  have addOutputs : ∀ t d t', d.outputNames.foldlM (addOutput objects d) t = .ok t' →
      t' = t ++ owned d ∧ (t.keys.Nodup → t'.keys.Nodup) := fun _ _ _ => addOutputs_ok
  obtain ⟨objects_eq, objects_nodup⟩ := foldlM_append addObjects hobjects
  obtain ⟨outputs_eq, outputs_nodup⟩ := foldlM_append addOutputs houtputs
  rw [List.nil_append, ← List.map_eq_flatMap] at objects_eq
  have objects_nodup := objects_nodup List.nodup_nil
  refine ⟨objects_eq, objects_nodup, outputs_eq, outputs_nodup List.nodup_nil, rfl, ?_⟩
  intro d hd e he shared
  obtain ⟨_, _, hfold⟩ := foldlM_step_ok houtputs hd
  obtain ⟨_, _, hadd⟩ := foldlM_step_ok hfold shared
  have known : objects.lookup e.name = some e := by
    apply Entries.lookup_of_mem objects_nodup
    rw [objects_eq]
    exact List.mem_map.2 ⟨e, he, rfl⟩
  exact (addOutput_ok hadd).2.2 e known

/-! ## When there are symbols -/

theorem foldlM_of_distinct {ε α β : Type} {f : Entries β → α → Except ε (Entries β)}
    {entries : α → Entries β} {l : List α} {t : Entries β}
    (step : ∀ a ∈ l, ∀ t, (Entries.keys (t ++ entries a)).Nodup → f t a = .ok (t ++ entries a))
    (distinct : (Entries.keys (t ++ l.flatMap entries)).Nodup) :
    l.foldlM f t = .ok (t ++ l.flatMap entries) := by
  induction l generalizing t with
  | nil => simp [pure, Except.pure]
  | cons a l ih =>
    rw [List.flatMap_cons, ← List.append_assoc] at distinct ⊢
    have first : (Entries.keys (t ++ entries a)).Nodup := by
      rw [Entries.keys_append] at distinct
      exact (List.nodup_append.1 distinct).1
    rw [List.foldlM_cons, step a (by simp) t first, ok_bind]
    exact ih (fun b hb => step b (by simp [hb])) distinct

theorem lookup_of_nodup_snoc {β : Type} {t : Entries β} {key : String} {value : β}
    (distinct : (Entries.keys (t ++ [(key, value)])).Nodup) : t.lookup key = none := by
  rw [Entries.lookup_eq_none]
  intro mem
  rw [Entries.keys_append, List.nodup_append] at distinct
  exact distinct.2.2 key mem key (by simp [Entries.keys]) rfl

/-- The names of a model have one meaning each. -/
structure Distinct (m : Model) : Prop where
  objects : (m.definitions.map (·.name)).Nodup
  outputs : (m.definitions.flatMap (·.outputNames)).Nodup
  shared : ∀ d ∈ m.definitions, ∀ e ∈ m.definitions, e.name ∈ d.outputNames → e.name = d.name

theorem Distinct.addObjects (distinct : Distinct m) :
    m.definitions.foldlM addObject [] = .ok (m.definitions.map fun d => (d.name, d)) := by
  rw [List.map_eq_flatMap]
  refine foldlM_of_distinct (t := []) ?_ ?_
  · intro d _ t new
    simp only [addObject, lookup_of_nodup_snoc new]
  · rw [List.nil_append, ← List.map_eq_flatMap]
    simpa [Entries.keys, Function.comp_def] using distinct.objects

theorem Distinct.addOutputs (distinct : Distinct m) :
    m.definitions.foldlM (fun outputs d => d.outputNames.foldlM
        (addOutput (m.definitions.map fun d => (d.name, d)) d) outputs) [] =
      .ok (m.definitions.flatMap owned) := by
  refine foldlM_of_distinct (t := []) ?_ ?_
  · intro d hd t new
    have flat : owned d = d.outputNames.flatMap fun output => [(output, ⟨d, d.outputs.isEmpty⟩)] :=
      List.map_eq_flatMap
    rw [flat] at new ⊢
    refine foldlM_of_distinct ?_ new
    intro output mem t new
    simp only [addOutput, lookup_of_nodup_snoc new]
    split
    · rename_i other found
      -- an object of that name is the one that the output belongs to
      obtain ⟨e, he, same⟩ := List.mem_map.1 (Entries.mem_of_lookup found)
      cases same
      rw [if_neg (not_not.2 (distinct.shared d hd other he mem))]
    · rfl
  · rw [List.nil_append, Entries.keys_flatMap]
    simpa using distinct.outputs

theorem exists_ofModel_iff : (∃ s, ofModel m = .ok s) ↔ Distinct m := by
  constructor
  · rintro ⟨s, hs⟩
    have lists := lists_of_ofModel hs
    have objects := lists.objects_nodup
    have outputs := lists.outputs_nodup
    rw [lists.objects] at objects
    rw [lists.outputs, Entries.keys_flatMap] at outputs
    exact ⟨by simpa [Entries.keys, Function.comp_def] using objects, by simpa using outputs,
      lists.shared⟩
  · intro distinct
    simp only [ofModel, distinct.addObjects, distinct.addOutputs, ok_bind]
    exact ⟨_, rfl⟩

end Forecast.Symbols

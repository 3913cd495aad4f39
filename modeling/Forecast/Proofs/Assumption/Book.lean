import Forecast.Assumption.Book
import Forecast.Proofs.Outcome

/-!
# Assumptions that are built

The assumptions of a model are built from single values: the defaults of the
schema, or what is written next to an output. What holds of each of these
assumptions holds of all assumptions of the model, and of all settings.
-/

namespace Forecast

open Outcome

/-- All values of a table have a property. -/
def Entries.All {α : Type} (P : α → Prop) (t : Entries α) : Prop :=
  ∀ e ∈ t, P e.2

structure ObjectAssumptions.All (P : Assumption → Prop) (o : ObjectAssumptions) : Prop where
  object : Entries.All P o.object
  outputs : Entries.All (Entries.All P) o.outputs

def Assumptions.All (P : Assumption → Prop) (a : Assumptions) : Prop :=
  Entries.All (ObjectAssumptions.All P) a

namespace Entries.All

variable {α : Type} {P Q : α → Prop} {t : Entries α} {key : String} {value : α}

theorem imp (all : All P t) (h : ∀ x, P x → Q x) : All Q t :=
  fun e he => h _ (all e he)

theorem of_lookup (all : All P t) (found : t.lookup key = some value) : P value :=
  all _ (mem_of_lookup found)

theorem put (all : All P t) (key : String) (h : P value) : All P (t.put key value) := by
  intro e he
  rcases mem_of_mem_put he with rfl | he
  · exact h
  · exact all e he

theorem ofList {entries : List (String × α)} (each : ∀ e ∈ entries, P e.2) :
    All P (Entries.ofList entries) :=
  fun e he => each e (mem_of_mem_ofList he)

end Entries.All

theorem Assumptions.All.imp {P Q : Assumption → Prop} {a : Assumptions} (all : a.All P)
    (h : ∀ x, P x → Q x) : a.All Q :=
  Entries.All.imp all fun _ o => ⟨o.object.imp h, o.outputs.imp fun _ group => group.imp h⟩

theorem Assumption.of_ok {spec : FieldSpec} {raw : Raw} {months : Nat} {x : Assumption}
    (h : of spec raw months = .ok x) :
    x.spec = spec ∧ x.raw = raw ∧ raw.value spec months = .ok x.value := by
  simp only [of, bind_eq_ok, pure_eq_ok] at h
  obtain ⟨value, hvalue, rfl⟩ := h
  exact ⟨rfl, rfl, mapError_eq_ok.1 hvalue⟩

namespace Assumptions

variable {P : Assumption → Prop} {months : Nat} {a : Assumptions} {m : Model} {s : Symbols}
  {schema : Schema} {t : ObjectType} {d : Definition}

theorem exists_seed (spec : FieldSpec) (written : Entries InlineValue) (output : String) :
    ∃ v, (seed spec written output).2 = Raw.ofSingle v := by
  unfold seed
  split
  · exact ⟨_, rfl⟩
  · split <;> exact ⟨_, rfl⟩
  · exact ⟨_, rfl⟩
  · exact ⟨_, rfl⟩

theorem outcome_seeded (written : Entries InlineValue) (output : String) (spec : FieldSpec) :
    (seeded written output months spec).outcome =
      Assumption.of spec (seed spec written output).2 months >>= fun x => pure (spec.name, x) := by
  simp only [seeded, Logged.outcome_bind, Logged.outcome_forM_note, ok_bind, Logged.outcome_lift,
    Logged.outcome_pure]
  rfl

theorem outcome_ofOutput (t : ObjectType) (d : Definition) (output : String) :
    (ofOutput t d months output).outcome =
      (t.outputFields.mapM fun spec =>
          (seeded ((d.inline.lookup output).getD []) output months spec).outcome) >>=
        fun fields => pure (output, Entries.ofList fields) := by
  simp only [ofOutput, Logged.outcome_bind, Logged.outcome_forM, ok_bind, Logged.outcome_mapM]
  rfl

theorem outcome_ofDefinition (known : schema.lookup d.kind = some t) :
    (ofDefinition schema s months d).outcome =
      (t.objectFields.mapM fun spec =>
          Assumption.ofDefault spec months >>= fun x => pure (spec.name, x)) >>= fun object =>
        (((s.outputsByObject.lookup d.name).getD [d.name]).mapM fun output =>
          (ofOutput t d months output).outcome) >>= fun outputs =>
        pure (d.name, ⟨Entries.ofList object, Entries.ofList outputs⟩) := by
  unfold ofDefinition
  rw [known]
  simp only [Logged.outcome_bind, Logged.outcome_mapM, Logged.outcome_lift]
  rfl

theorem outcome_ofModel (m : Model) (s : Symbols) (schema : Schema) (months : Nat) :
    (ofModel m s schema months).outcome =
      (m.definitions.mapM fun d => (ofDefinition schema s months d).outcome) >>= fun entries =>
        pure (Entries.ofList entries) := by
  simp only [ofModel, Logged.outcome_bind, Logged.outcome_mapM]
  rfl

/-! ## Groups -/

def groups (a : Assumptions) : List (Entries Assumption) :=
  a.flatMap fun o => o.2.object :: o.2.outputs.map (·.2)

theorem forall_groups {Q : Entries Assumption → Prop} :
    (∀ group ∈ a.groups, Q group) ↔ ∀ o ∈ a, Q o.2.object ∧ ∀ g ∈ o.2.outputs, Q g.2 := by
  simp only [groups, List.forall_mem_flatMap, List.forall_mem_cons, List.forall_mem_map]

theorem all_iff : a.All P ↔ ∀ group ∈ a.groups, Entries.All P group := by
  rw [forall_groups]
  exact forall₂_congr fun o _ => ⟨fun h => ⟨h.object, h.outputs⟩, fun h => ⟨h.1, h.2⟩⟩

/-! ## Assumptions of a model that is built -/

/-- The assumptions of a group follow from single values, each under the name of its field. -/
def Made (months : Nat) (group : Entries Assumption) : Prop :=
  ∀ e ∈ group, ∃ spec v, e.1 = spec.name ∧ Assumption.of spec (Raw.ofSingle v) months = .ok e.2

theorem made_of_ofOutput {output : String} {g : String × Entries Assumption}
    (h : (ofOutput t d months output).outcome = .ok g) : Made months g.2 := by
  rw [outcome_ofOutput, bind_eq_ok] at h
  obtain ⟨fields, built, h⟩ := h
  cases h
  intro e he
  obtain ⟨spec, -, hspec⟩ := exists_of_mem_mapM built (Entries.mem_of_mem_ofList he)
  rw [outcome_seeded, bind_eq_ok] at hspec
  obtain ⟨x, hx, same⟩ := hspec
  cases same
  obtain ⟨v, single⟩ := exists_seed spec ((d.inline.lookup output).getD []) output
  exact ⟨spec, v, rfl, single ▸ hx⟩

theorem made_of_ofDefinition {o : String × ObjectAssumptions}
    (h : (ofDefinition schema s months d).outcome = .ok o) :
    Made months o.2.object ∧ ∀ g ∈ o.2.outputs, Made months g.2 := by
  cases known : schema.lookup d.kind with
  | none =>
    unfold ofDefinition at h
    rw [known] at h
    cases h
    exact ⟨by simp [Made], by simp⟩
  | some t =>
    simp only [outcome_ofDefinition known, bind_eq_ok] at h
    obtain ⟨fields, built, outputs, each, h⟩ := h
    cases h
    refine ⟨?_, ?_⟩
    · intro e he
      obtain ⟨spec, -, hspec⟩ := exists_of_mem_mapM built (Entries.mem_of_mem_ofList he)
      obtain ⟨x, hx, same⟩ := bind_eq_ok.1 hspec
      cases same
      exact ⟨spec, spec.default, rfl, hx⟩
    · intro g hg
      obtain ⟨output, -, houtput⟩ := exists_of_mem_mapM each (Entries.mem_of_mem_ofList hg)
      exact made_of_ofOutput houtput

theorem made_of_ofModel (h : (ofModel m s schema months).outcome = .ok a) :
    ∀ group ∈ a.groups, Made months group := by
  rw [outcome_ofModel, bind_eq_ok] at h
  obtain ⟨entries, built, h⟩ := h
  cases h
  rw [forall_groups]
  intro o ho
  obtain ⟨d, -, hd⟩ := exists_of_mem_mapM built (Entries.mem_of_mem_ofList ho)
  exact made_of_ofDefinition hd

/-- What holds of every assumption that follows from a single value holds of all that are built. -/
theorem all_of_ofModel (made : ∀ spec v x, Assumption.of spec (Raw.ofSingle v) months = .ok x → P x)
    (h : (ofModel m s schema months).outcome = .ok a) : a.All P := by
  rw [all_iff]
  intro group hgroup e he
  obtain ⟨spec, v, -, hx⟩ := made_of_ofModel h group hgroup e he
  exact made spec v e.2 hx

/-! ## Models whose assumptions can be built -/

/-- The fields of a type of object can be built for a definition, with a property. -/
structure Buildable (P : Assumption → Prop) (months : Nat) (t : ObjectType) (d : Definition) :
    Prop where
  object : ∀ spec ∈ t.objectFields, ∃ x, Assumption.ofDefault spec months = .ok x ∧ P x
  output : ∀ output, ∀ spec ∈ t.outputFields, ∃ x,
    Assumption.of spec (seed spec ((d.inline.lookup output).getD []) output).2 months = .ok x ∧ P x

theorem exists_ofOutput (buildable : Buildable P months t d) (output : String) :
    ∃ g, (ofOutput t d months output).outcome = .ok g ∧ Entries.All P g.2 := by
  obtain ⟨fields, built, each⟩ : ∃ fields, (t.outputFields.mapM fun spec =>
      (seeded ((d.inline.lookup output).getD []) output months spec).outcome) = .ok fields ∧
        ∀ e ∈ fields, P e.2 := by
    apply exists_mapM
    intro spec hspec
    obtain ⟨x, hx, hP⟩ := buildable.output output spec hspec
    exact ⟨(spec.name, x), by rw [outcome_seeded, hx]; rfl, hP⟩
  exact ⟨_, by rw [outcome_ofOutput, built]; rfl, Entries.All.ofList each⟩

theorem exists_ofDefinition (s : Symbols) (known : schema.lookup d.kind = some t)
    (buildable : Buildable P months t d) :
    ∃ o, (ofDefinition schema s months d).outcome = .ok o ∧ o.2.All P := by
  obtain ⟨object, built, each⟩ : ∃ object, (t.objectFields.mapM fun spec =>
      Assumption.ofDefault spec months >>= fun x => pure (spec.name, x)) = .ok object ∧
        ∀ e ∈ object, P e.2 := by
    apply exists_mapM
    intro spec hspec
    obtain ⟨x, hx, hP⟩ := buildable.object spec hspec
    exact ⟨(spec.name, x), by rw [hx]; rfl, hP⟩
  obtain ⟨outputs, builtOutputs, eachOutput⟩ :=
    exists_mapM (l := (s.outputsByObject.lookup d.name).getD [d.name]) fun output _ =>
      exists_ofOutput buildable output
  refine ⟨(d.name, ⟨Entries.ofList object, Entries.ofList outputs⟩), ?_, ?_⟩
  · rw [outcome_ofDefinition known, built, ok_bind, builtOutputs]
    rfl
  · exact ⟨Entries.All.ofList each, Entries.All.ofList eachOutput⟩

/-- The assumptions of a model can be built if those of the types that are known can. -/
theorem exists_ofModel_of_known (s : Symbols)
    (buildable : ∀ d ∈ m.definitions, ∀ t, schema.lookup d.kind = some t → Buildable P months t d) :
    ∃ a, (ofModel m s schema months).outcome = .ok a ∧ a.All P := by
  obtain ⟨entries, built, each⟩ : ∃ entries,
      (m.definitions.mapM fun d => (ofDefinition schema s months d).outcome) = .ok entries ∧
        ∀ o ∈ entries, o.2.All P := by
    apply exists_mapM
    intro d hd
    cases known : schema.lookup d.kind with
    | some t => exact exists_ofDefinition s known (buildable d hd t known)
    | none =>
      refine ⟨(d.name, ⟨[], []⟩), ?_, by simp [Entries.All], by simp [Entries.All]⟩
      unfold ofDefinition
      rw [known]
      rfl
  exact ⟨_, by rw [outcome_ofModel, built]; rfl, Entries.All.ofList each⟩

theorem exists_ofModel (s : Symbols)
    (buildable : ∀ d ∈ m.definitions, ∃ t, schema.lookup d.kind = some t ∧ Buildable P months t d) :
    ∃ a, (ofModel m s schema months).outcome = .ok a ∧ a.All P := by
  apply exists_ofModel_of_known s
  intro d hd t known
  obtain ⟨t', known', here⟩ := buildable d hd
  rw [known] at known'
  cases known'
  exact here

/-! ## Settings -/

theorem exists_of_find (a : Assumptions) (object output name : String) :
    (a.settings object output).find name = .unset ∨
      ∃ group ∈ a.groups, ∃ x, (name, x) ∈ group ∧
        (a.settings object output).find name = x.setting := by
  unfold settings
  cases known : a.lookup object with
  | none => exact .inl rfl
  | some o =>
    have here := Entries.mem_of_lookup known
    simp only [Settings.find, Entries.lookup_mapValues]
    cases own : ((o.outputs.lookup output).getD []).lookup name with
    | some x =>
      cases found : o.outputs.lookup output with
      | none => simp [found] at own
      | some group =>
        rw [found] at own
        refine .inr ⟨group, ?_, x, Entries.mem_of_lookup own, rfl⟩
        exact List.mem_flatMap.2
          ⟨_, here, List.mem_cons_of_mem _ (List.mem_map.2 ⟨_, Entries.mem_of_lookup found, rfl⟩)⟩
    | none =>
      cases shared : o.object.lookup name with
      | some x =>
        refine .inr ⟨o.object, ?_, x, Entries.mem_of_lookup shared, rfl⟩
        exact List.mem_flatMap.2 ⟨_, here, List.mem_cons_self ..⟩
      | none => exact .inl rfl

theorem All.find_settings (all : a.All P) (object output name : String) :
    (a.settings object output).find name = .unset ∨
      ∃ x, P x ∧ (a.settings object output).find name = x.setting := by
  rcases exists_of_find a object output name with unset | ⟨group, hgroup, x, hx, set⟩
  · exact .inl unset
  · exact .inr ⟨x, all_iff.1 all group hgroup _ hx, set⟩

end Assumptions
end Forecast

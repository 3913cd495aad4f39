import Forecast.Proofs.Assumption.Book
import Forecast.Proofs.Renamed

/-!
# Assumptions of renamed models

Assumptions are kept under the names of objects and outputs, and fields under
their own. So the assumptions of a renamed model are those of the model under
the new names, and give the same settings.
-/

namespace Forecast

open Outcome

variable {f : String → String}

def ObjectAssumptions.renamed (f : String → String) (o : ObjectAssumptions) :
    ObjectAssumptions where
  object := o.object
  outputs := o.outputs.renamed f id

def Assumptions.renamed (f : String → String) (a : Assumptions) : Assumptions :=
  Entries.renamed f (ObjectAssumptions.renamed f) a

namespace Assumptions

variable {schema : Schema} {s : Symbols} {months : Nat} {d : Definition} {t : ObjectType}

theorem settings_renamed (injective : f.Injective) (a : Assumptions) (object output : String) :
    (a.renamed f).settings (f object) (f output) = a.settings object output := by
  simp only [settings, renamed, Entries.lookup_renamed injective]
  cases a.lookup object with
  | none => rfl
  | some o =>
    simp only [Option.map_some, ObjectAssumptions.renamed, Entries.lookup_renamed injective,
      Option.map_id_fun, id_eq]

theorem seed_snd (spec : FieldSpec) (written : Entries InlineValue) (output output' : String) :
    (seed spec written output').2 = (seed spec written output).2 := by
  unfold seed
  split
  · rfl
  · split <;> rfl
  · rfl
  · rfl

theorem ofOutput_renamed (injective : f.Injective) (t : ObjectType) (d : Definition) (months : Nat)
    (output : String) :
    Related (fun g g' => g' = (f g.1, g.2)) (ofOutput t d months output).outcome
      (ofOutput t (d.renamed f) months (f output)).outcome := by
  have written : (d.renamed f).inline.lookup (f output) = d.inline.lookup output := by
    simp only [Definition.renamed, Entries.lookup_renamed injective, Option.map_id_fun, id_eq]
  rw [outcome_ofOutput, outcome_ofOutput, written]
  refine (Related.mapM_self fun spec _ => ?_).bind ?_
  · rw [outcome_seeded, outcome_seeded, seed_snd _ _ output (f output)]
    exact .of_eq rfl
  · rintro fields _ rfl
    exact .ok rfl

theorem ofDefinition_renamed (injective : f.Injective) (schema : Schema) (s : Symbols)
    (months : Nat)
    (d : Definition) :
    Related (fun e e' => e' = (f e.1, e.2.renamed f)) (ofDefinition schema s months d).outcome
      (ofDefinition schema (s.renamed f) months (d.renamed f)).outcome := by
  cases known : schema.lookup d.kind with
  | none =>
    have known' : schema.lookup (d.renamed f).kind = none := known
    unfold ofDefinition
    rw [known, known']
    exact .ok rfl
  | some t =>
    have known' : schema.lookup (d.renamed f).kind = some t := known
    have outputs : (((s.renamed f).outputsByObject.lookup (d.renamed f).name).getD
        [(d.renamed f).name]) = ((s.outputsByObject.lookup d.name).getD [d.name]).map f := by
      simp only [Symbols.renamed, Definition.name_renamed, Entries.lookup_renamed injective]
      cases s.outputsByObject.lookup d.name <;> rfl
    rw [outcome_ofDefinition known, outcome_ofDefinition known', outputs]
    refine .bind_self fun object _ => ?_
    refine (Related.mapM_image f (fun g => (f g.1, g.2)) fun output _ =>
      ofOutput_renamed injective t d months output).bind ?_
    rintro groups _ rfl
    refine .ok ?_
    rw [ObjectAssumptions.renamed, Entries.renamed_ofList injective]
    rfl

theorem ofModel_renamed (injective : f.Injective) (m : Model) (s : Symbols) (schema : Schema)
    (months : Nat) :
    Related (fun a a' => a' = a.renamed f) (ofModel m s schema months).outcome
      (ofModel (m.renamed f) (s.renamed f) schema months).outcome := by
  rw [outcome_ofModel, outcome_ofModel]
  refine (Related.mapM_image (Definition.renamed f) (fun e => (f e.1, e.2.renamed f)) fun d _ =>
    ofDefinition_renamed injective schema s months d).bind ?_
  rintro entries _ rfl
  refine .ok ?_
  rw [renamed, Entries.renamed_ofList injective]
  rfl

end Assumptions
end Forecast

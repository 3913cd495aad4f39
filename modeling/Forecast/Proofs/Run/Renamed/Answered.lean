import Forecast.Proofs.Assumption.Renamed
import Forecast.Proofs.Compute.Renamed
import Forecast.Proofs.Run.Selected

/-!
# Answers for renamed outputs

What the function of a standard type answers is stored in the same channels
whatever the output is called, even if it is called like a channel. Settings and
overrides are found under the new name, so a renamed output stores the same.
-/

namespace Forecast

open Outcome

variable {f : String → String}

/-! ## Channels -/

theorem Cell.toSeries_related (c : Cell) (months : Nat) (output place output' place' : String)
    (channel channel' : Option String) :
    Related Eq (c.toSeries months output place channel)
      (c.toSeries months output' place' channel') := by
  refine .bind_self fun g _ => ?_
  exact .ite Iff.rfl (fun _ => .ok rfl) fun _ => .error _ _

theorem declaredChannels_related (cells : Entries Cell) (declared : List String) (months : Nat)
    (output place output' place' : String) :
    Related Eq (declaredChannels cells declared output place months)
      (declaredChannels cells declared output' place' months) := by
  refine .mapM_self fun e _ => ?_
  refine (e.2.toSeries_related ..).bind ?_
  rintro xs _ rfl
  exact .ok rfl

section

variable {declared names : List String} {output output' : String} {es es' : Entries (Series Float)}

/-- What fits the declared channels is stored in them, whatever the output is called. -/
theorem selectChannels_related {names : Option (List String)} (fits : FitsChannels declared names)
    (nonempty : declared ≠ []) (same : Compute.SameAnswer names output output' es es')
    (object object' kind : String) (months : Nat) :
    Related Eq (selectChannels (es.mapValues .series) declared output object kind months)
      (selectChannels (es'.mapValues .series) declared output' object' kind months) := by
  cases names with
  | some names =>
    obtain ⟨rfl, keys⟩ := same
    simp only [selectChannels, fits.any nonempty keys, if_true]
    exact declaredChannels_related _ _ _ _ _ _ _
  | none =>
    obtain ⟨channel, rfl⟩ := List.length_eq_one_iff.1 fits
    obtain ⟨xs, rfl, rfl⟩ := same
    obtain ⟨name, selected⟩ := exists_selectChannels_own xs channel output object kind months
    obtain ⟨name', selected'⟩ := exists_selectChannels_own xs channel output' object' kind months
    rw [selected, selected']
    refine (Cell.toSeries_related ..).bind ?_
    rintro ys _ rfl
    exact .ok rfl

end

/-! ## Answers -/

def Overrides.renamed (f : String → String) (o : Overrides) : Overrides :=
  Entries.renamed f id o

def Conditions.renamed (f : String → String) (c : Conditions) : Conditions :=
  { c with
    assumptions := c.assumptions.renamed f
    overrides := c.overrides.renamed f }

theorem Overrides.months_renamed (injective : f.Injective) (o : Overrides)
    (output channel : String) :
    (o.renamed f).months (f output) channel = o.months output channel := by
  simp only [months, renamed, Entries.lookup_renamed injective, Option.map_id_fun, id_eq]

theorem Overrides.applyOne_renamed (output output' channel : String) (xs : Series Float)
    (change : Value × Value) :
    (applyOne output' channel xs change).outcome = (applyOne output channel xs change).outcome := by
  simp only [applyOne, Logged.outcome_bind]
  congr 1
  funext month
  split <;> rfl

theorem Overrides.apply_renamed (injective : f.Injective) (o : Overrides) (output channel : String)
    (xs : Series Float) :
    ((o.renamed f).apply (f output) channel xs).outcome = (o.apply output channel xs).outcome := by
  simp only [apply, months_renamed injective, Logged.outcome_foldlM,
    applyOne_renamed output (f output)]

namespace Run

variable {c : Conditions} {d : Definition} {output : String}

theorem taskOf_renamed (injective : f.Injective) (c : Conditions) (d : Definition) (output : String)
    (inputs : List (Series Float)) :
    taskOf (c.renamed f) (d.renamed f) (f output) inputs =
      { taskOf c d output inputs with output := f output } := by
  simp only [taskOf, Conditions.renamed, Definition.name_renamed,
    Assumptions.settings_renamed injective]

/-- Among standard types an output stores the same whatever it is called. -/
theorem answer_renamed (injective : f.Injective) (schema : c.schema = Schema.standard)
    (registry : c.registry = Registry.standard) (d : Definition) (output : String)
    (inputs : List (Series Float)) :
    Related (fun x x' => x'.2 = x.2) (answer c d output inputs)
      (answer (c.renamed f) (d.renamed f) (f output) inputs) := by
  cases known : Schema.standard.lookup d.kind with
  | none =>
    have unknown (output : String) (d' : Definition) (same : d'.kind = d.kind) :
        typeOf c.schema output d' = .error (.noChannels output d'.kind d'.name) := by
      simp only [typeOf, schema, same, known]
    unfold answer
    rw [unknown output d rfl, show (c.renamed f).schema = c.schema from rfl,
      unknown (f output) (d.renamed f) rfl]
    exact .error _ _
  | some t =>
    obtain ⟨nonempty, ⟨_, names⟩, hf, rfl, fits⟩ :=
      Schema.standard_fits _ (Entries.mem_of_lookup known)
    obtain ⟨function, found, alike⟩ := Compute.exists_treatsAlike hf
    rw [answer_standard schema registry known nonempty found,
      answer_standard (c := c.renamed f) (d := d.renamed f) schema registry known nonempty found,
      taskOf_renamed injective]
    refine (alike (taskOf c d output inputs) (f output)).bind ?_
    intro es es' same
    have distinct : (es.mapValues Cell.series).keys.Nodup := by
      rw [Entries.keys_mapValues, same.keys.1]
      exact fits.nodup _
    have distinct' : (es'.mapValues Cell.series).keys.Nodup := by
      rw [Entries.keys_mapValues, same.keys.2]
      exact fits.nodup _
    simp only [Entries.ofList_of_nodup distinct, Entries.ofList_of_nodup distinct']
    refine (selectChannels_related fits nonempty same ..).bind ?_
    rintro channels _ rfl
    exact .ok rfl

end Run

end Forecast

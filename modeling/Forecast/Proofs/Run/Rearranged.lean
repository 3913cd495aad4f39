import Forecast.Proofs.Assumption.Book
import Forecast.Proofs.Rearranged
import Forecast.Proofs.Run.Agreement

/-!
# Runs of rearranged models

The outputs of a rearranged model come in another order of computation, but
each has the same settings, depends on the same outputs and stores the same
from every store. So a model and its rearrangements succeed together, and leave
stores with the same entries.
-/

namespace Forecast

open Outcome

/-- Runs a model that has been read, with assumptions of its own. -/
def Model.run (m : Model) (schema : Schema) (months : Nat) (overrides : Overrides)
    (registry : Registry) : Logged Outcome := do
  let p ← Plan.ofModel m
  p.run schema months none overrides registry

theorem outcome_runSource {text : String} {m : Model} (read : Model.ofSource text = .ok m)
    (schema : Schema) (months : Nat) (overrides : Overrides) (registry : Registry) :
    (runSource text schema months none overrides registry).outcome =
      (m.run schema months overrides registry).outcome := by
  simp only [runSource, Plan.ofSource, Model.run, read, Logged.outcome_bind, Logged.outcome_lift]
  rfl

theorem Model.run_eq_ok {m : Model} {schema : Schema} {months : Nat} {overrides : Overrides}
    {registry : Registry} {o : Outcome} :
    (m.run schema months overrides registry).outcome = .ok o ↔
      Plan.ofModel m = .ok o.plan ∧
        (Assumptions.ofModel o.plan.model o.plan.symbols schema months).outcome =
          .ok o.assumptions ∧
        (Run.execute o.plan ⟨schema, months, o.assumptions, overrides, registry⟩).outcome =
          .ok o.results := by
  simp only [Model.run, Plan.run, Logged.outcome_bind, Logged.outcome_lift, bind_eq_ok,
    Logged.outcome_pure, Except.ok.injEq]
  constructor
  · rintro ⟨p, plan, a, built, r, executed, rfl⟩
    exact ⟨plan, built, executed⟩
  · rintro ⟨plan, built, executed⟩
    exact ⟨_, plan, _, built, _, executed, rfl⟩

/-! ## Assumptions -/

namespace Assumptions

variable {schema : Schema} {s s' : Symbols} {l l' : Model} {months : Nat} {a : Assumptions}

/-- The assumptions of an object do not depend on where it is defined. -/
theorem ofDefinition_eq (alike : s.Alike s') (d : Definition) :
    ofDefinition schema s' months d = ofDefinition schema s months d := by
  simp only [ofDefinition, alike.outputsByObject]

theorem name_of_ofDefinition {d : Definition} {e : String × ObjectAssumptions}
    (h : (ofDefinition schema s months d).outcome = .ok e) : e.1 = d.name := by
  cases known : schema.lookup d.kind with
  | none =>
    unfold ofDefinition at h
    rw [known] at h
    cases h
    rfl
  | some t =>
    simp only [outcome_ofDefinition known, bind_eq_ok] at h
    obtain ⟨_, -, _, -, h⟩ := h
    cases h
    rfl

/-- A rearranged model has the same assumptions, in another order. -/
theorem exists_ofModel_of_rearranges (perm : l.Rearranges l') (alike : s.Alike s')
    (distinct : (l.definitions.map (·.name)).Nodup)
    (h : (ofModel l s schema months).outcome = .ok a) :
    ∃ a', (ofModel l' s' schema months).outcome = .ok a' ∧
      ∀ object, a'.lookup object = a.lookup object := by
  simp only [outcome_ofModel, bind_eq_ok, pure_eq_ok] at h ⊢
  obtain ⟨entries, built, rfl⟩ := h
  have unplaced : ∀ m : Model,
      (m.definitions.mapM fun d => (ofDefinition schema s months d).outcome) =
      (m.definitions.map (·.unplaced)).mapM fun d => (ofDefinition schema s months d).outcome := by
    intro m
    rw [List.mapM_map]
    rfl
  rw [unplaced] at built
  obtain ⟨entries', built', same⟩ := exists_mapM_of_perm perm built
  rw [← unplaced] at built built'
  have names : Entries.keys entries = l.definitions.map (·.name) :=
    map_of_mapM Definition.name Prod.fst (fun _ _ => name_of_ofDefinition) built
  rw [← names] at distinct
  have distinct' : (Entries.keys entries').Nodup := (same.map Prod.fst).nodup_iff.2 distinct
  refine ⟨Entries.ofList entries', ⟨entries', ?_, rfl⟩, ?_⟩
  · simpa only [ofDefinition_eq alike] using built'
  · rw [Entries.ofList_of_nodup distinct, Entries.ofList_of_nodup distinct']
    exact Entries.lookup_eq_of_perm same distinct

end Assumptions

/-! ## Runs -/

namespace Run

variable {p p' : Plan} {c : Conditions} {a' : Assumptions}

theorem inputs_eq {s s' : Symbols} (alike : s.Alike s') (store : Store) (d : Definition)
    (output : String) (months : Nat) (positions : List Int) :
    store.inputs s' d output months positions = store.inputs s d output months positions := by
  have input : ∀ i a, store.input s' d output months i a = store.input s d output months i a := by
    intro i a
    cases a <;> simp only [Store.input, alike.outputs, alike.objects_has, alike.outputsOf]
  simp only [Store.inputs, input]

theorem equivalent_of_alike (sound : p.Sound) (sound' : p'.Sound) (alike : p.Alike p')
    (same : ∀ object, a'.lookup object = c.assumptions.lookup object) :
    Equivalent p c p' { c with assumptions := a' } where
  months := rfl
  outputs output := by
    rw [sound.mem_order, sound'.mem_order, Symbols.outputOrder, Symbols.outputOrder,
      ← Entries.has_iff, ← Entries.has_iff, alike.symbols.outputs]
  dependencies := alike.dependencies
  objects object := by
    rw [sound.linked.outputsByObject, sound'.linked.outputsByObject]
    exact (alike.model.map (fun d => (d.name, d.outputNames)) fun _ => rfl).mem_iff
  stores output known store := by
    obtain ⟨d, hd, feed, hfeed⟩ := sound.exists_feed known
    obtain ⟨d', hd', moved⟩ := alike.model.exists_alike hd
    have hfeed' : (output, feed) ∈ d'.feedTable := moved.feedTable ▸ hfeed
    have gathered : gather p'.symbols d' c.months store output =
        gather p.symbols d c.months store output := by
      rw [gather_eq sound.linked hd hfeed, gather_eq sound'.linked hd' hfeed',
        inputs_eq alike.symbols]
      exact moved.keeps (fun d => store.inputs p.symbols d output c.months _) fun _ => rfl
    have answered : ∀ inputs, answer { c with assumptions := a' } d' output inputs =
        answer c d output inputs := by
      intro inputs
      simp only [answer, Assumptions.settings, same]
      exact moved.keeps (fun d => answer c d output inputs) fun _ => rfl
    simp only [stores_eq sound hd hfeed, stores_eq sound' hd' hfeed', gathered, answered]
    rfl

end Run

/-- Outcomes that differ in nothing but the order of definitions and entries. -/
structure Outcome.Alike (o o' : Outcome) : Prop where
  dependencies : ∀ output, o'.plan.dependenciesOf output = o.plan.dependenciesOf output
  keys : o'.results.store.keys.Perm o.results.store.keys
  series : ∀ key, o'.results.store.lookup key = o.results.store.lookup key

namespace Model

variable {m m' : Model} {schema : Schema} {months : Nat} {overrides : Overrides}
  {registry : Registry}
  {o : Outcome}

/-- If a model runs, so does every rearrangement, and alike. -/
theorem Rearranges.exists_run (perm : m.Rearranges m') (named : m.Named)
    (run : (m.run schema months overrides registry).outcome = .ok o) :
    ∃ o', (m'.run schema months overrides registry).outcome = .ok o' ∧ o.Alike o' := by
  obtain ⟨plan, built, executed⟩ := Model.run_eq_ok.1 run
  obtain ⟨p', plan', alike⟩ := perm.exists_plan plan
  have sound := Plan.sound_of_ofModel named plan
  have sound' := Plan.sound_of_ofModel (perm.named named) plan'
  obtain ⟨a', built', same⟩ := Assumptions.exists_ofModel_of_rearranges alike.model alike.symbols
    sound.linked.objects_nodup built
  have equivalent := Run.equivalent_of_alike sound sound' alike same
    (c := ⟨schema, months, o.assumptions, overrides, registry⟩)
  obtain ⟨r', executed'⟩ := equivalent.exists_execute sound sound' executed
  have series := equivalent.lookup_eq sound sound' executed executed'
  refine ⟨⟨p', a', r'⟩, Model.run_eq_ok.2 ⟨plan', built', executed'⟩, alike.dependencies,
    ?_, series⟩
  obtain ⟨_, -, -, rolled, -⟩ := Run.execute_ok sound executed
  obtain ⟨_, -, -, rolled', -⟩ := Run.execute_ok sound' executed'
  refine (List.perm_ext_iff_of_nodup rolled'.distinct rolled.distinct).2 fun key => ?_
  rw [← Entries.has_iff, ← Entries.has_iff, Entries.has, Entries.has, series]

/-- The order of definitions does not matter: a model and a rearrangement of it succeed together,
and then depend on the same and store the same. -/
theorem run_of_rearranges (named : m.Named) (perm : m.Rearranges m') (schema : Schema)
    (months : Nat)
    (overrides : Overrides) (registry : Registry) :
    ((∃ o, (m.run schema months overrides registry).outcome = .ok o) ↔
      ∃ o', (m'.run schema months overrides registry).outcome = .ok o') ∧
    ∀ o o', (m.run schema months overrides registry).outcome = .ok o →
      (m'.run schema months overrides registry).outcome = .ok o' → o.Alike o' := by
  refine ⟨⟨?_, ?_⟩, ?_⟩
  · rintro ⟨o, run⟩
    obtain ⟨o', run', -⟩ := perm.exists_run named run
    exact ⟨o', run'⟩
  · rintro ⟨o', run'⟩
    obtain ⟨o, run, -⟩ := perm.symm.exists_run (perm.named named) run'
    exact ⟨o, run⟩
  · intro o o' run run'
    obtain ⟨o'', run'', alike⟩ := perm.exists_run named run
    rw [run'] at run''
    cases run''
    exact alike

def readerFirst : Model where
  sections := []
  definitions := [Order.reader "A" ["B"] [], Order.reader "B" [] ["b"]]
  metadata := []

def readerLast : Model where
  sections := []
  definitions := [{ Order.reader "B" [] ["b"] with sectionName := "T", line := 2 },
    { Order.reader "A" ["B"] [] with line := 5 }]
  metadata := []

theorem alike_readerLast : ∃ o o',
    (readerFirst.run Run.sums.schema 2 [] .standard).outcome = .ok o ∧
    (readerLast.run Run.sums.schema 2 [] .standard).outcome = .ok o' ∧
    o.results.store.keys = ["b.val", "A.val", "B.val"] ∧ o.Alike o' := by
  have named : readerFirst.Named := by
    unfold Model.Named readerFirst
    decide +kernel
  have perm : readerFirst.Rearranges readerLast := List.Perm.swap _ _ _
  have keys : ((readerFirst.run Run.sums.schema 2 [] .standard).outcome.toOption.map fun o =>
      o.results.store.keys) = some ["b.val", "A.val", "B.val"] := by decide +kernel
  obtain ⟨both, alike⟩ := run_of_rearranges named perm Run.sums.schema 2 [] .standard
  obtain ⟨o, run, same⟩ := exists_of_toOption_map keys
  obtain ⟨o', run'⟩ := both.1 ⟨o, run⟩
  exact ⟨o, o', run, run', same, alike o o' run run'⟩

end Model
end Forecast

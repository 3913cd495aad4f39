import Forecast.Proofs.Run.Renamed.Answered
import Forecast.Proofs.Run.Renamed.Mentioned
import Forecast.Proofs.Run.Renamed.Stored
import Forecast.Proofs.Run.Standard

/-!
# Runs of renamed models

Among standard types names carry no meaning. Each output of a renamed model
reads the same inputs from the renamed store and stores the same channels, and
the totals of an object are the same. So a renamed model runs if the model does,
and leaves the same series under the keys of the new names. Only the names that
occur have to be kept apart: a renaming that does so is part of one that keeps
all names apart.
-/

namespace Forecast

open Outcome

variable {f : String → String} {names : List String}

/-! ## Steps -/

/-- Results of a renamed model: the store under the keys of the new names, and the same channels. -/
structure Results.Renamed (f : String → String) (names : List String) (r r' : Results) : Prop where
  store : Store.Renamed f names r.store r'.store
  channels : r'.channels = r.channels.renamed f id

namespace Run

variable {m : Model} {s : Symbols} {c : Conditions} {p : Plan} {output : String} {r r' : Results}
  {store store' : Store}

theorem feedOf_renamed (injective : f.Injective) (s : Symbols) (d : Definition) (output : String) :
    Related Eq (feedOf s d output) (feedOf (s.renamed f) (d.renamed f) (f output)) := by
  simp only [feedOf, Definition.name_renamed, s.outputsOf_renamed injective, List.length_map]
  refine (d.feeds_renamed _).bind ?_
  rintro positions _ rfl
  have fed : ((s.outputsOf d.name).map f).zip positions =
      Entries.renamed f id ((s.outputsOf d.name).zip positions) := List.zip_map_left ..
  rw [fed, Entries.lookup_renamed injective, Option.map_id_fun]
  exact .ok rfl

theorem gather_renamed (apart : StayApart f names) (among : s.Among names)
    (renamed : Store.Renamed f names store store') (d : Definition) (months : Nat)
    (output : String) :
    Related Eq (gather s d months store output)
      (gather (s.renamed f) (d.renamed f) months store' (f output)) := by
  refine (feedOf_renamed apart.injective s d output).mapError.bind ?_
  rintro feed _ rfl
  exact renamed.inputs apart among ..

theorem compute_renamed (apart : StayApart f names) (among : s.Among names)
    (schema : c.schema = Schema.standard) (registry : c.registry = Registry.standard)
    (renamed : Store.Renamed f names store store') (m : Model) (output : String) :
    Related (fun x x' => x'.2 = x.2) (compute m s c store output)
      (compute (m.renamed f) (s.renamed f) (c.renamed f) store' (f output)) := by
  have owner : ((s.renamed f).ownerOf? (f output)).getD (f output) =
      f ((s.ownerOf? output).getD output) := by
    rw [s.ownerOf?_renamed apart.injective]
    cases s.ownerOf? output <;> rfl
  simp only [compute, owner, m.find?_renamed apart.injective]
  cases m.find? ((s.ownerOf? output).getD output) with
  | none => exact .error _ _
  | some d =>
    refine (gather_renamed apart among renamed d c.months output).bind ?_
    rintro inputs _ rfl
    exact answer_renamed apart.injective schema registry d output inputs

theorem overridden_renamed (injective : f.Injective) (c : Conditions) (output : String)
    (channels : Entries (Series Float)) :
    overridden (c.renamed f) (f output) channels = overridden c output channels := by
  simp only [overridden, Conditions.renamed, Overrides.apply_renamed injective]

/-- A step of the renamed model goes from the renamed results to the renamed next ones. -/
theorem step_renamed (apart : StayApart f names) (among : s.Among names)
    (schema : c.schema = Schema.standard) (registry : c.registry = Registry.standard)
    (renamed : r.Renamed f names r') (known : output ∈ names) (m : Model) :
    Related (Results.Renamed f names) (step m s c r output).outcome
      (step (m.renamed f) (s.renamed f) (c.renamed f) r' (f output)).outcome := by
  rw [outcome_step, outcome_step]
  simp only [stores, bind_assoc, pure_bind, overridden_renamed apart.injective]
  refine (compute_renamed apart among schema registry renamed.store m output).bind ?_
  rintro ⟨answered, channels⟩ ⟨answered', _⟩ rfl
  refine .bind_self fun stored _ => .ok ?_
  exact
    { store := renamed.store.foldl_put apart known stored
      channels := by
        simp only [record, renamed.channels, Entries.renamed_put apart.injective, id_eq] }

/-! ## Totals -/

theorem totals_renamed (apart : StayApart f names) (renamed : r.Renamed f names r') (months : Nat)
    {outputs : List String} (known : ∀ output ∈ outputs, output ∈ names) :
    Related Eq (totals r months outputs) (totals r' months (outputs.map f)) := by
  refine .foldlM f rfl ?_
  rintro output mem sums _ rfl
  rw [renamed.channels, Entries.lookup_renamed apart.injective, Option.map_id_fun, id_eq]
  have same : addTotal r'.store months (f output) = addTotal r.store months output := by
    funext totals channel
    simp only [addTotal, renamed.store.lookup apart (known output mem)]
  rw [same]
  exact .of_eq rfl

theorem rollUp_renamed (apart : StayApart f names) (renamed : r.Renamed f names r') (months : Nat)
    {object : String × List String} (known : object.1 ∈ names)
    (outputs : ∀ output ∈ object.2, output ∈ names) (stored : Store.Renamed f names store store') :
    Related (Store.Renamed f names) (rollUp r months store object)
      (rollUp r' months store' (f object.1, object.2.map f)) := by
  have filled : ({ r with store } : Results).Renamed f names { r' with store := store' } :=
    ⟨stored, renamed.channels⟩
  refine (totals_renamed apart filled months outputs).bind ?_
  rintro sums _ rfl
  exact .ok (stored.addMissing apart known sums)

theorem execute_renamed (apart : StayApart f names) (among : p.symbols.Among names)
    (ordered : ∀ output ∈ p.order.order, output ∈ names) (schema : c.schema = Schema.standard)
    (registry : c.registry = Registry.standard) :
    Related (fun r r' => Store.Renamed f names r.store r'.store) (execute p c).outcome
      (execute (p.renamed f) (c.renamed f)).outcome := by
  simp only [execute, Logged.outcome_bind, Logged.outcome_foldlM, Logged.outcome_lift,
    Logged.outcome_pure]
  have start : start.Renamed f names start := ⟨.nil, rfl⟩
  refine (Related.foldlM f start fun output mem r r' renamed =>
    step_renamed apart among schema registry renamed (ordered output mem) p.model).bind ?_
  intro r r' renamed
  refine ((Related.foldlM (fun object : String × List String => (f object.1, object.2.map f))
    renamed.store fun object mem store store' stored => ?_).mapError).bind ?_
  · obtain ⟨known, outputs⟩ := among.objects object mem
    exact rollUp_renamed apart renamed c.months known outputs stored
  · exact fun store store' stored => .ok stored

end Run

/-! ## Declared names -/

def Model.declared (m : Model) : List String :=
  m.definitions.flatMap fun d => d.name :: d.outputNames

theorem Model.declared_of_link {m l : Model} {s : Symbols} (link : m.link s = .ok l) :
    l.declared = m.declared := by
  have same := map_definitions_of_link (fun d => d.name :: d.outputNames) (fun _ _ => rfl) link
  simp only [declared, List.flatMap, same]

theorem Linked.among {m : Model} {s : Symbols} (linked : Linked m s) : s.Among m.declared where
  outputs output known := by
    obtain ⟨d, hd, mem⟩ := linked.exists_owner known
    exact List.mem_flatMap.2 ⟨d, hd, List.mem_cons_of_mem _ mem⟩
  objects object mem := by
    rw [linked.outputsByObject] at mem
    obtain ⟨d, hd, rfl⟩ := List.mem_map.1 mem
    refine ⟨List.mem_flatMap.2 ⟨d, hd, List.mem_cons_self⟩, fun output mem => ?_⟩
    exact List.mem_flatMap.2 ⟨d, hd, List.mem_cons_of_mem _ mem⟩

/-- Among standard types a plan and the renamed plan succeed together, and then leave the same
series, under keys of the old and of the new names. -/
theorem Plan.run_renamed {m : Model} {p : Plan} (plan : Plan.ofModel m = .ok p)
    (apart : StayApart f m.declared) (months : Nat) (given : Option Assumptions)
    (overrides : Overrides) :
    Related (fun o o' => Store.Renamed f m.declared o.results.store o'.results.store)
      (p.run Schema.standard months given overrides .standard).outcome
      ((p.renamed f).run Schema.standard months (given.map (·.renamed f)) (overrides.renamed f)
        .standard).outcome := by
  obtain ⟨link, linked, sorts⟩ := Plan.ofModel_ok plan
  have among : p.symbols.Among m.declared := Model.declared_of_link link ▸ linked.among
  have ordered : ∀ output ∈ p.order.order, output ∈ m.declared := fun output mem =>
    among.outputs output (sorts.complete.mem_iff.1 mem)
  have executed (a : Assumptions) :
      Related (fun r r' => Store.Renamed f m.declared r.store r'.store)
        (Run.execute p ⟨Schema.standard, months, a, overrides, .standard⟩).outcome
        (Run.execute (p.renamed f)
          ⟨Schema.standard, months, a.renamed f, overrides.renamed f, .standard⟩).outcome :=
    Run.execute_renamed (c := ⟨Schema.standard, months, a, overrides, .standard⟩) apart
      among ordered
      rfl rfl
  cases given with
  | some a =>
    simp only [Plan.run, Option.map_some, pure_bind, Logged.outcome_bind, Logged.outcome_pure]
    exact (executed a).bind fun r r' stored => .ok stored
  | none =>
    simp only [Plan.run, Option.map_none, Logged.outcome_bind, Logged.outcome_pure]
    refine (Assumptions.ofModel_renamed apart.injective p.model p.symbols Schema.standard
      months).bind ?_
    rintro a _ rfl
    exact (executed a).bind fun r r' stored => .ok stored

namespace Model

theorem mem_mentioned {m : Model} {name : String} (declared : name ∈ m.declared) :
    name ∈ m.mentioned := by
  obtain ⟨d, hd, mem⟩ := List.mem_flatMap.1 declared
  refine List.mem_append_left _ (List.mem_flatMap.2 ⟨d, hd, ?_⟩)
  have own : name = d.name ∨ name ∈ d.outputs := by
    rcases List.mem_cons.1 mem with own | mem
    · exact .inl own
    · unfold Definition.outputNames at mem
      split at mem
      · exact .inl (List.mem_singleton.1 mem)
      · exact .inr mem
  exact List.mem_append_left _ (List.mem_append_left _ (List.mem_cons.2 own))

/-- Among standard types names carry no meaning. Suppose that a renaming keeps apart all names that
occur in a model that has a plan, in the assumptions and in the overrides, and that no point occurs
in the declared names, which is so in every text, nor in the new ones. Then the renamed model has a
plan, too, and runs if and only if the model does; and the stores hold the same series in the same
order, under keys that differ in the names of their owners alone. -/
theorem run_iff_renamed {m : Model} {p : Plan} (plan : Plan.ofModel m = .ok p) (months : Nat)
    (given : Option Assumptions) (overrides : Overrides)
    (apart : Set.InjOn f
      {name | name ∈ m.mentioned ++ given.elim [] Assumptions.mentioned ++ overrides.keys})
    (pointFree : ∀ name ∈ m.declared, PointFree name ∧ PointFree (f name)) :
    ∃ p', Plan.ofModel (m.renamed f) = .ok p' ∧
      ((∃ o, (p.run Schema.standard months given overrides .standard).outcome = .ok o) ↔
        ∃ o', (p'.run Schema.standard months (given.map (·.renamed f)) (overrides.renamed f)
          .standard).outcome = .ok o') ∧
      ∀ o o', (p.run Schema.standard months given overrides .standard).outcome = .ok o →
        (p'.run Schema.standard months (given.map (·.renamed f)) (overrides.renamed f)
          .standard).outcome = .ok o' →
        Store.Renamed f m.declared o.results.store o'.results.store := by
  obtain ⟨g, injective, same⟩ := exists_injective_extension apart
  have mentioned : ∀ name ∈ m.mentioned, f name = g name := fun name mem =>
    same name (by simp [mem])
  have declared : ∀ name ∈ m.declared, f name = g name := fun name mem =>
    mentioned name (mem_mentioned mem)
  have model : m.renamed f = m.renamed g := renamed_congr mentioned
  have book : given.map (·.renamed f) = given.map (·.renamed g) :=
    Option.map_congr fun a ha => Assumptions.renamed_congr fun name mem =>
      same name (by simp [ha, mem])
  have changes : overrides.renamed f = overrides.renamed g :=
    Entries.renamed_congr fun name mem => same name (by simp [mem])
  have stay : StayApart g m.declared :=
    { injective := injective
      before := fun name mem => (pointFree name mem).1
      after := fun name mem => declared name mem ▸ (pointFree name mem).2 }
  have related := Plan.run_renamed plan stay months given overrides
  rw [model, book, changes]
  refine ⟨p.renamed g, (Plan.ofModel_renamed injective m).eq_ok_iff.2 ⟨p, plan, rfl⟩,
    related.exists_iff, fun o o' run run' => ?_⟩
  have stored : Store.Renamed g m.declared o.results.store o'.results.store :=
    related.of_ok run run'
  exact stored.congr fun name mem => (declared name mem).symm

def subscriptions : Model where
  sections := []
  definitions := [{ Order.reader "Users" [] ["u"] with kind := "Quant" },
    { Order.reader "Shop" ["u"] ["s", "t"] with
      kind := "SubMth", inline := [("t", [("churn", .number 0.5)])] },
    { Order.reader "Total" [] [] with arguments := [.reference "Shop" "rev" "Shop.rev" none] }]
  metadata := []

def likeChannels (name : String) : String :=
  (([("u", "val"), ("s", "act"), ("t", "rev"), ("Users", "cost")] : Entries String).lookup
    name).getD name

theorem subscriptions_likeChannels : ∃ p p' o o', Plan.ofModel subscriptions = .ok p ∧
    Plan.ofModel (subscriptions.renamed likeChannels) = .ok p' ∧
    (p.run Schema.standard 12 none [] .standard).outcome = .ok o ∧
    (p'.run Schema.standard 12 none [] .standard).outcome = .ok o' ∧
    Store.Renamed likeChannels subscriptions.declared o.results.store o'.results.store := by
  have named : subscriptions.Named := by
    unfold Named subscriptions
    decide +kernel
  have conditions : (Plan.ofModel subscriptions).toOption.map (fun p =>
      decide (p.KnowsTypes ∧ (∀ d ∈ p.model.definitions, d.InlineFinite) ∧
        p.AsksForDeclared Schema.standard)) = some true := by decide +kernel
  obtain ⟨p, plan, holds⟩ := exists_of_toOption_map conditions
  obtain ⟨types, finite, asks⟩ := of_decide_eq_true holds
  obtain ⟨o, run⟩ := Run.exists_run (Plan.sound_of_ofModel named plan) types finite asks 12
  have each : ∀ name ∈ subscriptions.mentioned, ∀ other ∈ subscriptions.mentioned,
      likeChannels name = likeChannels other → name = other := by decide +kernel
  have apart : Set.InjOn likeChannels {name | name ∈ subscriptions.mentioned ++ [] ++ []} := by
    rw [List.append_nil, List.append_nil]
    exact fun name mem other mem' => each name mem other mem'
  obtain ⟨p', plan', both, stored⟩ := run_iff_renamed plan 12 none [] apart (by decide +kernel)
  obtain ⟨o', run'⟩ := both.1 ⟨o, run⟩
  exact ⟨p, p', o, o', plan, plan', run, run', stored o o' run run'⟩

end Model
end Forecast

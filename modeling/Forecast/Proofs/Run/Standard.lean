import Forecast.Proofs.Assumption.Standard
import Forecast.Proofs.Run.Equations
import Forecast.Proofs.Run.Missing
import Forecast.Proofs.Run.References
import Forecast.Proofs.Run.Selected

/-!
# Runs of standard types

Among standard types a run can only fail for want of a channel. So it succeeds
if every reference asks for a declared one: when the turn of an output comes,
the outputs before it have stored all channels of their types, its inputs can
be gathered, and it stores all channels of its own type. The totals can always
be summed up, since all series have the months of the horizon.
-/

namespace Forecast

open Outcome

/-- Conditions with the standard types and functions, finite settings and no overrides. -/
structure Conditions.Standard (c : Conditions) : Prop where
  schema : c.schema = Schema.standard
  registry : c.registry = Registry.standard
  overrides : c.overrides = []
  finite : ∀ object output, (c.assumptions.settings object output).Finite

/-- All objects of a plan are of standard types. -/
def Plan.KnowsTypes (p : Plan) : Prop :=
  ∀ d ∈ p.model.definitions, d.kind ∈ Schema.standard.keys

instance (p : Plan) : Decidable p.KnowsTypes :=
  inferInstanceAs (Decidable (∀ d ∈ p.model.definitions, d.kind ∈ Schema.standard.keys))

/-- Some outputs have stored just the channels that their types declare. -/
def Plan.HoldsDeclared (p : Plan) (outputs : List String) (r : Results) : Prop :=
  ∀ d ∈ p.model.definitions, ∀ o ∈ d.outputNames, o ∈ outputs →
    ∃ t, Schema.standard.lookup d.kind = some t ∧ (r.channelsOf o).Perm t.channels.keys

namespace Run

variable {p : Plan} {c : Conditions} {d : Definition} {output : String} {feed : List Nat}
  {before after : List String} {r : Results}

/-- Nothing is missing at the turn of an output that asks for declared channels. -/
theorem exists_gather (sound : p.Sound) (asks : p.AsksForDeclared Schema.standard)
    (ahead : before ++ [output] <+: p.order.order) (reached : Reached p c before r)
    (holds : p.HoldsDeclared before r) (hd : d ∈ p.model.definitions)
    (hfeed : (output, feed) ∈ d.feedTable) :
    ∃ inputs, gather p.symbols d c.months r.store output = .ok inputs ∧
      ∀ xs ∈ inputs, xs.length = c.months := by
  have inside : ∀ i ∈ feed, i < d.arguments.length :=
    fun i hi => lt_of_mem_feeds (List.of_mem_zip hfeed).2 hi
  rw [gather_eq sound.linked hd hfeed]
  refine (Store.found_inputs reached.lengths inside (sound.linked.resolved d hd)).resolve_right ?_
  rintro ⟨-, key, -, -, read, absent⟩
  obtain ⟨i, hi, name, channel, raw, spreadOf, argument, producer, denoted, rfl⟩ :=
    Symbols.mem_keysAt.1 read
  have written := List.mem_of_getElem? argument
  obtain ⟨e, he, bears, t, known, declared⟩ := asks d hd _ written
  have mem := sound.linked.mem_outputNames_of_producers he bears denoted
  -- the producer comes before the output, and has stored what its type declares
  obtain ⟨after, cut⟩ := ahead
  have needed : producer ∈ Order.needsAt p.symbols d feed :=
    Order.mem_needsAt.2 ⟨i, hi, _, argument, denoted⟩
  have earlier := sound.sorts.behind before output after (by simp [← cut]) producer
    ((sound.mem_dependencies hd hfeed).2 needed)
  obtain ⟨t', known', stored⟩ := holds e he producer mem earlier
  rw [known] at known'
  cases known'
  rw [reached.keys] at absent
  exact absent (List.mem_flatMap.2 ⟨producer, earlier,
    List.mem_map_of_mem (stored.symm.subset declared)⟩)

theorem overridden_of_nil (none : c.overrides = []) (channels : Entries (Series Float)) :
    overridden c output channels = .ok channels := by
  apply mapM_eq_self
  intro e _
  rw [none]
  rfl

theorem exists_step (sound : p.Sound) (standard : c.Standard) (types : p.KnowsTypes)
    (asks : p.AsksForDeclared Schema.standard) (ahead : before ++ [output] <+: p.order.order)
    (reached : Reached p c before r) (holds : p.HoldsDeclared before r) :
    ∃ r', (step p.model p.symbols c r output).outcome = .ok r' ∧
      p.HoldsDeclared (before ++ [output]) r' := by
  obtain ⟨d, hd, feed, hfeed⟩ := sound.exists_feed (ahead.subset (by simp) : output ∈ p.order.order)
  obtain ⟨t, known⟩ := Entries.exists_lookup (types d hd)
  obtain ⟨inputs, gathered, fits⟩ := exists_gather sound asks ahead reached holds hd hfeed
  obtain ⟨answered, channels, answers, perm⟩ :=
    exists_answer standard.schema standard.registry known (standard.finite d.name output) fits
  refine ⟨record r output answered channels, ?_, ?_⟩
  · rw [outcome_step, stores_eq sound hd hfeed, gathered, ok_bind, answers, ok_bind]
    simp only [overridden_of_nil standard.overrides, ok_bind]
    rfl
  · intro e he o ho mem
    rw [channelsOf_record]
    split
    · rename_i same
      subst same
      have owner := sound.owner hd hfeed
      rw [sound.linked.owner e he o ho] at owner
      cases sound.linked.eq_of_name_eq he hd (Option.some.inj owner)
      exact ⟨t, known, perm⟩
    · rename_i other
      have old : o ∈ before := by simpa [other] using mem
      exact holds e he o ho old

/-- What one step stores, all do. -/
theorem exists_steps (sound : p.Sound) (standard : c.Standard) (types : p.KnowsTypes)
    (asks : p.AsksForDeclared Schema.standard) (ahead : before ++ after <+: p.order.order)
    (reached : Reached p c before r) (holds : p.HoldsDeclared before r) :
    ∃ r', (after.foldlM (step p.model p.symbols c) r).outcome = .ok r' ∧
      Reached p c (before ++ after) r' ∧ p.HoldsDeclared (before ++ after) r' := by
  induction after generalizing before r with
  | nil =>
    rw [List.append_nil]
    exact ⟨r, rfl, reached, holds⟩
  | cons output after ih =>
    have cut : before ++ output :: after = before ++ [output] ++ after := by simp
    rw [cut] at ahead ⊢
    have first := (List.prefix_append (before ++ [output]) after).trans ahead
    obtain ⟨next, hnext, holds⟩ := exists_step sound standard types asks first reached holds
    rw [List.foldlM_cons, Logged.outcome_bind, hnext, ok_bind]
    exact ih ahead (reached.step sound first hnext) holds

theorem exists_execute (sound : p.Sound) (standard : c.Standard) (types : p.KnowsTypes)
    (asks : p.AsksForDeclared Schema.standard) :
    ∃ r, (execute p c).outcome = .ok r ∧ p.HoldsDeclared p.order.order r := by
  obtain ⟨r, computed, reached, holds⟩ :=
    exists_steps sound standard types asks List.prefix_rfl (reached_start p c)
      (by simp [Plan.HoldsDeclared])
  rw [List.nil_append] at reached holds
  obtain ⟨store, executed⟩ := reached.exists_execute sound computed
  exact ⟨{ r with store }, executed, holds⟩

theorem exists_run (sound : p.Sound) (types : p.KnowsTypes)
    (finite : ∀ d ∈ p.model.definitions, d.InlineFinite) (asks : p.AsksForDeclared Schema.standard)
    (months : Nat) : ∃ o, (p.run Schema.standard months none [] .standard).outcome = .ok o := by
  obtain ⟨a, built, settings⟩ := Assumptions.exists_ofModel_standard p.symbols months types finite
  have standard : Conditions.Standard ⟨Schema.standard, months, a, [], .standard⟩ :=
    ⟨rfl, rfl, rfl, settings⟩
  obtain ⟨r, executed, -⟩ := exists_execute sound standard types asks
  refine ⟨⟨p, a, r⟩, ?_⟩
  simp only [Plan.run, Logged.outcome_bind, built, executed, ok_bind, Logged.outcome_pure]

/-! ## Runs of texts -/

/-- What a run that succeeds leaves: entries of each output for exactly the channels that the type
of its object declares, with an amount for every month. -/
structure StoresDeclared (p : Plan) (months : Nat) (r : Results) : Prop where
  outputs : ∀ d ∈ p.model.definitions, ∀ output ∈ d.outputNames, ∃ t,
    Schema.standard.lookup d.kind = some t ∧ (r.channelsOf output).Perm t.channels.keys ∧
      ∀ channel, storeKey output channel ∈ r.store.keys ↔ channel ∈ t.channels.keys
  lengths : ∀ e ∈ r.store, e.2.length = months

/-- A total comes under the key of an output only if it is that of the output's object, and so in a
channel that the output has, too. -/
theorem storesDeclared_of_solved (sound : p.Sound) (solved : Solved p c r)
    (holds : p.HoldsDeclared p.order.order r) : StoresDeclared p c.months r where
  lengths := solved.lengths
  outputs := by
    intro d hd output mem
    have here := sound.ordered hd mem
    have name := sound.isName here
    obtain ⟨t, known, perm⟩ := holds d hd output mem here
    refine ⟨t, known, perm, ?_⟩
    intro channel
    rw [solved.keys]
    constructor
    · rintro (⟨other, hother, _, stored, same⟩ | ⟨object, hobject, o, ho, _, stored, same⟩)
      · obtain ⟨rfl, rfl⟩ := storeKey_inj name (sound.isName hother) same
        exact perm.subset stored
      · obtain ⟨e, he, rfl⟩ := sound.exists_definition hobject
        obtain ⟨rfl, rfl⟩ := storeKey_inj name (sound.named e he).1 same
        cases sound.linked.eq_of_name_eq he hd (sound.linked.shared d hd e he mem)
        obtain ⟨t', known', perm'⟩ := holds d hd o ho (sound.ordered hd ho)
        rw [known] at known'
        cases known'
        exact perm'.subset stored
    · intro declared
      exact .inl ⟨output, here, channel, perm.symm.subset declared, rfl⟩

/-- A run of standard types with assumptions of its own and no overrides succeeds if and only if
every reference asks for a declared channel, and then stores exactly the declared ones. -/
theorem succeeds_iff_asksForDeclared {text : String} (plan : Plan.ofSource text = .ok p)
    (types : p.KnowsTypes) (finite : ∀ d ∈ p.model.definitions, d.InlineFinite) (months : Nat) :
    ((∃ o, (runSource text Schema.standard months none [] .standard).outcome = .ok o) ↔
      p.AsksForDeclared Schema.standard) ∧
    ∀ o, (runSource text Schema.standard months none [] .standard).outcome = .ok o →
      StoresDeclared p months o.results := by
  have sound := Plan.sound_of_ofSource plan
  obtain ⟨a, built, settings⟩ := Assumptions.exists_ofModel_standard p.symbols months types finite
  let c : Conditions := ⟨Schema.standard, months, a, [], .standard⟩
  have standard : c.Standard := ⟨rfl, rfl, rfl, settings⟩
  have run : (runSource text Schema.standard months none [] .standard).outcome =
      (execute p c).outcome.map fun r => ⟨p, a, r⟩ := by
    simp only [runSource, Plan.run, Logged.outcome_bind, Logged.outcome_lift, plan, built, ok_bind]
    cases (execute p c).outcome <;> rfl
  have only {o : Outcome} (h : (runSource text Schema.standard months none [] .standard).outcome =
      .ok o) : (execute p c).outcome = .ok o.results := by
    rw [run, map_eq_ok] at h
    obtain ⟨r, executed, rfl⟩ := h
    exact executed
  refine ⟨⟨?_, ?_⟩, ?_⟩
  · rintro ⟨o, h⟩
    exact asksForDeclared_of_execute sound (only h)
  · intro asks
    obtain ⟨r, executed, -⟩ := exists_execute sound standard types asks
    exact ⟨⟨p, a, r⟩, run ▸ map_eq_ok.2 ⟨r, executed, rfl⟩⟩
  · intro o h
    have executed := only h
    have asks := asksForDeclared_of_execute sound executed
    obtain ⟨r, executed', holds⟩ := exists_execute sound standard types asks
    rw [executed] at executed'
    cases executed'
    exact storesDeclared_of_solved sound (solved_of_execute plan executed) holds

def namedLikeChannels : String :=
  "S:\nUsers = Quant() => val\nShop = SubMth(val.val) => act, rev(churn: 0.5)\n" ++
    "Total = Sum(Shop.rev, val.val)"

theorem storesDeclared_namedLikeChannels : ∃ p o, Plan.ofSource namedLikeChannels = .ok p ∧
    (runSource namedLikeChannels Schema.standard 12 none [] .standard).outcome = .ok o ∧
      StoresDeclared p 12 o.results := by
  have conditions : (Plan.ofSource namedLikeChannels).toOption.map (fun p =>
      decide (p.KnowsTypes ∧ (∀ d ∈ p.model.definitions, d.InlineFinite) ∧
        p.AsksForDeclared Schema.standard)) = some true := by decide +kernel
  cases plan : Plan.ofSource namedLikeChannels with
  | error fault => simp [plan, Except.toOption] at conditions
  | ok p =>
    obtain ⟨types, finite, asks⟩ : p.KnowsTypes ∧ (∀ d ∈ p.model.definitions, d.InlineFinite) ∧
        p.AsksForDeclared Schema.standard := by
      simpa [plan, Except.toOption] using conditions
    obtain ⟨succeeds, stores⟩ := succeeds_iff_asksForDeclared plan types finite 12
    obtain ⟨o, run⟩ := succeeds.2 asks
    exact ⟨p, o, rfl, run, stores o run⟩

end Run
end Forecast

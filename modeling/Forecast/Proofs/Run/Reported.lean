import Forecast.Proofs.Assumption.Counted
import Forecast.Proofs.Run.Stored

/-!
# What stops a run

Planning and running a model with the standard functions stop only with faults
that are reported: names and cycles, entries that are missing, series that do
not fit, and functions that report their faults. An argument that is not there
is never asked for, since what feeds an output are positions of arguments.
-/

namespace Forecast

open Outcome

/-- Cells that all are series. -/
def AllSeries (cells : Entries Cell) : Prop :=
  Entries.All (fun c => ∃ xs, c = .series xs) cells

theorem allSeries_mapValues (channels : Entries (Series Float)) :
    AllSeries (Entries.ofList (channels.mapValues .series)) := by
  apply Entries.All.ofList
  intro e he
  obtain ⟨channel, -, rfl⟩ := List.mem_map.1 he
  exact ⟨channel.2, rfl⟩

theorem Cell.reports_toSeries {c : Cell} (series : ∃ xs, c = .series xs) (months : Nat)
    (output place : String) (channel : Option String) :
    Reports (c.toSeries months output place channel) := by
  obtain ⟨xs, rfl⟩ := series
  refine .bind (.ok _) fun g _ => ?_
  split
  · exact .pure _
  · exact .error rfl

theorem exists_lookup_of_unnamedCell? {cells : Entries Cell} {output : String} {c : Cell}
    (h : unnamedCell? cells output = some c) : ∃ name, cells.lookup name = some c := by
  unfold unnamedCell? at h
  split at h
  · rename_i found
    cases h
    exact ⟨output, (Option.filter_eq_some_iff.1 found).1⟩
  · exact ⟨"val", (Option.filter_eq_some_iff.1 h).1⟩

theorem reports_selectChannels {cells : Entries Cell} (series : AllSeries cells)
    (declared : List String) (output object kind : String) (months : Nat) :
    Reports (selectChannels cells declared output object kind months) := by
  unfold selectChannels
  dsimp only
  split
  · refine .mapM fun e he => ?_
    have here := series e (List.mem_of_mem_filter he)
    exact .bind (Cell.reports_toSeries here _ _ _ _) fun _ _ => .pure _
  · split
    · exact .error rfl
    · rename_i unnamed _
      obtain ⟨name, found⟩ := exists_lookup_of_unnamedCell? unnamed
      exact .bind (Cell.reports_toSeries (series.of_lookup found) _ _ _ _) fun _ _ => .pure _
    · exact .error rfl

/-! ## Inputs -/

theorem Store.reports_input (store : Store) (s : Symbols) (d : Definition) (output : String)
    (months : Nat) (position : Int) (a : Argument) :
    Reports (store.input s d output months position a) := by
  cases a with
  | reference name field raw spreadOf =>
    simp only [Store.input]
    split
    · exact reports_run _
    · split
      · refine .foldlM (fun output _ total => ?_) _
        exact .bind (reports_run _) fun xs _ => .mapError (Series.reports_add total xs)
      · exact .error rfl
  | spread object field raw => exact .error rfl
  | number value raw => exact .ok _
  | word text => exact .ok _

namespace Run

variable {c : Conditions} {d : Definition} {output : String}

theorem lt_of_mem_feedOf {s : Symbols} {feed : List Nat} (h : feedOf s d output = .ok feed) :
    ∀ i ∈ feed, i < d.arguments.length := by
  simp only [feedOf, bind_eq_ok, pure_eq_ok] at h
  obtain ⟨positions, routed, rfl⟩ := h
  intro i hi
  unfold Definition.feeds at routed
  dsimp only at routed
  split at routed
  · cases routed
  · cases routed
    cases found : ((s.outputsOf d.name).zip
        (feeds d.arguments.length (max (s.outputsOf d.name).length 1))).lookup output with
    | none => simp [found] at hi
    | some feed =>
      rw [found] at hi
      exact lt_of_mem_feeds (List.of_mem_zip (Entries.mem_of_lookup found)).2 hi

theorem reports_gather (s : Symbols) (d : Definition) (months : Nat) (store : Store)
    (output : String) : Reports (gather s d months store output) := by
  refine .bind (reports_link _) fun feed hfeed => .mapM fun position hposition => ?_
  obtain ⟨i, hi, rfl⟩ := List.mem_map.1 hposition
  have inside := lt_of_mem_feedOf (mapError_eq_ok.1 hfeed) i hi
  simp only [Int.ofNat_eq_natCast, Store.argumentAt?_natCast, List.getElem?_eq_getElem inside]
  exact Store.reports_input _ _ _ _ _ _ _

/-! ## Outputs -/

/-- Conditions with the standard functions and no overrides, whose settings do not count to
infinity. -/
structure Countable (c : Conditions) : Prop where
  registry : c.registry = Registry.standard
  overrides : c.overrides = []
  settings : ∀ object output, (c.assumptions.settings object output).Countable

theorem reports_answer (countable : Countable c) (d : Definition) (output : String)
    (inputs : List (Series Float)) : Reports (answer c d output inputs) := by
  refine .bind (reports_run _) fun t _ => .bind (reports_run _) fun function hfunction => ?_
  have found := mapError_eq_ok.1 hfunction
  unfold functionOf at found
  split at found
  · rename_i known
    cases found
    rw [countable.registry] at known
    obtain ⟨f, reports, rfl⟩ := Registry.standard_ok known
    refine .bind (Registry.reports_ofComputation reports (countable.settings d.name output))
      fun reply hreply => ?_
    obtain ⟨channels, rfl⟩ := Registry.ofComputation_ok hreply
    exact .bind (reports_selectChannels (allSeries_mapValues channels) _ _ _ _ _) fun _ _ => .pure _
  · cases found

theorem reports_compute (countable : Countable c) (m : Model) (s : Symbols) (store : Store)
    (output : String) : Reports (compute m s c store output) := by
  unfold compute
  dsimp only
  split
  · exact .error rfl
  · exact .bind (reports_gather _ _ _ _ _) fun inputs _ => reports_answer countable _ _ _

theorem reports_step (countable : Countable c) (m : Model) (s : Symbols) (r : Results)
    (output : String) : Reports (step m s c r output).outcome := by
  rw [outcome_step]
  refine .bind (.bind (reports_compute countable _ _ _ _) fun _ _ => ?_) fun _ _ => .pure _
  -- no month is replaced, so nothing is read from an override
  refine .bind (.mapM fun e _ => ?_) fun _ _ => .pure _
  rw [countable.overrides]
  exact .ok _

/-! ## Totals -/

theorem reports_totals (r : Results) (months : Nat) (outputs : List String) :
    FailsOnly (fun e => (Fault.length e).isReported = true) (totals r months outputs) :=
  .foldlM (fun _ _ sums =>
    .foldlM (fun _ _ _ => .bind (Series.reports_add _ _) fun _ _ => .pure _) sums) _

theorem reports_rollUp (r : Results) (months : Nat) (store : Store)
    (object : String × List String) :
    FailsOnly (fun e => (Fault.length e).isReported = true) (rollUp r months store object) :=
  .bind (reports_totals _ _ _) fun _ _ => .pure _

/-- A run succeeds, or it is reported why not. -/
theorem reports_execute (countable : Countable c) (p : Plan) : Reports (execute p c).outcome := by
  simp only [execute, Logged.outcome_bind, Logged.outcome_foldlM, Logged.outcome_lift]
  refine .bind (.foldlM (fun output _ r => reports_step countable _ _ r output) _) fun r _ =>
    .bind (.mapError ?_) fun _ _ => .pure _
  exact .foldlM (fun object _ store => reports_rollUp r _ store object) _

end Run

/-- A run of a planned model of any types succeeds, or it is reported why not. -/
theorem Plan.reports_run (p : Plan) (months : Nat)
    (countable : ∀ d ∈ p.model.definitions, d.Countable) :
    Reports (p.run Schema.standard months none [] Registry.standard).outcome := by
  obtain ⟨a, built, settings⟩ :=
    Assumptions.exists_ofModel_countable p.symbols months countable
  simp only [Plan.run, Logged.outcome_bind, built, ok_bind]
  exact .bind (Run.reports_execute ⟨rfl, rfl, settings⟩ p) fun _ _ => .pure _

end Forecast

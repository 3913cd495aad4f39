import Forecast.Proofs.Run.Cut
import Forecast.Proofs.Statement.Cut

/-!
# The past over a longer horizon

A longer horizon never rewrites the past: if no object looks ahead, a run over
fewer months succeeds as soon as one over more months does, it stores the first
months of the same series, and so the statements that are built from them are
the first months of the same line items.
-/

namespace Forecast

open Outcome

theorem channelSeries_cut (p : Plan) (a a' : Assumptions) (r : Results) (n : Nat) :
    (⟨p, a, r.cut n⟩ : Outcome).channelSeries =
      (⟨p, a', r⟩ : Outcome).channelSeries.map (ChannelSeries.cut n) := by
  have amounts (key : String) : (((r.store.cut n).lookup key).getD [] : Series Float) =
      ((r.store.lookup key).getD []).take n := by
    have cut := Entries.getD_lookup_mapValues (List.take n) r.store key []
    rwa [List.take_nil] at cut
  simp only [Outcome.channelSeries, Results.cut, List.map_flatMap, List.map_map, amounts]
  rfl

theorem length_channelSeries {p : Plan} {a : Assumptions} {r : Results} {months : Nat}
    (whole : r.Whole months) :
    ∀ s ∈ (⟨p, a, r⟩ : Outcome).channelSeries, s.amounts.length = months := by
  intro s hs
  simp only [Outcome.channelSeries, List.mem_flatMap, List.mem_map] at hs
  obtain ⟨⟨output, channels⟩, recorded, channel, stored, rfl⟩ := hs
  obtain ⟨xs, found⟩ := Entries.exists_lookup (whole.recorded _ recorded channel stored)
  simp only [found, Option.getD_some]
  exact whole.lengths _ (Entries.mem_of_lookup found)

namespace Run

/-- A longer horizon never rewrites the past. A horizon has at least one month; the assumptions are
any that are computed again for each of the two horizons, and the objects look back under the longer
one. If the run over the longer horizon succeeds, so does the one over the shorter, with the same
keys in its store and under each of them the first months of the same series; and whatever schema
and template the statements are built with, every line item has the first months of the same
amounts. -/
theorem past_unchanged {m : Model} {p : Plan} (planned : Plan.ofModel m = .ok p) {schema : Schema}
    {registry : Registry} {overrides : Overrides} {given a' : Assumptions} {n n' : Nat}
    {o' : Outcome} (positive : 0 < n) (longer : n ≤ n')
    (recalculated : given.recalculate n' = .ok a')
    (back : ∀ d ∈ p.model.definitions, LooksBack ⟨schema, n', a', overrides, registry⟩ d)
    (run : (p.run schema n' (some a') overrides registry).outcome = .ok o') :
    ∃ a o, given.recalculate n = .ok a ∧
      (p.run schema n (some a) overrides registry).outcome = .ok o ∧
      o.results.store = o'.results.store.mapValues (List.take n) ∧
      ∀ schema template, ∃ f f',
        (Financials.build o.channelSeries n schema template).outcome = .ok f ∧
        (Financials.build o'.channelSeries n' schema template).outcome = .ok f' ∧
        f.lines = f'.lines.mapValues (List.take n) := by
  obtain ⟨-, linked, sorts⟩ := Plan.ofModel_ok planned
  simp only [Plan.run, Logged.outcome_bind, bind_eq_ok] at run
  obtain ⟨a', same, r, executed, run⟩ := run
  cases same
  cases run
  obtain ⟨executed', whole⟩ := execute_cut linked sorts back positive longer executed
  have again := Assumptions.recalculate_cut longer recalculated
  refine ⟨a'.cut n, ⟨p, a'.cut n, r.cut n⟩, again, ?_, rfl, ?_⟩
  · simp only [Plan.run, Logged.outcome_bind, Logged.outcome_pure, ok_bind]
    change (execute p (Conditions.cut n ⟨schema, n', a', overrides, registry⟩)).outcome >>= _ = _
    rw [executed']
    rfl
  · intro schema template
    rw [channelSeries_cut p (a'.cut n) a' r n]
    exact Financials.exists_build_cut longer schema template (length_channelSeries whole)

def delayedSum : String :=
  "S:\nA = Sum(7) => a\nB = Delay(a.val) => b"

def delayMonths : FieldSpec :=
  ⟨"delayMonths", none, .number, none, .int 0, .onlySingle⟩

def delayTypes : Schema :=
  [("Sum", ⟨none, [("val", ⟨none, none, [], false⟩)], [], []⟩),
    ("Delay", ⟨none, [("val", ⟨none, none, [], false⟩)], [], [delayMonths]⟩)]

/-- The delay is one month; nothing is said yet about how many months there are. -/
def oneMonthLate (value : FieldValue) : Assumptions :=
  [("B", ⟨[], [("b", [("delayMonths", ⟨delayMonths, .ofSingle (.float 1.0), value⟩)])]⟩)]

def fourMonthsLate : Assumptions :=
  oneMonthLate (.series [1.0, 1.0, 1.0, 1.0])

def twoOverridden : Overrides :=
  [("a", some [("val", some [(.int 1, .float 3.0), (.int 2, .float 9.0)])])]

theorem delayedSum_looksBack {d : Definition}
    (known : (d.kind, d.name, d.outputNames) ∈ [("Sum", "A", ["a"]), ("Delay", "B", ["b"])]) :
    LooksBack ⟨delayTypes, 4, fourMonthsLate, twoOverridden, .standard⟩ d := by
  intro t type
  simp only [List.mem_cons, Prod.mk.injEq, List.not_mem_nil, or_false] at known
  rcases known with ⟨kind, -, -⟩ | ⟨kind, name, outputs⟩
  · rw [kind] at type ⊢
    cases type
    exact ⟨"Sum", Compute.sumInputs, by simp [Compute.library], rfl, by decide,
      fun delay => absurd delay (by decide)⟩
  · rw [kind] at type ⊢
    cases type
    refine ⟨"Delay", Compute.delay, by simp [Compute.library], rfl, by decide, ?_⟩
    intro _ output mem xs read
    rw [outputs, List.mem_singleton] at mem
    rw [mem, name] at read
    cases read
    decide +kernel

theorem past_delayedSum : ∃ p a o o', Plan.ofSource delayedSum = .ok p ∧
    (oneMonthLate (.flag false)).recalculate 2 = .ok a ∧
    (p.run delayTypes 2 (some a) twoOverridden .standard).outcome = .ok o ∧
    (p.run delayTypes 4 (some fourMonthsLate) twoOverridden .standard).outcome = .ok o' ∧
    o.results.store = o'.results.store.mapValues (List.take 2) := by
  have planned : ((Plan.ofSource delayedSum).toOption.map fun p =>
      (p.model.definitions.map fun d => (d.kind, d.name, d.outputNames),
        (p.run delayTypes 4 (some fourMonthsLate) twoOverridden
          .standard).outcome.toOption.isSome)) =
      some ([("Sum", "A", ["a"]), ("Delay", "B", ["b"])], true) := by decide +kernel
  obtain ⟨p, plan, same⟩ := exists_of_toOption_map planned
  obtain ⟨objects, runs⟩ := Prod.mk.inj same
  obtain ⟨o', run⟩ := exists_of_isSome_toOption runs
  obtain ⟨m, -, ofModel⟩ := Plan.exists_model plan
  have back : ∀ d ∈ p.model.definitions,
      LooksBack ⟨delayTypes, 4, fourMonthsLate, twoOverridden, .standard⟩ d := by
    intro d hd
    apply delayedSum_looksBack
    rw [← objects]
    exact List.mem_map_of_mem hd
  have recalculated : (oneMonthLate (.flag false)).recalculate 4 = .ok fourMonthsLate := rfl
  obtain ⟨a, o, again, shorter, store, -⟩ :=
    past_unchanged ofModel (by decide : 0 < 2) (by decide) recalculated back run
  exact ⟨p, a, o, o', plan, again, shorter, run, store⟩

end Run
end Forecast

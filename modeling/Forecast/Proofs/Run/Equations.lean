import Forecast.Proofs.Run.Totals

/-!
# The equations of a run

Every output has an equation: it has stored what it stores if its inputs are
read from the store. The store that a run leaves solves the equations of all
outputs at once, and there is no other solution: every store that solves them
has the same entries for the outputs.
-/

namespace Forecast

open Outcome

namespace Run

variable {c : Conditions} {p : Plan} {output : String} {before after : List String}
  {r r' : Results} {store : Store}

/-- A store that holds, for every output, what the output stores if its inputs are read from it. -/
def Solves (p : Plan) (c : Conditions) (store : Store) : Prop :=
  ∀ output ∈ p.order.order, ∃ answered stored,
    stores p.model p.symbols c store output = .ok (answered, stored) ∧
      ∀ e ∈ stored, store.lookup (storeKey output e.1) = some e.2

/-- Any solution that has what is stored so far has what the next outputs store, too. -/
theorem Reached.extends (sound : p.Sound) (ahead : before ++ after <+: p.order.order)
    (reached : Reached p c before r) (solves : Solves p c store) (more : store.Extends r.store)
    (h : (after.foldlM (Run.step p.model p.symbols c) r).outcome = .ok r') :
    store.Extends r'.store := by
  refine (reached.keeps sound (fun r => store.Extends r.store) ?_ ahead h more).2
  intro before output r r' ahead reached h more
  obtain ⟨answered, stored, gives, -, grown, -⟩ := reached.step_store sound ahead h
  have known : output ∈ p.order.order := ahead.subset (by simp)
  -- the solution stores the same for this output, since it has all that feeds it
  have gives' := stores_extend sound known gives more
  obtain ⟨_, _, solved, entries⟩ := solves output known
  rw [gives'] at solved
  cases solved
  intro key xs found
  rw [grown, List.lookup_append, Option.or_eq_some_iff] at found
  rcases found with found | ⟨-, found⟩
  · exact more key xs found
  · obtain ⟨e, he, eq⟩ := List.mem_map.1 (Entries.mem_of_lookup found)
    obtain ⟨rfl, rfl⟩ := Prod.mk.inj eq
    exact entries e he

/-- The store only grows. -/
theorem Reached.exists_append (sound : p.Sound) (ahead : before ++ after <+: p.order.order)
    (reached : Reached p c before r)
    (h : (after.foldlM (Run.step p.model p.symbols c) r).outcome = .ok r') :
    ∃ new, r'.store = r.store ++ new := by
  refine (reached.keeps sound (fun r' => ∃ new, r'.store = r.store ++ new) ?_ ahead h
    ⟨[], by simp⟩).2
  rintro before output u v ahead reached h ⟨new, grown⟩
  obtain ⟨_, stored, -, -, added, -⟩ := reached.step_store sound ahead h
  exact ⟨new ++ entriesOf output stored, by rw [added, grown, List.append_assoc]⟩

theorem exists_append_of_cut (sound : p.Sound) (cut : p.order.order = before ++ after)
    (h : (p.order.order.foldlM (Run.step p.model p.symbols c) start).outcome = .ok r) :
    ∃ r₁ new, (before.foldlM (Run.step p.model p.symbols c) start).outcome = .ok r₁ ∧
      r.store = r₁.store ++ new := by
  rw [cut, List.foldlM_append, Logged.outcome_bind, bind_eq_ok] at h
  obtain ⟨r₁, first, rest⟩ := h
  have ahead : before ++ after <+: p.order.order := cut ▸ List.prefix_rfl
  have reached := reached_of_steps sound ((List.prefix_append before after).trans ahead) first
  obtain ⟨new, grown⟩ := reached.exists_append sound ahead rest
  exact ⟨r₁, new, first, grown⟩

/-- What the results of a run say about its store. -/
structure Solved (p : Plan) (c : Conditions) (r : Results) : Prop where
  channels : r.channels.keys = p.order.order
  distinct : r.store.keys.Nodup
  keys : ∀ key, key ∈ r.store.keys ↔
    (∃ output ∈ p.order.order, ∃ channel ∈ r.channelsOf output, key = storeKey output channel) ∨
    ∃ object ∈ p.symbols.outputsByObject, ∃ output ∈ object.2, ∃ channel ∈ r.channelsOf output,
      key = storeKey object.1 channel
  lengths : ∀ e ∈ r.store, e.2.length = c.months
  computed : ∀ output ∈ p.order.order, Computed p c r output
  /-- Nothing that was in the store after some outputs has changed. -/
  grown : ∀ before after, p.order.order = before ++ after →
    ∃ r₁ new, (before.foldlM (step p.model p.symbols c) start).outcome = .ok r₁ ∧
      r.store = r₁.store ++ new
  totals : ∀ object ∈ p.symbols.outputsByObject, ∀ output ∈ object.2,
    ∀ channel ∈ r.channelsOf output,
      (∀ other ∈ p.order.order, ∀ stored ∈ r.channelsOf other,
        storeKey object.1 channel ≠ storeKey other stored) →
      ∃ total, Series.sum c.months (contributions r object.2 channel) = .ok total ∧
        r.store.lookup (storeKey object.1 channel) = some total
  unique : ∀ store, Solves p c store → ∀ output ∈ p.order.order,
    stores p.model p.symbols c store output = stores p.model p.symbols c r.store output ∧
      ∀ channel ∈ r.channelsOf output,
        store.lookup (storeKey output channel) = r.store.lookup (storeKey output channel)

theorem Reached.mem_keys (reached : Reached p c before r) {key : String} :
    key ∈ r.store.keys ↔
      ∃ output ∈ before, ∃ channel ∈ r.channelsOf output, key = storeKey output channel := by
  rw [reached.keys]
  simp only [List.mem_flatMap, List.mem_map, eq_comm]

/-- What every solution has in common with the store of a run. -/
theorem Reached.unique (sound : p.Sound) (reached : Reached p c p.order.order r)
    (more : r'.store.Extends r.store) (also : store.Extends r.store)
    (known : output ∈ p.order.order) :
    stores p.model p.symbols c store output = stores p.model p.symbols c r'.store output ∧
      ∀ channel ∈ r.channelsOf output,
        store.lookup (storeKey output channel) = r'.store.lookup (storeKey output channel) := by
  obtain ⟨answered, stored, gives, -⟩ := reached.computed output known
  constructor
  · rw [stores_extend sound known gives also, stores_extend sound known gives more]
  · intro channel mem
    obtain ⟨xs, found⟩ :=
      Entries.exists_lookup (reached.mem_keys.2 ⟨output, known, channel, mem, rfl⟩)
    rw [also _ _ found, more _ _ found]

/-- A run that succeeds leaves a store that solves the equations of all outputs, holds the totals of
all objects besides, and agrees with every solution. -/
theorem solved_of_execute {text : String} (plan : Plan.ofSource text = .ok p)
    (run : (execute p c).outcome = .ok r) : Solved p c r := by
  have sound := Plan.sound_of_ofSource plan
  obtain ⟨r₀, steps, reached, rolled, same⟩ := execute_ok sound run
  have channelsOf : ∀ o, r.channelsOf o = r₀.channelsOf o := by
    intro o
    rw [same]
    rfl
  have more := rolled.extends
  have known : ∀ o ∈ p.order.order, ∀ channel ∈ r₀.channelsOf o,
      storeKey o channel ∈ r₀.store.keys := by
    intro o ho channel stored
    exact reached.mem_keys.2 ⟨o, ho, channel, stored, rfl⟩
  refine
    { channels := by rw [same, reached.channels]
      distinct := rolled.distinct
      keys := ?_
      lengths := rolled.lengths
      computed := ?_
      grown := ?_
      totals := ?_
      unique := ?_ }
  · intro key
    simp only [rolled.keys, reached.mem_keys, channelsOf]
  · intro output mem
    refine (reached.computed output mem).mono sound mem more ?_ ?_ <;> rw [same]
  · intro before after cut
    obtain ⟨r₁, new, first, grown⟩ := exists_append_of_cut sound cut steps
    obtain ⟨new', added⟩ := rolled.more
    exact ⟨r₁, new ++ new', first, by rw [added, grown, List.append_assoc]⟩
  · intro object mem output ho channel stored free
    simp only [channelsOf] at stored free
    have free' : storeKey object.1 channel ∉ r₀.store.keys := by
      rw [reached.mem_keys]
      rintro ⟨other, hother, channel', stored', eq⟩
      exact free other hother channel' stored' eq
    obtain ⟨total, summed, found⟩ := rolled.totals object mem output ho channel stored free'
    have entries := rolled.contributions_eq
      (fun o ho channel stored => known o (sound.mem_order_of_object mem ho) channel stored) channel
    refine ⟨total, ?_, found⟩
    rw [same, entries, summed]
  · intro store solves output mem
    have start : store.Extends Run.start.store := by
      intro key xs found
      cases found
    have also := (reached_start p c).extends sound List.prefix_rfl solves start steps
    have agree := reached.unique sound more also mem
    simpa only [channelsOf] using agree

/-- An object and one that reads it twice, for two outputs. -/
def twoObjects : String :=
  "S:\nA = Sum(7)\nB = Sum(A.val, A.val) => b, c"

def sums : Conditions where
  schema := [("Sum", ⟨none, [("val", ⟨none, none, [], false⟩)], [], []⟩)]
  months := 2
  assumptions := []
  overrides := [("b", some [("val", some [(.int 1, .float 3)])])]
  registry := .standard

theorem solved_twoObjects : ∃ p r, Plan.ofSource twoObjects = .ok p ∧
    (execute p sums).outcome = .ok r ∧ r.store.keys = ["A.val", "b.val", "c.val", "B.val"] ∧
    Solved p sums r := by
  have keys : ((Plan.ofSource twoObjects >>= fun p => (execute p sums).outcome).map fun r =>
      r.store.keys).toOption = some ["A.val", "b.val", "c.val", "B.val"] := by decide +kernel
  cases plan : Plan.ofSource twoObjects with
  | error fault => simp [plan, bind, Except.bind, Except.map, Except.toOption] at keys
  | ok p =>
    rw [plan, ok_bind] at keys
    cases run : (execute p sums).outcome with
    | error fault => simp [run, Except.map, Except.toOption] at keys
    | ok r =>
      rw [run] at keys
      exact ⟨p, r, rfl, run, Option.some.inj keys, solved_of_execute plan run⟩

end Run
end Forecast

import Forecast.Proofs.Run.Totals

/-!
# What may be missing

The order of a plan and the runs of it find out separately what an output
reads. They agree: the inputs of an output are read from entries of exactly the
outputs that it depends on, all of which stand before it in the order. So the
only thing that may be missing when the inputs of an output are gathered is a
channel that an earlier output has not stored.
-/

namespace Forecast

open Outcome

section

variable {s : Symbols} {d : Definition} {output : String} {months : Nat} {store : Store}
  {outputs : List String}

/-- A computation on a store answers something good, or misses one of the keys. -/
def FoundOr {α : Type} (good : α → Prop) (store : Store) (keys : List String) (x : Except Fault α) :
    Prop :=
  (∃ a, x = .ok a ∧ good a) ∨
    ∃ fault key, x = .error fault ∧ fault.missingKey? = some key ∧ key ∈ keys ∧ key ∉ store.keys

namespace FoundOr

variable {α β : Type} {good : α → Prop} {good' : β → Prop} {keys keys' : List String}
  {x : Except Fault α} {f : α → Except Fault β}

theorem mono (h : FoundOr good store keys x) (more : keys ⊆ keys') :
    FoundOr good store keys' x := by
  rcases h with ⟨a, rfl, ha⟩ | ⟨fault, key, rfl, missing, mem, absent⟩
  · exact .inl ⟨a, rfl, ha⟩
  · exact .inr ⟨fault, key, rfl, missing, more mem, absent⟩

theorem bind (hx : FoundOr good store keys x) (hf : ∀ a, good a → FoundOr good' store keys' (f a)) :
    FoundOr good' store (keys ++ keys') (x >>= f) := by
  rcases hx with ⟨a, rfl, ha⟩ | ⟨fault, key, rfl, missing, mem, absent⟩
  · exact (hf a ha).mono (List.subset_append_right _ _)
  · exact .inr ⟨fault, key, rfl, missing, List.mem_append_left _ mem, absent⟩

theorem map (hx : FoundOr good store keys x) {g : α → β} (hg : ∀ a, good a → good' (g a)) :
    FoundOr good' store keys (x >>= fun a => pure (g a)) := by
  rw [← List.append_nil keys]
  exact hx.bind fun a ha => .inl ⟨g a, rfl, hg a ha⟩

end FoundOr

theorem Store.found_entry (whole : ∀ e ∈ store, e.2.length = months) (key place : String)
    (argument : Int) (object : Option String) :
    FoundOr (fun xs : Series Float => xs.length = months) store [key]
      (store.entry key place argument object : Except Fault (Series Float)) := by
  rw [Store.entry]
  cases found : store.lookup key with
  | some xs => exact .inl ⟨xs, rfl, whole _ (Entries.mem_of_lookup found)⟩
  | none => exact .inr ⟨_, key, rfl, rfl, by simp, Entries.lookup_eq_none.1 found⟩

theorem Store.found_addEntries (whole : ∀ e ∈ store, e.2.length = months)
    (object field place : String)
    (argument : Int) (outputs : List String) {total : Series Float} (h : total.length = months) :
    FoundOr (fun xs : Series Float => xs.length = months) store
      (outputs.map fun o => storeKey o field)
      (outputs.foldlM (store.addEntry object field place argument) total) := by
  induction outputs generalizing total with
  | nil => exact .inl ⟨total, rfl, h⟩
  | cons o outputs ih =>
    rw [List.foldlM_cons, List.map_cons, ← List.singleton_append]
    have added : FoundOr (fun xs : Series Float => xs.length = months) store
        ([storeKey o field] ++ []) (store.addEntry object field place argument total o) := by
      simp only [Store.addEntry]
      refine (Store.found_entry whole _ _ _ _).bind fun xs hxs => .inl ?_
      have sum := Series.add_of_length_eq (h.trans hxs.symm)
      exact ⟨_, by rw [sum]; rfl, by simp [h, hxs]⟩
    exact added.bind fun _ => ih

/-- A resolved argument denotes a series over the horizon, or an entry that it reads is missing. -/
theorem Store.found_input (whole : ∀ e ∈ store, e.2.length = months) (position : Int) {a : Argument}
    (resolved : s.Resolves a) :
    FoundOr (fun xs : Series Float => xs.length = months) store (s.keysRead a)
      (store.input s d output months position a) := by
  cases a with
  | reference name field raw spreadOf =>
    simp only [Store.input, Symbols.keysRead, Symbols.producers]
    split
    · exact Store.found_entry whole _ _ _ _
    · rename_i notOutput
      have object : s.objects.has name = true := by
        simpa [Symbols.Resolves, Symbols.has, notOutput] using resolved
      rw [if_pos object]
      exact Store.found_addEntries whole _ _ _ _ _ (by simp)
  | spread object field raw => exact absurd resolved (by simp [Symbols.Resolves])
  | number value raw => exact .inl ⟨_, rfl, by simp⟩
  | word text => exact .inl ⟨_, rfl, by simp⟩

theorem Store.found_inputs (whole : ∀ e ∈ store, e.2.length = months) {feed : List Nat}
    (inside : ∀ i ∈ feed, i < d.arguments.length) (resolved : ∀ a ∈ d.arguments, s.Resolves a) :
    FoundOr (fun inputs : List (Series Float) => ∀ xs ∈ inputs, xs.length = months) store
      (s.keysAt d feed)
      (store.inputs s d output months (feed.map Int.ofNat)) := by
  rw [Store.inputs, List.mapM_map]
  induction feed with
  | nil => exact .inl ⟨[], rfl, by simp⟩
  | cons i feed ih =>
    have here := inside i (by simp)
    have argument := List.getElem?_eq_getElem here
    have rest := ih fun j hj => inside j (List.mem_cons_of_mem _ hj)
    rw [List.mapM_cons, Symbols.keysAt, List.flatMap_cons, argument]
    simp only [Function.comp_apply, Int.ofNat_eq_natCast, Store.argumentAt?_natCast, argument]
    refine (Store.found_input whole i (resolved _ (List.getElem_mem here))).bind fun xs hxs => ?_
    exact rest.map fun inputs each => by simpa [hxs] using each

end

/-! ## Faults that are about no entry -/

theorem Cell.missingKey?_toSeries {cell : Cell} {months : Nat} {output place : String}
    {channel : Option String} {fault : Fault}
    (h : cell.toSeries months output place channel = .error fault) : fault.missingKey? = none := by
  simp only [Cell.toSeries, bind_eq_error] at h
  rcases h with h | ⟨g, -, h⟩
  · cases cell with
    | series xs => cases h
    | value v =>
      simp only [Cell.grid, Grid.ofValue] at h
      split at h
      · simp only [bind_eq_error, pure_ne_error, and_false, exists_false, or_false] at h
        obtain ⟨_, -, rfl⟩ := mapError_eq_error.1 h
        rfl
      · split at h <;> cases h <;> rfl
  · split at h <;> cases h
    rfl

theorem missingKey?_selectChannels {cells : Entries Cell} {declared : List String}
    {output object kind : String} {months : Nat} {fault : Fault}
    (h : selectChannels cells declared output object kind months = .error fault) :
    fault.missingKey? = none := by
  unfold selectChannels at h
  split at h
  · obtain ⟨e, -, h⟩ := mapM_eq_error h
    simp only [bind_eq_error, pure_ne_error, and_false, exists_false, or_false] at h
    exact Cell.missingKey?_toSeries h
  · split at h
    · cases h
      rfl
    · simp only [bind_eq_error, pure_ne_error, and_false, exists_false, or_false] at h
      exact Cell.missingKey?_toSeries h
    · cases h
      rfl

theorem Overrides.missingKey?_apply {o : Overrides} {output channel : String} {xs : Series Float}
    {fault : Fault} (h : (o.apply output channel xs).outcome = .error fault) :
    fault.missingKey? = none := by
  rw [Overrides.apply, Logged.outcome_foldlM] at h
  obtain ⟨_, change, _, ys, -, -, h⟩ := foldlM_eq_error h
  simp only [applyOne, Logged.outcome_bind, bind_eq_error] at h
  rcases h with h | ⟨month, -, h⟩
  · obtain ⟨_, -, rfl⟩ := mapError_eq_error.1 h
    rfl
  · split at h
    · cases h
    · simp only [Logged.outcome_bind, bind_eq_error] at h
      rcases h with h | ⟨x, -, h⟩
      · obtain ⟨_, -, rfl⟩ := mapError_eq_error.1 h
        rfl
      · cases h

namespace Run

variable {p : Plan} {c : Conditions} {d : Definition} {output key : String} {feed : List Nat}
  {before after : List String} {r : Results} {fault : Fault} {inputs : List (Series Float)}
  {channels : Entries (Series Float)}

/-- An answer names a missing entry only if the function of the output does. -/
theorem answer_error (h : answer c d output inputs = .error fault)
    (missing : fault.missingKey? = some key) :
    ∃ function ∈ c.registry.map (·.2), ∃ task, function task = .error fault := by
  simp only [answer, bind_eq_error] at h
  rcases h with h | ⟨t, -, h⟩
  · obtain ⟨e, failed, rfl⟩ := mapError_eq_error.1 h
    unfold typeOf at failed
    split at failed
    · split at failed <;> cases failed
      cases missing
    · cases failed
      cases missing
  · rcases h with h | ⟨function, found, h⟩
    · obtain ⟨e, failed, rfl⟩ := mapError_eq_error.1 h
      unfold functionOf at failed
      split at failed <;> cases failed
      cases missing
    · rcases h with h | ⟨reply, -, h⟩
      · have found := mapError_eq_ok.1 found
        unfold functionOf at found
        split at found
        · rename_i entry
          cases found
          exact ⟨_, List.mem_map.2 ⟨_, Entries.mem_of_lookup entry, rfl⟩, _, h⟩
        · cases found
      · cases reply with
        | other =>
          cases h
          cases missing
        | channels cells distinct =>
          simp only [bind_eq_error, pure_ne_error, and_false, exists_false, or_false] at h
          rw [missingKey?_selectChannels h] at missing
          cases missing

theorem missingKey?_overridden (h : overridden c output channels = .error fault) :
    fault.missingKey? = none := by
  obtain ⟨e, -, h⟩ := mapM_eq_error h
  simp only [bind_eq_error, pure_ne_error, and_false, exists_false, or_false] at h
  exact Overrides.missingKey?_apply h

/-- An entry of a store is consulted if the inputs of an output cannot be gathered without it. -/
def Consults (s : Symbols) (d : Definition) (months : Nat) (store : Store) (output key : String) :
    Prop :=
  ∃ fault, gather s d months (store.without key) output = .error fault ∧
    fault.missingKey? = some key

/-- The inputs of an output depend on entries of its dependencies, of each one, and on nothing
else. -/
structure ReadsDependencies (p : Plan) (d : Definition) (output : String) (months : Nat)
    (store : Store) (inputs : List (Series Float)) : Prop where
  dependencies : ∀ producer ∈ p.order.order,
    (∃ field, Consults p.symbols d months store output (storeKey producer field)) ↔
      producer ∈ p.dependenciesOf output
  nothingElse : ∀ key, Consults p.symbols d months store output key →
    ∃ producer ∈ p.dependenciesOf output, ∃ field, key = storeKey producer field
  enough : ∀ store',
    (∀ key, Consults p.symbols d months store output key → store'.lookup key = store.lookup key) →
      gather p.symbols d months store' output = .ok inputs

/-- The fault names a channel that a dependency, computed before, has not stored. -/
def MissesChannel (p : Plan) (before : List String) (r : Results) (output : String)
    (fault : Fault) :
    Prop :=
  ∃ producer ∈ p.dependenciesOf output, producer ∈ before ∧
    ∃ field, field ∉ r.channelsOf producer ∧ fault.missingKey? = some (storeKey producer field)

/-- When the turn of an output comes, all that it depends on is computed. -/
structure Turn (p : Plan) (c : Conditions) (d : Definition) (output : String) (before : List String)
    (r : Results) : Prop where
  earlier : ∀ producer ∈ p.dependenciesOf output, producer ∈ before
  computed : ∀ producer ∈ before, Computed p c r producer
  gathers : (∃ inputs, gather p.symbols d c.months r.store output = .ok inputs) ∨
    ∃ fault, gather p.symbols d c.months r.store output = .error fault ∧
      MissesChannel p before r output fault

theorem consults_iff (sound : p.Sound) (hd : d ∈ p.model.definitions)
    (hfeed : (output, feed) ∈ d.feedTable) {months : Nat} {store : Store}
    (h : gather p.symbols d months store output = .ok inputs) :
    Consults p.symbols d months store output key ↔ key ∈ p.symbols.keysAt d feed := by
  have reads := reads_gather sound.linked hd hfeed months
  constructor
  · rintro ⟨fault, failed, -⟩
    by_contra unread
    rw [reads.agree (Store.agree_without unread) h] at failed
    cases failed
  · exact fun read => reads.missing read h

theorem readsDependencies (sound : p.Sound) (hd : d ∈ p.model.definitions)
    (hfeed : (output, feed) ∈ d.feedTable) {months : Nat} {store : Store}
    (h : gather p.symbols d months store output = .ok inputs) :
    ReadsDependencies p d output months store inputs where
  dependencies producer known := by
    simp only [consults_iff sound hd hfeed h]
    rw [sound.mem_dependencies hd hfeed]
    exact (Order.mem_needsAt_iff_read sound.linked sound.named (sound.mem_order.1 known)).symm
  nothingElse key consulted := by
    rw [consults_iff sound hd hfeed h] at consulted
    obtain ⟨producer, needed, field, rfl⟩ := Order.exists_producer consulted
    exact ⟨producer, (sound.mem_dependencies hd hfeed).2 needed, field, rfl⟩
  enough store' same := by
    apply (reads_gather sound.linked hd hfeed months).agree ?_ h
    intro key read
    exact same key ((consults_iff sound hd hfeed h).2 read)

theorem turn (sound : p.Sound) (hd : d ∈ p.model.definitions) (hfeed : (output, feed) ∈ d.feedTable)
    (cut : p.order.order = before ++ output :: after)
    (h : (before.foldlM (step p.model p.symbols c) start).outcome = .ok r) :
    Turn p c d output before r := by
  have earlier := sound.sorts.behind before output after cut
  have ahead : before <+: p.order.order := cut ▸ List.prefix_append _ _
  have reached := reached_of_steps sound ahead h
  refine ⟨earlier, reached.computed, ?_⟩
  rw [gather_eq sound.linked hd hfeed]
  have inside : ∀ i ∈ feed, i < d.arguments.length :=
    fun i hi => lt_of_mem_feeds (List.of_mem_zip hfeed).2 hi
  rcases Store.found_inputs reached.lengths inside (sound.linked.resolved d hd) with
    ⟨inputs, found, -⟩ | ⟨fault, key, failed, missing, read, absent⟩
  · exact .inl ⟨inputs, found⟩
  · obtain ⟨producer, needed, field, rfl⟩ := Order.exists_producer read
    have depends := (sound.mem_dependencies hd hfeed).2 needed
    refine .inr ⟨fault, failed, producer, depends, earlier producer depends, field, ?_, missing⟩
    intro stored
    rw [reached.keys] at absent
    exact absent (List.mem_flatMap.2
      ⟨producer, earlier producer depends, List.mem_map_of_mem stored⟩)

/-- A run that fails for want of an entry fails at the turn of an output, unless a function of the
registry fails so itself. -/
theorem execute_missing (sound : p.Sound) (h : (execute p c).outcome = .error fault)
    (missing : fault.missingKey? = some key) :
    (∃ before output after r, p.order.order = before ++ output :: after ∧
      (before.foldlM (step p.model p.symbols c) start).outcome = .ok r ∧
        ∃ d ∈ p.model.definitions, output ∈ d.outputNames ∧
          gather p.symbols d c.months r.store output = .error fault ∧
            MissesChannel p before r output fault) ∨
      ∃ function ∈ c.registry.map (·.2), ∃ task, function task = .error fault := by
  simp only [execute, Logged.outcome_bind, bind_eq_error] at h
  rcases h with h | ⟨r, -, h⟩
  · rw [Logged.outcome_foldlM] at h
    obtain ⟨before, output, after, r, cut, steps, failed⟩ := foldlM_eq_error h
    rw [← Logged.outcome_foldlM] at steps
    have known : output ∈ p.order.order := by simp [cut]
    obtain ⟨d, hd, feed, hfeed⟩ := sound.exists_feed known
    simp only [outcome_step, stores_eq sound hd hfeed, bind_eq_error, pure_ne_error, and_false,
      exists_false, or_false] at failed
    rcases failed with failed | ⟨inputs, -, failed | ⟨_, -, failed⟩⟩
    · have mem : output ∈ d.outputNames := by
        rw [← d.keys_feedTable]
        exact List.mem_map_of_mem hfeed
      have here := turn sound hd hfeed cut steps
      rcases here.gathers with ⟨inputs, gathered⟩ | ⟨fault', failed', misses⟩
      · rw [gathered] at failed
        cases failed
      · rw [failed'] at failed
        cases failed
        exact .inl ⟨before, output, after, r, cut, steps, d, hd, mem, failed', misses⟩
    · exact .inr (answer_error failed missing)
    · rw [missingKey?_overridden failed] at missing
      cases missing
  · rcases h with h | ⟨_, -, h⟩
    · obtain ⟨_, -, rfl⟩ := mapError_eq_error.1 h
      cases missing
    · cases h

/-- What the order records as dependencies is what the inputs of an output are read from, in every
store that has them. So nothing can be missing in a run but a channel that a dependency was computed
without, unless a function of the registry fails so itself. -/
theorem inputs_read_dependencies {text : String} (plan : Plan.ofSource text = .ok p) :
    (∀ d ∈ p.model.definitions, ∀ output ∈ d.outputNames,
      (∀ a ∈ d.arguments, p.symbols.Resolves a) ∧
      (∀ months store inputs, gather p.symbols d months store output = .ok inputs →
        ReadsDependencies p d output months store inputs) ∧
      ∀ c before after r, p.order.order = before ++ output :: after →
        (before.foldlM (step p.model p.symbols c) start).outcome = .ok r →
          Turn p c d output before r) ∧
    ∀ c fault key, (execute p c).outcome = .error fault → fault.missingKey? = some key →
      (∃ before output after r, p.order.order = before ++ output :: after ∧
        (before.foldlM (step p.model p.symbols c) start).outcome = .ok r ∧
          ∃ d ∈ p.model.definitions, output ∈ d.outputNames ∧
            gather p.symbols d c.months r.store output = .error fault ∧
              MissesChannel p before r output fault) ∨
        ∃ function ∈ c.registry.map (·.2), ∃ task, function task = .error fault := by
  have sound := Plan.sound_of_ofSource plan
  refine ⟨?_, fun c fault key => execute_missing sound⟩
  intro d hd output mem
  obtain ⟨feed, hfeed⟩ := Definition.exists_feed mem
  refine ⟨sound.linked.resolved d hd, ?_, ?_⟩
  · exact fun months store inputs gathered => readsDependencies sound hd hfeed gathered
  · exact fun c before after r cut steps => turn sound hd hfeed cut steps

def strayReader : String :=
  "S:\nA = Sum(7)\nB = Sum(A.other)"

/-- Every object has zeros in its only channel. -/
def onlyZeros : Conditions where
  schema := [("Sum", ⟨none, [("val", ⟨none, none, [], false⟩)], [], []⟩)]
  months := 2
  assumptions := []
  overrides := []
  registry := [("Sum", fun t => .ok (.ofCells [("val", .series (Series.zeros t.months))]))]

theorem missing_of_strayReader : ∃ p fault, Plan.ofSource strayReader = .ok p ∧
    (execute p onlyZeros).outcome = .error fault ∧ fault.missingKey? = some "A.other" ∧
      ∃ before output r, MissesChannel p before r output fault := by
  have outcome : (Plan.ofSource strayReader).toOption.map (fun p =>
      match (execute p onlyZeros).outcome with
      | .ok _ => none
      | .error fault => fault.missingKey?) = some (some "A.other") := by decide +kernel
  cases plan : Plan.ofSource strayReader with
  | error fault => simp [plan, Except.toOption] at outcome
  | ok p =>
    rw [plan] at outcome
    cases run : (execute p onlyZeros).outcome with
    | ok r => simp [run, Except.toOption] at outcome
    | error fault =>
      have missing : fault.missingKey? = some "A.other" := by
        simpa [run, Except.toOption] using outcome
      refine ⟨p, fault, rfl, run, missing, ?_⟩
      rcases (inputs_read_dependencies plan).2 onlyZeros fault _ run missing with
        ⟨before, output, _, r, -, -, _, -, -, -, misses⟩ | ⟨function, mem, task, failed⟩
      · exact ⟨before, output, r, misses⟩
      · cases List.mem_singleton.1 mem
        cases failed

end Run
end Forecast

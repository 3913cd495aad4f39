import Forecast.Proofs.Run.Stored

/-!
# What a run has reached

A run computes the outputs in order, each from the store that the earlier ones
have left, and only adds entries. So what an output has stored is also what it
would store in the end. `Reached` collects what holds once some outputs are
computed; every step keeps it.
-/

namespace Forecast

open Outcome

/-- The channels that an output has stored. -/
def Results.channelsOf (r : Results) (output : String) : List String :=
  (r.channels.lookup output).getD []

namespace Run

variable {c : Conditions} {p : Plan} {output : String} {answered : List String}
  {stored : Entries (Series Float)} {before after : List String} {r r' : Results}

/-- An output has stored what it stores if its inputs are read from the store as it is. -/
def Computed (p : Plan) (c : Conditions) (r : Results) (output : String) : Prop :=
  ∃ answered stored, stores p.model p.symbols c r.store output = .ok (answered, stored) ∧
    r.answered.lookup output = some answered ∧ r.channels.lookup output = some stored.keys ∧
    ∀ e ∈ stored, r.store.lookup (storeKey output e.1) = some e.2

/-- What the results say once some outputs are computed. -/
structure Reached (p : Plan) (c : Conditions) (before : List String) (r : Results) : Prop where
  answered : r.answered.keys = before
  channels : r.channels.keys = before
  distinct : r.store.keys.Nodup
  keys : r.store.keys = before.flatMap fun o => (r.channelsOf o).map (storeKey o)
  lengths : ∀ e ∈ r.store, e.2.length = c.months
  computed : ∀ o ∈ before, Computed p c r o

theorem reached_start (p : Plan) (c : Conditions) : Reached p c [] start where
  answered := rfl
  channels := rfl
  distinct := List.nodup_nil
  keys := rfl
  lengths := by simp [start]
  computed := by simp

def entriesOf (output : String) (stored : Entries (Series Float)) : Store :=
  stored.map fun e => (storeKey output e.1, e.2)

@[simp] theorem keys_entriesOf (output : String) (stored : Entries (Series Float)) :
    (entriesOf output stored).keys = stored.keys.map (storeKey output) := by
  simp [entriesOf, Entries.keys]

theorem nodup_storeKeys {names : List String} (name : IsName output) (h : names.Nodup) :
    (names.map (storeKey output)).Nodup :=
  h.map fun _ _ same => (storeKey_inj name name same).2

theorem fresh_of_ahead (sound : p.Sound) (ahead : before ++ [output] <+: p.order.order) :
    output ∉ before := by
  have once := sound.sorts.once.sublist ahead.sublist
  exact fun mem => (List.nodup_append.1 once).2.2 output mem output (by simp) rfl

theorem nodup_record (sound : p.Sound) (ahead : before ++ [output] <+: p.order.order)
    (reached : Reached p c before r) (distinct : stored.keys.Nodup) :
    (Entries.keys (r.store ++ entriesOf output stored)).Nodup := by
  have names : ∀ o ∈ before ++ [output], IsName o := fun o ho => sound.isName (ahead.subset ho)
  rw [Entries.keys_append, List.nodup_append, keys_entriesOf]
  refine ⟨reached.distinct, nodup_storeKeys (names output (by simp)) distinct, ?_⟩
  intro key old key' new same
  rw [reached.keys, List.mem_flatMap] at old
  obtain ⟨o, ho, old⟩ := old
  obtain ⟨channel, -, rfl⟩ := List.mem_map.1 old
  obtain ⟨channel', -, rfl⟩ := List.mem_map.1 new
  have owner := (storeKey_inj (names o (by simp [ho])) (names output (by simp)) same).1
  exact fresh_of_ahead sound ahead (owner ▸ ho)

theorem store_record (h : (Entries.keys (r.store ++ entriesOf output stored)).Nodup) :
    (record r output answered stored).store = r.store ++ entriesOf output stored := by
  rw [← Entries.foldl_put_of_nodup h, entriesOf, List.foldl_map]
  rfl

theorem channelsOf_record (o : String) :
    (record r output answered stored).channelsOf o =
      if o = output then stored.keys else r.channelsOf o := by
  simp only [Results.channelsOf, record, Entries.lookup_put]
  split <;> rfl

/-- An output that is computed stays so when the store grows and the rest about it stays. -/
theorem Computed.mono {o : String} (sound : p.Sound) (known : o ∈ p.order.order)
    (computed : Computed p c r o) (more : r'.store.Extends r.store)
    (answered : r'.answered.lookup o = r.answered.lookup o)
    (channels : r'.channels.lookup o = r.channels.lookup o) : Computed p c r' o := by
  obtain ⟨names, stored, gives, hnames, hchannels, entries⟩ := computed
  refine ⟨names, stored, stores_extend sound known gives more, ?_, ?_, ?_⟩
  · rw [answered, hnames]
  · rw [channels, hchannels]
  · exact fun e he => more _ _ (entries e he)

/-- A step adds the entries of its output and keeps all others. -/
theorem Reached.step_store (sound : p.Sound) (ahead : before ++ [output] <+: p.order.order)
    (reached : Reached p c before r)
    (h : (Run.step p.model p.symbols c r output).outcome = .ok r') :
    ∃ answered stored, stores p.model p.symbols c r.store output = .ok (answered, stored) ∧
      r' = record r output answered stored ∧ r'.store = r.store ++ entriesOf output stored ∧
      r'.store.keys.Nodup := by
  simp only [outcome_step, bind_eq_ok, pure_eq_ok] at h
  obtain ⟨⟨answered, stored⟩, gives, rfl⟩ := h
  have distinct := (stores_ok sound (ahead.subset (by simp)) gives).1
  have nodup := nodup_record sound ahead reached distinct
  have store : (record r output answered stored).store = r.store ++ entriesOf output stored :=
    store_record nodup
  exact ⟨answered, stored, gives, rfl, store, by rwa [store]⟩

/-- A step that succeeds goes from what holds of some outputs to what holds of one more. -/
theorem Reached.step (sound : p.Sound) (ahead : before ++ [output] <+: p.order.order)
    (reached : Reached p c before r)
    (h : (Run.step p.model p.symbols c r output).outcome = .ok r') :
    Reached p c (before ++ [output]) r' := by
  obtain ⟨answered, stored, gives, rfl, store, nodup⟩ := reached.step_store sound ahead h
  have fresh := fresh_of_ahead sound ahead
  have here : output ∈ p.order.order := ahead.subset (by simp)
  have lengths := (stores_ok sound here gives).2
  have more : (record r output answered stored).store.Extends r.store := by
    rw [store]
    exact Store.Extends.append _ _
  have others : ∀ o ∈ before, o ≠ output := fun o ho eq => fresh (eq ▸ ho)
  refine
    { answered := ?_
      channels := ?_
      distinct := nodup
      keys := ?_
      lengths := ?_
      computed := ?_ }
  · simp [record, Entries.keys_put, reached.answered, fresh]
  · simp [record, Entries.keys_put, reached.channels, fresh]
  · rw [store, Entries.keys_append, reached.keys, keys_entriesOf, List.flatMap_append]
    congr 1
    · apply List.flatMap_congr
      intro o ho
      rw [channelsOf_record, if_neg (others o ho)]
    · simp [channelsOf_record]
  · intro e he
    rw [store, List.mem_append] at he
    rcases he with he | he
    · exact reached.lengths e he
    · obtain ⟨e', he', rfl⟩ := List.mem_map.1 he
      exact lengths e' he'
  · intro o ho
    rcases List.mem_append.1 ho with old | new
    · refine (reached.computed o old).mono sound (ahead.subset ho) more ?_ ?_ <;>
        rw [record, Entries.lookup_put, if_neg (others o old)]
    · cases List.mem_singleton.1 new
      refine ⟨answered, stored, stores_extend sound here gives more, ?_, ?_, ?_⟩
      · rw [record, Entries.lookup_put, if_pos rfl]
      · rw [record, Entries.lookup_put, if_pos rfl]
      · intro e he
        have mem : (storeKey output e.1, e.2) ∈ r.store ++ entriesOf output stored :=
          List.mem_append_right _ (List.mem_map.2 ⟨e, he, rfl⟩)
        rw [← store] at mem
        exact Entries.lookup_of_mem nodup mem

theorem Reached.keeps (sound : p.Sound) (Q : Results → Prop)
    (step : ∀ {before : List String} {output : String} {r r' : Results},
      before ++ [output] <+: p.order.order → Reached p c before r →
        (Run.step p.model p.symbols c r output).outcome = .ok r' → Q r → Q r')
    (ahead : before ++ after <+: p.order.order) (reached : Reached p c before r)
    (h : (after.foldlM (Run.step p.model p.symbols c) r).outcome = .ok r') (holds : Q r) :
    Reached p c (before ++ after) r' ∧ Q r' := by
  induction after generalizing before r with
  | nil =>
    cases h
    rw [List.append_nil]
    exact ⟨reached, holds⟩
  | cons output after ih =>
    rw [List.foldlM_cons, Logged.outcome_bind, bind_eq_ok] at h
    obtain ⟨next, hnext, h⟩ := h
    have cut : before ++ output :: after = before ++ [output] ++ after := by simp
    rw [cut] at ahead ⊢
    have first := (List.prefix_append (before ++ [output]) after).trans ahead
    exact ih ahead (reached.step sound first hnext) h (step first reached hnext holds)

theorem reached_of_steps (sound : p.Sound) (ahead : before <+: p.order.order)
    (h : (before.foldlM (step p.model p.symbols c) start).outcome = .ok r) :
    Reached p c before r := by
  have ahead : [] ++ before <+: p.order.order := ahead
  exact ((reached_start p c).keeps sound (fun _ => True) (fun _ _ _ _ => trivial) ahead h trivial).1

end Run
end Forecast

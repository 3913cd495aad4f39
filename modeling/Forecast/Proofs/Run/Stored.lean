import Forecast.Proofs.Plan
import Forecast.Proofs.Run.Channels
import Forecast.Proofs.Run.Reads

/-!
# What is stored

`stores` says what an output stores if its inputs are read from a given store:
the channels of its function's answer after the overrides, each with an amount
for every month. It depends on the store only through the entries that feed the
output, and a step of a run records it.
-/

namespace Forecast

open Outcome

namespace Store

variable {α : Type} {f : Store → Except Fault α} {keys : List String}

/-- A store with at least the entries of another. -/
def Extends (store' store : Store) : Prop :=
  ∀ key xs, store.lookup key = some xs → store'.lookup key = some xs

theorem Extends.append (store new : Store) : Extends (store ++ new) store := by
  intro key xs h
  rw [List.lookup_append, h, Option.some_or]

theorem Reads.mem_keys (hf : Reads f keys) {store : Store} {a : α} (h : f store = .ok a)
    {key : String} (mem : key ∈ keys) : key ∈ store.keys := by
  by_contra absent
  obtain ⟨fault, failed, -⟩ := hf.missing mem h
  have same : Agree keys store (store.without key) := by
    intro other _
    rw [lookup_without]
    split
    · rename_i eq
      rw [eq, Entries.lookup_eq_none.2 absent]
    · rfl
  rw [hf.agree same h] at failed
  cases failed

theorem Reads.extend (hf : Reads f keys) {store store' : Store} {a : α} (h : f store = .ok a)
    (more : Extends store' store) : f store' = .ok a := by
  apply hf.agree ?_ h
  intro key mem
  have known := hf.mem_keys h mem
  obtain ⟨xs, hxs⟩ := Entries.exists_lookup known
  rw [hxs, more key xs hxs]

end Store

namespace Overrides

variable {o : Overrides} {output channel : String} {xs ys : Series Float}

theorem length_applyOne {change : Value × Value}
    (h : (applyOne output channel xs change).outcome = .ok ys) : ys.length = xs.length := by
  simp only [applyOne, Logged.outcome_bind, bind_eq_ok] at h
  obtain ⟨month, -, h⟩ := h
  split at h
  · simp only [Logged.outcome_bind, bind_eq_ok] at h
    obtain ⟨-, -, h⟩ := h
    cases h
    rfl
  · simp only [Logged.outcome_bind, bind_eq_ok] at h
    obtain ⟨x, -, h⟩ := h
    cases h
    simp

theorem length_apply (h : (o.apply output channel xs).outcome = .ok ys) :
    ys.length = xs.length := by
  rw [Overrides.apply, Logged.outcome_foldlM] at h
  refine foldlM_keeps (fun zs : Series Float => zs.length = xs.length) ?_ h rfl
  intro change _ us vs hus hvs
  rw [length_applyOne hvs, hus]

end Overrides

namespace Run

def overridden (c : Conditions) (output : String) (channels : Entries (Series Float)) :
    Except Fault (Entries (Series Float)) :=
  channels.mapM fun e => do
    let ys ← (c.overrides.apply output e.1 e.2).outcome
    return (e.1, ys)

/-- The names that the function of an output answers, and what the output stores, if its inputs are
read from a store. -/
def stores (m : Model) (s : Symbols) (c : Conditions) (store : Store) (output : String) :
    Except Fault (List String × Entries (Series Float)) := do
  let (answered, channels) ← compute m s c store output
  let stored ← overridden c output channels
  return (answered, stored)

def record (r : Results) (output : String) (answered : List String)
    (stored : Entries (Series Float)) : Results where
  store := stored.foldl (fun store e => store.put (storeKey output e.1) e.2) r.store
  answered := r.answered.put output answered
  channels := r.channels.put output stored.keys

variable {m : Model} {s : Symbols} {c : Conditions} {p : Plan} {output : String}
  {answered : List String} {stored channels : Entries (Series Float)} {before after : List String}
  {r r' : Results} {store : Store}

theorem overridden_ok (h : overridden c output channels = .ok stored) :
    stored.keys = channels.keys ∧
      ∀ e ∈ stored, ∃ e' ∈ channels, e.1 = e'.1 ∧ e.2.length = e'.2.length := by
  have each : ∀ (e e' : String × Series Float),
      (do let ys ← (c.overrides.apply output e.1 e.2).outcome; return (e.1, ys)) = .ok e' →
        e'.1 = e.1 ∧ e'.2.length = e.2.length := by
    intro e e' he
    simp only [bind_eq_ok, pure_eq_ok] at he
    obtain ⟨ys, hys, rfl⟩ := he
    exact ⟨rfl, Overrides.length_apply hys⟩
  constructor
  · exact map_of_mapM (·.1) (·.1) (fun e e' he => (each e e' he).1) h
  · intro e' he'
    obtain ⟨e, mem, he⟩ := exists_of_mem_mapM h he'
    exact ⟨e, mem, each e e' he⟩

theorem foldlM_storeChannel (o : Overrides) (output : String) (channels : Entries (Series Float))
    (store : Store) :
    (channels.foldlM (storeChannel o output) store).outcome =
      (do
        let stored ← channels.mapM fun e => do
          let ys ← (o.apply output e.1 e.2).outcome
          return (e.1, ys)
        return stored.foldl (fun store e => store.put (storeKey output e.1) e.2) store) := by
  rw [Logged.outcome_foldlM]
  induction channels generalizing store with
  | nil => rfl
  | cons e channels ih =>
    simp only [List.foldlM_cons, List.mapM_cons, storeChannel, Logged.outcome_bind,
      Logged.outcome_pure]
    cases (o.apply output e.1 e.2).outcome with
    | error fault => rfl
    | ok ys =>
      have rest := ih (store.put (storeKey output e.1) ys)
      simp only [storeChannel, Logged.outcome_bind, Logged.outcome_pure] at rest
      simp only [ok_bind, pure_bind, rest, bind_assoc, List.foldl_cons]

theorem outcome_step :
    (step m s c r output).outcome =
      (do
        let (answered, stored) ← stores m s c r.store output
        return record r output answered stored) := by
  simp only [step, Logged.outcome_bind, Logged.outcome_lift, stores, bind_assoc]
  refine bind_congr fun ⟨answered, channels⟩ => ?_
  simp only [foldlM_storeChannel, Logged.outcome_pure, bind_assoc, pure_bind]
  cases h : overridden c output channels with
  | error fault =>
    rw [overridden] at h
    rw [h]
    rfl
  | ok stored =>
    have keys := (overridden_ok h).1
    rw [overridden] at h
    rw [h]
    simp only [ok_bind, record, keys]
    rfl

theorem typeOf_ok {schema : Schema} {d : Definition} {t : ObjectType}
    (h : typeOf schema output d = .ok t) :
    schema.lookup d.kind = some t := by
  unfold typeOf at h
  split at h
  · split at h
    · cases h
    · cases h
      assumption
  · cases h

theorem answer_ok {d : Definition} {inputs : List (Series Float)}
    (h : answer c d output inputs = .ok (answered, channels)) :
    channels.keys.Nodup ∧ ∀ e ∈ channels, e.2.length = c.months := by
  simp only [answer, bind_eq_ok] at h
  obtain ⟨t, -, function, -, reply, -, h⟩ := h
  cases reply with
  | other => simp [throw, throwThe, MonadExceptOf.throw] at h
  | channels cells distinct =>
    simp only [bind_eq_ok, pure_eq_ok] at h
    obtain ⟨channels, selected, eq⟩ := h
    cases eq
    exact selectChannels_ok distinct selected

theorem stores_eq (sound : p.Sound) {d : Definition} {feed : List Nat}
    (hd : d ∈ p.model.definitions) (h : (output, feed) ∈ d.feedTable) :
    stores p.model p.symbols c store output =
      gather p.symbols d c.months store output >>= fun inputs => do
        let (answered, channels) ← answer c d output inputs
        let stored ← overridden c output channels
        return (answered, stored) := by
  simp only [stores, sound.compute_eq hd h, bind_assoc]

theorem stores_ok (sound : p.Sound) (known : output ∈ p.order.order)
    (h : stores p.model p.symbols c store output = .ok (answered, stored)) :
    stored.keys.Nodup ∧ ∀ e ∈ stored, e.2.length = c.months := by
  obtain ⟨d, hd, feed, hfeed⟩ := sound.exists_feed known
  simp only [stores_eq sound hd hfeed, bind_eq_ok, pure_eq_ok] at h
  obtain ⟨inputs, -, ⟨answered, channels⟩, answers, stored, overrides, eq⟩ := h
  cases eq
  obtain ⟨distinct, lengths⟩ := answer_ok answers
  obtain ⟨keys, entries⟩ := overridden_ok overrides
  refine ⟨keys ▸ distinct, ?_⟩
  intro e he
  obtain ⟨e', he', -, length⟩ := entries e he
  rw [length, lengths e' he']

/-- What an output stores depends on the store only through what feeds it. -/
theorem reads_stores (sound : p.Sound) {d : Definition} {feed : List Nat}
    (hd : d ∈ p.model.definitions) (h : (output, feed) ∈ d.feedTable) (c : Conditions) :
    Store.Reads (fun store => stores p.model p.symbols c store output)
      (p.symbols.keysAt d feed) := by
  have gathered := (reads_gather sound.linked hd h c.months).bind fun inputs =>
    Store.Reads.const (do
      let (answered, channels) ← answer c d output inputs
      let stored ← overridden c output channels
      return (answered, stored))
  rw [List.append_nil] at gathered
  simp only [stores_eq sound hd h]
  exact gathered

theorem stores_extend (sound : p.Sound) (known : output ∈ p.order.order) {store' : Store}
    (h : stores p.model p.symbols c store output = .ok (answered, stored))
    (more : store'.Extends store) :
    stores p.model p.symbols c store' output = .ok (answered, stored) := by
  obtain ⟨d, hd, feed, hfeed⟩ := sound.exists_feed known
  exact (reads_stores sound hd hfeed c).extend h more

end Run
end Forecast

import Forecast.Proofs.Compute.Library
import Forecast.Proofs.Run.Stored
import Forecast.Schema.Standard

/-!
# What outputs of standard types store

Each standard type declares just the channels that its function answers, or a
single channel if the function answers under the name of the output. In both
cases an output stores the declared channels, whatever its name is.
-/

namespace Forecast

open Outcome

/-- Whether the names that a function answers give the declared channels: they are these, or there
is one channel for what is answered under the name of the output. -/
def FitsChannels (declared : List String) : Option (List String) → Prop
  | some names => names.Nodup ∧ names.Perm declared
  | none => declared.length = 1

instance (declared : List String) (names : Option (List String)) :
    Decidable (FitsChannels declared names) :=
  match names with
  | some names => inferInstanceAs (Decidable (names.Nodup ∧ names.Perm declared))
  | none => inferInstanceAs (Decidable (declared.length = 1))

theorem FitsChannels.nodup {declared : List String} {names : Option (List String)}
    (fits : FitsChannels declared names) (output : String) : (names.getD [output]).Nodup := by
  cases names with
  | some names => exact fits.1
  | none => exact List.nodup_singleton output

section

variable {es : Entries (Series Float)} {declared : List String} {months : Nat}
  {output place : String}

theorem declaredChannels_series (lengths : ∀ e ∈ es, e.2.length = months) :
    declaredChannels (es.mapValues .series) declared output place months =
      .ok (es.filter fun e => declared.contains e.1) := by
  unfold declaredChannels Entries.mapValues
  rw [List.filter_map, List.mapM_map]
  apply mapM_eq_ok.2
  apply List.forall₂_same.2
  intro e he
  have length := lengths e (List.mem_of_mem_filter he)
  simp [Cell.toSeries_series length]

theorem FitsChannels.any {names : List String} (fits : FitsChannels declared (some names))
    (nonempty : declared ≠ []) (keys : es.keys = names) :
    (es.mapValues Cell.series).any (fun e => declared.contains e.1) = true := by
  obtain ⟨channel, hchannel⟩ := List.exists_mem_of_ne_nil _ nonempty
  have answered : channel ∈ (es.mapValues Cell.series).keys := by
    rw [Entries.keys_mapValues, keys]
    exact fits.2.symm.subset hchannel
  obtain ⟨e, he, rfl⟩ := List.mem_map.1 answered
  exact List.any_eq_true.2 ⟨e, he, List.contains_iff_mem.2 hchannel⟩

/-- A series under the name of the output is taken for the only channel, whether or not the output
is called like it. -/
theorem exists_selectChannels_own (xs : Series Float) (channel output object kind : String)
    (months : Nat) :
    ∃ name,
      selectChannels (Entries.mapValues .series [(output, xs)]) [channel] output object kind
        months =
      (do
        let ys ← (Cell.series xs).toSeries months output (object ++ "." ++ output) name
        return [(channel, ys)]) := by
  by_cases own : output = channel
  · subst own
    refine ⟨some output, ?_⟩
    simp [selectChannels, declaredChannels, Entries.mapValues]
  · have other : ¬(Entries.mapValues Cell.series [(output, xs)]).any
        (fun e => [channel].contains e.1) = true := by simp [Entries.mapValues, own]
    have cell : unnamedCell? (Entries.mapValues Cell.series [(output, xs)]) output =
        some (.series xs) := by
      simp only [unnamedCell?, Entries.mapValues, List.map_cons, List.map_nil, List.lookup_cons,
        beq_self_eq_true]
      rfl
    exact ⟨none, by simp only [selectChannels, if_neg other, cell]⟩

/-- The names that fit the declared channels are stored as these. -/
theorem exists_selectChannels {names : Option (List String)} (fits : FitsChannels declared names)
    (nonempty : declared ≠ []) (keys : es.keys = names.getD [output])
    (lengths : ∀ e ∈ es, e.2.length = months) (object kind : String) :
    ∃ channels,
      selectChannels (es.mapValues .series) declared output object kind months = .ok channels ∧
        channels.keys.Perm declared := by
  cases names with
  | some names =>
    have any := fits.any nonempty keys
    obtain ⟨-, perm⟩ := fits
    have all : es.filter (fun e => declared.contains e.1) = es := by
      rw [List.filter_eq_self]
      intro e he
      have answered : e.1 ∈ es.keys := List.mem_map_of_mem he
      rw [keys, Option.getD_some] at answered
      exact List.contains_iff_mem.2 (perm.subset answered)
    simp only [selectChannels, if_pos any, declaredChannels_series lengths, all]
    exact ⟨es, rfl, by rwa [keys]⟩
  | none =>
    obtain ⟨channel, rfl⟩ := List.length_eq_one_iff.1 fits
    obtain ⟨⟨name, xs⟩, rfl, same⟩ := List.map_eq_singleton_iff.1 keys
    change name = output at same
    subst same
    have length : xs.length = months := lengths _ (List.mem_singleton_self _)
    obtain ⟨place, selected⟩ := exists_selectChannels_own xs channel name object kind months
    exact ⟨[(channel, xs)], by rw [selected, Cell.toSeries_series length]; rfl, .refl _⟩

end

theorem Schema.standard_fits : ∀ e ∈ Schema.standard, e.2.channels.keys ≠ [] ∧
    ∃ f ∈ Compute.answered, f.1 = e.2.functionName e.1 ∧ FitsChannels e.2.channels.keys f.2 := by
  decide +kernel

namespace Run

variable {c : Conditions} {d : Definition} {output : String} {t : ObjectType}
  {inputs : List (Series Float)}

def taskOf (c : Conditions) (d : Definition) (output : String) (inputs : List (Series Float)) :
    Task Float :=
  ⟨c.months, inputs, c.assumptions.settings d.name output, output⟩

theorem answer_standard (schema : c.schema = Schema.standard)
    (registry : c.registry = Registry.standard)
    (known : Schema.standard.lookup d.kind = some t) {function : Computation Float}
    (nonempty : t.channels.keys ≠ [])
    (found : Compute.library.lookup (t.functionName d.kind) = some function) :
    answer c d output inputs = do
      let es ← function (taskOf c d output inputs)
      let cells := Entries.ofList (es.mapValues Cell.series)
      let channels ← selectChannels cells t.channels.keys output d.name d.kind c.months
      return (cells.keys, channels) := by
  have nonemptyChannels : t.channels.isEmpty = false := by
    cases h : t.channels with
    | nil => simp [h, Entries.keys] at nonempty
    | cons e es => rfl
  have type : typeOf c.schema output d = .ok t := by
    simp [typeOf, schema, known, nonemptyChannels]
  have named : functionOf c.registry t output d = .ok (Registry.ofComputation function) := by
    simp only [functionOf, registry, Registry.standard, Entries.lookup_mapValues, found,
      Option.map_some]
  unfold answer
  rw [type]
  change ((functionOf c.registry t output d).mapError Fault.run >>= fun _ => _) = _
  rw [named]
  change (function (taskOf c d output inputs) >>= fun es => _) >>= _ = _
  rw [bind_assoc]
  rfl

theorem exists_answer (schema : c.schema = Schema.standard)
    (registry : c.registry = Registry.standard)
    (known : Schema.standard.lookup d.kind = some t)
    (finite : (c.assumptions.settings d.name output).Finite)
    (fits : ∀ xs ∈ inputs, xs.length = c.months) :
    ∃ answered channels, answer c d output inputs = .ok (answered, channels) ∧
      channels.keys.Perm t.channels.keys := by
  obtain ⟨nonempty, f, hf, name, names⟩ := Schema.standard_fits _ (Entries.mem_of_lookup known)
  obtain ⟨function, found, answers⟩ := Compute.exists_answers hf
  obtain ⟨es, hes, keys, lengths⟩ := answers (taskOf c d output inputs) ⟨fits, finite⟩
  have distinct : (es.mapValues Cell.series).keys.Nodup := by
    rw [Entries.keys_mapValues, keys]
    exact names.nodup output
  obtain ⟨channels, selected, perm⟩ :=
    exists_selectChannels names nonempty keys lengths d.name d.kind
  refine ⟨(es.mapValues Cell.series).keys, channels, ?_, perm⟩
  rw [answer_standard schema registry known nonempty (name ▸ found), hes, ok_bind]
  simp only [Entries.ofList_of_nodup distinct]
  exact bind_eq_ok.2 ⟨channels, selected, rfl⟩

end Run

end Forecast

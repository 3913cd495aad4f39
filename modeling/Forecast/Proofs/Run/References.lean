import Forecast.Proofs.Run.Totals

/-!
# What references name

A reference names an object or an output, and so belongs to one definition,
which all outputs that it reads belong to. Every argument feeds some output; so
a run can only succeed if each reference asks for a channel that the type of
this definition declares.
-/

namespace Forecast

open Outcome

namespace Definition

variable {d : Definition} {i : Nat}

theorem exists_feed_of_argument (h : i < d.arguments.length) :
    ∃ output ∈ d.outputNames, ∃ feed, (output, feed) ∈ d.feedTable ∧ i ∈ feed := by
  have some_output : 0 < d.outputNames.length := List.length_pos_iff.2 d.outputNames_ne_nil
  obtain ⟨k, hk, feed, found, mem⟩ := exists_mem_feeds h some_output
  refine ⟨d.outputNames[k], List.getElem_mem hk, feed, ?_, mem⟩
  apply List.mem_of_getElem? (i := k)
  rw [feedTable, List.getElem?_zip_eq_some]
  exact ⟨List.getElem?_eq_getElem hk, found⟩

/-- A name belongs to a definition: it is that of the object, or of one of its outputs. -/
def Bears (d : Definition) (name : String) : Prop :=
  name = d.name ∨ name ∈ d.outputNames

end Definition

namespace Linked

variable {m : Model} {s : Symbols} {d : Definition} {name field raw output : String}
  {spreadOf : Option String}

theorem mem_outputNames_of_producers (linked : Linked m s) (hd : d ∈ m.definitions)
    (bears : d.Bears name) (h : output ∈ s.producers (.reference name field raw spreadOf)) :
    output ∈ d.outputNames := by
  simp only [Symbols.producers] at h
  split at h
  · rename_i known
    cases List.mem_singleton.1 h
    rcases bears with rfl | mem
    · obtain ⟨e, he, mem⟩ := linked.exists_owner (Entries.has_iff.1 known)
      have same := linked.eq_of_name_eq hd he (linked.shared e he d hd mem)
      subst same
      exact mem
    · exact mem
  · rename_i unknown
    rcases bears with rfl | mem
    · rwa [linked.outputsOf hd] at h
    · exact absurd (Entries.has_iff.2 (linked.mem_outputOrder hd mem)) unknown

theorem exists_bearer (linked : Linked m s)
    (resolved : s.Resolves (.reference name field raw spreadOf)) :
    ∃ d ∈ m.definitions, d.Bears name ∧
      ∃ output ∈ d.outputNames, output ∈ s.producers (.reference name field raw spreadOf) := by
  simp only [Symbols.producers]
  split
  · rename_i known
    obtain ⟨d, hd, mem⟩ := linked.exists_owner (Entries.has_iff.1 known)
    exact ⟨d, hd, .inr mem, name, mem, by simp⟩
  · rename_i unknown
    have object : name ∈ s.objects.keys := by
      have has : s.has name = true := resolved
      simpa [Symbols.has, unknown, Entries.has_iff] using has
    rw [linked.objects] at object
    obtain ⟨d, hd, rfl⟩ := List.mem_map.1 object
    obtain ⟨output, mem⟩ := List.exists_mem_of_ne_nil _ d.outputNames_ne_nil
    exact ⟨d, hd, .inl rfl, output, mem, by rwa [linked.outputsOf hd]⟩

end Linked

/-- The type of the definition that a name belongs to declares a channel. -/
def Plan.Declares (p : Plan) (schema : Schema) (name channel : String) : Prop :=
  ∃ d ∈ p.model.definitions, d.Bears name ∧
    ∃ t, schema.lookup d.kind = some t ∧ channel ∈ t.channels.keys

instance (d : Definition) (name : String) : Decidable (d.Bears name) :=
  inferInstanceAs (Decidable (_ ∨ _))

instance (p : Plan) (schema : Schema) (name channel : String) :
    Decidable (p.Declares schema name channel) :=
  decidable_of_iff (∃ d ∈ p.model.definitions, d.Bears name ∧
    ∃ t ∈ schema.lookup d.kind, channel ∈ t.channels.keys) Iff.rfl

/-- An argument asks for a declared channel, if it is a reference. -/
def Plan.Grants (p : Plan) (schema : Schema) : Argument → Prop
  | .reference name channel _ _ => p.Declares schema name channel
  | _ => True

instance (p : Plan) (schema : Schema) : DecidablePred (p.Grants schema)
  | .reference name channel _ _ => inferInstanceAs (Decidable (p.Declares schema name channel))
  | .spread .. | .number .. | .word _ => .isTrue trivial

/-- Every reference of a model asks for a declared channel. -/
def Plan.AsksForDeclared (p : Plan) (schema : Schema) : Prop :=
  ∀ d ∈ p.model.definitions, ∀ a ∈ d.arguments, p.Grants schema a

instance (p : Plan) (schema : Schema) : Decidable (p.AsksForDeclared schema) :=
  inferInstanceAs (Decidable (∀ d ∈ p.model.definitions, ∀ a ∈ d.arguments, p.Grants schema a))

section

variable {cells : Entries Cell} {declared : List String} {output object kind : String}
  {months : Nat} {channels : Entries (Series Float)}

theorem keys_selectChannels_subset
    (h : selectChannels cells declared output object kind months = .ok channels) :
    channels.keys ⊆ declared := by
  unfold selectChannels at h
  split at h
  · rw [(declaredChannels_ok h).1]
    intro name mem
    exact List.contains_iff_mem.1 (List.mem_filter.1 mem).2
  · split at h
    · cases h
    · simp only [bind_eq_ok, pure_eq_ok] at h
      obtain ⟨xs, -, rfl⟩ := h
      simp [Entries.keys]
    · cases h

end

namespace Run

variable {p : Plan} {c : Conditions} {d : Definition} {output : String} {r : Results}
  {answered : List String} {channels : Entries (Series Float)} {inputs : List (Series Float)}

theorem answer_declared (h : answer c d output inputs = .ok (answered, channels)) :
    ∃ t, c.schema.lookup d.kind = some t ∧ channels.keys ⊆ t.channels.keys := by
  simp only [answer, bind_eq_ok] at h
  obtain ⟨t, type, function, -, reply, -, h⟩ := h
  refine ⟨t, typeOf_ok (mapError_eq_ok.1 type), ?_⟩
  cases reply with
  | other => cases h
  | channels cells distinct =>
    simp only [bind_eq_ok, pure_eq_ok] at h
    obtain ⟨channels, selected, eq⟩ := h
    cases eq
    exact keys_selectChannels_subset selected

theorem Computed.declared (sound : p.Sound) (hd : d ∈ p.model.definitions)
    (mem : output ∈ d.outputNames) (computed : Computed p c r output) :
    ∃ t, c.schema.lookup d.kind = some t ∧ r.channelsOf output ⊆ t.channels.keys := by
  obtain ⟨answered, stored, gives, -, channels, -⟩ := computed
  obtain ⟨feed, hfeed⟩ := Definition.exists_feed mem
  simp only [stores_eq sound hd hfeed, bind_eq_ok, pure_eq_ok] at gives
  obtain ⟨inputs, -, ⟨answered, given⟩, answers, stored, overrides, eq⟩ := gives
  cases eq
  obtain ⟨t, known, declared⟩ := answer_declared answers
  refine ⟨t, known, ?_⟩
  rw [Results.channelsOf, channels, Option.getD_some, (overridden_ok overrides).1]
  exact declared

/-- Every entry that the arguments of an output read is stored by an output that comes with it. -/
theorem Reached.mem_channelsOf {before : List String} (sound : p.Sound)
    (ahead : before ⊆ p.order.order)
    (reached : Reached p c before r) {channel : String} (name : IsName output)
    (h : storeKey output channel ∈ r.store.keys) :
    output ∈ before ∧ channel ∈ r.channelsOf output := by
  rw [reached.keys, List.mem_flatMap] at h
  obtain ⟨o, ho, stored⟩ := h
  obtain ⟨channel', mem, same⟩ := List.mem_map.1 stored
  obtain ⟨rfl, rfl⟩ := storeKey_inj (sound.isName (ahead ho)) name same
  exact ⟨ho, mem⟩

/-- When all outputs are computed, all that references ask for is there, and only the type that the
reference belongs to can have declared it. -/
theorem Reached.declares (sound : p.Sound) (reached : Reached p c p.order.order r)
    (hd : d ∈ p.model.definitions) {name channel raw : String} {spreadOf : Option String}
    (mem : .reference name channel raw spreadOf ∈ d.arguments) :
    p.Declares c.schema name channel := by
  obtain ⟨i, hi, argument⟩ := List.getElem_of_mem mem
  obtain ⟨consumer, hconsumer, feed, hfeed, fed⟩ := Definition.exists_feed_of_argument hi
  obtain ⟨e, he, bears, producer, hproducer, denoted⟩ :=
    sound.linked.exists_bearer (sound.linked.resolved d hd _ mem)
  have read : storeKey producer channel ∈ p.symbols.keysAt d feed :=
    Symbols.mem_keysAt.2 ⟨i, fed, name, channel, raw, spreadOf,
      by rw [List.getElem?_eq_getElem hi, argument], producer, denoted, rfl⟩
  obtain ⟨_, _, gives, -⟩ := reached.computed consumer (sound.ordered hd hconsumer)
  have there := (reads_stores sound hd hfeed c).mem_keys gives read
  have stored := (reached.mem_channelsOf sound (List.Subset.refl _)
    (sound.isName (sound.ordered he hproducer)) there).2
  obtain ⟨t, known, declared⟩ :=
    (reached.computed producer (sound.ordered he hproducer)).declared sound he hproducer
  exact ⟨e, he, bears, t, known, declared stored⟩

theorem asksForDeclared_of_execute (sound : p.Sound) (h : (execute p c).outcome = .ok r) :
    p.AsksForDeclared c.schema := by
  obtain ⟨r₀, -, reached, -, -⟩ := execute_ok sound h
  intro d hd a mem
  cases a with
  | reference name channel raw spreadOf => exact reached.declares sound hd mem
  | _ => trivial

end Run
end Forecast

import Forecast.Proofs.Compute.Cut
import Forecast.Proofs.Run.Totals

/-!
# Runs over fewer months

If no object looks ahead, a run over fewer months computes the first months of
what a run over more months computes. Every step of the shorter run goes from
the cut of what the longer run has reached to the cut of what it reaches next.
-/

namespace Forecast

open Outcome

variable {m : Model} {s : Symbols} {d : Definition} {p : Plan} {c : Conditions} {months n : Nat}
  {output channel place : String} {store sums sums' : Store} {r r' : Results}
  {answered : List String} {channels stored : Entries (Series Float)}

def Store.cut (n : Nat) (store : Store) : Store :=
  store.mapValues (List.take n)

def Results.cut (n : Nat) (r : Results) : Results :=
  { r with store := r.store.cut n }

/-- Every series has an amount for each month, and what the outputs have stored is there. -/
structure Results.Whole (months : Nat) (r : Results) : Prop where
  lengths : ∀ e ∈ r.store, e.2.length = months
  recorded : ∀ e ∈ r.channels, ∀ channel ∈ e.2, storeKey e.1 channel ∈ r.store.keys

def Conditions.cut (n : Nat) (c : Conditions) : Conditions :=
  { c with months := n, assumptions := c.assumptions.cut n }

/-! ## Inputs -/

namespace Store

theorem lookup_cut (store : Store) (n : Nat) (key : String) :
    (store.cut n).lookup key = (store.lookup key).map (List.take n) :=
  Entries.lookup_mapValues _ store key

theorem entry_ok {key : String} {position : Int} {object : Option String} {xs : Series Float} :
    store.entry key place position object = .ok xs ↔ store.lookup key = some xs := by
  unfold entry
  cases store.lookup key <;> simp

theorem entry_cut {key : String} {position : Int} {object : Option String} {xs : Series Float}
    (h : store.entry key place position object = .ok xs) :
    (store.cut n).entry key place position object = .ok (xs.take n) := by
  rw [entry_ok] at h ⊢
  rw [lookup_cut, h]
  rfl

theorem length_entry {key : String} {position : Int} {object : Option String} {xs : Series Float}
    (whole : ∀ e ∈ store, e.2.length = months)
    (h : store.entry key place position object = .ok xs) : xs.length = months :=
  whole _ (Entries.mem_of_lookup (entry_ok.1 h))

theorem addEntry_cut {object field : String} {position : Int} {total total' : Series Float}
    (whole : ∀ e ∈ store, e.2.length = months) (length : total.length = months)
    (h : store.addEntry object field place position total output = .ok total') :
    (store.cut n).addEntry object field place position (total.take n) output = .ok (total'.take n) ∧
      total'.length = months := by
  simp only [addEntry, bind_eq_ok] at h ⊢
  obtain ⟨xs, hxs, added⟩ := h
  have found := mapError_eq_ok.1 hxs
  have sum := mapError_eq_ok.1 added
  have same : total.length = xs.length := length.trans (length_entry whole found).symm
  refine ⟨⟨xs.take n, mapError_eq_ok.2 (entry_cut found), mapError_eq_ok.2 ?_⟩, ?_⟩
  · exact Series.take_add same sum
  · rw [Series.length_add sum, length]

theorem input_cut {position : Int} {a : Argument} {xs : Series Float} (shorter : n ≤ months)
    (whole : ∀ e ∈ store, e.2.length = months)
    (h : store.input s d output months position a = .ok xs) :
    (store.cut n).input s d output n position a = .ok (xs.take n) ∧ xs.length = months := by
  cases a with
  | number value raw =>
    cases h
    exact ⟨congrArg Except.ok (Series.take_constant shorter value).symm, by simp⟩
  | word text =>
    cases h
    exact ⟨congrArg Except.ok (Series.take_zeros shorter).symm, by simp⟩
  | spread object field raw => cases h
  | reference name field raw spreadOf =>
    unfold input at h ⊢
    by_cases output : s.outputs.has name = true
    · simp only [if_pos output] at h ⊢
      have found := mapError_eq_ok.1 h
      exact ⟨mapError_eq_ok.2 (entry_cut found), length_entry whole found⟩
    · by_cases object : s.objects.has name = true
      · simp only [if_neg output, if_pos object] at h ⊢
        rw [← Series.take_zeros shorter]
        refine foldlM_through (List.take n) (fun total : Series Float => total.length = months) ?_ h
          (Series.length_zeros months)
        intro o _ total total' length added
        exact addEntry_cut whole length added
      · simp only [if_neg output, if_neg object] at h
        cases h

theorem inputs_cut {positions : List Int} {inputs : List (Series Float)} (shorter : n ≤ months)
    (whole : ∀ e ∈ store, e.2.length = months)
    (h : store.inputs s d output months positions = .ok inputs) :
    (store.cut n).inputs s d output n positions = .ok (inputs.map (List.take n)) ∧
      ∀ xs ∈ inputs, xs.length = months := by
  constructor
  · refine mapM_through _ ?_ h
    intro i _ xs hxs
    split at hxs
    · exact (input_cut shorter whole hxs).1
    · cases hxs
  · intro xs mem
    obtain ⟨i, -, hxs⟩ := exists_of_mem_mapM h mem
    split at hxs
    · exact (input_cut shorter whole hxs).2
    · cases hxs

end Store

/-! ## Answers -/

theorem Cell.toSeries_cut {xs ys : Series Float} {declared : Option String} (shorter : n ≤ months)
    (h : (Cell.series xs).toSeries months output place declared = .ok ys) :
    (Cell.series (xs.take n)).toSeries n output place declared = .ok (ys.take n) := by
  have length : xs.length = months := by
    by_contra other
    have shape : ¬([xs.length] : List Nat) = [months] := by simpa using other
    simp only [toSeries, grid, ok_bind, if_neg shape] at h
    cases h
  rw [toSeries_series length] at h
  cases h
  exact toSeries_series (by simp [length, shorter]) _ _ _

theorem declaredChannels_cut {es : Entries (Series Float)} {declared : List String}
    (shorter : n ≤ months)
    (h : declaredChannels (es.mapValues .series) declared output place months = .ok channels) :
    declaredChannels ((es.mapValues (List.take n)).mapValues .series) declared output place n =
      .ok (channels.mapValues (List.take n)) := by
  unfold declaredChannels Entries.mapValues at h ⊢
  rw [List.filter_map, List.mapM_map] at h
  rw [List.filter_map, List.mapM_map, List.filter_map]
  refine mapM_map _ _ ?_ h
  rintro e _ ⟨name, ys⟩ taken
  simp only [Function.comp_apply, bind_eq_ok, pure_eq_ok, Prod.mk.injEq] at taken ⊢
  obtain ⟨ys, hys, rfl, rfl⟩ := taken
  exact ⟨_, Cell.toSeries_cut shorter hys, rfl, rfl⟩

theorem unnamedCell?_series (es : Entries (Series Float)) (output : String) :
    unnamedCell? (es.mapValues .series) output =
      ((es.lookup output).or (es.lookup "val")).map Cell.series := by
  simp only [unnamedCell?, Entries.lookup_mapValues]
  cases es.lookup output <;> cases es.lookup "val" <;> rfl

/-- The channels that are taken from an answer over fewer months. -/
theorem selectChannels_cut {es : Entries (Series Float)} {declared : List String}
    {object kind : String} (shorter : n ≤ months)
    (h : selectChannels (es.mapValues .series) declared output object kind months = .ok channels) :
    selectChannels ((es.mapValues (List.take n)).mapValues .series) declared output object kind n =
      .ok (channels.mapValues (List.take n)) := by
  have any :
      ((es.mapValues (List.take n)).mapValues Cell.series).any (fun e => declared.contains e.1) =
      (es.mapValues Cell.series).any fun e => declared.contains e.1 := by
    simp [Entries.mapValues, List.any_map, Function.comp_def]
  simp only [selectChannels, any, unnamedCell?_series, Entries.lookup_mapValues,
    ← Option.map_or] at h ⊢
  split at h
  · rename_i answered
    rw [if_pos answered]
    exact declaredChannels_cut shorter h
  · rename_i other
    rw [if_neg other]
    cases found : (es.lookup output).or (es.lookup "val") with
    | none =>
      rw [found] at h
      cases h
    | some xs =>
      rw [found] at h
      simp only [Option.map_some] at h ⊢
      split at h
      · contradiction
      · rename_i single
        cases single
        simp only [bind_eq_ok, pure_eq_ok] at h ⊢
        obtain ⟨ys, hys, rfl⟩ := h
        exact ⟨_, Cell.toSeries_cut shorter hys, rfl⟩
      · cases h

namespace Run

/-- An object that a function of the library computes, one that does not look ahead: not `Advance`,
and `Delay` only if no output of the object is delayed by less than nothing. -/
def LooksBack (c : Conditions) (d : Definition) : Prop :=
  ∀ t, c.schema.lookup d.kind = some t → ∃ name f, (name, f) ∈ Compute.library ∧
    c.registry.lookup (t.functionName d.kind) = some (Registry.ofComputation f) ∧
    name ≠ "Advance" ∧
    (name = "Delay" → ∀ output ∈ d.outputNames, ∀ xs,
      (c.assumptions.settings d.name output).series c.months "delayMonths" 0 = .ok xs →
        ∀ x ∈ xs, 0 ≤ x)

/-- An object that looks back answers, over fewer months, the first months of its answer. -/
theorem answer_cut {inputs : List (Series Float)} (back : LooksBack c d)
    (mem : output ∈ d.outputNames)
    (positive : 0 < n) (shorter : n ≤ c.months) (fits : ∀ xs ∈ inputs, xs.length = c.months)
    (h : answer c d output inputs = .ok (answered, channels)) :
    answer (c.cut n) d output (inputs.map (List.take n)) =
      .ok (answered, channels.mapValues (List.take n)) := by
  simp only [answer, bind_eq_ok] at h ⊢
  obtain ⟨t, type, function, found, reply, replied, h⟩ := h
  obtain ⟨name, f, known, computed, forward, delays⟩ := back t (typeOf_ok (mapError_eq_ok.1 type))
  have same : function = Registry.ofComputation f := by
    have found := mapError_eq_ok.1 found
    simp only [functionOf, computed] at found
    cases found
    rfl
  subst same
  simp only [Registry.ofComputation, bind_eq_ok, pure_eq_ok] at replied
  obtain ⟨es, answers, rfl⟩ := replied
  have covers : Task.Covers ⟨c.months, inputs, c.assumptions.settings d.name output, output⟩ n :=
    ⟨positive, shorter, fits⟩
  have nonneg := fun delay => delays delay output mem
  have answers' := Compute.library_cut known forward covers nonneg answers
  refine ⟨t, type, Registry.ofComputation f, found, ?_⟩
  refine ⟨.ofCells ((es.mapValues (List.take n)).mapValues .series), ?_, ?_⟩
  · simp only [Registry.ofComputation, Conditions.cut, Assumptions.settings_cut]
    change f (Task.cut n ⟨c.months, inputs, c.assumptions.settings d.name output, output⟩) >>= _
      = _
    rw [answers']
    rfl
  · simp only [Reply.ofCells, ← Entries.mapValues_ofList, bind_eq_ok, pure_eq_ok,
      Prod.mk.injEq] at h ⊢
    obtain ⟨channels, selected, rfl, rfl⟩ := h
    exact ⟨_, selectChannels_cut shorter selected, by simp, rfl⟩

/-! ## Steps -/

/-- A month beyond a series is left out, so that it does not matter whether the series goes on. -/
theorem applyOne_cut {xs ys : Series Float} {change : Value × Value}
    (h : (Overrides.applyOne output channel xs change).outcome = .ok ys) (n : Nat) :
    (Overrides.applyOne output channel (xs.take n) change).outcome = .ok (ys.take n) := by
  simp only [Overrides.applyOne, Logged.outcome_bind, bind_eq_ok] at h ⊢
  obtain ⟨month, hmonth, h⟩ := h
  refine ⟨month, hmonth, ?_⟩
  cases month with
  | none =>
    cases h
    rfl
  | some k =>
    by_cases inside : 0 ≤ k ∧ k < xs.length
    · simp only [Overrides.position?, if_pos inside, Logged.outcome_bind, bind_eq_ok] at h
      obtain ⟨x, hx, h⟩ := h
      cases h
      rw [List.take_set]
      by_cases early : 0 ≤ k ∧ k < (xs.take n).length
      · simp only [Overrides.position?, if_pos early, Logged.outcome_bind, bind_eq_ok]
        exact ⟨x, hx, rfl⟩
      · have beyond : (xs.take n).length ≤ k.toNat := by omega
        rw [List.set_eq_of_length_le beyond]
        simp only [Overrides.position?, if_neg early]
        rfl
    · simp only [Overrides.position?, if_neg inside] at h
      cases h
      have outside : ¬(0 ≤ k ∧ k < (xs.take n).length) := by
        rw [List.length_take]
        omega
      simp only [Overrides.position?, if_neg outside]
      rfl

theorem apply_cut {o : Overrides} {xs ys : Series Float}
    (h : (o.apply output channel xs).outcome = .ok ys) (n : Nat) :
    (o.apply output channel (xs.take n)).outcome = .ok (ys.take n) := by
  simp only [Overrides.apply, Logged.outcome_foldlM] at h ⊢
  refine (foldlM_through (List.take n) (fun _ => True) ?_ h trivial).1
  intro change _ us vs _ replaced
  exact ⟨applyOne_cut replaced n, trivial⟩

theorem overridden_cut (h : overridden c output channels = .ok stored) (n : Nat) :
    overridden (c.cut n) output (channels.mapValues (List.take n)) =
      .ok (stored.mapValues (List.take n)) := by
  refine mapM_map _ _ ?_ h
  rintro ⟨channel, xs⟩ _ ⟨channel', ys⟩ replaced
  simp only [bind_eq_ok, pure_eq_ok, Prod.mk.injEq] at replaced ⊢
  obtain ⟨ys, hys, rfl, rfl⟩ := replaced
  exact ⟨_, apply_cut hys n, rfl, rfl⟩

theorem gather_cut {inputs : List (Series Float)} (shorter : n ≤ months)
    (whole : ∀ e ∈ store, e.2.length = months) (h : gather s d months store output = .ok inputs) :
    gather s d n (store.cut n) output = .ok (inputs.map (List.take n)) ∧
      ∀ xs ∈ inputs, xs.length = months := by
  simp only [gather, bind_eq_ok] at h ⊢
  obtain ⟨feed, hfeed, gathered⟩ := h
  obtain ⟨cut, lengths⟩ := Store.inputs_cut shorter whole gathered
  exact ⟨⟨feed, hfeed, cut⟩, lengths⟩

theorem stores_cut (linked : Linked m s) (hd : d ∈ m.definitions) (mem : output ∈ d.outputNames)
    (back : LooksBack c d) (positive : 0 < n) (shorter : n ≤ c.months)
    (whole : ∀ e ∈ store, e.2.length = c.months)
    (h : stores m s c store output = .ok (answered, stored)) :
    stores m s (c.cut n) (store.cut n) output = .ok (answered, stored.mapValues (List.take n)) ∧
      ∀ e ∈ stored, e.2.length = c.months := by
  simp only [stores, linked.compute_eq hd mem, bind_eq_ok, pure_eq_ok, Prod.mk.injEq] at h ⊢
  obtain ⟨⟨names, channels⟩, ⟨inputs, gathered, answers⟩, stored, replaced, rfl, rfl⟩ := h
  obtain ⟨gathered', fits⟩ := gather_cut shorter whole gathered
  constructor
  · exact ⟨_, ⟨_, gathered', answer_cut back mem positive shorter fits answers⟩, _,
      overridden_cut replaced n, rfl, rfl⟩
  · intro e he
    obtain ⟨e', he', -, length⟩ := (overridden_ok replaced).2 e he
    rw [length, (answer_ok answers).2 e' he']

theorem record_cut (r : Results) (output : String) (answered : List String)
    (stored : Entries (Series Float)) (n : Nat) :
    record (r.cut n) output answered (stored.mapValues (List.take n)) =
      (record r output answered stored).cut n := by
  simp only [record, Results.cut, Store.cut, Entries.keys_mapValues,
    Entries.mapValues_foldl_put (List.take n) (storeKey output)]

theorem whole_record (whole : r.Whole months) (lengths : ∀ e ∈ stored, e.2.length = months) :
    (record r output answered stored).Whole months := by
  constructor
  · intro e he
    rcases Entries.mem_of_mem_foldl_put (storeKey output) he with old | ⟨e', mem, rfl⟩
    · exact whole.lengths e old
    · exact lengths e' mem
  · intro e he channel stored
    apply (Entries.mem_keys_foldl_put (storeKey output)).2
    rcases Entries.mem_of_mem_put he with rfl | old
    · exact .inr ⟨channel, stored, rfl⟩
    · exact .inl (whole.recorded e old channel stored)

/-- A step over fewer months. -/
theorem step_cut (linked : Linked m s) (back : ∀ d ∈ m.definitions, LooksBack c d)
    (positive : 0 < n)
    (shorter : n ≤ c.months) (known : output ∈ s.outputOrder) (whole : r.Whole c.months)
    (h : (step m s c r output).outcome = .ok r') :
    (step m s (c.cut n) (r.cut n) output).outcome = .ok (r'.cut n) ∧ r'.Whole c.months := by
  obtain ⟨d, hd, mem⟩ := linked.exists_owner known
  simp only [outcome_step, bind_eq_ok, pure_eq_ok] at h ⊢
  obtain ⟨⟨answered, stored⟩, gives, rfl⟩ := h
  obtain ⟨gives', lengths⟩ :=
    stores_cut linked hd mem (back d hd) positive shorter whole.lengths gives
  exact ⟨⟨_, gives', record_cut r output answered stored n⟩, whole_record whole lengths⟩

/-! ## Totals -/

theorem addTotal_cut (shorter : n ≤ months) (whole : ∀ e ∈ store, e.2.length = months)
    (known : storeKey output channel ∈ store.keys) (lengths : ∀ e ∈ sums, e.2.length = months)
    (h : addTotal store months output sums channel = .ok sums') :
    addTotal (store.cut n) n output (sums.cut n) channel = .ok (sums'.cut n) ∧
      ∀ e ∈ sums', e.2.length = months := by
  obtain ⟨xs, found⟩ := Entries.exists_lookup known
  have given : xs.length = months := whole _ (Entries.mem_of_lookup found)
  have total := length_getD_lookup lengths channel
  have before : ((sums.cut n).lookup channel).getD (Series.zeros n) =
      ((sums.lookup channel).getD (Series.zeros months)).take n := by
    rw [← Series.take_zeros shorter]
    exact Entries.getD_lookup_mapValues _ _ _ _
  simp only [addTotal, found, Option.getD_some, bind_eq_ok, pure_eq_ok] at h ⊢
  obtain ⟨sum, added, rfl⟩ := h
  constructor
  · rw [before, Store.lookup_cut, found]
    refine ⟨_, Series.take_add (total.trans given.symm) added, ?_⟩
    exact (Entries.mapValues_put _ _ _ _).symm
  · intro e he
    rcases Entries.mem_of_mem_put he with rfl | he
    · rw [Series.length_add added, total]
    · exact lengths e he

theorem totals_cut {outputs : List String} (shorter : n ≤ months) (whole : r.Whole months)
    (h : totals r months outputs = .ok sums) :
    totals (r.cut n) n outputs = .ok (sums.cut n) ∧ ∀ e ∈ sums, e.2.length = months := by
  unfold totals at h ⊢
  refine foldlM_through (Store.cut n) (fun sums : Store => ∀ e ∈ sums, e.2.length = months) ?_ h
    (by simp)
  intro o _ u v lengths added
  refine foldlM_through (Store.cut n) (fun sums : Store => ∀ e ∈ sums, e.2.length = months) ?_ added
    lengths
  intro channel mem u v lengths added
  refine addTotal_cut shorter whole.lengths ?_ lengths added
  change channel ∈ (r.channels.lookup o).getD [] at mem
  cases found : r.channels.lookup o with
  | none => simp [found] at mem
  | some recorded =>
    rw [found, Option.getD_some] at mem
    exact whole.recorded _ (Entries.mem_of_lookup found) channel mem

theorem rollUp_cut {object : String × List String} {store' : Store} (shorter : n ≤ months)
    (whole : r.Whole months) (lengths : ∀ e ∈ store, e.2.length = months)
    (more : r.store.keys ⊆ store.keys) (h : rollUp r months store object = .ok store') :
    rollUp (r.cut n) n (store.cut n) object = .ok (store'.cut n) ∧
      (∀ e ∈ store', e.2.length = months) ∧ r.store.keys ⊆ store'.keys := by
  simp only [rollUp, bind_eq_ok, pure_eq_ok] at h ⊢
  obtain ⟨sums, summed, rfl⟩ := h
  have whole' : ({ r with store } : Results).Whole months :=
    ⟨lengths, fun e he channel stored => more (whole.recorded e he channel stored)⟩
  obtain ⟨summed', sized⟩ := totals_cut shorter whole' summed
  refine ⟨⟨_, summed', ?_⟩, ?_, ?_⟩
  · rw [Store.cut, Store.cut, Store.cut, Entries.mapValues_addMissing]
    simp [Entries.mapValues, Function.comp_def]
  · intro e he
    rcases Entries.mem_of_mem_addMissing he with old | new
    · exact lengths e old
    · obtain ⟨e', mem, rfl⟩ := List.mem_map.1 new
      exact sized e' mem
  · exact fun key old => Entries.mem_keys_addMissing.2 (.inl (more old))

/-- A run over fewer months computes the first months of what a run over more months computes. -/
theorem execute_cut (linked : Linked p.model p.symbols) (sorts : p.order.Sorts p.model p.symbols)
    (back : ∀ d ∈ p.model.definitions, LooksBack c d) (positive : 0 < n) (shorter : n ≤ c.months)
    (h : (execute p c).outcome = .ok r) :
    (execute p (c.cut n)).outcome = .ok (r.cut n) ∧ r.Whole c.months := by
  simp only [execute, Logged.outcome_bind, bind_eq_ok] at h ⊢
  obtain ⟨r₀, steps, store, rolled, h⟩ := h
  cases h
  have rolled : p.symbols.outputsByObject.foldlM (rollUp r₀ c.months) r₀.store = .ok store :=
    mapError_eq_ok.1 rolled
  obtain ⟨steps', whole⟩ : (p.order.order.foldlM (step p.model p.symbols (c.cut n)) start).outcome =
      .ok (r₀.cut n) ∧ r₀.Whole c.months := by
    rw [Logged.outcome_foldlM] at steps ⊢
    have empty : start.Whole c.months := ⟨by simp [start], by simp [start]⟩
    refine foldlM_through (Results.cut n) (Results.Whole c.months) ?_ steps empty
    intro output mem r r' whole taken
    exact step_cut linked back positive shorter (sorts.complete.mem_iff.1 mem) whole taken
  obtain ⟨rolled', lengths, more⟩ :
      p.symbols.outputsByObject.foldlM (rollUp (r₀.cut n) n) (r₀.cut n).store = .ok (store.cut n) ∧
        (∀ e ∈ store, e.2.length = c.months) ∧ r₀.store.keys ⊆ store.keys := by
    refine foldlM_through (Store.cut n)
      (fun store : Store => (∀ e ∈ store, e.2.length = c.months) ∧
        r₀.store.keys ⊆ store.keys) ?_ rolled
      ⟨whole.lengths, List.Subset.refl _⟩
    rintro object - u v ⟨lengths, more⟩ added
    exact rollUp_cut shorter whole lengths more added
  constructor
  · exact ⟨_, steps', _, mapError_eq_ok.2 rolled', rfl⟩
  · exact ⟨lengths, fun e he channel stored => more (whole.recorded e he channel stored)⟩

end Run
end Forecast

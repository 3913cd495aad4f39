import Forecast.Proofs.Run.Reached
import Forecast.Proofs.Series

/-!
# Totals of objects

The total of a channel of an object is the sum, from zeros on, of what the
outputs of the object have stored under it, in their order. It is stored only
under a key that is not taken; so what the outputs have stored stays, and with
it all that the totals of further objects are summed from.
-/

namespace Forecast

open Outcome

namespace Run

variable {c : Conditions} {p : Plan} {r : Results} {months : Nat} {outputs : List String}
  {output channel object : String} {store store' sums sums' : Store}

/-- What some outputs have stored in a channel, in their order. -/
def contributions (r : Results) (outputs : List String) (channel : String) : List (Series Float) :=
  (outputs.filter fun o => (r.channelsOf o).contains channel).map fun o =>
    (r.store.lookup (storeKey o channel)).getD []

theorem foldlM_addTotal {channels : List String} (distinct : channels.Nodup)
    (h : channels.foldlM (addTotal store months output) sums = .ok sums') (channel : String) :
    if channel ∈ channels then
      ∃ total, ((sums.lookup channel).getD (Series.zeros months)).add
          ((store.lookup (storeKey output channel)).getD []) = .ok total ∧
        sums'.lookup channel = some total
    else sums'.lookup channel = sums.lookup channel := by
  induction channels generalizing sums with
  | nil =>
    cases h
    simp
  | cons a channels ih =>
    rw [List.foldlM_cons, bind_eq_ok] at h
    obtain ⟨next, hnext, h⟩ := h
    simp only [addTotal, bind_eq_ok, pure_eq_ok] at hnext
    obtain ⟨total, added, rfl⟩ := hnext
    obtain ⟨new, distinct⟩ := List.nodup_cons.1 distinct
    have rest := ih distinct h
    rw [Entries.lookup_put] at rest
    by_cases eq : channel = a
    · subst eq
      rw [if_neg new, if_pos rfl] at rest
      rw [if_pos (by simp)]
      exact ⟨total, added, rest⟩
    · rw [if_neg eq] at rest
      simpa only [List.mem_cons, eq, false_or] using rest

/-- The totals of some outputs continue those before them. -/
theorem foldlM_totals (distinct : ∀ o, (r.channelsOf o).Nodup)
    (h : outputs.foldlM
      (fun sums o => (r.channelsOf o).foldlM (addTotal r.store months o) sums) sums = .ok sums')
    (channel : String) :
    (contributions r outputs channel).foldlM Series.add
        ((sums.lookup channel).getD (Series.zeros months)) =
      .ok ((sums'.lookup channel).getD (Series.zeros months)) ∧
    (channel ∈ sums'.keys ↔ channel ∈ sums.keys ∨ ∃ o ∈ outputs, channel ∈ r.channelsOf o) := by
  induction outputs generalizing sums with
  | nil =>
    cases h
    simp [contributions, pure, Except.pure]
  | cons o outputs ih =>
    rw [List.foldlM_cons, bind_eq_ok] at h
    obtain ⟨next, hnext, h⟩ := h
    obtain ⟨added, keys⟩ := ih h
    have here := foldlM_addTotal (distinct o) hnext channel
    by_cases stored : channel ∈ r.channelsOf o
    · rw [if_pos stored] at here
      obtain ⟨total, sum, found⟩ := here
      have known : channel ∈ next.keys := Entries.mem_keys_of_lookup found
      rw [found, Option.getD_some] at added
      constructor
      · simp only [contributions, List.contains_iff_mem, stored, List.filter_cons_of_pos,
          List.map_cons, List.foldlM_cons, bind_eq_ok] at added ⊢
        exact ⟨total, sum, added⟩
      · rw [keys]
        simp [known, stored]
    · rw [if_neg stored] at here
      rw [here] at added
      constructor
      · simpa [contributions, stored] using added
      · rw [keys, ← Entries.has_iff, Entries.has, here, ← Entries.has, Entries.has_iff]
        simp [stored]

theorem totals_ok (distinct : ∀ o, (r.channelsOf o).Nodup) (h : totals r months outputs = .ok sums)
    (channel : String) :
    Series.sum months (contributions r outputs channel) =
        .ok ((sums.lookup channel).getD (Series.zeros months)) ∧
      (channel ∈ sums.keys ↔ ∃ o ∈ outputs, channel ∈ r.channelsOf o) := by
  simpa [Series.sum, Entries.keys] using foldlM_totals distinct h channel

theorem lookup_entriesOf (name : IsName object) (sums : Store) (channel : String) :
    (entriesOf object sums).lookup (storeKey object channel) = sums.lookup channel := by
  induction sums with
  | nil => rfl
  | cons e sums ih =>
    obtain ⟨other, xs⟩ := e
    have same : (storeKey object channel == storeKey object other) = (channel == other) := by
      by_cases eq : channel = other
      · simp [eq]
      · have ne : storeKey object channel ≠ storeKey object other :=
          fun keys => eq (storeKey_inj name name keys).2
        rw [beq_eq_false_iff_ne.2 ne, beq_eq_false_iff_ne.2 eq]
    simp only [entriesOf, List.map_cons, List.lookup_cons, same] at ih ⊢
    rw [ih]

/-- The store once the totals of some objects have been added to what the outputs have stored. -/
structure Rolled (r : Results) (months : Nat) (done : List (String × List String)) (store : Store) :
    Prop where
  more : ∃ new, store = r.store ++ new
  distinct : store.keys.Nodup
  lengths : ∀ e ∈ store, e.2.length = months
  keys : ∀ key, key ∈ store.keys ↔ key ∈ r.store.keys ∨
    ∃ object ∈ done, ∃ o ∈ object.2, ∃ channel ∈ r.channelsOf o, key = storeKey object.1 channel
  totals : ∀ object ∈ done, ∀ o ∈ object.2, ∀ channel ∈ r.channelsOf o,
    storeKey object.1 channel ∉ r.store.keys →
      ∃ total, Series.sum months (contributions r object.2 channel) = .ok total ∧
        store.lookup (storeKey object.1 channel) = some total

theorem rolled_nil (reached : Reached p c p.order.order r) : Rolled r c.months [] r.store where
  more := ⟨[], by simp⟩
  distinct := reached.distinct
  lengths := reached.lengths
  keys := by simp
  totals := by simp

theorem Reached.nodup_channelsOf (sound : p.Sound) (reached : Reached p c p.order.order r)
    (o : String) : (r.channelsOf o).Nodup := by
  by_cases known : o ∈ p.order.order
  · obtain ⟨_, _, gives, -, channels, -⟩ := reached.computed o known
    rw [Results.channelsOf, channels]
    exact (stores_ok sound known gives).1
  · rw [← reached.channels, ← Entries.lookup_eq_none] at known
    simp [Results.channelsOf, known]

theorem Rolled.extends {done : List (String × List String)} (rolled : Rolled r months done store) :
    store.Extends r.store := by
  obtain ⟨new, rfl⟩ := rolled.more
  exact Store.Extends.append _ _

theorem Rolled.contributions_eq {done : List (String × List String)}
    (rolled : Rolled r months done store)
    (known : ∀ o ∈ outputs, ∀ channel ∈ r.channelsOf o, storeKey o channel ∈ r.store.keys)
    (channel : String) :
    contributions { r with store } outputs channel = contributions r outputs channel := by
  apply List.map_congr_left
  intro o ho
  obtain ⟨mem, stored⟩ := List.mem_filter.1 ho
  have stored : channel ∈ r.channelsOf o := List.contains_iff_mem.1 stored
  obtain ⟨xs, hxs⟩ := Entries.exists_lookup (known o mem channel stored)
  rw [hxs, rolled.extends _ _ hxs]

/-- A roll-up adds the totals of an object under the keys that are not taken. -/
theorem Rolled.rollUp_ok {done : List (String × List String)} {last : String × List String}
    (rolled : Rolled r months done store) (distinct : ∀ o, (r.channelsOf o).Nodup)
    (known : ∀ o ∈ last.2, ∀ channel ∈ r.channelsOf o, storeKey o channel ∈ r.store.keys)
    (h : rollUp r months store last = .ok store') :
    ∃ sums, store' = Entries.addMissing store (entriesOf last.1 sums) ∧ ∀ channel,
      Series.sum months (contributions r last.2 channel) =
          .ok ((sums.lookup channel).getD (Series.zeros months)) ∧
        (channel ∈ sums.keys ↔ ∃ o ∈ last.2, channel ∈ r.channelsOf o) := by
  simp only [rollUp, bind_eq_ok, pure_eq_ok] at h
  obtain ⟨sums, hsums, rfl⟩ := h
  refine ⟨sums, rfl, ?_⟩
  intro channel
  rw [← rolled.contributions_eq known channel]
  have distinct' : ∀ o, ({ r with store } : Results).channelsOf o |>.Nodup := distinct
  exact Run.totals_ok distinct' hsums channel

theorem length_of_lookup_totals {key : String} {xs : Series Float} (name : IsName object)
    (summed : ∀ channel, Series.sum months (contributions r outputs channel) =
      .ok ((sums.lookup channel).getD (Series.zeros months)))
    (found : (entriesOf object sums).lookup key = some xs) : xs.length = months := by
  obtain ⟨e, -, eq⟩ := List.mem_map.1 (Entries.mem_of_lookup found)
  obtain ⟨rfl, -⟩ := Prod.mk.inj eq
  rw [lookup_entriesOf name] at found
  have total := summed e.1
  rw [found, Option.getD_some] at total
  exact Series.length_sum total

theorem Rolled.lookup_eq_none {done : List (String × List String)}
    (rolled : Rolled r months done store)
    (name : IsName object) (names : ∀ other ∈ done, IsName other.1)
    (fresh : ∀ other ∈ done, other.1 ≠ object) (free : storeKey object channel ∉ r.store.keys) :
    store.lookup (storeKey object channel) = none := by
  rw [Entries.lookup_eq_none, rolled.keys]
  rintro (taken | ⟨other, mem, _, _, _, _, same⟩)
  · exact free taken
  · exact fresh other mem (storeKey_inj name (names other mem) same).1.symm

theorem Rolled.step {done : List (String × List String)} {last : String × List String}
    (rolled : Rolled r months done store) (distinct : ∀ o, (r.channelsOf o).Nodup)
    (known : ∀ o ∈ last.2, ∀ channel ∈ r.channelsOf o, storeKey o channel ∈ r.store.keys)
    (names : ∀ object ∈ done ++ [last], IsName object.1)
    (fresh : ∀ object ∈ done, object.1 ≠ last.1)
    (h : rollUp r months store last = .ok store') : Rolled r months (done ++ [last]) store' := by
  obtain ⟨sums, rfl, sum⟩ := rolled.rollUp_ok distinct known h
  have name := names last (by simp)
  refine
    { more := ?_
      distinct := Entries.nodup_keys_addMissing rolled.distinct
      lengths := ?_
      keys := ?_
      totals := ?_ }
  · obtain ⟨new, rfl⟩ := rolled.more
    obtain ⟨new', added⟩ :=
      Entries.exists_append_addMissing (r.store ++ new) (entriesOf last.1 sums)
    exact ⟨new ++ new', by rw [← List.append_assoc, ← added]⟩
  · rintro ⟨key, xs⟩ he
    have found := Entries.lookup_of_mem (Entries.nodup_keys_addMissing rolled.distinct) he
    rw [Entries.lookup_addMissing, Option.or_eq_some_iff] at found
    rcases found with found | ⟨-, found⟩
    · exact rolled.lengths _ (Entries.mem_of_lookup found)
    · exact length_of_lookup_totals name (fun channel => (sum channel).1) found
  · intro key
    rw [Entries.mem_keys_addMissing, rolled.keys key, keys_entriesOf, List.mem_map]
    constructor
    · rintro ((old | ⟨object, mem, rest⟩) | ⟨channel, mem, rfl⟩)
      · exact .inl old
      · exact .inr ⟨object, List.mem_append_left _ mem, rest⟩
      · obtain ⟨o, ho, stored⟩ := (sum channel).2.1 mem
        exact .inr ⟨last, by simp, o, ho, channel, stored, rfl⟩
    · rintro (old | ⟨object, mem, o, ho, channel, stored, rfl⟩)
      · exact .inl (.inl old)
      · rcases List.mem_append.1 mem with mem | mem
        · exact .inl (.inr ⟨object, mem, o, ho, channel, stored, rfl⟩)
        · cases List.mem_singleton.1 mem
          exact .inr ⟨channel, (sum channel).2.2 ⟨o, ho, stored⟩, rfl⟩
  · intro object mem o ho channel stored free
    rw [Entries.lookup_addMissing]
    rcases List.mem_append.1 mem with mem | mem
    · obtain ⟨total, summed, found⟩ := rolled.totals object mem o ho channel stored free
      exact ⟨total, summed, by rw [found, Option.some_or]⟩
    · cases List.mem_singleton.1 mem
      have absent := rolled.lookup_eq_none name
        (fun other mem => names other (List.mem_append_left _ mem)) fresh free
      obtain ⟨total, found⟩ := Entries.exists_lookup ((sum channel).2.2 ⟨o, ho, stored⟩)
      refine ⟨total, ?_, ?_⟩
      · rw [(sum channel).1, found, Option.getD_some]
      · rw [absent, Option.none_or, lookup_entriesOf name, found]

theorem Rolled.steps {done rest : List (String × List String)} (rolled : Rolled r months done store)
    (distinct : ∀ o, (r.channelsOf o).Nodup)
    (known : ∀ object ∈ rest, ∀ o ∈ object.2, ∀ channel ∈ r.channelsOf o,
      storeKey o channel ∈ r.store.keys)
    (names : ∀ object ∈ done ++ rest, IsName object.1) (once : ((done ++ rest).map (·.1)).Nodup)
    (h : rest.foldlM (rollUp r months) store = .ok store') :
    Rolled r months (done ++ rest) store' := by
  induction rest generalizing done store with
  | nil =>
    cases h
    rwa [List.append_nil]
  | cons object rest ih =>
    rw [List.foldlM_cons, bind_eq_ok] at h
    obtain ⟨next, hnext, h⟩ := h
    have cut : done ++ object :: rest = done ++ [object] ++ rest := by simp
    rw [cut] at names once ⊢
    have fresh : ∀ other ∈ done, other.1 ≠ object.1 := by
      intro other mem same
      rw [List.map_append, List.map_append, List.nodup_append, List.nodup_append] at once
      exact once.1.2.2 _ (List.mem_map_of_mem mem) object.1 (by simp) same
    refine ih ?_ (fun other mem => known other (List.mem_cons_of_mem _ mem)) names once h
    exact rolled.step distinct (known object (by simp))
      (fun other mem => names other (List.mem_append_left _ mem)) fresh hnext

/-- A run that succeeds computes all outputs and then adds the totals of all objects. -/
theorem execute_ok (sound : p.Sound) (h : (execute p c).outcome = .ok r) :
    ∃ r₀, (p.order.order.foldlM (step p.model p.symbols c) start).outcome = .ok r₀ ∧
      Reached p c p.order.order r₀ ∧ Rolled r₀ c.months p.symbols.outputsByObject r.store ∧
      r = { r₀ with store := r.store } := by
  simp only [execute, Logged.outcome_bind, bind_eq_ok] at h
  obtain ⟨r₀, computed, store, rolled, h⟩ := h
  cases h
  have reached := reached_of_steps sound List.prefix_rfl computed
  have rolled : p.symbols.outputsByObject.foldlM (rollUp r₀ c.months) r₀.store = .ok store :=
    mapError_eq_ok.1 rolled
  have known : ∀ object ∈ p.symbols.outputsByObject, ∀ o ∈ object.2, ∀ channel ∈ r₀.channelsOf o,
      storeKey o channel ∈ r₀.store.keys := by
    intro object mem o ho channel stored
    rw [reached.keys]
    exact List.mem_flatMap.2 ⟨o, sound.mem_order_of_object mem ho, List.mem_map_of_mem stored⟩
  have names : ∀ object ∈ p.symbols.outputsByObject, IsName object.1 := by
    intro object mem
    obtain ⟨d, hd, rfl⟩ := sound.exists_definition mem
    exact (sound.named d hd).1
  have once : (p.symbols.outputsByObject.map (·.1)).Nodup := by
    simpa [sound.linked.outputsByObject, Function.comp_def] using sound.linked.objects_nodup
  have distinct := reached.nodup_channelsOf sound
  exact ⟨r₀, computed, reached, (rolled_nil reached).steps distinct known names once rolled, rfl⟩

theorem length_getD_lookup (whole : ∀ e ∈ store, e.2.length = months) (key : String) :
    ((store.lookup key).getD (Series.zeros months)).length = months := by
  cases found : store.lookup key with
  | none => simp
  | some xs => exact whole _ (Entries.mem_of_lookup found)

theorem exists_addTotals {channels : List String} (whole : ∀ e ∈ store, e.2.length = months)
    (known : ∀ channel ∈ channels, storeKey output channel ∈ store.keys)
    (lengths : ∀ e ∈ sums, e.2.length = months) :
    ∃ sums', channels.foldlM (addTotal store months output) sums = .ok sums' ∧
      ∀ e ∈ sums', e.2.length = months := by
  apply exists_foldlM (fun sums : Store => ∀ e ∈ sums, e.2.length = months) ?_ lengths
  intro channel hchannel sums lengths
  obtain ⟨xs, found⟩ := Entries.exists_lookup (known channel hchannel)
  have given : xs.length = months := whole _ (Entries.mem_of_lookup found)
  have total := length_getD_lookup lengths channel
  simp only [addTotal, found, Option.getD_some, Series.add_of_length_eq (total.trans given.symm)]
  refine ⟨_, rfl, ?_⟩
  intro e he
  rcases Entries.mem_of_mem_put he with rfl | he
  · simp [total, given]
  · exact lengths e he

theorem exists_rollUp {object : String × List String} (whole : ∀ e ∈ store, e.2.length = months)
    (known : ∀ o ∈ object.2, ∀ channel ∈ r.channelsOf o, storeKey o channel ∈ store.keys) :
    ∃ store', rollUp r months store object = .ok store' ∧ (∀ e ∈ store', e.2.length = months) ∧
      store.keys ⊆ store'.keys := by
  obtain ⟨sums, summed, lengths⟩ : ∃ sums, totals { r with store } months object.2 = .ok sums ∧
      ∀ e ∈ sums, e.2.length = months := by
    apply exists_foldlM (fun sums : Store => ∀ e ∈ sums, e.2.length = months) ?_ (by simp)
    intro o ho sums lengths
    exact exists_addTotals whole (known o ho) lengths
  refine ⟨Entries.addMissing store (entriesOf object.1 sums), ?_, ?_, ?_⟩
  · rw [rollUp, summed]
    rfl
  · intro e he
    rcases Entries.mem_of_mem_addMissing he with old | new
    · exact whole e old
    · obtain ⟨e', he', rfl⟩ := List.mem_map.1 new
      exact lengths e' he'
  · exact fun key old => Entries.mem_keys_addMissing.2 (.inl old)

/-- A run succeeds if all its outputs can be computed. -/
theorem Reached.exists_execute (sound : p.Sound) (reached : Reached p c p.order.order r)
    (h : (p.order.order.foldlM (Run.step p.model p.symbols c) start).outcome = .ok r) :
    ∃ store, (execute p c).outcome = .ok { r with store } := by
  have known : ∀ object ∈ p.symbols.outputsByObject, ∀ o ∈ object.2, ∀ channel ∈ r.channelsOf o,
      storeKey o channel ∈ r.store.keys := by
    intro object mem o ho channel stored
    rw [reached.keys]
    exact List.mem_flatMap.2 ⟨o, sound.mem_order_of_object mem ho, List.mem_map_of_mem stored⟩
  obtain ⟨store, rolled, -⟩ := exists_foldlM
    (fun store : Store => (∀ e ∈ store, e.2.length = c.months) ∧ r.store.keys ⊆ store.keys)
    (f := rollUp r c.months) (l := p.symbols.outputsByObject) (by
      rintro object mem store ⟨whole, more⟩
      obtain ⟨store', rolled, whole', more'⟩ := exists_rollUp whole
        fun o ho channel stored => more (known object mem o ho channel stored)
      exact ⟨store', rolled, whole', List.Subset.trans more more'⟩)
    ⟨reached.lengths, List.Subset.refl _⟩
  refine ⟨store, ?_⟩
  simp only [execute, Logged.outcome_bind, h, ok_bind, rolled]
  rfl

end Run
end Forecast

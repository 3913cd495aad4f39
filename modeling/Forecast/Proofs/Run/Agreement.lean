import Forecast.Proofs.Run.Equations

/-!
# Runs that agree

Two runs agree on an output if both have stored the same series for it. If the
output stores the same from every store, and the runs agree on all that it
depends on, then they agree on it, too: agreement spreads along the order of
computation. From the outputs of an object it spreads to the totals. Plans that
are equivalent output by output, in whatever order they compute them, run alike.
-/

namespace Forecast

open Outcome

/-- Results that say the same about an output. -/
structure Results.AgreeOn (r r' : Results) (output : String) : Prop where
  answered : r'.answered.lookup output = r.answered.lookup output
  channels : r'.channels.lookup output = r.channels.lookup output
  entries : ∀ channel ∈ r.channelsOf output,
    r'.store.lookup (storeKey output channel) = r.store.lookup (storeKey output channel)

namespace Results.AgreeOn

variable {r r' : Results} {output : String}

theorem channelsOf (agree : r.AgreeOn r' output) : r'.channelsOf output = r.channelsOf output := by
  rw [Results.channelsOf, agree.channels]
  rfl

theorem extend {store store' : Store} (agree : r.AgreeOn r' output)
    (known : ∀ channel ∈ r.channelsOf output, storeKey output channel ∈ r.store.keys)
    (more : store.Extends r.store) (more' : store'.Extends r'.store) :
    ({ r with store } : Results).AgreeOn { r' with store := store' } output where
  answered := agree.answered
  channels := agree.channels
  entries := by
    intro channel mem
    obtain ⟨xs, found⟩ := Entries.exists_lookup (known channel mem)
    have found' := agree.entries channel mem
    rw [found] at found'
    simp only [more _ _ found, more' _ _ found']

end Results.AgreeOn

namespace Run

variable {p p' : Plan} {c c' : Conditions} {r r' : Results} {before before' : List String}
  {store store' : Store} {output channel : String} {object : String × List String}

theorem Computed.agreeOn (computed : Computed p c r output) (computed' : Computed p' c' r' output)
    (same : stores p'.model p'.symbols c' r'.store output =
      stores p.model p.symbols c r.store output) :
    r.AgreeOn r' output := by
  obtain ⟨answered, stored, gives, hanswered, hchannels, entries⟩ := computed
  obtain ⟨_, _, gives', hanswered', hchannels', entries'⟩ := computed'
  rw [gives, gives'] at same
  cases same
  refine ⟨by rw [hanswered, hanswered'], by rw [hchannels, hchannels'], ?_⟩
  intro channel mem
  rw [Results.channelsOf, hchannels, Option.getD_some] at mem
  obtain ⟨e, he, rfl⟩ := List.mem_map.1 mem
  rw [entries e he, entries' e he]

/-- What an output stores depends on the entries of its dependencies alone. -/
theorem Reached.stores_eq (sound : p.Sound) (reached : Reached p c p.order.order r)
    (known : output ∈ p.order.order)
    (agree : ∀ producer ∈ p.dependenciesOf output, ∀ channel ∈ r.channelsOf producer,
      store.lookup (storeKey producer channel) = r.store.lookup (storeKey producer channel)) :
    stores p.model p.symbols c store output = stores p.model p.symbols c r.store output := by
  obtain ⟨answered, stored, gives, -⟩ := reached.computed output known
  obtain ⟨d, hd, feed, hfeed⟩ := sound.exists_feed known
  have reads := reads_stores sound hd hfeed c
  rw [gives]
  refine reads.agree ?_ gives
  intro key read
  obtain ⟨o, ho, channel, stored, same⟩ := reached.mem_keys.1 (reads.mem_keys gives read)
  obtain ⟨producer, needed, field, rfl⟩ := Order.exists_producer read
  have depends := (sound.mem_dependencies hd hfeed).2 needed
  -- the key that is read tells the producer and the channel apart
  have name := sound.isName (sound.mem_order_of_dependency depends)
  obtain ⟨rfl, rfl⟩ := storeKey_inj name (sound.isName ho) same
  exact agree producer depends field stored

theorem Reached.agreeOn (sound : p.Sound) (reached : Reached p c p.order.order r)
    (reached' : Reached p' c' before' r') (known : output ∈ p.order.order)
    (known' : output ∈ before')
    (alike : ∀ store,
      stores p'.model p'.symbols c' store output = stores p.model p.symbols c store output)
    (agree : ∀ producer ∈ p.dependenciesOf output, r.AgreeOn r' producer) :
    r.AgreeOn r' output := by
  apply (reached.computed output known).agreeOn (reached'.computed output known')
  rw [alike]
  exact reached.stores_eq sound known fun producer depends => (agree producer depends).entries

/-- The key of a total is taken if an output of the object bears its name and has stored the
channel. -/
theorem Reached.mem_keys_object (sound : p.Sound) (reached : Reached p c p.order.order r)
    (mem : object ∈ p.symbols.outputsByObject) :
    storeKey object.1 channel ∈ r.store.keys ↔
      object.1 ∈ object.2 ∧ channel ∈ r.channelsOf object.1 := by
  obtain ⟨d, hd, rfl⟩ := sound.exists_definition mem
  rw [reached.mem_keys]
  constructor
  · rintro ⟨o, ho, channel', stored, same⟩
    obtain ⟨rfl, rfl⟩ := storeKey_inj (sound.named d hd).1 (sound.isName ho) same
    -- an output that bears the name of an object belongs to it
    obtain ⟨e, he, owned⟩ := sound.linked.exists_owner (sound.mem_order.1 ho)
    have owner := sound.linked.shared e he d hd owned
    cases sound.linked.eq_of_name_eq hd he owner
    exact ⟨owned, stored⟩
  · rintro ⟨own, stored⟩
    exact ⟨d.name, sound.ordered hd own, channel, stored, rfl⟩

theorem contributions_of_agree {outputs : List String} (agree : ∀ o ∈ outputs, r.AgreeOn r' o)
    (channel : String) : contributions r' outputs channel = contributions r outputs channel := by
  have same : (outputs.filter fun o => (r'.channelsOf o).contains channel) =
      outputs.filter fun o => (r.channelsOf o).contains channel :=
    List.filter_congr fun o ho => by rw [(agree o ho).channelsOf]
  rw [contributions, contributions, same]
  apply List.map_congr_left
  intro o ho
  obtain ⟨mem, stored⟩ := List.mem_filter.1 ho
  rw [(agree o mem).entries channel (List.contains_iff_mem.1 stored)]

/-- What is stored under the name of an object: what an output of that name has stored, or else the
total over the outputs that have stored the channel. -/
theorem Rolled.lookup_object (sound : p.Sound) (reached : Reached p c p.order.order r)
    (rolled : Rolled r c.months p.symbols.outputsByObject store)
    (mem : object ∈ p.symbols.outputsByObject) (channel : String) :
    store.lookup (storeKey object.1 channel) =
      if object.1 ∈ object.2 ∧ channel ∈ r.channelsOf object.1 then
        r.store.lookup (storeKey object.1 channel)
      else if ∃ o ∈ object.2, channel ∈ r.channelsOf o then
        (Series.sum c.months (contributions r object.2 channel)).toOption
      else none := by
  split
  · rename_i taken
    obtain ⟨xs, found⟩ := Entries.exists_lookup ((reached.mem_keys_object sound mem).2 taken)
    rw [found, rolled.extends _ _ found]
  · rename_i free
    rw [← reached.mem_keys_object sound mem] at free
    split
    · rename_i stored
      obtain ⟨o, ho, stored⟩ := stored
      obtain ⟨total, summed, found⟩ := rolled.totals object mem o ho channel stored free
      rw [found, summed]
      rfl
    · rename_i none
      rw [Entries.lookup_eq_none, rolled.keys]
      rintro (taken | ⟨other, mem', o, ho, channel', stored, same⟩)
      · exact free taken
      · obtain ⟨d, hd, rfl⟩ := sound.exists_definition mem
        obtain ⟨e, he, rfl⟩ := sound.exists_definition mem'
        obtain ⟨names, rfl⟩ := storeKey_inj (sound.named d hd).1 (sound.named e he).1 same
        cases sound.linked.eq_of_name_eq hd he names
        exact none ⟨o, ho, stored⟩

theorem Rolled.lookup_object_eq (sound : p.Sound) (sound' : p'.Sound)
    (reached : Reached p c p.order.order r) (reached' : Reached p' c' p'.order.order r')
    (rolled : Rolled r c.months p.symbols.outputsByObject store)
    (rolled' : Rolled r' c'.months p'.symbols.outputsByObject store')
    (mem : object ∈ p.symbols.outputsByObject) (mem' : object ∈ p'.symbols.outputsByObject)
    (months : c'.months = c.months) (agree : ∀ o ∈ object.2, r.AgreeOn r' o) (channel : String) :
    store'.lookup (storeKey object.1 channel) = store.lookup (storeKey object.1 channel) := by
  have own : (object.1 ∈ object.2 ∧ channel ∈ r'.channelsOf object.1) ↔
      object.1 ∈ object.2 ∧ channel ∈ r.channelsOf object.1 :=
    and_congr_right fun ho => by rw [(agree _ ho).channelsOf]
  have stored : (∃ o ∈ object.2, channel ∈ r'.channelsOf o) ↔
      ∃ o ∈ object.2, channel ∈ r.channelsOf o :=
    exists_congr fun o => and_congr_right fun ho => by rw [(agree o ho).channelsOf]
  rw [rolled.lookup_object sound reached mem, rolled'.lookup_object sound' reached' mem']
  simp only [own, stored, contributions_of_agree agree, months]
  split
  · rename_i taken
    rw [(agree _ taken.1).entries channel taken.2]
  · rfl

/-! ## Equivalent plans -/

/-- Plans under conditions in which every output depends on the same and stores the same from every
store. Their orders of computation may differ. -/
structure Equivalent (p : Plan) (c : Conditions) (p' : Plan) (c' : Conditions) : Prop where
  months : c'.months = c.months
  outputs : ∀ output, output ∈ p'.order.order ↔ output ∈ p.order.order
  dependencies : ∀ output, p'.dependenciesOf output = p.dependenciesOf output
  objects : ∀ object, object ∈ p'.symbols.outputsByObject ↔ object ∈ p.symbols.outputsByObject
  stores : ∀ output ∈ p.order.order, ∀ store,
    stores p'.model p'.symbols c' store output = stores p.model p.symbols c store output

namespace Equivalent

variable (equivalent : Equivalent p c p' c')
include equivalent

theorem symm : Equivalent p' c' p c where
  months := equivalent.months.symm
  outputs output := (equivalent.outputs output).symm
  dependencies output := (equivalent.dependencies output).symm
  objects object := (equivalent.objects object).symm
  stores output known store :=
    (equivalent.stores output ((equivalent.outputs output).1 known) store).symm

theorem agreeOn (sound : p.Sound) (sound' : p'.Sound) (reached : Reached p c p.order.order r)
    (ahead : before' <+: p'.order.order) (reached' : Reached p' c' before' r') :
    ∀ output ∈ before', r.AgreeOn r' output := by
  have all : ∀ output ∈ p'.order.order, output ∈ before' → r.AgreeOn r' output := by
    refine sound'.induction ?_
    intro output known' ih mem
    have known := (equivalent.outputs output).1 known'
    refine reached.agreeOn sound reached' known mem (equivalent.stores output known) ?_
    intro producer depends
    have depends' : producer ∈ p'.dependenciesOf output := by rwa [equivalent.dependencies]
    apply ih producer depends'
    -- what the output depends on comes before it
    obtain ⟨earlier, later, rfl⟩ := List.append_of_mem mem
    obtain ⟨rest, cut⟩ := ahead
    have behind := sound'.sorts.behind earlier output (later ++ rest) (by simp [← cut])
    exact List.mem_append_left _ (behind producer depends')
  exact fun output mem => all output (ahead.subset mem) mem

/-- When an output's turn comes in one plan, it stores what it has stored in the other. -/
theorem exists_step (sound : p.Sound) (sound' : p'.Sound) (reached : Reached p c p.order.order r)
    (ahead : before' ++ [output] <+: p'.order.order) (reached' : Reached p' c' before' r') :
    ∃ next, (step p'.model p'.symbols c' r' output).outcome = .ok next := by
  have earlier := (List.prefix_append before' [output]).trans ahead
  have agree := equivalent.agreeOn sound sound' reached earlier reached'
  have known := (equivalent.outputs output).1 (ahead.subset (by simp))
  obtain ⟨answered, stored, gives, -⟩ := reached.computed output known
  have same : Run.stores p'.model p'.symbols c' r'.store output = .ok (answered, stored) := by
    rw [equivalent.stores output known, ← gives]
    apply reached.stores_eq sound known
    intro producer depends
    rw [← equivalent.dependencies] at depends
    obtain ⟨rest, cut⟩ := ahead
    have behind := sound'.sorts.behind before' output rest (by simp [← cut])
    exact (agree producer (behind producer depends)).entries
  exact ⟨record r' output answered stored, by rw [outcome_step, same]; rfl⟩

theorem exists_steps (sound : p.Sound) (sound' : p'.Sound) (reached : Reached p c p.order.order r)
    {after : List String} (ahead : before' ++ after <+: p'.order.order)
    (reached' : Reached p' c' before' r') :
    ∃ last, (after.foldlM (step p'.model p'.symbols c') r').outcome = .ok last ∧
      Reached p' c' (before' ++ after) last := by
  induction after generalizing before' r' with
  | nil =>
    rw [List.append_nil]
    exact ⟨r', rfl, reached'⟩
  | cons output after ih =>
    have cut : before' ++ output :: after = before' ++ [output] ++ after := by simp
    rw [cut] at ahead ⊢
    have first := (List.prefix_append (before' ++ [output]) after).trans ahead
    obtain ⟨next, hnext⟩ := equivalent.exists_step sound sound' reached first reached'
    rw [List.foldlM_cons, Logged.outcome_bind, hnext, ok_bind]
    exact ih ahead (reached'.step sound' first hnext)

theorem exists_execute (sound : p.Sound) (sound' : p'.Sound) (run : (execute p c).outcome = .ok r) :
    ∃ r', (execute p' c').outcome = .ok r' := by
  obtain ⟨r₀, -, reached, -, -⟩ := execute_ok sound run
  obtain ⟨last, computed, reached'⟩ :=
    equivalent.exists_steps sound sound' reached List.prefix_rfl (reached_start p' c')
  obtain ⟨store, executed⟩ := reached'.exists_execute sound' computed
  exact ⟨_, executed⟩

theorem extends_store (sound : p.Sound) (sound' : p'.Sound) (run : (execute p c).outcome = .ok r)
    (run' : (execute p' c').outcome = .ok r') : r'.store.Extends r.store := by
  obtain ⟨r₀, -, reached, rolled, -⟩ := execute_ok sound run
  obtain ⟨r₀', -, reached', rolled', -⟩ := execute_ok sound' run'
  have agree := equivalent.agreeOn sound sound' reached List.prefix_rfl reached'
  intro key xs found
  rcases (rolled.keys key).1 (Entries.mem_keys_of_lookup found) with stored | ⟨object, mem, o, -,
    channel, -, rfl⟩
  · obtain ⟨output, known, channel, mem, rfl⟩ := reached.mem_keys.1 stored
    have entry := (agree output ((equivalent.outputs output).2 known)).entries channel mem
    obtain ⟨ys, before⟩ := Entries.exists_lookup stored
    rw [rolled.extends _ _ before] at found
    rw [before, found] at entry
    exact rolled'.extends _ _ entry
  · have mem' := (equivalent.objects object).2 mem
    rw [← found]
    refine rolled.lookup_object_eq sound sound' reached reached' rolled' mem mem'
      equivalent.months ?_
      channel
    exact fun o ho => agree o (sound'.mem_order_of_object mem' ho)

theorem lookup_eq (sound : p.Sound) (sound' : p'.Sound) (run : (execute p c).outcome = .ok r)
    (run' : (execute p' c').outcome = .ok r') (key : String) :
    r'.store.lookup key = r.store.lookup key := by
  cases found : r.store.lookup key with
  | some xs => exact equivalent.extends_store sound sound' run run' key xs found
  | none =>
    cases found' : r'.store.lookup key with
    | none => rfl
    | some ys =>
      rw [equivalent.symm.extends_store sound' sound run' run key ys found'] at found
      cases found

end Equivalent

end Run
end Forecast

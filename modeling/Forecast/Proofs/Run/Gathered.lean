import Forecast.Proofs.Run.Agreement
import Forecast.Proofs.Run.Equations
import Forecast.Proofs.Run.References

/-!
# What references to objects have read

A reference to an object is the sum over its outputs, taken from the store when
the reader's turn comes. The total of the object is summed again when all
outputs are computed. Since what is stored stays, overrides included, and both
sums run through the same outputs in the same order, they are the same series.
-/

namespace Forecast

open Outcome

namespace Store

variable {s : Symbols} {d : Definition} {output : String} {months : Nat} {store store' : Store}
  {outputs : List String} {object field place : String} {position : Int} {total sum : Series Float}

theorem exists_input_of_inputs {feed : List Nat} {inputs : List (Series Float)} {k i : Nat}
    {a : Argument} (h : store.inputs s d output months (feed.map Int.ofNat) = .ok inputs)
    (here : feed[k]? = some i) (argument : d.arguments[i]? = some a) :
    ∃ xs, inputs[k]? = some xs ∧ store.input s d output months i a = .ok xs := by
  obtain ⟨lengths, each⟩ := List.forall₂_iff_get.1 (mapM_eq_ok.1 h)
  obtain ⟨hk, at_k⟩ := List.getElem?_eq_some_iff.1 here
  rw [List.length_map] at lengths
  have denoted := each k (by simpa using hk) (lengths ▸ hk)
  simp only [List.get_eq_getElem, List.getElem_map, at_k, Int.ofNat_eq_natCast,
    argumentAt?_natCast, argument] at denoted
  exact ⟨_, List.getElem?_eq_getElem _, denoted⟩

theorem foldlM_addEntry (more : Extends store' store)
    (h : outputs.foldlM (store.addEntry object field place position) total = .ok sum) :
    (∀ o ∈ outputs, storeKey o field ∈ store'.keys) ∧
      (outputs.map fun o => (store'.lookup (storeKey o field)).getD []).foldlM Series.add total =
        .ok sum := by
  induction outputs generalizing total with
  | nil =>
    cases h
    exact ⟨by simp, rfl⟩
  | cons o outputs ih =>
    simp only [List.foldlM_cons, addEntry, bind_eq_ok] at h
    obtain ⟨next, ⟨xs, entry, added⟩, h⟩ := h
    have added : total.add xs = .ok next := mapError_eq_ok.1 added
    have found : store'.lookup (storeKey o field) = some xs := by
      apply more
      have entry := mapError_eq_ok.1 entry
      rw [Store.entry] at entry
      split at entry
      · rename_i found
        cases entry
        exact found
      · cases entry
    obtain ⟨known, rest⟩ := ih h
    refine ⟨?_, ?_⟩
    · rintro o' (_ | ⟨_, mem⟩)
      · exact Entries.mem_keys_of_lookup found
      · exact known o' mem
    · rw [List.map_cons, List.foldlM_cons, found, Option.getD_some, added, ok_bind]
      exact rest

end Store

namespace Run

variable {p : Plan} {c : Conditions} {d : Definition} {output name field raw : String}
  {spreadOf : Option String} {before after : List String} {r r₀ r₁ : Results} {feed : List Nat}
  {inputs : List (Series Float)} {xs : Series Float} {k i : Nat}

/-- A series is the one at some place among those that a run gathers for an output. -/
def Gathers (p : Plan) (c : Conditions) (d : Definition) (output : String) (k : Nat)
    (xs : Series Float) : Prop :=
  ∃ before after r inputs, p.order.order = before ++ output :: after ∧
    (before.foldlM (step p.model p.symbols c) start).outcome = .ok r ∧
      gather p.symbols d c.months r.store output = .ok inputs ∧ inputs[k]? = some xs

/-- When the turn of an output comes in a run that succeeds, its inputs are gathered. -/
theorem exists_gather_of_cut (sound : p.Sound) (hd : d ∈ p.model.definitions)
    (hfeed : (output, feed) ∈ d.feedTable) (cut : p.order.order = before ++ output :: after)
    (h : (p.order.order.foldlM (step p.model p.symbols c) start).outcome = .ok r) :
    ∃ r₁ inputs, (before.foldlM (step p.model p.symbols c) start).outcome = .ok r₁ ∧
      gather p.symbols d c.months r₁.store output = .ok inputs := by
  rw [cut, List.foldlM_append, Logged.outcome_bind, bind_eq_ok] at h
  obtain ⟨r₁, first, h⟩ := h
  simp only [List.foldlM_cons, Logged.outcome_bind, outcome_step, stores_eq sound hd hfeed,
    bind_eq_ok] at h
  obtain ⟨_, ⟨_, ⟨inputs, gathered, -⟩, -⟩, -⟩ := h
  exact ⟨r₁, inputs, first, gathered⟩

theorem Reached.notMem_keys_object (sound : p.Sound) (reached : Reached p c p.order.order r)
    (hd : d ∈ p.model.definitions) (noOutput : p.symbols.outputs.has d.name = false)
    (channel : String) : storeKey d.name channel ∉ r.store.keys := by
  rw [reached.mem_keys_object sound (sound.mem_outputsByObject hd)]
  rintro ⟨own, -⟩
  rw [Entries.has_iff.2 (sound.linked.mem_outputOrder hd own)] at noOutput
  cases noOutput

/-- What the outputs of an object add up to in an earlier store is what they have contributed to the
total in the end. -/
theorem Reached.sum_contributions (sound : p.Sound) (reached : Reached p c p.order.order r₀)
    (hd : d ∈ p.model.definitions) {store : Store} (more : r₀.store.Extends store)
    {place : String} {position : Int}
    (h : d.outputNames.foldlM (store.addEntry d.name field place position)
      (Series.zeros c.months) = .ok xs) :
    (∀ o ∈ d.outputNames, field ∈ r₀.channelsOf o) ∧
      Series.sum c.months (contributions r₀ d.outputNames field) = .ok xs := by
  obtain ⟨known, summed⟩ := Store.foldlM_addEntry more h
  have stored : ∀ o ∈ d.outputNames, field ∈ r₀.channelsOf o := by
    intro o ho
    have name := sound.isName (sound.ordered hd ho)
    exact (reached.mem_channelsOf sound (List.Subset.refl _) name (known o ho)).2
  have all : (d.outputNames.filter fun o => (r₀.channelsOf o).contains field) = d.outputNames := by
    rw [List.filter_eq_self]
    exact fun o ho => List.contains_iff_mem.2 (stored o ho)
  refine ⟨stored, ?_⟩
  rw [contributions, all]
  exact summed

/-- What a reference to an object has read is the total that is stored for the object. -/
theorem lookup_of_gather (sound : p.Sound)
    (steps : (p.order.order.foldlM (step p.model p.symbols c) start).outcome = .ok r₀)
    (reached : Reached p c p.order.order r₀)
    (rolled : Rolled r₀ c.months p.symbols.outputsByObject r.store)
    (hd : d ∈ p.model.definitions) (hfeed : (output, feed) ∈ d.feedTable)
    (here : feed[k]? = some i)
    (argument : d.arguments[i]? = some (.reference name field raw spreadOf))
    (object : p.symbols.objects.has name = true) (noOutput : p.symbols.outputs.has name = false)
    (cut : p.order.order = before ++ output :: after)
    (first : (before.foldlM (step p.model p.symbols c) start).outcome = .ok r₁)
    (gathered : gather p.symbols d c.months r₁.store output = .ok inputs) :
    ∃ total, inputs[k]? = some total ∧ r.store.lookup (storeKey name field) = some total := by
  have linked := sound.linked
  rw [gather_eq linked hd hfeed] at gathered
  obtain ⟨xs, at_k, denoted⟩ := Store.exists_input_of_inputs gathered here argument
  refine ⟨xs, at_k, ?_⟩
  obtain ⟨target, htarget, rfl⟩ := sound.exists_named object
  simp only [Store.input, noOutput, object, if_true, Bool.false_eq_true, if_false,
    linked.outputsOf htarget] at denoted
  -- The store only grows after the reader's turn, so what was added up is still there.
  obtain ⟨_, new, first', grown⟩ := exists_append_of_cut sound cut steps
  rw [first] at first'
  cases first'
  have more : r₀.store.Extends r₁.store := grown ▸ Store.Extends.append _ _
  obtain ⟨stored, summed⟩ := reached.sum_contributions sound htarget more denoted
  obtain ⟨o, ho⟩ := List.exists_mem_of_ne_nil _ target.outputNames_ne_nil
  obtain ⟨total, again, found⟩ := rolled.totals _ (sound.mem_outputsByObject htarget) o ho field
    (stored o ho) (reached.notMem_keys_object sound htarget noOutput field)
  rw [summed] at again
  cases again
  exact found

/-- Reading an object is reading its total: a reference to an object that is not an output feeds
some output of its definition, and for each that it feeds, the run gathers the series that the store
holds in the end under the name of the object. No output has stored it there. -/
theorem gathers_total {text : String} (plan : Plan.ofSource text = .ok p)
    (run : (execute p c).outcome = .ok r) (hd : d ∈ p.model.definitions)
    (argument : d.arguments[i]? = some (.reference name field raw spreadOf))
    (object : p.symbols.objects.has name = true) (noOutput : p.symbols.outputs.has name = false) :
    (∃ output ∈ d.outputNames, ∃ feed, feedOf p.symbols d output = .ok feed ∧ i ∈ feed) ∧
      ∀ output ∈ d.outputNames, ∀ feed, feedOf p.symbols d output = .ok feed →
        ∀ k, feed[k]? = some i → ∃ total, r.store.lookup (storeKey name field) = some total ∧
          (∀ o ∈ p.order.order, ∀ channel ∈ r.channelsOf o,
            storeKey o channel ≠ storeKey name field) ∧
          ∀ xs, Gathers p c d output k xs ↔ xs = total := by
  have sound := Plan.sound_of_ofSource plan
  obtain ⟨r₀, steps, reached, rolled, same⟩ := execute_ok sound run
  constructor
  · obtain ⟨hi, -⟩ := List.getElem?_eq_some_iff.1 argument
    obtain ⟨output, mem, feed, hfeed, fed⟩ := Definition.exists_feed_of_argument hi
    exact ⟨output, mem, feed, feedOf_eq sound.linked hd hfeed, fed⟩
  intro output mem feed' fed k here
  obtain ⟨feed, hfeed⟩ := Definition.exists_feed mem
  rw [feedOf_eq sound.linked hd hfeed] at fed
  cases fed
  obtain ⟨before, after, cut⟩ := List.append_of_mem (sound.ordered hd mem)
  obtain ⟨r₁, inputs, first, gathered⟩ := exists_gather_of_cut sound hd hfeed cut steps
  obtain ⟨total, at_k, found⟩ :=
    lookup_of_gather sound steps reached rolled hd hfeed here argument object noOutput cut
      first gathered
  refine ⟨total, found, ?_, ?_⟩
  · intro o ho channel stored eq
    obtain ⟨target, htarget, rfl⟩ := sound.exists_named object
    rw [same] at stored
    apply reached.notMem_keys_object sound htarget noOutput field
    exact reached.mem_keys.2 ⟨o, ho, channel, stored, eq.symm⟩
  · intro xs
    constructor
    · rintro ⟨before, after, r₁, inputs, cut, first, gathered, at_k'⟩
      obtain ⟨total', at_k, found'⟩ := lookup_of_gather sound steps reached rolled hd hfeed here
        argument object noOutput cut first gathered
      rw [found] at found'
      cases found'
      rw [at_k] at at_k'
      exact (Option.some.inj at_k').symm
    · rintro rfl
      exact ⟨before, after, r₁, inputs, cut, first, gathered, at_k⟩

def readTwice : String :=
  "S:\nA = Sum(7) => a, b\nB = Sum(...A.val, A.val) => t"

theorem gathers_total_readTwice : ∃ p d r total, Plan.ofSource readTwice = .ok p ∧
    (execute p sums).outcome = .ok r ∧
    r.store.keys = ["a.val", "b.val", "t.val", "A.val", "B.val"] ∧
    p.model.definitions[1]? = some d ∧ r.store.lookup "A.val" = some total ∧
    ∀ xs, Gathers p sums d "t" 2 xs ↔ xs = total := by
  have keys : (Plan.ofSource readTwice >>= fun p => (execute p sums).outcome).toOption.map
      (fun r => r.store.keys) = some ["a.val", "b.val", "t.val", "A.val", "B.val"] := by
    decide +kernel
  have second : (Plan.ofSource readTwice).toOption.map (fun p =>
      ((p.symbols.objects.has "A", p.symbols.outputs.has "A"),
        p.model.definitions[1]?.map fun d => (d.outputNames, (feedOf p.symbols d "t").toOption))) =
      some ((true, false), some (["t"], some [0, 1, 2])) := by decide +kernel
  have third : (Plan.ofSource readTwice).toOption.map (fun p =>
      (p.model.definitions[1]?.bind (·.arguments[2]?)).bind fun a => a.casesOn
        (fun name field raw spreadOf => some (name, field, raw, spreadOf)) (fun _ _ _ => none)
        (fun _ _ => none) fun _ => none) = some (some ("A", "val", "A.val", none)) := by
    decide +kernel
  obtain ⟨r, both, keys⟩ := exists_of_toOption_map keys
  obtain ⟨p, plan, run⟩ := bind_eq_ok.1 both
  simp only [plan, Except.toOption, Option.map_some, Option.some.injEq,
    Prod.mk.injEq] at second third
  obtain ⟨⟨object, noOutput⟩, second⟩ := second
  obtain ⟨d, at_1, second⟩ := Option.map_eq_some_iff.1 second
  obtain ⟨own, fed⟩ := Prod.mk.inj second
  rw [at_1, Option.bind_some, Option.bind_eq_some_iff] at third
  obtain ⟨a, argument, third⟩ := third
  have feed : feedOf p.symbols d "t" = .ok [0, 1, 2] := by
    cases feed : feedOf p.symbols d "t" with
    | error fault => simp [feed] at fed
    | ok feed' => simpa [feed] using fed
  cases a with
  | reference name field raw spreadOf =>
    cases third
    obtain ⟨-, each⟩ := gathers_total plan run (List.mem_of_getElem? at_1) argument object noOutput
    obtain ⟨total, found, -, gathers⟩ := each "t" (by simp [own]) _ feed 2 rfl
    exact ⟨p, d, r, total, plan, run, keys, at_1, found, gathers⟩
  | spread object field raw => cases third
  | number value raw => cases third
  | word text => cases third

end Run
end Forecast

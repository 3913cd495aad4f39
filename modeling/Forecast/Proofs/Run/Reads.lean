import Forecast.Proofs.Names
import Forecast.Proofs.Order.Dependencies
import Forecast.Run

/-!
# What is read

A computation on a store reads the entries of some keys: on every store that
has the same entries there it answers the same, and without one of them it
fails for just that key. Gathering the inputs of an output reads, for each
argument that feeds it, the entries of the outputs that the argument denotes.
-/

namespace Forecast

open Outcome

def Fault.missingKey? : Fault → Option String
  | .run (.missingInput key ..) => some key
  | _ => none

namespace Store

variable {α β σ : Type} {keys keys' : List String}

/-- Stores with the same entries under some keys. -/
def Agree (keys : List String) (store store' : Store) : Prop :=
  ∀ key ∈ keys, store'.lookup key = store.lookup key

/-- A store without the entry of a key. -/
def without (store : Store) (key : String) : Store :=
  store.filter fun e => e.1 != key

theorem lookup_without (store : Store) (key other : String) :
    (store.without key).lookup other = if other = key then none else store.lookup other := by
  induction store with
  | nil => simp [without]
  | cons e store ih =>
    obtain ⟨k, v⟩ := e
    simp only [without, List.filter_cons] at ih ⊢
    by_cases hk : k = key
    · subst hk
      simp only [bne_self_eq_false, Bool.false_eq_true, if_false, ih]
      split
      · rfl
      · rename_i ne
        rw [List.lookup_cons, beq_eq_false_iff_ne.2 ne]
    · have kept : (k != key) = true := by simpa using hk
      rw [if_pos kept, List.lookup_cons, List.lookup_cons, ih]
      by_cases ho : other = k
      · subst ho
        simp [hk]
      · rw [beq_eq_false_iff_ne.2 ho]

/-- A computation reads the entries of some keys. -/
structure Reads (f : Store → Except Fault α) (keys : List String) : Prop where
  agree : ∀ {store store' : Store} {a : α}, Agree keys store store' → f store = .ok a →
    f store' = .ok a
  missing : ∀ {store : Store} {a : α} {key : String}, key ∈ keys → f store = .ok a →
    ∃ fault, f (store.without key) = .error fault ∧ fault.missingKey? = some key

theorem agree_without {store : Store} {key : String} (h : key ∉ keys) :
    Agree keys store (store.without key) := by
  intro other mem
  have ne : other ≠ key := fun eq => h (eq ▸ mem)
  rw [lookup_without, if_neg ne]

namespace Reads

theorem const (x : Except Fault α) : Reads (fun _ => x) [] where
  agree _ h := h
  missing h := by simp at h

theorem fails {x : Except Fault α} (h : ∀ a, x ≠ .ok a) : Reads (fun _ => x) keys where
  agree _ ok := absurd ok (h _)
  missing _ ok := absurd ok (h _)

theorem bind {f : Store → Except Fault α} {g : Store → α → Except Fault β} (hf : Reads f keys)
    (hg : ∀ a, Reads (fun store => g store a) keys') :
    Reads (fun store => f store >>= g store) (keys ++ keys') where
  agree := by
    intro store store' b same h
    obtain ⟨a, ha, hb⟩ := bind_eq_ok.1 h
    have ha' := hf.agree (fun key mem => same key (List.mem_append_left _ mem)) ha
    have hb' := (hg a).agree (fun key mem => same key (List.mem_append_right _ mem)) hb
    exact bind_eq_ok.2 ⟨a, ha', hb'⟩
  missing := by
    intro store b key mem h
    obtain ⟨a, ha, hb⟩ := bind_eq_ok.1 h
    by_cases first : key ∈ keys
    · obtain ⟨fault, failed, missing⟩ := hf.missing first ha
      exact ⟨fault, bind_eq_error.2 (.inl failed), missing⟩
    · have ha' := hf.agree (agree_without first) ha
      have second := (List.mem_append.1 mem).resolve_left first
      obtain ⟨fault, failed, missing⟩ := (hg a).missing second hb
      exact ⟨fault, bind_eq_error.2 (.inr ⟨a, ha', failed⟩), missing⟩

theorem foldlM {f : Store → σ → β → Except Fault σ} {reads : β → List String}
    (h : ∀ total x, Reads (fun store => f store total x) (reads x)) (l : List β) (total : σ) :
    Reads (fun store => l.foldlM (f store) total) (l.flatMap reads) := by
  induction l generalizing total with
  | nil => exact const _
  | cons x l ih =>
    simp only [List.foldlM_cons, List.flatMap_cons]
    exact (h total x).bind ih

theorem mapM {f : Store → β → Except Fault α} {reads : β → List String}
    (h : ∀ x, Reads (fun store => f store x) (reads x)) (l : List β) :
    Reads (fun store => l.mapM (f store)) (l.flatMap reads) := by
  induction l with
  | nil => exact const _
  | cons x l ih =>
    have rest : ∀ y, Reads (fun store => l.mapM (f store) >>= fun ys => pure (y :: ys))
        (l.flatMap reads ++ []) := fun y => ih.bind fun ys => const _
    simp only [List.append_nil] at rest
    simp only [List.mapM_cons, List.flatMap_cons]
    exact (h x).bind rest

theorem entry (key place : String) (argument : Int) (object : Option String) :
    Reads (fun store => (store.entry key place argument object : Except Fault (Series Float)))
      [key] where
  agree := by
    intro store store' xs same h
    have here := same key (by simp)
    simp only [Store.entry] at h ⊢
    cases found : store.lookup key with
    | none =>
      rw [found] at h
      cases h
    | some ys =>
      rw [found] at h here
      rw [here]
      exact h
  missing := by
    intro store xs key' mem h
    cases List.mem_singleton.1 mem
    have gone : (store.without key).lookup key = none := by
      rw [lookup_without, if_pos rfl]
    rw [Store.entry, gone]
    exact ⟨_, rfl, rfl⟩

theorem addEntry (object field place : String) (argument : Int) (total : Series Float)
    (output : String) :
    Reads (fun store => store.addEntry object field place argument total output)
      [storeKey output field] := by
  simp only [Store.addEntry]
  exact (entry _ _ _ _).bind fun _ => const _

theorem addEntries (object field place : String) (argument : Int) (outputs : List String)
    (total : Series Float) :
    Reads (fun store => outputs.foldlM (store.addEntry object field place argument) total)
      (outputs.map fun o => storeKey o field) := by
  rw [List.map_eq_flatMap]
  have each := fun total o => addEntry object field place argument total o
  exact foldlM each outputs total

end Reads

end Store

variable {m : Model} {s : Symbols} {d : Definition} {output : String} {feed : List Nat}

def Symbols.keysRead (s : Symbols) : Argument → List String
  | .reference name field raw spreadOf =>
    (s.producers (.reference name field raw spreadOf)).map fun p => storeKey p field
  | .spread .. => []
  | .number .. => []
  | .word _ => []

def Symbols.keysAt (s : Symbols) (d : Definition) (feed : List Nat) : List String :=
  feed.flatMap fun i => (d.arguments[i]?.map s.keysRead).getD []

/-- An argument reads the entries of the outputs that it denotes. -/
theorem Store.Reads.input (s : Symbols) (d : Definition) (output : String) (months : Nat)
    (position : Int) (a : Argument) :
    Store.Reads (fun store => store.input s d output months position a) (s.keysRead a) := by
  cases a with
  | reference name field raw spreadOf =>
    simp only [Store.input, Symbols.keysRead, Symbols.producers]
    split
    · exact .entry _ _ _ _
    · split
      · exact .addEntries name field (Store.place d output) position (s.outputsOf name) _
      · exact .fails (by simp [throw, throwThe, MonadExceptOf.throw])
  | spread object field raw => exact .const _
  | number value raw => exact .const _
  | word text => exact .const _

theorem Store.Reads.inputs (s : Symbols) (d : Definition) (output : String) (months : Nat)
    (feed : List Nat) :
    Store.Reads (fun store => store.inputs s d output months (feed.map Int.ofNat))
      (s.keysAt d feed) := by
  simp only [Store.inputs, List.mapM_map, Symbols.keysAt]
  refine .mapM (fun i => ?_) feed
  simp only [Int.ofNat_eq_natCast, Function.comp_def, Store.argumentAt?_natCast]
  cases d.arguments[i]? with
  | none => exact .const _
  | some a => exact .input s d output months i a

namespace Run

theorem feedOf_eq (linked : Linked m s) (hd : d ∈ m.definitions)
    (h : (output, feed) ∈ d.feedTable) :
    feedOf s d output = .ok feed := by
  have found := linked.lookup_feedTable hd h
  unfold Definition.feedTable at found
  simp only [feedOf, linked.outputsOf hd, linked.routed d hd, ok_bind, found]
  rfl

theorem gather_eq (linked : Linked m s) (hd : d ∈ m.definitions) (h : (output, feed) ∈ d.feedTable)
    (months : Nat) (store : Store) :
    gather s d months store output = store.inputs s d output months (feed.map Int.ofNat) := by
  rw [gather, feedOf_eq linked hd h]
  rfl

theorem reads_gather (linked : Linked m s) (hd : d ∈ m.definitions)
    (h : (output, feed) ∈ d.feedTable) (months : Nat) :
    Store.Reads (fun store => gather s d months store output) (s.keysAt d feed) := by
  simp only [gather_eq linked hd h]
  exact .inputs s d output months feed

end Run

theorem Symbols.mem_keysAt {key : String} :
    key ∈ s.keysAt d feed ↔ ∃ i ∈ feed, ∃ name field raw spreadOf,
      d.arguments[i]? = some (.reference name field raw spreadOf) ∧
        ∃ p ∈ s.producers (.reference name field raw spreadOf), key = storeKey p field := by
  simp only [Symbols.keysAt, List.mem_flatMap]
  refine exists_congr fun i => and_congr_right fun _ => ?_
  cases d.arguments[i]? with
  | none => simp
  | some a => cases a <;> simp [Symbols.keysRead, eq_comm]

namespace Order

theorem exists_producer {key : String} (h : key ∈ s.keysAt d feed) :
    ∃ p ∈ needsAt s d feed, ∃ field, key = storeKey p field := by
  obtain ⟨i, hi, _, field, _, _, argument, p, hp, rfl⟩ := Symbols.mem_keysAt.1 h
  exact ⟨p, mem_needsAt.2 ⟨i, hi, _, argument, hp⟩, field, rfl⟩

theorem exists_field {p : String} (h : p ∈ needsAt s d feed) :
    ∃ field, storeKey p field ∈ s.keysAt d feed := by
  obtain ⟨i, hi, a, argument, hp⟩ := mem_needsAt.1 h
  cases a with
  | reference name field raw spreadOf =>
    exact ⟨field, Symbols.mem_keysAt.2 ⟨i, hi, _, _, _, _, argument, p, hp, rfl⟩⟩
  | spread object field raw => simp [Symbols.producers] at hp
  | number value raw => simp [Symbols.producers] at hp
  | word text => simp [Symbols.producers] at hp

/-- An output reads entries of exactly the outputs that it needs. -/
theorem mem_needsAt_iff_read (linked : Linked m s) (named : m.Named) {p : String}
    (known : p ∈ s.outputOrder) :
    p ∈ needsAt s d feed ↔ ∃ field, storeKey p field ∈ s.keysAt d feed := by
  refine ⟨exists_field, ?_⟩
  rintro ⟨field, read⟩
  obtain ⟨p', hp', field', same⟩ := exists_producer read
  obtain ⟨i, -, a, -, denoted⟩ := mem_needsAt.1 hp'
  have known' := linked.mem_outputOrder_of_producers denoted
  obtain ⟨rfl, -⟩ :=
    storeKey_inj (linked.isName named known) (linked.isName named known') same
  exact hp'

end Order
end Forecast

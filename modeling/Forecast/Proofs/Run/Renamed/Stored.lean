import Forecast.Proofs.Renamed
import Forecast.Run

/-!
# Stores of renamed models

The store of a renamed model has the same series in the same order, under the
keys of the new names. If no point occurs in the names, old and new, such a
store answers to the new keys what the store answers to the old ones, so the
same inputs are read from it.
-/

namespace Forecast

open Outcome

variable {f : String → String} {names : List String} {name name' channel channel' : String}

/-- Names that stay apart in the keys of a store when they are renamed. -/
structure StayApart (f : String → String) (names : List String) : Prop where
  injective : f.Injective
  before : ∀ name ∈ names, PointFree name
  after : ∀ name ∈ names, PointFree (f name)

theorem StayApart.storeKey_eq_iff (apart : StayApart f names) (known : name ∈ names)
    (known' : name' ∈ names) :
    storeKey (f name) channel = storeKey (f name') channel' ↔
      storeKey name channel = storeKey name' channel' := by
  constructor
  · intro same
    obtain ⟨renamed, rfl⟩ := (apart.after name known).storeKey_inj (apart.after name' known') same
    rw [apart.injective renamed]
  · intro same
    obtain ⟨rfl, rfl⟩ := (apart.before name known).storeKey_inj (apart.before name' known') same
    rfl

/-- All owners of entries are among some names. -/
structure Symbols.Among (s : Symbols) (names : List String) : Prop where
  outputs : ∀ output ∈ s.outputOrder, output ∈ names
  objects : ∀ object ∈ s.outputsByObject, object.1 ∈ names ∧ ∀ output ∈ object.2, output ∈ names

theorem Symbols.Among.outputsOf {s : Symbols} (among : s.Among names) (object : String) :
    ∀ output ∈ s.outputsOf object, output ∈ names := by
  intro output mem
  unfold Symbols.outputsOf at mem
  cases found : s.outputsByObject.lookup object with
  | none => simp [found] at mem
  | some outputs =>
    rw [found] at mem
    exact (among.objects _ (Entries.mem_of_lookup found)).2 output mem

namespace Store

/-- An entry of an owner, and the entry that the renamed owner has instead. -/
inductive RenamedEntry (f : String → String) (names : List String) :
    String × Series Float → String × Series Float → Prop
  | intro {owner : String} (known : owner ∈ names) (channel : String) (xs : Series Float) :
    RenamedEntry f names (storeKey owner channel, xs) (storeKey (f owner) channel, xs)

/-- The same series in the same order, under the keys of owners and of the renamed owners. -/
def Renamed (f : String → String) (names : List String) (store store' : Store) : Prop :=
  List.Forall₂ (RenamedEntry f names) store store'

theorem argumentAt?_renamed (d : Definition) (i : Int) :
    argumentAt? (d.renamed f) i = (argumentAt? d i).map (Argument.renamed f) := by
  simp only [argumentAt?, Definition.arguments_renamed, List.getElem?_map, List.length_map]
  split
  · rfl
  · split <;> rfl

namespace Renamed

variable {store store' : Store}

theorem congr {g : String → String} (renamed : Renamed f names store store')
    (same : ∀ name ∈ names, f name = g name) : Renamed g names store store' := by
  refine renamed.imp ?_
  rintro _ _ ⟨known, channel, xs⟩
  rw [same _ known]
  exact .intro known channel xs

theorem lookup (apart : StayApart f names) (renamed : Renamed f names store store')
    (known : name ∈ names) (channel : String) :
    store'.lookup (storeKey (f name) channel) = store.lookup (storeKey name channel) := by
  induction renamed with
  | nil => rfl
  | cons entry _ ih =>
    obtain ⟨known', channel', xs⟩ := entry
    rw [List.lookup_cons, List.lookup_cons, ih]
    congr 1
    rw [Bool.eq_iff_iff, beq_iff_eq, beq_iff_eq, apart.storeKey_eq_iff known known']

theorem put (apart : StayApart f names) (renamed : Renamed f names store store')
    (known : name ∈ names) (channel : String) (xs : Series Float) :
    Renamed f names (store.put (storeKey name channel) xs)
      (store'.put (storeKey (f name) channel) xs) := by
  induction renamed with
  | nil => exact .cons (.intro known channel xs) .nil
  | cons entry rest ih =>
    obtain ⟨known', channel', ys⟩ := entry
    simp only [Entries.put, apart.storeKey_eq_iff known' known]
    split
    · exact .cons (.intro known' channel' xs) rest
    · exact .cons (.intro known' channel' ys) ih

theorem foldl_put (apart : StayApart f names) (renamed : Renamed f names store store')
    (known : name ∈ names) (entries : Entries (Series Float)) :
    Renamed f names (entries.foldl (fun store e => store.put (storeKey name e.1) e.2) store)
      (entries.foldl (fun store e => store.put (storeKey (f name) e.1) e.2) store') := by
  induction entries generalizing store store' with
  | nil => exact renamed
  | cons e entries ih => exact ih (renamed.put apart known e.1 e.2)

theorem addMissing (apart : StayApart f names) (renamed : Renamed f names store store')
    (known : name ∈ names) (entries : Entries (Series Float)) :
    Renamed f names (store.addMissing (entries.map fun e => (storeKey name e.1, e.2)))
      (store'.addMissing (entries.map fun e => (storeKey (f name) e.1, e.2))) := by
  unfold Entries.addMissing
  induction entries generalizing store store' with
  | nil => exact renamed
  | cons e entries ih =>
    simp only [List.map_cons, List.foldl_cons, renamed.lookup apart known]
    split
    · exact ih renamed
    · exact ih (List.rel_append renamed (.cons (.intro known e.1 e.2) .nil))

/-! ## Inputs -/

theorem entry (apart : StayApart f names) (renamed : Renamed f names store store')
    (known : name ∈ names) (field place place' : String) (argument : Int)
    (object object' : Option String) :
    Related Eq (store.entry (storeKey name field) place argument object)
      (store'.entry (storeKey (f name) field) place' argument object') := by
  unfold Store.entry
  rw [renamed.lookup apart known]
  cases store.lookup (storeKey name field) with
  | none => exact .error _ _
  | some xs => exact .ok rfl

theorem addEntry (apart : StayApart f names) (renamed : Renamed f names store store')
    (known : name ∈ names) (object object' field place place' : String) (argument : Int)
    (total : Series Float) :
    Related Eq (store.addEntry object field place argument total name)
      (store'.addEntry object' field place' argument total (f name)) := by
  refine (renamed.entry apart known ..).mapError.bind ?_
  rintro xs _ rfl
  exact .of_eq rfl

variable {s : Symbols}

theorem input (apart : StayApart f names) (among : s.Among names)
    (renamed : Renamed f names store store')
    (d : Definition) (output : String) (months : Nat) (i : Int) (a : Argument) :
    Related Eq (store.input s d output months i a)
      (store'.input (s.renamed f) (d.renamed f) (f output) months i (a.renamed f)) := by
  cases a with
  | reference name field raw spreadOf =>
    simp only [Argument.renamed, Store.input, s.outputs_has_renamed apart.injective,
      s.objects_has_renamed apart.injective, s.outputsOf_renamed apart.injective]
    refine .ite Iff.rfl (fun has => ?_) fun _ => .ite Iff.rfl (fun _ => ?_) fun _ => .error _ _
    · have known := among.outputs name (Entries.has_iff.1 has)
      exact (renamed.entry apart known ..).mapError
    · refine .foldlM f rfl ?_
      rintro producer mem total _ rfl
      exact renamed.addEntry apart (among.outputsOf name producer mem) ..
  | spread object field raw => exact .error _ _
  | number value raw => exact .ok rfl
  | word text => exact .ok rfl

theorem inputs (apart : StayApart f names) (among : s.Among names)
    (renamed : Renamed f names store store')
    (d : Definition) (output : String) (months : Nat) (positions : List Int) :
    Related Eq (store.inputs s d output months positions)
      (store'.inputs (s.renamed f) (d.renamed f) (f output) months positions) := by
  refine .mapM_self fun i _ => ?_
  rw [argumentAt?_renamed]
  cases argumentAt? d i with
  | none => exact .error _ _
  | some a => exact renamed.input apart among ..

end Renamed
end Store
end Forecast

import Forecast.Assumption.Edit
import Forecast.Proofs.Outcome

/-!
# Single places of lists

A place is a number that stands for a position in a list: a place beyond the end
extends the list, with gaps in between, and a negative place counts from the end.
A part of a raw assumption that is edited at one place, and read again, is what
was read before with one entry put in position. Entries put in one position
replace each other, and entries put in different positions commute.
-/

namespace Forecast

open Outcome

/-! ## Positions -/

section

variable {α : Type} {gap x y : α} {xs ys : List α} {j k : Nat}

/-- The position of a place in a list of some length. -/
def position (length : Nat) (place : Int) : Nat :=
  if 0 ≤ place then place.toNat else (length + place).toNat

/-- A list with an entry put in position; a list that is too short is extended, with gaps. -/
def putAt (gap : α) (k : Nat) (x : α) (xs : List α) : List α :=
  (xs ++ List.replicate (k + 1 - xs.length) gap).set k x

theorem position_of_nonneg {place : Int} (h : 0 ≤ place) (length : Nat) :
    position length place = place.toNat := if_pos h

theorem position_lt_of_neg {place : Int} {length : Nat} (h : place < 0)
    (inside : -(length : Int) ≤ place) :
    position length place < length := by
  rw [position, if_neg (by omega)]
  omega

@[simp] theorem length_putAt (gap : α) (k : Nat) (x : α) (xs : List α) :
    (putAt gap k x xs).length = max xs.length (k + 1) := by
  simp only [putAt, List.length_set, List.length_append, List.length_replicate]
  omega

theorem getElem?_putAt (gap : α) (k : Nat) (x : α) (xs : List α) (j : Nat) :
    (putAt gap k x xs)[j]? =
      if j = k then some x else if j < k then some (xs[j]?.getD gap) else xs[j]? := by
  have long : k < (xs ++ List.replicate (k + 1 - xs.length) gap).length := by
    simp only [List.length_append, List.length_replicate]
    omega
  unfold putAt
  by_cases here : j = k
  · subst here
    rw [if_pos rfl, List.getElem?_set_self long]
  · rw [if_neg here, List.getElem?_set_ne (Ne.symm here), List.getElem?_append]
    by_cases old : j < xs.length
    · rw [if_pos old, List.getElem?_eq_getElem old]
      simp
    · rw [if_neg old, List.getElem?_replicate, List.getElem?_eq_none (by omega : xs.length ≤ j)]
      by_cases before : j < k
      · rw [if_pos before, if_pos (by omega)]
        rfl
      · rw [if_neg before, if_neg (by omega)]

theorem putAt_of_lt (h : k < xs.length) (gap x : α) : putAt gap k x xs = xs.set k x := by
  rw [putAt, Nat.sub_eq_zero_of_le h, List.replicate_zero, List.append_nil]

theorem putAt_putAt (gap : α) (k : Nat) (x y : α) (xs : List α) :
    putAt gap k y (putAt gap k x xs) = putAt gap k y xs := by
  apply List.ext_getElem?
  intro j
  simp only [getElem?_putAt]
  by_cases here : j = k
  · simp [here]
  · by_cases before : j < k <;> simp [here, before]

theorem putAt_comm (ne : j ≠ k) (gap x y : α) (xs : List α) :
    putAt gap j y (putAt gap k x xs) = putAt gap k x (putAt gap j y xs) := by
  apply List.ext_getElem?
  intro i
  simp only [getElem?_putAt]
  by_cases atJ : i = j
  · subst atJ
    simp [ne]
  · by_cases atK : i = k
    · subst atK
      simp [atJ]
    · by_cases beforeJ : i < j <;> by_cases beforeK : i < k <;> simp [atJ, atK, beforeJ, beforeK]

theorem mapM_replicate {ε β : Type} {f : α → Except ε β} {y : β} (h : f x = .ok y) (n : Nat) :
    (List.replicate n x).mapM f = .ok (List.replicate n y) := by
  induction n with
  | zero => rfl
  | succ n ih =>
    rw [List.replicate_succ, List.mapM_cons, h, ok_bind, ih]
    rfl

theorem mapM_set {ε β : Type} {f : α → Except ε β} {ys : List β} (h : xs.mapM f = .ok ys)
    (inside : k < xs.length) (x : α) : (xs.set k x).mapM f = (f x).map fun y => ys.set k y := by
  induction xs generalizing k ys with
  | nil => simp at inside
  | cons z zs ih =>
    simp only [List.mapM_cons, bind_eq_ok, pure_eq_ok] at h
    obtain ⟨w, hw, ws, hws, rfl⟩ := h
    cases k with
    | zero =>
      rw [List.set_cons_zero, List.mapM_cons, hws]
      cases f x <;> rfl
    | succ k =>
      rw [List.set_cons_succ, List.mapM_cons, hw, ok_bind, ih hws (by simpa using inside)]
      cases f x <;> rfl

/-- What is read from a list with an entry in position is what is read from the list, with what is
read from the entry in position. -/
theorem mapM_putAt {ε β : Type} {f : α → Except ε β} {gap' : β} {ys : List β}
    (h : xs.mapM f = .ok ys)
    (gaps : f gap = .ok gap') (k : Nat) (x : α) :
    (putAt gap k x xs).mapM f = (f x).map fun y => putAt gap' k y ys := by
  have lengths : xs.length = ys.length := (mapM_eq_ok.1 h).length_eq
  have extended : (xs ++ List.replicate (k + 1 - xs.length) gap).mapM f =
      .ok (ys ++ List.replicate (k + 1 - ys.length) gap') := by
    rw [List.mapM_append, h, ok_bind, mapM_replicate gaps, lengths]
    rfl
  apply mapM_set extended
  simp only [List.length_append, List.length_replicate]
  omega

end

/-! ## Entries of parts -/

/-- A list of yearly or monthly values has become another one by an entry at a place. -/
structure Placed (old : List (Option Float)) (place : Int) (entry : Option Float)
    (new : List (Option Float)) : Prop where
  length : new.length = if 0 ≤ place then max old.length (place.toNat + 1) else old.length
  here : new[position old.length place]? = some entry
  others : ∀ k, k < old.length → k ≠ position old.length place → new[k]? = old[k]?
  gaps : ∀ k, old.length ≤ k → k < position old.length place → new[k]? = some none

theorem placed_iff {old new : List (Option Float)} {place : Int} {entry : Option Float}
    (inside : -(old.length : Int) ≤ place) :
    Placed old place entry new ↔ new = putAt none (position old.length place) entry old := by
  have length : (if 0 ≤ place then max old.length (place.toNat + 1) else old.length) =
      max old.length (position old.length place + 1) := by
    by_cases nonneg : 0 ≤ place
    · rw [if_pos nonneg, position_of_nonneg nonneg]
    · have := position_lt_of_neg (Int.not_le.1 nonneg) inside
      rw [if_neg nonneg]
      omega
  constructor
  · intro h
    apply List.ext_getElem?
    intro k
    rw [getElem?_putAt]
    by_cases here : k = position old.length place
    · rw [if_pos here, here, h.here]
    · rw [if_neg here]
      by_cases short : k < old.length
      · rw [h.others k short here, List.getElem?_eq_getElem short]
        simp
      · have beyond := Nat.not_lt.1 short
        rw [List.getElem?_eq_none beyond]
        by_cases before : k < position old.length place
        · rw [h.gaps k beyond before, if_pos before]
          rfl
        · rw [if_neg before, List.getElem?_eq_none]
          rw [h.length, length]
          omega
  · rintro rfl
    refine ⟨?_, ?_, ?_, ?_⟩
    · rw [length_putAt, length]
    · rw [getElem?_putAt, if_pos rfl]
    · intro k short ne
      rw [getElem?_putAt, if_neg ne, List.getElem?_eq_getElem short]
      simp
    · intro k beyond before
      rw [getElem?_putAt, if_neg (by omega), if_pos before, List.getElem?_eq_none beyond]
      rfl

theorem setPlace_eq (vs : List Value) (place : Int) (v : Value) :
    setPlace vs place v =
      if place < -(vs.length : Int) then .error .indexOutOfRange
      else .ok (putAt .null (position vs.length place) v vs) := by
  unfold setPlace
  by_cases nonneg : 0 ≤ place
  · rw [if_pos nonneg, if_neg (by omega), position_of_nonneg nonneg]
    rfl
  · rw [if_neg nonneg]
    by_cases outside : place < -(vs.length : Int)
    · rw [if_pos outside, if_pos (by omega)]
    · rw [if_neg outside, if_neg (by omega),
        putAt_of_lt (position_lt_of_neg (Int.not_le.1 nonneg) (Int.not_lt.1 outside)), position,
        if_neg nonneg]

namespace Raw

/-- What a part is read as after an edit at a place. -/
def placeEdited (part : Value) (change : Option (Int × Value)) :
    Except Fault (Except Fault (Option (List (Option Float)))) :=
  (editPlace part change).map (optional entryList)

theorem elements_of_not_holds {part : Value} {vs : List Value} (h : part.elements = .ok vs)
    (unset : ¬part.holds) : vs = [] := by
  cases part with
  | list items =>
    cases h
    simpa [Value.holds] using unset
  | text s =>
    cases h
    simpa [Value.holds] using unset
  | record entries =>
    cases h
    simpa [Value.holds] using unset
  | _ => cases h

theorem editPlace_of_elements {part : Value} {vs : List Value} (h : part.elements = .ok vs)
    (place : Int)
    (v : Value) :
    editPlace part (some (place, v)) = ((setPlace vs place v).mapError Fault.edit).map .list := by
  have set : editPlace part (some (place, v)) =
      ((setPlace vs place v).mapError Fault.edit >>= fun changed => pure (Value.list changed)) := by
    unfold editPlace
    dsimp only
    split
    · rw [h]
      rfl
    · rename_i unset
      rw [elements_of_not_holds h unset]
      rfl
  rw [set]
  cases setPlace vs place v <;> rfl

theorem exists_elements {part : Value} {ys : Option (List (Option Float))}
    (h : optional entryList part = .ok ys) :
    ∃ vs, vs.mapM entry = .ok (ys.getD []) ∧ ∀ place v,
      editPlace part (some (place, v)) = ((setPlace vs place v).mapError Fault.edit).map .list := by
  by_cases absent : part.isNull
  · cases part with
    | null =>
      cases h
      have empty := editPlace_of_elements (show (Value.list []).elements = .ok [] from rfl)
      exact ⟨[], rfl, empty⟩
    | _ => cases absent
  · rw [optional, if_neg absent, map_eq_ok] at h
    obtain ⟨xs, read, rfl⟩ := h
    obtain ⟨vs, elements, entries⟩ := bind_eq_ok.1 read
    exact ⟨vs, entries, editPlace_of_elements (mapError_eq_ok.1 elements)⟩

/-- A part that is edited at a place is read as what it was read as before, with the entry in
position. -/
theorem placeEdited_some {part : Value} {ys : Option (List (Option Float))}
    (h : optional entryList part = .ok ys) (place : Int) (v : Value) :
    placeEdited part (some (place, v)) =
      if place < -((ys.getD []).length : Int) then .error (.edit .indexOutOfRange)
      else .ok ((entry v).map fun y =>
        some (putAt none (position (ys.getD []).length place) y (ys.getD []))) := by
  obtain ⟨vs, entries, edited⟩ := exists_elements h
  have lengths : vs.length = (ys.getD []).length := (mapM_eq_ok.1 entries).length_eq
  rw [placeEdited, edited, setPlace_eq, lengths]
  split
  · rfl
  · have read : entryList (.list (putAt .null (position (ys.getD []).length place) v vs)) =
        (entry v).map fun y => putAt none (position (ys.getD []).length place) y (ys.getD []) :=
      mapM_putAt entries rfl _ v
    have whole :
        optional entryList (.list (putAt .null (position (ys.getD []).length place) v vs)) =
        (entry v).map fun y =>
          some (putAt none (position (ys.getD []).length place) y (ys.getD [])) := by
      rw [optional, if_neg (by simp [Value.isNull]), read]
      cases entry v <;> rfl
    exact congrArg Except.ok whole

end Raw

end Forecast

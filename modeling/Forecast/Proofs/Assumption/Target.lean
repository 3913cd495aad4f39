import Forecast.Assumption.Edit
import Forecast.Proofs.Assumption.Current

/-!
# Places of assumptions

An assumption of a model stands under an object, under the object itself or one
of its outputs, and under the name of its field. What is written to one place is
read there and nowhere else; a second writing to a place replaces the first, and
writings to different places commute. An edit reads the assumption of one place
and writes the edited one back; nothing else of it is seen or changed.
-/

namespace Forecast

open Outcome

/-! ## Tables -/

namespace Entries

variable {α β : Type} {key key' : String} {f g : α → α} {t : Entries α} {value : α}

theorem lookup_adjust (key other : String) (f : α → α) (t : Entries α) :
    (adjust key f t).lookup other = if other = key then (t.lookup key).map f
      else t.lookup other := by
  induction t with
  | nil => simp [adjust]
  | cons e t ih =>
    obtain ⟨k, v⟩ := e
    by_cases hk : k = key
    · subst hk
      by_cases h : other = k
      · subst h
        simp [adjust]
      · have ne : (other == k) = false := by simpa using h
        simp [adjust, List.lookup_cons, ne, h]
    · have ne : (key == k) = false := by simpa using Ne.symm hk
      simp only [adjust, if_neg hk, List.lookup_cons, ih, ne]
      by_cases h : other = k
      · subst h
        simp [hk]
      · have ne' : (other == k) = false := by simpa using h
        rw [ne']

theorem adjust_adjust (key : String) (f g : α → α) (t : Entries α) :
    adjust key f (adjust key g t) = adjust key (fun v => f (g v)) t := by
  induction t with
  | nil => rfl
  | cons e t ih =>
    obtain ⟨k, v⟩ := e
    by_cases hk : k = key
    · simp [adjust, hk]
    · simp [adjust, hk, ih]

/-- Changes of different entries commute, and so do changes of one entry that commute. -/
theorem adjust_comm (comm : key = key' → ∀ v, f (g v) = g (f v)) (t : Entries α) :
    adjust key f (adjust key' g t) = adjust key' g (adjust key f t) := by
  by_cases same : key = key'
  · subst same
    rw [adjust_adjust, adjust_adjust, funext (comm rfl)]
  · induction t with
    | nil => rfl
    | cons e t ih =>
      obtain ⟨k, v⟩ := e
      by_cases hk : k = key
      · subst hk
        simp [adjust, same]
      · by_cases hk' : k = key'
        · subst hk'
          simp [adjust, hk]
        · simp [adjust, hk, hk', ih]

theorem put_eq_adjust (found : t.lookup key = some value) (f : α → α) :
    put key (f value) t = adjust key f t := by
  induction t with
  | nil => simp at found
  | cons e t ih =>
    obtain ⟨k, v⟩ := e
    rw [List.lookup_cons] at found
    by_cases hk : k = key
    · subst hk
      simp only [beq_self_eq_true, Option.some.injEq] at found
      simp [put, adjust, found]
    · have ne : (key == k) = false := by simpa using Ne.symm hk
      rw [ne] at found
      simp [put, adjust, hk, ih found]

end Entries

/-! ## Places -/

/-- The place of an assumption: an object, one of its outputs or the object itself, and a field. -/
@[ext]
structure Target where
  object : String
  output : Option String
  field : String
deriving DecidableEq

def Target.shown (t : Target) : String :=
  match t.output with
  | none => t.object
  | some output => t.object ++ "/" ++ output

namespace ObjectAssumptions

def group? (o : ObjectAssumptions) : Option String → Option (Entries Assumption)
  | none => some o.object
  | some output => o.outputs.lookup output

def adjust (output : Option String) (f : Entries Assumption → Entries Assumption)
    (o : ObjectAssumptions) : ObjectAssumptions :=
  match output with
  | none => { o with object := f o.object }
  | some output => { o with outputs := o.outputs.adjust output f }

variable {output output' : Option String} {f g : Entries Assumption → Entries Assumption}

theorem group?_adjust (output other : Option String) (f : Entries Assumption → Entries Assumption)
    (o : ObjectAssumptions) :
    (o.adjust output f).group? other =
      if other = output then (o.group? output).map f else o.group? other := by
  cases output with
  | none => cases other <;> simp [adjust, group?]
  | some name =>
    cases other with
    | none => simp [adjust, group?]
    | some name' => simp [adjust, group?, Entries.lookup_adjust]

theorem adjust_adjust (output : Option String) (f g : Entries Assumption → Entries Assumption)
    (o : ObjectAssumptions) :
    (o.adjust output g).adjust output f = o.adjust output fun v => f (g v) := by
  cases output with
  | none => rfl
  | some name => simp [adjust, Entries.adjust_adjust]

theorem adjust_comm (comm : output = output' → ∀ v, f (g v) = g (f v)) (o : ObjectAssumptions) :
    (o.adjust output' g).adjust output f = (o.adjust output f).adjust output' g := by
  cases output with
  | none =>
    cases output' with
    | none => simp [adjust, comm rfl]
    | some name' => rfl
  | some name =>
    cases output' with
    | none => rfl
    | some name' =>
      simp only [adjust]
      rw [Entries.adjust_comm fun same => comm (by rw [same])]

end ObjectAssumptions

/-- An assumption with an edited raw part, and the value that follows from it. -/
def Assumption.edited (x : Assumption) (e : Edit) (months : Nat) : Except Fault Assumption := do
  let parts ← e.apply x.raw.parts
  let raw ← Raw.ofParts parts
  of x.spec raw months

namespace Assumptions

variable {a b : Assumptions} {t t' : Target} {x y z : Assumption} {months : Nat} {e : Edit}

def find? (a : Assumptions) (t : Target) : Option Assumption :=
  (a.lookup t.object).bind fun o => (o.group? t.output).bind fun group => group.lookup t.field

def set (a : Assumptions) (t : Target) (x : Assumption) : Assumptions :=
  Entries.adjust t.object (ObjectAssumptions.adjust t.output (Entries.adjust t.field fun _ => x)) a

theorem find?_eq_some : a.find? t = some x ↔ ∃ o group, a.lookup t.object = some o ∧
    o.group? t.output = some group ∧ group.lookup t.field = some x := by
  simp only [find?, Option.bind_eq_some_iff, exists_and_left]

/-- What is written to a place is read there and nowhere else. -/
theorem find?_set (known : a.find? t = some x) (t' : Target) (y : Assumption) :
    (a.set t y).find? t' = if t' = t then some y else a.find? t' := by
  obtain ⟨o, group, object, output, field⟩ := find?_eq_some.1 known
  obtain ⟨object', output', field'⟩ := t'
  simp only [find?, set, Entries.lookup_adjust, Target.ext_iff]
  by_cases sameObject : object' = t.object
  · subst sameObject
    rw [if_pos rfl, object, Option.map_some, Option.bind_some, ObjectAssumptions.group?_adjust]
    by_cases sameOutput : output' = t.output
    · subst sameOutput
      rw [if_pos rfl, output, Option.map_some, Option.bind_some, Entries.lookup_adjust]
      by_cases sameField : field' = t.field
      · simp [sameField, field]
      · simp [sameField, output]
    · simp [sameOutput]
  · simp [sameObject]

theorem set_set (a : Assumptions) (t : Target) (x y : Assumption) :
    (a.set t x).set t y = a.set t y := by
  simp only [set, Entries.adjust_adjust, ObjectAssumptions.adjust_adjust]

theorem set_comm (ne : t ≠ t') (a : Assumptions) (x y : Assumption) :
    (a.set t' y).set t x = (a.set t x).set t' y := by
  apply Entries.adjust_comm
  intro object o
  apply ObjectAssumptions.adjust_comm
  intro output group
  apply Entries.adjust_comm
  intro field
  exact absurd (Target.ext object output field) ne

/-! ## Edits -/

/-- What is missing at a place: the object, the output of the object, or the field. -/
inductive Missing (a : Assumptions) (t : Target) : Fault → Prop
  | object (h : a.lookup t.object = none) : Missing a t (.edit (.unknownObject t.object))
  | output {o : ObjectAssumptions} {output : String} (h : a.lookup t.object = some o)
    (ofOutput : t.output = some output) (absent : o.outputs.lookup output = none) :
    Missing a t (.edit (.unknownAlias output t.object))
  | field {o : ObjectAssumptions} {group : Entries Assumption} (h : a.lookup t.object = some o)
    (known : o.group? t.output = some group) (absent : group.lookup t.field = none) :
    Missing a t (.edit (.unknownField t.field t.shown))

abbrev editAt (a : Assumptions) (t : Target) (e : Edit) (months : Nat) : Except Fault Assumptions :=
  a.edit t.object t.output t.field e months

theorem editField_eq {group : Entries Assumption} {field place : String}
    (found : group.lookup field = some x) :
    editField group field place e months =
      (x.edited e months).map fun y => group.adjust field fun _ => y := by
  have put (y : Assumption) : group.put field y = group.adjust field fun _ => y :=
    Entries.put_eq_adjust found fun _ => y
  simp only [editField, found, Assumption.edited, put]
  cases e.apply x.raw.parts with
  | error fault => rfl
  | ok parts =>
    simp only [ok_bind]
    cases Raw.ofParts parts with
    | error fault => rfl
    | ok raw => cases Assumption.of x.spec raw months <;> rfl

/-- An edit edits the assumption at its place, and writes it back. -/
theorem editAt_eq (known : a.find? t = some x) (e : Edit) (months : Nat) :
    a.editAt t e months = (x.edited e months).map (a.set t) := by
  obtain ⟨o, group, object, output, field⟩ := find?_eq_some.1 known
  obtain ⟨name, place, fieldName⟩ := t
  cases place with
  | none =>
    cases output
    simp only [editAt, edit, object, editField_eq field]
    cases x.edited e months with
    | error fault => rfl
    | ok y =>
      exact congrArg Except.ok (Entries.put_eq_adjust object
        (ObjectAssumptions.adjust none (Entries.adjust fieldName fun _ => y)))
  | some output' =>
    simp only [ObjectAssumptions.group?] at output
    simp only [editAt, edit, object, output, editField_eq field]
    cases x.edited e months with
    | error fault => rfl
    | ok y =>
      simp only [Except.map, ok_bind]
      rw [Entries.put_eq_adjust output (Entries.adjust fieldName fun _ => y)]
      exact congrArg Except.ok (Entries.put_eq_adjust object
        (ObjectAssumptions.adjust (some output') (Entries.adjust fieldName fun _ => y)))

theorem editAt_of_missing {fault : Fault} (missing : a.Missing t fault) (e : Edit) (months : Nat) :
    a.editAt t e months = .error fault := by
  obtain ⟨name, place, fieldName⟩ := t
  cases missing with
  | object h =>
    simp only [editAt, edit, h]
    rfl
  | output h ofOutput absent =>
    cases ofOutput
    simp only [editAt, edit, h, absent]
    rfl
  | field h known absent =>
    cases place with
    | none =>
      cases known
      simp only [editAt, edit, h, editField, absent]
      rfl
    | some output =>
      simp only [ObjectAssumptions.group?] at known
      simp only [editAt, edit, h, known, editField, absent]
      rfl

theorem exists_find?_or_missing (a : Assumptions) (t : Target) :
    (∃ x, a.find? t = some x) ∨ ∃ fault, a.Missing t fault := by
  obtain ⟨name, place, fieldName⟩ := t
  cases object : a.lookup name with
  | none => exact .inr ⟨_, .object object⟩
  | some o =>
    cases output : o.group? place with
    | none =>
      cases place with
      | none => cases output
      | some output' => exact .inr ⟨_, .output object rfl output⟩
    | some group =>
      cases field : group.lookup fieldName with
      | none => exact .inr ⟨_, .field object output field⟩
      | some x => exact .inl ⟨x, find?_eq_some.2 ⟨o, group, object, output, field⟩⟩

end Assumptions
end Forecast

import Forecast.Proofs.Assumption.Target

/-!
# Edits of single assumptions

An edit fails with an unknown name exactly if its object, the output of the
object or the field does not exist. If it succeeds it changes the assumption at
its place and no other one; so edits of different places commute. Nor does the
number of months matter to whether an assumption can be edited: to edit and to
compute everything again for another number of months is to compute everything
again and to edit there.
-/

namespace Forecast

open Outcome

/-! ## Names that are not known -/

def Fault.IsUnknown : Fault → Prop
  | .edit .indexOutOfRange => False
  | .edit _ => True
  | .unknownName _ => True
  | _ => False

abbrev NeedsNoName {α : Type} (x : Except Fault α) : Prop :=
  FailsOnly (fun fault => ¬fault.IsUnknown) x

section

variable {α : Type} {v : Value}

theorem needsNoName_number (x : Except NumberFault α) : NeedsNoName (x.mapError .number) :=
  .mapError fun _ _ => id

theorem needsNoName_raw (x : Except RawFault α) : NeedsNoName (x.mapError .raw) :=
  .mapError fun _ _ => id

theorem needsNoName_setPlace (vs : List Value) (place : Int) (v : Value) :
    NeedsNoName ((setPlace vs place v).mapError .edit) := by
  apply FailsOnly.mapError
  unfold setPlace
  split
  · exact .ok _
  · split
    · exact .error id
    · exact .ok _

theorem needsNoName_editPlace (part : Value) (change : Option (Int × Value)) :
    NeedsNoName (editPlace part change) := by
  unfold editPlace
  split
  · exact .ok _
  · rename_i place v
    have set (vs : List Value) : NeedsNoName
        ((setPlace vs place v).mapError .edit >>= fun changed => pure (Value.list changed)) :=
      .bind (needsNoName_setPlace _ _ _) fun _ _ => .pure _
    dsimp only
    split
    · exact .bind (needsNoName_raw _) fun vs _ => set vs
    · exact set []

theorem needsNoName_apply (e : Edit) (p : RawParts) : NeedsNoName (e.apply p) :=
  .bind (needsNoName_editPlace _ _) fun _ _ => .bind (needsNoName_editPlace _ _) fun _ _ => .pure _

namespace Raw

theorem needsNoName_optional {read : Value → Except Fault α} (each : ∀ v, NeedsNoName (read v))
    (v : Value) : NeedsNoName (optional read v) := by
  unfold optional
  split
  · exact .ok _
  · exact .map _ (each v)

theorem needsNoName_entryList (v : Value) : NeedsNoName (entryList v) := by
  refine .bind (needsNoName_raw _) fun _ _ => .mapM fun _ _ => needsNoName_optional ?_ _
  exact fun _ => needsNoName_number _

theorem needsNoName_growthRate (v : Value) : NeedsNoName (growthRate v) :=
  .bind (needsNoName_number _) fun _ _ => .check id _

theorem needsNoName_seasonalFactors (v : Value) : NeedsNoName (seasonalFactors v) := by
  refine .bind (needsNoName_raw _) fun _ _ => .bind (.mapM fun _ _ => ?_) fun _ _ => .check id _
  exact needsNoName_number _

theorem needsNoName_rangeOf (shown : String) (start stop : Value) :
    NeedsNoName (rangeOf shown start stop) := by
  refine .bind (needsNoName_number _) fun _ _ => .bind (needsNoName_optional ?_ _) fun _ _ =>
    .check id _
  exact fun _ => needsNoName_number _

theorem needsNoName_dateRangeOf (v : Value) : NeedsNoName (dateRangeOf v) := by
  refine .bind (needsNoName_raw _) fun vs _ => ?_
  split
  · exact needsNoName_rangeOf _ _ _
  all_goals exact .error id

theorem needsNoName_ofParts (p : RawParts) : NeedsNoName (ofParts p) := by
  refine .bind (needsNoName_optional needsNoName_entryList _) fun _ _ => ?_
  refine .bind (needsNoName_optional needsNoName_entryList _) fun _ _ => ?_
  refine .bind (needsNoName_optional needsNoName_growthRate _) fun _ _ => ?_
  refine .bind (needsNoName_optional needsNoName_seasonalFactors _) fun _ _ => ?_
  exact .bind (needsNoName_optional needsNoName_dateRangeOf _) fun _ _ => .pure _

end Raw

theorem needsNoName_edited (x : Assumption) (e : Edit) (months : Nat) :
    NeedsNoName (x.edited e months) := by
  refine .bind (needsNoName_apply _ _) fun _ _ => .bind (Raw.needsNoName_ofParts _) fun _ _ => ?_
  exact .bind (needsNoName_number _) fun _ _ => .pure _

end

/-! ## Other numbers of months -/

/-- A computation without its result: it succeeds, or it stops with a fault. -/
def outcomeOf {ε α : Type} (x : Except ε α) : Except ε Unit :=
  x.map fun _ => ()

theorem Raw.outcomeOf_baseSeries (spec : FieldSpec) (r : Raw) (months n : Nat) :
    outcomeOf (baseSeries spec r months) = outcomeOf (baseSeries spec r n) := by
  unfold baseSeries
  split
  · cases baseAmount spec r <;> rfl
  · split
    · rfl
    · cases steadyAmount spec r <;> rfl

/-- Whether an assumption has a value does not depend on the number of months. -/
theorem Raw.outcomeOf_value (spec : FieldSpec) (r : Raw) (months n : Nat) :
    outcomeOf (r.value spec months) = outcomeOf (r.value spec n) := by
  have ofBase (k : Nat) : outcomeOf ((series spec r k).map FieldValue.series) =
      outcomeOf (baseSeries spec r k) := by
    unfold series
    cases baseSeries spec r k <;> rfl
  unfold value
  cases spec.baseType with
  | boolean => rfl
  | number =>
    dsimp only
    rw [ofBase, ofBase, outcomeOf_baseSeries]

theorem Raw.exists_value {spec : FieldSpec} {r : Raw} {n : Nat} {v : FieldValue}
    (h : r.value spec n = .ok v) (months : Nat) : ∃ w, r.value spec months = .ok w := by
  have alike := r.outcomeOf_value spec months n
  rw [h] at alike
  obtain ⟨w, hw, -⟩ := map_eq_ok.1 alike
  exact ⟨w, hw⟩

/-- To compute a value again, for another number of months, is to compute it for these. -/
theorem Assumption.of_bind_of (spec : FieldSpec) (raw : Raw) (months n : Nat) :
    (of spec raw months >>= fun x => of x.spec x.raw n) = of spec raw n := by
  have alike := raw.outcomeOf_value spec months n
  unfold of
  cases here : raw.value spec months with
  | ok v => rfl
  | error fault =>
    cases there : raw.value spec n with
    | ok v =>
      rw [here, there] at alike
      cases alike
    | error fault' =>
      rw [here, there] at alike
      cases alike
      rfl

theorem Assumption.edited_bind_of (x : Assumption) (e : Edit) (months n : Nat) :
    (x.edited e months >>= fun y => of y.spec y.raw n) = x.edited e n := by
  simp only [edited, bind_assoc, of_bind_of]

namespace Entries

variable {ε α β γ : Type}

def mapValuesM (step : α → Except ε β) (t : Entries α) : Except ε (Entries β) :=
  t.mapM fun e => do return (e.1, ← step e.2)

/-- If a changed value gives a change of what the value has given, so does the changed table. -/
theorem mapValuesM_adjust {step : α → Except ε β} {f : α → α} {t : Entries α} {u : Entries β}
    {key : String} {value : α} {x : Except ε γ} {g : γ → β → β} (mapped : mapValuesM step t = .ok u)
    (found : t.lookup key = some value)
    (here : ∀ w, step value = .ok w → step (f value) = x.map (g · w)) :
    mapValuesM step (adjust key f t) = x.map fun y => adjust key (g y) u := by
  unfold mapValuesM at mapped ⊢
  induction t generalizing u with
  | nil => cases found
  | cons e t ih =>
    obtain ⟨k, v⟩ := e
    simp only [List.mapM_cons, bind_eq_ok, pure_eq_ok] at mapped
    obtain ⟨_, ⟨w, hw, rfl⟩, us, hus, rfl⟩ := mapped
    rw [List.lookup_cons] at found
    by_cases hk : k = key
    · subst hk
      simp only [beq_self_eq_true, Option.some.injEq] at found
      subst found
      simp only [adjust, if_true, List.mapM_cons, here w hw, hus]
      cases x <;> rfl
    · have ne : (key == k) = false := by simpa using Ne.symm hk
      rw [ne] at found
      simp only [adjust, if_neg hk, List.mapM_cons, hw, ih hus found]
      cases x <;> rfl

theorem exists_mapValuesM_lookup {step : α → Except ε β} {t : Entries α} {u : Entries β}
    {key : String}
    {value : α} (mapped : mapValuesM step t = .ok u) (found : t.lookup key = some value) :
    ∃ w, step value = .ok w ∧ u.lookup key = some w := by
  unfold mapValuesM at mapped
  induction t generalizing u with
  | nil => cases found
  | cons e t ih =>
    obtain ⟨k, v⟩ := e
    simp only [List.mapM_cons, bind_eq_ok, pure_eq_ok] at mapped
    obtain ⟨_, ⟨w, hw, rfl⟩, us, hus, rfl⟩ := mapped
    rw [List.lookup_cons] at found ⊢
    cases same : key == k with
    | true =>
      rw [same] at found
      cases found
      exact ⟨w, hw, rfl⟩
    | false =>
      rw [same] at found
      exact ih hus found

theorem keys_mapValuesM {step : α → Except ε β} {t : Entries α} {u : Entries β}
    (mapped : mapValuesM step t = .ok u) : u.keys = t.keys := by
  refine map_of_mapM Prod.fst Prod.fst ?_ mapped
  intro e _ named
  obtain ⟨w, -, same⟩ := bind_eq_ok.1 named
  cases same
  rfl

theorem lookup_mapValuesM_eq_none {step : α → Except ε β} {t : Entries α} {u : Entries β}
    {key : String}
    (mapped : mapValuesM step t = .ok u) (absent : t.lookup key = none) : u.lookup key = none := by
  rwa [lookup_eq_none, keys_mapValuesM mapped, ← lookup_eq_none]

theorem exists_mapValuesM {step : α → Except ε β} {t : Entries α}
    (each : t.All fun v => ∃ w, step v = .ok w) : ∃ u, mapValuesM step t = .ok u := by
  obtain ⟨u, hu, -⟩ := exists_mapM (P := fun _ : String × β => True)
    (f := fun e : String × α => do return (e.1, ← step e.2)) fun e he => by
      obtain ⟨w, hw⟩ := each e he
      exact ⟨(e.1, w), by rw [hw]; rfl, trivial⟩
  exact ⟨u, hu⟩

end Entries

/-! ## Everything computed again -/

namespace Assumptions

variable {a b : Assumptions} {t : Target} {x y : Assumption} {months : Nat} {e : Edit}

def recalculateGroup (months : Nat) : Entries Assumption → Except Fault (Entries Assumption) :=
  Entries.mapValuesM fun x => Assumption.of x.spec x.raw months

/-- The assumptions of an object and of its outputs, computed again. -/
def recalculateObject (months : Nat) (o : ObjectAssumptions) : Except Fault ObjectAssumptions := do
  let object ← recalculateGroup months o.object
  let outputs ← Entries.mapValuesM (recalculateGroup months) o.outputs
  return ⟨object, outputs⟩

theorem recalculate_eq (a : Assumptions) (months : Nat) :
    a.recalculate months = Entries.mapValuesM (recalculateObject months) a := by
  unfold recalculate Entries.mapValuesM recalculateObject recalculateGroup Entries.mapValuesM
  simp only [bind_assoc, pure_bind]

theorem recalculateGroup_adjust {group group' : Entries Assumption} {field : String}
    (again : recalculateGroup months group = .ok group') (found : group.lookup field = some x)
    (y : Assumption) :
    recalculateGroup months (group.adjust field fun _ => y) =
      (Assumption.of y.spec y.raw months).map fun z => group'.adjust field fun _ => z := by
  apply Entries.mapValuesM_adjust again found
  intro _ _
  cases Assumption.of y.spec y.raw months <;> rfl

theorem recalculateObject_adjust {o o' : ObjectAssumptions} {output : Option String}
    {group : Entries Assumption} {field : String} (again : recalculateObject months o = .ok o')
    (known : o.group? output = some group) (found : group.lookup field = some x) (y : Assumption) :
    recalculateObject months (o.adjust output (Entries.adjust field fun _ => y)) =
      (Assumption.of y.spec y.raw months).map fun z =>
        o'.adjust output (Entries.adjust field fun _ => z) := by
  simp only [recalculateObject, bind_eq_ok, pure_eq_ok] at again
  obtain ⟨object, hobject, outputs, houtputs, rfl⟩ := again
  cases output with
  | none =>
    cases known
    simp only [recalculateObject, ObjectAssumptions.adjust, recalculateGroup_adjust hobject found y,
      houtputs]
    cases Assumption.of y.spec y.raw months <;> rfl
  | some output =>
    have changed := Entries.mapValuesM_adjust houtputs known
      fun group' again => recalculateGroup_adjust again found y
    simp only [recalculateObject, ObjectAssumptions.adjust, hobject, changed]
    cases Assumption.of y.spec y.raw months <;> rfl

/-- What is written to a place and computed again is computed again and written there. -/
theorem recalculate_set (again : a.recalculate months = .ok b) (known : a.find? t = some x)
    (y : Assumption) :
    (a.set t y).recalculate months = (Assumption.of y.spec y.raw months).map (b.set t) := by
  obtain ⟨o, group, object, output, field⟩ := find?_eq_some.1 known
  rw [recalculate_eq] at again ⊢
  apply Entries.mapValuesM_adjust again object
  intro o' ho'
  exact recalculateObject_adjust ho' output field y

theorem exists_group?_recalculateObject {o o' : ObjectAssumptions} {output : Option String}
    {group : Entries Assumption} (again : recalculateObject months o = .ok o')
    (known : o.group? output = some group) :
    ∃ group', recalculateGroup months group = .ok group' ∧ o'.group? output = some group' := by
  simp only [recalculateObject, bind_eq_ok, pure_eq_ok] at again
  obtain ⟨object, hobject, outputs, houtputs, rfl⟩ := again
  cases output with
  | none =>
    cases known
    exact ⟨object, hobject, rfl⟩
  | some output => exact Entries.exists_mapValuesM_lookup houtputs known

theorem exists_find?_recalculate (again : a.recalculate months = .ok b)
    (known : a.find? t = some x) :
    ∃ y, Assumption.of x.spec x.raw months = .ok y ∧ b.find? t = some y := by
  obtain ⟨o, group, object, output, field⟩ := find?_eq_some.1 known
  rw [recalculate_eq] at again
  obtain ⟨o', ho', object'⟩ := Entries.exists_mapValuesM_lookup again object
  obtain ⟨group', hgroup', output'⟩ := exists_group?_recalculateObject ho' output
  obtain ⟨y, hy, field'⟩ := Entries.exists_mapValuesM_lookup hgroup' field
  exact ⟨y, hy, find?_eq_some.2 ⟨o', group', object', output', field'⟩⟩

theorem Missing.recalculate {fault : Fault} (missing : a.Missing t fault)
    (again : a.recalculate months = .ok b) : b.Missing t fault := by
  rw [recalculate_eq] at again
  cases missing with
  | object h => exact .object (Entries.lookup_mapValuesM_eq_none again h)
  | output h ofOutput absent =>
    obtain ⟨o', ho', object'⟩ := Entries.exists_mapValuesM_lookup again h
    simp only [recalculateObject, bind_eq_ok, pure_eq_ok] at ho'
    obtain ⟨_, -, outputs, houtputs, rfl⟩ := ho'
    exact .output object' ofOutput (Entries.lookup_mapValuesM_eq_none houtputs absent)
  | field h known absent =>
    obtain ⟨o', ho', object'⟩ := Entries.exists_mapValuesM_lookup again h
    obtain ⟨group', hgroup', output'⟩ := exists_group?_recalculateObject ho' known
    exact .field object' output' (Entries.lookup_mapValuesM_eq_none hgroup' absent)

/-- To edit and then compute everything again, for another number of months, is to compute
everything again and then edit for this number. -/
theorem editAt_bind_recalculate (n : Nat) (again : a.recalculate n = .ok b) (t : Target) (e : Edit)
    (months : Nat) : (a.editAt t e months >>= (recalculate · n)) = b.editAt t e n := by
  rcases exists_find?_or_missing a t with ⟨x, known⟩ | ⟨fault, missing⟩
  · obtain ⟨y, hy, known'⟩ := exists_find?_recalculate again known
    obtain ⟨spec, raw, -⟩ := Assumption.of_ok hy
    have same : y.edited e n = x.edited e n := by
      rw [Assumption.edited, spec, raw, Assumption.edited]
    rw [editAt_eq known, editAt_eq known', same, ← Assumption.edited_bind_of x e months n]
    cases x.edited e months with
    | error fault => rfl
    | ok z => exact recalculate_set again known z
  · rw [editAt_of_missing missing, editAt_of_missing (missing.recalculate again)]
    rfl

/-- Assumptions whose values have been computed, each for some number of months, can be computed
again. -/
theorem exists_recalculate (computed : a.All fun x => ∃ n v, x.raw.value x.spec n = .ok v)
    (months : Nat) :
    ∃ b, a.recalculate months = .ok b := by
  have group {g : Entries Assumption} (all : g.All fun x => ∃ n v, x.raw.value x.spec n = .ok v) :
      ∃ g', recalculateGroup months g = .ok g' := by
    apply Entries.exists_mapValuesM
    intro e he
    obtain ⟨n, v, hv⟩ := all e he
    obtain ⟨w, hw⟩ := Raw.exists_value hv months
    exact ⟨⟨e.2.spec, e.2.raw, w⟩, by rw [Assumption.of, hw]; rfl⟩
  rw [recalculate_eq]
  apply Entries.exists_mapValuesM
  intro e he
  obtain ⟨object, hobject⟩ := group (computed e he).object
  obtain ⟨outputs, houtputs⟩ := Entries.exists_mapValuesM
    fun g hg => group ((computed e he).outputs g hg)
  exact ⟨⟨object, outputs⟩, by simp only [recalculateObject, hobject, houtputs, ok_bind]; rfl⟩

/-! ## One place at a time -/

theorem Missing.isUnknown {fault : Fault} (missing : a.Missing t fault) : fault.IsUnknown := by
  cases missing <;> trivial

/-- An edit that succeeds has found the assumption at its place, and has edited it. -/
theorem editAt_eq_ok : a.editAt t e months = .ok b ↔
    ∃ x y, a.find? t = some x ∧ x.edited e months = .ok y ∧ b = a.set t y := by
  constructor
  · intro h
    rcases exists_find?_or_missing a t with ⟨x, known⟩ | ⟨fault, missing⟩
    · rw [editAt_eq known, map_eq_ok] at h
      obtain ⟨y, hy, rfl⟩ := h
      exact ⟨x, y, known, hy, rfl⟩
    · rw [editAt_of_missing missing] at h
      cases h
  · rintro ⟨x, y, known, hy, rfl⟩
    rw [editAt_eq known, hy]
    rfl

/-- An edit stops for an unknown name exactly if something is missing at its place. -/
theorem editAt_eq_error_iff {fault : Fault} (unknown : fault.IsUnknown) :
    a.editAt t e months = .error fault ↔ a.Missing t fault := by
  refine ⟨fun h => ?_, fun missing => editAt_of_missing missing e months⟩
  rcases exists_find?_or_missing a t with ⟨x, known⟩ | ⟨fault', missing⟩
  · rw [editAt_eq known] at h
    have needsNone : NeedsNoName ((x.edited e months).map (a.set t)) :=
      .map _ (needsNoName_edited x e months)
    exact absurd unknown (needsNone fault h)
  · rw [editAt_of_missing missing] at h
    cases h
    exact missing

theorem editAt_comm {t' : Target} {e' : Edit} {months' : Nat} {r : Assumptions} (ne : t ≠ t')
    (h : (a.editAt t e months >>= fun b => b.editAt t' e' months') = .ok r) :
    (a.editAt t' e' months' >>= fun b => b.editAt t e months) = .ok r := by
  obtain ⟨b, first, second⟩ := bind_eq_ok.1 h
  obtain ⟨x, y, known, edited, rfl⟩ := editAt_eq_ok.1 first
  obtain ⟨x', y', known', edited', rfl⟩ := editAt_eq_ok.1 second
  rw [find?_set known, if_neg (Ne.symm ne)] at known'
  refine bind_eq_ok.2 ⟨a.set t' y', editAt_eq_ok.2 ⟨x', y', known', edited', rfl⟩, ?_⟩
  refine editAt_eq_ok.2 ⟨x, y, ?_, edited, (set_comm ne a y y').symm⟩
  rw [find?_set known', if_neg ne]
  exact known

/-- An edit stops for an unknown name exactly if the object, its output or the field at its place
does not exist. If it succeeds, all fields stay where they are, with what the schema says of them,
and all assumptions but the edited one stay as they are. Edits of different places give the same in
either order, and both orders succeed if both edits do. To compute everything again for another
number of months after an edit is to edit what has been computed again for that number; and whatever
has been computed can be computed again. -/
theorem edits_one_place (a : Assumptions) (t : Target) (e : Edit) (months : Nat) :
    (∀ fault, fault.IsUnknown ∧ a.editAt t e months = .error fault ↔ a.Missing t fault) ∧
    (∀ b, a.editAt t e months = .ok b → b.fields = a.fields ∧
      (∀ t', t' ≠ t → b.find? t' = a.find? t') ∧
      ∃ x y, a.find? t = some x ∧ x.edited e months = .ok y ∧ b.find? t = some y ∧
        y.spec = x.spec) ∧
    (∀ t' e' months', t' ≠ t →
      (∀ r, (a.editAt t e months >>= fun b => b.editAt t' e' months') = .ok r ↔
        (a.editAt t' e' months' >>= fun c => c.editAt t e months) = .ok r) ∧
      ∀ b c, a.editAt t e months = .ok b → a.editAt t' e' months' = .ok c →
        ∃ r, b.editAt t' e' months' = .ok r ∧ c.editAt t e months = .ok r) ∧
    (∀ n b, a.recalculate n = .ok b →
      (a.editAt t e months >>= (recalculate · n)) = b.editAt t e n) ∧
    ((a.All fun x => ∃ n v, x.raw.value x.spec n = .ok v) → ∀ n, ∃ b, a.recalculate n = .ok b) := by
  refine ⟨?names, ?frame, ?order, ?again, exists_recalculate⟩
  case names =>
    intro fault
    constructor
    · rintro ⟨unknown, failed⟩
      exact (editAt_eq_error_iff unknown).1 failed
    · intro missing
      exact ⟨missing.isUnknown, editAt_of_missing missing e months⟩
  case frame =>
    intro b h
    obtain ⟨x, y, known, edited, rfl⟩ := editAt_eq_ok.1 h
    refine ⟨(edit_ok h).1, ?_, x, y, known, edited, ?_, ?_⟩
    · intro t' ne
      rw [find?_set known, if_neg ne]
    · rw [find?_set known, if_pos rfl]
    · simp only [Assumption.edited, bind_eq_ok] at edited
      obtain ⟨_, -, _, -, valued⟩ := edited
      exact (Assumption.of_ok valued).1
  case order =>
    intro t' e' months' ne
    refine ⟨fun r => ⟨editAt_comm (Ne.symm ne), editAt_comm ne⟩, ?_⟩
    intro b c first second
    obtain ⟨x, y, known, edited, rfl⟩ := editAt_eq_ok.1 first
    obtain ⟨x', y', known', edited', rfl⟩ := editAt_eq_ok.1 second
    refine ⟨(a.set t y).set t' y', editAt_eq_ok.2 ⟨x', y', ?_, edited', rfl⟩,
      editAt_eq_ok.2 ⟨x, y, ?_, edited, set_comm ne a y' y⟩⟩
    · rw [find?_set known, if_neg ne, known']
    · rw [find?_set known', if_neg (Ne.symm ne), known]
  case again =>
    intro n b again
    exact editAt_bind_recalculate n again t e months

def rentOf (output : String) : Target :=
  ⟨"Leases", some output, "rent"⟩

def deposit : Target :=
  ⟨"Leases", none, "deposit"⟩

theorem edits_one_place_leases :
    ∃ a b c r, (ofModel ⟨[], [leases], []⟩ ⟨[], [], [("Leases", ["Hall", "Yard"])]⟩ leaseSchema
        3).outcome = .ok a ∧
      a.editAt (rentOf "Yard") { Edit.none with annualPlace := some (1, .float 8) } 3 = .ok b ∧
      a.editAt deposit { Edit.none with single := some (.float 5) } 3 = .ok c ∧
      b.editAt deposit { Edit.none with single := some (.float 5) } 3 = .ok r ∧
      c.editAt (rentOf "Yard") { Edit.none with annualPlace := some (1, .float 8) } 3 = .ok r ∧
      b.find? (rentOf "Hall") = a.find? (rentOf "Hall") ∧
      a.Missing (rentOf "Roof") (.edit (.unknownAlias "Roof" "Leases")) ∧
      b.recalculate 5 = (a.recalculate 5 >>= fun a' =>
        a'.editAt (rentOf "Yard") { Edit.none with annualPlace := some (1, .float 8) } 5) := by
  obtain ⟨a, b, c, a', built, first, second, roof, again⟩ : ∃ a b c a',
      (ofModel ⟨[], [leases], []⟩ ⟨[], [], [("Leases", ["Hall", "Yard"])]⟩ leaseSchema
        3).outcome = .ok a ∧
      a.editAt (rentOf "Yard") { Edit.none with annualPlace := some (1, .float 8) } 3 = .ok b ∧
      a.editAt deposit { Edit.none with single := some (.float 5) } 3 = .ok c ∧
      a.editAt (rentOf "Roof") Edit.none 3 = .error (.edit (.unknownAlias "Roof" "Leases")) ∧
      a.recalculate 5 = .ok a' :=
    ⟨_, _, _, _, rfl, rfl, rfl, rfl, rfl⟩
  have yard :=
    edits_one_place a (rentOf "Yard") { Edit.none with annualPlace := some (1, .float 8) } 3
  obtain ⟨-, frame, order, recalculated, -⟩ := yard
  obtain ⟨r, hr, hr'⟩ := (order deposit _ 3 (by decide)).2 b c first second
  have missing : a.Missing (rentOf "Roof") (.edit (.unknownAlias "Roof" "Leases")) :=
    ((edits_one_place a (rentOf "Roof") Edit.none 3).1 _).1 ⟨trivial, roof⟩
  have elsewhere := (frame b first).2.1 (rentOf "Hall") (by decide)
  refine ⟨a, b, c, r, built, first, second, hr, hr', elsewhere, missing, ?_⟩
  rw [again, ok_bind, ← recalculated 5 a' again, first, ok_bind]

end Assumptions

end Forecast

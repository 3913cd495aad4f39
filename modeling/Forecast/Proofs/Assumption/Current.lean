import Forecast.Assumption.Edit
import Forecast.Proofs.Assumption.Book

/-!
# Current assumptions

An assumption is current for some number of months if its raw part is well
formed and its value is what follows from that part. Assumptions are built
current, every edit keeps all of them current and leaves the fields where they
are; so to compute all of them again changes nothing, whatever has been edited.
-/

namespace Forecast

open Outcome

structure Raw.WellFormed (r : Raw) : Prop where
  seasonal : ∀ factors, r.seasonal = some factors → factors.length = 12
  growth : ∀ rate, r.growth = some rate → ¬rate < -1.0
  start : ∀ first last, r.dateRange = some (first, last) → 0 ≤ first
  stop : ∀ first last, r.dateRange = some (first, some last) → first ≤ last

namespace Raw

theorem exists_of_optional {α : Type} {read : Value → Except Fault α} {v : Value} {x : α}
    (h : optional read v = .ok (some x)) : read v = .ok x := by
  unfold optional at h
  split at h
  · cases h
  · cases read_ok : read v with
    | error fault =>
      rw [read_ok] at h
      cases h
    | ok y =>
      rw [read_ok] at h
      cases h
      rfl

theorem not_below_of_growthRate {v : Value} {rate : Float} (h : growthRate v = .ok rate) :
    ¬rate < -1.0 := by
  simp only [growthRate, bind_eq_ok] at h
  obtain ⟨x, -, h⟩ := h
  obtain ⟨notBelow, rfl⟩ := check_eq_ok.1 h
  exact notBelow

theorem length_seasonalFactors {v : Value} {factors : List Float}
    (h : seasonalFactors v = .ok factors) : factors.length = 12 := by
  simp only [seasonalFactors, bind_eq_ok] at h
  obtain ⟨vs, -, xs, -, h⟩ := h
  obtain ⟨twelve, rfl⟩ := check_eq_ok.1 h
  exact not_not.1 twelve

theorem range_of_dateRangeOf {v : Value} {first : Int} {last : Option Int}
    (h : dateRangeOf v = .ok (first, last)) :
    0 ≤ first ∧ ∀ stop, last = some stop → first ≤ stop := by
  simp only [dateRangeOf, bind_eq_ok] at h
  obtain ⟨vs, -, h⟩ := h
  split at h
  · simp only [rangeOf, bind_eq_ok] at h
    obtain ⟨x, -, y, -, h⟩ := h
    obtain ⟨valid, same⟩ := check_eq_ok.1 h
    cases same
    rw [not_or, Int.not_lt] at valid
    refine ⟨valid.1, ?_⟩
    rintro stop rfl
    simpa using valid.2
  all_goals cases h

theorem wellFormed_of_ofParts {p : RawParts} {r : Raw} (h : ofParts p = .ok r) : r.WellFormed := by
  simp only [ofParts, bind_eq_ok, pure_eq_ok] at h
  obtain ⟨annual, -, monthly, -, growth, hgrowth, seasonal, hseasonal, range, hrange, rfl⟩ := h
  refine ⟨?_, ?_, ?_, ?_⟩
  · rintro factors rfl
    exact length_seasonalFactors (exists_of_optional hseasonal)
  · rintro rate rfl
    exact not_below_of_growthRate (exists_of_optional hgrowth)
  · rintro first last rfl
    exact (range_of_dateRangeOf (exists_of_optional hrange)).1
  · rintro first last rfl
    exact (range_of_dateRangeOf (exists_of_optional hrange)).2 last rfl

theorem wellFormed_ofSingle (v : Value) : (ofSingle v).WellFormed := by
  constructor <;> simp [ofSingle]

end Raw

/-- An assumption whose value follows from its raw part. -/
def Assumption.Materialized (months : Nat) (x : Assumption) : Prop :=
  x.raw.value x.spec months = .ok x.value

/-- An assumption whose raw part is well formed and whose value follows from it. -/
structure Assumption.Current (months : Nat) (x : Assumption) : Prop where
  wellFormed : x.raw.WellFormed
  value : x.raw.value x.spec months = .ok x.value

namespace Assumption

variable {spec : FieldSpec} {raw : Raw} {months : Nat} {x : Assumption}

theorem Current.of_ok (wellFormed : raw.WellFormed) (h : of spec raw months = .ok x) :
    x.Current months := by
  obtain ⟨rfl, rfl, value⟩ := Assumption.of_ok h
  exact ⟨wellFormed, value⟩

theorem Materialized.of_self (materialized : x.Materialized months) :
    of x.spec x.raw months = .ok x := by
  rw [Materialized] at materialized
  rw [of, materialized]
  rfl

end Assumption

def ObjectAssumptions.fields (o : ObjectAssumptions) :
    Entries FieldSpec × Entries (Entries FieldSpec) :=
  (o.object.mapValues (·.spec), o.outputs.mapValues fun group => group.mapValues (·.spec))

namespace Assumptions

variable {months : Nat} {a a' start : Assumptions} {object field place : String}
  {output : Option String} {e : Edit} {group group' : Entries Assumption}

def fields (a : Assumptions) : Entries (Entries FieldSpec × Entries (Entries FieldSpec)) :=
  Entries.mapValues ObjectAssumptions.fields a

def Current (months : Nat) (a : Assumptions) : Prop :=
  a.All (Assumption.Current months)

theorem current_of_ofModel {m : Model} {s : Symbols} {schema : Schema}
    (h : (ofModel m s schema months).outcome = .ok a) : a.Current months :=
  all_of_ofModel (fun _ v _ hx => .of_ok (Raw.wellFormed_ofSingle v) hx) h

/-! ## Editing -/

/-- An edited group has the fields it had, and is current if it was. -/
theorem editField_ok (h : editField group field place e months = .ok group') :
    group'.mapValues (·.spec) = group.mapValues (·.spec) ∧
      (group.All (Assumption.Current months) → group'.All (Assumption.Current months)) := by
  unfold editField at h
  split at h
  · cases h
  · rename_i current found
    simp only [bind_eq_ok, pure_eq_ok] at h
    obtain ⟨parts, -, raw, checked, changed, valued, rfl⟩ := h
    refine ⟨Entries.mapValues_put_of_lookup _ found (Assumption.of_ok valued).1, ?_⟩
    intro before
    exact before.put field (.of_ok (Raw.wellFormed_of_ofParts checked) valued)

/-- An edit leaves all fields where they are, and all assumptions current. -/
theorem edit_ok (h : edit a object output field e months = .ok a') :
    a'.fields = a.fields ∧ (a.Current months → a'.Current months) := by
  unfold edit at h
  split at h
  · cases h
  · rename_i o known
    simp only [bind_eq_ok, pure_eq_ok] at h
    obtain ⟨group, edited, rfl⟩ := h
    obtain ⟨same, keeps⟩ := editField_ok edited
    refine ⟨Entries.mapValues_put_of_lookup _ known (by simp [ObjectAssumptions.fields, same]), ?_⟩
    intro before
    have here := Entries.All.of_lookup before known
    exact Entries.All.put before object ⟨keeps here.object, here.outputs⟩
  · rename_i o name known
    split at h
    · cases h
    · rename_i group found
      simp only [bind_eq_ok, pure_eq_ok] at h
      obtain ⟨group', edited, rfl⟩ := h
      obtain ⟨same, keeps⟩ := editField_ok edited
      have outputs := Entries.mapValues_put_of_lookup (·.mapValues (·.spec)) found same
      refine ⟨Entries.mapValues_put_of_lookup _ known
        (by simp [ObjectAssumptions.fields, outputs]), ?_⟩
      intro before
      have here := Entries.All.of_lookup before known
      have group := keeps (here.outputs.of_lookup found)
      exact Entries.All.put before object ⟨here.object, here.outputs.put name group⟩

/-- An edit together with the assumption that it changes: one of an object, or of one of its
outputs. -/
structure Change where
  object : String
  output : Option String
  field : String
  edit : Edit

def change (months : Nat) (a : Assumptions) (c : Change) : Except Fault Assumptions :=
  a.edit c.object c.output c.field c.edit months

theorem changes_ok {changes : List Change} (h : changes.foldlM (change months) start = .ok a) :
    a.fields = start.fields ∧ (start.Current months → a.Current months) := by
  refine foldlM_keeps
    (fun x : Assumptions => x.fields = start.fields ∧ (start.Current months → x.Current months))
    ?_ h ⟨rfl, id⟩
  intro c _ u v before step
  obtain ⟨same, keeps⟩ := edit_ok step
  exact ⟨same.trans before.1, fun built => keeps (before.2 built)⟩

/-! ## Computing again -/

theorem mapM_group_of_materialized {g : Entries Assumption}
    (materialized : g.All (Assumption.Materialized months)) :
    (g.mapM fun (field, x) => do return (field, ← Assumption.of x.spec x.raw months) :
      Except Fault (Entries Assumption)) = .ok g := by
  apply mapM_eq_self
  rintro ⟨field, x⟩ hx
  have self : Assumption.of x.spec x.raw months = .ok x := (materialized _ hx).of_self
  simp only [self, ok_bind]
  rfl

theorem mapM_outputs_of_materialized {gs : Entries (Entries Assumption)}
    (materialized : gs.All (Entries.All (Assumption.Materialized months))) :
    (gs.mapM fun (output, g) => do
      return (output, ← g.mapM fun (field, x) => do
        return (field, ← Assumption.of x.spec x.raw months)) :
      Except Fault (Entries (Entries Assumption))) = .ok gs := by
  apply mapM_eq_self
  rintro ⟨output, g⟩ hg
  simp only [mapM_group_of_materialized (materialized _ hg), ok_bind]
  rfl

/-- To compute assumptions again over the same months changes nothing. -/
theorem recalculate_of_materialized (materialized : a.All (Assumption.Materialized months)) :
    a.recalculate months = .ok a := by
  apply mapM_eq_self
  rintro ⟨name, o⟩ ho
  have here : o.All (Assumption.Materialized months) := materialized _ ho
  simp only [mapM_group_of_materialized here.object,
    mapM_outputs_of_materialized here.outputs, ok_bind]
  rfl

theorem recalculate_of_current (current : a.Current months) : a.recalculate months = .ok a :=
  recalculate_of_materialized (current.imp fun _ x => x.value)

/-- Whatever is edited one after another, from the assumptions of a model on, all fields stay where
they are, with what the schema says of them; all raw assumptions are well formed, and every value
is what follows from its raw assumption; so to compute all values again changes nothing. -/
theorem current_of_changes {m : Model} {s : Symbols} {schema : Schema} {changes : List Change}
    (built : (ofModel m s schema months).outcome = .ok start)
    (edited : changes.foldlM (change months) start = .ok a) :
    a.fields = start.fields ∧ a.Current months ∧ a.recalculate months = .ok a := by
  obtain ⟨same, keeps⟩ := changes_ok edited
  have current := keeps (current_of_ofModel built)
  exact ⟨same, current, recalculate_of_current current⟩

def leaseSchema : Schema :=
  [("Lease", ⟨none, [],
    [⟨"deposit", none, .number, none, .float 100, { Supports.onlySingle with dateRange := true }⟩],
    [⟨"rent", none, .number, none, .float 10,
      { Supports.onlySingle with annual := true, seasonal := true }⟩]⟩)]

def leases : Definition where
  name := "Leases"
  kind := "Lease"
  arguments := []
  outputs := ["Hall", "Yard"]
  inline := [("Yard", [("rent", .number 7)])]
  sectionName := "Costs"
  comment := ""
  line := 2

/-- Twice the same output, and the object in between; what is set first is not lost. -/
def leaseChanges : List Change :=
  [⟨"Leases", some "Yard", "rent", { Edit.none with annualPlace := some (1, .float 8) }⟩,
    ⟨"Leases", none, "deposit", { Edit.none with dateRange := some (.list [.int 1, .null]) }⟩,
    ⟨"Leases", some "Yard", "rent",
      { Edit.none with seasonal := some (.list (List.replicate 12 (.float 2))) }⟩]

theorem current_of_leaseChanges :
    ∃ start a, (ofModel ⟨[], [leases], []⟩ ⟨[], [], [("Leases", ["Hall", "Yard"])]⟩ leaseSchema
        3).outcome = .ok start ∧
      leaseChanges.foldlM (change 3) start = .ok a ∧
      a.fields = start.fields ∧ a.Current 3 ∧ a.recalculate 3 = .ok a := by
  obtain ⟨start, a, built, edited⟩ : ∃ start a,
      (ofModel ⟨[], [leases], []⟩ ⟨[], [], [("Leases", ["Hall", "Yard"])]⟩ leaseSchema
        3).outcome = .ok start ∧ leaseChanges.foldlM (change 3) start = .ok a :=
    ⟨_, _, rfl, rfl⟩
  exact ⟨start, a, built, edited, current_of_changes built edited⟩

end Assumptions
end Forecast

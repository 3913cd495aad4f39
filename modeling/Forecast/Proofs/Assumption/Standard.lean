import Forecast.Proofs.Assumption.Book
import Forecast.Proofs.Compute.Library
import Forecast.Schema.Standard

/-!
# Assumptions of standard types

All fields of standard types are numbers with finite defaults. If what a model
writes next to its outputs is finite too, its assumptions can be built, and all
settings are finite.
-/

namespace Forecast

open Outcome

/-- A value that is a finite number. -/
def Value.IsFinite (v : Value) : Prop :=
  ∃ x, v.toFloat = .ok x ∧ x.isFinite = true

/-- A field for a number, whose default is finite. -/
structure FieldSpec.IsFinite (spec : FieldSpec) : Prop where
  number : spec.baseType = .number
  default : spec.default.IsFinite

instance (v : Value) : Decidable v.IsFinite :=
  match h : v.toFloat with
  | .ok x => decidable_of_iff (x.isFinite = true) (by simp [Value.IsFinite, h])
  | .error _ => isFalse (by simp [Value.IsFinite, h])

instance (spec : FieldSpec) : Decidable spec.IsFinite :=
  decidable_of_iff (spec.baseType = .number ∧ spec.default.IsFinite)
    ⟨fun h => ⟨h.1, h.2⟩, fun h => ⟨h.number, h.default⟩⟩

theorem Schema.standard_finite : ∀ e ∈ Schema.standard,
    (∀ spec ∈ e.2.objectFields, spec.IsFinite) ∧ ∀ spec ∈ e.2.outputFields, spec.IsFinite := by
  decide +kernel

variable {spec : FieldSpec} {v : Value} {months : Nat} {x : Float}

theorem Value.isNull_of_toFloat (h : v.toFloat = .ok x) : v.isNull = false := by
  cases v <;> first | rfl | cases h

/-- The amount that stays the same is the number that is given, or the default, which is finite. -/
theorem Raw.exists_steadyAmount (field : spec.IsFinite) (given : v.toFloat = .ok x) :
    ∃ y, steadyAmount spec (ofSingle v) = .ok y ∧ (y = x ∨ y.isFinite = true) := by
  obtain ⟨y, default, finite⟩ := field.default
  unfold steadyAmount defaultAmount
  rw [Value.isNull_of_toFloat default]
  split
  · exact ⟨x, given, .inl rfl⟩
  · exact ⟨y, default, .inr finite⟩

theorem Raw.value_ofSingle (number : spec.baseType = .number)
    (steady : steadyAmount spec (ofSingle v) = .ok x) (months : Nat) :
    (ofSingle v).value spec months = .ok (.series (Series.constant months x)) := by
  have base : baseSeries spec (ofSingle v) months = .ok (Series.constant months x) := by
    unfold baseSeries
    simp only [ofSingle, ite_self] at steady ⊢
    rw [steady, ok_bind]
    rfl
  unfold value series
  simp only [number, base, ok_bind]
  simp only [ofSingle, ite_self]
  rfl

theorem Assumption.exists_of_number (field : spec.IsFinite) (given : v.toFloat = .ok x)
    (months : Nat) :
    ∃ y, Assumption.of spec (Raw.ofSingle v) months =
      .ok ⟨spec, Raw.ofSingle v, .series (Series.constant months y)⟩ ∧
      (y = x ∨ y.isFinite = true) := by
  obtain ⟨y, steady, which⟩ := Raw.exists_steadyAmount field given
  refine ⟨y, ?_, which⟩
  rw [Assumption.of, Raw.value_ofSingle field.number steady]
  rfl

theorem Assumption.exists_of_finite (field : spec.IsFinite) (finite : v.IsFinite) (months : Nat) :
    ∃ x, Assumption.of spec (Raw.ofSingle v) months = .ok x ∧ x.setting.Finite := by
  obtain ⟨x, given, xFinite⟩ := finite
  obtain ⟨y, made, which⟩ := Assumption.exists_of_number field given months
  refine ⟨_, made, ?_⟩
  intro z hz
  rw [List.eq_of_mem_replicate hz]
  rcases which with rfl | yFinite
  · exact xFinite
  · exact yFinite

def Definition.InlineFinite (d : Definition) : Prop :=
  ∀ written ∈ d.inline, ∀ e ∈ written.2, ∀ x, e.2 = .number x → x.isFinite = true

instance (v : InlineValue) : Decidable (∀ x, v = .number x → x.isFinite = true) :=
  match v with
  | .number x => decidable_of_iff (x.isFinite = true) (by simp)
  | .text _ => isTrue (by simp)

instance (d : Definition) : Decidable d.InlineFinite :=
  inferInstanceAs (Decidable (∀ written ∈ d.inline, ∀ e ∈ written.2, ∀ x, e.2 = .number x →
    x.isFinite = true))

namespace Assumptions

variable {d : Definition} {m : Model} {t : ObjectType} {written : Entries InlineValue}

theorem exists_seed_number (field : spec.IsFinite) (written : Entries InlineValue)
    (output : String) :
    ∃ (v : Value) (x : Float), (seed spec written output).2 = Raw.ofSingle v ∧ v.toFloat = .ok x ∧
      (x.isFinite = true ∨ (spec.name, .number x) ∈ written) := by
  obtain ⟨y, default, finite⟩ := field.default
  unfold seed
  rw [field.number]
  cases found : written.lookup spec.name with
  | none => exact ⟨_, y, rfl, default, .inl finite⟩
  | some value =>
    cases value with
    | text s => exact ⟨_, y, rfl, default, .inl finite⟩
    | number x => exact ⟨_, x, rfl, rfl, .inr (Entries.mem_of_lookup found)⟩

theorem exists_seed_finite (field : spec.IsFinite) (output : String)
    (finite : ∀ e ∈ written, ∀ x, e.2 = .number x → x.isFinite = true) :
    ∃ v : Value, (seed spec written output).2 = Raw.ofSingle v ∧ v.IsFinite := by
  obtain ⟨v, x, seeded, given, xFinite | mem⟩ := exists_seed_number field written output
  · exact ⟨v, seeded, x, given, xFinite⟩
  · exact ⟨v, seeded, x, given, finite _ mem x rfl⟩

theorem buildable_of_standard (known : Schema.standard.lookup d.kind = some t)
    (finite : d.InlineFinite) (months : Nat) :
    Buildable (fun x => x.setting.Finite) months t d := by
  obtain ⟨objectFields, outputFields⟩ := Schema.standard_finite _ (Entries.mem_of_lookup known)
  refine ⟨?_, ?_⟩
  · intro spec hspec
    exact Assumption.exists_of_finite (objectFields spec hspec)
      (objectFields spec hspec).default months
  · intro output spec hspec
    have written : ∀ e ∈ (d.inline.lookup output).getD [], ∀ x, e.2 = .number x →
        x.isFinite = true := by
      cases found : d.inline.lookup output with
      | none => simp
      | some written => exact finite _ (Entries.mem_of_lookup found)
    obtain ⟨v, seeded, vFinite⟩ := exists_seed_finite (outputFields spec hspec) output written
    rw [seeded]
    exact Assumption.exists_of_finite (outputFields spec hspec) vFinite months

/-- The assumptions of a model of standard types can be built, and all settings are finite. -/
theorem exists_ofModel_standard (s : Symbols) (months : Nat)
    (known : ∀ d ∈ m.definitions, d.kind ∈ Schema.standard.keys)
    (finite : ∀ d ∈ m.definitions, d.InlineFinite) :
    ∃ a, (ofModel m s Schema.standard months).outcome = .ok a ∧
      ∀ object output, (a.settings object output).Finite := by
  have buildable : ∀ d ∈ m.definitions, ∃ t, Schema.standard.lookup d.kind = some t ∧
      Buildable (fun x => x.setting.Finite) months t d := by
    intro d hd
    obtain ⟨t, ht⟩ := Entries.exists_lookup (known d hd)
    exact ⟨t, ht, buildable_of_standard ht (finite d hd) months⟩
  obtain ⟨a, built, all⟩ := exists_ofModel s buildable
  refine ⟨a, built, ?_⟩
  intro object output name
  rcases all.find_settings object output name with unset | ⟨x, hx, set⟩
  · rw [unset]
    trivial
  · rw [set]
    exact hx

end Assumptions
end Forecast

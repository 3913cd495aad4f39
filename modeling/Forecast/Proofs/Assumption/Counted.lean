import Forecast.Proofs.Assumption.Standard
import Forecast.Proofs.Compute.Reported

/-!
# Assumptions that count months

The assumptions of any model can be built from the standard types, since an
object of another type has none. All of them can be read, and those that count
months are not infinite if nothing infinite is written for them. To say so, an
assumption has to be known by its name: it stands in its group under the name of
its field.
-/

namespace Forecast

open Outcome

/-- An assumption for each month that does not count to infinity. -/
def Assumption.Countable (x : Assumption) : Prop :=
  ∃ xs, x.value = .series xs ∧ (x.spec.name ∈ countNames → ∀ y ∈ xs, y.isInf = false)

/-- Nothing infinite is written where months are counted. -/
def Definition.Countable (d : Definition) : Prop :=
  ∀ written ∈ d.inline, ∀ e ∈ written.2, e.1 ∈ countNames → ∀ x, e.2 = .number x → x.isInf = false

instance (v : InlineValue) : Decidable (∀ x, v = .number x → x.isInf = false) :=
  match v with
  | .number x => decidable_of_iff (x.isInf = false) (by simp)
  | .text _ => isTrue (by simp)

instance (d : Definition) : Decidable d.Countable :=
  inferInstanceAs (Decidable (∀ written ∈ d.inline, ∀ e ∈ written.2, e.1 ∈ countNames →
    ∀ x, e.2 = .number x → x.isInf = false))

variable {spec : FieldSpec} {v : Value} {months : Nat} {x : Float}

theorem Assumption.exists_countable (field : spec.IsFinite) (hv : v.toFloat = .ok x)
    (bounded : spec.name ∈ countNames → x.isInf = false) (months : Nat) :
    ∃ a, Assumption.of spec (Raw.ofSingle v) months = .ok a ∧ a.Countable := by
  obtain ⟨y, made, given⟩ := Assumption.exists_of_number field hv months
  refine ⟨_, made, _, rfl, ?_⟩
  intro counts z hz
  rw [List.eq_of_mem_replicate hz]
  rcases given with rfl | finite
  · exact bounded counts
  · exact not_isInf_of_isFinite finite

namespace Assumptions

variable {d : Definition} {m : Model} {t : ObjectType} {s : Symbols} {schema : Schema}
  {a : Assumptions}

theorem buildable_of_countable (known : Schema.standard.lookup d.kind = some t)
    (countable : d.Countable) (months : Nat) : Buildable Assumption.Countable months t d := by
  obtain ⟨objectFields, outputFields⟩ := Schema.standard_finite _ (Entries.mem_of_lookup known)
  refine ⟨?_, ?_⟩
  · intro spec hspec
    have field := objectFields spec hspec
    obtain ⟨y, hy, finite⟩ := field.default
    exact Assumption.exists_countable field hy (fun _ => not_isInf_of_isFinite finite) months
  · intro output spec hspec
    have written : ∀ e ∈ (d.inline.lookup output).getD [], e.1 ∈ countNames →
        ∀ x, e.2 = .number x → x.isInf = false := by
      cases found : d.inline.lookup output with
      | none => simp
      | some written => exact countable _ (Entries.mem_of_lookup found)
    have field := outputFields spec hspec
    obtain ⟨v, x, seeded, hv, given⟩ :=
      exists_seed_number field ((d.inline.lookup output).getD []) output
    rw [seeded]
    apply Assumption.exists_countable field hv
    intro counts
    rcases given with finite | mem
    · exact not_isInf_of_isFinite finite
    · exact written _ mem counts x rfl

theorem countable_settings (made : ∀ group ∈ a.groups, Made months group)
    (all : a.All Assumption.Countable) (object output : String) :
    (a.settings object output).Countable := by
  refine ⟨?_, ?_⟩
  · intro name fault
    rcases exists_of_find a object output name with unset | ⟨group, hgroup, x, hx, set⟩
    · rw [unset]
      exact nofun
    · obtain ⟨xs, series, -⟩ := all_iff.1 all group hgroup _ hx
      rw [set, Assumption.setting, series]
      exact nofun
  · intro name counts y hy
    rcases exists_of_find a object output name with unset | ⟨group, hgroup, x, hx, set⟩
    · rw [unset] at hy
      cases hy
    · obtain ⟨xs, series, bounded⟩ := all_iff.1 all group hgroup _ hx
      rw [set, Assumption.setting, series] at hy
      obtain ⟨spec, v, own, hspec⟩ := made group hgroup _ hx
      rw [(Assumption.of_ok hspec).1, ← own] at bounded
      exact bounded counts y hy

/-- The assumptions of a model can be built from the standard types, and settle all settings; these
do not count to infinity if the model does not. -/
theorem exists_ofModel_countable (s : Symbols) (months : Nat)
    (countable : ∀ d ∈ m.definitions, d.Countable) :
    ∃ a, (ofModel m s Schema.standard months).outcome = .ok a ∧
      ∀ object output, (a.settings object output).Countable := by
  have buildable : ∀ d ∈ m.definitions, ∀ t, Schema.standard.lookup d.kind = some t →
      Buildable Assumption.Countable months t d :=
    fun d hd t known => buildable_of_countable known (countable d hd) months
  obtain ⟨a, built, all⟩ := exists_ofModel_of_known s buildable
  exact ⟨a, built, countable_settings (made_of_ofModel built) all⟩

end Assumptions
end Forecast

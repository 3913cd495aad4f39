import Forecast.Proofs.Value.Floor

/-!
# Infinite doubles

A double is infinite if all bits of its exponent are set and none of its
mantissa. The floor of any other is a number, or the double is not a number.
The negation of a double that is not infinite is not infinite.
-/

namespace Forecast

open Float.Model

variable {x : Float}

theorem exists_unpack_of_whole (special : exponentBits x = -1#11) (whole : mantissaBits x = 0#52) :
    ∃ sign, x.toModel.unpack = .infinity sign := by
  unfold exponentBits at special
  unfold mantissaBits at whole
  unfold Float.Model.unpack UnpackedFloat.unpack
  dsimp only
  rw [if_pos special, if_pos whole]
  exact ⟨_, rfl⟩

theorem unpack_of_part (special : exponentBits x = -1#11) (part : mantissaBits x ≠ 0#52) :
    x.toModel.unpack = .notANumber := by
  unfold exponentBits at special
  unfold mantissaBits at part
  unfold Float.Model.unpack UnpackedFloat.unpack
  dsimp only
  rw [if_pos special, if_neg part]

theorem ExponentInRange.not_isInf {u : UnpackedFloat} (h : ExponentInRange u) : u.isInf = false :=
  match u, h with
  | .zero _, _ => rfl
  | .finite .., _ => rfl

theorem isInf_iff : x.isInf = true ↔ exponentBits x = -1#11 ∧ mantissaBits x = 0#52 := by
  unfold Float.isInf Float.Model.isInf
  by_cases special : exponentBits x = -1#11
  · by_cases whole : mantissaBits x = 0#52
    · obtain ⟨sign, unpacked⟩ := exists_unpack_of_whole special whole
      rw [unpacked]
      exact iff_of_true rfl ⟨special, whole⟩
    · rw [unpack_of_part special whole]
      exact iff_of_false Bool.false_ne_true fun h => whole h.2
  · rw [(exponentInRange_unpack special).not_isInf]
    exact iff_of_false Bool.false_ne_true fun h => special h.1

theorem not_isInf_of_isFinite (finite : x.isFinite = true) : x.isInf = false :=
  Bool.eq_false_iff.2 fun infinite => isFinite_iff.1 finite (isInf_iff.1 infinite).1

theorem mantissa_ne_zero (special : exponentBits x = -1#11) (bounded : x.isInf = false) :
    mantissaBits x ≠ 0#52 := by
  intro whole
  rw [isInf_iff.2 ⟨special, whole⟩] at bounded
  cases bounded

theorem not_isInf_neg (bounded : x.isInf = false) : (-x).isInf = false := by
  by_cases special : exponentBits x = -1#11
  · have negated : (-x).toModel = pack x.toModel.unpack.neg := rfl
    unfold Float.isInf
    rw [negated, unpack_of_part special (mantissa_ne_zero special bounded)]
    rfl
  · exact not_isInf_of_isFinite (isFinite_neg (isFinite_iff.2 special))

/-- Only the floor of an infinite double is out of range. -/
theorem floor_error {fault : NumberFault} (bounded : x.isInf = false)
    (h : floorFloat x = .error fault) : fault = .undefinedInteger := by
  by_cases special : exponentBits x = -1#11
  · have field : (exponentBits x).toNat = 2047 := congrArg BitVec.toNat special
    have part : (mantissaBits x).toNat ≠ 0 := fun none =>
      mantissa_ne_zero special bounded (BitVec.eq_of_toNat_eq none)
    unfold floorFloat integerBy Decimal.Parts.ofFloat Decimal.Parts.ofBits at h
    rw [← toNat_exponentBits, ← toNat_mantissaBits, field] at h
    simp [part] at h
    exact h.symm
  · obtain ⟨n, hn⟩ := floor_of_isFinite (isFinite_iff.2 special)
    rw [hn] at h
    cases h

end Forecast

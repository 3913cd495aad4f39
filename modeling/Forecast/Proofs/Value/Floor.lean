import Forecast.Proofs.Value.Finite

/-!
# Floors and signs

A double that is not below zero has no sign, or is a zero whose sign does not
count. So its floor is not below zero.
-/

namespace Forecast

open Float.Model

def signBits (x : Float) : BitVec 1 :=
  @UnpackedFloat.unpackSign Format.binary64 x.toModel.toBits.toBitVec

theorem toNat_signBits (x : Float) :
    (signBits x).toNat = x.toBits.toNat / Nat.pow 2 63 % 2 := by
  unfold signBits UnpackedFloat.unpackSign Float.toBits
  rw [BitVec.toNat_cast, BitVec.extractLsb_toNat, Nat.shiftRight_eq_div_pow]
  rfl

theorem toNat_mantissaBits (x : Float) :
    (mantissaBits x).toNat = x.toBits.toNat % Decimal.hiddenBit := by
  unfold mantissaBits UnpackedFloat.unpackMantissa Float.toBits Decimal.hiddenBit
  rw [BitVec.toNat_cast, BitVec.extractLsb_toNat, Nat.shiftRight_zero]
  rfl

/-- Numbers with a sign, but no zeros. -/
def IsBelowZero : UnpackedFloat → Prop
  | .finite .negative .. => True
  | _ => False

theorem IsBelowZero.le {u : UnpackedFloat} (h : IsBelowZero u) :
    (UnpackedFloat.zero .positive).le u = false :=
  match u, h with
  | .finite .negative .., _ => rfl

theorem not_isBelowZero {x : Float} (nonneg : 0 ≤ x) : ¬ IsBelowZero x.toModel.unpack := by
  intro below
  have flag : Float.le 0 x = true := nonneg
  have models : (Float.toModel 0).unpack.le x.toModel.unpack = true := of_decide_eq_true flag
  have zero : (Float.toModel 0).unpack = .zero .positive := rfl
  rw [zero, below.le] at models
  exact Bool.false_ne_true models

/-- An ordinary double with a sign that is not below zero is a zero. -/
theorem zero_of_nonneg {x : Float} (nonneg : 0 ≤ x) (sign : signBits x = 1#1)
    (ordinary : exponentBits x ≠ -1#11) : exponentBits x = 0#11 ∧ mantissaBits x = 0#52 := by
  apply Decidable.byContradiction
  intro nonzero
  apply not_isBelowZero nonneg
  have negative : UnpackedFloat.Sign.ofBitVec 1#1 = .negative := rfl
  unfold exponentBits mantissaBits at nonzero
  unfold exponentBits at ordinary
  unfold signBits at sign
  unfold Float.Model.unpack UnpackedFloat.unpack
  dsimp only
  rw [if_neg ordinary, sign, negative]
  by_cases least : @UnpackedFloat.unpackExponent Format.binary64 x.toModel.toBits.toBitVec = 0#11
  · rw [if_pos least, dif_neg fun empty => nonzero ⟨least, empty⟩]
    trivial
  · rw [if_neg least]
    trivial

theorem floorScaled_nonneg (significand : Nat) (power : Int) :
    0 ≤ Decimal.floorScaled false significand power := by
  unfold Decimal.floorScaled
  simp only [Bool.false_eq_true, if_false]
  split
  · exact Int.fdiv_nonneg (by omega) (by omega)
  · exact Int.mul_nonneg (by omega) (by omega)

theorem floorScaled_zero (negative : Bool) (power : Int) :
    Decimal.floorScaled negative 0 power = 0 := by
  simp [Decimal.floorScaled]

theorem floor_nonneg {x : Float} {n : Int} (nonneg : 0 ≤ x) (h : floorFloat x = .ok n) : 0 ≤ n := by
  unfold floorFloat integerBy Decimal.Parts.ofFloat Decimal.Parts.ofBits at h
  rw [← toNat_signBits, ← toNat_exponentBits, ← toNat_mantissaBits] at h
  by_cases special : (exponentBits x).toNat = 2047
  · by_cases whole : (mantissaBits x).toNat = 0 <;> simp [special, whole] at h
  have ordinary : exponentBits x ≠ -1#11 := fun last => special (congrArg BitVec.toNat last)
  by_cases sign : signBits x = 1#1
  · obtain ⟨exponent, mantissa⟩ := zero_of_nonneg nonneg sign ordinary
    simp [exponent, mantissa, floorScaled_zero] at h
    omega
  · have positive : (signBits x).toNat = 0 := by
      have one : (signBits x).toNat ≠ 1 := fun one => sign (BitVec.eq_of_toNat_eq one)
      have := (signBits x).isLt
      omega
    by_cases least : (exponentBits x).toNat = 0
    · simp [positive, least] at h
      exact h ▸ floorScaled_nonneg _ _
    · simp [special, positive, least] at h
      exact h ▸ floorScaled_nonneg _ _

end Forecast

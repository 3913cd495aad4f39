import Forecast.Amount

/-!
# Finite doubles

A double is finite unless all bits of its exponent are set. A finite one has a
floor, and so has its negation.
-/

namespace Forecast

open Float.Model

theorem zero_isFinite : (0 : Float).isFinite = true := by decide +kernel

theorem one_isFinite : (1 : Float).isFinite = true := by decide +kernel

def exponentBits (x : Float) : BitVec 11 :=
  @UnpackedFloat.unpackExponent Format.binary64 x.toModel.toBits.toBitVec

def mantissaBits (x : Float) : BitVec 52 :=
  @UnpackedFloat.unpackMantissa Format.binary64 x.toModel.toBits.toBitVec

/-- Zeros, and numbers whose exponent is in range. -/
def ExponentInRange : UnpackedFloat → Prop
  | .zero _ => True
  | .finite _ _ e _ => e + 1075 < 2047
  | .infinity _ | .notANumber => False

theorem ExponentInRange.isFinite {u : UnpackedFloat} (h : ExponentInRange u) : u.isFinite = true :=
  match u, h with
  | .zero _, _ => rfl
  | .finite .., _ => rfl

/-- A double is in range if a bit of its exponent is not set. -/
theorem exponentInRange_unpack {x : Float} (ordinary : exponentBits x ≠ -1#11) :
    ExponentInRange x.toModel.unpack := by
  have notLast : (exponentBits x).toNat ≠ 2047 := fun last => ordinary (BitVec.eq_of_toNat_eq last)
  have below : (exponentBits x).toNat < 2047 := by omega
  have bias : Format.binary64.exponentBias = 1023 := rfl
  unfold Float.Model.unpack UnpackedFloat.unpack
  dsimp only
  by_cases least : exponentBits x = 0#11
  · unfold exponentBits at ordinary least
    rw [if_neg ordinary, if_pos least]
    by_cases empty : mantissaBits x = 0#52
    · unfold mantissaBits at empty
      rw [dif_pos empty]
      trivial
    · unfold mantissaBits at empty
      rw [dif_neg empty]
      change _ + 1 + 1075 < (2047 : Int)
      rw [least, bias]
      decide
  · unfold exponentBits at ordinary least below
    rw [if_neg ordinary, if_neg least]
    change _ + 1075 < (2047 : Int)
    omega

theorem isFinite_iff {x : Float} : x.isFinite = true ↔ exponentBits x ≠ -1#11 := by
  by_cases special : exponentBits x = -1#11
  · refine iff_of_false ?_ fun ordinary => ordinary special
    unfold exponentBits at special
    unfold Float.isFinite Float.Model.isFinite Float.Model.unpack UnpackedFloat.unpack
    dsimp only
    rw [if_pos special]
    split <;> exact Bool.false_ne_true
  · exact iff_of_true (exponentInRange_unpack special).isFinite special

theorem toNat_exponentBits (x : Float) :
    (exponentBits x).toNat = x.toBits.toNat / Decimal.hiddenBit % 2048 := by
  unfold exponentBits UnpackedFloat.unpackExponent Float.toBits Decimal.hiddenBit
  rw [BitVec.toNat_cast, BitVec.extractLsb_toNat, Nat.shiftRight_eq_div_pow]
  rfl

theorem floor_of_isFinite {x : Float} (finite : x.isFinite = true) : ∃ n, floorFloat x = .ok n := by
  have field : (x.toBits.toNat / Decimal.hiddenBit % 2048 == 2047) = false := by
    rw [isFinite_iff] at finite
    rw [beq_eq_false_iff_ne, ← toNat_exponentBits]
    intro special
    exact finite (BitVec.eq_of_toNat_eq special)
  unfold floorFloat integerBy Decimal.Parts.ofFloat Decimal.Parts.ofBits
  simp only [field]
  by_cases small : (x.toBits.toNat / Decimal.hiddenBit % 2048 == 0) = true
  · exact ⟨_, by simp only [small]; rfl⟩
  · exact ⟨_, by simp only [small]; rfl⟩

/-- A number that is written down with an exponent in range is finite. -/
theorem exponent_pack {s : UnpackedFloat.Sign} {m : Nat} {e : Int} {positive : 0 < m}
    (inRange : e + 1075 < 2047) :
    UnpackedFloat.unpackExponent (UnpackedFloat.pack Format.binary64 (.finite s m e positive)) ≠
      -1#11 := by
  have bias :
      (e + Format.binary64.exponentBias + Format.binary64.mantissaBitsWithoutImplicit).toNat =
      (e + 1075).toNat := by
    change (e + (2 ^ (11 - 1) - 1 : Nat) + (52 : Nat)).toNat = (e + 1075).toNat
    omega
  have below : (e + 1075).toNat < 2047 := by omega
  unfold UnpackedFloat.pack
  dsimp only
  rw [bias, if_neg (by omega)]
  split
  · rw [UnpackedFloat.unpackExponent_packComponents]
    intro special
    have := congrArg BitVec.toNat special
    simp at this
    omega
  · rw [UnpackedFloat.unpackExponent_packComponents]
    decide

theorem ExponentInRange.exponent_pack_neg {u : UnpackedFloat} (h : ExponentInRange u) :
    UnpackedFloat.unpackExponent (UnpackedFloat.pack Format.binary64 u.neg) ≠ -1#11 :=
  match u, h with
  | .zero _, _ => UnpackedFloat.unpackExponent_packComponents ▸ by decide
  | .finite .., h => exponent_pack h

theorem isFinite_neg {x : Float} (finite : x.isFinite = true) : (-x).isFinite = true :=
  isFinite_iff.2 (exponentInRange_unpack (isFinite_iff.1 finite)).exponent_pack_neg

end Forecast

/-!
# Shortest decimal of a double

A finite double is a whole number of halves, quarters, … and stands for all
reals that round to it. `shortest` is the decimal with the fewest digits among
those reals, the nearest one where several have that many digits, the even one
on a tie. All comparisons are between natural numbers.
-/

namespace Forecast.Decimal

inductive Parts
  /-- The value `(-1)^negative * significand * 2^power`. -/
  | finite (negative : Bool) (significand : Nat) (power : Int)
  | infinite (negative : Bool)
  | notANumber

/-- The weight of the leading bit of a significand, which a pattern of bits leaves out. -/
def hiddenBit : Nat :=
  Nat.pow 2 52

/-- The parts that a pattern of 64 bits encodes. -/
def Parts.ofBits (bits : Nat) : Parts :=
  let negative := bits / Nat.pow 2 63 % 2 == 1
  let field := bits / hiddenBit % 2048
  let fraction := bits % hiddenBit
  if field == 2047 then
    if fraction == 0 then .infinite negative else .notANumber
  else if field == 0 then .finite negative fraction (-1074)
  else .finite negative (hiddenBit + fraction) ((field : Int) - 1075)

def Parts.ofFloat (x : Float) : Parts :=
  ofBits x.toBits.toNat

/-- The largest integer not above `(-1)^negative * significand * 2^power`. -/
def floorScaled (negative : Bool) (significand : Nat) (power : Int) : Int :=
  let signed : Int := if negative then -significand else significand
  if power < 0 then signed.fdiv (Nat.pow 2 power.natAbs) else signed * Nat.pow 2 power.natAbs

/-- A decimal `digits * 10^power`. -/
structure Scaled where
  digits : Nat
  power : Int
deriving DecidableEq

/-- A positive real as a quotient, with the interval of reals that round to the same double. -/
structure Rounding where
  value : Nat
  low : Nat
  high : Nat
  unit : Nat
  /-- Whether the ends of the interval belong to it. -/
  closed : Bool

/-- The interval around `significand * 2^power`, in fourths of the last place. Below a power of
two the doubles lie twice as close. -/
def Rounding.around (significand : Nat) (power : Int) : Rounding :=
  let lowStep := if significand == hiddenBit && power != -1074 then 1 else 2
  let scale := Nat.pow 2 (power - 2).natAbs
  let up := if power < 2 then 1 else scale
  { value := 4 * significand * up
    low := (4 * significand - lowStep) * up
    high := (4 * significand + 2) * up
    unit := if power < 2 then scale else 1
    closed := significand % 2 == 0 }

/-- Whether `digits * 10^power` rounds to the double. -/
def Rounding.contains (r : Rounding) (d : Scaled) : Bool :=
  let point :=
    if d.power < 0 then d.digits * r.unit else d.digits * Nat.pow 10 d.power.natAbs * r.unit
  let scale := if d.power < 0 then Nat.pow 10 d.power.natAbs else 1
  if r.closed then r.low * scale ≤ point && point ≤ r.high * scale
  else r.low * scale < point && point < r.high * scale

/-- The value divided by a power of ten, as a whole part, a remainder and the divisor. -/
def Rounding.quotient (r : Rounding) (power : Int) : Nat × Nat × Nat :=
  let num := if power < 0 then r.value * Nat.pow 10 power.natAbs else r.value
  let den := if power < 0 then r.unit else r.unit * Nat.pow 10 power.natAbs
  (num / den, num % den, den)

/-- The better of the two neighbours of the value on the grid of multiples of `10^power`. -/
def Rounding.onGrid (r : Rounding) (power : Int) : Option Scaled :=
  let (whole, rest, den) := r.quotient power
  let below : Scaled := ⟨whole, power⟩
  let above : Scaled := ⟨whole + 1, power⟩
  match r.contains below, r.contains above with
  | true, true =>
    if 2 * rest < den || (2 * rest == den && whole % 2 == 0) then some below else some above
  | true, false => some below
  | false, true => some above
  | false, false => none

def digitCount (n : Nat) : Nat :=
  (Nat.toDigits 10 n).length

/-- The power of ten of the leading digit of the value. -/
def Rounding.magnitude (r : Rounding) : Int :=
  let e : Int := (digitCount r.value : Int) - digitCount r.unit
  let (whole, _, _) := r.quotient e
  if whole == 0 then e - 1 else e

/-- The first grid, from coarse to fine, that meets the interval. -/
def Rounding.search (r : Rounding) : Nat → Int → Scaled
  | 0, power => ⟨(r.quotient power).1, power⟩
  | left + 1, power =>
    match r.onGrid power with
    | some d => d
    | none => r.search left (power - 1)

def Scaled.normalize : Nat → Scaled → Scaled
  | 0, d => d
  | fuel + 1, d =>
    if d.digits != 0 && d.digits % 10 == 0 then normalize fuel ⟨d.digits / 10, d.power + 1⟩ else d

/-- The shortest decimal that rounds to `significand * 2^power`, for a positive significand. -/
def shortest (significand : Nat) (power : Int) : Scaled :=
  let r := Rounding.around significand power
  (r.search 17 r.magnitude).normalize 20

end Forecast.Decimal

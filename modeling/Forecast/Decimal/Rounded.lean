import Forecast.Decimal.Shortest

/-!
# Rounded doubles

A double may be cut to ten decimal places or to a number of significant digits.
Places are found in doubles themselves: the fraction times ten to the tenth,
whose own fraction decides; a half goes up unless the digits before it are
even and not zero. Significant digits are found exactly, and a half goes to the
even neighbour.
-/

namespace Forecast.Decimal

/-- The natural number `digits` of hundredths, thousandths, … as the nearest double. -/
def ofPlaces (places digits : Nat) : Float :=
  Float.ofScientific digits true places

/-- A number of units rounded by the part of a unit that is left over. -/
def roundUnits (units : Nat) (rest : Float) : Nat :=
  if rest > 0.5 || (rest == 0.5 && (units == 0 || units % 2 == 1)) then units + 1 else units

/-- A double to ten decimal places. A negative zero loses its sign, a negative number keeps it. -/
def tenPlaces (x : Float) : Float :=
  let size := x.abs
  let whole := size.floor
  let scaled := (size - whole) * 1e10
  let units := scaled.floor
  let digits := roundUnits units.toUInt64.toNat (scaled - units)
  let rounded := ofPlaces 10 (whole.toUInt64.toNat * Nat.pow 10 10 + digits)
  if x < 0.0 then -rounded else rounded

/-- The number `significand * 2^power`, not zero, to a number of significant digits. -/
def significantDigits (count significand : Nat) (power : Int) : Scaled :=
  let r := Rounding.around significand power
  let place := r.magnitude - (count - 1 : Nat)
  let (whole, rest, den) := r.quotient place
  ⟨if 2 * rest > den || (2 * rest == den && whole % 2 == 1) then whole + 1 else whole, place⟩

def Scaled.toFloat (d : Scaled) : Float :=
  Float.ofScientific d.digits (d.power < 0) d.power.natAbs

/-- Whether a double is written by places: not so a large one, or a tiny one other than zero. -/
def isByPlaces (x : Float) : Bool :=
  !(x.abs > 1e16 - 1.0 || (x != 0.0 && x.abs < 1e-15))

/-- A double as it is exported: to ten places, and a large or tiny one to ten significant digits.
There is none for a double that is not finite. -/
def exported? (x : Float) : Option Float :=
  match Parts.ofFloat x with
  | .notANumber => none
  | .infinite _ => none
  | .finite negative significand power =>
    if isByPlaces x then some (tenPlaces x)
    else
      let size := (significantDigits 10 significand power).toFloat
      some (if negative then -size else size)

end Forecast.Decimal

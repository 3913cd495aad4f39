import Forecast.Decimal.Numeral
import Forecast.Value

/-!
# Numbers in values

Amounts and month numbers may be given as numbers, as flags, which count as
one and zero, or as texts that denote numbers.
-/

namespace Forecast

/-- Why something is not a number of the kind asked for. -/
inductive NumberFault
  /-- A text that denotes no number. -/
  | notNumber (text : String)
  /-- A text that denotes no integer. -/
  | notInteger (text : String)
  | tooManyDigits (count : Nat)
  /-- The integer part of something that is not a number. -/
  | undefinedInteger
  /-- The integer part of an infinity, or an integer beyond the range of doubles. -/
  | outOfRange
  /-- Nothing, a list or a record in place of a number. -/
  | wrongType

def NumberFault.message : NumberFault → String
  | notNumber text => "could not convert string to float: " ++ Text.quoted text
  | notInteger text =>
    "invalid literal for int() with base 10: " ++ String.ofList ((Text.quoted text).toList.take 200)
  | tooManyDigits count =>
    "Exceeds the limit (" ++ Decimal.intText Decimal.digitLimit ++
      " digits) for integer string conversion: value has " ++ Decimal.intText count ++
      " digits; use sys.set_int_max_str_digits() to increase the limit"
  | undefinedInteger => "cannot convert float NaN to integer"
  | outOfRange => "cannot convert float infinity to integer"
  | wrongType => "a number is needed"

/-- The integer part of a double after rounding by `round`. -/
def integerBy (round : Bool → Nat → Int → Int) (x : Float) : Except NumberFault Int :=
  match Decimal.Parts.ofFloat x with
  | .notANumber => .error .undefinedInteger
  | .infinite _ => .error .outOfRange
  | .finite negative significand power => .ok (round negative significand power)

/-- The largest integer not above a double. -/
def floorFloat (x : Float) : Except NumberFault Int :=
  integerBy Decimal.floorScaled x

def truncateFloat (x : Float) : Except NumberFault Int :=
  integerBy (fun negative significand power =>
    let size := Decimal.floorScaled false significand power
    if negative then -size else size) x

def floatOfInt (n : Int) : Except NumberFault Float :=
  let size := Float.ofScientific n.natAbs false 0
  if size == 1.0 / 0.0 then .error .outOfRange
  else .ok (if n < 0 then -size else size)

namespace Value

def floatOfText (s : String) : Except NumberFault Float :=
  match Decimal.float? s.toList with
  | some x => .ok x
  | none => .error (.notNumber s)

def intOfText (s : String) : Except NumberFault Int :=
  match Decimal.int s.toList with
  | .value n => .ok n
  | .tooLong count => .error (.tooManyDigits count)
  | .malformed => .error (.notInteger s)

def toFloat : Value → Except NumberFault Float
  | bool b => .ok (if b then 1.0 else 0.0)
  | int n => floatOfInt n
  | float x => .ok x
  | text s => floatOfText s
  | null => .error .wrongType
  | list _ => .error .wrongType
  | record _ => .error .wrongType

/-- A value as an integer; a double loses its fraction. -/
def toInt : Value → Except NumberFault Int
  | bool b => .ok (if b then 1 else 0)
  | int n => .ok n
  | float x => truncateFloat x
  | text s => intOfText s
  | null => .error .wrongType
  | list _ => .error .wrongType
  | record _ => .error .wrongType

@[simp] theorem toFloat_float (x : Float) : (float x).toFloat = .ok x := rfl

@[simp] theorem toInt_int (n : Int) : (int n).toInt = .ok n := rfl

end Value
end Forecast

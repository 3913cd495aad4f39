import Forecast.Decimal.Shortest

/-!
# Layout of numbers

How a number is written: its shortest digits, placed around a point or followed
by a power of ten. A `Layout` fixes where the one form gives way to the other.
-/

namespace Forecast.Decimal

/-- The decisions of a number format. -/
structure Layout where
  /-- The least power of ten of the leading digit that is written with a point. -/
  positionalFrom : Int
  /-- The least power of ten, above that, that is written with an exponent again. -/
  positionalBelow : Int
  /-- The least number of digits of an exponent. -/
  exponentDigits : Nat
  infinity : String
  notANumber : String

def digitChars (n : Nat) : List Char :=
  Nat.toDigits 10 n

def padZeros (width : Nat) (s : List Char) : List Char :=
  List.replicate (width - s.length) '0' ++ s

/-- The digits with a point after the leading digit and `power` more. -/
def positional (digits : List Char) (power : Int) : List Char :=
  if power < 0 then '0' :: '.' :: List.replicate (power.natAbs - 1) '0' ++ digits
  else
    let n := power.natAbs + 1
    if digits.length ≤ n then digits ++ List.replicate (n - digits.length) '0' ++ ['.', '0']
    else digits.take n ++ '.' :: digits.drop n

/-- The digits with a point after the leading one, times a power of ten. -/
def scientific (exponentDigits : Nat) (digits : List Char) (power : Int) : List Char :=
  let mantissa :=
    match digits with
    | [] => []
    | [d] => [d]
    | d :: rest => d :: '.' :: rest
  let sign := if power < 0 then '-' else '+'
  mantissa ++ 'e' :: sign :: padZeros exponentDigits (digitChars power.natAbs)

def Layout.write (l : Layout) (d : Scaled) : List Char :=
  let digits := digitChars d.digits
  let power : Int := d.power + digits.length - 1
  if l.positionalFrom ≤ power && power < l.positionalBelow then positional digits power
  else scientific l.exponentDigits digits power

def signed (negative : Bool) (s : List Char) : List Char :=
  if negative then '-' :: s else s

def Layout.float (l : Layout) (x : Float) : String :=
  match Parts.ofFloat x with
  | .notANumber => l.notANumber
  | .infinite negative => String.ofList (signed negative l.infinity.toList)
  | .finite negative significand power =>
    if significand == 0 then String.ofList (signed negative ['0', '.', '0'])
    else String.ofList (signed negative (l.write (shortest significand power)))

/-- Amounts are written with a point from a ten-thousandth up to sixteen digits before it, and
with an exponent of at least two digits outside that range. -/
def amounts : Layout where
  positionalFrom := -4
  positionalBelow := 16
  exponentDigits := 2
  infinity := "inf"
  notANumber := "nan"

def floatText (x : Float) : String :=
  amounts.float x

def intText (n : Int) : String :=
  String.ofList (signed (n < 0) (digitChars n.natAbs))

end Forecast.Decimal

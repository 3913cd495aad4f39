import Forecast.Decimal.Numeral
import Forecast.Value.Json

/-!
# Integers in texts

A schema may give an integer as a text. Besides the plain form, an optional
minus sign and digits without needless zeros, a text may be surrounded by
spaces, start with a plus sign or with zeros, have underscores between digits,
and end with a point and zeros.
-/

namespace Forecast.Checked

open Decimal (IntReading)

/-- The integer that a text in the plain form denotes. -/
def plainInteger (s : List Char) : IntReading :=
  let (negative, body) :=
    match s with
    | '-' :: rest => (true, rest)
    | _ => (false, s)
  match Json.wholeDigits body with
  | ([], _) => .malformed
  | (_, _ :: _) => .malformed
  | (ds, []) =>
    if ds.length > Decimal.digitLimit then .tooLong ds.length
    else
      let n := Decimal.ofDigits (ds.map fun c => c.toNat - 48)
      .value (if negative then -(n : Int) else n)

/-- A text without its plus sign. No other sign may follow. -/
def dropPlus? : List Char → Option (List Char)
  | '+' :: '-' :: _ => none
  | '+' :: rest => some rest
  | s => some s

def isStart (c : Char) : Bool :=
  ('1' ≤ c && c ≤ '9') || c == '-'

/-- What counts of a text after a zero or an underscore; the last of these counts if no digit
does. -/
def afterZero? (last : Char) : List Char → Option (List Char)
  | [] => some [last]
  | c :: rest =>
    if c == '0' || c == '_' then afterZero? c rest
    else if isStart c then some (c :: rest)
    else if c == '.' then some (last :: c :: rest)
    else none

def dropZeros? : List Char → Option (List Char)
  | '0' :: rest => afterZero? '0' rest
  | c :: rest => if isStart c then some (c :: rest) else none
  | [] => none

def dropZeroFraction (s : List Char) : List Char :=
  match s.span (· != '.') with
  | (whole, '.' :: zeros) => if zeros.all (· == '0') then whole else s
  | _ => s

def hasDoubleUnderscore : List Char → Bool
  | '_' :: '_' :: _ => true
  | _ :: rest => hasDoubleUnderscore rest
  | [] => false

/-- A text without its underscores, if all of them stand alone between other characters. -/
def dropUnderscores (s : List Char) : List Char :=
  if s.head? == some '_' || s.getLast? == some '_' || hasDoubleUnderscore s then s
  else s.filter (· != '_')

def plainForm? (s : List Char) : Option (List Char) := do
  let unsigned ← dropPlus? (Text.strip Text.isSpace s)
  let body ← dropZeros? unsigned
  return dropUnderscores (dropZeroFraction body)

def integerOfText (s : List Char) : IntReading :=
  match plainInteger s with
  | .malformed =>
    match plainForm? s with
    | some t => plainInteger t
    | none => .malformed
  | reading => reading

end Forecast.Checked

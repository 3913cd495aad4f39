import Forecast.Text.Blank
import Forecast.Text.Digit

/-!
# Written numbers

A numeral is an optional sign, decimal digits of any script with an optional
point among them, and an optional power of ten. Where grouping is allowed, one
underscore may stand between two digits. A number read from a text may be
surrounded by spaces, and may also be an infinity or not a number.
-/

namespace Forecast.Decimal

open Text

/-- The number `(-1)^negative * digits * 10^(exponent - fraction)`, the digits read as one
integer. -/
structure Numeral where
  negative : Bool
  digits : List Nat
  fraction : Nat
  exponent : Int

def ofDigits (ds : List Nat) : Nat :=
  ds.foldl (fun n d => 10 * n + d) 0

@[simp] theorem ofDigits_nil : ofDigits [] = 0 := rfl

/-- The digits at the front and what follows them. With `grouped`, an underscore between two
digits is skipped; `after` tells that a digit stands just before. -/
def spanDigits (grouped after : Bool) : List Char → List Nat × List Char
  | [] => ([], [])
  | '_' :: c :: rest =>
    match digitValue? c with
    | some d =>
      if grouped && after then
        let (ds, tail) := spanDigits grouped true rest
        (d :: ds, tail)
      else ([], '_' :: c :: rest)
    | none => ([], '_' :: c :: rest)
  | c :: rest =>
    match digitValue? c with
    | some d =>
      let (ds, tail) := spanDigits grouped true rest
      (d :: ds, tail)
    | none => ([], c :: rest)

def spanSign : List Char → Bool × List Char
  | '-' :: rest => (true, rest)
  | '+' :: rest => (false, rest)
  | s => (false, s)

/-- The power of ten at the end of a numeral; nothing means ten to the zero. -/
def exponent? (grouped : Bool) : List Char → Option Int
  | [] => some 0
  | c :: rest =>
    if c == 'e' || c == 'E' then
      let (negative, body) := spanSign rest
      match spanDigits grouped false body with
      | ([], _) => none
      | (ds, []) => some (if negative then -(ofDigits ds : Int) else ofDigits ds)
      | (_, _ :: _) => none
    else none

def Numeral.ofChars? (grouped : Bool) (s : List Char) : Option Numeral :=
  let (negative, body) := spanSign s
  let (whole, afterWhole) := spanDigits grouped false body
  let (part, tail) :=
    match afterWhole with
    | '.' :: rest => spanDigits grouped false rest
    | rest => ([], rest)
  if whole.isEmpty && part.isEmpty then none
  else (exponent? grouped tail).map fun e => ⟨negative, whole ++ part, part.length, e⟩

/-- The nearest double; beyond the range of doubles an infinity, below it a zero. -/
def Numeral.toFloat (n : Numeral) : Float :=
  let ds := n.digits.dropWhile (· == 0)
  let power : Int := n.exponent - n.fraction
  let size : Int := ds.length + power
  let magnitude : Float :=
    if ds.isEmpty || size < -400 then 0.0
    else if size > 400 then 1.0 / 0.0
    else if power < 0 then Float.ofScientific (ofDigits ds) true power.natAbs
    else Float.ofScientific (ofDigits ds) false power.natAbs
  if n.negative then -magnitude else magnitude

def unbounded? (s : List Char) : Option Float :=
  let (negative, body) := spanSign s
  let word := String.ofList (body.map Char.toLower)
  if word == "inf" || word == "infinity" then
    some (if negative then -(1.0 / 0.0) else 1.0 / 0.0)
  else if word == "nan" then some (0.0 / 0.0)
  else none

def float? (s : List Char) : Option Float :=
  let body := strip isSpace s
  match Numeral.ofChars? true body with
  | some n => some n.toFloat
  | none => unbounded? body

/-- An integer as a text, or how it fails. -/
inductive IntReading
  | value (n : Int)
  | tooLong (digits : Nat)
  | malformed

/-- Longest run of digits that is read as an integer. -/
def digitLimit : Nat := 4300

/-- The integer that a text denotes. Too long a run of digits is a fault of its own whatever follows
the run, unless an underscore does. -/
def int (s : List Char) : IntReading :=
  let (negative, body) := spanSign (strip isSpace s)
  match spanDigits true false body with
  | ([], _) => .malformed
  | (_, '_' :: _) => .malformed
  | (ds, rest) =>
    if ds.length > digitLimit then .tooLong ds.length
    else if rest.isEmpty then .value (if negative then -(ofDigits ds : Int) else ofDigits ds)
    else .malformed

end Forecast.Decimal

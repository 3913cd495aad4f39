import Forecast.Calendar
import Forecast.Calendar.Token
import Forecast.Decimal.Nearest
import Forecast.Decimal.Numeral
import Forecast.Decimal.Shortest

/-!
# Numbers of a written date

A number in a date is a natural number, possibly with a fraction: `10.5h` is
half past ten. The fraction of an hour gives minutes, that of a minute seconds,
and that of a second millionths; each is cut to a whole number. What is finer
than 28 significant digits is rounded before.
-/

namespace Forecast.Date

open Decimal (ofDigits digitCount nearest)

def need {α : Type} : Option α → Except Unread α
  | some a => .ok a
  | none => .error .noDate

def natural? (t : Token) : Option Nat :=
  if t.isEmpty then none else (t.mapM Text.digitValue?).map ofDigits

structure Figure where
  token : Token
  whole : Nat
  fraction : List Nat

namespace Figure

def ofToken? (t : Token) : Option Figure :=
  match t.span (· != '.') with
  | (whole, []) => (natural? whole).map fun n => ⟨t, n, []⟩
  | (whole, _ :: part) => do
    let n ← natural? whole
    let ds ← part.mapM Text.digitValue?
    return ⟨t, n, ds⟩

def hasPoint (x : Figure) : Bool :=
  x.token.contains '.'

/-- Whether the number is not whole. -/
def isBroken (x : Figure) : Bool :=
  x.fraction.any (· != 0)

/-- Whether the number is at least one and at most a bound. -/
def isUpTo (x : Figure) (bound : Nat) : Bool :=
  1 ≤ x.whole && (x.whole < bound || (x.whole == bound && !x.isBroken))

/-- The digits that count in a fraction. -/
def precision : Nat := 28

/-- The number `n / 10^places` with no more digits than count. -/
def rounded (n places : Nat) : Nat × Nat :=
  let excess := digitCount n - precision
  (nearest n (Nat.pow 10 excess), places - excess)

def sixtieths (fraction : List Nat) : Nat :=
  let (n, places) := rounded (ofDigits fraction) fraction.length
  let (m, rest) := rounded (60 * n) places
  m / Nat.pow 10 rest

/-- The whole part and the sixtieths of the rest, if there is a rest. -/
def inSixtieths (x : Figure) : Except Unread (Nat × Option Nat) :=
  if precision < digitCount x.whole then .error .tooLong
  else .ok (x.whole, if x.isBroken then some (sixtieths x.fraction) else none)

end Figure

/-- Seconds and millionths of a second. Digits after the sixth are not looked at. -/
def seconds (t : Token) : Except Unread (Nat × Nat) :=
  match t.span (· != '.') with
  | (whole, []) => do return (← need (natural? whole), 0)
  | (whole, _ :: part) => do
    if part.contains '.' then throw .noDate
    return (← need (natural? whole), ← need (natural? ((part ++ List.replicate 6 '0').take 6)))

end Forecast.Date

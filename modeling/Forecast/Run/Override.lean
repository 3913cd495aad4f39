import Forecast.Notice
import Forecast.Series
import Forecast.Text.Blank
import Forecast.Text.Digit

/-!
# Overrides

A user may replace single months of what an output stores in a channel. Months
are given as numbers or as texts; one outside of the horizon, or one that is no
month at all, is ignored with a notice. The value is looked at only if the
month is one of the series.
-/

namespace Forecast

/-- Values by month, in order. -/
abbrev MonthValues := List (Value × Value)

/-- Replaced months by output and channel. -/
abbrev Overrides := Entries (Option (Entries (Option MonthValues)))

namespace Overrides

def months (o : Overrides) (output channel : String) : MonthValues :=
  match o.lookup output with
  | some (some channels) => ((channels.lookup channel).getD none).getD []
  | _ => []

/-- Whether a text looks like a month number: digits after any number of minus signs. -/
def looksLikeMonth (s : List Char) : Bool :=
  let body := (Text.trim s).dropWhile (· == '-')
  !body.isEmpty && body.all Text.isDigitLike

/-- The month that a key denotes, if it denotes one. -/
def month? : Value → Except NumberFault (Option Int)
  | .int n => .ok (some n)
  | .text s =>
    if looksLikeMonth s.toList then (Value.intOfText (String.ofList (Text.trim s.toList))).map some
    else .ok none
  | _ => .ok none

/-- The position of a month in a series of some length. -/
def position? (length : Nat) (month : Option Int) : Option Nat :=
  match month with
  | some m => if 0 ≤ m ∧ m < length then some m.toNat else none
  | none => none

def applyOne (output channel : String) (xs : Series Float) (change : Value × Value) :
    Logged (Series Float) := do
  let month ← (do return ← month? change.1 : Except Fault (Option Int))
  match position? xs.length month with
  | none => do
    Logged.note (.monthOutOfRange output channel change.1)
    return xs
  | some m => do
    let x ← (do return ← change.2.toFloat : Except Fault Float)
    return xs.set m x

/-- A series with the months of one channel of an output replaced. -/
def apply (o : Overrides) (output channel : String) (xs : Series Float) : Logged (Series Float) :=
  (o.months output channel).foldlM (applyOne output channel) xs

/-- The entries of a value that is set; nothing if it is set and no record. -/
def table? (v : Value) : Option (List (String × Value)) :=
  match v with
  | .record es => some es
  | _ => if v.holds then none else some []

/-- Whether a value can be asked for the months of a channel: all that is set on the way is a
record. -/
def isTableFor (v : Value) (output channel : String) : Bool :=
  let months := do
    let outputs ← table? v
    let channels ← table? ((outputs.lookup output).getD .null)
    table? ((channels.lookup channel).getD .null)
  months.isSome

/-- Tables of months read from a value; what is no record counts as left out. -/
def ofValue (v : Value) : Overrides :=
  match v with
  | .record outputs =>
    Entries.mapValues
      (fun channels =>
        match channels with
        | .record cs =>
          some (Entries.mapValues
            (fun months =>
              match months with
              | .record ms => some (ms.map fun e => (.text e.1, e.2))
              | _ => none) cs)
        | _ => none) outputs
  | _ => []

end Overrides
end Forecast

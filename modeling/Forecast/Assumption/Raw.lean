import Forecast.Fault

/-!
# Raw assumptions

What a user states about an assumption: a single value, one value per year, a
rate of growth per year, values of single months, twelve seasonal factors, a
range of months outside of which the amount is zero, and whether yearly values
are smoothed. Each part may be left out. A raw assumption is checked as a whole
whenever a part of it changes.
-/

namespace Forecast

/-- The parts of a raw assumption as they are given; nothing stands for a part that is left out. -/
structure RawParts where
  single : Value
  annual : Value
  growth : Value
  monthly : Value
  smoothing : Value
  /-- The first and the last month. -/
  dateRange : Value
  seasonal : Value

/-- A checked raw assumption. -/
structure Raw where
  single : Value
  annual : Option (List (Option Float))
  growth : Option Float
  monthly : Option (List (Option Float))
  smoothing : Bool
  dateRange : Option (Int × Option Int)
  seasonal : Option (List Float)

/-- The elements of a value: items of a list, characters of a text, keys of a record. -/
def Value.elements : Value → Except RawFault (List Value)
  | .list vs => .ok vs
  | .text s => .ok (s.toList.map fun c => .text (String.ofList [c]))
  | .record es => .ok (es.map fun e => .text e.1)
  | _ => .error .notList

namespace Raw

def optional {α : Type} (read : Value → Except Fault α) (v : Value) : Except Fault (Option α) :=
  if v.isNull then .ok none else (read v).map some

/-- An entry of a list; nothing stands for an entry without a value. -/
def entry (v : Value) : Except Fault (Option Float) :=
  optional (fun v => do return ← v.toFloat) v

def entryList (v : Value) : Except Fault (List (Option Float)) := do
  (← v.elements).mapM entry

/-- A rate of growth, not below minus one. -/
def growthRate (v : Value) : Except Fault Float := do
  let g ← v.toFloat
  if g < -1.0 then throw (.raw (.growthTooLow g))
  return g

def seasonalFactors (v : Value) : Except Fault (List Float) := do
  let vs ← v.elements
  let xs ← vs.mapM fun v => (do return ← v.toFloat : Except Fault Float)
  if xs.length ≠ 12 then throw (.raw (.seasonalCount xs.length))
  return xs

/-- How a range is shown in a message: two values between parentheses, or else the value as it
is. -/
def shownRange : Value → String
  | .list vs => "(" ++ ", ".intercalate (vs.map Value.display) ++ ")"
  | v => v.display

/-- A range of months: it starts at month zero or later and ends at its start or later. -/
def rangeOf (shown : String) (start stop : Value) : Except Fault (Int × Option Int) := do
  let first ← start.toInt
  let last ← optional (fun v => do return ← v.toInt) stop
  if first < 0 ∨ last.any (· < first) then throw (.raw (.dateRange shown))
  return (first, last)

def dateRangeOf (v : Value) : Except Fault (Int × Option Int) := do
  match ← v.elements with
  | [start, stop] => rangeOf (shownRange v) start stop
  | [] => throw (.raw (.tooFewDates 0))
  | [_] => throw (.raw (.tooFewDates 1))
  | _ => throw (.raw .tooManyDates)

def ofParts (p : RawParts) : Except Fault Raw := do
  let annual ← optional entryList p.annual
  let monthly ← optional entryList p.monthly
  let growth ← optional growthRate p.growth
  let seasonal ← optional seasonalFactors p.seasonal
  let dateRange ← optional dateRangeOf p.dateRange
  return {
    single := p.single
    annual
    growth
    monthly
    smoothing := p.smoothing.holds
    dateRange
    seasonal }

def ofSingle (v : Value) : Raw where
  single := v
  annual := none
  growth := none
  monthly := none
  smoothing := false
  dateRange := none
  seasonal := none

def entryValue (x : Option Float) : Value :=
  match x with
  | some x => .float x
  | none => .null

def listValue (xs : Option (List (Option Float))) : Value :=
  match xs with
  | some xs => .list (xs.map entryValue)
  | none => .null

def rangeValue (r : Option (Int × Option Int)) : Value :=
  match r with
  | some (first, some last) => .list [.int first, .int last]
  | some (first, none) => .list [.int first, .null]
  | none => .null

def parts (r : Raw) : RawParts where
  single := r.single
  annual := listValue r.annual
  growth := entryValue r.growth
  monthly := listValue r.monthly
  smoothing := .bool r.smoothing
  dateRange := rangeValue r.dateRange
  seasonal := listValue (r.seasonal.map (·.map some))

end Raw
end Forecast

import Forecast.Assumption.Book

/-!
# Edits of assumptions

An edit changes some parts of one raw assumption and computes its value again;
all other assumptions stay as they are. A part may be replaced, cleared, or, for
yearly and monthly values, changed in a single place. A place beyond the end
extends the list; a negative place counts from the end.
-/

namespace Forecast

/-- A change of the parts of a raw assumption; parts without a value stay as they are. -/
structure Edit where
  single : Option Value
  annual : Option Value
  annualPlace : Option (Int × Value)
  growth : Option Value
  monthly : Option Value
  monthlyPlace : Option (Int × Value)
  smoothing : Option Value
  dateRange : Option Value
  seasonal : Option Value

def Edit.none : Edit where
  single := Option.none
  annual := Option.none
  annualPlace := Option.none
  growth := Option.none
  monthly := Option.none
  monthlyPlace := Option.none
  smoothing := Option.none
  dateRange := Option.none
  seasonal := Option.none

/-- A list with the value at a place replaced. -/
def setPlace (vs : List Value) (place : Int) (v : Value) : Except EditFault (List Value) :=
  if 0 ≤ place then
    let i := place.toNat
    .ok ((vs ++ List.replicate (i + 1 - vs.length) Value.null).set i v)
  else if (vs.length : Int) + place < 0 then .error .indexOutOfRange
  else .ok (vs.set ((vs.length : Int) + place).toNat v)

/-- A part with the value at a place replaced; a part that is left out is an empty list. -/
def editPlace (part : Value) (change : Option (Int × Value)) : Except Fault Value :=
  match change with
  | none => .ok part
  | some (place, v) => do
    let vs ← if part.holds then (do return ← part.elements : Except Fault (List Value)) else pure []
    let changed ← setPlace vs place v
    return .list changed

def Edit.apply (e : Edit) (p : RawParts) : Except Fault RawParts := do
  let annual ← editPlace (e.annual.getD p.annual) e.annualPlace
  let monthly ← editPlace (e.monthly.getD p.monthly) e.monthlyPlace
  return {
    single := e.single.getD p.single
    annual
    growth := e.growth.getD p.growth
    monthly
    smoothing := e.smoothing.getD p.smoothing
    dateRange := e.dateRange.getD p.dateRange
    seasonal := e.seasonal.getD p.seasonal }

namespace Assumptions

def editField (group : Entries Assumption) (field place : String) (e : Edit) (months : Nat) :
    Except Fault (Entries Assumption) := do
  match group.lookup field with
  | none => throw (.edit (.unknownField field place))
  | some current =>
    let parts ← e.apply current.raw.parts
    let raw ← Raw.ofParts parts
    let changed ← Assumption.of current.spec raw months
    return group.put field changed

/-- The assumptions with one field edited, of an object or of one of its outputs. -/
def edit (a : Assumptions) (object : String) (output : Option String) (field : String) (e : Edit)
    (months : Nat) : Except Fault Assumptions := do
  match a.lookup object, output with
  | none, _ => throw (.edit (.unknownObject object))
  | some o, none =>
    let group ← editField o.object field object e months
    return a.put object { o with object := group }
  | some o, some name =>
    match o.outputs.lookup name with
    | none => throw (.edit (.unknownAlias name object))
    | some fields =>
      let group ← editField fields field (object ++ "/" ++ name) e months
      return a.put object { o with outputs := o.outputs.put name group }

end Assumptions
end Forecast

import Forecast.Decimal.Nearest
import Forecast.Entries
import Forecast.Fault

/-!
# Horizons

A model is run over a number of months, at least one. The number of years and
the start date only label what is written. The columns of a table bear the
months of the start date if there is one, and numbers otherwise; the months must
be such that a label can hold them.
-/

namespace Forecast

structure Horizon where
  months : Nat
  years : Int
  start : Option Date
  months_pos : 0 < months

/-- How a value is shown when it is out of its range: a text as it is. -/
def Value.shown : Value → String
  | .text s => s
  | v => v.display

namespace Horizon

/-- The years that a number of months begins. -/
def yearsFor (months : Nat) : Nat :=
  (months + 11) / 12

/-- The years that a number of months begins, the twelfth of the months taken as a double. -/
def yearsOf (months : Nat) : Except NumberFault Nat :=
  match Decimal.ceilDouble? months 12 with
  | some years => .ok years
  | none => .error .outOfRange

/-- The horizon of some months. Years that are not given follow from the months. -/
def of (months years : Value) (start : Option Date) : Except Fault Horizon := do
  let m ← months.toInt
  if h : 1 ≤ m then
    let y ← if years.isNull then (do return (← yearsOf m.toNat : Nat) : Except Fault Int)
      else years.toInt
    if y < 1 then throw (.years years.shown)
    return ⟨m.toNat, y, start, by omega⟩
  else throw (.months months.shown)

/-- The header entries that may hold the start date, the first one that does counts. -/
def startKeys : List String :=
  ["StartDate", "DateTime", "Date"]

/-- The date that an entry of a header gives. An entry that is not set gives none, nor does a text
that is no date; anything else is a fault. -/
def dateOf (read : DateReader) (entry : Value) : Except Fault (Option Date) :=
  if !entry.holds then .ok none
  else
    match entry with
    | .text s =>
      match read s with
      | .ok d => .ok (some d)
      | .error .noDate => .ok none
      | .error .tooLong => .error (.date .tooLong)
    | _ => .error (.number .wrongType)

def firstDate (read : DateReader) (metadata : Entries Value) :
    List String → Except Fault (Option Date)
  | [] => .ok none
  | key :: keys =>
    match dateOf read ((metadata.lookup key).getD .null) with
    | .ok none => firstDate read metadata keys
    | outcome => outcome

def ofHeader (read : DateReader) (metadata : Entries Value) (months years : Value) :
    Except Fault Horizon := do
  of months years (← firstDate read metadata startKeys)

end Horizon

inductive PeriodLabel
  | month (start : Date)
  | numbered (letter : String) (position : Nat)

def PeriodLabel.numberedText (letter : String) (position : Nat) : String :=
  letter ++ Decimal.intText position

def PeriodLabel.heading : PeriodLabel → String
  | month start => start.monthText
  | numbered letter position => numberedText letter position

/-- The months from a start date on, which must be such that labels can hold them. -/
def monthLabels (periods : Nat) (start : Date) : Except DateFault (List PeriodLabel) :=
  let months := (List.range periods).map start.monthStart
  if !start.isLabel then .error (.start (start.monthStart 0))
  else
    match months.find? fun d => !d.isLabel with
    | some d => .error (.later d)
    | none => .ok (months.map .month)

/-- The labels of a number of periods; only those of months may be dates. -/
def periodLabels (periods : Nat) (start : Option Date) (letter : String) :
    Except DateFault (List PeriodLabel) :=
  match start.filter fun _ => letter = "M" with
  | some d => monthLabels periods d
  | none => .ok ((List.range periods).map fun k => .numbered letter (k + 1))

theorem length_of_monthLabels {periods : Nat} {start : Date} {labels : List PeriodLabel}
    (h : monthLabels periods start = .ok labels) : labels.length = periods := by
  simp only [monthLabels] at h
  split at h
  · cases h
  · split at h
    · cases h
    · cases h
      simp

theorem length_of_periodLabels {periods : Nat} {start : Option Date} {letter : String}
    {labels : List PeriodLabel} (h : periodLabels periods start letter = .ok labels) :
    labels.length = periods := by
  simp only [periodLabels] at h
  split at h
  · exact length_of_monthLabels h
  · cases h
    simp

end Forecast

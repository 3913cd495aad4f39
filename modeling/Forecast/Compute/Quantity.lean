import Forecast.Settings

/-!
# Quantities

Functions that scale or divide what an object is given, that repeat an amount
from a month on, place it in a single month, or add up the inputs.
-/

namespace Forecast

/-- What a function is given: the horizon, the inputs, the settings and the output's name. No
function looks at the years or the start of the horizon, at the channels of its type, or at the
place of its output among those of its object, so a function here is one that does not depend on
them. -/
structure Task (α : Type) where
  months : Nat
  inputs : List (Series α)
  settings : Settings α
  output : String

namespace Compute

variable {α : Type} [Amount α]

def combined (t : Task α) : Except Fault (Series α) := do
  let total ← Series.sum t.months t.inputs
  return total

/-- The inputs times a factor, from the start month on. -/
def multiply (t : Task α) : Except Fault (Entries (Series α)) := do
  let base ← combined t
  let factor ← t.settings.series t.months "factor" 1
  let start ← t.settings.month "startMonth"
  return [(t.output, Series.startingAt start (List.zipWith (· * ·) base factor))]

/-- A quotient, and zero where the divisor is zero. -/
def quotient (x y : α) : α :=
  if Amount.isZero y then 0 else x / y

/-- The inputs divided by a factor, from the start month on. -/
def divide (t : Task α) : Except Fault (Entries (Series α)) := do
  let base ← combined t
  let factor ← t.settings.series t.months "factor" 1
  let start ← t.settings.month "startMonth"
  return [(t.output, Series.startingAt start (List.zipWith quotient base factor))]

/-- The amount itself, from the start month on. -/
def quantStart (t : Task α) : Except Fault (Entries (Series α)) := do
  let amount ← t.settings.series t.months "amount" 0
  let start ← t.settings.month "startMonth"
  return [(t.output, Series.startingAt start amount)]

/-- The amount of one month in that month, and its running total. A month outside the horizon gives
zeros. -/
def quantPulse (t : Task α) : Except Fault (Entries (Series α)) := do
  let month ← t.settings.month "month"
  let pulse ←
    if 0 ≤ month ∧ month < t.months then do
      let amount ← t.settings.series t.months "amount" 0
      pure (Series.single t.months month ((amount[month.toNat]?).getD 0))
    else pure (Series.zeros t.months)
  return [("val", pulse), ("cum", Series.runningTotal pulse)]

def sumInputs (t : Task α) : Except Fault (Entries (Series α)) := do
  return [("val", ← combined t)]

def setup (t : Task α) : Except Fault (Entries (Series α)) :=
  .ok [("val", Series.zeros t.months)]

end Compute
end Forecast

import Forecast.Value.Number

/-!
# Amounts

The computations of a model need little of a number: arithmetic, a comparison
with zero and the floor. `Amount` collects these, so that one definition serves
doubles, which models are run with, and exact rationals.
-/

namespace Forecast

/-- Numbers that a series may hold. -/
class Amount (α : Type) extends Zero α, One α, Add α, Sub α, Neg α, Mul α, Div α where
  /-- Whether the first number is less than the second. -/
  below : α → α → Bool
  isZero : α → Bool
  /-- The largest integer that is not above a number. -/
  floor : α → Except NumberFault Int

-- Where a type has an operation anyway, that one is meant.
attribute [instance (100)] Amount.toZero Amount.toOne Amount.toAdd Amount.toSub Amount.toNeg
  Amount.toMul
  Amount.toDiv

instance : Amount Float where
  below x y := x < y
  isZero x := x == 0.0
  floor := floorFloat

instance : Amount Rat where
  zero := 0
  one := 1
  below x y := Rat.blt x y
  isZero x := x == 0
  floor x := .ok x.floor

namespace Amount

variable {α : Type} [Amount α]

/-- A number, or zero instead of one that is not above zero. -/
def clamp (x : α) : α :=
  if below 0 x then x else 0

end Amount
end Forecast

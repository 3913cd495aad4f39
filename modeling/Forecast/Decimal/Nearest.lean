/-!
# Nearest numbers

A quotient is rounded to the nearest natural number, or to the nearest of the
numbers that have 53 significant bits, which are the doubles. In both cases a
half goes to the even neighbour.
-/

namespace Forecast.Decimal

/-- The natural number nearest to a quotient. -/
def nearest (num den : Nat) : Nat :=
  let whole := num / den
  let rest := num % den
  if 2 * rest > den || (2 * rest == den && whole % 2 == 1) then whole + 1 else whole

/-- The power of two of the last of 53 significant bits of a positive quotient. -/
def lastPlace (num den : Nat) : Int :=
  let e : Int := (num.log2 : Int) - den.log2
  let scale := Nat.pow 2 e.natAbs
  let reached := if e < 0 then den ≤ num * scale else den * scale ≤ num
  (if reached then e else e - 1) - 52

/-- The smallest natural number not below the double nearest to a positive quotient; there is none
if no double is as large. -/
def ceilDouble? (num den : Nat) : Option Nat :=
  let place := lastPlace num den
  let scale := Nat.pow 2 place.natAbs
  if place < 0 then some ((nearest (num * scale) den + (scale - 1)) / scale)
  else
    let rounded := nearest num (den * scale) * scale
    if rounded < Nat.pow 2 1024 then some rounded else none

theorem nearest_mul (n : Nat) {den : Nat} (h : 0 < den) : nearest (n * den) den = n := by
  simp [nearest, Nat.mul_div_cancel n h, Nat.ne_of_lt h]

theorem le_nearest (num den : Nat) : num / den ≤ nearest num den := by
  simp only [nearest]
  split <;> omega

end Forecast.Decimal

import Forecast.Compute.Quantity

/-!
# Shifts in time

The amount of each month is moved by an offset of that month. Amounts that meet
in one month are added; those that would leave the horizon are dropped.
-/

namespace Forecast.Compute

variable {α : Type} [Amount α]

/-- Adds the amount of a month to the month at its offset. -/
def scatter (offsets : Series α) (out : Series α) (source : α × Nat) : Except Fault (Series α) := do
  match offsets[source.2]? with
  | none => throw (.length .noSuchMonth)
  | some offset =>
    let move ← Amount.floor offset
    let target := (source.2 : Int) + move
    return if 0 ≤ target then out.modify target.toNat (· + source.1) else out

/-- Moves the amount of each month by the floor of its offset. -/
def shift (src offsets : Series α) : Except Fault (Series α) :=
  src.zipIdx.foldlM (scatter offsets) (Series.zeros src.length)

def delay (t : Task α) : Except Fault (Entries (Series α)) := do
  let offsets ← t.settings.series t.months "delayMonths" 0
  let base ← combined t
  return [(t.output, ← shift base offsets)]

def advance (t : Task α) : Except Fault (Entries (Series α)) := do
  let offsets ← t.settings.series t.months "advanceMonths" 0
  let base ← combined t
  return [(t.output, ← shift base (offsets.map (- ·)))]

end Forecast.Compute

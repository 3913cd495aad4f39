import Forecast.Compute.Quantity

/-!
# Staff

Heads and what they cost: from an activity and its productivity, from a number
of heads, or a single one. Both are zero before the start month.
-/

namespace Forecast.Compute

variable {α : Type} [Amount α]

/-- Heads from the start month on, and their salaries. -/
def staff (t : Task α) (heads : Series α) : Except Fault (Entries (Series α)) := do
  let start ← t.settings.month "startMonth"
  let heads := Series.startingAt start heads
  let salary ← t.settings.series t.months "salary" 0
  return [("heads", heads), ("cost", List.zipWith (· * ·) heads salary)]

/-- As many heads as the inputs need. -/
def staffDiv (t : Task α) : Except Fault (Entries (Series α)) := do
  let activity ← combined t
  let productivity ← t.settings.series t.months "productivity" 1
  staff t (List.zipWith quotient activity productivity)

def staffTeam (t : Task α) : Except Fault (Entries (Series α)) := do
  let heads ← t.settings.series t.months "headCount" 0
  staff t heads

def staffRole (t : Task α) : Except Fault (Entries (Series α)) :=
  staff t (Series.constant t.months 1)

end Forecast.Compute

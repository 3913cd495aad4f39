import Forecast.Compute.Quantity

/-!
# Loans

A loan is raised in one month and repaid at once when its term is over; in
between it bears interest. A term that is not positive never ends.
-/

namespace Forecast.Compute

variable {α : Type} [Amount α]

def outstanding (start term : Int) (month : Nat) : Bool :=
  start ≤ month && (term ≤ 0 || (month : Int) < start + term)

/-- Interest, what is raised and repaid, the balance and its movement. -/
def fundDebt (t : Task α) : Except Fault (Entries (Series α)) := do
  let start ← t.settings.month "startMonth"
  let amount ← t.settings.scalar "amount"
  let rate ← t.settings.scalar "rate"
  let term ← t.settings.month "term"
  let raised := Series.single t.months start amount
  let repaid :=
    if 0 < term then Series.single t.months (start + term) amount else Series.zeros t.months
  let balance :=
    (List.range t.months).map fun (m : Nat) => if outstanding start term m then amount else 0
  return [("int", balance.map (· * rate)),
    ("raised", raised),
    ("repaid", repaid),
    ("bal", balance),
    ("debtMove", List.zipWith (· - ·) raised repaid)]

end Forecast.Compute

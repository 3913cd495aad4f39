import Forecast.Compute.Quantity

/-!
# Subscribers

Subscribers carry over from month to month. Each month loses a part of the
month before and gains what is added, and never falls below zero. Before the
start month nothing is carried, so what is added there is never retained.
-/

namespace Forecast

/-- The subscribers of a month, and those lost in it. -/
structure Retention (α : Type) where
  active : α
  churned : α

namespace Compute

variable {α : Type} [Amount α]

/-- The months from `month` on, when `carried` subscribers come from the month before. -/
def retainFrom (start : Int) (month : Nat) (carried : α) :
    Series α → Series α → Except LengthFault (List (Retention α))
  | [], _ => .ok []
  | added :: rest, churn =>
    if (month : Int) < start then
      (retainFrom start (month + 1) 0 rest churn.tail).map (⟨0, 0⟩ :: ·)
    else
      match churn with
      | [] => .error .noSuchMonth
      | rate :: rates =>
        let lost := carried * rate
        let now := Amount.clamp (carried + added - lost)
        (retainFrom start (month + 1) now rest rates).map (⟨now, lost⟩ :: ·)

/-- The subscribers of each month, from what is added and which part is lost. -/
def retain (start : Int) (added churn : Series α) : Except LengthFault (List (Retention α)) :=
  retainFrom start 0 0 added churn

/-- The retention of an output: its inputs are added, its churn is lost. -/
def retention (t : Task α) : Except Fault (List (Retention α)) := do
  let added ← combined t
  let churn ← t.settings.series t.months "churn" 0
  let start ← t.settings.month "startMonth"
  let months ← retain start added churn
  return months

def subRetain (t : Task α) : Except Fault (Entries (Series α)) := do
  let months ← retention t
  return [("act", months.map (·.active)), ("chu", months.map (·.churned))]

/-- Subscribers, those lost, and the revenue from the subscribers at a price. -/
def subMth (t : Task α) : Except Fault (Entries (Series α)) := do
  let months ← retention t
  let price ← t.settings.series t.months "price" 0
  let active := months.map (·.active)
  return [("act", active), ("chu", months.map (·.churned)),
    ("rev", List.zipWith (· * ·) active price)]

end Compute
end Forecast

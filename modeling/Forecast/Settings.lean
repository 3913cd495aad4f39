import Forecast.Grid
import Forecast.Series

/-!
# Settings

A function reads its assumptions from settings, by name. What is set for an
output hides what is set for its object. A setting is a single amount or a
series of them; one that is not set counts as its default.
-/

namespace Forecast

/-- What an assumption is set to. -/
inductive Setting (α : Type)
  | unset
  | scalar (x : α)
  | series (xs : List α)
  /-- A setting that cannot be read; reading it is a fault. -/
  | invalid (fault : Fault)

structure Settings (α : Type) where
  object : Entries (Setting α)
  output : Entries (Setting α)

def Setting.ofValue (v : Value) : Setting Float :=
  match v with
  | .null => .unset
  | .list _ =>
    match Grid.ofValue v with
    | .ok g => .series g.cells
    | .error fault => .invalid fault
  | _ =>
    match v.toFloat with
    | .ok x => .scalar x
    | .error fault => .invalid (.number fault)

namespace Setting

variable {α : Type} [Amount α]

def series? (months : Nat) (default : α) : Setting α → Except Fault (Series α)
  | unset => .ok (Series.constant months default)
  | scalar x => .ok (Series.constant months x)
  | series xs => .ok (Series.fit months default xs)
  | invalid fault => .error fault

/-- The same amount in so many months; there is no negative number of them. -/
def constantOver (months : Int) (x : α) : Except Fault (Series α) :=
  if months < 0 then .error (.length .negative) else .ok (Series.constant months.toNat x)

/-- The amounts of so many months, where a negative number leaves out that many months at the end of
a series. The default is looked at only if it is needed. -/
def seriesOver (months : Int) (default : Except Fault α) : Setting α → Except Fault (Series α)
  | unset => default.bind (constantOver months)
  | scalar x => constantOver months x
  | series [] => default.bind (constantOver months)
  | series (x :: xs) =>
    if months < 0 then .ok ((x :: xs).take (xs.length + 1 - months.natAbs))
    else .ok (Series.fit months.toNat x (x :: xs))
  | invalid fault => .error fault

/-- The amount of the first month. -/
def first? : Setting α → Except Fault (Option α)
  | unset => .ok none
  | scalar x => .ok (some x)
  | series xs => .ok xs.head?
  | invalid fault => .error fault

end Setting

namespace Settings

variable {α : Type} [Amount α]

def find (s : Settings α) (name : String) : Setting α :=
  match s.output.lookup name with
  | some setting => setting
  | none => (s.object.lookup name).getD .unset

def series (s : Settings α) (months : Nat) (name : String) (default : α) :
    Except Fault (Series α) :=
  (s.find name).series? months default

/-- The amount of a setting in the first month. -/
def scalar (s : Settings α) (name : String) : Except Fault α := do
  return (← (s.find name).first?).getD 0

/-- A setting that counts months: the floor of its first amount. -/
def month (s : Settings α) (name : String) : Except Fault Int := do
  let x ← s.scalar name
  Amount.floor x

end Settings

theorem Setting.length_of_series? {α : Type} [Amount α] {months : Nat} {default : α}
    {setting : Setting α} {xs : Series α} (h : setting.series? months default = .ok xs) :
    xs.length = months := by
  cases setting <;> simp [Setting.series?] at h <;> subst h <;> simp

theorem Setting.seriesOver_natCast {α : Type} [Amount α] (months : Nat) (default : α)
    (setting : Setting α) :
    setting.seriesOver months (.ok default) = setting.series? months default := by
  have h : ¬ (months : Int) < 0 := by omega
  cases setting with
  | series xs =>
    cases xs with
    | nil => simp [seriesOver, series?, constantOver, h, Except.bind, Series.fit]
    | cons x xs => simp [seriesOver, series?, h, Series.fit, List.getLast?_cons]
  | _ => simp [seriesOver, series?, constantOver, h, Except.bind]

end Forecast

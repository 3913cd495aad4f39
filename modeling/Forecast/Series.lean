import Forecast.Amount
import Forecast.Fault

/-!
# Series

A series has one amount for each month of the horizon, the first month being
month zero. Sums run from left to right and start at zero; a running total
starts with the first amount itself.
-/

namespace Forecast

/-- The amounts of consecutive months. -/
abbrev Series (α : Type) := List α

namespace Series

variable {α : Type} [Amount α]

/-- The same amount in every month. -/
def constant (months : Nat) (x : α) : Series α :=
  List.replicate months x

def zeros (months : Nat) : Series α :=
  constant months 0

/-- The largest count that a signed word of 64 bits holds. -/
def countLimit : Nat := 9223372036854775807

/-- Whether a machine has room for a series of so many months, each of which takes eight bytes. The
operations here are about series of any length; only a command, which runs on a machine, asks. -/
def checkLength (months : Nat) : Except LengthFault Unit :=
  if countLimit < months then .error .uncountable
  else if countLimit < 8 * months then .error .tooBig
  else .ok ()

/-- Adds a series to another month by month. A series of one month is added to every month; all
other differences of length are faults. -/
def add (target given : Series α) : Except LengthFault (Series α) :=
  if target.length = given.length then .ok (List.zipWith (· + ·) target given)
  else
    match given with
    | [x] => .ok (target.map (· + x))
    | _ =>
      if target.length = 1 then .error (.tooNarrow given.length)
      else .error (.mismatch target.length given.length)

/-- The sum of series, from left to right. -/
def sum (months : Nat) (inputs : List (Series α)) : Except LengthFault (Series α) :=
  inputs.foldlM add (zeros months)

/-- The series whose months are the sums up to and including them, each added to `total`. -/
def runningFrom (total : α) : Series α → Series α
  | [] => []
  | x :: xs => (total + x) :: runningFrom (total + x) xs

/-- The running total of a series. -/
def runningTotal : Series α → Series α
  | [] => []
  | x :: xs => x :: runningFrom x xs

/-- The months from `start` on as they are, the earlier ones zero. -/
def startingAt (start : Int) (xs : Series α) : Series α :=
  xs.mapIdx fun m x => if (m : Int) < start then 0 else x

/-- Zero in all months but one. -/
def single (months : Nat) (month : Int) (x : α) : Series α :=
  (List.range months).map fun (m : Nat) => if (m : Int) = month then x else 0

/-- A series cut to a number of months, or continued with its last amount; an empty one gives the
default in every month. -/
def fit (months : Nat) (default : α) (xs : Series α) : Series α :=
  xs.take months ++ constant (months - xs.length) (xs.getLast?.getD default)

theorem checkLength_of_le {months : Nat} (h : 8 * months ≤ countLimit) :
    checkLength months = .ok () := by
  have h₁ : ¬ countLimit < months := by omega
  have h₂ : ¬ countLimit < 8 * months := by omega
  simp [checkLength, h₁, h₂]

omit [Amount α] in
@[simp] theorem length_constant (months : Nat) (x : α) : (constant months x).length = months := by
  simp [constant]

@[simp] theorem length_zeros (months : Nat) : (zeros months : Series α).length = months := by
  simp [zeros]

theorem add_of_length_eq {target given : Series α} (h : target.length = given.length) :
    add target given = .ok (List.zipWith (· + ·) target given) := by
  simp [add, h]

@[simp] theorem length_runningFrom (total : α) (xs : Series α) :
    (runningFrom total xs).length = xs.length := by
  induction xs generalizing total with
  | nil => rfl
  | cons x xs ih => simp [runningFrom, ih]

@[simp] theorem length_runningTotal (xs : Series α) : (runningTotal xs).length = xs.length := by
  cases xs <;> simp [runningTotal]

@[simp] theorem length_startingAt (start : Int) (xs : Series α) :
    (startingAt start xs).length = xs.length := by
  simp [startingAt]

@[simp] theorem length_single (months : Nat) (month : Int) (x : α) :
    (single months month x).length = months := by
  simp [single]

omit [Amount α] in
@[simp] theorem length_fit (months : Nat) (default : α) (xs : Series α) :
    (fit months default xs).length = months := by
  simp [fit]
  omega

end Series
end Forecast

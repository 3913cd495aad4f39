import Forecast.Assumption.Raw
import Forecast.Schema
import Forecast.Series

/-!
# Assumptions by month

A raw assumption becomes one amount per month. A rate of growth comes before
yearly values, and these before a single value; seasonal factors, values of
single months and the range of months are applied in this order. Parts that the
schema does not support are ignored. A flag stays a flag.
-/

namespace Forecast

/-- The value of an assumption: a flag, or an amount for each month. -/
inductive FieldValue
  | flag (b : Bool)
  | series (xs : Series Float)

namespace Raw

def defaultAmount (spec : FieldSpec) : Except NumberFault Float :=
  if spec.default.isNull then .ok 0.0 else spec.default.toFloat

/-- The amount that grows: the single value, or the first year's, or the default. -/
def baseAmount (spec : FieldSpec) (r : Raw) : Except NumberFault Float :=
  if !r.single.isNull then r.single.toFloat
  else
    match r.annual with
    | some (some x :: _) => .ok x
    | _ => defaultAmount spec

/-- The factor by which an amount grows each month. -/
def monthlyFactor (growth : Float) : Float :=
  (1.0 + growth).pow (1.0 / 12.0)

/-- The powers of a factor, from one on, each the one before times the factor. -/
def powers (factor current : Float) : Nat → List Float
  | 0 => []
  | months + 1 => current :: powers factor (current * factor) months

/-- An amount that grows from month to month. -/
def growing (base growth : Float) (months : Nat) : Series Float :=
  (powers (monthlyFactor growth) 1.0 months).map (base * ·)

/-- The amount of a month when each year has a value and the last one lasts. Smoothed, it moves
linearly toward the value of the next year. -/
def yearly (years : List Float) (smoothed : Bool) (month : Nat) : Float :=
  let last := years.length - 1
  let year := min (month / 12) last
  let here := (years[year]?).getD 0.0
  if smoothed && month / 12 < last then
    let next := (years[year + 1]?).getD 0.0
    here + (next - here) * (month % 12).toFloat / 12.0
  else here

/-- The amount that stays the same: the single value where it is supported, or else the default. -/
def steadyAmount (spec : FieldSpec) (r : Raw) : Except NumberFault Float :=
  if spec.supports.single && !r.single.isNull then r.single.toFloat else defaultAmount spec

/-- The amounts before seasonal factors, values of months and the range are applied. -/
def baseSeries (spec : FieldSpec) (r : Raw) (months : Nat) : Except NumberFault (Series Float) :=
  match if spec.supports.growth then r.growth else none with
  | some growth => do
    let base ← baseAmount spec r
    return growing base growth months
  | none =>
    match if spec.supports.annual then r.annual else none with
    | some (first :: rest) =>
      let years := (first :: rest).map (·.getD 0.0)
      .ok ((List.range months).map (yearly years (spec.supports.smoothing && r.smoothing)))
    | _ => do
      let x ← steadyAmount spec r
      return Series.constant months x

/-- Scales each month by the factor of its place in the year. -/
def applySeasonal (factors : Option (List Float)) (xs : Series Float) : Series Float :=
  match factors with
  | none => xs
  | some fs => xs.mapIdx fun m x => x * (fs[m % 12]?).getD 1.0

/-- Replaces the months that have a value of their own. -/
def applyMonthly (entries : Option (List (Option Float))) (xs : Series Float) : Series Float :=
  match entries with
  | none => xs
  | some es => xs.mapIdx fun m x => ((es[m]?).getD none).getD x

/-- Whether a month lies in a range. -/
def inRange (range : Int × Option Int) (month : Nat) : Bool :=
  range.1 ≤ month && !range.2.any (· < (month : Int))

def applyRange (range : Option (Int × Option Int)) (xs : Series Float) : Series Float :=
  match range with
  | none => xs
  | some r => xs.mapIdx fun m x => if inRange r m then x else 0.0

def series (spec : FieldSpec) (r : Raw) (months : Nat) : Except NumberFault (Series Float) := do
  let base ← baseSeries spec r months
  let seasonal := applySeasonal (if spec.supports.seasonal then r.seasonal else none) base
  let monthly := applyMonthly (if spec.supports.monthly then r.monthly else none) seasonal
  return applyRange (if spec.supports.dateRange then r.dateRange else none) monthly

/-- The value of an assumption over some months. -/
def value (spec : FieldSpec) (r : Raw) (months : Nat) : Except NumberFault FieldValue :=
  match spec.baseType with
  | .boolean => .ok (.flag (if r.single.isNull then spec.default else r.single).holds)
  | .number => (series spec r months).map .series

@[simp] theorem length_powers (factor current : Float) (months : Nat) :
    (powers factor current months).length = months := by
  induction months generalizing current with
  | zero => rfl
  | succ n ih => simp [powers, ih]

theorem length_baseSeries {spec : FieldSpec} {r : Raw} {months : Nat} {xs : Series Float}
    (h : baseSeries spec r months = .ok xs) : xs.length = months := by
  unfold baseSeries at h
  split at h
  · cases hb : baseAmount spec r with
    | error e =>
      rw [hb] at h
      cases h
    | ok b =>
      rw [hb] at h
      cases h
      simp [growing]
  · split at h
    · cases h
      simp
    · cases hs : steadyAmount spec r with
      | error e =>
        rw [hs] at h
        cases h
      | ok x =>
        rw [hs] at h
        cases h
        simp

@[simp] theorem length_applySeasonal (fs : Option (List Float)) (xs : Series Float) :
    (applySeasonal fs xs).length = xs.length := by
  cases fs <;> simp [applySeasonal]

@[simp] theorem length_applyMonthly (es : Option (List (Option Float))) (xs : Series Float) :
    (applyMonthly es xs).length = xs.length := by
  cases es <;> simp [applyMonthly]

@[simp] theorem length_applyRange (r : Option (Int × Option Int)) (xs : Series Float) :
    (applyRange r xs).length = xs.length := by
  cases r <;> simp [applyRange]

theorem length_series {spec : FieldSpec} {r : Raw} {months : Nat} {xs : Series Float}
    (h : series spec r months = .ok xs) : xs.length = months := by
  unfold series at h
  cases hb : baseSeries spec r months with
  | error e =>
    rw [hb] at h
    cases h
  | ok base =>
    rw [hb] at h
    cases h
    simp [length_baseSeries hb]

end Raw
end Forecast

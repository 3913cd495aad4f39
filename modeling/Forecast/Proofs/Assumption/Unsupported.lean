import Forecast.Proofs.Assumption.Monthly

/-!
# Parts that are not supported

A part of a raw assumption that the schema does not support can be left out
without a change of the value, but for the amount that growth starts from: the
single value, or else that of the first year, is where growth starts even if it
is not supported by itself.
-/

namespace Forecast

open Outcome

inductive Part
  | single
  | annual
  | growth
  | monthly
  | smoothing
  | dateRange
  | seasonal

def Supports.has (s : Supports) : Part → Bool
  | .single => s.single
  | .annual => s.annual
  | .growth => s.growth
  | .monthly => s.monthly
  | .smoothing => s.smoothing
  | .dateRange => s.dateRange
  | .seasonal => s.seasonal

def RawParts.without (p : RawParts) : Part → RawParts
  | .single => { p with single := .null }
  | .annual => { p with annual := .null }
  | .growth => { p with growth := .null }
  | .monthly => { p with monthly := .null }
  | .smoothing => { p with smoothing := .bool false }
  | .dateRange => { p with dateRange := .null }
  | .seasonal => { p with seasonal := .null }

namespace Raw

variable {spec : FieldSpec} {r : Raw} {p : RawParts} {part : Part} {months : Nat}

def without (r : Raw) : Part → Raw
  | .single => { r with single := .null }
  | .annual => { r with annual := none }
  | .growth => { r with growth := none }
  | .monthly => { r with monthly := none }
  | .smoothing => { r with smoothing := false }
  | .dateRange => { r with dateRange := none }
  | .seasonal => { r with seasonal := none }

/-- Whether a part is what a field that grows starts from: the single value, or without one the
value of the first year. -/
def StartsGrowth (spec : FieldSpec) (r : Raw) : Part → Prop
  | .single => spec.supports.growth ∧ r.growth.isSome ∧ ¬r.single.isNull
  | .annual => spec.supports.growth ∧ r.growth.isSome ∧ r.single.isNull ∧ ¬(firstYear r).isNull
  | _ => False

theorem ofParts_without (checked : ofParts p = .ok r) (part : Part) :
    ofParts (p.without part) = .ok (r.without part) := by
  simp only [ofParts, bind_eq_ok, pure_eq_ok] at checked
  obtain ⟨annual, hannual, monthly, hmonthly, growth, hgrowth, seasonal, hseasonal, range, hrange,
    rfl⟩ := checked
  cases part <;>
    simp only [ofParts, RawParts.without, hannual, hmonthly, hgrowth, hseasonal, hrange,
      ok_bind] <;>
    rfl

theorem firstSet_of_isNull {v : Value} (unset : v.isNull) (vs : List Value) :
    firstSet (v :: vs) = firstSet vs := by
  rw [firstSet, if_pos unset]

theorem firstSet_of_not_isNull {v : Value} (set : ¬v.isNull) (vs : List Value) :
    firstSet (v :: vs) = v.toFloat := by
  rw [firstSet, if_neg set]

/-- A part that growth does not start from does not matter to where it starts. -/
theorem baseAmount_without (growing : spec.supports.growth) (grows : r.growth.isSome)
    (noStart : ¬StartsGrowth spec r part) :
    baseAmount spec (r.without part) = baseAmount spec r := by
  rw [baseAmount_eq_firstSet, baseAmount_eq_firstSet]
  cases part with
  | single =>
    have unset : r.single.isNull := by simpa [StartsGrowth, growing, grows] using noStart
    rw [firstSet_of_isNull unset]
    exact firstSet_of_isNull rfl _
  | annual =>
    by_cases single : r.single.isNull
    · have unset : (firstYear r).isNull := by
        simpa [StartsGrowth, growing, grows, single] using noStart
      rw [firstSet_of_isNull single, firstSet_of_isNull unset]
      exact (firstSet_of_isNull single _).trans (firstSet_of_isNull rfl _)
    · rw [firstSet_of_not_isNull single]
      exact firstSet_of_not_isNull single _
  | growth | monthly | smoothing | dateRange | seasonal => rfl

theorem baseSeries_without (unsupported : spec.supports.has part = false)
    (noStart : ¬StartsGrowth spec r part) (months : Nat) :
    baseSeries spec (r.without part) months = baseSeries spec r months := by
  have growth : (if spec.supports.growth then (r.without part).growth else none) =
      if spec.supports.growth then r.growth else none := by
    cases part <;> simp_all [without, Supports.has]
  have years : (if spec.supports.annual then (r.without part).annual else none) =
      if spec.supports.annual then r.annual else none := by
    cases part <;> simp_all [without, Supports.has]
  have smoothed : (spec.supports.smoothing && (r.without part).smoothing) =
      (spec.supports.smoothing && r.smoothing) := by
    cases part <;> simp_all [without, Supports.has]
  have steady : steadyAmount spec (r.without part) = steadyAmount spec r := by
    cases part <;> simp_all [without, Supports.has, steadyAmount]
  simp only [baseSeries, growth, years, smoothed, steady]
  split
  case h_1 rate grows =>
    obtain ⟨growing, set⟩ := Option.ite_none_right_eq_some.1 grows
    rw [baseAmount_without growing (by rw [set]; rfl) noStart]
  case h_2 => rfl

theorem series_without (unsupported : spec.supports.has part = false)
    (noStart : ¬StartsGrowth spec r part) (months : Nat) :
    series spec (r.without part) months = series spec r months := by
  have factors : (if spec.supports.seasonal then (r.without part).seasonal else none) =
      if spec.supports.seasonal then r.seasonal else none := by
    cases part <;> simp_all [without, Supports.has]
  have entries : (if spec.supports.monthly then (r.without part).monthly else none) =
      if spec.supports.monthly then r.monthly else none := by
    cases part <;> simp_all [without, Supports.has]
  have range : (if spec.supports.dateRange then (r.without part).dateRange else none) =
      if spec.supports.dateRange then r.dateRange else none := by
    cases part <;> simp_all [without, Supports.has]
  simp only [series, baseSeries_without unsupported noStart, factors, entries, range]

/-- A part that a field on numbers does not support can be left out: the rest is still a raw
assumption, and its value exists as before and is the same, if growth does not start from that
part. -/
theorem value_without_unsupported (number : spec.baseType = .number) (checked : ofParts p = .ok r)
    (unsupported : spec.supports.has part = false) (noStart : ¬StartsGrowth spec r part)
    (months : Nat) :
    ∃ r', ofParts (p.without part) = .ok r' ∧ r'.value spec months = r.value spec months := by
  refine ⟨r.without part, ofParts_without checked part, ?_⟩
  simp only [value, number, series_without unsupported noStart]

def onlyGrowth : FieldSpec where
  name := "amount"
  label := none
  baseType := .number
  format := none
  default := .float 1.0
  supports := { Supports.none with growth := true }

def grown : Raw :=
  { ofSingle (.float 5.0) with growth := some 0.0 }

def grownBesideYear : Raw :=
  { grown with annual := some [some 100.0] }

theorem value_without_unsupported_year :
    onlyGrowth.baseType = .number ∧ ofParts grownBesideYear.parts = .ok grownBesideYear ∧
      onlyGrowth.supports.has .annual = false ∧ ¬StartsGrowth onlyGrowth grownBesideYear .annual ∧
      ∃ r', ofParts (grownBesideYear.parts.without .annual) = .ok r' ∧
        r'.value onlyGrowth 24 = grownBesideYear.value onlyGrowth 24 := by
  have number : onlyGrowth.baseType = .number := rfl
  have checked : ofParts grownBesideYear.parts = .ok grownBesideYear := rfl
  have unsupported : onlyGrowth.supports.has .annual = false := rfl
  have noStart : ¬StartsGrowth onlyGrowth grownBesideYear .annual :=
    fun starts => nomatch starts.2.2.1
  exact ⟨number, checked, unsupported, noStart,
    value_without_unsupported number checked unsupported noStart 24⟩

/-- Growth starts from a single value that the field does not support. -/
theorem grows_from_unsupported_single :
    onlyGrowth.supports.has .single = false ∧
      ∃ r r', ofParts grown.parts = .ok r ∧ ofParts (grown.parts.without .single) = .ok r' ∧
        r.value onlyGrowth 1 = .ok (.series [5.0]) ∧
        r'.value onlyGrowth 1 = .ok (.series [1.0]) := by
  have start (x : Float) : ({ grown with single := .float x } : Raw).value onlyGrowth 1 =
      .ok (.series [x * 1.0]) := rfl
  have noSingle : (grown.without .single).value onlyGrowth 1 = .ok (.series [1.0 * 1.0]) := rfl
  have same : (5.0 : Float) * 1.0 = 5.0 ∧ (1.0 : Float) * 1.0 = 1.0 := by decide +kernel
  refine ⟨rfl, grown, grown.without .single, rfl, rfl, ?_, ?_⟩
  · rw [← same.1]
    exact start 5.0
  · rw [noSingle, same.2]

end Raw
end Forecast

import Forecast.Proofs.Assumption.Current

/-!
# Amounts of an assumption, month by month

What an assumption amounts to in a month, said of this month alone: the range
of months comes before a value of the month itself, and this before the amount
that follows from growth, from yearly values or from a single value, scaled by
the factor of the season. The series of an assumption has these amounts, and it
exists if the amount to start from can be read.
-/

namespace Forecast

open Outcome

namespace Raw

variable {spec : FieldSpec} {r : Raw} {months m : Nat}

/-- The first of some values that is set, as an amount; zero if none is set. -/
def firstSet : List Value → Except NumberFault Float
  | [] => .ok 0.0
  | v :: vs => if v.isNull then firstSet vs else v.toFloat

def firstYear (r : Raw) : Value :=
  entryValue (r.annual.bind (·[0]?)).join

def ofYear (years : List (Option Float)) (year : Nat) : Float :=
  years[year]?.join.getD 0.0

/-- The amount of a month that follows from yearly values: the last year lasts, and if the values
are smoothed, the months before it lie on lines from one year to the next. -/
def ofYears (years : List (Option Float)) (smoothed : Bool) (month : Nat) : Float :=
  let last := years.length - 1
  let year := min (month / 12) last
  if smoothed ∧ month / 12 < last then
    ofYear years year + (ofYear years (year + 1) - ofYear years year) * (month % 12).toFloat / 12.0
  else ofYear years year

/-- The product of as many factors as months have passed, from left to right. -/
def compounded (factor : Float) (month : Nat) : Float :=
  (List.replicate month factor).foldl (· * ·) 1.0

/-- The amount of a month before it is adjusted to the season. -/
def unadjusted (spec : FieldSpec) (r : Raw) (month : Nat) : Except NumberFault Float :=
  match if spec.supports.growth then r.growth else none with
  | some growth =>
    (firstSet [r.single, firstYear r, spec.default]).map
      (· * compounded ((1.0 + growth).pow (1.0 / 12.0)) month)
  | none =>
    match if spec.supports.annual then r.annual else none with
    | some (first :: rest) =>
      .ok (ofYears (first :: rest) (spec.supports.smoothing && r.smoothing) month)
    | _ => firstSet [if spec.supports.single then r.single else .null, spec.default]

/-- Whether a month lies outside of a range; without an end the range goes on. -/
def IsOutside (range : Option (Int × Option Int)) (month : Nat) : Prop :=
  ∃ r ∈ range, (month : Int) < r.1 ∨ ∃ stop ∈ r.2, stop < (month : Int)

instance (range : Option (Int × Option Int)) (month : Nat) : Decidable (IsOutside range month) := by
  unfold IsOutside
  infer_instance

def ownAmount (entries : Option (List (Option Float))) (month : Nat) : Option Float :=
  (entries.bind (·[month]?)).join

def seasonalFactor (factors : Option (List Float)) (month : Nat) : Option Float :=
  factors.bind (·[month % 12]?)

/-- The amount of a month, from what it is before it is adjusted. -/
def adjusted (spec : FieldSpec) (r : Raw) (month : Nat) (x : Float) : Float :=
  if IsOutside (if spec.supports.dateRange then r.dateRange else none) month then 0.0
  else
    match ownAmount (if spec.supports.monthly then r.monthly else none) month with
    | some own => own
    | none =>
      match seasonalFactor (if spec.supports.seasonal then r.seasonal else none) month with
      | some factor => x * factor
      | none => x

/-! ## Before the season -/

theorem getElem?_powers (factor current : Float) (inside : m < months) :
    (powers factor current months)[m]? =
      some ((List.replicate m factor).foldl (· * ·) current) := by
  induction months generalizing m current with
  | zero => omega
  | succ months ih =>
    cases m with
    | zero => rfl
    | succ m =>
      rw [powers, List.getElem?_cons_succ, ih _ (Nat.lt_of_succ_lt_succ inside),
        List.replicate_succ, List.foldl_cons]

theorem firstSet_firstYear (r : Raw) (vs : List Value) :
    firstSet (firstYear r :: vs) =
      match r.annual with
      | some (some x :: _) => .ok x
      | _ => firstSet vs := by
  unfold firstYear
  match r.annual with
  | none => rfl
  | some [] => rfl
  | some (none :: _) => rfl
  | some (some x :: _) => rfl

theorem baseAmount_eq_firstSet (spec : FieldSpec) (r : Raw) :
    baseAmount spec r = firstSet [r.single, firstYear r, spec.default] := by
  rw [firstSet, firstSet_firstYear, baseAmount]
  cases r.single.isNull <;> rfl

theorem steadyAmount_eq_firstSet (spec : FieldSpec) (r : Raw) :
    steadyAmount spec r =
      firstSet [if spec.supports.single then r.single else .null, spec.default] := by
  cases supported : spec.supports.single with
  | false => simp [steadyAmount, supported, firstSet, defaultAmount, Value.isNull]
  | true => cases single : r.single.isNull <;>
      simp [steadyAmount, supported, single, firstSet, defaultAmount]

theorem getD_years (years : List (Option Float)) (year : Nat) :
    ((years.map (·.getD 0.0))[year]?).getD 0.0 = ofYear years year := by
  rw [List.getElem?_map, ofYear]
  cases years[year]? <;> rfl

theorem yearly_eq_ofYears (years : List (Option Float)) (smoothed : Bool) (month : Nat) :
    yearly (years.map (·.getD 0.0)) smoothed month = ofYears years smoothed month := by
  simp only [yearly, ofYears, getD_years, List.length_map, Bool.and_eq_true, decide_eq_true_eq]

theorem exists_unadjusted {xs : Series Float} (h : baseSeries spec r months = .ok xs)
    (inside : m < months) : ∃ x, unadjusted spec r m = .ok x ∧ xs[m]? = some x := by
  unfold baseSeries at h
  unfold unadjusted
  generalize (if spec.supports.growth then r.growth else none) = growth at h ⊢
  generalize (if spec.supports.annual then r.annual else none) = years at h ⊢
  simp only [baseAmount_eq_firstSet, steadyAmount_eq_firstSet] at h
  have steady {start : Except NumberFault Float}
      (h : (do return Series.constant months (← start)) = .ok xs) :
      ∃ x, start = .ok x ∧ xs[m]? = some x := by
    obtain ⟨x, hx, h⟩ := bind_eq_ok.1 h
    cases h
    exact ⟨x, hx, by rw [Series.constant, List.getElem?_replicate, if_pos inside]⟩
  rcases growth with _ | growth
  · rcases years with _ | _ | ⟨first, rest⟩
    · exact steady h
    · exact steady h
    · cases h
      refine ⟨_, rfl, ?_⟩
      rw [List.getElem?_map, List.getElem?_range inside, Option.map_some, yearly_eq_ofYears]
  · obtain ⟨base, hbase, h⟩ := bind_eq_ok.1 h
    cases h
    refine ⟨_, map_eq_ok.2 ⟨base, hbase, rfl⟩, ?_⟩
    rw [growing, List.getElem?_map, getElem?_powers _ _ inside]
    rfl

theorem exists_baseSeries {x : Float} (h : unadjusted spec r m = .ok x) (months : Nat) :
    ∃ xs, baseSeries spec r months = .ok xs := by
  unfold unadjusted at h
  unfold baseSeries
  generalize (if spec.supports.growth then r.growth else none) = growth at h ⊢
  generalize (if spec.supports.annual then r.annual else none) = years at h ⊢
  simp only [baseAmount_eq_firstSet, steadyAmount_eq_firstSet]
  rcases growth with _ | growth
  · rcases years with _ | _ | ⟨first, rest⟩
    · exact ⟨_, bind_eq_ok.2 ⟨x, h, rfl⟩⟩
    · exact ⟨_, bind_eq_ok.2 ⟨x, h, rfl⟩⟩
    · exact ⟨_, rfl⟩
  · obtain ⟨base, hbase, -⟩ := map_eq_ok.1 h
    exact ⟨_, bind_eq_ok.2 ⟨base, hbase, rfl⟩⟩

/-! ## Adjusted to the season -/

theorem exists_seasonalFactor {fs : List Float} (twelve : fs.length = 12) (m : Nat) :
    ∃ f, seasonalFactor (some fs) m = some f := by
  have inside : m % 12 < fs.length := by
    rw [twelve]
    exact Nat.mod_lt _ (by decide)
  exact ⟨fs[m % 12], List.getElem?_eq_getElem inside⟩

theorem getElem?_applySeasonal {factors : Option (List Float)}
    (twelve : ∀ fs, factors = some fs → fs.length = 12) (xs : Series Float) (m : Nat) :
    (applySeasonal factors xs)[m]? =
      xs[m]?.map fun x => ((seasonalFactor factors m).map (x * ·)).getD x := by
  cases factors with
  | none => simp [applySeasonal, seasonalFactor]
  | some fs =>
    obtain ⟨f, hf⟩ := exists_seasonalFactor (twelve fs rfl) m
    have found : fs[m % 12]? = some f := hf
    simp [applySeasonal, List.getElem?_mapIdx, hf, found]

theorem getElem?_applyMonthly (entries : Option (List (Option Float))) (xs : Series Float)
    (m : Nat) :
    (applyMonthly entries xs)[m]? = xs[m]?.map fun x => (ownAmount entries m).getD x := by
  cases entries with
  | none => simp [applyMonthly, ownAmount]
  | some es =>
    simp only [applyMonthly, ownAmount, List.getElem?_mapIdx, Option.bind_some]
    cases es[m]? <;> rfl

theorem inRange_iff (range : Int × Option Int) (m : Nat) :
    inRange range m ↔ ¬IsOutside (some range) m := by
  obtain ⟨first, last⟩ := range
  cases last <;> simp [inRange, IsOutside]

theorem getElem?_applyRange (range : Option (Int × Option Int)) (xs : Series Float) (m : Nat) :
    (applyRange range xs)[m]? = xs[m]?.map fun x => if IsOutside range m then 0.0 else x := by
  cases range with
  | none => simp [applyRange, IsOutside]
  | some r => simp only [applyRange, List.getElem?_mapIdx, inRange_iff, ite_not]

/-- The amounts of a series follow from those before it is adjusted. -/
theorem getElem?_series {xs : Series Float} (wellFormed : r.WellFormed)
    (h : series spec r months = .ok xs) (inside : m < months) :
    ∃ x, unadjusted spec r m = .ok x ∧ xs[m]? = some (adjusted spec r m x) := by
  simp only [series, bind_eq_ok, pure_eq_ok] at h
  obtain ⟨base, hbase, rfl⟩ := h
  obtain ⟨x, hx, here⟩ := exists_unadjusted hbase inside
  refine ⟨x, hx, ?_⟩
  have twelve : ∀ fs, (if spec.supports.seasonal then r.seasonal else none) = some fs →
      fs.length = 12 := by
    intro fs hfs
    split at hfs
    · exact wellFormed.seasonal fs hfs
    · cases hfs
  rw [getElem?_applyRange, getElem?_applyMonthly, getElem?_applySeasonal twelve, here, adjusted]
  cases ownAmount (if spec.supports.monthly then r.monthly else none) m <;>
    cases seasonalFactor (if spec.supports.seasonal then r.seasonal else none) m <;> rfl

/-- The series of an assumption has these amounts and no other series has. -/
theorem series_eq_ok_iff (wellFormed : r.WellFormed) (positive : 0 < months) {xs : Series Float} :
    series spec r months = .ok xs ↔ xs.length = months ∧
      ∀ m < months, ∃ x, unadjusted spec r m = .ok x ∧ xs[m]? = some (adjusted spec r m x) := by
  constructor
  · intro h
    exact ⟨length_series h, fun m => getElem?_series wellFormed h⟩
  · rintro ⟨length, amounts⟩
    obtain ⟨x, start, -⟩ := amounts 0 positive
    obtain ⟨base, hbase⟩ := exists_baseSeries start months
    obtain ⟨ys, h⟩ : ∃ ys, series spec r months = .ok ys := ⟨_, bind_eq_ok.2 ⟨base, hbase, rfl⟩⟩
    have length' := length_series h
    rw [h, Except.ok.injEq]
    apply List.ext_getElem?
    intro m
    by_cases inside : m < months
    · obtain ⟨y, hy, ys_m⟩ := getElem?_series wellFormed h inside
      obtain ⟨z, hz, xs_m⟩ := amounts m inside
      cases hy.symm.trans hz
      rw [ys_m, xs_m]
    · rw [List.getElem?_eq_none (by omega), List.getElem?_eq_none (by omega)]

/-- The value of an assumption on numbers is the series of its amounts month by month, and it exists
if the amount to start from can be read. A season that is set has a factor for each month. -/
theorem value_iff_amounts {p : RawParts} (number : spec.baseType = .number)
    (checked : ofParts p = .ok r) (positive : 0 < months) (v : FieldValue) :
    (r.value spec months = .ok v ↔
      ∃ xs, v = .series xs ∧ xs.length = months ∧
        ∀ m < months, ∃ x, unadjusted spec r m = .ok x ∧ xs[m]? = some (adjusted spec r m x)) ∧
      ∀ factors, r.seasonal = some factors → ∀ m, ∃ f,
        seasonalFactor (some factors) m = some f := by
  have wellFormed := wellFormed_of_ofParts checked
  refine ⟨?_, fun factors set => exists_seasonalFactor (wellFormed.seasonal factors set)⟩
  simp only [value, number, map_eq_ok, series_eq_ok_iff wellFormed positive]
  constructor
  · rintro ⟨xs, amounts, rfl⟩
    exact ⟨xs, rfl, amounts⟩
  · rintro ⟨xs, rfl, amounts⟩
    exact ⟨xs, amounts, rfl⟩

def anyField : FieldSpec where
  name := "amount"
  label := none
  baseType := .number
  format := none
  default := .null
  supports := ⟨true, true, true, true, true, true, true⟩

def mixed : Raw where
  single := .int 5
  annual := some [some 12.0, some 24.0]
  growth := none
  monthly := some [none, none, some 7.0]
  smoothing := true
  dateRange := some (1, none)
  seasonal := some (List.replicate 12 2.0)

theorem value_iff_amounts_mixed :
    anyField.baseType = .number ∧ ofParts mixed.parts = .ok mixed ∧ 0 < 4 ∧
      mixed.value anyField 4 = .ok (.series [0.0, 26.0, 7.0, 30.0]) ∧
      ∃ f, seasonalFactor mixed.seasonal 13 = some f := by
  have number : anyField.baseType = .number := rfl
  have checked : ofParts mixed.parts = .ok mixed := rfl
  have amounts : ∀ m < 4, ([0.0, 26.0, 7.0, 30.0] : Series Float)[m]? =
      some (adjusted anyField mixed m (ofYears [some 12.0, some 24.0] true m)) := by
    decide +kernel
  have value :=
    value_iff_amounts number checked (by decide : 0 < 4) (.series [0.0, 26.0, 7.0, 30.0])
  refine ⟨number, checked, by decide, value.1.2 ⟨_, rfl, rfl, ?_⟩, value.2 _ rfl 13⟩
  exact fun m inside => ⟨_, rfl, amounts m inside⟩

end Raw
end Forecast

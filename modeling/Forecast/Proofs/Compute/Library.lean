import Forecast.Compute.Library
import Forecast.Proofs.Series
import Forecast.Proofs.Value.Finite

/-!
# What the library answers

Given inputs over the horizon and finite settings, every function of the library
answers series over the horizon, and the names of these are known beforehand:
they are fixed, or there is one, which is the name of the output.
-/

namespace Forecast

open Outcome

/-- A setting that can be read, and gives finite amounts. -/
def Setting.Finite : Setting Float → Prop
  | unset => True
  | scalar x => x.isFinite = true
  | series xs => ∀ x ∈ xs, x.isFinite = true
  | invalid _ => False

def Settings.Finite (s : Settings Float) : Prop :=
  ∀ name, (s.find name).Finite

namespace Settings.Finite

variable {s : Settings Float} (finite : s.Finite)
include finite

theorem series (months : Nat) (name : String) {default : Float} (base : default.isFinite = true) :
    ∃ xs, s.series months name default = .ok xs ∧ xs.length = months ∧
      ∀ x ∈ xs, x.isFinite = true := by
  have here := finite name
  unfold Settings.series
  cases setting : s.find name with
  | unset =>
    refine ⟨_, rfl, by simp, ?_⟩
    intro x hx
    rwa [List.eq_of_mem_replicate hx]
  | scalar x =>
    rw [setting] at here
    refine ⟨_, rfl, by simp, ?_⟩
    intro y hy
    rwa [List.eq_of_mem_replicate hy]
  | series xs =>
    rw [setting] at here
    refine ⟨_, rfl, by simp, ?_⟩
    intro x hx
    rcases List.mem_append.1 hx with hx | hx
    · exact here x (List.mem_of_mem_take hx)
    · rw [List.eq_of_mem_replicate hx]
      cases last : xs.getLast? with
      | none => exact base
      | some y => exact here y (List.mem_of_getLast? last)
  | invalid fault =>
    rw [setting] at here
    exact here.elim

theorem scalar (name : String) : ∃ x, s.scalar name = .ok x ∧ x.isFinite = true := by
  have here := finite name
  unfold Settings.scalar
  cases setting : s.find name with
  | unset => exact ⟨0, rfl, zero_isFinite⟩
  | scalar x =>
    rw [setting] at here
    exact ⟨x, rfl, here⟩
  | series xs =>
    rw [setting] at here
    cases xs with
    | nil => exact ⟨0, rfl, zero_isFinite⟩
    | cons x xs => exact ⟨x, rfl, here x (by simp)⟩
  | invalid fault =>
    rw [setting] at here
    exact here.elim

theorem month (name : String) : ∃ n, s.month name = .ok n := by
  obtain ⟨x, hx, xFinite⟩ := finite.scalar name
  obtain ⟨n, hn⟩ := floor_of_isFinite xFinite
  refine ⟨n, ?_⟩
  unfold Settings.month
  rw [hx, ok_bind]
  exact mapError_eq_ok.2 hn

end Settings.Finite

/-- A task that a function of the library does not refuse. -/
structure Task.Ready (t : Task Float) : Prop where
  inputs : ∀ xs ∈ t.inputs, xs.length = t.months
  settings : t.settings.Finite

namespace Compute

/-- A function answers series over the horizon, under some names. -/
def Answers (f : Computation Float) (names : String → List String) : Prop :=
  ∀ t : Task Float, t.Ready → ∃ es, f t = .ok es ∧ es.keys = names t.output ∧
    ∀ e ∈ es, e.2.length = t.months

variable {t : Task Float}

theorem exists_combined (ready : t.Ready) :
    ∃ base, combined t = .ok base ∧ base.length = t.months := by
  obtain ⟨total, sum, length⟩ := Series.exists_sum ready.inputs
  refine ⟨total, ?_, length⟩
  unfold combined
  rw [sum]
  rfl

theorem multiply_answers : Answers multiply fun output => [output] := by
  intro t ready
  obtain ⟨base, hbase, baseLength⟩ := exists_combined ready
  obtain ⟨factor, hfactor, factorLength, -⟩ := ready.settings.series t.months "factor" one_isFinite
  obtain ⟨start, hstart⟩ := ready.settings.month "startMonth"
  simp only [multiply, hbase, hfactor, hstart, ok_bind]
  refine ⟨_, rfl, rfl, ?_⟩
  simp [baseLength, factorLength]

theorem divide_answers : Answers divide fun output => [output] := by
  intro t ready
  obtain ⟨base, hbase, baseLength⟩ := exists_combined ready
  obtain ⟨factor, hfactor, factorLength, -⟩ := ready.settings.series t.months "factor" one_isFinite
  obtain ⟨start, hstart⟩ := ready.settings.month "startMonth"
  simp only [divide, hbase, hfactor, hstart, ok_bind]
  refine ⟨_, rfl, rfl, ?_⟩
  simp [baseLength, factorLength]

theorem quantStart_answers : Answers quantStart fun output => [output] := by
  intro t ready
  obtain ⟨amount, hamount, length, -⟩ := ready.settings.series t.months "amount" zero_isFinite
  obtain ⟨start, hstart⟩ := ready.settings.month "startMonth"
  simp only [quantStart, hamount, hstart, ok_bind]
  refine ⟨_, rfl, rfl, ?_⟩
  simp [length]

theorem quantPulse_answers : Answers quantPulse fun _ => ["val", "cum"] := by
  intro t ready
  obtain ⟨amount, hamount, -⟩ := ready.settings.series t.months "amount" zero_isFinite
  obtain ⟨month, hmonth⟩ := ready.settings.month "month"
  simp only [quantPulse, hamount, hmonth, ok_bind]
  split
  · refine ⟨_, rfl, rfl, ?_⟩
    simp
  · refine ⟨_, rfl, rfl, ?_⟩
    simp

theorem sumInputs_answers : Answers sumInputs fun _ => ["val"] := by
  intro t ready
  obtain ⟨base, hbase, length⟩ := exists_combined ready
  simp only [sumInputs, hbase, ok_bind]
  refine ⟨_, rfl, rfl, ?_⟩
  simp [length]

theorem setup_answers : Answers setup fun _ => ["val"] := by
  intro t _
  refine ⟨_, rfl, rfl, ?_⟩
  simp

theorem fundDebt_answers :
    Answers fundDebt fun _ => ["int", "raised", "repaid", "bal", "debtMove"] := by
  intro t ready
  obtain ⟨start, hstart⟩ := ready.settings.month "startMonth"
  obtain ⟨amount, hamount, -⟩ := ready.settings.scalar "amount"
  obtain ⟨rate, hrate, -⟩ := ready.settings.scalar "rate"
  obtain ⟨term, hterm⟩ := ready.settings.month "term"
  simp only [fundDebt, hstart, hamount, hrate, hterm, ok_bind]
  refine ⟨_, rfl, rfl, ?_⟩
  have repaid (start : Int) : (if 0 < term then Series.single t.months start amount
      else Series.zeros t.months).length = t.months := by
    split <;> simp
  simp [repaid]

/-! ## Staff -/

theorem exists_staff (ready : t.Ready) {heads : Series Float} (length : heads.length = t.months) :
    ∃ es, staff t heads = .ok es ∧ es.keys = ["heads", "cost"] ∧
      ∀ e ∈ es, e.2.length = t.months := by
  obtain ⟨start, hstart⟩ := ready.settings.month "startMonth"
  obtain ⟨salary, hsalary, salaryLength, -⟩ := ready.settings.series t.months "salary" zero_isFinite
  simp only [staff, hstart, hsalary, ok_bind]
  refine ⟨_, rfl, rfl, ?_⟩
  simp [length, salaryLength]

theorem staffDiv_answers : Answers staffDiv fun _ => ["heads", "cost"] := by
  intro t ready
  obtain ⟨activity, hactivity, activityLength⟩ := exists_combined ready
  obtain ⟨rate, hrate, rateLength, -⟩ := ready.settings.series t.months "productivity" one_isFinite
  simp only [staffDiv, hactivity, hrate, ok_bind]
  apply exists_staff ready
  simp [activityLength, rateLength]

theorem staffTeam_answers : Answers staffTeam fun _ => ["heads", "cost"] := by
  intro t ready
  obtain ⟨heads, hheads, length, -⟩ := ready.settings.series t.months "headCount" zero_isFinite
  simp only [staffTeam, hheads, ok_bind]
  exact exists_staff ready length

theorem staffRole_answers : Answers staffRole fun _ => ["heads", "cost"] := by
  intro t ready
  exact exists_staff ready (by simp)

/-! ## Subscribers -/

theorem exists_retainFrom (start : Int) {added churn : Series Float}
    (same : churn.length = added.length) (month : Nat) (carried : Float) :
    ∃ months, retainFrom start month carried added churn = .ok months ∧
      months.length = added.length := by
  induction added generalizing churn month carried with
  | nil => exact ⟨[], rfl, rfl⟩
  | cons x added ih =>
    cases churn with
    | nil => simp at same
    | cons rate rates =>
      have rest : rates.length = added.length := by simpa using same
      unfold retainFrom
      split
      · obtain ⟨months, hmonths, length⟩ := ih rest (month + 1) 0
        exact ⟨_, by rw [List.tail_cons, hmonths]; rfl, by simp [length]⟩
      · obtain ⟨months, hmonths, length⟩ :=
          ih rest (month + 1) (Amount.clamp (carried + x - carried * rate))
        exact ⟨_, by simp only [hmonths]; rfl, by simp [length]⟩

theorem exists_retention (ready : t.Ready) :
    ∃ months, retention t = .ok months ∧ months.length = t.months := by
  obtain ⟨added, hadded, addedLength⟩ := exists_combined ready
  obtain ⟨churn, hchurn, churnLength, -⟩ := ready.settings.series t.months "churn" zero_isFinite
  obtain ⟨start, hstart⟩ := ready.settings.month "startMonth"
  obtain ⟨months, hmonths, length⟩ :=
    exists_retainFrom start (churnLength.trans addedLength.symm) 0 0
  refine ⟨months, ?_, length.trans addedLength⟩
  simp only [retention, hadded, hchurn, hstart, ok_bind, retain, hmonths]
  rfl

theorem subRetain_answers : Answers subRetain fun _ => ["act", "chu"] := by
  intro t ready
  obtain ⟨months, hmonths, length⟩ := exists_retention ready
  simp only [subRetain, hmonths, ok_bind]
  refine ⟨_, rfl, rfl, ?_⟩
  simp [length]

theorem subMth_answers : Answers subMth fun _ => ["act", "chu", "rev"] := by
  intro t ready
  obtain ⟨months, hmonths, length⟩ := exists_retention ready
  obtain ⟨price, hprice, priceLength, -⟩ := ready.settings.series t.months "price" zero_isFinite
  simp only [subMth, hmonths, hprice, ok_bind]
  refine ⟨_, rfl, rfl, ?_⟩
  simp [length, priceLength]

/-! ## Shifts in time -/

theorem exists_scatter {offsets out : Series Float} {source : Float × Nat}
    (finite : ∀ x ∈ offsets, x.isFinite = true) (inside : source.2 < offsets.length) :
    ∃ out', scatter offsets out source = .ok out' ∧ out'.length = out.length := by
  obtain ⟨move, hmove⟩ := floor_of_isFinite (finite _ (List.getElem_mem inside))
  have floor : (Amount.floor offsets[source.2] : Except Fault Int) = .ok move :=
    mapError_eq_ok.2 hmove
  unfold scatter
  simp only [List.getElem?_eq_getElem inside, floor, ok_bind]
  refine ⟨_, rfl, ?_⟩
  split <;> simp

/-- Amounts can be moved if each month has a finite offset. -/
theorem exists_shift {src offsets : Series Float} (same : offsets.length = src.length)
    (finite : ∀ x ∈ offsets, x.isFinite = true) :
    ∃ out, shift src offsets = .ok out ∧ out.length = src.length := by
  apply exists_foldlM (fun out : Series Float => out.length = src.length) ?_ (Series.length_zeros _)
  intro source mem out length
  have within := List.snd_lt_of_mem_zipIdx mem
  have inside : source.2 < offsets.length := by omega
  obtain ⟨next, hnext, nextLength⟩ := exists_scatter finite inside
  exact ⟨next, hnext, nextLength.trans length⟩

theorem delay_answers : Answers delay fun output => [output] := by
  intro t ready
  obtain ⟨offsets, hoffsets, length, finite⟩ :=
    ready.settings.series t.months "delayMonths" zero_isFinite
  obtain ⟨base, hbase, baseLength⟩ := exists_combined ready
  obtain ⟨out, hout, outLength⟩ := exists_shift (length.trans baseLength.symm) finite
  simp only [delay, hoffsets, hbase, hout, ok_bind]
  refine ⟨_, rfl, rfl, ?_⟩
  simp [outLength, baseLength]

theorem advance_answers : Answers advance fun output => [output] := by
  intro t ready
  obtain ⟨offsets, hoffsets, length, finite⟩ :=
    ready.settings.series t.months "advanceMonths" zero_isFinite
  obtain ⟨base, hbase, baseLength⟩ := exists_combined ready
  have negated : ∀ x ∈ offsets.map (- ·), x.isFinite = true := by
    intro x hx
    obtain ⟨y, hy, rfl⟩ := List.mem_map.1 hx
    exact isFinite_neg (finite y hy)
  have same : (offsets.map (- ·)).length = base.length := by simp [length, baseLength]
  obtain ⟨out, hout, outLength⟩ := exists_shift same negated
  simp only [advance, hoffsets, hbase, hout, ok_bind]
  refine ⟨_, rfl, rfl, ?_⟩
  simp [outLength, baseLength]

/-! ## The library -/

/-- The names under which each function of the library answers; nothing stands for the name of the
output. -/
def answered : Entries (Option (List String)) :=
  [("Multiply", none),
    ("Divide", none),
    ("QuantStart", none),
    ("QuantPulse", some ["val", "cum"]),
    ("SubRetain", some ["act", "chu"]),
    ("SubMth", some ["act", "chu", "rev"]),
    ("Delay", none),
    ("Advance", none),
    ("Sum", some ["val"]),
    ("StaffDiv", some ["heads", "cost"]),
    ("StaffTeam", some ["heads", "cost"]),
    ("StaffRole", some ["heads", "cost"]),
    ("FundDebt", some ["int", "raised", "repaid", "bal", "debtMove"]),
    ("Setup", some ["val"])]

theorem library_answers :
    List.Forall₂ (fun (f : String × Computation Float) (names : String × Option (List String)) =>
      f.1 = names.1 ∧ Answers f.2 fun output => names.2.getD [output]) library answered :=
  .cons ⟨rfl, multiply_answers⟩ <| .cons ⟨rfl, divide_answers⟩ <|
  .cons ⟨rfl, quantStart_answers⟩ <| .cons ⟨rfl, quantPulse_answers⟩ <|
  .cons ⟨rfl, subRetain_answers⟩ <| .cons ⟨rfl, subMth_answers⟩ <|
  .cons ⟨rfl, delay_answers⟩ <| .cons ⟨rfl, advance_answers⟩ <|
  .cons ⟨rfl, sumInputs_answers⟩ <| .cons ⟨rfl, staffDiv_answers⟩ <|
  .cons ⟨rfl, staffTeam_answers⟩ <| .cons ⟨rfl, staffRole_answers⟩ <|
  .cons ⟨rfl, fundDebt_answers⟩ <| .cons ⟨rfl, setup_answers⟩ .nil

/-- What holds of each function of the library and of its names holds of a function whose names are
known, and this is in the library. -/
theorem exists_of_answered {P : Computation Float → Option (List String) → Prop}
    (each : List.Forall₂ (fun (f : String × Computation Float)
      (names : String × Option (List String)) => f.1 = names.1 ∧ P f.2 names.2) library answered)
    {name : String} {names : Option (List String)} (known : (name, names) ∈ answered) :
    ∃ f : Computation Float, library.lookup name = some f ∧ P f names := by
  obtain ⟨i, hi, entry⟩ := List.getElem_of_mem known
  obtain ⟨length, each⟩ := List.forall₂_iff_get.1 each
  obtain ⟨same, holds⟩ := each i (length ▸ hi) hi
  simp only [List.get_eq_getElem, entry] at same holds
  have distinct : (library (α := Float)).keys.Nodup := by decide +kernel
  refine ⟨_, Entries.lookup_of_mem distinct ?_, holds⟩
  rw [← same]
  exact List.getElem_mem _

theorem exists_answers {name : String} {names : Option (List String)}
    (known : (name, names) ∈ answered) :
    ∃ f : Computation Float, library.lookup name = some f ∧
      Answers f fun output => names.getD [output] :=
  exists_of_answered (P := fun f names => Answers f fun output => names.getD [output])
    library_answers known

end Compute
end Forecast

import Forecast.Proofs.Compute.Cut
import Forecast.Proofs.Compute.Library
import Forecast.Proofs.Reported
import Forecast.Proofs.Value.Infinite

/-!
# What stops a function of the library

A function of the library stops if its inputs do not fit each other, and if a
setting that counts months has no floor. The first is always reported; so is the
second for a setting that is not a number. Only the floor of an infinite one is
not, whatever the other settings and the inputs are.
-/

namespace Forecast

open Outcome

/-- The settings that count months: their floor is taken. -/
def countNames : List String :=
  ["startMonth", "month", "term", "delayMonths", "advanceMonths"]

def Setting.amounts {α : Type} : Setting α → List α
  | unset => []
  | scalar x => [x]
  | series xs => xs
  | invalid _ => []

structure Settings.Countable (s : Settings Float) : Prop where
  valid : ∀ name fault, s.find name ≠ .invalid fault
  counts : ∀ name ∈ countNames, ∀ x ∈ (s.find name).amounts, x.isInf = false

theorem zero_not_isInf : (0 : Float).isInf = false := by decide +kernel

theorem reports_floor {x : Float} (bounded : x.isInf = false) :
    Reports (Amount.floor x : Except Fault Int) := by
  apply FailsOnly.mapError
  intro fault h
  cases floor_error bounded h
  rfl

/-- What a setting gives for a month is one of its amounts, or the default. -/
theorem Setting.mem_of_series? {setting : Setting Float} {months : Nat} {default : Float}
    {xs : Series Float} (h : setting.series? months default = .ok xs) {x : Float} (hx : x ∈ xs) :
    x ∈ setting.amounts ∨ x = default := by
  cases setting with
  | unset =>
    cases h
    exact .inr (List.eq_of_mem_replicate hx)
  | scalar y =>
    cases h
    exact .inl (List.mem_singleton.2 (List.eq_of_mem_replicate hx))
  | series ys =>
    cases h
    rcases List.mem_append.1 hx with hx | hx
    · exact .inl (List.mem_of_mem_take hx)
    · rw [List.eq_of_mem_replicate hx]
      cases last : ys.getLast? with
      | none => exact .inr rfl
      | some y => exact .inl (List.mem_of_getLast? last)
  | invalid fault => cases h

namespace Settings.Countable

variable {s : Settings Float} (countable : s.Countable)
include countable

theorem reports_series (months : Nat) (name : String) (default : Float) :
    Reports (s.series months name default) := by
  unfold Settings.series
  cases setting : s.find name with
  | unset => exact .ok _
  | scalar x => exact .ok _
  | series xs => exact .ok _
  | invalid fault => exact absurd setting (countable.valid name fault)

theorem exists_scalar (name : String) :
    ∃ x, s.scalar name = .ok x ∧ (x ∈ (s.find name).amounts ∨ x = 0) := by
  unfold Settings.scalar
  cases setting : s.find name with
  | unset => exact ⟨0, rfl, .inr rfl⟩
  | scalar x => exact ⟨x, rfl, .inl (List.mem_singleton.2 rfl)⟩
  | series xs =>
    cases xs with
    | nil => exact ⟨0, rfl, .inr rfl⟩
    | cons x xs => exact ⟨x, rfl, .inl (List.mem_cons_self ..)⟩
  | invalid fault => exact absurd setting (countable.valid name fault)

theorem reports_scalar (name : String) : Reports (s.scalar name) := by
  obtain ⟨x, hx, -⟩ := countable.exists_scalar name
  exact .of_exists ⟨x, hx⟩

theorem reports_month {name : String} (counts : name ∈ countNames) : Reports (s.month name) := by
  obtain ⟨x, hx, given⟩ := countable.exists_scalar name
  unfold Settings.month
  rw [hx, ok_bind]
  apply reports_floor
  rcases given with given | rfl
  · exact countable.counts name counts x given
  · exact zero_not_isInf

theorem not_isInf_of_series {months : Nat} {name : String} {xs : Series Float}
    (counts : name ∈ countNames) (h : s.series months name 0 = .ok xs) :
    ∀ x ∈ xs, x.isInf = false := by
  intro x hx
  rcases Setting.mem_of_series? h hx with given | rfl
  · exact countable.counts name counts x given
  · exact zero_not_isInf

end Settings.Countable

namespace Compute

/-- A function that reports its faults as long as it need not count to infinity. -/
def ReportsFaults (f : Computation Float) : Prop :=
  ∀ t : Task Float, t.settings.Countable → Reports (f t)

variable {t : Task Float}

theorem reports_combined (t : Task Float) : Reports (combined t) :=
  .mapError (Series.reports_sum t.months t.inputs)

-- Each proof goes along the steps of its function; `by decide` finds the setting among those that
-- count months.

theorem multiply_reports : ReportsFaults multiply := fun t countable =>
  .bind (reports_combined t) fun _ _ =>
  .bind (countable.reports_series _ "factor" 1) fun _ _ =>
  .bind (countable.reports_month (by decide)) fun _ _ => .pure _

theorem divide_reports : ReportsFaults divide := fun t countable =>
  .bind (reports_combined t) fun _ _ =>
  .bind (countable.reports_series _ "factor" 1) fun _ _ =>
  .bind (countable.reports_month (by decide)) fun _ _ => .pure _

theorem quantStart_reports : ReportsFaults quantStart := fun _ countable =>
  .bind (countable.reports_series _ "amount" 0) fun _ _ =>
  .bind (countable.reports_month (by decide)) fun _ _ => .pure _

theorem quantPulse_reports : ReportsFaults quantPulse := by
  intro t countable
  refine .bind (countable.reports_month (by decide)) fun month _ => ?_
  dsimp only
  split
  · exact .bind (countable.reports_series _ "amount" 0) fun _ _ => .pure _
  · exact .pure _

theorem sumInputs_reports : ReportsFaults sumInputs := fun t _ =>
  .bind (reports_combined t) fun _ _ => .pure _

theorem setup_reports : ReportsFaults setup := fun _ _ => .ok _

theorem fundDebt_reports : ReportsFaults fundDebt := fun _ countable =>
  .bind (countable.reports_month (by decide)) fun _ _ =>
  .bind (countable.reports_scalar "amount") fun _ _ =>
  .bind (countable.reports_scalar "rate") fun _ _ =>
  .bind (countable.reports_month (by decide)) fun _ _ => .pure _

theorem reports_staff (countable : t.settings.Countable) (heads : Series Float) :
    Reports (staff t heads) :=
  .bind (countable.reports_month (by decide)) fun _ _ =>
  .bind (countable.reports_series _ "salary" 0) fun _ _ => .pure _

theorem staffDiv_reports : ReportsFaults staffDiv := fun t countable =>
  .bind (reports_combined t) fun _ _ =>
  .bind (countable.reports_series _ "productivity" 1) fun _ _ => reports_staff countable _

theorem staffTeam_reports : ReportsFaults staffTeam := fun _ countable =>
  .bind (countable.reports_series _ "headCount" 0) fun _ _ => reports_staff countable _

theorem staffRole_reports : ReportsFaults staffRole := fun _ countable =>
  reports_staff countable _

theorem reports_retention (countable : t.settings.Countable) : Reports (retention t) := by
  refine .bind (reports_combined t) fun added hadded =>
    .bind (countable.reports_series _ "churn" 0) fun churn hchurn =>
    .bind (countable.reports_month (by decide)) fun start _ => ?_
  have same : churn.length = added.length := by
    rw [length_combined hadded, Setting.length_of_series? hchurn]
  obtain ⟨months, retained, -⟩ := exists_retainFrom start same 0 0
  exact .of_exists ⟨months, mapError_eq_ok.2 retained⟩

theorem subRetain_reports : ReportsFaults subRetain := fun _ countable =>
  .bind (reports_retention countable) fun _ _ => .pure _

theorem subMth_reports : ReportsFaults subMth := fun _ countable =>
  .bind (reports_retention countable) fun _ _ =>
  .bind (countable.reports_series _ "price" 0) fun _ _ => .pure _

/-- Each amount has an offset, and only an infinite one has a floor that is out of range. -/
theorem reports_shift {src offsets : Series Float} (same : offsets.length = src.length)
    (bounded : ∀ x ∈ offsets, x.isInf = false) : Reports (shift src offsets) := by
  refine .foldlM (fun source mem out => ?_) _
  have within := List.snd_lt_of_mem_zipIdx mem
  have inside : source.2 < offsets.length := by omega
  unfold scatter
  rw [List.getElem?_eq_getElem inside]
  exact .bind (reports_floor (bounded _ (List.getElem_mem inside))) fun _ _ => .pure _

theorem delay_reports : ReportsFaults delay := by
  intro t countable
  refine .bind (countable.reports_series _ "delayMonths" 0) fun offsets hoffsets =>
    .bind (reports_combined t) fun base hbase => .bind ?_ fun _ _ => .pure _
  apply reports_shift
  · rw [length_combined hbase, Setting.length_of_series? hoffsets]
  · exact countable.not_isInf_of_series (by decide) hoffsets

theorem advance_reports : ReportsFaults advance := by
  intro t countable
  refine .bind (countable.reports_series _ "advanceMonths" 0) fun offsets hoffsets =>
    .bind (reports_combined t) fun base hbase => .bind ?_ fun _ _ => .pure _
  apply reports_shift
  · rw [List.length_map, length_combined hbase, Setting.length_of_series? hoffsets]
  · intro x hx
    obtain ⟨y, hy, rfl⟩ := List.mem_map.1 hx
    exact not_isInf_neg (countable.not_isInf_of_series (by decide) hoffsets y hy)

theorem library_reports : ∀ f ∈ (library : Entries (Computation Float)), ReportsFaults f.2 := by
  simp only [library, List.forall_mem_cons]
  exact ⟨multiply_reports, divide_reports, quantStart_reports, quantPulse_reports,
    subRetain_reports,
    subMth_reports, delay_reports, advance_reports, sumInputs_reports, staffDiv_reports,
    staffTeam_reports, staffRole_reports, fundDebt_reports, setup_reports, by simp⟩

end Compute

namespace Registry

theorem ofComputation_ok {f : Computation Float} {t : Task Float} {reply : Reply}
    (h : ofComputation f t = .ok reply) :
    ∃ channels : Entries (Series Float), reply = .ofCells (channels.mapValues .series) := by
  simp only [ofComputation, bind_eq_ok, pure_eq_ok] at h
  obtain ⟨channels, -, rfl⟩ := h
  exact ⟨channels, rfl⟩

theorem standard_ok {name : String} {function : Task Float → Except Fault Reply}
    (known : standard.lookup name = some function) :
    ∃ f, Compute.ReportsFaults f ∧ function = ofComputation f := by
  obtain ⟨f, found, rfl⟩ := Option.map_eq_some_iff.1 (Entries.lookup_mapValues .. ▸ known)
  exact ⟨f, Compute.library_reports _ (Entries.mem_of_lookup found), rfl⟩

theorem reports_ofComputation {f : Computation Float} (reports : Compute.ReportsFaults f)
    {t : Task Float} (countable : t.settings.Countable) : Reports (ofComputation f t) :=
  .bind (reports t countable) fun _ _ => .pure _

end Registry
end Forecast

import Forecast.Assumption.Book
import Forecast.Proofs.Series.Cut

/-!
# Assumptions over fewer months

What follows from a raw assumption for a month does not depend on how many
months come after it. So assumptions that are computed again for fewer months
are those for more months, cut; and so are the settings that functions read.
-/

namespace Forecast

open Outcome

variable {spec : FieldSpec} {r : Raw} {months n : Nat}

namespace Raw

theorem take_powers (shorter : n ≤ months) (factor current : Float) :
    (powers factor current months).take n = powers factor current n := by
  induction months generalizing n current with
  | zero =>
    cases Nat.le_zero.1 shorter
    rfl
  | succ months ih =>
    cases n with
    | zero => rfl
    | succ n => rw [powers, List.take_succ_cons, ih (Nat.le_of_succ_le_succ shorter), powers]

theorem take_applySeasonal (factors : Option (List Float)) (xs : Series Float) (n : Nat) :
    (applySeasonal factors xs).take n = applySeasonal factors (xs.take n) := by
  cases factors with
  | none => rfl
  | some _ => exact Series.take_mapIdx _ xs n

theorem take_applyMonthly (entries : Option (List (Option Float))) (xs : Series Float) (n : Nat) :
    (applyMonthly entries xs).take n = applyMonthly entries (xs.take n) := by
  cases entries with
  | none => rfl
  | some _ => exact Series.take_mapIdx _ xs n

theorem take_applyRange (range : Option (Int × Option Int)) (xs : Series Float) (n : Nat) :
    (applyRange range xs).take n = applyRange range (xs.take n) := by
  cases range with
  | none => rfl
  | some _ => exact Series.take_mapIdx _ xs n

theorem baseSeries_cut {xs : Series Float} (shorter : n ≤ months)
    (h : baseSeries spec r months = .ok xs) : baseSeries spec r n = .ok (xs.take n) := by
  unfold baseSeries at h ⊢
  split at h
  · simp only [bind_eq_ok, pure_eq_ok] at h ⊢
    obtain ⟨base, hbase, rfl⟩ := h
    refine ⟨base, hbase, ?_⟩
    rw [growing, growing, ← List.map_take, take_powers shorter]
  · split at h
    · cases h
      rw [Series.take_map_range shorter]
    · simp only [bind_eq_ok, pure_eq_ok] at h ⊢
      obtain ⟨x, hx, rfl⟩ := h
      exact ⟨x, hx, (Series.take_constant shorter x).symm⟩

theorem series_cut {xs : Series Float} (shorter : n ≤ months) (h : series spec r months = .ok xs) :
    series spec r n = .ok (xs.take n) := by
  simp only [series, bind_eq_ok, pure_eq_ok] at h ⊢
  obtain ⟨base, hbase, rfl⟩ := h
  refine ⟨base.take n, baseSeries_cut shorter hbase, ?_⟩
  rw [take_applyRange, take_applyMonthly, take_applySeasonal]

end Raw

def FieldValue.cut (n : Nat) : FieldValue → FieldValue
  | flag b => flag b
  | series xs => series (xs.take n)

def Assumption.cut (n : Nat) (x : Assumption) : Assumption :=
  { x with value := x.value.cut n }

def Assumptions.cut (n : Nat) (a : Assumptions) : Assumptions :=
  a.mapValues fun o =>
    ⟨o.object.mapValues (Assumption.cut n), o.outputs.mapValues
      (Entries.mapValues (Assumption.cut n))⟩

theorem Raw.value_cut {v : FieldValue} (shorter : n ≤ months) (h : r.value spec months = .ok v) :
    r.value spec n = .ok (v.cut n) := by
  unfold Raw.value at h ⊢
  split at h
  · cases h
    rfl
  · simp only [map_eq_ok] at h ⊢
    obtain ⟨xs, hxs, rfl⟩ := h
    exact ⟨_, series_cut shorter hxs, rfl⟩

theorem Assumption.of_cut {x : Assumption} (shorter : n ≤ months) (h : of spec r months = .ok x) :
    of spec r n = .ok (x.cut n) := by
  simp only [of, bind_eq_ok, pure_eq_ok] at h ⊢
  obtain ⟨value, hvalue, rfl⟩ := h
  exact ⟨value.cut n, mapError_eq_ok.2 (Raw.value_cut shorter (mapError_eq_ok.1 hvalue)), rfl⟩

namespace Assumptions

theorem mapM_group_cut {g g' : Entries Assumption} (shorter : n ≤ months)
    (h : (g.mapM fun (field, x) => do return (field, ← Assumption.of x.spec x.raw months) :
      Except Fault (Entries Assumption)) = .ok g') :
    (g.mapM fun (field, x) => do return (field, ← Assumption.of x.spec x.raw n) :
      Except Fault (Entries Assumption)) = .ok (g'.mapValues (Assumption.cut n)) := by
  refine mapM_through _ ?_ h
  rintro ⟨field, x⟩ _ ⟨field', y⟩ again
  simp only [bind_eq_ok, pure_eq_ok, Prod.mk.injEq] at again
  obtain ⟨y, hy, rfl, rfl⟩ := again
  simp only [Assumption.of_cut shorter hy, ok_bind]
  rfl

theorem mapM_outputs_cut {gs gs' : Entries (Entries Assumption)} (shorter : n ≤ months)
    (h : (gs.mapM fun (output, g) => do
      return (output, ← g.mapM fun (field, x) => do
        return (field, ← Assumption.of x.spec x.raw months)) :
      Except Fault (Entries (Entries Assumption))) = .ok gs') :
    (gs.mapM fun (output, g) => do
      return (output, ← g.mapM fun (field, x) => do
        return (field, ← Assumption.of x.spec x.raw n)) :
      Except Fault (Entries (Entries Assumption))) =
        .ok (gs'.mapValues (Entries.mapValues (Assumption.cut n))) := by
  refine mapM_through _ ?_ h
  rintro ⟨output, g⟩ _ ⟨output', g'⟩ again
  simp only [bind_eq_ok, pure_eq_ok, Prod.mk.injEq] at again
  obtain ⟨g', hg', rfl, rfl⟩ := again
  simp only [mapM_group_cut shorter hg', ok_bind]
  rfl

theorem recalculate_cut {given a : Assumptions} (shorter : n ≤ months)
    (h : given.recalculate months = .ok a) : given.recalculate n = .ok (a.cut n) := by
  unfold recalculate at h ⊢
  refine mapM_through _ ?_ h
  rintro ⟨name, o⟩ _ ⟨name', o'⟩ again
  simp only [bind_eq_ok, pure_eq_ok, Prod.mk.injEq] at again
  obtain ⟨object, hobject, outputs, houtputs, rfl, rfl⟩ := again
  simp only [mapM_group_cut shorter hobject, mapM_outputs_cut shorter houtputs, ok_bind]
  rfl

end Assumptions

/-! ## Settings -/

def Setting.cut {α : Type} (n : Nat) : Setting α → Setting α
  | series xs => series (xs.take n)
  | setting => setting

def Settings.cut {α : Type} (n : Nat) (s : Settings α) : Settings α :=
  ⟨s.object.mapValues (Setting.cut n), s.output.mapValues (Setting.cut n)⟩

theorem Assumption.setting_cut (x : Assumption) (n : Nat) :
    (x.cut n).setting = x.setting.cut n := by
  obtain ⟨spec, raw, value⟩ := x
  cases value <;> rfl

theorem Assumptions.settings_cut (a : Assumptions) (n : Nat) (object output : String) :
    (a.cut n).settings object output = (a.settings object output).cut n := by
  have group (g : Entries Assumption) :
      (g.mapValues (Assumption.cut n)).mapValues Assumption.setting =
      (g.mapValues Assumption.setting).mapValues (Setting.cut n) := by
    rw [Entries.mapValues_mapValues, Entries.mapValues_mapValues]
    simp only [Assumption.setting_cut]
  unfold settings cut
  rw [Entries.lookup_mapValues]
  cases a.lookup object with
  | none => rfl
  | some o =>
    have fields :
        ((o.outputs.mapValues (Entries.mapValues (Assumption.cut n))).lookup output).getD [] =
        ((o.outputs.lookup output).getD []).mapValues (Assumption.cut n) :=
      Entries.getD_lookup_mapValues (Entries.mapValues (Assumption.cut n)) _ _ []
    simp only [Option.map_some, fields, group, Settings.cut]

namespace Settings

variable {α : Type} [Amount α] {s : Settings α} {name : String} {default : α} {xs : Series α}

omit [Amount α] in
theorem find_cut (s : Settings α) (n : Nat) (name : String) :
    (s.cut n).find name = (s.find name).cut n := by
  unfold find cut
  rw [Entries.lookup_mapValues, Entries.lookup_mapValues]
  cases s.output.lookup name with
  | some _ => rfl
  | none => cases s.object.lookup name <;> rfl

omit [Amount α] in
theorem series_cut (shorter : n ≤ months) (h : s.series months name default = .ok xs) :
    (s.cut n).series n name default = .ok (xs.take n) := by
  unfold series at h ⊢
  rw [find_cut]
  cases setting : s.find name with
  | unset =>
    rw [setting] at h
    cases h
    rw [Series.take_constant shorter]
    rfl
  | scalar x =>
    rw [setting] at h
    cases h
    rw [Series.take_constant shorter]
    rfl
  | series ys =>
    rw [setting] at h
    cases h
    rw [Series.take_fit shorter]
    rfl
  | invalid fault =>
    rw [setting] at h
    cases h

omit [Amount α] in
theorem series_cut_eq (s : Settings α) (n : Nat) (name : String) (default : α) :
    (s.cut n).series n name default = s.series n name default := by
  unfold series
  rw [find_cut]
  cases s.find name with
  | series xs => exact congrArg Except.ok (Series.fit_take n default xs)
  | _ => rfl

theorem scalar_cut (positive : 0 < n) (s : Settings α) (name : String) :
    (s.cut n).scalar name = s.scalar name := by
  unfold scalar
  rw [find_cut]
  cases s.find name with
  | series ys =>
    simp only [Setting.cut, Setting.first?, List.head?_take, Nat.ne_of_gt positive, if_false]
  | _ => rfl

theorem month_cut (positive : 0 < n) (s : Settings α) (name : String) :
    (s.cut n).month name = s.month name := by
  unfold month
  rw [scalar_cut positive]

end Settings
end Forecast

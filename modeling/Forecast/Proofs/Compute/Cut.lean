import Forecast.Compute.Library
import Forecast.Proofs.Assumption.Cut
import Forecast.Proofs.Value.Floor

/-!
# Functions that look back

What the functions of the library answer for a month follows from this month and
earlier ones, so that the first months of an answer are the answer for the first
months. There are two exceptions: `Advance` looks ahead, and so does `Delay`
where an offset is below zero.
-/

namespace Forecast

open Outcome

def Task.cut (n : Nat) (t : Task Float) : Task Float :=
  ⟨n, t.inputs.map (List.take n), t.settings.cut n, t.output⟩

/-- A task whose inputs have an amount for each month, and a number of these months, at least
one. -/
structure Task.Covers (t : Task Float) (n : Nat) : Prop where
  positive : 0 < n
  shorter : n ≤ t.months
  inputs : ∀ xs ∈ t.inputs, xs.length = t.months

namespace Task

variable {t : Task Float} {n : Nat} {name : String}

@[simp] theorem cut_months : (t.cut n).months = n := rfl

@[simp] theorem cut_output : (t.cut n).output = t.output := rfl

theorem Covers.series {default : Float} {xs : Series Float} (covers : t.Covers n)
    (h : t.settings.series t.months name default = .ok xs) :
    (t.cut n).settings.series n name default = .ok (xs.take n) :=
  Settings.series_cut covers.shorter h

theorem Covers.scalar {x : Float} (covers : t.Covers n) (h : t.settings.scalar name = .ok x) :
    (t.cut n).settings.scalar name = .ok x :=
  (Settings.scalar_cut covers.positive _ _).trans h

theorem Covers.month {m : Int} (covers : t.Covers n) (h : t.settings.month name = .ok m) :
    (t.cut n).settings.month name = .ok m :=
  (Settings.month_cut covers.positive _ _).trans h

end Task

namespace Compute

/-- The first months of an answer are the answer for the first months. -/
def LooksBack (f : Computation Float) : Prop :=
  ∀ (t : Task Float) (n : Nat) (es : Entries (Series Float)), t.Covers n → f t = .ok es →
    f (t.cut n) = .ok (es.mapValues (List.take n))

variable {t : Task Float} {n : Nat} {es : Entries (Series Float)}

theorem combined_eq_ok {α : Type} [Amount α] {t : Task α} {base : Series α} :
    combined t = .ok base ↔ Series.sum t.months t.inputs = .ok base := by
  rw [combined]
  exact mapError_eq_ok

theorem length_combined {α : Type} [Amount α] {t : Task α} {base : Series α}
    (h : combined t = .ok base) :
    base.length = t.months :=
  Series.length_sum (combined_eq_ok.1 h)

theorem combined_cut {base : Series Float} (covers : t.Covers n) (h : combined t = .ok base) :
    combined (t.cut n) = .ok (base.take n) :=
  combined_eq_ok.2 (Series.take_sum covers.inputs covers.shorter (combined_eq_ok.1 h))

theorem multiply_looksBack : LooksBack multiply := by
  intro t n es covers h
  simp only [multiply, bind_eq_ok, pure_eq_ok] at h
  obtain ⟨base, hbase, factor, hfactor, start, hstart, rfl⟩ := h
  simp only [multiply, combined_cut covers hbase, Task.cut_months, covers.series hfactor,
    covers.month hstart, ok_bind]
  simp [Entries.mapValues, Series.take_startingAt, List.take_zipWith]

theorem divide_looksBack : LooksBack divide := by
  intro t n es covers h
  simp only [divide, bind_eq_ok, pure_eq_ok] at h
  obtain ⟨base, hbase, factor, hfactor, start, hstart, rfl⟩ := h
  simp only [divide, combined_cut covers hbase, Task.cut_months, covers.series hfactor,
    covers.month hstart, ok_bind]
  simp [Entries.mapValues, Series.take_startingAt, List.take_zipWith]

theorem quantStart_looksBack : LooksBack quantStart := by
  intro t n es covers h
  simp only [quantStart, bind_eq_ok, pure_eq_ok] at h
  obtain ⟨amount, hamount, start, hstart, rfl⟩ := h
  simp only [quantStart, Task.cut_months, covers.series hamount, covers.month hstart, ok_bind]
  simp [Entries.mapValues, Series.take_startingAt]

theorem quantPulse_of_inside {month : Int} {amount : Series Float}
    (hmonth : t.settings.month "month" = .ok month) (inside : 0 ≤ month ∧ month < t.months)
    (hamount : t.settings.series t.months "amount" 0 = .ok amount) :
    quantPulse t =
      let pulse := Series.single t.months month ((amount[month.toNat]?).getD 0)
      .ok [("val", pulse), ("cum", Series.runningTotal pulse)] := by
  simp only [quantPulse, hmonth, ok_bind, if_pos inside, hamount]
  rfl

theorem quantPulse_of_outside {month : Int} (hmonth : t.settings.month "month" = .ok month)
    (outside : ¬(0 ≤ month ∧ month < t.months)) :
    quantPulse t =
      .ok [("val", Series.zeros t.months), ("cum",
        Series.runningTotal (Series.zeros t.months))] := by
  simp only [quantPulse, hmonth, ok_bind, if_neg outside]
  rfl

/-- A pulse in a month that only the longer horizon has gives zeros over the shorter one. -/
theorem quantPulse_looksBack : LooksBack quantPulse := by
  intro t n es covers h
  have shorter := covers.shorter
  have parts := h
  simp only [quantPulse, bind_eq_ok] at parts
  obtain ⟨month, hmonth, parts⟩ := parts
  have hmonth' := covers.month hmonth
  by_cases inside : 0 ≤ month ∧ month < t.months
  · rw [if_pos inside, bind_eq_ok] at parts
    obtain ⟨amount, hamount, -⟩ := parts
    rw [quantPulse_of_inside hmonth inside hamount] at h
    cases h
    by_cases early : month < n
    · have now : (amount.take n)[month.toNat]? = amount[month.toNat]? :=
        List.getElem?_take_of_lt (by omega)
      rw [quantPulse_of_inside hmonth' ⟨inside.1, early⟩ (covers.series hamount), now]
      simp [Entries.mapValues, Series.take_single shorter, Series.take_runningTotal]
    · rw [quantPulse_of_outside hmonth' fun both => early both.2]
      simp [Entries.mapValues, Series.take_single shorter, Series.take_runningTotal,
        Series.single_of_le (Int.not_lt.1 early)]
  · rw [quantPulse_of_outside hmonth inside] at h
    cases h
    have outside : ¬(0 ≤ month ∧ month < n) := by omega
    rw [quantPulse_of_outside hmonth' outside]
    simp [Entries.mapValues, Series.take_zeros shorter, Series.take_runningTotal]

theorem sumInputs_looksBack : LooksBack sumInputs := by
  intro t n es covers h
  simp only [sumInputs, bind_eq_ok, pure_eq_ok] at h
  obtain ⟨base, hbase, rfl⟩ := h
  simp only [sumInputs, combined_cut covers hbase, ok_bind]
  rfl

theorem setup_looksBack : LooksBack setup := by
  intro t n es covers h
  cases h
  rw [setup, Entries.mapValues, List.map_singleton, Series.take_zeros covers.shorter]
  rfl

theorem fundDebt_looksBack : LooksBack fundDebt := by
  intro t n es covers h
  simp only [fundDebt, bind_eq_ok, pure_eq_ok] at h
  obtain ⟨start, hstart, amount, hamount, rate, hrate, term, hterm, rfl⟩ := h
  simp only [fundDebt, covers.month hstart, covers.scalar hamount, covers.scalar hrate,
    covers.month hterm, ok_bind, Task.cut_months]
  have shorter := covers.shorter
  have repaid (months : Nat) (h : n ≤ months) :
      List.take n
          (if 0 < term then Series.single months (start + term) amount else Series.zeros months) =
        if 0 < term then Series.single n (start + term) amount else Series.zeros n := by
    split
    · exact Series.take_single h _ _
    · exact Series.take_zeros h
  simp [Entries.mapValues, repaid _ shorter, Series.take_single shorter, List.take_zipWith,
    Series.take_map_range shorter]

/-! ## Staff -/

theorem staff_cut {heads : Series Float} (covers : t.Covers n) (h : staff t heads = .ok es) :
    staff (t.cut n) (heads.take n) = .ok (es.mapValues (List.take n)) := by
  simp only [staff, bind_eq_ok, pure_eq_ok] at h
  obtain ⟨start, hstart, salary, hsalary, rfl⟩ := h
  simp only [staff, covers.month hstart, Task.cut_months, covers.series hsalary, ok_bind]
  simp [Entries.mapValues, Series.take_startingAt, List.take_zipWith]

theorem staffDiv_looksBack : LooksBack staffDiv := by
  intro t n es covers h
  simp only [staffDiv, bind_eq_ok] at h
  obtain ⟨activity, hactivity, rate, hrate, h⟩ := h
  simp only [staffDiv, combined_cut covers hactivity, Task.cut_months, covers.series hrate, ok_bind,
    ← List.take_zipWith]
  exact staff_cut covers h

theorem staffTeam_looksBack : LooksBack staffTeam := by
  intro t n es covers h
  simp only [staffTeam, bind_eq_ok] at h
  obtain ⟨heads, hheads, h⟩ := h
  simp only [staffTeam, Task.cut_months, covers.series hheads, ok_bind]
  exact staff_cut covers h

theorem staffRole_looksBack : LooksBack staffRole := by
  intro t n es covers h
  rw [staffRole, Task.cut_months, ← Series.take_constant covers.shorter]
  exact staff_cut covers h

/-! ## Subscribers -/

/-- What is carried over from month to month does not depend on later months. -/
theorem retainFrom_take {start : Int} {month : Nat} {carried : Float} {added churn : Series Float}
    {months : List (Retention Float)} (h : retainFrom start month carried added churn = .ok months)
    (n : Nat) :
    retainFrom start month carried (added.take n) (churn.take n) = .ok (months.take n) := by
  induction added generalizing month carried churn months n with
  | nil =>
    cases h
    simp [retainFrom]
  | cons x added ih =>
    cases n with
    | zero => rfl
    | succ n =>
      unfold retainFrom at h
      split at h
      · rename_i early
        obtain ⟨rest, hrest, rfl⟩ := map_eq_ok.1 h
        have tail : (churn.take (n + 1)).tail = churn.tail.take n := by
          cases churn <;> simp
        rw [List.take_succ_cons]
        unfold retainFrom
        rw [if_pos early, tail, ih hrest n]
        rfl
      · rename_i late
        cases churn with
        | nil => cases h
        | cons rate rates =>
          obtain ⟨rest, hrest, rfl⟩ := map_eq_ok.1 h
          rw [List.take_succ_cons, List.take_succ_cons]
          unfold retainFrom
          simp only [if_neg late, ih hrest n]
          rfl

theorem retention_cut {months : List (Retention Float)} (covers : t.Covers n)
    (h : retention t = .ok months) : retention (t.cut n) = .ok (months.take n) := by
  simp only [retention, bind_eq_ok] at h ⊢
  obtain ⟨added, hadded, churn, hchurn, start, hstart, retained⟩ := h
  refine ⟨_, combined_cut covers hadded, _, covers.series hchurn, start, covers.month hstart, ?_⟩
  exact mapError_eq_ok.2 (retainFrom_take (mapError_eq_ok.1 retained) n)

theorem subRetain_looksBack : LooksBack subRetain := by
  intro t n es covers h
  simp only [subRetain, bind_eq_ok, pure_eq_ok] at h
  obtain ⟨months, hmonths, rfl⟩ := h
  simp only [subRetain, retention_cut covers hmonths, ok_bind]
  simp [Entries.mapValues]

theorem subMth_looksBack : LooksBack subMth := by
  intro t n es covers h
  simp only [subMth, bind_eq_ok, pure_eq_ok] at h
  obtain ⟨months, hmonths, price, hprice, rfl⟩ := h
  simp only [subMth, retention_cut covers hmonths, Task.cut_months, covers.series hprice, ok_bind]
  simp [Entries.mapValues, List.take_zipWith]

/-! ## Delays -/

variable {offsets out out' src : Series Float} {source : Float × Nat}

/-- The amount of an early month is moved among the early months as it is among all. -/
theorem scatter_take (early : source.2 < n) (h : scatter offsets out source = .ok out') :
    scatter (offsets.take n) (out.take n) source = .ok (out'.take n) := by
  unfold scatter at h ⊢
  rw [List.getElem?_take_of_lt early]
  cases found : offsets[source.2]? with
  | none =>
    rw [found] at h
    cases h
  | some offset =>
    rw [found] at h
    simp only [bind_eq_ok, pure_eq_ok] at h ⊢
    obtain ⟨move, hmove, rfl⟩ := h
    refine ⟨move, hmove, ?_⟩
    split
    · rw [List.take_modify]
    · rfl

/-- The amount of a late month is not moved to an early one. -/
theorem take_scatter_of_le (nonneg : ∀ x ∈ offsets, 0 ≤ x) (late : n ≤ source.2)
    (h : scatter offsets out source = .ok out') : out'.take n = out.take n := by
  unfold scatter at h
  split at h
  · cases h
  · rename_i offset found
    simp only [bind_eq_ok, pure_eq_ok] at h
    obtain ⟨move, hmove, rfl⟩ := h
    have kept : 0 ≤ offset := nonneg _ (List.mem_of_getElem? found)
    have forward : 0 ≤ move := floor_nonneg kept (mapError_eq_ok.1 hmove)
    have beyond : (out.take n).length ≤ ((source.2 : Int) + move).toNat := by
      rw [List.length_take]
      omega
    rw [if_pos (by omega), List.take_modify, List.modify_eq_self beyond]

/-- If nothing is moved back, what reaches the first months comes from them. -/
theorem shift_take (nonneg : ∀ x ∈ offsets, 0 ≤ x) (inside : n ≤ src.length)
    (h : shift src offsets = .ok out) : shift (src.take n) (offsets.take n) = .ok (out.take n) := by
  unfold shift at h ⊢
  have early : (src.take n).length = n := by
    rw [List.length_take, Nat.min_eq_left inside]
  have cut : src.zipIdx = (src.take n).zipIdx ++ (src.drop n).zipIdx n := by
    conv_lhs => rw [← List.take_append_drop n src, List.zipIdx_append, early, Nat.zero_add]
  rw [cut, List.foldlM_append, bind_eq_ok] at h
  obtain ⟨middle, first, rest⟩ := h
  have same : out.take n = middle.take n := by
    refine foldlM_keeps (fun u : Series Float => u.take n = middle.take n) ?_ rest rfl
    intro source mem u v before step
    rw [take_scatter_of_le nonneg (List.le_snd_of_mem_zipIdx mem) step, before]
  rw [same, early, ← Series.take_zeros inside]
  refine (foldlM_through (List.take n) (fun _ => True) ?_ first trivial).1
  intro source mem u v _ step
  have within : source.2 < n := early ▸ List.snd_lt_of_mem_zipIdx mem
  exact ⟨scatter_take within step, trivial⟩

theorem delay_cut (covers : t.Covers n)
    (nonneg : ∀ xs, t.settings.series t.months "delayMonths" 0 = .ok xs → ∀ x ∈ xs, 0 ≤ x)
    (h : delay t = .ok es) : delay (t.cut n) = .ok (es.mapValues (List.take n)) := by
  simp only [delay, bind_eq_ok, pure_eq_ok] at h
  obtain ⟨offsets, hoffsets, base, hbase, out, hout, rfl⟩ := h
  have inside : n ≤ base.length := length_combined hbase ▸ covers.shorter
  simp only [delay, Task.cut_months, covers.series hoffsets, combined_cut covers hbase,
    shift_take (nonneg _ hoffsets) inside hout, ok_bind]
  rfl

/-! ## The library -/

/-- The first months of what a function of the library answers are its answer for these months, but
for `Advance`, and but for `Delay` with offsets below zero. -/
theorem library_cut {name : String} {f : Computation Float} (mem : (name, f) ∈ library)
    (forward : name ≠ "Advance") (covers : t.Covers n)
    (nonneg : name = "Delay" →
      ∀ xs, t.settings.series t.months "delayMonths" 0 = .ok xs → ∀ x ∈ xs, 0 ≤ x)
    (h : f t = .ok es) : f (t.cut n) = .ok (es.mapValues (List.take n)) := by
  simp only [library, List.mem_cons, Prod.mk.injEq, List.not_mem_nil, or_false] at mem
  rcases mem with ⟨rfl, rfl⟩ | ⟨rfl, rfl⟩ | ⟨rfl, rfl⟩ | ⟨rfl, rfl⟩ | ⟨rfl, rfl⟩ | ⟨rfl, rfl⟩ |
    ⟨rfl, rfl⟩ | ⟨rfl, rfl⟩ | ⟨rfl, rfl⟩ | ⟨rfl, rfl⟩ | ⟨rfl, rfl⟩ | ⟨rfl, rfl⟩ | ⟨rfl, rfl⟩ |
    ⟨rfl, rfl⟩
  · exact multiply_looksBack t n es covers h
  · exact divide_looksBack t n es covers h
  · exact quantStart_looksBack t n es covers h
  · exact quantPulse_looksBack t n es covers h
  · exact subRetain_looksBack t n es covers h
  · exact subMth_looksBack t n es covers h
  · exact delay_cut covers (nonneg rfl) h
  · exact absurd rfl forward
  · exact sumInputs_looksBack t n es covers h
  · exact staffDiv_looksBack t n es covers h
  · exact staffTeam_looksBack t n es covers h
  · exact staffRole_looksBack t n es covers h
  · exact fundDebt_looksBack t n es covers h
  · exact setup_looksBack t n es covers h

end Compute
end Forecast

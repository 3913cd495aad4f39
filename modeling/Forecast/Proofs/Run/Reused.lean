import Forecast.Proofs.Assumption.Current
import Forecast.Proofs.Assumption.Cut
import Forecast.Run

/-!
# Assumptions of a longer horizon

Functions of the library read a setting as a series over the months of their
task, or read its first amount. Neither depends on months beyond the task. So a
run may be given assumptions that were computed for more months: it stores the
same, or stops with the same fault, as if they had been computed for its own.
-/

namespace Forecast

open Outcome

/-- Settings that are read alike over some months. -/
structure Settings.AgreeOver {α : Type} [Amount α] (months : Nat) (s s' : Settings α) : Prop where
  series : ∀ name default, s'.series months name default = s.series months name default
  scalar : ∀ name, s'.scalar name = s.scalar name

namespace Settings.AgreeOver

variable {α : Type} [Amount α] {months n : Nat} {s s' : Settings α}

theorem month (agree : AgreeOver months s s') (name : String) : s'.month name = s.month name := by
  rw [Settings.month, Settings.month, agree.scalar]

theorem cut (positive : 0 < n) (s : Settings α) : AgreeOver n s (s.cut n) where
  series := series_cut_eq s n
  scalar := scalar_cut positive s

end Settings.AgreeOver

namespace Compute

section

variable {α : Type} [Amount α] {t : Task α} {s : Settings α}

/-- A function that reads settings over the months of its task only. -/
def ReadsMonths (f : Computation α) : Prop :=
  ∀ (t : Task α) (s : Settings α), t.settings.AgreeOver t.months s →
    f { t with settings := s } = f t

theorem combined_settings (t : Task α) (s : Settings α) :
    combined { t with settings := s } = combined t :=
  rfl

theorem staff_readsMonths (agree : t.settings.AgreeOver t.months s) (heads : Series α) :
    staff { t with settings := s } heads = staff t heads := by
  simp only [staff, agree.month, agree.series]

theorem retention_readsMonths (agree : t.settings.AgreeOver t.months s) :
    retention { t with settings := s } = retention t := by
  simp only [retention, combined_settings, agree.series, agree.month]

/-- No function of the library looks at settings of later months. -/
theorem library_readsMonths {f : String × Computation α} (mem : f ∈ library) : ReadsMonths f.2 := by
  intro t s agree
  simp only [library, List.mem_cons, List.not_mem_nil, or_false] at mem
  rcases mem with rfl | rfl | rfl | rfl | rfl | rfl | rfl | rfl | rfl | rfl | rfl | rfl | rfl | rfl
  · simp only [multiply, combined_settings, agree.series, agree.month]
  · simp only [divide, combined_settings, agree.series, agree.month]
  · simp only [quantStart, agree.series, agree.month]
  · simp only [quantPulse, agree.series, agree.month]
  · simp only [subRetain, retention_readsMonths agree]
  · simp only [subMth, retention_readsMonths agree, agree.series]
  · simp only [delay, combined_settings, agree.series]
  · simp only [advance, combined_settings, agree.series]
  · rfl
  · simp only [staffDiv, combined_settings, agree.series, staff_readsMonths agree]
  · simp only [staffTeam, agree.series, staff_readsMonths agree]
  · simp only [staffRole, staff_readsMonths agree]
  · simp only [fundDebt, agree.month, agree.scalar]
  · rfl

end

end Compute

theorem Registry.standard_readsMonths {name : String} {f : Task Float → Except Fault Reply}
    (found : Registry.standard.lookup name = some f) {t : Task Float} {s : Settings Float}
    (agree : t.settings.AgreeOver t.months s) : f { t with settings := s } = f t := by
  rw [Registry.standard, Entries.lookup_mapValues, Option.map_eq_some_iff] at found
  obtain ⟨g, known, rfl⟩ := found
  have same := Compute.library_readsMonths (Entries.mem_of_lookup known) t s agree
  simp only at same
  rw [Registry.ofComputation, Registry.ofComputation, same]

namespace Run

variable {c : Conditions} {a b : Assumptions}

/-- What an output answers only depends on the settings over the months of the run. -/
theorem answer_agree (registry : c.registry = .standard)
    (agree : ∀ object output,
      (c.assumptions.settings object output).AgreeOver c.months (b.settings object output))
    (d : Definition) (output : String) (inputs : List (Series Float)) :
    answer { c with assumptions := b } d output inputs = answer c d output inputs := by
  unfold answer
  refine bind_congr fun t => ?_
  cases found : c.registry.lookup (t.functionName d.kind) with
  | none => simp only [functionOf, found]; rfl
  | some f =>
    have same := Registry.standard_readsMonths (registry ▸ found)
      (t := ⟨c.months, inputs, c.assumptions.settings d.name output, output⟩) (agree d.name output)
    simp only at same
    simp only [functionOf, found, liftM, monadLift, MonadLift.monadLift, Except.mapError,
      ok_bind, same]

theorem execute_agree (registry : c.registry = .standard)
    (agree : ∀ object output,
      (c.assumptions.settings object output).AgreeOver c.months (b.settings object output))
    (p : Plan) : execute p { c with assumptions := b } = execute p c := by
  have answers := answer_agree registry agree
  have steps : step p.model p.symbols { c with assumptions := b } = step p.model p.symbols c := by
    funext r output
    simp only [step, compute, answers]
  simp only [execute, steps]

/-- Assumptions that were computed for a longer horizon serve a run as they are. Computing them
again for the months of the run succeeds, and whatever is run with the functions of the library, the
results, the notices and the fault are the same. -/
theorem execute_reused (h h' : Horizon) (longer : h.months ≤ h'.months)
    (materialized : a.All (Assumption.Materialized h'.months)) :
    ∃ b, a.recalculate h.months = .ok b ∧ ∀ p schema overrides,
      execute p ⟨schema, h.months, a, overrides, .standard⟩ =
        execute p ⟨schema, h.months, b, overrides, .standard⟩ := by
  refine ⟨a.cut h.months,
    Assumptions.recalculate_cut longer (Assumptions.recalculate_of_materialized materialized), ?_⟩
  intro p schema overrides
  refine (execute_agree (c := ⟨schema, h.months, a, overrides, .standard⟩) rfl ?_ p).symm
  intro object output
  rw [Assumptions.settings_cut]
  exact .cut h.months_pos _

def amountType : ObjectType :=
  ⟨some "QuantStart", [("val", ⟨none, none, [], false⟩)],
    [⟨"startMonth", none, .number, none, .int 0, .onlySingle⟩],
    [⟨"amount", none, .number, none, .int 0, { Supports.onlySingle with monthly := true }⟩]⟩

def overThreeMonths : Assumptions :=
  [("A", ⟨amountType.objectFields.map fun spec =>
      (spec.name, ⟨spec, .ofSingle (.float 1), .series [1, 1, 1]⟩),
    [("a", amountType.outputFields.map fun spec =>
      (spec.name, ⟨spec, { Raw.ofSingle (.float 5) with monthly := some [none, some 7, some 9] },
        .series [5, 7, 9]⟩))]⟩)]

theorem reused_overThreeMonths : ∃ p b r, Plan.ofSource "S:\nA = Quant() => a" = .ok p ∧
    overThreeMonths.recalculate 2 = .ok b ∧
    (execute p ⟨[("Quant", amountType)], 2, overThreeMonths, [], .standard⟩).outcome = .ok r ∧
    (execute p ⟨[("Quant", amountType)], 2, b, [], .standard⟩).outcome = .ok r ∧
    r.store = [("a.val", [0, 7]), ("A.val", [0, 7])] := by
  have stored : (Plan.ofSource "S:\nA = Quant() => a" >>= fun p =>
      (execute p ⟨[("Quant", amountType)], 2, overThreeMonths, [], .standard⟩).outcome).toOption.map
        (·.store) = some [("a.val", [0, 7]), ("A.val", [0, 7])] := by decide +kernel
  obtain ⟨r, both, stored⟩ := exists_of_toOption_map stored
  obtain ⟨p, plan, run⟩ := bind_eq_ok.1 both
  have materialized : overThreeMonths.All (Assumption.Materialized 3) := by
    rintro o ho
    cases List.mem_singleton.1 ho
    refine ⟨fun e he => ?_, fun g hg => ?_⟩
    · cases List.mem_singleton.1 he
      rfl
    · cases List.mem_singleton.1 hg
      intro e he
      cases List.mem_singleton.1 he
      rfl
  obtain ⟨b, again, same⟩ :=
    execute_reused ⟨2, 1, none, by decide⟩ ⟨3, 1, none, by decide⟩ (by decide) materialized
  exact ⟨p, b, r, plan, again, run, by rw [← same, run], stored⟩

end Run
end Forecast

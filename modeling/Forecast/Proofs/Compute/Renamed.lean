import Forecast.Proofs.Compute.Library
import Forecast.Proofs.Related

/-!
# Functions and the names of outputs

A function of the library does not look at the name of the output that it
computes. It answers under names of its own, whatever the task is, or under the
name of the output; for another output it answers the same, or the same under
the other name, and it stops for both or for none.
-/

namespace Forecast

open Outcome

namespace Compute

/-- Answers for two outputs that differ at most in the names of these: under fixed names they are
the same; otherwise each is a single series under the name of its output. -/
def SameAnswer (names : Option (List String)) (output output' : String)
    (es es' : Entries (Series Float)) : Prop :=
  match names with
  | some names => es' = es ∧ es.keys = names
  | none => ∃ xs, es = [(output, xs)] ∧ es' = [(output', xs)]

theorem SameAnswer.keys {names : Option (List String)} {output output' : String}
    {es es' : Entries (Series Float)} (same : SameAnswer names output output' es es') :
    es.keys = names.getD [output] ∧ es'.keys = names.getD [output'] := by
  cases names with
  | some names =>
    obtain ⟨rfl, keys⟩ := same
    exact ⟨keys, keys⟩
  | none =>
    obtain ⟨xs, rfl, rfl⟩ := same
    exact ⟨rfl, rfl⟩

/-- A function that treats all outputs alike. -/
def TreatsAlike (f : Computation Float) (names : Option (List String)) : Prop :=
  ∀ (t : Task Float) (output : String),
    Related (SameAnswer names t.output output) (f t) (f { t with output })

/-! ## Functions that answer under the name of the output -/

theorem multiply_treatsAlike : TreatsAlike multiply none := by
  intro t output
  refine .bind_self fun _ _ => .bind_self fun _ _ => .bind_self fun _ _ => ?_
  exact .ok ⟨_, rfl, rfl⟩

theorem divide_treatsAlike : TreatsAlike divide none := by
  intro t output
  refine .bind_self fun _ _ => .bind_self fun _ _ => .bind_self fun _ _ => ?_
  exact .ok ⟨_, rfl, rfl⟩

theorem quantStart_treatsAlike : TreatsAlike quantStart none := by
  intro t output
  refine .bind_self fun _ _ => .bind_self fun _ _ => ?_
  exact .ok ⟨_, rfl, rfl⟩

theorem delay_treatsAlike : TreatsAlike delay none := by
  intro t output
  refine .bind_self fun _ _ => .bind_self fun _ _ => .bind_self fun _ _ => ?_
  exact .ok ⟨_, rfl, rfl⟩

theorem advance_treatsAlike : TreatsAlike advance none := by
  intro t output
  refine .bind_self fun _ _ => .bind_self fun _ _ => .bind_self fun _ _ => ?_
  exact .ok ⟨_, rfl, rfl⟩

/-! ## Functions that answer under fixed names -/

variable {t : Task Float} {es : Entries (Series Float)}

/-- A function that does not use the name of the output, and answers under fixed names. -/
theorem treatsAlike_of_keys {f : Computation Float} {names : List String}
    (blind : ∀ t output, f { t with output } = f t)
    (keys : ∀ t es, f t = .ok es → es.keys = names) :
    TreatsAlike f (some names) := by
  intro t output
  rw [blind t output]
  exact .self fun es h => ⟨rfl, keys t es h⟩

theorem keys_quantPulse (h : quantPulse t = .ok es) : es.keys = ["val", "cum"] := by
  simp only [quantPulse, bind_eq_ok] at h
  obtain ⟨_, -, h⟩ := h
  split at h
  · obtain ⟨_, -, h⟩ := bind_eq_ok.1 h
    cases h
    rfl
  · cases h
    rfl

theorem keys_sumInputs (h : sumInputs t = .ok es) : es.keys = ["val"] := by
  simp only [sumInputs, bind_eq_ok, pure_eq_ok] at h
  obtain ⟨_, -, rfl⟩ := h
  rfl

theorem keys_setup (h : setup t = .ok es) : es.keys = ["val"] := by
  cases h
  rfl

theorem keys_fundDebt (h : fundDebt t = .ok es) :
    es.keys = ["int", "raised", "repaid", "bal", "debtMove"] := by
  simp only [fundDebt, bind_eq_ok, pure_eq_ok] at h
  obtain ⟨_, -, _, -, _, -, _, -, rfl⟩ := h
  rfl

theorem keys_staff {heads : Series Float} (h : staff t heads = .ok es) :
    es.keys = ["heads", "cost"] := by
  simp only [staff, bind_eq_ok, pure_eq_ok] at h
  obtain ⟨_, -, _, -, rfl⟩ := h
  rfl

theorem keys_staffDiv (h : staffDiv t = .ok es) : es.keys = ["heads", "cost"] := by
  simp only [staffDiv, bind_eq_ok] at h
  obtain ⟨_, -, _, -, h⟩ := h
  exact keys_staff h

theorem keys_staffTeam (h : staffTeam t = .ok es) : es.keys = ["heads", "cost"] := by
  simp only [staffTeam, bind_eq_ok] at h
  obtain ⟨_, -, h⟩ := h
  exact keys_staff h

theorem keys_subRetain (h : subRetain t = .ok es) : es.keys = ["act", "chu"] := by
  simp only [subRetain, bind_eq_ok, pure_eq_ok] at h
  obtain ⟨_, -, rfl⟩ := h
  rfl

theorem keys_subMth (h : subMth t = .ok es) : es.keys = ["act", "chu", "rev"] := by
  simp only [subMth, bind_eq_ok, pure_eq_ok] at h
  obtain ⟨_, -, _, -, rfl⟩ := h
  rfl

/-! ## The library -/

theorem library_treatsAlike :
    List.Forall₂ (fun (f : String × Computation Float) (names : String × Option (List String)) =>
      f.1 = names.1 ∧ TreatsAlike f.2 names.2) library answered :=
  .cons ⟨rfl, multiply_treatsAlike⟩ <| .cons ⟨rfl, divide_treatsAlike⟩ <|
  .cons ⟨rfl, quantStart_treatsAlike⟩ <|
  .cons ⟨rfl, treatsAlike_of_keys (fun _ _ => rfl) fun _ _ => keys_quantPulse⟩ <|
  .cons ⟨rfl, treatsAlike_of_keys (fun _ _ => rfl) fun _ _ => keys_subRetain⟩ <|
  .cons ⟨rfl, treatsAlike_of_keys (fun _ _ => rfl) fun _ _ => keys_subMth⟩ <|
  .cons ⟨rfl, delay_treatsAlike⟩ <| .cons ⟨rfl, advance_treatsAlike⟩ <|
  .cons ⟨rfl, treatsAlike_of_keys (fun _ _ => rfl) fun _ _ => keys_sumInputs⟩ <|
  .cons ⟨rfl, treatsAlike_of_keys (fun _ _ => rfl) fun _ _ => keys_staffDiv⟩ <|
  .cons ⟨rfl, treatsAlike_of_keys (fun _ _ => rfl) fun _ _ => keys_staffTeam⟩ <|
  .cons ⟨rfl, treatsAlike_of_keys (fun _ _ => rfl) fun _ _ => keys_staff⟩ <|
  .cons ⟨rfl, treatsAlike_of_keys (fun _ _ => rfl) fun _ _ => keys_fundDebt⟩ <|
  .cons ⟨rfl, treatsAlike_of_keys (fun _ _ => rfl) fun _ _ => keys_setup⟩ .nil

theorem exists_treatsAlike {name : String} {names : Option (List String)}
    (known : (name, names) ∈ answered) :
    ∃ f : Computation Float, library.lookup name = some f ∧ TreatsAlike f names :=
  exists_of_answered library_treatsAlike known

end Compute
end Forecast

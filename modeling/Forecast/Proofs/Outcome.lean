import Forecast.Fault
import Mathlib.Data.List.Perm.Basic

/-!
# Outcomes

Small equations for computations that may fail, so that later proofs take a
computation apart without unfolding it: what a step answers, what a list of
steps answers, which step failed, and which faults a computation can stop with.
-/

namespace Forecast.Outcome

variable {ε ε' α β σ : Type}

@[simp] theorem pure_eq_ok {a b : α} : (pure a : Except ε α) = .ok b ↔ a = b := by
  simp [pure, Except.pure]

@[simp] theorem pure_ne_error {a : α} {e : ε} : (pure a : Except ε α) = .error e ↔ False := by
  simp [pure, Except.pure]

theorem bind_eq_ok {x : Except ε α} {f : α → Except ε β} {b : β} :
    (x >>= f) = .ok b ↔ ∃ a, x = .ok a ∧ f a = .ok b := by
  cases x <;> simp [bind, Except.bind]

theorem bind_eq_error {x : Except ε α} {f : α → Except ε β} {e : ε} :
    (x >>= f) = .error e ↔ x = .error e ∨ ∃ a, x = .ok a ∧ f a = .error e := by
  cases x <;> simp [bind, Except.bind]

theorem ok_bind (a : α) (f : α → Except ε β) : (Except.ok a >>= f) = f a := rfl

theorem check_eq_ok {c : Prop} [Decidable c] {e : ε} {x y : α} :
    (if c then (throw e >>= fun _ : PUnit => pure x) else pure x : Except ε α) = .ok y ↔
      ¬c ∧ x = y := by
  split
  · rename_i h
    simp [h, throw, throwThe, MonadExceptOf.throw, bind, Except.bind]
  · rename_i h
    simp [h]

theorem map_eq_ok {x : Except ε α} {f : α → β} {b : β} :
    x.map f = .ok b ↔ ∃ a, x = .ok a ∧ f a = b := by
  cases x <;> simp [Except.map]

@[simp] theorem mapError_eq_ok {x : Except ε α} {f : ε → ε'} {a : α} :
    x.mapError f = .ok a ↔ x = .ok a := by
  cases x <;> simp [Except.mapError]

theorem mapError_eq_error {x : Except ε α} {f : ε → ε'} {e : ε'} :
    x.mapError f = .error e ↔ ∃ e', x = .error e' ∧ f e' = e := by
  cases x <;> simp [Except.mapError]

/-- What is computed from the answer of a computation, if there is one, tells that there is one. -/
theorem exists_of_toOption_map {x : Except ε α} {f : α → β} {b : β}
    (h : x.toOption.map f = some b) : ∃ a, x = .ok a ∧ f a = b := by
  cases x with
  | error e => cases h
  | ok a => exact ⟨a, rfl, Option.some.inj h⟩

theorem exists_of_isSome_toOption {x : Except ε α} (h : x.toOption.isSome) : ∃ a, x = .ok a := by
  cases x with
  | error e => cases h
  | ok a => exact ⟨a, rfl⟩

theorem mapM_eq_ok {f : α → Except ε β} {l : List α} {ys : List β} :
    l.mapM f = .ok ys ↔ List.Forall₂ (fun x y => f x = .ok y) l ys := by
  induction l generalizing ys with
  | nil =>
    simp only [List.mapM_nil, pure_eq_ok, List.forall₂_nil_left_iff]
    exact eq_comm
  | cons x l ih =>
    simp only [List.mapM_cons, bind_eq_ok, pure_eq_ok, List.forall₂_cons_left_iff]
    constructor
    · rintro ⟨y, hy, zs, hzs, rfl⟩
      exact ⟨y, zs, hy, ih.1 hzs, rfl⟩
    · rintro ⟨y, zs, hy, hzs, rfl⟩
      exact ⟨y, hy, zs, ih.2 hzs, rfl⟩

theorem mapM_eq_self {f : α → Except ε α} {l : List α} (each : ∀ x ∈ l, f x = .ok x) :
    l.mapM f = .ok l :=
  mapM_eq_ok.2 (List.forall₂_same.2 each)

theorem exists_of_mem_mapM {f : α → Except ε β} {l : List α} {ys : List β} (h : l.mapM f = .ok ys)
    {y : β} (hy : y ∈ ys) : ∃ x ∈ l, f x = .ok y := by
  obtain ⟨i, hi, rfl⟩ := List.getElem_of_mem hy
  obtain ⟨lengths, each⟩ := List.forall₂_iff_get.1 (mapM_eq_ok.1 h)
  exact ⟨_, List.getElem_mem (by omega), each i (by omega) hi⟩

theorem exists_mem_of_mapM {f : α → Except ε β} {l : List α} {ys : List β} (h : l.mapM f = .ok ys)
    {x : α} (hx : x ∈ l) : ∃ y ∈ ys, f x = .ok y := by
  obtain ⟨i, hi, rfl⟩ := List.getElem_of_mem hx
  obtain ⟨lengths, each⟩ := List.forall₂_iff_get.1 (mapM_eq_ok.1 h)
  exact ⟨_, List.getElem_mem (by omega), each i hi (by omega)⟩

theorem exists_mapM_of_perm {f : α → Except ε β} {l l' : List α} {ys : List β} (perm : l'.Perm l)
    (h : l.mapM f = .ok ys) : ∃ ys', l'.mapM f = .ok ys' ∧ ys'.Perm ys := by
  obtain ⟨ys', each, same⟩ := List.perm_comp_forall₂ perm (mapM_eq_ok.1 h)
  exact ⟨ys', mapM_eq_ok.2 each, same⟩

theorem map_of_mapM {γ : Type} {f : α → Except ε β} (g : α → γ) (g' : β → γ) {l : List α}
    {ys : List β} (keeps : ∀ x y, f x = .ok y → g' y = g x) (h : l.mapM f = .ok ys) :
    ys.map g' = l.map g := by
  rw [← List.forall₂_eq_eq_eq, List.forall₂_map_left_iff, List.forall₂_map_right_iff]
  exact (mapM_eq_ok.1 h).flip.imp fun y x hy => keeps x y hy

/-- Steps that answer, to the image of what others are given, the image of what these answer. -/
theorem mapM_map {α' β' : Type} {f : α → Except ε β} {f' : α' → Except ε β'} (g : α → α')
    (g' : β → β') {l : List α} {ys : List β} (each : ∀ x ∈ l, ∀ y, f x = .ok y →
      f' (g x) = .ok (g' y))
    (h : l.mapM f = .ok ys) : (l.map g).mapM f' = .ok (ys.map g') := by
  induction l generalizing ys with
  | nil =>
    cases h
    rfl
  | cons x l ih =>
    simp only [List.mapM_cons, bind_eq_ok, pure_eq_ok] at h
    obtain ⟨y, hy, ys, hys, rfl⟩ := h
    rw [List.map_cons, List.mapM_cons, each x (by simp) y hy, ok_bind,
      ih (fun z hz => each z (by simp [hz])) hys]
    rfl

/-- A fold whose steps go, from the image of a state, to the image of what the steps of another fold
answer; the steps may rely on what the other fold keeps. -/
theorem foldlM_map {α' σ' : Type} {f : σ → α → Except ε σ} {f' : σ' → α' → Except ε σ'} (g : α → α')
    (k : σ → σ') (P : σ → Prop) {l : List α} {s t : σ}
    (each : ∀ a ∈ l, ∀ u v, P u → f u a = .ok v → f' (k u) (g a) = .ok (k v) ∧ P v)
    (h : l.foldlM f s = .ok t) (hs : P s) : (l.map g).foldlM f' (k s) = .ok (k t) ∧ P t := by
  induction l generalizing s with
  | nil =>
    cases h
    exact ⟨rfl, hs⟩
  | cons a l ih =>
    rw [List.foldlM_cons, bind_eq_ok] at h
    obtain ⟨u, hu, h⟩ := h
    obtain ⟨here, keeps⟩ := each a (by simp) s u hs hu
    rw [List.map_cons, List.foldlM_cons, here, ok_bind]
    exact ih (fun b hb => each b (by simp [hb])) h keeps

theorem mapM_through {β' : Type} {f : α → Except ε β} {f' : α → Except ε β'} (g : β → β')
    {l : List α}
    {ys : List β} (each : ∀ x ∈ l, ∀ y, f x = .ok y → f' x = .ok (g y)) (h : l.mapM f = .ok ys) :
    l.mapM f' = .ok (ys.map g) := by
  simpa using mapM_map id g each h

theorem foldlM_through {σ' : Type} {f : σ → α → Except ε σ} {f' : σ' → α → Except ε σ'} (k : σ → σ')
    (P : σ → Prop) {l : List α} {s t : σ}
    (each : ∀ a ∈ l, ∀ u v, P u → f u a = .ok v → f' (k u) a = .ok (k v) ∧ P v)
    (h : l.foldlM f s = .ok t) (hs : P s) : l.foldlM f' (k s) = .ok (k t) ∧ P t := by
  simpa using foldlM_map id k P each h hs

/-- Two folds whose steps succeed side by side, the second from the image of what the first has
reached. -/
theorem exists_foldlM_map {α' σ' : Type} {f : σ → α → Except ε σ} {f' : σ' → α' → Except ε σ'}
    (g : α → α') (k : σ → σ') (P : σ → Prop) {l : List α}
    (each : ∀ a ∈ l, ∀ u, P u → ∃ v, f u a = .ok v ∧ f' (k u) (g a) = .ok (k v) ∧ P v) {s : σ}
    (hs : P s) :
    ∃ t, l.foldlM f s = .ok t ∧ (l.map g).foldlM f' (k s) = .ok (k t) ∧ P t := by
  induction l generalizing s with
  | nil => exact ⟨s, rfl, rfl, hs⟩
  | cons a l ih =>
    obtain ⟨u, hu, hu', keeps⟩ := each a (by simp) s hs
    rw [List.map_cons, List.foldlM_cons, List.foldlM_cons, hu, hu', ok_bind, ok_bind]
    exact ih (fun b hb => each b (by simp [hb])) keeps

theorem mapM_eq_error {f : α → Except ε β} {l : List α} {e : ε} (h : l.mapM f = .error e) :
    ∃ x ∈ l, f x = .error e := by
  induction l with
  | nil => simp [pure, Except.pure] at h
  | cons x l ih =>
    rw [List.mapM_cons, bind_eq_error] at h
    rcases h with h | ⟨y, -, h⟩
    · exact ⟨x, by simp, h⟩
    · rw [bind_eq_error] at h
      rcases h with h | ⟨ys, -, h⟩
      · obtain ⟨z, hz, hfz⟩ := ih h
        exact ⟨z, by simp [hz], hfz⟩
      · simp [pure, Except.pure] at h

/-- Every step of a fold that succeeds has succeeded. -/
theorem foldlM_step_ok {f : σ → α → Except ε σ} {l : List α} {s t : σ} (h : l.foldlM f s = .ok t)
    {a : α} (ha : a ∈ l) : ∃ u v, f u a = .ok v := by
  induction l generalizing s with
  | nil => simp at ha
  | cons b l ih =>
    rw [List.foldlM_cons, bind_eq_ok] at h
    obtain ⟨u, hu, h⟩ := h
    rcases List.mem_cons.1 ha with rfl | ha
    · exact ⟨s, u, hu⟩
    · exact ih h ha

/-- What every step of a fold keeps holds at the end. -/
theorem foldlM_keeps {f : σ → α → Except ε σ} (P : σ → Prop) {l : List α} {s t : σ}
    (step : ∀ a ∈ l, ∀ u v, P u → f u a = .ok v → P v) (h : l.foldlM f s = .ok t) (hs : P s) :
    P t := by
  induction l generalizing s with
  | nil =>
    cases h
    exact hs
  | cons b l ih =>
    rw [List.foldlM_cons, bind_eq_ok] at h
    obtain ⟨u, hu, h⟩ := h
    exact ih (fun a ha => step a (by simp [ha])) h (step b (by simp) s u hs hu)

/-- A fold succeeds if every step does, where the steps may rely on what they all keep. -/
theorem exists_foldlM {f : σ → α → Except ε σ} (P : σ → Prop) {l : List α}
    (step : ∀ a ∈ l, ∀ u, P u → ∃ v, f u a = .ok v ∧ P v) {s : σ} (hs : P s) :
    ∃ t, l.foldlM f s = .ok t ∧ P t := by
  induction l generalizing s with
  | nil => exact ⟨s, rfl, hs⟩
  | cons a l ih =>
    obtain ⟨u, hu, hPu⟩ := step a (by simp) s hs
    rw [List.foldlM_cons, hu, ok_bind]
    exact ih (fun b hb => step b (by simp [hb])) hPu

theorem foldlM_eq_foldl {f : σ → α → Except ε σ} {g : σ → α → σ} {l : List α}
    (step : ∀ a ∈ l, ∀ s, f s a = .ok (g s a)) (s : σ) : l.foldlM f s = .ok (l.foldl g s) := by
  induction l generalizing s with
  | nil => rfl
  | cons a l ih =>
    rw [List.foldlM_cons, step a (by simp), ok_bind, List.foldl_cons]
    exact ih (fun b hb => step b (by simp [hb])) _

/-- A list of steps succeeds if every step does. -/
theorem exists_mapM {f : α → Except ε β} {P : β → Prop} {l : List α}
    (step : ∀ a ∈ l, ∃ b, f a = .ok b ∧ P b) : ∃ ys, l.mapM f = .ok ys ∧ ∀ y ∈ ys, P y := by
  induction l with
  | nil => exact ⟨[], rfl, by simp⟩
  | cons a l ih =>
    obtain ⟨y, hy, hP⟩ := step a (by simp)
    obtain ⟨ys, hys, each⟩ := ih fun b hb => step b (by simp [hb])
    refine ⟨y :: ys, ?_, by simpa [hP] using each⟩
    rw [List.mapM_cons, hy, ok_bind, hys]
    rfl

theorem foldlM_eq_error {f : σ → α → Except ε σ} {l : List α} {s : σ} {e : ε}
    (h : l.foldlM f s = .error e) :
    ∃ before a after t, l = before ++ a :: after ∧ before.foldlM f s = .ok t ∧
      f t a = .error e := by
  induction l generalizing s with
  | nil => simp [pure, Except.pure] at h
  | cons a l ih =>
    rw [List.foldlM_cons, bind_eq_error] at h
    rcases h with h | ⟨u, hu, h⟩
    · exact ⟨[], a, l, s, rfl, rfl, h⟩
    · obtain ⟨before, b, after, t, rfl, steps, failed⟩ := ih h
      refine ⟨a :: before, b, after, t, rfl, ?_, failed⟩
      rw [List.foldlM_cons, hu, ok_bind, steps]

end Forecast.Outcome

namespace Forecast

open Outcome

variable {ε α β σ : Type}

/-- Every fault that stops a computation has a property. -/
def FailsOnly (P : ε → Prop) (x : Except ε α) : Prop :=
  ∀ e, x = .error e → P e

namespace FailsOnly

variable {P : ε → Prop}

theorem ok (a : α) : FailsOnly P (.ok a : Except ε α) := nofun

theorem pure (a : α) : FailsOnly P (Pure.pure a : Except ε α) := nofun

theorem error {e : ε} (h : P e) : FailsOnly P (.error e : Except ε α) := by
  intro _ same
  cases same
  exact h

theorem of_exists {x : Except ε α} (h : ∃ a, x = .ok a) : FailsOnly P x := by
  obtain ⟨a, rfl⟩ := h
  exact ok a

theorem bind {x : Except ε α} {f : α → Except ε β} (first : FailsOnly P x)
    (next : ∀ a, x = .ok a → FailsOnly P (f a)) : FailsOnly P (x >>= f) := by
  intro e h
  rcases bind_eq_error.1 h with h | ⟨a, ha, h⟩
  · exact first e h
  · exact next a ha e h

theorem map {x : Except ε α} (f : α → β) (h : FailsOnly P x) : FailsOnly P (x.map f) := by
  cases x with
  | ok a => exact ok (f a)
  | error e => exact error (h e rfl)

theorem check {c : Prop} [Decidable c] {e : ε} (h : P e) (a : α) :
    FailsOnly P (if c then (throw e >>= fun _ : PUnit => Pure.pure a) else Pure.pure a) := by
  split
  · exact bind (error h) fun _ _ => pure a
  · exact pure a

theorem mapError {ε' : Type} {wrap : ε' → ε} {x : Except ε' α}
    (h : FailsOnly (fun e => P (wrap e)) x) : FailsOnly P (x.mapError wrap) := by
  intro e failed
  obtain ⟨e', inner, rfl⟩ := mapError_eq_error.1 failed
  exact h e' inner

theorem mapM {f : α → Except ε β} {l : List α} (each : ∀ a ∈ l, FailsOnly P (f a)) :
    FailsOnly P (l.mapM f) := by
  intro e h
  obtain ⟨a, ha, failed⟩ := mapM_eq_error h
  exact each a ha e failed

theorem foldlM {f : σ → α → Except ε σ} {l : List α} (each : ∀ a ∈ l, ∀ s, FailsOnly P (f s a))
    (s : σ) : FailsOnly P (l.foldlM f s) := by
  intro e h
  obtain ⟨_, a, _, t, rfl, -, failed⟩ := foldlM_eq_error h
  exact each a (by simp) t e failed

end FailsOnly

end Forecast

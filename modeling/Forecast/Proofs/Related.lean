import Forecast.Proofs.Outcome

/-!
# Related outcomes

Two computations are related if both succeed with related results or both fail,
whatever their faults are. What is composed of related steps is related, so a
property of one step at a time says at once when a run succeeds and what it
gives.
-/

namespace Forecast

open Outcome

variable {ε ε' α α' β β' : Type} {R : α → α' → Prop} {S : β → β' → Prop}

/-- Both succeed with related results, or both fail. -/
inductive Related (R : α → α' → Prop) : Except ε α → Except ε' α' → Prop
  | ok {a : α} {b : α'} (h : R a b) : Related R (.ok a) (.ok b)
  | error (e : ε) (e' : ε') : Related R (.error e) (.error e')

namespace Related

variable {x : Except ε α} {y : Except ε' α'}

theorem of_eq {x : Except ε α} {y : Except ε α} (same : x = y) : Related Eq x y := by
  subst same
  cases x with
  | error e => exact .error e e
  | ok a => exact .ok rfl

theorem self {R : α → α → Prop} {x : Except ε α} (each : ∀ a, x = .ok a → R a a) :
    Related R x x := by
  cases x with
  | error e => exact .error e e
  | ok a => exact .ok (each a rfl)

theorem mono {R' : α → α' → Prop} (related : Related R x y) (h : ∀ a b, R a b → R' a b) :
    Related R' x y := by
  cases related with
  | error e e' => exact .error e e'
  | ok ab => exact .ok (h _ _ ab)

theorem with_left (related : Related R x y) : Related (fun a b => x = .ok a ∧ R a b) x y := by
  cases related with
  | error e e' => exact .error e e'
  | ok ab => exact .ok ⟨rfl, ab⟩

theorem bind {f : α → Except ε β} {f' : α' → Except ε' β'} (related : Related R x y)
    (next : ∀ a b, R a b → Related S (f a) (f' b)) : Related S (x >>= f) (y >>= f') := by
  cases related with
  | error e e' => exact .error e e'
  | ok ab => exact next _ _ ab

theorem bind_self {x : Except ε α} {f : α → Except ε β} {f' : α → Except ε β'}
    (next : ∀ a, x = .ok a → Related S (f a) (f' a)) : Related S (x >>= f) (x >>= f') := by
  cases x with
  | error e => exact .error e e
  | ok a => exact next a rfl

theorem mapError {ε₁ ε₁' : Type} {g : ε → ε₁} {g' : ε' → ε₁'} (related : Related R x y) :
    Related R (x.mapError g) (y.mapError g') := by
  cases related with
  | error e e' => exact .error _ _
  | ok ab => exact .ok ab

theorem ite {c c' : Prop} [Decidable c] [Decidable c'] {x₁ x₂ : Except ε α} {y₁ y₂ : Except ε' α'}
    (same : c ↔ c') (yes : c → Related R x₁ y₁) (no : ¬c → Related R x₂ y₂) :
    Related R (if c then x₁ else x₂) (if c' then y₁ else y₂) := by
  by_cases h : c
  · rw [if_pos h, if_pos (same.1 h)]
    exact yes h
  · rw [if_neg h, if_neg (mt same.2 h)]
    exact no h

theorem mapM {ι ι' : Type} {f : ι → Except ε α} {f' : ι' → Except ε' α'} (g : ι → ι') {l : List ι}
    (each : ∀ i ∈ l, Related R (f i) (f' (g i))) :
    Related (List.Forall₂ R) (l.mapM f) ((l.map g).mapM f') := by
  induction l with
  | nil => exact .ok .nil
  | cons i l ih =>
    rw [List.map_cons, List.mapM_cons, List.mapM_cons]
    refine (each i (by simp)).bind fun a b ab => ?_
    refine (ih fun j hj => each j (by simp [hj])).bind fun as bs asbs => ?_
    exact .ok (.cons ab asbs)

theorem mapM_image {ι ι' : Type} {f : ι → Except ε α} {f' : ι' → Except ε' α'} (g : ι → ι')
    (k : α → α') {l : List ι} (each : ∀ i ∈ l, Related (fun a b => b = k a) (f i) (f' (g i))) :
    Related (fun as bs => bs = as.map k) (l.mapM f) ((l.map g).mapM f') := by
  refine (mapM g each).mono fun as bs same => ?_
  rw [← List.forall₂_eq_eq_eq, List.forall₂_map_right_iff]
  exact same.flip.imp fun _ _ h => h

theorem mapM_self {ι : Type} {f : ι → Except ε α} {f' : ι → Except ε' α} {l : List ι}
    (each : ∀ i ∈ l, Related Eq (f i) (f' i)) : Related Eq (l.mapM f) (l.mapM f') := by
  have mapped := mapM id each
  rw [List.map_id] at mapped
  exact mapped.mono fun _ _ same => List.forall₂_eq_eq_eq ▸ same

theorem foldlM_forall₂ {ι ι' : Type} {T : ι → ι' → Prop} {f : α → ι → Except ε α}
    {f' : α' → ι' → Except ε' α'} {l : List ι} {l' : List ι'} {a : α} {b : α'}
    (pairs : List.Forall₂ T l l') (start : R a b)
    (each : ∀ i j, T i j → ∀ a b, R a b → Related R (f a i) (f' b j)) :
    Related R (l.foldlM f a) (l'.foldlM f' b) := by
  induction pairs generalizing a b with
  | nil => exact .ok start
  | cons ij _ ih =>
    rw [List.foldlM_cons, List.foldlM_cons]
    exact (each _ _ ij a b start).bind fun a' b' next => ih next

theorem foldlM {ι ι' : Type} {f : α → ι → Except ε α} {f' : α' → ι' → Except ε' α'} (g : ι → ι')
    {l : List ι} {a : α} {b : α'} (start : R a b)
    (each : ∀ i ∈ l, ∀ a b, R a b → Related R (f a i) (f' b (g i))) :
    Related R (l.foldlM f a) ((l.map g).foldlM f' b) := by
  have pairs : List.Forall₂ (fun i j => i ∈ l ∧ j = g i) l (l.map g) :=
    List.forall₂_map_right_iff.2 (List.forall₂_same.2 fun i hi => ⟨hi, rfl⟩)
  refine foldlM_forall₂ pairs start ?_
  rintro i _ ⟨mem, rfl⟩
  exact each i mem

theorem exists_iff (related : Related R x y) : (∃ a, x = .ok a) ↔ ∃ b, y = .ok b := by
  cases related <;> simp

theorem of_ok (related : Related R x y) {a : α} {b : α'} (hx : x = .ok a) (hy : y = .ok b) :
    R a b := by
  subst hx hy
  cases related with
  | ok ab => exact ab

theorem eq_ok_iff {k : α → α'} (related : Related (fun a b => b = k a) x y) {b : α'} :
    y = .ok b ↔ ∃ a, x = .ok a ∧ b = k a := by
  cases related with
  | error e e' => simp
  | ok ab =>
    subst ab
    simp only [Except.ok.injEq, exists_eq_left', eq_comm]

end Related

/-- Related computations that succeed if `p` holds. -/
structure RelatedIf (p : Prop) (R : α → α' → Prop) (x : Except ε α) (y : Except ε' α') : Prop where
  related : Related R x y
  succeeds : p → ∃ a, x = .ok a

namespace RelatedIf

variable {p q : Prop} {x : Except ε α} {y : Except ε' α'}

theorem mono {R' : α → α' → Prop} (first : RelatedIf p R x y) (given : q → p)
    (h : ∀ a b, R a b → R' a b) : RelatedIf q R' x y :=
  ⟨first.related.mono h, fun hq => first.succeeds (given hq)⟩

theorem ok {a : α} {b : α'} (h : R a b) :
    RelatedIf p R (.ok a : Except ε α) (.ok b : Except ε' α') :=
  ⟨.ok h, fun _ => ⟨a, rfl⟩⟩

theorem bind {f : α → Except ε β} {f' : α' → Except ε' β'} (first : RelatedIf p R x y)
    (next : ∀ a b, R a b → RelatedIf p S (f a) (f' b)) : RelatedIf p S (x >>= f) (y >>= f') := by
  refine ⟨first.related.bind fun a b ab => (next a b ab).related, ?_⟩
  intro given
  obtain ⟨a, rfl⟩ := first.succeeds given
  cases first.related with
  | ok ab => exact (next a _ ab).succeeds given

theorem mapError {ε₁ ε₁' : Type} {g : ε → ε₁} {g' : ε' → ε₁'} (first : RelatedIf p R x y) :
    RelatedIf p R (x.mapError g) (y.mapError g') := by
  refine ⟨first.related.mapError, ?_⟩
  intro given
  obtain ⟨a, rfl⟩ := first.succeeds given
  exact ⟨a, rfl⟩

end RelatedIf
end Forecast

import Forecast.Fault

/-!
# Notices

A notice is a remark that does not stop a run. `Logged` is a computation that
makes notices and may fail; the notices made before a fault are kept.
-/

namespace Forecast

open Text (quoted)

/-- A remark about something that was ignored. -/
inductive Notice
  | rejectedFlag (value : Value) (output field : String)
  | rejectedNumber (value : Value) (output field : String)
  | unknownInline (key output kind : String)
  | monthOutOfRange (output channel : String) (month : Value)
  | unknownDestination (destination output channel kind template : String)
  | unknownItem (code user : String)

def Notice.text : Notice → String
  | rejectedFlag value output field =>
    "Ignoring non-boolean inline value " ++ value.display ++ " for " ++ output ++ "." ++ field
  | rejectedNumber value output field =>
    "Ignoring non-numeric inline value " ++ value.display ++ " for " ++ output ++ "." ++ field
  | unknownInline key output kind =>
    "Unknown inline assumption " ++ quoted key ++ " on " ++ output ++ " (" ++ kind ++ ")"
  | monthOutOfRange output channel month =>
    "Ignoring override " ++ output ++ "." ++ channel ++ "[" ++ month.display ++
      "]: month out of range"
  | unknownDestination destination output channel kind template =>
    "Destination " ++ quoted destination ++ " of " ++ output ++ "." ++ channel ++ " (" ++ kind ++
      ") is not in template " ++ quoted template ++ "; skipped"
  | unknownItem code user =>
    "Unknown line item " ++ quoted code ++ " referenced by " ++ user ++ "; using zeros"

/-- Notices for what fails a test, one by one or all at once. -/
theorem flatMap_notices {α : Type} (p : α → Prop) [DecidablePred p] (f : α → Notice) (l : List α) :
    (l.flatMap fun a => if p a then [] else [f a]) = (l.filter fun a => ¬p a).map f := by
  induction l with
  | nil => rfl
  | cons a l ih =>
    rw [List.flatMap_cons, ih]
    by_cases h : p a <;> simp [h]

/-- A computation that makes notices and may fail. -/
structure Logged (α : Type) where
  notices : List Notice
  outcome : Except Fault α

namespace Logged

variable {α β : Type}

/-- Goes on from a result; a fault ends the computation. -/
def andThen (x : Logged α) (f : α → Logged β) : Logged β :=
  match x.outcome with
  | .ok a => ⟨x.notices ++ (f a).notices, (f a).outcome⟩
  | .error fault => ⟨x.notices, .error fault⟩

instance : Monad Logged where
  pure a := ⟨[], .ok a⟩
  bind := andThen

instance : MonadLift (Except Fault) Logged := ⟨fun outcome => ⟨[], outcome⟩⟩

instance : MonadExceptOf Fault Logged where
  throw fault := ⟨[], .error fault⟩
  tryCatch x handle :=
    match x.outcome with
    | .ok _ => x
    | .error fault => ⟨x.notices ++ (handle fault).notices, (handle fault).outcome⟩

def note (n : Notice) : Logged Unit :=
  ⟨[n], .ok ()⟩

@[simp] theorem notices_pure (a : α) : (pure a : Logged α).notices = [] := rfl

@[simp] theorem outcome_pure (a : α) : (pure a : Logged α).outcome = .ok a := rfl

theorem outcome_bind (x : Logged α) (f : α → Logged β) :
    (x >>= f).outcome = x.outcome >>= fun a => (f a).outcome := by
  obtain ⟨ns, outcome⟩ := x
  cases outcome <;> rfl

theorem ok_bind (notices : List Notice) (a : α) (f : α → Logged β) :
    (⟨notices, .ok a⟩ : Logged α) >>= f = ⟨notices ++ (f a).notices, (f a).outcome⟩ :=
  rfl

@[simp] theorem outcome_lift (x : Except Fault α) : (x : Logged α).outcome = x := rfl

theorem outcome_foldlM {σ : Type} (f : σ → α → Logged σ) (l : List α) (s : σ) :
    (l.foldlM f s).outcome = l.foldlM (fun s a => (f s a).outcome) s := by
  induction l generalizing s with
  | nil => rfl
  | cons a l ih => simp only [List.foldlM_cons, outcome_bind, ih]

theorem outcome_forM (f : α → Notice) (l : List α) :
    (l.forM fun a => note (f a)).outcome = .ok () := by
  induction l with
  | nil => rfl
  | cons a l ih => rw [List.forM_eq_forM, List.forM_cons, outcome_bind]; exact ih

theorem forM_note (ns : List Notice) : ns.forM note = ⟨ns, .ok ()⟩ := by
  induction ns with
  | nil => rfl
  | cons n ns ih =>
    rw [List.forM_eq_forM] at ih ⊢
    rw [List.forM_cons, ih]
    rfl

theorem outcome_forM_note (ns : List Notice) : (ns.forM note).outcome = .ok () := by
  rw [forM_note]

theorem notices_bind_ok {x : Logged α} {a : α} (f : α → Logged β) (h : x.outcome = .ok a) :
    (x >>= f).notices = x.notices ++ (f a).notices := by
  obtain ⟨ns, outcome⟩ := x
  cases h
  rfl

theorem notices_forM (f : α → Notice) (l : List α) :
    (l.forM fun a => note (f a)).notices = l.map f := by
  induction l with
  | nil => rfl
  | cons a l ih =>
    rw [List.forM_eq_forM] at ih ⊢
    rw [List.forM_cons, notices_bind_ok _ (a := ()) rfl, ih]
    rfl

/-- Steps that succeed and keep an invariant make the notices of each step, in order. The invariant
may tell which steps have been made. -/
theorem exists_foldlM {σ : Type} {f : σ → α → Logged σ} {notes : α → List Notice}
    {P : List α → σ → Prop} {l : List α}
    (step : ∀ made, ∀ a ∈ l, ∀ s, P made s → ∃ s', f s a = ⟨notes a, .ok s'⟩ ∧ P (made ++ [a]) s')
    (made : List α) {s : σ} (start : P made s) :
    ∃ s', l.foldlM f s = ⟨l.flatMap notes, .ok s'⟩ ∧ P (made ++ l) s' := by
  induction l generalizing made s with
  | nil => exact ⟨s, rfl, by simpa using start⟩
  | cons a l ih =>
    obtain ⟨next, first, kept⟩ := step made a (by simp) s start
    obtain ⟨last, rest, kept⟩ :=
      ih (fun made b hb => step made b (List.mem_cons_of_mem _ hb)) _ kept
    refine ⟨last, ?_, by simpa using kept⟩
    rw [List.foldlM_cons, first, ok_bind, rest, List.flatMap_cons]

instance : LawfulMonad Logged := LawfulMonad.mk' Logged
  (by
    intro α x
    obtain ⟨ns, outcome⟩ := x
    cases outcome <;> simp [Functor.map, andThen])
  (by
    intro α β a f
    rfl)
  (by
    intro α β γ x f g
    obtain ⟨ns, outcome⟩ := x
    cases outcome with
    | error fault => rfl
    | ok a =>
      simp only [bind, andThen]
      cases (f a).outcome <;> simp)

theorem outcome_mapM (f : α → Logged β) (l : List α) :
    (l.mapM f).outcome = l.mapM fun a => (f a).outcome := by
  induction l with
  | nil => rfl
  | cons a l ih =>
    rw [List.mapM_cons, List.mapM_cons, outcome_bind]
    congr 1
    funext b
    rw [outcome_bind, ih]
    rfl

end Logged
end Forecast

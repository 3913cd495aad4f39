import Forecast.Proofs.Assumption.Edited
import Forecast.Proofs.Assumption.Placed

/-!
# Edits in steps

An edit of several parts does what edits of the single parts do one after
another. What carries this is that the parts of a checked raw assumption are read
as they are when they are checked again: a part that an edit leaves alone stays
as it is, however many edits there are. An edit of one place of a list puts one
entry in position; the other entries, and all other parts, stay as they are.
-/

namespace Forecast

open Outcome

/-! ## Parts that are checked again -/

namespace Raw

theorem optional_listValue (ys : Option (List (Option Float))) :
    optional entryList (listValue ys) = .ok ys := by
  cases ys with
  | none => rfl
  | some ys =>
    have each (y : Option Float) : entry (entryValue y) = .ok y := by cases y <;> rfl
    have entries : entryList (.list (ys.map entryValue)) = .ok ys :=
      mapM_eq_ok.2 (List.forall₂_map_left_iff.2 (List.forall₂_same.2 fun y _ => each y))
    exact map_eq_ok.2 ⟨ys, entries, rfl⟩

variable {r r' : Raw}

theorem WellFormed.optional_growth (h : r.WellFormed) :
    optional growthRate (entryValue r.growth) = .ok r.growth := by
  cases rate : r.growth with
  | none => rfl
  | some rate' =>
    have checked : growthRate (.float rate') = .ok rate' := check_eq_ok.2 ⟨h.growth rate' rate, rfl⟩
    exact map_eq_ok.2 ⟨rate', checked, rfl⟩

theorem WellFormed.optional_seasonal (h : r.WellFormed) :
    optional seasonalFactors (listValue (r.seasonal.map (·.map some))) = .ok r.seasonal := by
  cases seasonal : r.seasonal with
  | none => rfl
  | some factors =>
    have numbers : ((factors.map some).map entryValue).mapM
        (fun v => (do return ← v.toFloat : Except Fault Float)) = .ok factors := by
      rw [List.map_map]
      exact mapM_eq_ok.2 (List.forall₂_map_left_iff.2 (List.forall₂_same.2 fun _ _ => rfl))
    have checked : seasonalFactors (.list ((factors.map some).map entryValue)) = .ok factors := by
      refine bind_eq_ok.2 ⟨_, rfl, bind_eq_ok.2 ⟨factors, numbers, ?_⟩⟩
      exact check_eq_ok.2 ⟨not_not.2 (h.seasonal factors seasonal), rfl⟩
    exact map_eq_ok.2 ⟨factors, checked, rfl⟩

theorem WellFormed.optional_dateRange (h : r.WellFormed) :
    optional dateRangeOf (rangeValue r.dateRange) = .ok r.dateRange := by
  obtain dated | ⟨first, last, dated⟩ :
      r.dateRange = none ∨ ∃ first last, r.dateRange = some (first, last) := by
    cases r.dateRange with
    | none => exact .inl rfl
    | some range => exact .inr ⟨range.1, range.2, rfl⟩
  · rw [dated]
    rfl
  · have start := h.start first last dated
    rw [dated]
    cases last with
    | none =>
      have valid : ¬(first < 0 ∨ (none : Option Int).any (· < first)) := by simpa using start
      exact map_eq_ok.2 ⟨(first, none), check_eq_ok.2 ⟨valid, rfl⟩, rfl⟩
    | some last =>
      have valid : ¬(first < 0 ∨ (some last).any (· < first)) := by
        simpa using ⟨start, h.stop first last dated⟩
      exact map_eq_ok.2 ⟨(first, some last), check_eq_ok.2 ⟨valid, rfl⟩, rfl⟩

/-! ## The parts of an edit -/

/-- A raw assumption with an edited part, checked as a whole. -/
def edited (r : Raw) (e : Edit) : Except Fault Raw := do
  let parts ← e.apply r.parts
  ofParts parts

/-- Each part of an edited raw assumption is read from what the edit says of this part, or else from
the part as it was. -/
theorem edited_eq (r : Raw) (e : Edit) :
    r.edited e = do
      let annual ← placeEdited (e.annual.getD (listValue r.annual)) e.annualPlace
      let monthly ← placeEdited (e.monthly.getD (listValue r.monthly)) e.monthlyPlace
      let annual ← annual
      let monthly ← monthly
      let growth ← optional growthRate (e.growth.getD (entryValue r.growth))
      let seasonal ← optional seasonalFactors
        (e.seasonal.getD (listValue (r.seasonal.map (·.map some))))
      let dateRange ← optional dateRangeOf (e.dateRange.getD (rangeValue r.dateRange))
      return {
        single := e.single.getD r.single
        annual
        growth
        monthly
        smoothing := (e.smoothing.getD (.bool r.smoothing)).holds
        dateRange
        seasonal } := by
  unfold edited Edit.apply placeEdited ofParts
  simp only [parts]
  cases editPlace (e.annual.getD (listValue r.annual)) e.annualPlace with
  | error fault => rfl
  | ok annual =>
    cases editPlace (e.monthly.getD (listValue r.monthly)) e.monthlyPlace with
    | error fault => rfl
    | ok monthly => rfl

theorem wellFormed_of_edited {e : Edit} (h : r.edited e = .ok r') : r'.WellFormed := by
  obtain ⟨_, -, checked⟩ := bind_eq_ok.1 h
  exact wellFormed_of_ofParts checked

end Raw

theorem Assumption.edited_eq (x : Assumption) (e : Edit) (months : Nat) :
    x.edited e months = x.raw.edited e >>= fun raw => of x.spec raw months := by
  simp only [edited, Raw.edited, bind_assoc]

/-! ## Edits one after another -/

namespace Edit

/-- Two edits as one; where both change a part, the second one does. -/
def followedBy (e e' : Edit) : Edit where
  single := e'.single.or e.single
  annual := e'.annual.or e.annual
  annualPlace := e'.annualPlace.or e.annualPlace
  growth := e'.growth.or e.growth
  monthly := e'.monthly.or e.monthly
  monthlyPlace := e'.monthlyPlace.or e.monthlyPlace
  smoothing := e'.smoothing.or e.smoothing
  dateRange := e'.dateRange.or e.dateRange
  seasonal := e'.seasonal.or e.seasonal

/-- An edit that changes no list in which an earlier one has put an entry in position. -/
structure Precedes (e e' : Edit) : Prop where
  annual : e.annualPlace = .none ∨ e'.annual = .none ∧ e'.annualPlace = .none
  monthly : e.monthlyPlace = .none ∨ e'.monthly = .none ∧ e'.monthlyPlace = .none

theorem Precedes.followedBy {e e' e'' : Edit} (first : e.Precedes e'') (second : e'.Precedes e'') :
    (e.followedBy e').Precedes e'' := by
  constructor
  · rcases first.annual with unset | alone
    · rcases second.annual with unset' | alone
      · exact .inl (by simp [Edit.followedBy, unset, unset'])
      · exact .inr alone
    · exact .inr alone
  · rcases first.monthly with unset | alone
    · rcases second.monthly with unset' | alone
      · exact .inl (by simp [Edit.followedBy, unset, unset'])
      · exact .inr alone
    · exact .inr alone

theorem Precedes.foldl {e e' : Edit} {es : List Edit} (first : e.Precedes e')
    (each : ∀ d ∈ es, d.Precedes e') : (es.foldl Edit.followedBy e).Precedes e' := by
  induction es generalizing e with
  | nil => exact first
  | cons d es ih => exact ih (first.followedBy (each d (by simp))) fun d hd => each d (by simp [hd])

end Edit

namespace Raw

variable {r r' : Raw} {e e' : Edit}

/-- A list that has been edited, and is edited again, is edited as by both edits together. -/
theorem placeEdited_followedBy {old : Value} {whole whole' : Option Value}
    {place place' : Option (Int × Value)} {ys : Option (List (Option Float))}
    (h : placeEdited (whole.getD old) place = .ok (.ok ys))
    (precedes : place = none ∨ whole' = none ∧ place' = none) :
    placeEdited (whole'.getD (listValue ys)) place' =
      placeEdited ((whole'.or whole).getD old) (place'.or place) := by
  cases whole' with
  | some part =>
    rcases precedes with rfl | ⟨replaced, -⟩
    · simp
    · cases replaced
  | none =>
    cases place' with
    | none => exact (congrArg Except.ok (optional_listValue ys)).trans h.symm
    | some change =>
      rcases precedes with rfl | ⟨-, changed⟩
      · have read : optional entryList (whole.getD old) = .ok ys := Except.ok.inj h
        simp only [Option.getD_none, Option.none_or, Option.some_or]
        rw [placeEdited_some (optional_listValue ys), placeEdited_some read]
      · cases changed

theorem optional_followedBy {α : Type} {read : Value → Except Fault α} {old new : Value}
    {x : Option α}
    {change : Option Value} (h : optional read (change.getD old) = .ok x)
    (again : optional read new = .ok x) (change' : Option Value) :
    optional read (change'.getD new) = optional read ((change'.or change).getD old) := by
  cases change' with
  | none => exact again.trans h.symm
  | some part => rfl

/-- An edit after another one is both edits together. -/
theorem edited_followedBy (h : r.edited e = .ok r') (precedes : e.Precedes e') :
    r'.edited e' = r.edited (e.followedBy e') := by
  have wellFormed := wellFormed_of_edited h
  rw [edited_eq] at h
  simp only [bind_eq_ok, pure_eq_ok] at h
  obtain ⟨_, hannual, _, hmonthly, annual, rfl, monthly, rfl, growth, hgrowth, seasonal, hseasonal,
    dateRange, hdateRange, rfl⟩ := h
  have smoothing : (e'.smoothing.getD (.bool (e.smoothing.getD (.bool r.smoothing)).holds)).holds =
      ((e'.smoothing.or e.smoothing).getD (.bool r.smoothing)).holds := by
    cases e'.smoothing <;> rfl
  rw [edited_eq, edited_eq]
  simp only [Edit.followedBy, placeEdited_followedBy hannual precedes.annual,
    placeEdited_followedBy hmonthly precedes.monthly,
    optional_followedBy hgrowth wellFormed.optional_growth,
    optional_followedBy hseasonal wellFormed.optional_seasonal,
    optional_followedBy hdateRange wellFormed.optional_dateRange, smoothing, Option.getD_or]

end Raw

theorem Assumption.edited_congr {x x' : Assumption} {e e' : Edit} (spec : x.spec = x'.spec)
    (raw : x.raw.edited e = x'.raw.edited e') (months : Nat) :
    x.edited e months = x'.edited e' months := by
  rw [edited_eq, edited_eq, spec, raw]

namespace Edit

inductive Part
  | single | annual | annualPlace | growth | monthly | monthlyPlace | smoothing | dateRange
  | seasonal
deriving DecidableEq

def Part.all : List Part :=
  [single, annual, annualPlace, growth, monthly, monthlyPlace, smoothing, dateRange, seasonal]

def changes (e : Edit) : Part → Bool
  | .single => e.single.isSome
  | .annual => e.annual.isSome
  | .annualPlace => e.annualPlace.isSome
  | .growth => e.growth.isSome
  | .monthly => e.monthly.isSome
  | .monthlyPlace => e.monthlyPlace.isSome
  | .smoothing => e.smoothing.isSome
  | .dateRange => e.dateRange.isSome
  | .seasonal => e.seasonal.isSome

def only (e : Edit) : Part → Edit
  | .single => { none with single := e.single }
  | .annual => { none with annual := e.annual }
  | .annualPlace => { none with annualPlace := e.annualPlace }
  | .growth => { none with growth := e.growth }
  | .monthly => { none with monthly := e.monthly }
  | .monthlyPlace => { none with monthlyPlace := e.monthlyPlace }
  | .smoothing => { none with smoothing := e.smoothing }
  | .dateRange => { none with dateRange := e.dateRange }
  | .seasonal => { none with seasonal := e.seasonal }

/-- The changes that an edit makes, each as an edit of one part. -/
def singles (e : Edit) : List Edit :=
  (Part.all.filter e.changes).map e.only

theorem followedBy_none (e : Edit) : e.followedBy none = e := by
  simp [followedBy, none]

theorem none_followedBy (e : Edit) : none.followedBy e = e := by
  simp [followedBy, none]

theorem only_eq_none {e : Edit} {part : Part} (h : e.changes part = false) :
    e.only part = none := by
  cases part <;> simp_all [changes, only, none]

theorem foldl_only (e acc : Edit) (parts : List Part) :
    ((parts.filter e.changes).map e.only).foldl followedBy acc =
      parts.foldl (fun acc part => acc.followedBy (e.only part)) acc := by
  induction parts generalizing acc with
  | nil => rfl
  | cons part parts ih =>
    rw [List.foldl_cons, ← ih]
    cases changed : e.changes part with
    | true => rw [List.filter_cons_of_pos changed, List.map_cons, List.foldl_cons]
    | false => rw [List.filter_cons_of_neg (by simp [changed]), only_eq_none changed,
        followedBy_none]

theorem foldl_singles (e : Edit) : e.singles.foldl followedBy none = e := by
  rw [singles, foldl_only]
  simp [Part.all, only, followedBy, none]

/-- A part after which another one may be changed: the whole list, or one place of it, is not
changed after a place. -/
def Part.Precedes (part part' : Part) : Prop :=
  (part = .annualPlace → part' ≠ .annual ∧ part' ≠ .annualPlace) ∧
    (part = .monthlyPlace → part' ≠ .monthly ∧ part' ≠ .monthlyPlace)

instance (part part' : Part) : Decidable (part.Precedes part') :=
  inferInstanceAs (Decidable (_ ∧ _))

theorem Part.Precedes.only {part part' : Part} (h : part.Precedes part') (e : Edit) :
    (e.only part).Precedes (e.only part') := by
  constructor
  · cases part with
    | annualPlace =>
      obtain ⟨whole, place⟩ := h.1 rfl
      cases part' <;> first | exact .inr ⟨rfl, rfl⟩ | contradiction
    | _ => exact .inl rfl
  · cases part with
    | monthlyPlace =>
      obtain ⟨whole, place⟩ := h.2 rfl
      cases part' <;> first | exact .inr ⟨rfl, rfl⟩ | contradiction
    | _ => exact .inl rfl

/-- The order of the parts keeps what is changed last. -/
theorem pairwise_singles (e : Edit) : e.singles.Pairwise Precedes := by
  have ordered : Part.all.Pairwise Part.Precedes := by decide
  exact List.pairwise_map.2 ((ordered.filter _).imp fun h => h.only e)

end Edit

/-! ## Edits of assumptions -/

namespace Assumptions

variable {a b c : Assumptions} {t : Target} {x : Assumption} {e e' e'' : Edit} {months : Nat}

/-- An edit at a place to which an assumption has been written edits this assumption. -/
theorem editAt_set (known : a.find? t = some x) (y : Assumption) (e : Edit) (months : Nat) :
    (a.set t y).editAt t e months = (y.edited e months).map (a.set t) := by
  have known' : (a.set t y).find? t = some y := by rw [find?_set known, if_pos rfl]
  rw [editAt_eq known']
  cases y.edited e months with
  | error fault => rfl
  | ok z => exact congrArg Except.ok (set_set a t y z)

theorem editAt_ok (known : a.find? t = some x) (h : a.editAt t e months = .ok b) :
    ∃ y, b = a.set t y ∧ y.spec = x.spec ∧ x.raw.edited e = .ok y.raw := by
  rw [editAt_eq known, map_eq_ok] at h
  obtain ⟨y, edited, rfl⟩ := h
  rw [Assumption.edited_eq] at edited
  obtain ⟨r, raw, valued⟩ := bind_eq_ok.1 edited
  obtain ⟨spec, rfl, -⟩ := Assumption.of_ok valued
  exact ⟨y, rfl, spec, raw⟩

/-- Two edits at one place, one after the other, are one edit if they are one of the raw part. -/
theorem editAt_congr (known : a.find? t = some x) (h : a.editAt t e months = .ok b)
    (raw : ∀ r, x.raw.edited e = .ok r → r.edited e' = x.raw.edited e'') :
    b.editAt t e' months = a.editAt t e'' months := by
  obtain ⟨y, rfl, spec, edited⟩ := editAt_ok known h
  rw [editAt_set known, editAt_eq known, Assumption.edited_congr spec (raw _ edited)]

theorem editAt_followedBy (h : a.editAt t e months = .ok b) (precedes : e.Precedes e') :
    b.editAt t e' months = a.editAt t (e.followedBy e') months := by
  obtain ⟨x, -, known, -, -⟩ := editAt_eq_ok.1 h
  exact editAt_congr known h fun _ edited => Raw.edited_followedBy edited precedes

theorem editAt_foldl {es : List Edit} (first : a.editAt t e months = .ok b)
    (ordered : (e :: es).Pairwise Edit.Precedes)
    (h : es.foldlM (fun a e => a.editAt t e months) b = .ok c) :
    a.editAt t (es.foldl Edit.followedBy e) months = .ok c := by
  induction es generalizing e b with
  | nil =>
    cases h
    exact first
  | cons e' es ih =>
    rw [List.foldlM_cons, bind_eq_ok] at h
    obtain ⟨b', second, h⟩ := h
    obtain ⟨precedes, ordered⟩ := List.pairwise_cons.1 ordered
    rw [editAt_followedBy first (precedes e' (by simp))] at second
    refine ih second (List.pairwise_cons.2 ⟨?_, (List.pairwise_cons.1 ordered).2⟩) h
    intro e'' later
    exact (precedes e'' (by simp [later])).followedBy ((List.pairwise_cons.1 ordered).1 e'' later)

/-- An edit of several parts does what the edit of its last part does after the edits of the others,
one after another. -/
theorem editAt_of_singles {init : List Edit} {last : Edit} (parts : e.singles = init ++ [last])
    (h : init.foldlM (fun a e => a.editAt t e months) a = .ok b) :
    a.editAt t e months = b.editAt t last months := by
  have whole := e.foldl_singles
  have ordered := e.pairwise_singles
  rw [parts] at whole ordered
  rw [List.foldl_append, List.foldl_cons, List.foldl_nil] at whole
  cases init with
  | nil =>
    cases h
    rw [← whole, List.foldl_nil, Edit.none_followedBy]
  | cons first init =>
    rw [List.foldl_cons, Edit.none_followedBy] at whole
    rw [List.foldlM_cons, bind_eq_ok] at h
    obtain ⟨b', hb', h⟩ := h
    obtain ⟨ordered, -, precedes⟩ := List.pairwise_append.1 ordered
    have together : a.editAt t (init.foldl Edit.followedBy first) months = .ok b :=
      editAt_foldl hb' ordered h
    have before : (init.foldl Edit.followedBy first).Precedes last :=
      .foldl (precedes first (by simp) last (by simp)) fun e he =>
        precedes e (by simp [he]) last (by simp)
    rw [editAt_followedBy together before, whole]

end Assumptions

end Forecast

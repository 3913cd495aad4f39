import Forecast.Proofs.Assumption.Monthly
import Forecast.Proofs.Assumption.Stepwise

/-!
# Edits of single entries

The entries of a raw assumption stand in two lists, one by year and one by month.
An edit of one entry puts it in position, and leaves everything else of the raw
assumption as it is. Whether the assumption still has a value depends on where
its amounts start: the single value, the rate of growth, and the first year.
-/

namespace Forecast

open Outcome

/-- The lists of a raw assumption: one entry for each year, or for each month. -/
inductive ListPart
  | annual
  | monthly

namespace ListPart

def edit (part : ListPart) (place : Int) (v : Value) : Edit :=
  match part with
  | annual => { Edit.none with annualPlace := some (place, v) }
  | monthly => { Edit.none with monthlyPlace := some (place, v) }

def entries (part : ListPart) (r : Raw) : List (Option Float) :=
  match part with
  | annual => r.annual.getD []
  | monthly => r.monthly.getD []

def write (part : ListPart) (new : List (Option Float)) (r : Raw) : Raw :=
  match part with
  | annual => { r with annual := some new }
  | monthly => { r with monthly := some new }

/-- A raw assumption with an entry put in the position of a place. -/
def put (part : ListPart) (place : Int) (y : Option Float) (r : Raw) : Raw :=
  part.write (putAt none (position (part.entries r).length place) y (part.entries r)) r

@[simp] theorem entries_write (part : ListPart) (new : List (Option Float)) (r : Raw) :
    part.entries (part.write new r) = new := by
  cases part <;> rfl

@[simp] theorem write_write (part : ListPart) (new new' : List (Option Float)) (r : Raw) :
    part.write new' (part.write new r) = part.write new' r := by
  cases part <;> rfl

variable {part : ListPart} {place i j : Int} {y z : Option Float} {r : Raw}

theorem length_entries_put (part : ListPart) (place : Int) (y : Option Float) (r : Raw) :
    (part.entries (part.put place y r)).length =
      max (part.entries r).length (position (part.entries r).length place + 1) := by
  rw [put, entries_write, length_putAt]

theorem put_put (inside : -((part.entries r).length : Int) ≤ place) (y z : Option Float) :
    part.put place z (part.put place y r) = part.put place z r := by
  have same : position (part.entries (part.put place y r)).length place =
      position (part.entries r).length place := by
    by_cases nonneg : 0 ≤ place
    · rw [position_of_nonneg nonneg, position_of_nonneg nonneg]
    · have := position_lt_of_neg (Int.not_le.1 nonneg) inside
      rw [length_entries_put, Nat.max_eq_left this]
  rw [put, same, put, entries_write, write_write, putAt_putAt, put]

theorem put_of_nonneg (h : 0 ≤ place) (y : Option Float) (r : Raw) :
    part.put place y r = part.write (putAt none place.toNat y (part.entries r)) r := by
  rw [put, position_of_nonneg h]

theorem put_comm (hi : 0 ≤ i) (hj : 0 ≤ j) (ne : i ≠ j) (y z : Option Float) (r : Raw) :
    part.put j z (part.put i y r) = part.put i y (part.put j z r) := by
  simp only [put_of_nonneg hi, put_of_nonneg hj, entries_write, write_write]
  rw [putAt_comm (by omega)]

end ListPart

namespace Raw

variable {r r' : Raw} {part : ListPart} {place i j : Int} {v w : Value}

theorem WellFormed.put (h : r.WellFormed) (part : ListPart) (place : Int) (y : Option Float) :
    (part.put place y r).WellFormed := by
  cases part <;> exact ⟨h.seasonal, h.growth, h.start, h.stop⟩

/-- An edit of one entry puts it in position, or there is no such place. -/
theorem WellFormed.edited_entry (h : r.WellFormed) (part : ListPart) (place : Int) (v : Value) :
    r.edited (part.edit place v) =
      if place < -((part.entries r).length : Int) then .error (.edit .indexOutOfRange)
      else (entry v).map fun y => part.put place y r := by
  have kept (ys : Option (List (Option Float))) : placeEdited (listValue ys) none = .ok (.ok ys) :=
    congrArg Except.ok (optional_listValue ys)
  have edited := placeEdited_some (optional_listValue r.annual) place v
  have edited' := placeEdited_some (optional_listValue r.monthly) place v
  rw [edited_eq]
  cases part with
  | annual =>
    simp only [ListPart.edit, Edit.none, Option.getD_none, edited,
      kept, h.optional_growth, h.optional_seasonal, h.optional_dateRange]
    by_cases outside : place < -((r.annual.getD []).length : Int)
    · rw [if_pos outside,
        if_pos (show place < -((ListPart.annual.entries r).length : Int) from outside)]
      rfl
    · rw [if_neg outside,
        if_neg (show ¬place < -((ListPart.annual.entries r).length : Int) from outside)]
      cases entry v <;> rfl
  | monthly =>
    simp only [ListPart.edit, Edit.none, Option.getD_none, edited',
      kept, h.optional_growth, h.optional_seasonal, h.optional_dateRange]
    by_cases outside : place < -((r.monthly.getD []).length : Int)
    · rw [if_pos outside,
        if_pos (show place < -((ListPart.monthly.entries r).length : Int) from outside)]
      rfl
    · rw [if_neg outside,
        if_neg (show ¬place < -((ListPart.monthly.entries r).length : Int) from outside)]
      cases entry v <;> rfl

theorem WellFormed.edited_entry_eq_ok (h : r.WellFormed) :
    r.edited (part.edit place v) = .ok r' ↔
      -((part.entries r).length : Int) ≤ place ∧ ∃ y, entry v = .ok y ∧
        part.put place y r = r' := by
  rw [h.edited_entry]
  split
  · rename_i outside
    simp [Int.not_le.2 outside]
  · rename_i inside
    rw [map_eq_ok, and_iff_right (Int.not_lt.1 inside)]

theorem edited_entry_again (wellFormed : r.WellFormed) (h : r.edited (part.edit place v) = .ok r')
    (w : Value) : r'.edited (part.edit place w) = r.edited (part.edit place w) := by
  obtain ⟨inside, y, -, rfl⟩ := wellFormed.edited_entry_eq_ok.1 h
  have inside' : -((part.entries (part.put place y r)).length : Int) ≤ place := by
    rw [part.length_entries_put]
    omega
  rw [(wellFormed.put ..).edited_entry, wellFormed.edited_entry, if_neg (Int.not_lt.2 inside),
    if_neg (Int.not_lt.2 inside')]
  simp only [ListPart.put_put inside]

/-- Edits of two entries that both succeed are followed by the other one alike. -/
theorem edited_entry_comm {r'' : Raw} (wellFormed : r.WellFormed) (hi : 0 ≤ i) (hj : 0 ≤ j)
    (ne : i ≠ j)
    (first : r.edited (part.edit i v) = .ok r') (second : r.edited (part.edit j w) = .ok r'') :
    r'.edited (part.edit j w) = r''.edited (part.edit i v) := by
  obtain ⟨-, y, hy, rfl⟩ := wellFormed.edited_entry_eq_ok.1 first
  obtain ⟨-, z, hz, rfl⟩ := wellFormed.edited_entry_eq_ok.1 second
  rw [(wellFormed.put ..).edited_entry, (wellFormed.put ..).edited_entry, if_neg (by omega),
    if_neg (by omega), hy, hz]
  exact congrArg Except.ok (ListPart.put_comm hi hj ne y z r)

/-! ## Where amounts start -/

/-- Two raw assumptions whose amounts start alike. -/
structure StartsAlike (r r' : Raw) : Prop where
  single : r'.single = r.single
  growth : r'.growth = r.growth
  firstYear : r'.firstYear = r.firstYear

/-- A series from where amounts start is one from where others start alike, if the years are the
same, or there is at least one. -/
theorem StartsAlike.exists_baseSeries {spec : FieldSpec} {months : Nat} {xs : Series Float}
    (alike : StartsAlike r r')
    (years : r'.annual = r.annual ∨ ∃ year rest, r'.annual = some (year :: rest))
    (h : baseSeries spec r months = .ok xs) : ∃ xs', baseSeries spec r' months = .ok xs' := by
  unfold baseSeries at h ⊢
  simp only [baseAmount_eq_firstSet, steadyAmount_eq_firstSet, alike.single, alike.growth,
    alike.firstYear] at h ⊢
  cases growth : if spec.supports.growth then r.growth else none with
  | some rate =>
    simp only [growth] at h ⊢
    obtain ⟨base, hbase, -⟩ := bind_eq_ok.1 h
    exact ⟨_, bind_eq_ok.2 ⟨base, hbase, rfl⟩⟩
  | none =>
    simp only [growth] at h ⊢
    cases supported : spec.supports.annual with
    | false =>
      simp only [supported] at h ⊢
      exact ⟨xs, h⟩
    | true =>
      simp only [supported, if_true] at h ⊢
      rcases years with same | ⟨year, rest, years⟩
      · rw [same]
        generalize r.annual = years at h ⊢
        obtain _ | _ | ⟨year, rest⟩ := years
        · exact ⟨xs, h⟩
        · exact ⟨xs, h⟩
        · exact ⟨_, rfl⟩
      · rw [years]
        exact ⟨_, rfl⟩

theorem StartsAlike.exists_value {spec : FieldSpec} {months : Nat} {u : FieldValue}
    (alike : StartsAlike r r')
    (years : r'.annual = r.annual ∨ ∃ year rest, r'.annual = some (year :: rest))
    (h : r.value spec months = .ok u) : ∃ u', r'.value spec months = .ok u' := by
  unfold value at h ⊢
  cases base : spec.baseType with
  | boolean => exact ⟨_, rfl⟩
  | number =>
    simp only [base] at h
    obtain ⟨xs, hxs, -⟩ := map_eq_ok.1 h
    obtain ⟨start, hstart, -⟩ := bind_eq_ok.1 hxs
    obtain ⟨start', hstart'⟩ := alike.exists_baseSeries years hstart
    exact ⟨_, map_eq_ok.2 ⟨_, bind_eq_ok.2 ⟨start', hstart', rfl⟩, rfl⟩⟩

theorem firstYear_put {place : Int} (h : 0 ≤ place) (y : Option Float) (r : Raw) :
    (ListPart.annual.put place y r).firstYear = if place = 0 then entryValue y
      else r.firstYear := by
  have first : (putAt none place.toNat y (r.annual.getD []))[0]?.join =
      if place = 0 then y else (r.annual.bind (·[0]?)).join := by
    rw [getElem?_putAt]
    by_cases zero : place = 0
    · rw [if_pos zero, if_pos (by omega)]
      rfl
    · rw [if_neg zero, if_neg (by omega), if_pos (by omega)]
      obtain _ | _ | years := r.annual <;> rfl
  rw [ListPart.put_of_nonneg h]
  refine (congrArg entryValue first).trans ?_
  split <;> rfl

/-- If an assumption has a value, and has one after entries at two places have been put in position,
it has one after the first of them has. -/
theorem exists_value_put {spec : FieldSpec} {months : Nat} {u u' : FieldValue} {y z : Option Float}
    (hi : 0 ≤ i) (hj : 0 ≤ j) (ne : i ≠ j) (before : r.value spec months = .ok u)
    (after : (part.put i y (part.put j z r)).value spec months = .ok u') :
    ∃ v, (part.put j z r).value spec months = .ok v := by
  cases part with
  | monthly =>
    have alike : StartsAlike r (ListPart.monthly.put j z r) := ⟨rfl, rfl, rfl⟩
    exact alike.exists_value (.inl rfl) before
  | annual =>
    have years : ∃ year rest, (ListPart.annual.put j z r).annual = some (year :: rest) := by
      let es := ListPart.annual.entries r
      have long : 0 < (putAt none (position es.length j) z es).length := by
        rw [length_putAt]
        omega
      obtain ⟨year, rest, same⟩ := List.exists_cons_of_length_pos long
      exact ⟨year, rest, congrArg some same⟩
    by_cases first : j = 0
    · have alike : StartsAlike (ListPart.annual.put i y (ListPart.annual.put j z r))
          (ListPart.annual.put j z r) := ⟨rfl, rfl, by rw [firstYear_put hi, if_neg (by omega)]⟩
      exact alike.exists_value (.inr years) after
    · have alike : StartsAlike r (ListPart.annual.put j z r) :=
        ⟨rfl, rfl, by rw [firstYear_put hj, if_neg first]⟩
      exact alike.exists_value (.inr years) before

end Raw

namespace Assumptions

variable {a b c : Assumptions} {t : Target} {x : Assumption} {part : ListPart} {place i j : Int}
  {v w : Value} {months : Nat}

/-- An edit of one entry succeeds if there is such a place, the entry can be read, and the
assumption has a value with the entry in position. -/
theorem editAt_entry_eq_ok (known : a.find? t = some x) (wellFormed : x.raw.WellFormed) :
    a.editAt t (part.edit place v) months = .ok b ↔
      -((part.entries x.raw).length : Int) ≤ place ∧ ∃ y z, Raw.entry v = .ok y ∧
        Assumption.of x.spec (part.put place y x.raw) months = .ok z ∧ b = a.set t z := by
  rw [editAt_eq known, Assumption.edited_eq, map_eq_ok]
  constructor
  · rintro ⟨z, edited, rfl⟩
    obtain ⟨r, put, valued⟩ := bind_eq_ok.1 edited
    obtain ⟨inside, y, read, rfl⟩ := wellFormed.edited_entry_eq_ok.1 put
    exact ⟨inside, y, z, read, valued, rfl⟩
  · rintro ⟨inside, y, z, read, valued, rfl⟩
    exact ⟨z, bind_eq_ok.2 ⟨_, wellFormed.edited_entry_eq_ok.2 ⟨inside, y, read, rfl⟩, valued⟩, rfl⟩

/-- Two edits of different entries that succeed one after the other also do so in the other order,
with the same result. -/
theorem editAt_entry_comm (known : a.find? t = some x) (wellFormed : x.raw.WellFormed)
    (computed : ∃ n u, x.raw.value x.spec n = .ok u) (hi : 0 ≤ i) (hj : 0 ≤ j) (ne : i ≠ j)
    (h : (a.editAt t (part.edit i v) months >>= fun b =>
      b.editAt t (part.edit j w) months) = .ok c) :
    (a.editAt t (part.edit j w) months >>= fun b => b.editAt t (part.edit i v) months) = .ok c := by
  obtain ⟨b, first, second⟩ := bind_eq_ok.1 h
  obtain ⟨-, y, x', readV, valued, rfl⟩ := (editAt_entry_eq_ok known wellFormed).1 first
  obtain ⟨spec, raw, -⟩ := Assumption.of_ok valued
  have known' : (a.set t x').find? t = some x' := by rw [find?_set known, if_pos rfl]
  obtain ⟨-, z, x'', readW, valued', rfl⟩ :=
    (editAt_entry_eq_ok known' (raw ▸ wellFormed.put part i y)).1 second
  rw [spec, raw, ListPart.put_comm hi hj ne] at valued'
  -- In the other order, the assumption has a value in between.
  obtain ⟨n, u, start⟩ := computed
  obtain ⟨u', before⟩ := Raw.exists_value start months
  obtain ⟨-, -, after⟩ := Assumption.of_ok valued'
  obtain ⟨u'', between⟩ := Raw.exists_value_put hi hj ne before after
  let x₁ : Assumption := ⟨x.spec, part.put j z x.raw, u''⟩
  have valued₁ : Assumption.of x.spec (part.put j z x.raw) months = .ok x₁ :=
    bind_eq_ok.2 ⟨u'', mapError_eq_ok.2 between, rfl⟩
  have known₁ : (a.set t x₁).find? t = some x₁ := by rw [find?_set known, if_pos rfl]
  refine bind_eq_ok.2 ⟨a.set t x₁, ?_, ?_⟩
  · exact (editAt_entry_eq_ok known wellFormed).2 ⟨by omega, z, x₁, readW, valued₁, rfl⟩
  · refine (editAt_entry_eq_ok known₁ (wellFormed.put part j z)).2
      ⟨by omega, y, x'', readV, valued', ?_⟩
    rw [set_set, set_set]

/-- An edit of several parts does what the edits of these parts do one after another, in a fixed
order, as long as those before the last one succeed. An edit of one entry of a list stops if its
place lies before the list; otherwise it succeeds if the entry can be read and a value follows, and
then the entry is in position, the list is extended as far as needed, with gaps, and the other
entries and parts stay as they are. Of two edits of one entry the later one counts, and edits of
different entries, none of them counted from the end, give the same in either order. -/
theorem edits_in_steps (known : a.find? t = some x) (wellFormed : x.raw.WellFormed) (months : Nat) :
    (∀ e init last b, e.singles = init ++ [last] →
      init.foldlM (fun a e => a.editAt t e months) a = .ok b →
        a.editAt t e months = b.editAt t last months) ∧
    (∀ part place v, place < -((ListPart.entries part x.raw).length : Int) →
      a.editAt t (part.edit place v) months = .error (.edit .indexOutOfRange)) ∧
    (∀ part place v b, -((ListPart.entries part x.raw).length : Int) ≤ place →
      (a.editAt t (part.edit place v) months = .ok b ↔
        ∃ y new z, Raw.entry v = .ok y ∧ Placed (part.entries x.raw) place y new ∧
          Assumption.of x.spec (part.write new x.raw) months = .ok z ∧ b = a.set t z)) ∧
    (∀ (part : ListPart) place v w b, a.editAt t (part.edit place v) months = .ok b →
      b.editAt t (part.edit place w) months = a.editAt t (part.edit place w) months) ∧
    (∀ (part : ListPart) i j v w, 0 ≤ i → 0 ≤ j → i ≠ j →
      (∀ b c, a.editAt t (part.edit i v) months = .ok b →
        a.editAt t (part.edit j w) months = .ok c →
        b.editAt t (part.edit j w) months = c.editAt t (part.edit i v) months) ∧
      ((∃ n u, x.raw.value x.spec n = .ok u) → ∀ r,
        (a.editAt t (part.edit i v) months >>= fun b => b.editAt t (part.edit j w) months) = .ok r ↔
          (a.editAt t (part.edit j w) months >>= fun c => c.editAt t (part.edit i v) months) =
            .ok r)) := by
  refine ⟨?steps, ?outside, ?inside, ?again, ?order⟩
  case steps =>
    intro e init last b parts h
    exact editAt_of_singles parts h
  case outside =>
    intro part place v outside
    rw [editAt_eq known, Assumption.edited_eq, wellFormed.edited_entry, if_pos outside]
    rfl
  case inside =>
    intro part place v b inside
    rw [editAt_entry_eq_ok known wellFormed, and_iff_right inside]
    constructor
    · rintro ⟨y, z, read, valued, rfl⟩
      exact ⟨y, _, z, read, (placed_iff inside).2 rfl, valued, rfl⟩
    · rintro ⟨y, new, z, read, placed, valued, rfl⟩
      rw [(placed_iff inside).1 placed] at valued
      exact ⟨y, z, read, valued, rfl⟩
  case again =>
    intro part place v w b h
    exact editAt_congr known h fun _ edited => Raw.edited_entry_again wellFormed edited w
  case order =>
    intro part i j v w hi hj ne
    refine ⟨?_, fun computed r => ?_⟩
    · intro b c first second
      obtain ⟨y, rfl, spec, edited⟩ := editAt_ok known first
      obtain ⟨z, rfl, spec', edited'⟩ := editAt_ok known second
      rw [editAt_set known, editAt_set known]
      rw [Assumption.edited_congr (spec.trans spec'.symm)
        (Raw.edited_entry_comm wellFormed hi hj ne edited edited')]
    · exact ⟨editAt_entry_comm known wellFormed computed hi hj ne,
        editAt_entry_comm known wellFormed computed hj hi (Ne.symm ne)⟩

def newRents : Edit :=
  { Edit.none with
    annual := some (.list [.float 1, .float 2])
    annualPlace := some (-1, .float 8)
    seasonal := some (.list (List.replicate 12 (.float 2))) }

theorem edits_in_steps_leases :
    ∃ a x b c d, (ofModel ⟨[], [leases], []⟩ ⟨[], [], [("Leases", ["Hall", "Yard"])]⟩ leaseSchema
        3).outcome = .ok a ∧
      a.find? (rentOf "Yard") = some x ∧
      newRents.singles = [newRents.only .annual, newRents.only .annualPlace] ++
        [newRents.only .seasonal] ∧
      [newRents.only .annual, newRents.only .annualPlace].foldlM
        (fun a e => a.editAt (rentOf "Yard") e 3) a = .ok b ∧
      a.editAt (rentOf "Yard") newRents 3 = b.editAt (rentOf "Yard") (newRents.only .seasonal) 3 ∧
      a.editAt (rentOf "Yard") (ListPart.annual.edit (-1) (.float 8)) 3 =
        .error (.edit .indexOutOfRange) ∧
      a.editAt (rentOf "Yard") (ListPart.annual.edit 1 (.float 8)) 3 = .ok c ∧
      (∃ new z, Placed [] 1 (some 8) new ∧
        Assumption.of x.spec (ListPart.annual.write new x.raw) 3 = .ok z ∧
        c = a.set (rentOf "Yard") z) ∧
      c.editAt (rentOf "Yard") (ListPart.annual.edit 1 .null) 3 =
        a.editAt (rentOf "Yard") (ListPart.annual.edit 1 .null) 3 ∧
      a.editAt (rentOf "Yard") (ListPart.annual.edit 0 (.float 9)) 3 = .ok d ∧
      c.editAt (rentOf "Yard") (ListPart.annual.edit 0 (.float 9)) 3 =
        d.editAt (rentOf "Yard") (ListPart.annual.edit 1 (.float 8)) 3 := by
  obtain ⟨a, spec, u, b, c, d, built, known, steps, first, second⟩ : ∃ a spec u b c d,
      (ofModel ⟨[], [leases], []⟩ ⟨[], [], [("Leases", ["Hall", "Yard"])]⟩ leaseSchema
        3).outcome = .ok a ∧
      a.find? (rentOf "Yard") = some ⟨spec, Raw.ofSingle (.float 7), u⟩ ∧
      [newRents.only .annual, newRents.only .annualPlace].foldlM
        (fun a e => a.editAt (rentOf "Yard") e 3) a = .ok b ∧
      a.editAt (rentOf "Yard") (ListPart.annual.edit 1 (.float 8)) 3 = .ok c ∧
      a.editAt (rentOf "Yard") (ListPart.annual.edit 0 (.float 9)) 3 = .ok d :=
    ⟨_, _, _, _, _, _, rfl, rfl, rfl, rfl, rfl⟩
  obtain ⟨inSteps, outside, inside, again, order⟩ :=
    edits_in_steps known (Raw.wellFormed_ofSingle (.float 7)) 3
  have unset : ListPart.annual.entries (Raw.ofSingle (.float 7)) = [] := rfl
  obtain ⟨y, new, z, read, placed, valued, written⟩ :=
    (inside .annual 1 (.float 8) c (by rw [unset]; decide)).1 first
  cases read
  exact ⟨a, _, b, c, d, built, known, rfl, steps, inSteps newRents _ _ b rfl steps,
    outside .annual (-1) (.float 8) (by rw [unset]; decide), first,
    ⟨new, z, placed, valued, written⟩, again .annual 1 (.float 8) .null c first, second,
    (order .annual 1 0 (.float 8) (.float 9) (by decide) (by decide) (by decide)).1 c d first
      second⟩

end Assumptions

end Forecast

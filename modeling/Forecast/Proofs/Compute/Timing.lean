import Forecast.Proofs.Compute.Cut
import Forecast.Proofs.Statement.Exact
import Mathlib.Data.Rat.Floor

/-!
# Shifts month by month

Moving amounts is a matter of where they go; what arrives in a month is the sum
of the amounts that are moved there. If all of them are moved alike, at most one
arrives. A delay by whole months is undone by an advance by as many. An advance
rounds its months up where a delay rounds them down, so a part of a month is not
undone: each amount comes back a month too early.
-/

namespace Forecast

open Outcome

namespace Compute

section

variable {α : Type} [Amount α] {src offsets out : Series α} {sources : List (α × Nat)}
  {move : Nat → Int}
  {t : Nat}

/-- Each of these months has an offset, and `move` is its floor. -/
def Moves (offsets : Series α) (sources : List (α × Nat)) (move : Nat → Int) : Prop :=
  ∀ s ∈ sources, ∃ offset, offsets[s.2]? = some offset ∧ Amount.floor offset = .ok (move s.2)

/-- The amounts that are moved to a month, in the order of the months they come from. -/
def arriving (move : Nat → Int) (sources : List (α × Nat)) (t : Nat) : List α :=
  (sources.filter fun s => (s.2 : Int) + move s.2 = t).map Prod.fst

theorem getElem?_deposit (out : Series α) (target : Int) (x : α) (t : Nat) :
    (if 0 ≤ target then out.modify target.toNat (· + x) else out)[t]? =
      out[t]?.map fun total => if target = t then total + x else total := by
  split
  · rename_i nonneg
    have same : target.toNat = t ↔ target = t := by omega
    simp only [List.getElem?_modify, same]
    rfl
  · rename_i negative
    have other : target ≠ t := by omega
    simp [other]

theorem scatter_eq {source : α × Nat} {offset : α} {n : Int}
    (found : offsets[source.2]? = some offset)
    (floor : Amount.floor offset = .ok n) (out : Series α) :
    scatter offsets out source = .ok
      (if 0 ≤ (source.2 : Int) + n then out.modify ((source.2 : Int) + n).toNat (· + source.1)
        else out) := by
  have moved : (Amount.floor offset : Except Fault Int) = .ok n := mapError_eq_ok.2 floor
  unfold scatter
  simp only [found, moved, ok_bind]
  rfl

omit [Amount α] in
theorem arriving_cons (move : Nat → Int) (s : α × Nat) (sources : List (α × Nat)) (t : Nat) :
    arriving move (s :: sources) t =
      if (s.2 : Int) + move s.2 = t then s.1 :: arriving move sources t
        else arriving move sources t := by
  unfold arriving
  rw [List.filter_cons]
  simp only [decide_eq_true_eq]
  split <;> rfl

/-- What arrives in a month is added to what is there, one amount after another. -/
theorem exists_foldlM_scatter (moves : Moves offsets sources move) (out : Series α) :
    ∃ out', sources.foldlM (scatter offsets) out = .ok out' ∧ out'.length = out.length ∧
      ∀ t, out'[t]? = out[t]?.map ((arriving move sources t).foldl (· + ·)) := by
  induction sources generalizing out with
  | nil => exact ⟨out, rfl, rfl, by simp [arriving]⟩
  | cons s sources ih =>
    obtain ⟨offset, found, floor⟩ := moves s (by simp)
    obtain ⟨out', fold, length, each⟩ := ih (fun u hu => moves u (List.mem_cons_of_mem _ hu))
      (if 0 ≤ (s.2 : Int) + move s.2 then out.modify ((s.2 : Int) + move s.2).toNat (· + s.1)
        else out)
    refine ⟨out', ?_, ?_, ?_⟩
    · rw [List.foldlM_cons, scatter_eq found floor, ok_bind, fold]
    · rw [length]
      split <;> simp
    · intro t
      rw [each, getElem?_deposit, arriving_cons, Option.map_map]
      congr 1
      funext total
      simp only [Function.comp_apply]
      split <;> rfl

/-- What is moved to a month is added up there, from left to right. -/
theorem exists_shift_moves (moves : Moves offsets src.zipIdx move) :
    ∃ out, shift src offsets = .ok out ∧ out.length = src.length ∧
      ∀ t < src.length, out[t]? = some ((arriving move src.zipIdx t).foldl (· + ·) 0) := by
  obtain ⟨out, fold, length, each⟩ := exists_foldlM_scatter moves (Series.zeros src.length)
  refine ⟨out, fold, by simpa using length, ?_⟩
  intro t inside
  rw [each, Series.getElem?_zeros inside]
  rfl

omit [Amount α] in
/-- If all amounts are moved alike, at most one arrives in a month; `n` is the number of the first
month they come from. -/
theorem arriving_constant (k : Int) (xs : List α) (n t : Nat) :
    arriving (fun _ => k) (xs.zipIdx n) t =
      if n ≤ t - k then xs[(t - k - n).toNat]?.toList else [] := by
  induction xs generalizing n with
  | nil => simp [arriving]
  | cons x xs ih =>
    rw [List.zipIdx_cons, arriving_cons, ih]
    by_cases here : (n : Int) + k = t
    · have now : (t - k - n).toNat = 0 := by omega
      have passed : ¬((n + 1 : Nat) : Int) ≤ t - k := by omega
      have reached : (n : Int) ≤ t - k := by omega
      simp only [here, passed, reached, now, if_true, if_false]
      rfl
    · by_cases reached : (n : Int) ≤ t - k
      · have later : (t - k - n).toNat = (t - k - (n + 1 : Nat)).toNat + 1 := by omega
        have next : ((n + 1 : Nat) : Int) ≤ t - k := by omega
        simp only [here, next, reached, later, if_true, if_false]
        rfl
      · have next : ¬((n + 1 : Nat) : Int) ≤ t - k := by omega
        simp only [here, next, reached, if_false]

end

/-! ## The same offset in every month -/

variable {x y : Series Rat} {d : Rat} {m : Nat}

theorem exists_shift_constant (x : Series Rat) (d : Rat) :
    ∃ y, shift x (Series.constant x.length d) = .ok y ∧ y.length = x.length ∧
      ∀ t < x.length, y.getD t 0 = if ⌊d⌋ ≤ t then x.getD (t - ⌊d⌋).toNat 0 else 0 := by
  have moves : Moves (Series.constant x.length d) x.zipIdx fun _ => ⌊d⌋ := by
    intro s hs
    have within : s.2 < x.length := by simpa using List.snd_lt_of_mem_zipIdx hs
    exact ⟨d, by simp [Series.constant, within], rfl⟩
  obtain ⟨y, hy, length, each⟩ := exists_shift_moves moves
  refine ⟨y, hy, length, ?_⟩
  intro t inside
  rw [List.getD_eq_getElem?_getD, each t inside, arriving_constant, List.getD_eq_getElem?_getD]
  by_cases reached : ⌊d⌋ ≤ t
  · have start : ((0 : Nat) : Int) ≤ t - ⌊d⌋ := by omega
    rw [if_pos start, if_pos reached, Nat.cast_zero, sub_zero]
    cases x[(t - ⌊d⌋).toNat]? with
    | none => rfl
    | some amount => exact zero_add amount
  · have start : ¬((0 : Nat) : Int) ≤ t - ⌊d⌋ := by omega
    rw [if_neg start, if_neg reached]
    rfl

/-- What comes back of a series that is delayed and then advanced by `d` months: as many months late
as `d` is rounded down, as many months early as it is rounded up. -/
def ComesBack (x : Series Rat) (d : Rat) (z : Series Rat) : Prop :=
  z.length = x.length ∧ ∀ m < x.length,
    z.getD m 0 = if m + ⌈d⌉₊ < x.length then x.getD (m + (⌈d⌉₊ - ⌊d⌋₊)) 0 else 0

theorem exists_comesBack (x : Series Rat) (nonneg : 0 ≤ d) :
    ∃ y z, shift x (Series.constant x.length d) = .ok y ∧ y.length = x.length ∧
      shift y (Series.constant x.length (-d)) = .ok z ∧ ComesBack x d z := by
  have down : ⌊d⌋ = (⌊d⌋₊ : Int) := (Int.natCast_floor_eq_floor nonneg).symm
  have up : ⌊-d⌋ = -(⌈d⌉₊ : Int) := by rw [Int.floor_neg, Int.natCast_ceil_eq_ceil nonneg]
  have order : ⌊d⌋₊ ≤ ⌈d⌉₊ := Nat.floor_le_ceil d
  obtain ⟨y, hy, yLength, later⟩ := exists_shift_constant x d
  obtain ⟨z, hz, zLength, earlier⟩ := exists_shift_constant y (-d)
  rw [yLength] at hz earlier zLength
  refine ⟨y, z, hy, yLength, hz, zLength, ?_⟩
  intro m inside
  have from_ : ((m : Int) - -(⌈d⌉₊ : Int)).toNat = m + ⌈d⌉₊ := by omega
  rw [earlier m inside, up, if_pos (by omega), from_]
  by_cases within : m + ⌈d⌉₊ < x.length
  · have back : ((m + ⌈d⌉₊ : Nat) - (⌊d⌋₊ : Int)).toNat = m + (⌈d⌉₊ - ⌊d⌋₊) := by omega
    rw [if_pos within, later _ within, down, if_pos (by omega), back]
  · rw [if_neg within, List.getD_eq_getElem?_getD, List.getElem?_eq_none (by omega)]
    rfl

/-- If a part of a month is not undone and still nothing changes, nothing is left in the horizon:
each amount is that of the month after it, and the last one has none after it. -/
theorem ComesBack.eq_zero {z : Series Rat} (back : ComesBack x d z) (part : ⌈d⌉₊ = ⌊d⌋₊ + 1)
    (undone : ∀ m < x.length, z.getD m 0 = if m + ⌊d⌋₊ < x.length then x.getD m 0 else 0) :
    ∀ (later m : Nat), m + ⌊d⌋₊ + later + 1 = x.length → x.getD m 0 = 0 := by
  intro later
  induction later with
  | zero =>
    intro m last
    have now := undone m (by omega)
    rw [back.2 m (by omega), if_neg (by omega), if_pos (by omega)] at now
    exact now.symm
  | succ later ih =>
    intro m before
    have next : m + (⌈d⌉₊ - ⌊d⌋₊) = m + 1 := by omega
    have now := undone m (by omega)
    rw [back.2 m (by omega), if_pos (by omega), if_pos (by omega), next,
      ih (m + 1) (by omega)] at now
    exact now.symm

/-- A delay is undone just if it is by whole months, or leaves nothing but zeros in the horizon. -/
theorem ComesBack.undone_iff {z : Series Rat} (back : ComesBack x d z) :
    (∀ m < x.length, z.getD m 0 = if m + ⌊d⌋₊ < x.length then x.getD m 0 else 0) ↔
      ⌈d⌉₊ = ⌊d⌋₊ ∨ ∀ m, m + ⌊d⌋₊ < x.length → x.getD m 0 = 0 := by
  have order : ⌊d⌋₊ ≤ ⌈d⌉₊ := Nat.floor_le_ceil d
  have close : ⌈d⌉₊ ≤ ⌊d⌋₊ + 1 := Nat.ceil_le_floor_add_one d
  constructor
  · intro undone
    by_cases whole : ⌈d⌉₊ = ⌊d⌋₊
    · exact .inl whole
    · right
      intro m inside
      exact back.eq_zero (by omega) undone (x.length - (m + ⌊d⌋₊ + 1)) m (by omega)
  · rintro (whole | zeros) m inside
    · rw [back.2 m inside, whole, Nat.sub_self, Nat.add_zero]
    · have kept : (if m + ⌊d⌋₊ < x.length then x.getD m 0 else 0) = 0 := by
        split
        · rename_i within
          exact zeros m within
        · rfl
      rw [back.2 m inside, kept]
      split
      · exact zeros _ (by omega)
      · rfl

theorem whole_iff (nonneg : 0 ≤ d) : ⌈d⌉₊ = ⌊d⌋₊ ↔ ∃ k : Nat, d = k := by
  constructor
  · intro same
    have below : d ≤ ⌊d⌋₊ := same ▸ Nat.le_ceil d
    exact ⟨⌊d⌋₊, le_antisymm below (Nat.floor_le nonneg)⟩
  · rintro ⟨k, rfl⟩
    rw [Nat.ceil_natCast, Nat.floor_natCast]

/-! ## Delays and advances -/

variable {t u : Task Rat}

theorem delay_eq (sum : combined t = .ok x)
    (delays : t.settings.series t.months "delayMonths" 0 = .ok (Series.constant t.months d))
    (moved : shift x (Series.constant t.months d) = .ok y) : delay t = .ok [(t.output, y)] := by
  simp only [delay, delays, sum, moved, ok_bind]
  rfl

theorem advance_eq (sum : combined t = .ok x)
    (advances : t.settings.series t.months "advanceMonths" 0 = .ok (Series.constant t.months d))
    (moved : shift x (Series.constant t.months (-d)) = .ok y) :
    advance t = .ok [(t.output, y)] := by
  have negated : (Series.constant t.months d).map (- ·) = Series.constant t.months (-d) :=
    List.map_replicate
  simp only [advance, advances, sum, negated, moved, ok_bind]
  rfl

theorem combined_single (inputs : t.inputs = [x]) (length : x.length = t.months) :
    combined t = .ok x := by
  have same : (Series.zeros t.months : Series Rat).length = x.length := by simp [length]
  have sum : List.zipWith (· + ·) (Series.zeros t.months) x = x := by
    apply Series.ext_getD (by simp [length])
    intro m _
    rw [Series.getD_zipWith (zero_add 0) same, Series.getD_zeros, zero_add]
  rw [combined_eq_ok, inputs, Series.sum, List.foldlM_cons, Series.add_of_length_eq same,
    sum, ok_bind]
  rfl

/-- A series that is delayed by `d` months, and advanced by `d` months after that, comes back a
month too early if `d` is no whole number: the delay rounds it down, the advance rounds it up. So
the amounts that the delay leaves in the horizon are where they were just if `d` is whole, or if all
of them are zero. -/
theorem advance_after_delay (nonneg : 0 ≤ d) (sum : combined t = .ok x)
    (delays : t.settings.series t.months "delayMonths" 0 = .ok (Series.constant t.months d))
    (advances : u.settings.series t.months "advanceMonths" 0 = .ok (Series.constant t.months d)) :
    ∃ y z, delay t = .ok [(t.output, y)] ∧
      advance { u with months := t.months, inputs := [y] } = .ok [(u.output, z)] ∧
      z.length = t.months ∧
      (∀ m < t.months,
        z.getD m 0 = if m + ⌈d⌉₊ < t.months then x.getD (m + (⌈d⌉₊ - ⌊d⌋₊)) 0 else 0) ∧
      ((∀ m < t.months, z.getD m 0 = if m + ⌊d⌋₊ < t.months then x.getD m 0 else 0) ↔
        (∃ k : Nat, d = k) ∨ ∀ m, m + ⌊d⌋₊ < t.months → x.getD m 0 = 0) := by
  have length : x.length = t.months := length_combined sum
  obtain ⟨y, z, later, yLength, earlier, back⟩ := exists_comesBack x nonneg
  have undone := back.undone_iff
  rw [whole_iff nonneg] at undone
  unfold ComesBack at back
  rw [length] at later yLength earlier back undone
  refine ⟨y, z, delay_eq sum delays later, ?_, back.1, back.2, undone⟩
  exact advance_eq (combined_single rfl yLength) advances earlier

def delaying (d : Rat) (inputs : List (Series Rat)) : Task Rat where
  months := 3
  inputs := inputs
  settings := ⟨[("advanceMonths", .series [d, d])], [("delayMonths", .scalar d)]⟩
  output := "invoices"

theorem advance_after_delay_month :
    (0 : Rat) ≤ 1 ∧ combined (delaying 1 [[4, 5, 6], [1, 1, 1]]) = .ok [5, 6, 7] ∧
      (delaying 1 [[4, 5, 6], [1, 1, 1]]).settings.series 3 "delayMonths" 0 =
        .ok (Series.constant 3 1) ∧
      (delaying 1 []).settings.series 3 "advanceMonths" 0 = .ok (Series.constant 3 1) ∧
      ∃ y z, delay (delaying 1 [[4, 5, 6], [1, 1, 1]]) = .ok [("invoices", y)] ∧
        advance (delaying 1 [y]) = .ok [("invoices", z)] ∧
        ∀ m < 3, z.getD m 0 = if m + ⌊(1 : Rat)⌋₊ < 3 then ([5, 6, 7] : Series Rat).getD m 0
          else 0 := by
  have sum : combined (delaying 1 [[4, 5, 6], [1, 1, 1]]) = .ok [5, 6, 7] := by
    with_unfolding_all rfl
  have delays : (delaying 1 [[4, 5, 6], [1, 1, 1]]).settings.series 3 "delayMonths" 0 =
      .ok (Series.constant 3 1) := rfl
  have advances : (delaying 1 []).settings.series 3 "advanceMonths" 0 =
      .ok (Series.constant 3 1) := rfl
  obtain ⟨y, z, later, earlier, -, -, undone⟩ :=
    advance_after_delay (t := delaying 1 [[4, 5, 6], [1, 1, 1]])
      (u := delaying 1 []) zero_le_one sum
      delays advances
  exact ⟨zero_le_one, sum, delays, advances, y, z, later, earlier, undone.2 (.inl ⟨1, by simp⟩)⟩

/-- Half a month is no delay, but the advance by half a month moves everything by a month. -/
theorem half_not_undone :
    delay (delaying (1 / 2) [[5, 6, 7]]) = .ok [("invoices", [5, 6, 7])] ∧
      advance (delaying (1 / 2) [[5, 6, 7]]) = .ok [("invoices", [6, 7, 0])] ∧
      ⌊(1 / 2 : Rat)⌋₊ = 0 := by
  refine ⟨?_, ?_, ?_⟩
  · with_unfolding_all rfl
  · with_unfolding_all rfl
  · decide +kernel

end Compute
end Forecast

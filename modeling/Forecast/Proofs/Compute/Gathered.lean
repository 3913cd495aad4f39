import Forecast.Proofs.Compute.Library
import Forecast.Proofs.Compute.Timing
import Mathlib.Data.List.Nodup
import Mathlib.Data.List.Perm.Lattice

/-!
# Amounts gathered by the month they are moved to

A shift goes through the months that amounts come from. The same series is had
by going through the months that they are moved to: each is the sum, from left
to right, of the amounts whose target it is. Every month has one target, so no
amount arrives twice, and one whose target lies outside of the horizon does not
arrive.
-/

namespace Forecast

open Outcome

namespace Compute

section

variable {α : Type} [Amount α] {src offsets : Series α} {m t : Nat}

/-- The number of the month that the amount of a month is moved to, if its offset has a floor. It
may lie before or behind the horizon. -/
def target? (offsets : Series α) (m : Nat) : Option Int :=
  offsets[m]?.bind fun offset => (Amount.floor offset).toOption.map ((m : Int) + ·)

def sources (offsets : Series α) (t : Nat) : List Nat :=
  (List.range offsets.length).filter fun m => target? offsets m = some (t : Int)

/-- The series whose months are the sums of the amounts that are moved to them, each sum starting at
zero and going on with the earliest amount. -/
def gathered (src offsets : Series α) : Series α :=
  (List.range src.length).map fun t =>
    (sources offsets t).foldl (fun total m => total + src.getD m 0) 0

def lands (offsets : Series α) (m : Nat) : Bool :=
  (target? offsets m).any fun (t : Int) => decide (0 ≤ t ∧ t < offsets.length)

/-- By how many months the amount of a month is moved; by none if its offset has no floor. -/
def moveOf (offsets : Series α) (m : Nat) : Int :=
  (offsets[m]?.bind fun offset => (Amount.floor offset).toOption).getD 0

theorem target?_eq {offset : α} {n : Int} (found : offsets[m]? = some offset)
    (floor : Amount.floor offset = .ok n) : target? offsets m = some (m + n) := by
  unfold target?
  rw [found, Option.bind_some, floor]
  rfl

theorem lt_of_target? {target : Int} (moved : target? offsets m = some target) :
    m < offsets.length := by
  obtain ⟨offset, found, -⟩ := Option.bind_eq_some_iff.1 moved
  exact (List.getElem?_eq_some_iff.1 found).1

theorem mem_sources : m ∈ sources offsets t ↔ target? offsets m = some (t : Int) := by
  unfold sources
  rw [List.mem_filter, List.mem_range, decide_eq_true_eq]
  exact and_iff_right_of_imp lt_of_target?

theorem lands_iff : lands offsets m = true ↔
    ∃ t < offsets.length, target? offsets m = some ((t : Nat) : Int) := by
  unfold lands
  rw [Option.any_eq_true]
  constructor
  · rintro ⟨target, moved, inside⟩
    obtain ⟨nonneg, below⟩ := of_decide_eq_true inside
    have same : ((target.toNat : Nat) : Int) = target := Int.toNat_of_nonneg nonneg
    exact ⟨target.toNat, by omega, same ▸ moved⟩
  · rintro ⟨t, inside, moved⟩
    exact ⟨t, moved, decide_eq_true ⟨by omega, by omega⟩⟩

/-- Each month whose amount arrives is the source of one month, once. -/
theorem sources_perm (offsets : Series α) :
    ((List.range offsets.length).flatMap (sources offsets)).Perm
      ((List.range offsets.length).filter (lands offsets)) := by
  have once : ((List.range offsets.length).flatMap (sources offsets)).Nodup := by
    rw [List.nodup_flatMap]
    constructor
    · exact fun t _ => List.nodup_range.filter _
    · apply List.nodup_range.imp
      intro t u other m here there
      have same := (mem_sources.1 here).symm.trans (mem_sources.1 there)
      exact other (Int.ofNat_inj.1 (Option.some.inj same))
  rw [List.perm_ext_iff_of_nodup once (List.nodup_range.filter _)]
  intro m
  simp only [List.mem_flatMap, List.mem_filter, List.mem_range, mem_sources, lands_iff]
  constructor
  · rintro ⟨t, inside, moved⟩
    exact ⟨lt_of_target? moved, t, inside, moved⟩
  · rintro ⟨-, t, inside, moved⟩
    exact ⟨t, inside, moved⟩

theorem arriving_eq {move : Nat → Int} (same : offsets.length = src.length)
    (targets : ∀ m < src.length, target? offsets m = some (m + move m)) :
    arriving move src.zipIdx t = (sources offsets t).map (src.getD · 0) := by
  have months : src.zipIdx = (List.range src.length).map fun m => (src.getD m 0, m) := by
    apply List.ext_getElem (by simp)
    intro m inside _
    have within : m < src.length := by simpa using inside
    simp [List.getD_eq_getElem?_getD, within]
  unfold arriving sources
  rw [months, List.filter_map, List.map_map, same]
  congr 1
  apply List.filter_congr
  intro m inside
  simp [targets m (List.mem_range.1 inside)]

theorem floor_moveOf (floors : ∀ x ∈ offsets, ∃ n, Amount.floor x = .ok n)
    (inside : m < offsets.length) :
    ∃ offset, offsets[m]? = some offset ∧ Amount.floor offset = .ok (moveOf offsets m) := by
  obtain ⟨n, hn⟩ := floors _ (List.getElem_mem inside)
  have found : offsets[m]? = some offsets[m] := List.getElem?_eq_getElem inside
  have moved : moveOf offsets m = n := by
    rw [moveOf, found, Option.bind_some, hn]
    rfl
  exact ⟨_, found, moved ▸ hn⟩

theorem shift_eq_gathered (same : offsets.length = src.length)
    (floors : ∀ x ∈ offsets, ∃ n, Amount.floor x = .ok n) :
    shift src offsets = .ok (gathered src offsets) := by
  have moves : Moves offsets src.zipIdx (moveOf offsets) := by
    intro s hs
    have inside : s.2 < src.length := by simpa using List.snd_lt_of_mem_zipIdx hs
    exact floor_moveOf floors (same ▸ inside)
  have targets : ∀ m < src.length, target? offsets m = some (m + moveOf offsets m) := by
    intro m inside
    obtain ⟨offset, found, floor⟩ := floor_moveOf floors (same ▸ inside)
    exact target?_eq found floor
  obtain ⟨out, done, length, each⟩ := exists_shift_moves moves
  rw [done]
  congr 1
  apply List.ext_getElem?
  intro t
  by_cases inside : t < src.length
  · rw [each t inside, arriving_eq same targets, List.foldl_map]
    simp [gathered, inside]
  · rw [List.getElem?_eq_none (by omega), List.getElem?_eq_none (by simp [gathered]; omega)]

end

/-! ## Exact amounts -/

variable {src offsets : Series Rat}

/-- The months whose amounts are moved to a month of the horizon. -/
def landing (offsets : Series Rat) : Finset Nat :=
  (Finset.range offsets.length).filter fun m =>
    0 ≤ (m : Int) + ⌊offsets.getD m 0⌋ ∧ (m : Int) + ⌊offsets.getD m 0⌋ < offsets.length

theorem target?_rat {m : Nat} (inside : m < offsets.length) :
    target? offsets m = some (m + ⌊offsets.getD m 0⌋) := by
  have found : offsets[m]? = some (offsets.getD m 0) := by
    simp [List.getD_eq_getElem?_getD, inside]
  exact target?_eq found rfl

theorem filter_lands (offsets : Series Rat) :
    (List.range offsets.length).filter (lands offsets) =
      (List.range offsets.length).filter fun (m : Nat) =>
        decide (0 ≤ (m : Int) + ⌊offsets.getD m 0⌋ ∧
          (m : Int) + ⌊offsets.getD m 0⌋ < offsets.length) := by
  apply List.filter_congr
  intro m inside
  rw [lands, target?_rat (List.mem_range.1 inside)]
  rfl

theorem foldl_amounts (amount : Nat → Rat) (months : List Nat) :
    months.foldl (fun total m => total + amount m) 0 = (months.map amount).sum := by
  rw [List.sum_eq_foldl, List.foldl_map]

/-- What arrives in all is what lands in the horizon. -/
theorem sum_gathered (same : offsets.length = src.length) :
    List.sum (gathered src offsets) = ∑ m ∈ landing offsets, src.getD m 0 := by
  calc List.sum (gathered src offsets)
      = ((List.range src.length).map fun t =>
          ((sources offsets t).map (src.getD · 0)).sum).sum := by
        exact congrArg List.sum (List.map_congr_left fun t _ => foldl_amounts _ _)
    _ = (((List.range offsets.length).flatMap (sources offsets)).map (src.getD · 0)).sum := by
        rw [same, List.map_flatMap, List.flatMap_def, List.sum_flatten, List.map_map]
        rfl
    _ = (((List.range offsets.length).filter (lands offsets)).map (src.getD · 0)).sum :=
        ((sources_perm offsets).map _).sum_eq
    _ = ∑ m ∈ landing offsets, src.getD m 0 := by
        rw [filter_lands]
        rfl

/-- Going through the months that amounts come from, or through those that they are moved to, is the
same: a month is the sum, from left to right, of the amounts whose target it is. An amount arrives
just if its target lies in the horizon, and then once; of exact amounts, the total is that of
those. -/
theorem shift_gathers :
    (∀ src offsets : Series Float, offsets.length = src.length →
      (∀ x ∈ offsets, x.isFinite = true) →
        shift src offsets = .ok (gathered src offsets) ∧
        ((List.range src.length).flatMap (sources offsets)).Perm
          ((List.range src.length).filter (lands offsets))) ∧
    ∀ src offsets : Series Rat, offsets.length = src.length →
      shift src offsets = .ok (gathered src offsets) ∧
      ((List.range src.length).flatMap (sources offsets)).Perm
        ((List.range src.length).filter (lands offsets)) ∧
      List.sum (gathered src offsets) = ∑ m ∈ landing offsets, src.getD m 0 := by
  constructor
  · intro src offsets same finite
    exact ⟨shift_eq_gathered same fun x hx => floor_of_isFinite (finite x hx),
      same ▸ sources_perm offsets⟩
  · intro src offsets same
    exact ⟨shift_eq_gathered same fun x _ => ⟨⌊x⌋, rfl⟩, same ▸ sources_perm offsets,
      sum_gathered same⟩

/-- Amounts of three months meet in one; another leaves the horizon at its front. -/
theorem shift_gathers_meeting :
    (∀ x ∈ [(1 : Float), 0, -2], x.isFinite = true) ∧
      shift [5, 7, 9] [(1 : Float), 0, -2] = .ok (gathered [5, 7, 9] [1, 0, -2]) ∧
      sources [(1 : Float), 0, -2] 1 = [0, 1] ∧
      shift [1, 2, 4, 8] [(2 : Rat), 1, 1 / 2, -9 / 2] = .ok [0, 0, 7, 0] ∧
      sources [(2 : Rat), 1, 1 / 2, -9 / 2] 2 = [0, 1, 2] := by
  have finite : ∀ x ∈ [(1 : Float), 0, -2], x.isFinite = true := by decide +kernel
  have arrived : gathered [1, 2, 4, 8] [(2 : Rat), 1, 1 / 2, -9 / 2] = [0, 0, 7, 0] := by
    decide +kernel
  refine ⟨finite, ?_, by decide +kernel, ?_, by decide +kernel⟩
  · exact (shift_gathers.1 [5, 7, 9] [1, 0, -2] (by simp) finite).1
  · rw [(shift_gathers.2 [1, 2, 4, 8] [2, 1, 1 / 2, -9 / 2] (by simp)).1, arrived]

end Compute
end Forecast

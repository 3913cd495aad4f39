import Forecast.FanIn
import Mathlib.Data.List.Nodup

/-!
# No argument is lost

Every argument of an object feeds one of its outputs. With as many arguments as
outputs, or more, the lists of positions one after the other are all positions
in their order, so that each argument feeds a single output; with fewer, the
last argument is shared. An assignment is refused only if it is ambiguous.
-/

namespace Forecast

variable {arguments outputs : Nat}

/-- An assignment of arguments to outputs that loses none. -/
structure FeedsAll (arguments outputs : Nat) (positions : List (List Nat)) : Prop where
  length : positions.length = outputs
  valid : ∀ feed ∈ positions, ∀ i ∈ feed, i < arguments
  complete : ∀ i < arguments, ∃ feed ∈ positions, i ∈ feed
  fed : 0 < arguments → ∀ feed ∈ positions, feed ≠ []
  inOrder : outputs ≤ arguments → positions.flatten = List.range arguments
  /-- Where there are enough arguments, none is used twice. -/
  once : outputs ≤ arguments →
    ∀ i < arguments, ∃! k : Nat, ∃ feed : List Nat, positions[k]? = some feed ∧ i ∈ feed
  shared : 0 < arguments → arguments < outputs →
    ∀ k < outputs, positions[k]? = some [min k (arguments - 1)]

/-- An output before the last one takes a single argument. -/
theorem feed_of_lt {k : Nat} (h : k + 1 < outputs) :
    feed arguments outputs k = [min k (arguments - 1)] := by
  have other : ¬k + 1 = outputs := by omega
  rw [feed, if_neg other]

/-- The last output takes the argument at its position and all that are left. -/
theorem feed_last {last : Nat} (enough : last + 1 ≤ arguments) :
    feed arguments (last + 1) last =
      last :: (List.range (arguments - (last + 1))).map (last + 1 + ·) := by
  have own : min last (arguments - 1) = last := by omega
  rw [feed, if_pos rfl, own]

theorem feeds_of_several (several : 1 < outputs) (some_argument : 0 < arguments) :
    feeds arguments outputs = (List.range outputs).map (feed arguments outputs) := by
  rw [feeds, if_neg (by omega), if_neg (by omega)]

theorem flatten_feeds (some_output : 0 < outputs) (enough : outputs ≤ arguments) :
    (feeds arguments outputs).flatten = List.range arguments := by
  obtain ⟨last, rfl⟩ : ∃ last, outputs = last + 1 := ⟨outputs - 1, by omega⟩
  by_cases single : last = 0
  · subst single
    simp
  · have before : (List.range last).map (feed arguments (last + 1)) =
        (List.range last).map fun k => [k] := by
      apply List.map_congr_left
      intro k hk
      have inside := List.mem_range.1 hk
      have own : min k (arguments - 1) = k := by omega
      rw [feed_of_lt (by omega), own]
    have all : arguments = last + 1 + (arguments - (last + 1)) := by omega
    calc (feeds arguments (last + 1)).flatten
        = ((List.range last).map (feed arguments (last + 1))).flatten ++
            feed arguments (last + 1) last := by
          rw [feeds_of_several (by omega) (by omega), List.range_succ, List.map_append,
            List.flatten_append, List.map_singleton, List.flatten_singleton]
      _ = List.range last ++
            (last :: (List.range (arguments - (last + 1))).map (last + 1 + ·)) := by
          rw [before, feed_last enough, ← List.flatMap_def, List.flatMap_singleton']
      _ = List.range (last + 1) ++ (List.range (arguments - (last + 1))).map (last + 1 + ·) := by
          rw [List.range_succ, List.append_assoc, List.singleton_append]
      _ = List.range arguments := by
          rw [← List.range_add, ← all]

/-- With too few arguments, the outputs past the last argument share it. -/
theorem getElem?_feeds_of_few (some_argument : 0 < arguments) (few : arguments < outputs) {k : Nat}
    (h : k < outputs) : (feeds arguments outputs)[k]? = some [min k (arguments - 1)] := by
  have none_left : arguments - outputs = 0 := by omega
  rw [feeds_of_several (by omega) some_argument, List.getElem?_map, List.getElem?_range h,
    Option.map_some, feed, none_left]
  simp

theorem exists_mem_feeds {i : Nat} (h : i < arguments) (some_output : 0 < outputs) :
    ∃ k < outputs, ∃ positions, (feeds arguments outputs)[k]? = some positions ∧ i ∈ positions := by
  rcases Nat.lt_or_ge arguments outputs with few | enough
  · refine ⟨i, by omega, _, getElem?_feeds_of_few (by omega) few (by omega), ?_⟩
    have own : min i (arguments - 1) = i := by omega
    simp [own]
  · have mem : i ∈ (feeds arguments outputs).flatten := by
      rw [flatten_feeds some_output enough]
      exact List.mem_range.2 h
    obtain ⟨positions, listed, mem⟩ := List.mem_flatten.1 mem
    obtain ⟨k, hk, rfl⟩ := List.getElem_of_mem listed
    rw [length_feeds] at hk
    exact ⟨k, hk, _, List.getElem?_eq_getElem _, mem⟩

theorem ne_nil_of_mem_feeds (some_argument : 0 < arguments) {positions : List Nat}
    (h : positions ∈ feeds arguments outputs) : positions ≠ [] := by
  unfold feeds at h
  split at h
  · cases List.mem_singleton.1 h
    simp
    omega
  · rw [if_neg (by omega)] at h
    obtain ⟨k, -, rfl⟩ := List.mem_map.1 h
    exact List.cons_ne_nil _ _

/-- What stands once in a list of lists stands in one of them. -/
theorem eq_of_mem_of_nodup_flatten {α : Type} {ls : List (List α)} (distinct : ls.flatten.Nodup)
    {j k : Nat} {a : α} {l l' : List α} (found : ls[j]? = some l) (found' : ls[k]? = some l')
    (mem : a ∈ l) (mem' : a ∈ l') : j = k := by
  obtain ⟨-, apart⟩ := List.nodup_flatten.1 distinct
  by_contra ne
  obtain ⟨hj, rfl⟩ := List.getElem?_eq_some_iff.1 found
  obtain ⟨hk, rfl⟩ := List.getElem?_eq_some_iff.1 found'
  rcases Nat.lt_or_gt_of_ne ne with before | after
  · exact List.pairwise_iff_getElem.1 apart j k hj hk before mem mem'
  · exact List.pairwise_iff_getElem.1 apart k j hk hj after mem' mem

theorem feedsAll_feeds (some_output : 0 < outputs) :
    FeedsAll arguments outputs (feeds arguments outputs) where
  length := length_feeds arguments outputs
  valid := fun _ h _ => lt_of_mem_feeds h
  complete := by
    intro i hi
    obtain ⟨k, -, positions, found, mem⟩ := exists_mem_feeds hi some_output
    exact ⟨positions, List.mem_of_getElem? found, mem⟩
  fed := fun some_argument _ => ne_nil_of_mem_feeds some_argument
  inOrder := flatten_feeds some_output
  once := by
    intro enough i hi
    obtain ⟨k, -, positions, found, mem⟩ := exists_mem_feeds hi some_output
    refine ⟨k, ⟨positions, found, mem⟩, ?_⟩
    rintro j ⟨positions', found', mem'⟩
    refine eq_of_mem_of_nodup_flatten ?_ found' found mem' mem
    rw [flatten_feeds some_output enough]
    exact List.nodup_range
  shared := fun some_argument few _ => getElem?_feeds_of_few some_argument few

namespace Definition

variable {d : Definition}

theorem eq_feeds_of_ok (some_output : 0 < outputs) {positions : List (List Nat)}
    (h : d.feeds outputs = .ok positions) :
    positions = Forecast.feeds d.arguments.length outputs := by
  simp only [Definition.feeds, Nat.max_eq_left some_output] at h
  split at h
  · cases h
  · cases h
    rfl

theorem feeds_eq_error (some_output : 0 < outputs) {fault : LinkFault} :
    d.feeds outputs = .error fault ↔
      (2 ≤ outputs ∧ outputs < d.arguments.length ∧ ∀ a ∈ d.arguments, a.isSpread = false) ∧
        fault = .ambiguous d.name d.line d.arguments.length outputs := by
  have none_spread : ¬d.hasSpread = true ↔ ∀ a ∈ d.arguments, a.isSpread = false := by
    simp [hasSpread]
  simp only [Definition.feeds, Nat.max_eq_left some_output, none_spread]
  split
  · rename_i ambiguous
    simp only [Except.error.injEq]
    exact ⟨fun same => ⟨ambiguous, same.symm⟩, fun h => h.2.symm⟩
  · rename_i allowed
    exact ⟨nofun, fun h => absurd h.1 allowed⟩

theorem exists_feeds_iff (d : Definition) (some_output : 0 < outputs) :
    (∃ positions, d.feeds outputs = .ok positions) ↔
      (1 < outputs ∧ outputs < d.arguments.length → d.hasSpread = true) := by
  simp only [Definition.feeds, Nat.max_eq_left some_output]
  split <;> simp_all

/-- The assignment of the arguments of a definition to its outputs loses none of them, and is
refused just if several outputs have more arguments than there are outputs, none of them from a
spread. -/
theorem assigns_all (d : Definition) {outputs : Nat} (some_output : 1 ≤ outputs) :
    (∀ positions, d.feeds outputs = .ok positions →
        FeedsAll d.arguments.length outputs positions) ∧
      ∀ fault, d.feeds outputs = .error fault ↔
        (2 ≤ outputs ∧ outputs < d.arguments.length ∧ ∀ a ∈ d.arguments, a.isSpread = false) ∧
          fault = .ambiguous d.name d.line d.arguments.length outputs := by
  refine ⟨?_, fun _ => feeds_eq_error some_output⟩
  intro positions routed
  rw [eq_feeds_of_ok some_output routed]
  exact feedsAll_feeds some_output

def overflowing : Definition where
  name := "Mix"
  kind := "Sum"
  arguments :=
    [.word "first", .reference "b" "val" "b.val" (some "Base"), .word "third", .word "fourth"]
  outputs := ["x", "y", "z"]
  inline := []
  sectionName := "S"
  comment := ""
  line := 2

theorem assigns_all_overflowing : overflowing.feeds 3 = .ok [[0], [1], [2, 3]] ∧
    FeedsAll 4 3 [[0], [1], [2, 3]] :=
  ⟨rfl, (@assigns_all overflowing 3 (by decide)).1 _ rfl⟩

end Definition

end Forecast

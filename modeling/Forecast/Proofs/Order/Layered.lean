import Forecast.Proofs.Order.Acyclic

/-!
# Orders by depth

The depth of an output is the number of steps on the longest path down through
what it depends on. Since outputs wait in a queue, an order lists them by depth:
while outputs of one depth are taken from the queue, only outputs of the next
depth enter it, and those that depend on nothing come first, as they are listed.
-/

namespace Forecast.Order

open Outcome Relation

section

variable {needs : String → List String} {nodes queue done l : List String} {waiting : Waiting}
  {depth depth' : String → Nat} {level : Nat} {n p : String}

/-- One more than the greatest depth of what a node needs, and zero if it needs nothing. -/
def height (needs : String → List String) (depth : String → Nat) (n : String) : Nat :=
  match ((needs n).map depth).max? with
  | none => 0
  | some deepest => deepest + 1

/-- Depths of nodes, each one its height over what the node needs. -/
def Depths (needs : String → List String) (nodes : List String) (depth : String → Nat) : Prop :=
  ∀ n ∈ nodes, depth n = height needs depth n

theorem height_congr (same : ∀ p ∈ needs n, depth p = depth' p) :
    height needs depth n = height needs depth' n := by
  rw [height, height, List.map_congr_left same]

theorem height_eq_zero : height needs depth n = 0 ↔ needs n = [] := by
  unfold height
  split
  · rename_i none
    simpa using none
  · rename_i deepest some
    have nonempty : needs n ≠ [] := by
      intro nothing
      simp [nothing] at some
    simp [nonempty]

theorem lt_height (needed : p ∈ needs n) : depth p < height needs depth n := by
  unfold height
  split
  · rename_i none
    simp only [List.max?_eq_none_iff, List.map_eq_nil_iff] at none
    simp [none] at needed
  · rename_i deepest some
    have := (List.max?_eq_some_iff.1 some).2 _ (List.mem_map_of_mem needed)
    omega

theorem height_le (bounded : ∀ p ∈ needs n, depth p ≤ level) :
    height needs depth n ≤ level + 1 := by
  unfold height
  split
  · omega
  · rename_i deepest some
    obtain ⟨p, needed, rfl⟩ := List.mem_map.1 (List.max?_eq_some_iff.1 some).1
    have := bounded p needed
    omega

namespace Depths

variable (depths : Depths needs nodes depth)
include depths

theorem eq_zero_iff (known : n ∈ nodes) : depth n = 0 ↔ needs n = [] := by
  rw [depths n known, height_eq_zero]

theorem lt (known : n ∈ nodes) (needed : p ∈ needs n) : depth p < depth n := by
  rw [depths n known]
  exact lt_height needed

theorem le_succ (known : n ∈ nodes) (bounded : ∀ p ∈ needs n, depth p ≤ level) :
    depth n ≤ level + 1 := by
  rw [depths n known]
  exact height_le bounded

end Depths

/-- The nodes of a grounded list have depths. -/
theorem exists_depths (grounded : Grounded (fun n p => p ∈ needs n) l) :
    ∃ depth, Depths needs l depth := by
  induction l with
  | nil => exact ⟨fun _ => 0, by simp [Depths]⟩
  | cons a l ih =>
    obtain ⟨off, below, rest⟩ := grounded
    obtain ⟨depth, depths⟩ := ih rest
    refine ⟨Function.update depth a (height needs depth a), ?_⟩
    -- what the nodes need is behind `a`, where nothing changes
    have same {n : String} (behind : ∀ p ∈ needs n, p ∈ l) :
        height needs (Function.update depth a (height needs depth a)) n = height needs depth n := by
      apply height_congr
      intro p needed
      have other : p ≠ a := fun eq => off (eq ▸ behind p needed)
      rw [Function.update_of_ne other]
    intro n known
    rcases List.mem_cons.1 known with rfl | known
    · rw [same below, Function.update_self]
    · have other : n ≠ a := fun eq => off (eq ▸ known)
      rw [same fun p needed => rest.mem_of_rel known needed, Function.update_of_ne other,
        depths n known]

/-! ## The queue -/

/-- While nodes are settled, those in the queue are of one depth, followed by some of the next. What
waits is deeper than the first of them, and what is done is not. -/
structure Levels (depth : String → Nat) (level : Nat) (queue : List String) (waiting : Waiting)
    (done : List String) : Prop where
  queued : ∃ now next, queue = now ++ next ∧ (∀ n ∈ now, depth n = level) ∧
    ∀ n ∈ next, depth n = level + 1
  deeper : ∀ w ∈ waiting, level < depth w.1
  above : ∀ n ∈ done, depth n ≤ level
  sorted : done.Pairwise fun later earlier => depth earlier ≤ depth later

theorem Settling.mem_of_queue (settling : Settling needs nodes queue waiting done)
    (queued : n ∈ queue) :
    n ∈ nodes :=
  settling.all.mem_iff.1 (by simp [queued])

theorem Settling.mem_of_waiting (settling : Settling needs nodes queue waiting done)
    {w : String × List String} (waits : w ∈ waiting) : w.1 ∈ nodes :=
  settling.all.mem_iff.1 (by simp [Entries.keys, List.mem_map_of_mem waits])

namespace Levels

variable {node : String}

/-- When no node of the present depth is queued any more, what waits is deeper than the next
depth. -/
theorem descend (depths : Depths needs nodes depth) (known : ∀ n ∈ nodes, ∀ p ∈ needs n, p ∈ nodes)
    (settling : Settling needs nodes queue waiting done)
    (levels : Levels depth level queue waiting done)
    (next : ∀ n ∈ queue, depth n = level + 1) : Levels depth (level + 1) queue waiting done where
  queued := ⟨queue, [], by simp, next, by simp⟩
  deeper := by
    intro w waits
    have here := settling.mem_of_waiting waits
    have deeper := levels.deeper w waits
    by_contra shallow
    -- it misses something of the present depth or above, which is nowhere
    obtain ⟨p, missing⟩ := List.exists_mem_of_ne_nil _ (settling.nonempty w waits)
    obtain ⟨needed, open_⟩ := (settling.missing w waits p).1 missing
    have above := depths.lt here needed
    have place := settling.all.mem_iff.2 (known w.1 here p needed)
    simp only [List.mem_append] at place
    rcases place with (queued | waits') | finished
    · have := next p queued
      omega
    · obtain ⟨w', mem, rfl⟩ := List.mem_map.1 waits'
      have := levels.deeper w' mem
      omega
    · exact open_ finished
  above := fun n finished => Nat.le_succ_of_le (levels.above n finished)
  sorted := levels.sorted

/-- What is released while a depth is being settled is of the next depth. -/
theorem release (distinct : nodes.Nodup) (depths : Depths needs nodes depth)
    (settling : Settling needs nodes (node :: queue) waiting done)
    (levels : Levels depth level (node :: queue) waiting done) (here : depth node = level) :
    Levels depth level (queue ++ (Order.release node waiting).1) (Order.release node waiting).2
      (node :: done) := by
  have after := settling.step distinct
  have upTo : ∀ n ∈ node :: done, depth n ≤ level := by
    intro n finished
    rcases List.mem_cons.1 finished with rfl | finished
    · exact here.le
    · exact levels.above n finished
  have released : ∀ n ∈ (Order.release node waiting).1, depth n = level + 1 := by
    intro n mem
    have queued : n ∈ queue ++ (Order.release node waiting).1 := List.mem_append_right _ mem
    have bounded := depths.le_succ (after.mem_of_queue queued)
      fun p needed => upTo p (after.ready n queued p needed)
    obtain ⟨w, waits, -, rfl⟩ := mem_release_fst.1 mem
    have := levels.deeper w waits
    omega
  refine ⟨?_, ?_, upTo, ?_⟩
  · obtain ⟨now, next, cut, present, following⟩ := levels.queued
    cases now with
    | nil =>
      -- the node itself would be of the next depth
      rw [List.nil_append] at cut
      have first : node ∈ next := cut ▸ List.mem_cons_self
      have := following node first
      omega
    | cons first now =>
      obtain ⟨rfl, rfl⟩ := List.cons.inj cut
      refine ⟨now, next ++ (Order.release node waiting).1, by simp, ?_, ?_⟩
      · exact fun n mem => present n (by simp [mem])
      · exact fun n mem => (List.mem_append.1 mem).elim (following n) (released n)
  · intro e mem
    obtain ⟨w, waits, -, rfl⟩ := mem_release_snd.1 mem
    exact levels.deeper w waits
  · refine List.pairwise_cons.2 ⟨?_, levels.sorted⟩
    intro n finished
    rw [here]
    exact levels.above n finished

/-- Taking a node from the queue. -/
theorem step (distinct : nodes.Nodup) (depths : Depths needs nodes depth)
    (known : ∀ n ∈ nodes, ∀ p ∈ needs n, p ∈ nodes)
    (settling : Settling needs nodes (node :: queue) waiting done)
    (levels : Levels depth level (node :: queue) waiting done) :
    ∃ level', Levels depth level' (queue ++ (Order.release node waiting).1)
      (Order.release node waiting).2 (node :: done) := by
  obtain ⟨now, next, cut, present, following⟩ := levels.queued
  cases now with
  | nil =>
    rw [List.nil_append] at cut
    have deeper := levels.descend depths known settling (cut ▸ following)
    have first : node ∈ next := cut ▸ List.mem_cons_self
    exact ⟨level + 1, deeper.release distinct depths settling (following node first)⟩
  | cons first now =>
    obtain ⟨rfl, -⟩ := List.cons.inj cut
    exact ⟨level, levels.release distinct depths settling (present node (by simp))⟩

/-- Nodes are settled by depth, to the end of the queue. -/
theorem settle (distinct : nodes.Nodup) (depths : Depths needs nodes depth)
    (known : ∀ n ∈ nodes, ∀ p ∈ needs n, p ∈ nodes)
    (settling : Settling needs nodes queue waiting done)
    (levels : Levels depth level queue waiting done) :
    (Order.settle queue waiting done).1.Pairwise fun later earlier =>
      depth earlier ≤ depth later := by
  fun_induction Order.settle queue waiting done generalizing level with
  | case1 waiting done => exact levels.sorted
  | case2 waiting done node rest ih =>
    obtain ⟨level', levels⟩ := levels.step distinct depths known settling
    exact ih (settling.step distinct) levels

end Levels

theorem settle_prefix (queue : List String) (waiting : Waiting) (done : List String) :
    done.reverse ++ queue <+: (settle queue waiting done).1.reverse := by
  fun_induction settle queue waiting done with
  | case1 waiting done => simp
  | case2 waiting done node rest ih =>
    refine List.IsPrefix.trans ?_ ih
    exact ⟨(release node waiting).1, by simp⟩

end

/-! ## Linked models -/

variable {source m : Model} {s : Symbols} {depth : String → Nat}

/-- The depths of the outputs of an order. -/
def HasDepths (o : Order) (depth : String → Nat) : Prop :=
  Depths (fun n => (o.dependencies.lookup n).getD []) o.nodes depth

/-- An order by depth that begins with all outputs of depth zero, as they are listed. -/
structure Layered (o : Order) (depth : String → Nat) : Prop where
  sorted : o.order.Pairwise fun earlier later => depth earlier ≤ depth later
  first : ∃ deeper, o.order = o.nodes.filter (fun n => depth n = 0) ++ deeper ∧
    ∀ n ∈ deeper, 0 < depth n

theorem hasDepths_ofDone (linked : Linked m s) {done : List String} :
    (ofDone m s done).HasDepths depth ↔ Depths (needs m s) s.outputOrder depth := by
  simp only [HasDepths, ofDone, lookup_needsTable linked]

theorem keys_ready (m : Model) (s : Symbols) :
    Entries.keys ((needsTable m s).filter fun w => w.2.isEmpty) =
      s.outputOrder.filter fun n => (needs m s n).isEmpty := by
  simp [needsTable, Entries.keys, List.filter_map, Function.comp_def]

theorem levels_start (depths : Depths (needs m s) s.outputOrder depth) :
    Levels depth 0 (Entries.keys ((needsTable m s).filter fun w => w.2.isEmpty))
      ((needsTable m s).filter fun w => !w.2.isEmpty) [] where
  queued := by
    refine ⟨_, [], (List.append_nil _).symm, ?_, by simp⟩
    intro n queued
    rw [keys_ready, List.mem_filter, List.isEmpty_iff] at queued
    exact (depths.eq_zero_iff queued.1).2 queued.2
  deeper := by
    intro w waits
    simp only [needsTable, List.mem_filter, List.mem_map] at waits
    obtain ⟨⟨n, known, rfl⟩, nonempty⟩ := waits
    rw [Nat.pos_iff_ne_zero, ne_eq, depths.eq_zero_iff known]
    simpa using nonempty
  above := by simp
  sorted := List.Pairwise.nil

theorem layered_ofDone (linked : Linked m s) (complete : (settled m s).2 = [])
    (hasDepths : (ofDone m s (settled m s).1).HasDepths depth) :
    (ofDone m s (settled m s).1).Layered depth := by
  have depths := (hasDepths_ofDone linked).1 hasDepths
  have distinct := nodup_outputOrder linked
  have settling := settling_settled linked
  rw [complete] at settling
  refine ⟨?_, ?_⟩
  · have sorted := (levels_start depths).settle distinct depths
      (fun _ _ _ => mem_needs_outputOrder linked) (settling_start m s)
    exact List.pairwise_reverse.2 sorted
  · obtain ⟨deeper, cut⟩ : _ <+: (settled m s).1.reverse := settle_prefix _ _ []
    have ready : Entries.keys ((needsTable m s).filter fun w => w.2.isEmpty) =
        s.outputOrder.filter fun n => depth n = 0 := by
      rw [keys_ready]
      apply List.filter_congr
      intro n known
      rw [Bool.eq_iff_iff, List.isEmpty_iff, decide_eq_true_iff, depths.eq_zero_iff known]
    rw [List.reverse_nil, List.nil_append, ready] at cut
    refine ⟨deeper, cut.symm, ?_⟩
    intro n mem
    by_contra shallow
    -- an output of depth zero stands among the first ones already
    have once : (s.outputOrder.filter (fun n => depth n = 0) ++ deeper).Nodup := by
      rw [cut, List.nodup_reverse]
      exact settling.grounded.nodup
    have known : n ∈ s.outputOrder := by
      rw [← settling.perm.mem_iff, ← List.mem_reverse, ← cut]
      exact List.mem_append_right _ mem
    have first : n ∈ s.outputOrder.filter fun n => depth n = 0 := by
      simp only [List.mem_filter, known, decide_eq_true_eq, true_and]
      omega
    exact (List.nodup_append.1 once).2.2 n first n mem rfl

theorem exists_hasDepths (linked : Linked m s) (complete : (settled m s).2 = []) :
    ∃ depth, (ofDone m s (settled m s).1).HasDepths depth := by
  have settling := settling_settled linked
  rw [complete] at settling
  obtain ⟨depth, depths⟩ := exists_depths settling.grounded
  refine ⟨depth, (hasDepths_ofDone linked).2 fun n known => depths n ?_⟩
  exact settling.perm.mem_iff.2 known

/-- A model in which no output depends on itself is ordered by depth. -/
theorem layered_of_acyclic (index : Symbols.ofModel source = .ok s) (link : source.link s = .ok m)
    (acyclic : ∀ output, ¬TransGen (DependsOn m s) output output) :
    ∃ o, ofModel m s = .ok o ∧ o.nodes = s.outputOrder ∧ (∃ depth, o.HasDepths depth) ∧
      ∀ depth, o.HasDepths depth → o.Layered depth := by
  have linked := linked_of_link index link
  have complete := settled_of_acyclic linked acyclic
  have result := ofModel_eq linked
  rw [if_pos (by simp [complete])] at result
  exact ⟨_, result, rfl, exists_hasDepths linked complete, fun _ => layered_ofDone linked complete⟩

def ladder : Model where
  sections := []
  definitions := [reader "C" ["a", "b"] ["c"], reader "A" [] ["a"], reader "B" ["a"] ["b"],
    reader "D" [] ["d"]]
  metadata := []

theorem layered_ladder : ∃ s m o, Symbols.ofModel ladder = .ok s ∧ ladder.link s = .ok m ∧
    (∀ output, ¬TransGen (DependsOn m s) output output) ∧ ofModel m s = .ok o ∧
    o.order = ["a", "d", "b", "c"] ∧ ∃ depth, o.HasDepths depth ∧ o.Layered depth := by
  obtain ⟨s, index⟩ : ∃ s, Symbols.ofModel ladder = .ok s := ⟨_, rfl⟩
  obtain ⟨m, link⟩ : ∃ m, ladder.link s = .ok m := by
    cases index
    exact ⟨_, rfl⟩
  have ordered : (ofModel m s).toOption.map (·.order) = some ["a", "d", "b", "c"] := by
    cases index
    cases link
    decide +kernel
  obtain ⟨o, result, order⟩ := exists_of_toOption_map ordered
  have acyclic := acyclic_of_ofModel (linked_of_link index link) result
  obtain ⟨o', result', -, ⟨depth, hasDepths⟩, layered⟩ := layered_of_acyclic index link acyclic
  rw [result] at result'
  cases result'
  exact ⟨s, m, o, index, link, acyclic, result, order, depth, hasDepths, layered depth hasDepths⟩

end Forecast.Order

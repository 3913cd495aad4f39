import Forecast.Proofs.Order.Search
import Mathlib.Algebra.BigOperators.Group.Finset.Basic

/-!
# Deciding whether there is a cycle

The search goes on turn by turn: it takes up a root, enters or passes over a
successor, or finishes a node. Each turn uses up a root or a step of the path,
and a node that is entered brings along as many steps as it has successors. So
the search ends after as many turns as there are roots, candidates and
successors of candidates. It then shows a cycle if there is one, and nothing
otherwise.
-/

namespace Forecast.Order

open Relation

/-- Where a search stands: at which roots it has yet to look, its path, and the nodes that are
finished. -/
structure Search where
  roots : List String
  path : Path
  finished : List String

namespace Search

variable (successors : String → List String) (candidates : List String)

def start : Search := ⟨candidates, [], []⟩

/-- What a turn leads to: where the search stands after it, or the answer. -/
def turn : Search → Search ⊕ List String
  | ⟨[], [], _⟩ => .inr []
  | ⟨root :: others, [], finished⟩ =>
    if root ∈ candidates ∧ root ∉ finished then .inl ⟨others, [(root, successors root)], finished⟩
    else .inl ⟨others, [], finished⟩
  | ⟨roots, (node, []) :: up, finished⟩ => .inl ⟨roots, up, node :: finished⟩
  | ⟨roots, (node, next :: rest) :: up, finished⟩ =>
    if next ∈ candidates ∧ next ∉ finished then
      if next ∈ node :: Path.nodes up then
        .inr ((node :: Path.nodes up).reverse.dropWhile (· != next) ++ [next])
      else .inl ⟨roots, (next, successors next) :: (node, rest) :: up, finished⟩
    else .inl ⟨roots, (node, rest) :: up, finished⟩

/-- The answer of the search, if there is one within so many turns. -/
def within : Nat → Search → Option (List String)
  | 0, _ => none
  | turns + 1, s =>
    match s.turn successors candidates with
    | .inl next => within turns next
    | .inr answer => some answer

/-- The answer that the search goes on to. -/
def answer (s : Search) : List String :=
  search successors candidates s.roots s.path s.finished

def ahead (path : Path) (finished : List String) : Finset String :=
  candidates.toFinset.filter fun n => untouched path finished n = true

/-- The turns that are left at most: one for each root and for each step of the path, and for each
candidate ahead one to finish it and one for each of its successors. -/
def left (s : Search) : Nat :=
  s.roots.length + s.path.remaining + ∑ n ∈ ahead candidates s.path s.finished,
    ((successors n).length + 1)

variable {successors candidates} {s s' : Search} {found finished : List String} {path up : Path}
  {node next : String}

theorem answer_eq (s : Search) :
    s.answer successors candidates =
      match s.turn successors candidates with
      | .inl s' => s'.answer successors candidates
      | .inr found => found := by
  fun_cases turn successors candidates s with
  | case1 => simp only [answer, search]
  | case2 root others finished enter => simp only [answer, search, if_pos enter]
  | case3 root others finished skip => simp only [answer, search, if_neg skip]
  | case4 roots node up finished => simp only [answer, search]
  | case5 roots node next rest up finished open_ on =>
    simp only [answer, search, if_pos open_, if_pos on]
  | case6 roots node next rest up finished open_ off =>
    simp only [answer, search, if_pos open_, if_neg off]
  | case7 roots node next rest up finished skip => simp only [answer, search, if_neg skip]

theorem ahead_enter (rest : List String) :
    ahead candidates ((next, rest) :: path) finished =
      (ahead candidates path finished).erase next := by
  ext n
  simp only [ahead, untouched, Finset.mem_filter, Finset.mem_erase, decide_eq_true_eq,
    Path.nodes_cons, List.mem_cons, not_or]
  tauto

theorem ahead_advance (rest other : List String) :
    ahead candidates ((node, rest) :: up) finished =
      ahead candidates ((node, other) :: up) finished := by
  unfold ahead
  rw [untouched_advance node rest other]

theorem ahead_finish (rest : List String) :
    ahead candidates up (node :: finished) = ahead candidates ((node, rest) :: up) finished := by
  unfold ahead
  rw [untouched_finish node rest]

theorem sum_ahead_enter (path : Path) (rest : List String) (known : next ∈ candidates)
    (open_ : next ∉ finished)
    (off : next ∉ path.nodes) (weight : String → Nat) :
    weight next + ∑ n ∈ ahead candidates ((next, rest) :: path) finished, weight n =
      ∑ n ∈ ahead candidates path finished, weight n := by
  rw [ahead_enter rest]
  apply Finset.add_sum_erase
  simp [ahead, untouched, known, open_, off]

/-- A turn that does not end the search leaves one less. -/
theorem left_of_turn (h : s.turn successors candidates = .inl s') :
    s'.left successors candidates + 1 = s.left successors candidates := by
  revert h
  fun_cases turn successors candidates s with
  | case1 => rintro ⟨⟩
  | case2 root others finished enter =>
    rintro ⟨⟩
    have entered := sum_ahead_enter [] (successors root) enter.1 enter.2 (by simp)
      fun n => (successors n).length + 1
    simp only [left, ← entered, List.length_cons, Path.remaining_cons]
    omega
  | case3 root others finished skip =>
    rintro ⟨⟩
    simp only [left, List.length_cons]
    omega
  | case4 roots node up finished =>
    rintro ⟨⟩
    simp only [left, ahead_finish [], Path.remaining_cons, List.length_nil]
    omega
  | case5 roots node next rest up finished open_ on => rintro ⟨⟩
  | case6 roots node next rest up finished open_ off =>
    rintro ⟨⟩
    have entered := sum_ahead_enter ((node, rest) :: up) (successors next) open_.1 open_.2 off
      fun n => (successors n).length + 1
    simp only [left, ahead_advance (next :: rest) rest, ← entered, List.length_cons,
      Path.remaining_cons]
    omega
  | case7 roots node next rest up finished skip =>
    rintro ⟨⟩
    simp only [left, ahead_advance (next :: rest) rest, List.length_cons, Path.remaining_cons]
    omega

/-- The search ends as soon as it may take one turn more than are left. -/
theorem within_of_left_lt {turns : Nat} (enough : s.left successors candidates < turns) :
    s.within successors candidates turns = some (s.answer successors candidates) := by
  induction turns generalizing s with
  | zero => omega
  | succ turns ih =>
    rw [within, answer_eq]
    cases h : s.turn successors candidates with
    | inl s' =>
      have less := left_of_turn h
      exact ih (by omega)
    | inr found => rfl

theorem left_start : (start candidates).left successors candidates =
    candidates.length + ∑ n ∈ candidates.toFinset, ((successors n).length + 1) := by
  have all : ahead candidates [] [] = candidates.toFinset :=
    Finset.filter_true_of_mem fun n _ => by simp [untouched]
  rw [left, start, all, Path.remaining, Nat.add_zero]

end Search

/-- All elements of a walk but the last one go on. -/
theorem exists_step_of_isChain {α : Type} {R : α → α → Prop} {walk : List α} {last a : α}
    (steps : (walk ++ [last]).IsChain R) (mem : a ∈ walk) : ∃ b, R a b := by
  obtain ⟨front, back, rfl⟩ := List.append_of_mem mem
  rw [List.append_assoc, List.cons_append] at steps
  obtain ⟨b, rest, onward⟩ := List.exists_cons_of_ne_nil (List.concat_ne_nil last back)
  have here := steps.right_of_append
  rw [onward, List.isChain_cons_cons] at here
  exact ⟨b, here.1⟩

theorem ClosedWalk.exists_cycle {walk : List String}
    (h : ClosedWalk (Among successors candidates) walk) :
    ∃ first others, walk = first :: others ++ [first] ∧ (first :: others).Nodup ∧
      (∀ n ∈ first :: others, n ∈ candidates) ∧ walk.IsChain fun a b => b ∈ successors a := by
  obtain ⟨first, others, rfl⟩ := h.closed
  refine ⟨first, others, rfl, ?_, ?_, h.steps.imp fun a b step => step.2.2⟩
  · have simple := h.simple
    rwa [List.dropLast_concat] at simple
  · intro n hn
    obtain ⟨b, step⟩ := exists_step_of_isChain h.steps hn
    exact step.1

/-- The search for a cycle ends: it takes at most one turn for each candidate that is listed, one
more for each that is listed for the first time and one for each of its successors, and one to
answer. It answers nothing just if no candidate leads back to itself through candidates. Otherwise
it answers such a cycle: distinct candidates, each a successor of the one before, and the first one
also of the last. -/
theorem findCycle_decides (successors : String → List String) (candidates : List String) :
    (∃ turns ≤ candidates.length + (∑ n ∈ candidates.toFinset, ((successors n).length + 1)) + 1,
      (Search.start candidates).within successors candidates turns =
        some (findCycle successors candidates)) ∧
      (findCycle successors candidates = [] ↔ ¬∃ a, TransGen (Among successors candidates) a a) ∧
      (findCycle successors candidates = [] ∨ ∃ first others,
        findCycle successors candidates = first :: others ++ [first] ∧ (first :: others).Nodup ∧
        (∀ n ∈ first :: others, n ∈ candidates) ∧
        (first :: others ++ [first]).IsChain fun a b => b ∈ successors a) := by
  refine ⟨⟨_, Nat.le_refl _, ?_⟩, ?_, ?_⟩
  · rw [← Search.left_start]
    exact Search.within_of_left_lt (Nat.lt_succ_self _)
  · constructor
    · rintro nothing ⟨a, loop⟩
      exact findCycle_ne_nil loop nothing
    · intro acyclic
      by_contra found
      exact acyclic (closedWalk_findCycle found).transGen
  · by_cases nothing : findCycle successors candidates = []
    · exact .inl nothing
    · obtain ⟨first, others, walk, simple, known, steps⟩ :=
        (closedWalk_findCycle nothing).exists_cycle
      exact .inr ⟨first, others, walk, simple, known, walk ▸ steps⟩

end Forecast.Order

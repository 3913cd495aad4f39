/-!
# Cycles in a directed graph

A depth-first search for a cycle among given candidates. The path holds the
nodes that are being visited, each with the successors that are still to be
tried; a finished node is never entered again. The first successor found on the
path closes a cycle.
-/

namespace Forecast.Order

/-- The nodes on the way to the current one, the current one first, each with what is left to
try. -/
abbrev Path := List (String × List String)

def Path.nodes (path : Path) : List String :=
  path.map (·.1)

@[simp] theorem Path.nodes_nil : Path.nodes [] = [] := rfl

@[simp] theorem Path.nodes_cons (n : String) (rest : List String) (path : Path) :
    Path.nodes ((n, rest) :: path) = n :: Path.nodes path := rfl

/-- A node that is neither finished nor on the path. -/
def untouched (path : Path) (finished : List String) (n : String) : Bool :=
  decide (n ∉ finished ∧ n ∉ path.nodes)

/-- The steps that a path can still take without entering an untouched node. -/
def Path.remaining : Path → Nat
  | [] => 0
  | (_, rest) :: up => rest.length + 1 + remaining up

@[simp] theorem Path.remaining_cons (n : String) (rest : List String) (path : Path) :
    Path.remaining ((n, rest) :: path) = rest.length + 1 + Path.remaining path := rfl

theorem countP_lt_of_mem {p q : String → Bool} {l : List String} {n : String}
    (imp : ∀ m, p m = true → q m = true) (mem : n ∈ l) (hp : p n = false) (hq : q n = true) :
    l.countP p < l.countP q := by
  induction l with
  | nil => simp at mem
  | cons m l ih =>
    have le : l.countP p ≤ l.countP q := List.countP_mono_left fun x _ => imp x
    rcases List.mem_cons.1 mem with rfl | mem
    · rw [List.countP_cons_of_neg (by simp [hp]), List.countP_cons_of_pos hq]
      omega
    · have lt := ih mem
      simp only [List.countP_cons]
      by_cases hm : p m = true
      · simp [hm, imp m hm]
        omega
      · simp [hm]
        omega

theorem countP_untouched_cons_lt {candidates : List String} {path : Path} {finished : List String}
    {n : String} (rest : List String) (known : n ∈ candidates) (open_ : n ∉ finished)
    (off : n ∉ path.nodes) :
    candidates.countP (untouched ((n, rest) :: path) finished) <
      candidates.countP (untouched path finished) := by
  apply countP_lt_of_mem (n := n) _ known
  · simp [untouched]
  · simp [untouched, open_, off]
  · intro m
    simp [untouched]
    intro a _ b
    exact ⟨a, b⟩

theorem untouched_finish (n : String) (rest : List String) (path : Path) (finished : List String) :
    untouched path (n :: finished) = untouched ((n, rest) :: path) finished := by
  funext m
  simp only [untouched, List.mem_cons, Path.nodes_cons, not_or, decide_eq_decide]
  constructor
  · exact fun h => ⟨h.1.2, h.1.1, h.2⟩
  · exact fun h => ⟨⟨h.2.1, h.1⟩, h.2.2⟩

theorem untouched_advance (n : String) (rest other : List String) (path : Path)
    (finished : List String) :
    untouched ((n, rest) :: path) finished = untouched ((n, other) :: path) finished := by
  funext m
  simp [untouched]

/-- Goes on with the search: along the path, or from the next root if the path is empty. -/
def search (successors : String → List String) (candidates : List String) (roots : List String)
    (path : Path) (finished : List String) : List String :=
  match path with
  | [] =>
    match roots with
    | [] => []
    | root :: others =>
      if root ∈ candidates ∧ root ∉ finished then
        search successors candidates others [(root, successors root)] finished
      else search successors candidates others [] finished
  | (node, []) :: up => search successors candidates roots up (node :: finished)
  | (node, next :: rest) :: up =>
    if next ∈ candidates ∧ next ∉ finished then
      if next ∈ node :: Path.nodes up then
        (node :: Path.nodes up).reverse.dropWhile (· != next) ++ [next]
      else search successors candidates roots
        ((next, successors next) :: (node, rest) :: up) finished
    else search successors candidates roots ((node, rest) :: up) finished
termination_by (candidates.countP (untouched path finished), roots.length + path.remaining)
decreasing_by
  · rename_i h
    exact Prod.Lex.left _ _ (countP_untouched_cons_lt _ h.1 h.2 (by simp))
  · exact Prod.Lex.right _ (by simp)
  · rw [untouched_finish node []]
    exact Prod.Lex.right _ (by simp)
  · rename_i h off
    rw [untouched_advance node (next :: rest) rest]
    exact Prod.Lex.left _ _ (countP_untouched_cons_lt _ h.1 h.2 off)
  · rw [untouched_advance node (next :: rest) rest]
    exact Prod.Lex.right _ (by simp)

/-- A cycle among the candidates, its first node repeated at the end; empty if there is none. -/
def findCycle (successors : String → List String) (candidates : List String) : List String :=
  search successors candidates candidates [] []

end Forecast.Order

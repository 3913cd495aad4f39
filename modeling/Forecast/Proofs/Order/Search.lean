import Forecast.Order.Cycle
import Forecast.Proofs.Order.Grounded

/-!
# The search for a cycle

The depth-first search answers a closed walk through candidates if there is a
cycle among them, and nothing otherwise. The path is always a simple walk
towards the current node; finished nodes form a grounded list, since every
successor of a node on the path is finished, still to be tried, or later on the
path.
-/

namespace Forecast.Order

open Relation

variable {successors : String → List String} {candidates : List String}

def Among (successors : String → List String) (candidates : List String) (a b : String) : Prop :=
  a ∈ candidates ∧ b ∈ candidates ∧ b ∈ successors a

/-- A path is a simple walk through candidates, the current node first, and what is left to try
follows from its nodes. -/
structure Path.Walks (successors : String → List String) (candidates : List String) (path : Path) :
    Prop where
  steps : path.nodes.IsChain fun a b => Among successors candidates b a
  simple : path.nodes.Nodup
  known : ∀ n ∈ path.nodes, n ∈ candidates
  left : ∀ e ∈ path, e.2 ⊆ successors e.1

namespace Path.Walks

variable {node next root : String} {rest : List String} {up : Path}

theorem nil : Path.Walks successors candidates [] where
  steps := List.IsChain.nil
  simple := List.nodup_nil
  known := by simp
  left := by simp

theorem singleton (h : root ∈ candidates) :
    Path.Walks successors candidates [(root, successors root)] where
  steps := List.IsChain.singleton _
  simple := List.nodup_singleton _
  known := by simpa using h
  left := by simp

theorem tail (h : Path.Walks successors candidates ((node, rest) :: up)) :
    Path.Walks successors candidates up where
  steps := h.steps.tail
  simple := (List.nodup_cons.1 h.simple).2
  known n hn := h.known n (List.mem_cons_of_mem _ hn)
  left e he := h.left e (List.mem_cons_of_mem _ he)

theorem advance (h : Path.Walks successors candidates ((node, next :: rest) :: up)) :
    Path.Walks successors candidates ((node, rest) :: up) where
  steps := h.steps
  simple := h.simple
  known := h.known
  left e he := by
    rcases List.mem_cons.1 he with rfl | he
    · exact fun x hx => h.left (node, next :: rest) (by simp) (by simp [hx])
    · exact h.left e (by simp [he])

theorem step (h : Path.Walks successors candidates ((node, next :: rest) :: up))
    (known : next ∈ candidates) : Among successors candidates node next :=
  ⟨h.known node (by simp), known, h.left (node, next :: rest) (by simp) (by simp)⟩

theorem enter (h : Path.Walks successors candidates ((node, next :: rest) :: up))
    (known : next ∈ candidates) (off : next ∉ node :: up.nodes) :
    Path.Walks successors candidates ((next, successors next) :: (node, rest) :: up) where
  steps := List.isChain_cons_cons.2 ⟨h.step known, h.steps⟩
  simple := List.nodup_cons.2 ⟨off, h.simple⟩
  known n hn := by
    rcases List.mem_cons.1 hn with rfl | hn
    · exact known
    · exact h.known n hn
  left e he := by
    rcases List.mem_cons.1 he with rfl | he
    · exact fun x hx => hx
    · exact h.advance.left e he

theorem close (h : Path.Walks successors candidates ((node, next :: rest) :: up))
    (known : next ∈ candidates) (on : next ∈ node :: up.nodes) :
    ClosedWalk (Among successors candidates)
      ((node :: up.nodes).reverse.dropWhile (· != next) ++ [next]) := by
  obtain ⟨front, back, cut⟩ := List.append_of_mem on
  have simple : (front ++ next :: back).Nodup := cut ▸ h.simple
  have steps : (front ++ next :: back).IsChain fun a b => Among successors candidates b a :=
    cut ▸ h.steps
  have first : ∀ x ∈ (front ++ [next]).head?, Among successors candidates x next := by
    intro x hx
    have : (front ++ next :: back).head? = (front ++ [next]).head? := by cases front <;> rfl
    rw [← this, ← cut] at hx
    cases hx
    exact h.step known
  have walk : (node :: up.nodes).reverse.dropWhile (· != next) ++ [next] =
      next :: front.reverse ++ [next] := by
    have notBack : ∀ x ∈ back.reverse, (x != next) = true := by
      intro x hx
      have notMem := (List.nodup_cons.1 simple.of_append_right).1
      rw [bne_iff_ne]
      rintro rfl
      exact notMem (by simpa using hx)
    rw [cut, List.reverse_append, List.reverse_cons, List.append_assoc,
      List.dropWhile_append_of_pos notBack]
    simp
  rw [walk]
  refine ⟨?_, ⟨next, front.reverse, rfl⟩, ?_⟩
  · rw [← List.isChain_reverse]
    have : (next :: front.reverse ++ [next]).reverse = next :: (front ++ [next]) := by simp
    rw [this, List.isChain_cons]
    refine ⟨first, ?_⟩
    have split : front ++ next :: back = (front ++ [next]) ++ back := by simp
    exact (split ▸ steps).left_of_append
  · have : next :: front.reverse = (front ++ [next]).reverse := by simp
    rw [List.dropLast_concat, this, List.nodup_reverse]
    have split : front ++ next :: back = (front ++ [next]) ++ back := by simp
    exact (split ▸ simple).of_append_left

end Path.Walks

/-- What the search answers is nothing or a closed walk through candidates. -/
theorem closedWalk_of_search {roots : List String} {path : Path} {finished : List String}
    (walks : path.Walks successors candidates)
    (found : search successors candidates roots path finished ≠ []) :
    ClosedWalk (Among successors candidates)
      (search successors candidates roots path finished) := by
  fun_induction search successors candidates roots path finished with
  | case1 => exact absurd rfl found
  | case2 finished root others enter ih => exact ih (.singleton enter.1) found
  | case3 finished root others skip ih => exact ih .nil found
  | case4 roots finished node up ih => exact ih walks.tail found
  | case5 roots finished node next rest up open_ on => exact walks.close open_.1 on
  | case6 roots finished node next rest up open_ off ih => exact ih (walks.enter open_.1 off) found
  | case7 roots finished node next rest up skip ih => exact ih walks.advance found

/-- What was tried on a path: every successor of a node is finished, still to be tried, or one of
the nodes entered after it, which are `later`. -/
def Path.Tried (successors : String → List String) (candidates finished : List String) :
    List String → Path → Prop
  | _, [] => True
  | later, (n, rest) :: up =>
    (∀ x ∈ successors n, x ∈ candidates → x ∈ finished ∨ x ∈ rest ∨ x ∈ later) ∧
      Tried successors candidates finished (n :: later) up

theorem Path.Tried.mono {finished finished' later later' : List String} {path : Path}
    (h : path.Tried successors candidates finished later)
    (grow : ∀ x, x ∈ finished ∨ x ∈ later → x ∈ finished' ∨ x ∈ later')
    (keep : finished ⊆ finished') :
    path.Tried successors candidates finished' later' := by
  induction path generalizing later later' with
  | nil => trivial
  | cons e up ih =>
    obtain ⟨n, rest⟩ := e
    refine ⟨?_, ih h.2 ?_⟩
    · intro x hx known
      rcases h.1 x hx known with done | untried | later
      · exact .inl (keep done)
      · exact .inr (.inl untried)
      · exact (grow x (.inr later)).imp_right .inr
    · rintro x (done | later)
      · exact .inl (keep done)
      · rcases List.mem_cons.1 later with rfl | later
        · exact .inr (by simp)
        · exact (grow x (.inr later)).imp_right (List.mem_cons_of_mem _)

/-- What the search knows while it has found no cycle. -/
structure Searched (successors : String → List String) (candidates roots : List String)
    (path : Path)
    (finished : List String) : Prop where
  grounded : Grounded (Among successors candidates) finished
  open_ : ∀ n ∈ path.nodes, n ∉ finished
  simple : path.nodes.Nodup
  tried : path.Tried successors candidates finished []
  covered : ∀ c ∈ candidates, c ∈ finished ∨ c ∈ roots ∨ c ∈ path.nodes

namespace Searched

variable {roots finished rest : List String} {path up : Path} {node next root : String}

theorem start : Searched successors candidates candidates [] [] where
  grounded := trivial
  open_ := by simp
  simple := List.nodup_nil
  tried := trivial
  covered c hc := .inr (.inl hc)

theorem enterRoot (h : Searched successors candidates (root :: roots) [] finished)
    (off : root ∉ finished) :
    Searched successors candidates roots [(root, successors root)] finished where
  grounded := h.grounded
  open_ := by simpa using off
  simple := List.nodup_singleton _
  tried := ⟨fun x hx _ => .inr (.inl hx), trivial⟩
  covered c hc := by
    rcases h.covered c hc with done | waits | on
    · exact .inl done
    · rcases List.mem_cons.1 waits with rfl | waits
      · exact .inr (.inr (by simp))
      · exact .inr (.inl waits)
    · simp at on

theorem skipRoot (h : Searched successors candidates (root :: roots) [] finished)
    (skip : ¬(root ∈ candidates ∧ root ∉ finished)) :
    Searched successors candidates roots [] finished where
  grounded := h.grounded
  open_ := h.open_
  simple := h.simple
  tried := h.tried
  covered c hc := by
    rcases h.covered c hc with done | waits | on
    · exact .inl done
    · rcases List.mem_cons.1 waits with rfl | waits
      · exact .inl (by_contra fun off => skip ⟨hc, off⟩)
      · exact .inr (.inl waits)
    · exact .inr (.inr on)

/-- A node is finished when all its successors are. -/
theorem finish (h : Searched successors candidates roots ((node, []) :: up) finished) :
    Searched successors candidates roots up (node :: finished) where
  grounded := by
    refine ⟨h.open_ node (by simp), ?_, h.grounded⟩
    rintro b ⟨-, known, hb⟩
    simpa using h.tried.1 b hb known
  open_ n hn := by
    have distinct := List.nodup_cons.1 h.simple
    have off := h.open_ n (List.mem_cons_of_mem _ hn)
    rw [List.mem_cons, not_or]
    exact ⟨fun eq => distinct.1 (eq ▸ hn), off⟩
  simple := (List.nodup_cons.1 h.simple).2
  tried := by
    refine h.tried.2.mono ?_ (List.subset_cons_self _ _)
    intro x hx
    simpa [or_comm] using hx
  covered c hc := by
    rcases h.covered c hc with done | waits | on
    · exact .inl (List.mem_cons_of_mem _ done)
    · exact .inr (.inl waits)
    · rcases List.mem_cons.1 on with rfl | on
      · exact .inl (by simp)
      · exact .inr (.inr on)

theorem enter (h : Searched successors candidates roots ((node, next :: rest) :: up) finished)
    (open_ : next ∉ finished) (off : next ∉ node :: up.nodes) :
    Searched successors candidates roots ((next, successors next) :: (node, rest) :: up)
      finished where
  grounded := h.grounded
  open_ n hn := by
    rcases List.mem_cons.1 hn with rfl | hn
    · exact open_
    · exact h.open_ n hn
  simple := List.nodup_cons.2 ⟨off, h.simple⟩
  tried := by
    refine ⟨fun x hx _ => .inr (.inl hx), ?_, h.tried.2.mono ?_ (List.Subset.refl _)⟩
    · intro x hx known
      have := h.tried.1 x hx known
      simp only [List.mem_cons, List.not_mem_nil, or_false] at this ⊢
      tauto
    · intro x
      simp only [List.mem_cons]
      tauto
  covered c hc := by
    rcases h.covered c hc with done | waits | on
    · exact .inl done
    · exact .inr (.inl waits)
    · exact .inr (.inr (List.mem_cons_of_mem _ on))

theorem skip (h : Searched successors candidates roots ((node, next :: rest) :: up) finished)
    (skip : ¬(next ∈ candidates ∧ next ∉ finished)) :
    Searched successors candidates roots ((node, rest) :: up) finished where
  grounded := h.grounded
  open_ := h.open_
  simple := h.simple
  tried := by
    refine ⟨?_, h.tried.2⟩
    intro x hx known
    rcases h.tried.1 x hx known with done | untried | later
    · exact .inl done
    · rcases List.mem_cons.1 untried with rfl | untried
      · exact .inl (by_contra fun off => skip ⟨known, off⟩)
      · exact .inr (.inl untried)
    · exact .inr (.inr later)
  covered := h.covered

end Searched

/-- If the search answers nothing, all candidates stand on one grounded list. -/
theorem grounded_of_search {roots : List String} {path : Path} {finished : List String}
    (searched : Searched successors candidates roots path finished)
    (nothing : search successors candidates roots path finished = []) :
    ∃ l, Grounded (Among successors candidates) l ∧ ∀ c ∈ candidates, c ∈ l := by
  fun_induction search successors candidates roots path finished with
  | case1 finished =>
    exact ⟨finished, searched.grounded, fun c hc => by simpa using searched.covered c hc⟩
  | case2 finished root others enter ih => exact ih (searched.enterRoot enter.2) nothing
  | case3 finished root others skip ih => exact ih (searched.skipRoot skip) nothing
  | case4 roots finished node up ih => exact ih searched.finish nothing
  | case5 roots finished node next rest up open_ on => simp at nothing
  | case6 roots finished node next rest up open_ off ih =>
    exact ih (searched.enter open_.2 off) nothing
  | case7 roots finished node next rest up skip ih => exact ih (searched.skip skip) nothing

theorem closedWalk_findCycle (found : findCycle successors candidates ≠ []) :
    ClosedWalk (Among successors candidates) (findCycle successors candidates) :=
  closedWalk_of_search .nil found

theorem findCycle_ne_nil {a : String} (loop : TransGen (Among successors candidates) a a) :
    findCycle successors candidates ≠ [] := by
  intro nothing
  obtain ⟨l, grounded, all⟩ := grounded_of_search .start nothing
  have known : a ∈ candidates := by
    obtain ⟨b, step, -⟩ := TransGen.head'_iff.1 loop
    exact step.1
  exact grounded.not_transGen_self (all a known) loop

end Forecast.Order

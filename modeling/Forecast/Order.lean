import Forecast.FanIn
import Forecast.Order.Cycle
import Forecast.Symbols

/-!
# Order of computation

An output depends on the outputs that its arguments read. `settle` lists the
outputs so that each stands after all that it depends on: outputs wait in a
queue once nothing they depend on is missing, and enter it in the order of
their definitions. Outputs that never enter it lie behind a cycle.
-/

namespace Forecast

/-- The outputs that an argument reads: a single one, or all those of an object. -/
def Symbols.producers (s : Symbols) : Argument → List String
  | .reference name _ _ _ => if s.outputs.has name then [name] else s.outputsOf name
  | .spread .. => []
  | .number .. => []
  | .word _ => []

structure Order where
  nodes : List String
  /-- Each output after all those that it depends on. -/
  order : List String
  /-- What each output depends on. -/
  dependencies : Entries (List String)
  /-- What depends on each output. -/
  dependents : Entries (List String)
  /-- The object that each output belongs to. -/
  owners : Entries String

namespace Order

/-- What each output of a definition depends on, every name once. -/
def dependenciesOf (s : Symbols) (d : Definition) : Except LinkFault (Entries (List String)) := do
  let outputs := s.outputsOf d.name
  let positions ← d.feeds outputs.length
  return (outputs.zip positions).map fun (output, feed) =>
    (output, (feed.flatMap fun i => (d.arguments[i]?.map s.producers).getD []).eraseDups)

/-- What depends on each of the nodes. -/
def dependentsOf (nodes : List String) (dependencies : Entries (List String)) :
    Entries (List String) :=
  nodes.map fun n =>
    (n, nodes.filter fun m => ((dependencies.lookup m).getD []).contains n)

/-- Nodes whose missing dependencies are known. -/
abbrev Waiting := Entries (List String)

/-- Those that wait for nothing once `node` is done, and the others. -/
def release (node : String) (waiting : Waiting) : List String × Waiting :=
  let (ready, still) := (waiting.mapValues (·.erase node)).partition fun w => w.2.isEmpty
  (Entries.keys ready, still)

theorem length_release (node : String) (waiting : Waiting) :
    (release node waiting).1.length + (release node waiting).2.length = waiting.length := by
  have : ∀ (p : String × List String → Bool) (l : Waiting),
      (l.filter p).length + (l.filter fun w => !p w).length = l.length := by
    intro p l
    induction l with
    | nil => rfl
    | cons w l ih =>
      by_cases h : p w = true <;> simp [h] at ih ⊢ <;> omega
  have h := this (fun w => w.2.isEmpty) (waiting.mapValues (·.erase node))
  simp only [release, List.partition_eq_filter_filter, Entries.keys, List.length_map]
  have hl : (waiting.mapValues (·.erase node)).length = waiting.length := by
    simp [Entries.mapValues]
  rw [← hl, ← h]
  rfl

/-- Takes nodes from the queue until it is empty. The result is what was done, the last node
first, and what still waits. -/
def settle (queue : List String) (waiting : Waiting) (done : List String) : List String × Waiting :=
  match queue with
  | [] => (done, waiting)
  | node :: rest =>
    settle (rest ++ (release node waiting).1) (release node waiting).2 (node :: done)
termination_by queue.length + waiting.length
decreasing_by
  have := length_release node waiting
  simp
  omega

def ofModel (m : Model) (s : Symbols) : Except Fault Order := do
  let nodes := s.outputOrder
  let dependencies := (← (m.definitions.mapM (dependenciesOf s) : Except LinkFault _)).flatten
  let dependents := dependentsOf nodes dependencies
  let waiting := nodes.map fun n => (n, (dependencies.lookup n).getD [])
  let (ready, still) := waiting.partition fun w => w.2.isEmpty
  let (done, left) := settle (Entries.keys ready) still []
  if left.isEmpty then
    return {
      nodes
      order := done.reverse
      dependencies := waiting
      dependents
      owners := s.outputs.mapValues fun o => o.definition.name }
  else
    throw (.cyclic ⟨findCycle (fun n => (dependents.lookup n).getD []) (Entries.keys left)⟩)

end Order
end Forecast

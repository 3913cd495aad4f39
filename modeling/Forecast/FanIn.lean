import Forecast.Fault
import Forecast.Model

/-!
# Which argument feeds which output

One rule assigns the arguments of an object to its outputs; linking, ordering
and running all use it. A single output takes every argument. Otherwise each
output takes the argument at its own position, outputs beyond the last argument
share that one, and the last output also takes all arguments that are left. If
more arguments than outputs are given, that is only allowed with a spread.
-/

namespace Forecast

/-- The positions of the arguments that feed output `i` of `outputs`, for at least one argument. -/
def feed (arguments outputs i : Nat) : List Nat :=
  min i (arguments - 1) ::
    (if i + 1 = outputs then (List.range (arguments - outputs)).map (outputs + ·) else [])

def feeds (arguments outputs : Nat) : List (List Nat) :=
  if outputs = 1 then [List.range arguments]
  else if arguments = 0 then List.replicate outputs []
  else (List.range outputs).map (feed arguments outputs)

/-- The arguments of each output of a definition that has `outputs` of them, at least one. -/
def Definition.feeds (d : Definition) (outputs : Nat) : Except LinkFault (List (List Nat)) :=
  let outputs := max outputs 1
  let arguments := d.arguments.length
  if 1 < outputs ∧ outputs < arguments ∧ ¬d.hasSpread then
    .error (.ambiguous d.name d.line arguments outputs)
  else .ok (Forecast.feeds arguments outputs)

@[simp] theorem feeds_one (arguments : Nat) : feeds arguments 1 = [List.range arguments] := rfl

theorem length_feeds (arguments outputs : Nat) : (feeds arguments outputs).length = outputs := by
  unfold feeds
  split
  · simp_all
  · split <;> simp

/-- No output is fed by an argument that is not there. -/
theorem lt_of_mem_feeds {arguments outputs i : Nat} {positions : List Nat}
    (h : positions ∈ feeds arguments outputs) (hi : i ∈ positions) : i < arguments := by
  unfold feeds at h
  split at h
  · cases List.mem_singleton.1 h
    exact List.mem_range.1 hi
  · split at h
    · cases (List.mem_replicate.1 h).2
      simp at hi
    · obtain ⟨output, -, rfl⟩ := List.mem_map.1 h
      rcases List.mem_cons.1 hi with rfl | hi
      · omega
      · split at hi
        · obtain ⟨j, hj, rfl⟩ := List.mem_map.1 hi
          have := List.mem_range.1 hj
          omega
        · simp at hi

end Forecast

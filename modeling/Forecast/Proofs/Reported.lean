import Forecast.Command.Answer
import Forecast.Proofs.Outcome

/-!
# Faults that are reported

A computation reports its faults if each fault that can stop it is one that the
command answers with a message. What is put together from computations that
report their faults does so, too; and most parts of the program do, since only
some of their causes are not reported.
-/

namespace Forecast

open Outcome

variable {α : Type}

/-- A computation that stops only with faults that are reported. -/
abbrev Reports (x : Except Fault α) : Prop :=
  FailsOnly (fun fault => fault.isReported = true) x

/-! ## Causes that are reported -/

theorem reports_run (x : Except RunFault α) : Reports (x.mapError .run) :=
  .mapError fun _ _ => rfl

theorem reports_link (x : Except LinkFault α) : Reports (x.mapError .link) :=
  .mapError fun _ _ => rfl

namespace Series

variable [Amount α] {target given : Series α}

theorem reports_add (target given : Series α) :
    FailsOnly (fun e => (Fault.length e).isReported = true) (target.add given) := by
  unfold add
  split
  · exact .ok _
  · split
    · exact .ok _
    · split <;> exact .error rfl

theorem reports_sum (months : Nat) (inputs : List (Series α)) :
    FailsOnly (fun e => (Fault.length e).isReported = true) (sum months inputs) :=
  .foldlM (fun given _ total => reports_add total given) _

end Series
end Forecast

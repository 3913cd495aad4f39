import Forecast.Proofs.Horizon
import Forecast.Proofs.Plan
import Forecast.Proofs.Run.Reported

/-!
# The answers of the command

Most faults are answered with a message, but not all. With the standard types
and template, whatever the model is, the command answers with a table or with
the message of a fault, unless one of three things happens: months have to be
counted to infinity, a date in the header is too long for the reader of dates,
or no double can hold the number of years. Infinite amounts are added up like
others, and a month that is not a number is reported. Nothing else is asked of
the reader.
-/

namespace Forecast

open Outcome

/-! ## Tables -/

namespace Financials

variable {α : Type} [Amount α]

end Financials

namespace Command

variable (read : DateReader)

/-- Nothing in a model is counted to infinity: the reader takes or refuses the dates of its header,
none being too long for it, the years are given or can be counted, and no month written in the model
is infinite. -/
structure Countable (a : Arguments) (m : Model) : Prop where
  date : Horizon.firstDate read (m.metadata.mapValues .text) Horizon.startKeys ≠
    .error (.date .tooLong)
  years : a.years = none → ∃ n, Horizon.yearsOf a.months.toNat = .ok n
  definitions : ∀ d ∈ m.definitions, d.Countable

end Command
end Forecast

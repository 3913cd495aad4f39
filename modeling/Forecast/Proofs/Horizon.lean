import Forecast.Proofs.Reported

/-!
# What stops a horizon

A horizon is refused with a message if it has less than one month or year. Two
things are not reported: a date in the header that is too long for its reader,
and months whose years no double can hold.
-/

namespace Forecast

open Outcome

namespace Horizon

end Horizon

end Forecast

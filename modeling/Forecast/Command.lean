import Forecast.Calendar.Written
import Forecast.Command.Answer

/-!
# The command

The command on a day. Dates in the header of a model may leave out parts; what
they leave out is that of the day on which the command runs.
-/

namespace Forecast

/-- The horizon of a model with the given header, its dates read on a day. -/
def Horizon.ofMetadata (metadata : Entries Value) (months years : Value)
    (today : Date := Date.someDay) : Except Fault Horizon :=
  ofHeader (Date.ofText · today) metadata months years

/-- Runs the command on the words of its command line. -/
def Command.run (files : Files) (input : String) (words : List String)
    (today : Date := Date.someDay) : Logged Response :=
  answer (Date.ofText · today) files input words

end Forecast

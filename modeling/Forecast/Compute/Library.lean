import Forecast.Compute.Funding
import Forecast.Compute.Quantity
import Forecast.Compute.Staffing
import Forecast.Compute.Subscribers
import Forecast.Compute.Timing

/-!
# Functions by name

Object types name the function that computes them. A function may be one of the
library below or one supplied for a run; the latter may answer anything.
-/

namespace Forecast

/-- A function that computes named series. -/
abbrev Computation (α : Type) := Task α → Except Fault (Entries (Series α))

namespace Compute

/-- The functions that object types may name. -/
def library {α : Type} [Amount α] : Entries (Computation α) :=
  [("Multiply", multiply),
    ("Divide", divide),
    ("QuantStart", quantStart),
    ("QuantPulse", quantPulse),
    ("SubRetain", subRetain),
    ("SubMth", subMth),
    ("Delay", delay),
    ("Advance", advance),
    ("Sum", sumInputs),
    ("StaffDiv", staffDiv),
    ("StaffTeam", staffTeam),
    ("StaffRole", staffRole),
    ("FundDebt", fundDebt),
    ("Setup", setup)]

def find {α : Type} [Amount α] (name : String) : Except Fault (Computation α) :=
  match library.lookup name with
  | some f => .ok f
  | none => .error (.unknownName name)

end Compute

/-- What a function answers under one name: a series, or a value of any shape. -/
inductive Cell
  | series (xs : Series Float)
  | value (v : Value)

/-- What a function answers: cells under distinct names, or something else. -/
inductive Reply
  | channels (cells : Entries Cell) (distinct : cells.keys.Nodup)
  | other

/-- The answer of cells by name; the last one of a name counts. -/
def Reply.ofCells (cells : List (String × Cell)) : Reply :=
  channels (Entries.ofList cells) (Entries.nodup_keys_ofList cells)

/-- The functions of a run, by name. -/
abbrev Registry := Entries (Task Float → Except Fault Reply)

namespace Registry

def ofComputation (f : Computation Float) (t : Task Float) : Except Fault Reply := do
  let channels ← f t
  return .ofCells (channels.mapValues .series)

def standard : Registry :=
  Compute.library.mapValues ofComputation

/-- A function that ignores what it is given. -/
def always (v : Value) (_ : Task Float) : Except Fault Reply :=
  match v with
  | .record es => .ok (.ofCells (Entries.mapValues .value es))
  | _ => .ok .other

/-- A registry with further functions, which come before those of the same name. -/
def extend (r : Registry) (more : Registry) : Registry :=
  more.foldl (fun t e => t.put e.1 e.2) r

end Registry
end Forecast

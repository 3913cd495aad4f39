import Forecast.Compute.Library
import Forecast.Grid
import Forecast.Model

/-!
# Channels of an answer

A function answers series by name. If any name is a channel of the object's
type, the channels among the answers are taken. Otherwise the answer under the
name of the output, or under `val`, is the only channel of the type.
-/

namespace Forecast

namespace Cell

def isSet : Cell → Bool
  | series _ => true
  | value v => !v.isNull

def grid : Cell → Except Fault Grid
  | series xs => .ok ⟨[xs.length], xs⟩
  | value v => Grid.ofValue v

/-- A cell as a series over the horizon. -/
def toSeries (c : Cell) (months : Nat) (output place : String) (channel : Option String) :
    Except Fault (Series Float) := do
  let g ← c.grid
  if g.shape = [months] then return g.cells
  else throw (.run (.wrongShape output place channel months g.shape))

theorem toSeries_series {xs : Series Float} {months : Nat} (h : xs.length = months)
    (output place : String) (channel : Option String) :
    (series xs).toSeries months output place channel = .ok xs := by
  simp [toSeries, grid, h, bind, Except.bind, pure, Except.pure]

end Cell

/-- The cells whose names are declared, as series over the horizon. -/
def declaredChannels (cells : Entries Cell) (declared : List String) (output place : String)
    (months : Nat) : Except Fault (Entries (Series Float)) :=
  (cells.filter fun e => declared.contains e.1).mapM fun (name, c) => do
    let xs ← c.toSeries months output place (some name)
    return (name, xs)

/-- The cell that stands for the only channel: under the name of the output, or under `val`. -/
def unnamedCell? (cells : Entries Cell) (output : String) : Option Cell :=
  match (cells.lookup output).filter Cell.isSet with
  | some c => some c
  | none => (cells.lookup "val").filter Cell.isSet

/-- The channels that an output stores of what its function answers. -/
def selectChannels (cells : Entries Cell) (declared : List String) (output object kind : String)
    (months : Nat) : Except Fault (Entries (Series Float)) :=
  let place := object ++ "." ++ output
  if cells.any fun e => declared.contains e.1 then
    declaredChannels cells declared output place months
  else
    match unnamedCell? cells output, declared with
    | none, _ => .error (.run (.noSeries output object declared cells.keys))
    | some c, [channel] => do
      let xs ← c.toSeries months output place none
      return [(channel, xs)]
    | some _, _ => .error (.run (.unnamedSeries output object kind declared))

end Forecast

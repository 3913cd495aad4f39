import Forecast.Model
import Forecast.Series
import Forecast.Symbols

/-!
# Inputs

The series that the arguments of an output denote. A reference to an output
reads one entry of the store; a reference to an object reads the entries of all
its outputs and adds them; a number is a constant, and a word stands for zeros.
-/

namespace Forecast

/-- The series computed so far, by output and channel. -/
abbrev Store := Entries (Series Float)

/-- The key under which a channel of an output or object is stored. -/
def storeKey (owner channel : String) : String :=
  owner ++ "." ++ channel

namespace Store

/-- The place of an argument in messages. -/
def place (d : Definition) (output : String) : String :=
  d.name ++ "." ++ output

/-- An entry of the store that an argument needs. -/
def entry (store : Store) (key place : String) (argument : Int) (object : Option String) :
    Except RunFault (Series Float) :=
  match store.lookup key with
  | some xs => .ok xs
  | none => .error (.missingInput key place argument object store.keys)

def addEntry (store : Store) (object field place : String) (argument : Int) (total : Series Float)
    (output : String) : Except Fault (Series Float) := do
  let xs ← store.entry (storeKey output field) place argument (some object)
  let total ← total.add xs
  return total

def input (store : Store) (s : Symbols) (d : Definition) (output : String) (months : Nat)
    (position : Int) : Argument → Except Fault (Series Float)
  | .number value _ => .ok (Series.constant months value)
  | .word _ => .ok (Series.zeros months)
  | .spread .. => .error (.run (.unexpandedSpread output (place d output)))
  | .reference name field _ _ => do
    if s.outputs.has name then
      let xs ← store.entry (storeKey name field) (place d output) position none
      return xs
    else if s.objects.has name then
      (s.outputsOf name).foldlM (store.addEntry name field (place d output) position)
        (Series.zeros months)
    else throw (.run (.unknownReference output (name ++ "." ++ field) (place d output) position))

/-- The argument at a position; a negative position counts from the end. -/
def argumentAt? (d : Definition) (position : Int) : Option Argument :=
  if 0 ≤ position then d.arguments[position.toNat]?
  else if position.natAbs ≤ d.arguments.length then
    d.arguments[d.arguments.length - position.natAbs]?
  else none

/-- The series that the arguments at some positions denote. -/
def inputs (store : Store) (s : Symbols) (d : Definition) (output : String) (months : Nat)
    (positions : List Int) : Except Fault (List (Series Float)) :=
  positions.mapM fun i =>
    match argumentAt? d i with
    | some a => store.input s d output months i a
    | none => .error (.length .noSuchMonth)

@[simp] theorem argumentAt?_natCast (d : Definition) (i : Nat) :
    argumentAt? d i = d.arguments[i]? := by
  simp [argumentAt?]

end Store
end Forecast

import Forecast.Fault

/-!
# Arrays of numbers

A value may hold numbers in nested lists. It is an array if all lists at the
same depth have the same length and no more than 64 lists are nested; nothing
inside a list is not a number.
-/

namespace Forecast

/-- An array: its lengths along each axis, and its numbers row by row. -/
structure Grid where
  shape : List Nat
  cells : List Float

/-- The lengths that two parts share from the outermost axis on, and whether they are equal. -/
def sharedShape : List Nat → List Nat → List Nat × Bool
  | [], [] => ([], true)
  | a :: as, b :: bs =>
    if a = b then
      let (shared, equal) := sharedShape as bs
      (a :: shared, equal)
    else ([], false)
  | _, _ => ([], false)

/-- The most axes that an array may have. -/
def axisLimit : Nat := 64

mutual

/-- The lengths along at most so many axes as far as they agree, and whether they do throughout. -/
def Value.shape (axes : Nat) : Value → List Nat × Bool
  | .list vs =>
    match axes with
    | 0 => ([], false)
    | more + 1 =>
      let (inner, regular) := itemsShape more vs
      (vs.length :: inner, regular)
  | _ => ([], true)

def itemsShape (axes : Nat) : List Value → List Nat × Bool
  | [] => ([], true)
  | [v] => v.shape axes
  | v :: vs =>
    let (first, firstRegular) := v.shape axes
    let (others, othersRegular) := itemsShape axes vs
    let (shared, equal) := sharedShape first others
    (shared, firstRegular && othersRegular && equal)

end

mutual

/-- The numbers of a value row by row. -/
def Value.cells : Value → Except NumberFault (List Float)
  | .list vs => itemsCells vs
  | .null => .ok [0.0 / 0.0]
  | v => do
    let x ← v.toFloat
    return [x]

def itemsCells : List Value → Except NumberFault (List Float)
  | [] => .ok []
  | v :: vs => do
    let xs ← v.cells
    let ys ← itemsCells vs
    return xs ++ ys

end

def Grid.ofValue (v : Value) : Except Fault Grid := do
  let (shape, regular) := v.shape axisLimit
  if regular then
    let cells ← v.cells
    return ⟨shape, cells⟩
  else if shape.length = axisLimit then throw (.length .tooDeep)
  else throw (.length (.ragged shape))

end Forecast

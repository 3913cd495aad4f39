import Forecast.Notice
import Forecast.Series
import Forecast.Template
import Forecast.Text.Blank

/-!
# Formulas of line items

A formula is `sum(code.*)`, the sum of the leaves one level below a code;
`sum(code)`, a copy; `cumsum(code)`, a running total; a signed sum of codes; or
a single code. A code that the template does not have counts as zeros, with a
notice.
-/

namespace Forecast

open Text

inductive Formula
  /-- The leaves one level below a code. -/
  | leaves (above : String)
  | copy (code : String)
  | runningTotal (code : String)
  | signedSum (terms : List (Sign × String))

namespace Formula

def dropEnding? (ending s : List Char) : Option (List Char) :=
  if ending.isSuffixOf s then some (s.take (s.length - ending.length)) else none

/-- The text between a function's name with its parenthesis and the closing one. -/
def inside? (start : String) (s : List Char) : Option (List Char) :=
  if start.toList.isPrefixOf s && s.getLast? == some ')' then
    some (trim (s.drop start.length).dropLast)
  else none

/-- The pieces between signs, each with the sign before it; the first one follows `sign`. -/
def signedPieces (sign : Sign) : List Char → List (Sign × List Char)
  | [] => [(sign, [])]
  | '+' :: rest => (sign, []) :: signedPieces .plus rest
  | '-' :: rest => (sign, []) :: signedPieces .minus rest
  | c :: rest => (signedPieces sign rest).modifyHead fun p => (p.1, c :: p.2)

/-- The terms of a signed sum: the pieces that are not blank. -/
def terms (s : List Char) : List (Sign × String) :=
  (((signedPieces .plus s).map fun p => (p.1, trim p.2)).filter fun p => !p.2.isEmpty).map
    fun p => (p.1, String.ofList p.2)

def ofText (text : String) : Formula :=
  let s := trim text.toList
  match inside? "sum(" s with
  | some pattern =>
    match dropEnding? ['.', '*'] pattern with
    | some above => .leaves (String.ofList above)
    | none => .copy (String.ofList pattern)
  | none =>
    match inside? "cumsum(" s with
    | some code => .runningTotal (String.ofList code)
    | none =>
      if s.contains '+' || s.contains '-' then .signedSum (terms s)
      else .copy (String.ofList s)

/-- Whether a text starts like a running total. -/
def startsRunningTotal (text : String) : Bool :=
  "cumsum(".toList.isPrefixOf (trim text.toList)

end Formula

/-- Whether a code lies one level below another. -/
def isBelow (above code : String) : Bool :=
  (above ++ ".").toList.isPrefixOf code.toList &&
    code.toList.count '.' == above.toList.count '.' + 1

/-- The amounts of line items, by code. -/
abbrev Lines (α : Type) := Entries (Series α)

/-- The line items of a template by code; the last one of a code counts. -/
def Template.byCode (t : Template) : Entries LineItem :=
  Entries.ofList (t.items.map fun i => (i.code, i))

namespace Lines

variable {α : Type} [Amount α]

def factor : Sign → α
  | .plus => 1
  | .minus => -1

/-- The sum of two series of one length. -/
def plus (xs ys : Series α) : Series α :=
  List.zipWith (· + ·) xs ys

/-- The series of a code; zeros for an unknown one. -/
def read (lines : Lines α) (months : Nat) (code : String) : Series α :=
  (lines.lookup code).getD (Series.zeros months)

/-- A notice for a code that is not known. -/
def missing (lines : Lines α) (code user : String) : List Notice :=
  if lines.has code then [] else [.unknownItem code user]

/-- A sum of signed codes, from left to right. -/
def signedSum (lines : Lines α) (months : Nat) (terms : List (Sign × String)) : Series α :=
  terms.foldl
    (fun total t => plus total ((lines.read months t.2).map (factor t.1 * ·))) (Series.zeros months)

/-- The codes of the leaves one level below a code. -/
def leafCodes (items : Entries LineItem) (above : String) : List String :=
  Entries.keys (items.filter fun e => isBelow above e.1 && e.2.isLeaf)

def formula (items : Entries LineItem) (lines : Lines α) (months : Nat) : Formula → Series α
  | .leaves above =>
    (leafCodes items above).foldl (fun total code => plus total (lines.read months code))
      (Series.zeros months)
  | .copy code => lines.read months code
  | .runningTotal code => Series.runningTotal (lines.read months code)
  | .signedSum terms => signedSum lines months terms

def formulaNotices (lines : Lines α) (user : String) : Formula → List Notice
  | .leaves _ => []
  | .copy code => lines.missing code user
  | .runningTotal code => lines.missing code user
  | .signedSum terms => terms.flatMap fun t => lines.missing t.2 user

/-- The children of an item with their signs; a child that the template does not have is added. -/
def childTerms (items : Entries LineItem) (i : LineItem) : List (Sign × String) :=
  i.childCodes.map fun code => (((items.lookup code).map (·.sign)).getD .plus, code)

/-- The series of an item, and the notices it makes. -/
def evaluate (items : Entries LineItem) (lines : Lines α) (months : Nat) (i : LineItem) :
    Series α × List Notice :=
  match i.formula? with
  | some text =>
    let f := Formula.ofText text
    let result := lines.formula items months f
    (if i.cumulative && !Formula.startsRunningTotal text then Series.runningTotal result
      else result, lines.formulaNotices i.code f)
  | none =>
    if i.hasChildren then
      (signedSum lines months (childTerms items i),
        (childTerms items i).flatMap fun t => lines.missing t.2 i.code)
    else if i.cumulative then (Series.runningTotal (lines.read months i.code), [])
    else (lines.read months i.code, [])

/-- Computes one item, with its notices after those made before. -/
def step (items : Entries LineItem) (months : Nat) (state : Lines α × List Notice) (i : LineItem) :
    Lines α × List Notice :=
  let (result, notices) := state.1.evaluate items months i
  (state.1.put i.code result, state.2 ++ notices)

/-- The items of a statement in the order in which they are computed: deeper ones first. -/
def evaluationOrder (items : List LineItem) : List LineItem :=
  items.mergeSort fun a b => b.depth ≤ a.depth

end Lines
end Forecast

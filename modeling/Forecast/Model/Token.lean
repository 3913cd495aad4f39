import Forecast.Fault
import Forecast.Model
import Forecast.Text.Lines

/-!
# Tokens of a definition

Arguments and outputs are separated by commas outside parentheses. An argument
is tried as a number before it is tried as a reference, so `1.5` is a number.
An output may carry values in parentheses, as in `churn(rate: 5%, price: 20)`.
-/

namespace Forecast

open Text

def isNameChar (c : Char) : Bool :=
  c.isAlphanum || c == '_'

/-- The pieces between commas at depth zero, as they stand; `depth` counts open parentheses. -/
def pieces (depth : Int) : List Char → List (List Char)
  | [] => [[]]
  | c :: rest =>
    if c = ',' ∧ depth = 0 then [] :: pieces 0 rest
    else
      let inner := if c = '(' then depth + 1 else if c = ')' then depth - 1 else depth
      (pieces inner rest).modifyHead (c :: ·)

/-- The tokens between commas outside parentheses, trimmed; empty ones are dropped. -/
def splitTokens (s : List Char) : List (List Char) :=
  ((pieces 0 s).map trim).filter fun t => !t.isEmpty

theorem ne_nil_of_mem_splitTokens {s t : List Char} (h : t ∈ splitTokens s) : t ≠ [] := by
  simp [splitTokens] at h
  exact h.2

/-- A text without the line feed at its end, if it has one. -/
def dropFinalLineFeed (s : List Char) : List Char :=
  if s.getLast? = some '\n' then s.dropLast else s

def reference? (token : List Char) : Option (String × String) :=
  let s := dropFinalLineFeed token
  match s.span isNameChar with
  | (name@(_ :: _), '.' :: rest) =>
    if !rest.isEmpty && rest.all isNameChar then some (String.ofList name, String.ofList rest)
      else none
  | _ => none

/-- A token that is a numeral from end to end. -/
def numeral? (token : List Char) : Option Decimal.Numeral :=
  Decimal.Numeral.ofChars? false (dropFinalLineFeed token)

def Argument.ofToken (line : Nat) (token : List Char) : Except ReadFault Argument :=
  let raw := String.ofList token
  if ['.', '.', '.'].isPrefixOf token then
    match reference? (trim (token.drop 3)) with
    | some (object, field) => .ok (.spread object field raw)
    | none => .error ⟨.spread, line, raw⟩
  else
    match numeral? token with
    | some n => .ok (.number n.toFloat raw)
    | none =>
      match reference? token with
      | some (name, field) => .ok (.reference name field raw none)
      | none => .ok (.word raw)

/-- The value written next to an output: a percentage, a number, or else a text. -/
def InlineValue.ofChars (line : Nat) (s : List Char) : Except ReadFault InlineValue :=
  let value := trim s
  if value.getLast? = some '%' then
    match Decimal.float? value.dropLast with
    | some x => .ok (.number (x / 100.0))
    | none => .error ⟨.percentage, line, String.ofList value⟩
  else
    match Decimal.float? value with
    | some x => .ok (.number x)
    | none => .ok (.text (String.ofList (strip (fun c => c == '"' || c == '\'') value)))

/-- The key and the value of an entry, if there is a colon and neither is blank. -/
def entry? (part : List Char) : Option (List Char × List Char) :=
  match part.span (· != ':') with
  | (key, ':' :: value) =>
    if (trim key).isEmpty || (trim value).isEmpty then none else some (trim key, value)
  | _ => none

def inlineValues (line : Nat) (s : List Char) : Except ReadFault (Entries InlineValue) :=
  (splitTokens s).foldlM
    (fun values part =>
      match entry? part with
      | none => .error ⟨.inlineAssumption, line, String.ofList part⟩
      | some (key, value) => do
        let v ← InlineValue.ofChars line value
        return values.put (String.ofList key) v)
    []

def outputToken? (token : List Char) : Option (String × Option (List Char)) :=
  match token.span isNameChar with
  | ([], _) => none
  | (name, rest) =>
    match rest.dropWhile isBlank with
    | [] => some (String.ofList name, none)
    | '(' :: body =>
      let s := dropFinalLineFeed body
      if s.getLast? = some ')' && !s.contains '\n' then some (String.ofList name, some s.dropLast)
      else none
    | _ => none

structure Outputs where
  names : List String
  inline : Entries (Entries InlineValue)

def Outputs.add (line : Nat) (o : Outputs) (token : List Char) : Except ReadFault Outputs :=
  match outputToken? token with
  | none => .error ⟨.outputAlias, line, String.ofList token⟩
  | some (name, inside) =>
    let body := inside.getD []
    if (trim body).isEmpty then .ok { o with names := o.names ++ [name] }
    else do
      let values ← inlineValues line body
      return ⟨o.names ++ [name], o.inline.put name values⟩

def Outputs.ofChars (line : Nat) (s : List Char) : Except ReadFault Outputs :=
  (splitTokens s).foldlM (Outputs.add line) ⟨[], []⟩

end Forecast

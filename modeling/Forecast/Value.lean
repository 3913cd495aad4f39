import Forecast.Decimal.Layout
import Forecast.Text.Quoted

/-!
# Values

A schema, a template, a table of overrides or a raw assumption arrives as a
value of unknown shape: nothing, a flag, a number, a text, a list or a record.
A record keeps its entries in the order in which they were written.
-/

namespace Forecast

/-- A value of unknown shape. -/
inductive Value
  | null
  | bool (b : Bool)
  | int (n : Int)
  | float (x : Float)
  | text (s : String)
  | list (items : List Value)
  | record (entries : List (String × Value))

namespace Value

instance : Inhabited Value := ⟨null⟩

mutual

/-- How a value is shown in a message. -/
def display : Value → String
  | null => "None"
  | bool b => if b then "True" else "False"
  | int n => Decimal.intText n
  | float x => Decimal.floatText x
  | text s => Text.quoted s
  | list items => "[" ++ ", ".intercalate (displayItems items) ++ "]"
  | record entries => "\x7b" ++ ", ".intercalate (displayEntries entries) ++ "\x7d"

def displayItems : List Value → List String
  | [] => []
  | v :: vs => v.display :: displayItems vs

def displayEntries : List (String × Value) → List String
  | [] => []
  | (k, v) :: es => (Text.quoted k ++ ": " ++ v.display) :: displayEntries es

end

/-- Whether a value counts as set: not nothing, not false, not zero and not empty. -/
def holds : Value → Bool
  | null => false
  | bool b => b
  | int n => n != 0
  | float x => !(x == 0.0)
  | text s => !s.isEmpty
  | list items => !items.isEmpty
  | record entries => !entries.isEmpty

def find? (key : String) : Value → Option Value
  | record entries => entries.lookup key
  | _ => none

def isNull : Value → Bool
  | null => true
  | _ => false

end Value
end Forecast

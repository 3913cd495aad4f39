import Forecast.Checked

/-!
# Templates of statements

A template lists financial statements, and each statement its line items in
order. A line item receives the channels that name it as a destination, sums
its children, or is computed by a formula. Codes are paths with points in them;
their length is the depth of an item.
-/

namespace Forecast

/-- Whether a parent adds an item or subtracts it. -/
inductive Sign
  | plus
  | minus
deriving DecidableEq

structure LineItem where
  code : String
  label : Option String
  level : Int
  sign : Sign
  formula : Option String
  /-- Whether the item reports the running total of what it receives. -/
  cumulative : Bool
  collapsible : Bool
  children : Option (List String)

namespace LineItem

/-- The number of parts of the code. -/
def depth (i : LineItem) : Nat :=
  i.code.toList.count '.' + 1

def childCodes (i : LineItem) : List String :=
  i.children.getD []

def hasChildren (i : LineItem) : Bool :=
  !i.childCodes.isEmpty

/-- The formula, if there is one that is not empty. -/
def formula? (i : LineItem) : Option String :=
  i.formula.filter fun f => !f.isEmpty

/-- An item that neither has a formula nor children. -/
def isLeaf (i : LineItem) : Bool :=
  i.formula?.isNone && !i.hasChildren

end LineItem

structure Statement where
  code : String
  name : String
  description : String
  items : List LineItem

structure Template where
  name : String
  statements : Entries Statement

namespace Template

def items (t : Template) : List LineItem :=
  t.statements.flatMap fun s => s.2.items

def find? (t : Template) (code : String) : Option LineItem :=
  t.items.find? fun i => i.code == code

/-- The items that channels are added to. -/
def leaves (t : Template) : List LineItem :=
  t.items.filter LineItem.isLeaf

def statementCodes (t : Template) (statement : String) : Except Fault (List String) :=
  match t.statements.lookup statement with
  | some s => .ok (s.items.map (·.code))
  | none => .error (.unknownName statement)

open Checked

/-- A number that is equal to one or to minus one. -/
def sign : Reader Sign
  | place, .int n =>
    if !isWord n then fail place .hugeInt
    else if n = 1 then pure .plus
    else if n = -1 then pure .minus
    else fail place .notAllowed
  | place, .bool b => if b then pure .plus else fail place .notAllowed
  | place, .float x =>
    if x == 1.0 then pure .plus
    else if x == -1.0 then pure .minus
    else fail place .notAllowed
  | place, _ => fail place .notAllowed

def lineItem : Reader LineItem :=
  object fun place es =>
    LineItem.mk <$> required place es "code" text
      <*> withDefault place es "label" [] none (optional text)
      <*> withDefault place es "level" [] 0 integer
      <*> withDefault place es "sign" [] .plus sign
      <*> withDefault place es "formula" [] none (optional text)
      <*> withDefault place es "cumulative" [] false flag
      <*> withDefault place es "collapsible" [] false flag
      <*> withDefault place es "children" [] none (optional (list text))

def statement : Reader Statement :=
  object fun place es =>
    Statement.mk <$> required place es "code" text
      <*> required place es "name" text
      <*> withDefault place es "description" [] "" text
      <*> withDefault place es "lineItems" ["line_items"] [] (list lineItem)

def ofEntries (es : List (String × Value)) : Except Fault Template :=
  (Template.mk <$> required [] es "name" text
    <*> required [] es "statements" (table statement)).toExcept

end Template
end Forecast

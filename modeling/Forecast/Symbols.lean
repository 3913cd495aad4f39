import Forecast.Fault
import Forecast.Model

/-!
# Symbols

Objects and outputs share one space of names. A table of symbols exists only
for a model in which each name has one meaning: object names are distinct,
output names are distinct, and an output bears the name of an object only if it
is an output of that object.
-/

namespace Forecast

structure OutputOwner where
  definition : Definition
  /-- Whether the object declares no outputs and so lends its own name. -/
  synthetic : Bool

/-- The names of a model, in the order of their definitions. -/
structure Symbols where
  objects : Entries Definition
  outputs : Entries OutputOwner
  /-- The outputs of each object. -/
  outputsByObject : Entries (List String)

namespace Symbols

/-- Whether a name is known at all. -/
def has (s : Symbols) (name : String) : Bool :=
  s.objects.has name || s.outputs.has name

def outputsOf (s : Symbols) (object : String) : List String :=
  (s.outputsByObject.lookup object).getD []

/-- The name of the object that an output belongs to. -/
def ownerOf? (s : Symbols) (output : String) : Option String :=
  (s.outputs.lookup output).map fun o => o.definition.name

def outputOrder (s : Symbols) : List String :=
  s.outputs.keys

def addObject (objects : Entries Definition) (d : Definition) :
    Except LinkFault (Entries Definition) :=
  match objects.lookup d.name with
  | some first => .error (.duplicateObject d.name d.line first.line)
  | none => .ok (objects ++ [(d.name, d)])

def addOutput (objects : Entries Definition) (d : Definition) (outputs : Entries OutputOwner)
    (output : String) : Except LinkFault (Entries OutputOwner) :=
  match outputs.lookup output with
  | some owner =>
    .error (.aliasTaken output d.name d.line owner.definition.name owner.definition.line)
  | none =>
    match objects.lookup output with
    | some other =>
      if other.name ≠ d.name then
        .error (.aliasNamesObject output d.name d.line other.name other.line)
      else .ok (outputs ++ [(output, ⟨d, d.outputs.isEmpty⟩)])
    | none => .ok (outputs ++ [(output, ⟨d, d.outputs.isEmpty⟩)])

def ofModel (m : Model) : Except LinkFault Symbols := do
  let objects ← m.definitions.foldlM addObject []
  let outputs ← m.definitions.foldlM
    (fun outputs d => d.outputNames.foldlM (addOutput objects d) outputs) []
  return ⟨objects, outputs, m.definitions.map fun d => (d.name, d.outputNames)⟩

end Symbols
end Forecast

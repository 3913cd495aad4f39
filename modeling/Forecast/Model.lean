import Forecast.Entries

/-!
# Models

A model is a list of sections with definitions of objects. A definition names
its type, its arguments and the outputs that it computes. An argument is a
number, a word, a reference `name.field` to an output or an object, or a spread
`...object.field` that stands for one reference per output of an object.
-/

namespace Forecast

/-- An argument of a definition. `spreadOf` names the object whose spread a reference comes from. -/
inductive Argument
  | reference (name field raw : String) (spreadOf : Option String)
  | spread (object field raw : String)
  | number (value : Float) (raw : String)
  | word (text : String)

def Argument.isSpread : Argument → Bool
  | reference _ _ _ spreadOf => spreadOf.isSome
  | spread .. => true
  | number .. => false
  | word _ => false

inductive InlineValue
  | number (x : Float)
  | text (s : String)

structure Definition where
  name : String
  /-- The type of the object. -/
  kind : String
  arguments : List Argument
  outputs : List String
  /-- For some outputs, the values written next to them by field. -/
  inline : Entries (Entries InlineValue)
  sectionName : String
  comment : String
  line : Nat

def Definition.hasSpread (d : Definition) : Bool :=
  d.arguments.any Argument.isSpread

/-- The outputs of an object; one that declares none has a single output of its own name. -/
def Definition.outputNames (d : Definition) : List String :=
  if d.outputs.isEmpty then [d.name] else d.outputs

structure Section where
  name : String
  line : Nat
  definitions : List Definition

/-- A model as it is read, or after linking. -/
structure Model where
  sections : List Section
  /-- All definitions in the order of the text. -/
  definitions : List Definition
  metadata : Entries String

def Model.find? (m : Model) (name : String) : Option Definition :=
  m.definitions.find? fun d => d.name == name

theorem Definition.outputNames_ne_nil (d : Definition) : d.outputNames ≠ [] := by
  unfold outputNames
  split <;> simp_all

end Forecast

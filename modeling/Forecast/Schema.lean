import Forecast.Checked

/-!
# Object types

A schema says, for each type of object, which function computes its outputs,
which channels those have, and which assumptions the type takes: some for the
object as a whole and some for each of its outputs.
-/

namespace Forecast

/-- The ways in which an assumption may be given. -/
structure Supports where
  single : Bool
  annual : Bool
  growth : Bool
  monthly : Bool
  smoothing : Bool
  dateRange : Bool
  seasonal : Bool
deriving DecidableEq

def Supports.none : Supports :=
  ⟨false, false, false, false, false, false, false⟩

/-- A single value and nothing else. -/
def Supports.onlySingle : Supports :=
  { Supports.none with single := true }

/-- An assumption is an amount for each month or a flag. -/
inductive BaseType
  | number
  | boolean
deriving DecidableEq

/-- What a schema says about an assumption. -/
structure FieldSpec where
  name : String
  label : Option String
  baseType : BaseType
  format : Option String
  default : Value
  supports : Supports

structure Channel where
  label : Option String
  format : Option String
  /-- The line items that the channel is added to. -/
  destinations : List String
  hidden : Bool

structure ObjectType where
  function : Option String
  channels : Entries Channel
  objectFields : List FieldSpec
  outputFields : List FieldSpec

/-- The name of the function that computes a type: its own, or else the name of the type. -/
def ObjectType.functionName (t : ObjectType) (kind : String) : String :=
  match t.function with
  | none => kind
  | some f => if f.isEmpty then kind else f

/-- The object types by name. -/
abbrev Schema := Entries ObjectType

namespace Schema

open Checked

def supports : Reader Supports :=
  object fun place es =>
    let get (name : String) (others : List String) := withDefault place es name others false flag
    Supports.mk <$> get "single" [] <*> get "annual" [] <*> get "growth" [] <*> get "monthly" [] <*>
      get "smoothing" [] <*> get "dateRange" ["date_range"] <*> get "seasonal" []

def field : Reader FieldSpec :=
  object fun place es =>
    FieldSpec.mk <$> required place es "name" text
      <*> withDefault place es "label" [] none (optional text)
      <*> withDefault place es "baseType" ["base_type"] .number
        (oneOf [("number", .number), ("boolean", .boolean)])
      <*> withDefault place es "format" [] none (optional text)
      <*> withDefault place es "default" [] .null (fun _ v => pure v)
      <*> withDefault place es "supports" [] .onlySingle supports

def channel : Reader Channel :=
  object fun place es =>
    Channel.mk <$> withDefault place es "label" [] none (optional text)
      <*> withDefault place es "format" [] none (optional text)
      <*> withDefault place es "destinations" [] [] (list text)
      <*> withDefault place es "hidden" [] false flag

def fieldGroups : Reader (List FieldSpec × List FieldSpec) :=
  object fun place es =>
    Prod.mk <$> withDefault place es "object" [] [] (list field)
      <*> withDefault place es "output" [] [] (list field)

def objectType : Reader ObjectType :=
  object fun place es =>
    (fun function channels (groups : List FieldSpec × List FieldSpec) =>
        ⟨function, channels, groups.1, groups.2⟩)
      <$> withDefault place es "impl" [] none (optional text)
      <*> withDefault place es "channels" [] [] (table channel)
      <*> withDefault place es "assumptions" [] ([], []) fieldGroups

def ofEntries (es : List (String × Value)) : Except Fault Schema :=
  (table objectType [] (.record es)).toExcept

end Schema
end Forecast

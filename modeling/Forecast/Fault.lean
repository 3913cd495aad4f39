import Forecast.Calendar
import Forecast.Value.Json
import Forecast.Value.Number

/-!
# Faults

Everything that can stop a reading, a run or an export, by cause. Each stage
has its own type of causes; `Fault` is their union. The wording of every cause
is given once, here or beside its type.
-/

namespace Forecast

open Decimal (intText)
open Text (quoted)

/-- A text between double quotes, as it is. -/
def inQuotes (s : String) : String :=
  "\"" ++ s ++ "\""

def commaList (names : List String) : String :=
  ", ".intercalate names

/-- The lengths of an array along its axes; a single one is followed by a comma. -/
def shapeText : List Nat → String
  | [n] => "(" ++ intText n ++ ",)"
  | ns => "(" ++ commaList (ns.map fun (n : Nat) => intText n) ++ ")"

/-! ## Reading a model -/

inductive ReadCause
  | spread
  | percentage
  | inlineAssumption
  | outputAlias
  | definition
  | outsideSection
  | strayLine
deriving DecidableEq

def ReadCause.message : ReadCause → String
  | spread => "Invalid spread token (expected \"...ObjectName.field\")"
  | percentage => "Invalid percentage"
  | inlineAssumption => "Invalid inline assumption (expected key: value)"
  | outputAlias => "Invalid output alias"
  | definition => "Malformed object definition"
  | outsideSection => "Object found before any section"
  | strayLine => "Unexpected line"

/-- A fault in the text of a model, with the line it is reported at and the text it is about. -/
structure ReadFault where
  cause : ReadCause
  line : Nat
  text : String
deriving DecidableEq

def ReadFault.message (f : ReadFault) : String :=
  f.cause.message ++ " (line " ++ intText f.line ++ "): " ++ inQuotes f.text

/-! ## Linking -/

/-- What is wrong with the names of a model, or with how its arguments are spread over outputs. -/
inductive LinkFault
  | duplicateObject (name : String) (line first : Nat)
  | aliasTaken (output object : String) (line : Nat) (owner : String) (ownerLine : Nat)
  | aliasNamesObject (output object : String) (line : Nat) (other : String) (otherLine : Nat)
  | unknownSpread (object : String) (line : Nat) (user : String)
  | emptySpread (object field : String) (line : Nat)
  | unknownReference (reference : String) (line : Nat) (user : String)
  | ambiguous (object : String) (line arguments outputs : Nat)
deriving DecidableEq

def LinkFault.message : LinkFault → String
  | duplicateObject name line first =>
    "Duplicate object name " ++ inQuotes name ++ " at line " ++ intText line ++
      " (already at line " ++ intText first ++ ")."
  | aliasTaken output object line owner ownerLine =>
    "Output alias " ++ inQuotes output ++ " from " ++ object ++ " (line " ++ intText line ++
      ") conflicts with " ++ owner ++ " (line " ++ intText ownerLine ++ ")."
  | aliasNamesObject output object line other otherLine =>
    "Output alias " ++ inQuotes output ++ " from " ++ object ++ " (line " ++ intText line ++
      ") conflicts with object " ++ other ++ " (line " ++ intText otherLine ++ ")."
  | unknownSpread object line user =>
    "Spread references unknown object " ++ inQuotes object ++ " at line " ++ intText line ++
      " in " ++ user ++ ". Ensure the object exists (forward references are supported)."
  | emptySpread object field line =>
    "Spread on " ++ inQuotes (object ++ "." ++ field) ++ " at line " ++ intText line ++ " but " ++
      inQuotes object ++ " declares no outputs to spread."
  | unknownReference reference line user =>
    "Unknown reference " ++ inQuotes reference ++ " at line " ++ intText line ++ " in " ++ user ++
      ". It must be an object name or an output alias."
  | ambiguous object line arguments outputs =>
    object ++ " (line " ++ intText line ++ ") has " ++ intText arguments ++ " arguments for " ++
      intText outputs ++ " outputs; cannot decide which argument feeds which output. " ++
      "Use one output, one argument per output, or a spread argument."

/-! ## Ordering -/

/-- Outputs that depend on each other: a walk that ends where it starts. -/
structure Cyclic where
  walk : List String
deriving DecidableEq

def Cyclic.message (c : Cyclic) : String :=
  "Dependency cycle detected at output level: " ++
    (if c.walk.isEmpty then "<unresolved>" else " -> ".intercalate c.walk)

/-! ## Running -/

inductive RunFault
  /-- A series that no earlier output has stored. `object` is set if the key comes from reading a
  whole object. -/
  | missingInput (key place : String) (argument : Int) (object : Option String)
      (stored : List String)
  | unexpandedSpread (output place : String)
  | unknownReference (output reference place : String) (argument : Int)
  | undefinedObject (output object : String)
  | noChannels (output kind object : String)
  | unknownFunction (output function kind : String)
  | notChannels (output function : String)
  | noSeries (output object : String) (declared returned : List String)
  | unnamedSeries (output object kind : String) (declared : List String)
  | wrongShape (output place : String) (channel : Option String) (months : Nat) (shape : List Nat)
deriving DecidableEq

/-- The output that the fault is about, where it is about one. -/
def RunFault.output? : RunFault → Option String
  | missingInput .. => none
  | unexpandedSpread output _ => some output
  | unknownReference output .. => some output
  | undefinedObject output _ => some output
  | noChannels output .. => some output
  | unknownFunction output .. => some output
  | notChannels output _ => some output
  | noSeries output .. => some output
  | unnamedSeries output .. => some output
  | wrongShape output .. => some output

def RunFault.message : RunFault → String
  | missingInput key place argument object stored =>
    "Missing input " ++ inQuotes key ++
      (match object with
        | some name => " (expanded from object " ++ inQuotes name ++ ")"
        | none => "") ++
      " for " ++ place ++ " (arg #" ++ intText argument ++ "). Store currently has: " ++
      commaList stored
  | unexpandedSpread _ place =>
    "Unexpected spread argument in " ++ place ++ "; was the model linked?"
  | unknownReference _ reference place argument =>
    "Unknown reference " ++ inQuotes reference ++ " for " ++ place ++ " (arg #" ++
      intText argument ++ ")."
  | undefinedObject _ object => "No AST node for object " ++ inQuotes object
  | noChannels _ kind object =>
    "Object type " ++ inQuotes kind ++ " has no channels in the object schema (used by " ++
      object ++ ")."
  | unknownFunction _ function kind =>
    "Unknown function " ++ inQuotes function ++ " (from " ++ inQuotes kind ++ ")"
  | notChannels _ function =>
    "Function " ++ inQuotes function ++ " must return a mapping of channel -> series"
  | noSeries output object declared returned =>
    "Function for " ++ inQuotes object ++ " did not return any declared channels (" ++
      commaList declared ++
      ") and also did not return an alias series (" ++ output ++ "). It returned: " ++
      commaList returned
  | unnamedSeries _ object kind declared =>
    "Function for " ++ inQuotes object ++ " returned an unnamed series, but " ++ inQuotes kind ++
      " declares multiple channels (" ++ commaList declared ++
      "). Return channel-named data from the function instead."
  | wrongShape _ place channel months shape =>
    place ++
      (match channel with
        | some name => " channel " ++ quoted name
        | none => "") ++
      " must be a series of " ++ intText months ++ " months, got shape " ++ shapeText shape

/-! ## Series -/

inductive LengthFault
  /-- Two series of different lengths, neither of one month. -/
  | mismatch (target given : Nat)
  /-- A longer series added to one of a single month. -/
  | tooNarrow (given : Nat)
  /-- Rows of different lengths; the lengths found up to there. -/
  | ragged (shape : List Nat)
  /-- More nested lists than an array has axes. -/
  | tooDeep
  /-- A series of fewer than no months. -/
  | negative
  /-- A series with more months than can be counted. -/
  | uncountable
  /-- A series that takes more bytes than can be counted. -/
  | tooBig
  /-- A month that a series does not have. -/
  | noSuchMonth
deriving DecidableEq

def LengthFault.message : LengthFault → String
  | mismatch target given =>
    "operands could not be broadcast together with shapes " ++ shapeText [target] ++ " " ++
      shapeText [given] ++ " " ++ shapeText [target] ++ " "
  | tooNarrow given =>
    "non-broadcastable output operand with shape (1,) doesn't match the broadcast shape " ++
      shapeText [given]
  | ragged shape =>
    "setting an array element with a sequence. The requested array has an inhomogeneous shape " ++
      "after " ++ intText shape.length ++ " dimensions. The detected shape was " ++
      shapeText shape ++ " + inhomogeneous part."
  | tooDeep =>
    "setting an array element with a sequence. The requested array would exceed the maximum " ++
      "number of dimension of 64."
  | negative => "negative dimensions are not allowed"
  | uncountable => "Maximum allowed dimension exceeded"
  | tooBig =>
    "array is too big; `arr.size * arr.dtype.itemsize` is larger than the maximum possible size."
  | noSuchMonth => "no such month"

/-! ## Assumptions -/

inductive RawFault
  | growthTooLow (growth : Float)
  | seasonalCount (count : Nat)
  | dateRange (shown : String)
  | tooFewDates (count : Nat)
  | tooManyDates
  /-- A part that should be a list and is none. -/
  | notList

def RawFault.message : RawFault → String
  | growthTooLow growth => "growth must be >= -1, got " ++ Decimal.floatText growth
  | seasonalCount count => "seasonal needs 12 multipliers, got " ++ intText count
  | dateRange shown => "invalid date_range " ++ shown
  | tooFewDates count => "not enough values to unpack (expected 2, got " ++ intText count ++ ")"
  | tooManyDates => "too many values to unpack (expected 2)"
  | notList => "a list is needed"

inductive EditFault
  | unknownObject (name : String)
  | unknownAlias (output object : String)
  | unknownField (field place : String)
  /-- An index counted from the end that lies before the start. -/
  | indexOutOfRange
deriving DecidableEq

def EditFault.message : EditFault → String
  | unknownObject name => "Unknown object " ++ quoted name
  | unknownAlias output object =>
    "Unknown output alias " ++ quoted output ++ " on " ++ quoted object
  | unknownField field place => "Unknown assumption field " ++ quoted field ++ " on " ++ place
  | indexOutOfRange => "list assignment index out of range"

/-! ## Schemas -/

inductive IssueKind
  | missing
  | notString
  | notBool
  | wrongBool
  | wrongInt
  | fractionalInt
  | wrongIntType
  /-- An integer with too many digits to be read. -/
  | longInt
  | notFinite
  /-- An integer beyond signed words of 64 bits where only a few integers are allowed. -/
  | hugeInt
  | notAllowed
  | notList
  | notRecord
  | notModel
deriving DecidableEq

def IssueKind.code : IssueKind → String
  | missing => "missing"
  | notString => "string_type"
  | notBool => "bool_type"
  | wrongBool => "bool_parsing"
  | wrongInt => "int_parsing"
  | fractionalInt => "int_from_float"
  | wrongIntType => "int_type"
  | longInt => "int_parsing_size"
  | notFinite => "finite_number"
  | hugeInt => "int_overflow"
  | notAllowed => "literal_error"
  | notList => "list_type"
  | notRecord => "dict_type"
  | notModel => "model_type"

/-- An issue at a place, given by the keys and positions that lead to it. -/
structure Issue where
  path : List String
  kind : IssueKind
deriving DecidableEq

def Issue.place (i : Issue) : String :=
  ".".intercalate i.path

/-! ## Dates -/

inductive DateFault
  /-- The first month cannot label a column. -/
  | start (month : Date)
  /-- A later month cannot label a column. -/
  | later (month : Date)
  /-- A part of the time with too many digits for its fraction to be taken. -/
  | tooLong
deriving DecidableEq

def DateFault.message : DateFault → String
  | start month => "Out of bounds nanosecond timestamp: " ++ month.shownMonth
  | later month => "Out of bounds timestamp: " ++ month.shownMonth ++ " with frequency 'ns'"
  | tooLong => "a number in a date is too long"

/-! ## Files -/

inductive FileFault
  | missing
  /-- A part of the path is a file and no directory. -/
  | notDirectory
  | directory
  | longName
  /-- A null character in the name. -/
  | nullInName
deriving DecidableEq

def FileFault.message (name : String) : FileFault → String
  | missing => "[Errno 2] No such file or directory: " ++ quoted name
  | notDirectory => "[Errno 20] Not a directory: " ++ quoted name
  | directory => "[Errno 21] Is a directory: " ++ quoted name
  | longName => "[Errno 36] File name too long: " ++ quoted name
  | nullInName => "embedded null byte"

/-! ## All faults -/

inductive Fault
  | read (fault : ReadFault)
  | link (fault : LinkFault)
  | cyclic (fault : Cyclic)
  | run (fault : RunFault)
  | number (fault : NumberFault)
  | length (fault : LengthFault)
  | raw (fault : RawFault)
  | edit (fault : EditFault)
  | schema (issues : List Issue)
  | json (fault : Json.Fault)
  | date (fault : DateFault)
  /-- A horizon of less than one month, as it was given. -/
  | months (shown : String)
  /-- Less than one year, as it was given. -/
  | years (shown : String)
  /-- A name that a table does not have. -/
  | unknownName (name : String)
  /-- Entries of a table that are no pairs. -/
  | notPairs (message : String)
  /-- A value that cannot stand for a table. -/
  | notTable
  /-- Something in place of a table of overrides. -/
  | notOverrides
  | file (name : String) (fault : FileFault)

instance : MonadLift (Except ReadFault) (Except Fault) := ⟨Except.mapError .read⟩
instance : MonadLift (Except LinkFault) (Except Fault) := ⟨Except.mapError .link⟩
instance : MonadLift (Except Cyclic) (Except Fault) := ⟨Except.mapError .cyclic⟩
instance : MonadLift (Except RunFault) (Except Fault) := ⟨Except.mapError .run⟩
instance : MonadLift (Except NumberFault) (Except Fault) := ⟨Except.mapError .number⟩
instance : MonadLift (Except LengthFault) (Except Fault) := ⟨Except.mapError .length⟩
instance : MonadLift (Except RawFault) (Except Fault) := ⟨Except.mapError .raw⟩
instance : MonadLift (Except EditFault) (Except Fault) := ⟨Except.mapError .edit⟩
instance : MonadLift (Except Json.Fault) (Except Fault) := ⟨Except.mapError .json⟩
instance : MonadLift (Except DateFault) (Except Fault) := ⟨Except.mapError .date⟩

def Fault.message : Fault → String
  | read f => f.message
  | link f => f.message
  | cyclic f => f.message
  | run f => f.message
  | number f => f.message
  | length f => f.message
  | raw f => f.message
  | edit f => f.message
  | schema issues =>
    "\n".intercalate (issues.map fun i => i.place ++ ": " ++ i.kind.code)
  | json f => f.message
  | date f => f.message
  | months shown => "months must be >= 1, got " ++ shown
  | years shown => "years must be >= 1, got " ++ shown
  | unknownName name => name
  | notPairs message => message
  | notTable => "a table is needed"
  | notOverrides => "a table of overrides is needed"
  | file name f => f.message name

end Forecast

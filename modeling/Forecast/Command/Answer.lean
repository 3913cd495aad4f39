import Forecast.Command.Arguments
import Forecast.Horizon
import Forecast.Schema.Standard
import Forecast.Template.Standard
import Forecast.Text.Lines

/-!
# Answers of the command

The command reads a model and runs it, and writes what it has computed as a
table: the store of the run, or the financial statements by month or by year. It
answers with an exit code: zero for a table, one for a fault in what it has
read, two for a misuse of its command line. A few faults are no answer; they end
the command as they are. The files and the reader of dates are given.
-/

namespace Forecast

/-- The text of a file, by the path of the file. -/
abbrev Files := String → Except FileFault String

inductive Response
  | help
  | misuse (fault : Command.Misuse)
  | failed (fault : Fault)
  /-- A table, with the file that it goes to; no name stands for the output. -/
  | written (table : String) (out : String)

namespace Response

def code : Response → Nat
  | help => 0
  | misuse _ => 2
  | failed _ => 1
  | written .. => 0

end Response

/-- Whether the command answers a fault with a message. -/
def Fault.isReported : Fault → Bool
  | read _ => true
  | link _ => true
  | cyclic _ => true
  | run _ => true
  | number .wrongType => false
  | number .outOfRange => false
  | number _ => true
  | length .noSuchMonth => false
  | length _ => true
  | raw .notList => false
  | raw _ => true
  | edit _ => false
  | schema _ => true
  | json _ => true
  | date .tooLong => false
  | date _ => true
  | months _ => true
  | years _ => true
  | unknownName _ => false
  | notPairs _ => true
  | notTable => false
  | notOverrides => false
  | file .. => true

namespace Command

/-- What a path starts with: a slash, or two of them if there are exactly two. -/
def pathRoot (path : List Char) : String :=
  match (path.takeWhile (· == '/')).length with
  | 0 => ""
  | 2 => "//"
  | _ => "/"

/-- A path without empty parts and parts that stand for the same directory. -/
def plainPath (path : String) : String :=
  let parts := (path.toList.splitOnP (· == '/')).filter fun p => !p.isEmpty && p != ['.']
  let plain := pathRoot path.toList ++ String.ofList (Text.joinWith ['/'] parts)
  if plain.isEmpty then "." else plain

def readFile (files : Files) (path : String) : Except Fault String :=
  let name := plainPath path
  if name.toList.contains '\x00' then .error (.file name .nullInName)
  else
    match files name with
    | .ok text => .ok (String.ofList (Text.unifyLineEnds text.toList))
    | .error fault => .error (.file name fault)

def readValue (files : Files) (path : String) : Except Fault Value := do
  let text ← readFile files path
  let v ← Json.read text.toList
  return v

/-- One entry of a table that is given as a list. -/
def pairOf (position : Nat) (v : Value) : Except Fault (String × Value) := do
  match v.elements with
  | .error _ => throw .notTable
  | .ok [.text key, value] => return (key, value)
  | .ok [_, _] => throw .notTable
  | .ok vs =>
    throw (.notPairs ("dictionary update sequence element #" ++ Decimal.intText position ++
      " has length " ++ Decimal.intText vs.length ++ "; 2 is required"))

/-- The entries of a value that stands for a table: a record, or a list of pairs. -/
def entriesOf (v : Value) : Except Fault (List (String × Value)) := do
  match v with
  | .record es => return es
  | _ =>
    match v.elements with
    | .error _ => throw .notTable
    | .ok vs => do
      let es ← vs.zipIdx.mapM fun (v, i) => pairOf i v
      return Entries.ofList es

def schemaOf (files : Files) (path : String) : Except Fault Schema :=
  if path.isEmpty then .ok Schema.standard
  else do Schema.ofEntries (← entriesOf (← readValue files path))

def templateOf (files : Files) (path : String) : Except Fault Template :=
  if path.isEmpty then .ok Template.standard
  else do Template.ofEntries (← entriesOf (← readValue files path))

/-- The value that holds the overrides. -/
def overridesOf (files : Files) (path : String) : Except Fault Value :=
  if path.isEmpty then .ok .null else readValue files path

/-- Overrides are looked up for every channel that is stored. -/
def checkOverrides (v : Value) (channels : Entries (List String)) : Except Fault Unit :=
  if channels.all fun (output, names) => names.all (Overrides.isTableFor v output) then .ok ()
  else .error .notOverrides

def horizonOf (read : DateReader) (a : Arguments) (m : Model) : Except Fault Horizon :=
  Horizon.ofHeader read (m.metadata.mapValues .text) (.int a.months)
    ((a.years.map Value.int).getD .null)

/-- A model that has anything to compute needs series of so many months. A run is about series of
any length; that a machine has no words to address the longest ones is asked once, before the run,
which would find it out as soon as it lays out the assumptions of the first object. All later series
have the same length. -/
def checkMonths (m : Model) (months : Nat) : Except Fault Unit := do
  if !m.definitions.isEmpty then Series.checkLength months

def tableOf (read : DateReader) (a : Arguments) (files : Files) (input : String) :
    Logged Table := do
  let source ← if a.model = "-" then pure input else readFile files a.model
  let schema ← schemaOf files a.schema
  let template ← templateOf files a.template
  let overrides ← overridesOf files a.overrides
  let m ← (do return ← Model.ofSource source : Except Fault Model)
  let h ← horizonOf read a m
  let p ← Plan.ofModel m
  checkMonths m h.months
  let o ← p.run schema h.months none (Overrides.ofValue overrides) Registry.standard
  checkOverrides overrides o.results.channels
  if a.statements then do
    let f ← Financials.build o.channelSeries h.months schema template
    (do return ← Table.ofFinancials (if a.annual then f.annual else f) h.start : Except Fault Table)
  else (do return ← Table.ofStore o.results.store h : Except Fault Table)

def respond (read : DateReader) (a : Arguments) (files : Files) (input : String) :
    Logged Response :=
  let table := tableOf read a files input
  match table.outcome with
  | .ok t => ⟨table.notices, .ok (.written (t.write a.format) a.out)⟩
  | .error fault =>
    ⟨table.notices, if fault.isReported then .ok (.failed fault) else .error fault⟩

/-- The answer to the words of a command line. -/
def answer (read : DateReader) (files : Files) (input : String) (words : List String) :
    Logged Response :=
  match Arguments.ofTexts words with
  | .error .help => return .help
  | .error (.misuse fault) => return .misuse fault
  | .ok a => respond read a files input

def usage : String :=
  "usage: fm-engine [-h] [--months MONTHS] [--years YEARS] [--schema SCHEMA] " ++
  "[--template TEMPLATE]\n" ++
  "                 [--overrides OVERRIDES] [--format \x7btext,csv,json\x7d] " ++
  "[--statements] [--annual]\n" ++
  "                 [--out OUT] [-v]\n" ++
  "                 model\n"

end Command

namespace Response

def output : Response → String
  | help => Command.usage
  | misuse _ => ""
  | failed _ => ""
  | written table out => if out.isEmpty then table else ""

def complaint : Response → String
  | help => ""
  | misuse fault => Command.usage ++ "fm-engine: error: " ++ fault.message ++ "\n"
  | failed fault => "ERROR: " ++ fault.message ++ "\n"
  | written .. => ""

end Response

end Forecast

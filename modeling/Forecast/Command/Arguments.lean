import Forecast.Command.Switch
import Forecast.Table.Export
import Forecast.Text.Quoted
import Forecast.Value.Number

/-!
# Arguments of the command

What the command is asked to do, read from the words of its command line: one
file with a model, the horizon, files with a schema, a template and overrides,
and what to write in which format. Faults are found from left to right; those
about the whole command line come last.
-/

namespace Forecast.Command

/-- What the command is asked to do. -/
structure Arguments where
  /-- The file of the model; a hyphen stands for the input. -/
  model : String
  months : Int
  years : Option Int
  schema : String
  template : String
  overrides : String
  format : Table.Format
  statements : Bool
  annual : Bool
  out : String
  verbose : Bool

/-- What is wrong with a command line. -/
inductive Misuse
  | ambiguous (word : Ambiguous)
  | noValue (switch : Switch)
  | needlessValue (switch : Switch) (text : String)
  | notInteger (switch : Switch) (text : String)
  | unknownFormat (text : String)
  | noModel
  | unrecognized (texts : List String)
  | annualAlone
  | tooFewMonths

def formatNames : Entries Table.Format :=
  [("text", .plain), ("csv", .csv), ("json", .json)]

def about (s : Switch) (message : String) : String :=
  "argument " ++ s.shown ++ ": " ++ message

def Misuse.message : Misuse → String
  | ambiguous word =>
    "ambiguous option: " ++ word.word ++ " could match " ++ ", ".intercalate word.names
  | noValue switch => about switch "expected one argument"
  | needlessValue switch text => about switch ("ignored explicit argument " ++ Text.quoted text)
  | notInteger switch text => about switch ("invalid int value: " ++ Text.quoted text)
  | unknownFormat text =>
    about .format ("invalid choice: " ++ Text.quoted text ++ " (choose from " ++
      ", ".intercalate (formatNames.keys.map Text.quoted) ++ ")")
  | noModel => "the following arguments are required: model"
  | unrecognized texts => "unrecognized arguments: " ++ " ".intercalate texts
  | annualAlone => "--annual requires --statements"
  | tooFewMonths => "--months must be >= 1"

inductive Halt
  | help
  | misuse (fault : Misuse)

/-- What has been read of a command line. -/
structure Draft where
  model : Option String
  months : Int
  years : Option Int
  schema : String
  template : String
  overrides : String
  format : Table.Format
  statements : Bool
  annual : Bool
  out : String
  verbose : Bool
  /-- Words that have no meaning. -/
  extras : List String

namespace Draft

def start : Draft where
  model := none
  months := 24
  years := none
  schema := ""
  template := ""
  overrides := ""
  format := .plain
  statements := false
  annual := false
  out := ""
  verbose := false
  extras := []

def integer (s : Switch) (text : String) : Except Halt Int :=
  match Value.intOfText text with
  | .ok n => .ok n
  | .error _ => .error (.misuse (.notInteger s text))

def set (d : Draft) (s : Switch) (text : String) : Except Halt Draft :=
  match s with
  | .months => do return { d with months := ← integer s text }
  | .years => do return { d with years := some (← integer s text) }
  | .schema => .ok { d with schema := text }
  | .template => .ok { d with template := text }
  | .overrides => .ok { d with overrides := text }
  | .format =>
    match formatNames.lookup text with
    | some format => .ok { d with format }
    | none => .error (.misuse (.unknownFormat text))
  | .out => .ok { d with out := text }
  | .help | .statements | .annual | .verbose => .error (.misuse (.needlessValue s text))

def turnOn (d : Draft) (s : Switch) : Except Halt Draft :=
  match s with
  | .help => .error .help
  | .statements => .ok { d with statements := true }
  | .annual => .ok { d with annual := true }
  | .verbose => .ok { d with verbose := true }
  | .months | .years | .schema | .template | .overrides | .format | .out =>
    .error (.misuse (.noValue s))

def extra (d : Draft) (text : String) : Draft :=
  { d with extras := d.extras ++ [text] }

/-- The switches that the letters after that of a switch without a value stand for. -/
def letters (s : Switch) : List Char → Except Halt (List Switch)
  | [] => .ok []
  | c :: rest =>
    match switchNames.lookup (String.ofList ['-', c]) with
    | some next => (letters next rest).map (next :: ·)
    | none => .error (.misuse (.needlessValue s (String.ofList (c :: rest))))

/-- A switch without the value that it takes; only numbers cannot be left out. -/
def unset (d : Draft) (s : Switch) : Except Halt Draft :=
  match s with
  | .format => .ok { d with format := .plain }
  | .months | .years => .error (.misuse (.notInteger s "--"))
  | _ => d.set s ""

/-- A switch with a text attached to it: its value, or after a letter more letters. A double hyphen
stands for no value. -/
def attach (d : Draft) (s : Switch) (letter : Bool) (text : List Char) : Except Halt Draft :=
  if s.takesValue then if text = ['-', '-'] then d.unset s else d.set s (String.ofList text)
  else if letter && !text.isEmpty then do
    (s :: (← letters s text)).foldlM turnOn d
  else .error (.misuse (.needlessValue s (String.ofList text)))

/-- Reads the words from left to right. The first word that stands for itself names the model. -/
def readWords (d : Draft) : List Word → Except Halt Draft
  | [] => .ok d
  | .switch s letter (some text) :: rest => do
    let d ← d.attach s letter text
    readWords d rest
  | .switch s _ none :: .plain text :: rest =>
    if s.takesValue then do
      let d ← d.set s text
      readWords d rest
    else do
      let d ← d.turnOn s
      readWords d (.plain text :: rest)
  | .switch s _ none :: rest => do
    let d ← d.turnOn s
    readWords d rest
  | .unknown text :: rest => readWords (d.extra text) rest
  | .plain text :: .doubleHyphen :: rest =>
    if d.model.isNone then readWords { d with model := some text } rest
    else readWords (d.extra text) (.doubleHyphen :: rest)
  | .plain text :: rest =>
    if d.model.isNone then readWords { d with model := some text } rest
    else readWords (d.extra text) rest
  | .doubleHyphen :: .plain text :: rest =>
    if d.model.isNone then readWords { d with model := some text } rest
    else readWords ((d.extra "--").extra text) rest
  | .doubleHyphen :: rest => readWords (d.extra "--") rest

def finish (d : Draft) : Except Misuse Arguments :=
  match d.model with
  | none => .error .noModel
  | some model =>
    if !d.extras.isEmpty then .error (.unrecognized d.extras)
    else if d.annual && !d.statements then .error .annualAlone
    else if d.months < 1 then .error .tooFewMonths
    else
      .ok {
        model
        months := d.months
        years := d.years
        schema := d.schema
        template := d.template
        overrides := d.overrides
        format := d.format
        statements := d.statements
        annual := d.annual
        out := d.out
        verbose := d.verbose }

end Draft

namespace Arguments

def ofTexts (texts : List String) : Except Halt Arguments := do
  let words ← (Word.ofTexts texts).mapError fun a => .misuse (.ambiguous a)
  let d ← Draft.start.readWords words
  d.finish.mapError .misuse

def files (a : Arguments) : List String :=
  (if a.model = "-" then [] else [a.model]) ++
    [a.schema, a.template, a.overrides].filter fun name => !name.isEmpty

end Arguments
end Forecast.Command

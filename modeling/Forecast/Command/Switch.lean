import Forecast.Entries
import Forecast.Text.Blank
import Forecast.Text.Digit

/-!
# Words of a command line

Each word of a command line is a switch, possibly with a text attached to it, or
stands for itself. Switches have long names, which may be shortened as long as
one name fits, and some have a letter as well. A word that starts with a hyphen
and is no switch stands for itself only if it is a negative number or holds a
space. All words after a double hyphen stand for themselves.
-/

namespace Forecast.Command

inductive Switch
  | help
  | months
  | years
  | schema
  | template
  | overrides
  | format
  | statements
  | annual
  | out
  | verbose
deriving DecidableEq

def switchNames : Entries Switch :=
  [("-h", .help),
    ("--help", .help),
    ("--months", .months),
    ("--years", .years),
    ("--schema", .schema),
    ("--template", .template),
    ("--overrides", .overrides),
    ("--format", .format),
    ("--statements", .statements),
    ("--annual", .annual),
    ("--out", .out),
    ("-v", .verbose),
    ("--verbose", .verbose)]

namespace Switch

/-- The names of a switch, as messages show them. -/
def shown (s : Switch) : String :=
  "/".intercalate (Entries.keys (switchNames.filter fun e => e.2 == s))

def takesValue : Switch → Bool
  | months | years | schema | template | overrides | format | out => true
  | help | statements | annual | verbose => false

end Switch

/-- A word of a command line. -/
inductive Word
  /-- A switch, possibly with a text attached to it; `letter` if it was given by its letter. -/
  | switch (s : Switch) (letter : Bool) (attached : Option (List Char))
  | plain (text : String)
  /-- A word that looks like a switch and is none. -/
  | unknown (text : String)
  | doubleHyphen

/-- A word that could be several switches. -/
structure Ambiguous where
  word : String
  names : List String

namespace Word

/-- Whether a name is a letter after a single hyphen. -/
def isLetterName : List Char → Bool
  | ['-', c] => c != '-'
  | _ => false

/-- A word split at its first equals sign. -/
def splitMark (s : List Char) : List Char × Option (List Char) :=
  match s.span (· != '=') with
  | (name, '=' :: text) => (name, some text)
  | (name, _) => (name, none)

def named? (name : List Char) (attached : Option (List Char)) : Option Word :=
  (switchNames.lookup (String.ofList name)).map fun s => .switch s (isLetterName name) attached

def fitting (start : List Char) : Entries Switch :=
  switchNames.filter fun e => start.isPrefixOf e.1.toList

/-- Whether a word is a negative number. -/
def isNegativeNumber (s : List Char) : Bool :=
  match s with
  | '-' :: body =>
    let unbroken := if body.getLast? == some '\n' then body.dropLast else body
    let (whole, rest) := unbroken.span Text.isDecimalDigit
    match rest with
    | [] => !whole.isEmpty
    | '.' :: part => !part.isEmpty && part.all Text.isDecimalDigit
    | _ => false
  | _ => false

/-- A word with a hyphen that is the full name of no switch. -/
def guess (s : List Char) : Except Ambiguous Word :=
  let text := String.ofList s
  let other : Word := if isNegativeNumber s || s.contains ' ' then .plain text else .unknown text
  match s with
  | '-' :: '-' :: _ =>
    let (start, attached) := splitMark s
    match fitting start with
    | [] => .ok other
    | [(_, switch_)] => .ok (.switch switch_ false attached)
    | several => .error ⟨text, several.keys⟩
  | _ =>
    match switchNames.lookup (String.ofList (s.take 2)) with
    | some switch_ => .ok (.switch switch_ true (some (s.drop 2)))
    | none => .ok other

def ofText (text : String) : Except Ambiguous Word :=
  match text.toList with
  | '-' :: c :: rest =>
    let s := '-' :: c :: rest
    let (name, attached) := splitMark s
    match named? s none with
    | some w => .ok w
    | none =>
      match attached.bind fun a => named? name (some a) with
      | some w => .ok w
      | none => guess s
  | _ => .ok (.plain text)

def ofTexts : List String → Except Ambiguous (List Word)
  | [] => .ok []
  | text :: rest =>
    if text = "--" then .ok (.doubleHyphen :: rest.map .plain)
    else do
      let w ← ofText text
      let ws ← ofTexts rest
      return w :: ws

end Word
end Forecast.Command

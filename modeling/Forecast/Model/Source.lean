import Forecast.Model.Token

/-!
# Reading a model

A model is read line by line. The text may begin with a header: lines `FM` and
`// key: value`. A line `Name:` opens a section, a line that starts with
`Name =` opens a definition, and lines that are neither blank nor a section, a
comment or another definition continue it. A blank line closes the definition
and drops the comments that wait for the next one.
-/

namespace Forecast

open Text

def identifier? : List Char → Option (List Char × List Char)
  | c :: rest =>
    if c.isAlpha then
      let (name, tail) := rest.span isNameChar
      some (c :: name, tail)
    else none
  | [] => none

/-- The name of the section that a trimmed line opens. -/
def sectionName? (line : List Char) : Option String :=
  match identifier? line with
  | some (name, rest) =>
    match rest.dropWhile isBlank with
    | ':' :: tail => if (trim tail).isEmpty then some (String.ofList name) else none
    | _ => none
  | none => none

/-- Whether a trimmed line opens a definition. -/
def opensDefinition (line : List Char) : Bool :=
  match identifier? line with
  | some (_, rest) => (rest.dropWhile isBlank).head? == some '='
  | none => false

def metadata? (line : List Char) : Option (String × String) :=
  match line with
  | '/' :: '/' :: rest =>
    match (rest.dropWhile isBlank).span isNameChar with
    | (key@(_ :: _), afterKey) =>
      match afterKey.dropWhile isBlank with
      | ':' :: value => some (String.ofList key, String.ofList (trim value))
      | _ => none
    | _ => none
  | _ => none

/-- What stands before the first pair of slashes and what stands after it. -/
def splitComment : List Char → List Char × Option (List Char)
  | '/' :: '/' :: rest => ([], some rest)
  | c :: rest =>
    let (before, comment) := splitComment rest
    (c :: before, comment)
  | [] => ([], none)

/-- The text of the outputs after the closing parenthesis: nothing, or an arrow and more. -/
def afterArguments? (s : List Char) : Option (List Char) :=
  match s.dropWhile isBlank with
  | [] => some []
  | '=' :: '>' :: outputs => some (trim outputs)
  | '>' :: outputs => some (trim outputs)
  | _ => none

/-- The arguments up to the first parenthesis that can close them, and the outputs. -/
def arguments? : List Char → Option (List Char × List Char)
  | [] => none
  | c :: rest =>
    match if c = ')' then afterArguments? rest else none with
    | some outputs => some ([], outputs)
    | none => (arguments? rest).map fun (args, outputs) => (c :: args, outputs)

/-- The parts of a definition, not yet taken apart further. -/
structure Header where
  name : String
  kind : String
  arguments : List Char
  outputs : List Char

/-- The parts of a definition `Name = Type(arguments) => outputs`. -/
def Header.ofChars? (s : List Char) : Option Header := do
  let (name, rest) ← identifier? s
  let '=' :: rest := rest.dropWhile isBlank | none
  let (kind, rest) ← identifier? (rest.dropWhile isBlank)
  let '(' :: rest := rest.dropWhile isBlank | none
  let (args, outputs) ← arguments? rest
  return ⟨String.ofList name, String.ofList kind, args, outputs⟩

/-- A definition that further lines may continue. -/
structure Draft where
  text : List Char
  line : Nat
  comments : List String

/-- What has been read so far. -/
structure Progress where
  /-- Whether all lines so far may belong to the header. -/
  inHeader : Bool
  metadata : Entries String
  /-- The sections, the last one first. -/
  sections : List Section
  definitions : List Definition
  /-- Comments that wait for the next definition. -/
  waiting : List String
  draft : Option Draft

namespace Progress

def start : Progress where
  inHeader := true
  metadata := []
  sections := []
  definitions := []
  waiting := []
  draft := none

def define (sections : List Section) (d : Draft) : Except ReadFault Definition :=
  match Header.ofChars? d.text with
  | none => .error ⟨.definition, d.line, String.ofList d.text⟩
  | some h =>
    match sections with
    | [] => .error ⟨.outsideSection, d.line, String.ofList d.text⟩
    | current :: _ => do
      let args ← (splitTokens h.arguments).mapM (Argument.ofToken d.line)
      let outputs ← Outputs.ofChars d.line h.outputs
      return {
        name := h.name
        kind := h.kind
        arguments := args
        outputs := outputs.names
        inline := outputs.inline
        sectionName := current.name
        comment := "\n".intercalate d.comments
        line := d.line }

/-- Puts a definition at the end of the open section. -/
def addTo (d : Definition) : List Section → List Section
  | [] => []
  | current :: earlier => { current with definitions := current.definitions ++ [d] } :: earlier

def close (p : Progress) : Except ReadFault Progress :=
  match p.draft with
  | none => .ok p
  | some draft => do
    let d ← define p.sections draft
    return { p with
      draft := none, sections := addTo d p.sections, definitions := p.definitions ++ [d] }

/-- A comment behind code, if there is one that is not blank. -/
def trailing (comment : Option (List Char)) : List String :=
  match comment with
  | none => []
  | some s => if (trim s).isEmpty then [] else [String.ofList (trim s)]

/-- A line of code: it opens a definition or continues one. -/
def code (p : Progress) (number : Nat) (line : List Char) : Except ReadFault Progress :=
  let (before, comment) := splitComment line
  let text := trim before
  if opensDefinition line then do
    let p ← p.close
    return { p with draft := some ⟨text, number, p.waiting ++ trailing comment⟩, waiting := [] }
  else
    match p.draft with
    | none => .error ⟨.strayLine, number, String.ofList line⟩
    | some d =>
      let text := if text.isEmpty then d.text else d.text ++ ' ' :: text
      .ok { p with
        draft := some { d with text := text, comments := d.comments ++ trailing comment } }

/-- A trimmed line after the header: a section, a comment or code. -/
def body (p : Progress) (number : Nat) (line : List Char) : Except ReadFault Progress :=
  match sectionName? line with
  | some name => do
    let p ← p.close
    return { p with sections := ⟨name, number, []⟩ :: p.sections, waiting := [] }
  | none =>
    match line with
    | '/' :: '/' :: rest => .ok { p with waiting := p.waiting ++ [String.ofList (trim rest)] }
    | _ => p.code number line

def step (p : Progress) (number : Nat) (raw : List Char) : Except ReadFault Progress :=
  let line := trim raw
  if line.isEmpty then do
    let p ← p.close
    return { p with waiting := [] }
  else if p.inHeader then
    if line = ['F', 'M'] then .ok p
    else
      match line with
      | '/' :: '/' :: _ =>
        match metadata? line with
        | some (key, value) => .ok { p with metadata := p.metadata.put key value }
        | none => p.body number line
      | _ => { p with inHeader := false }.body number line
  else p.body number line

/-- Reads lines that are numbered from `number` on. -/
def steps (p : Progress) (number : Nat) : List (List Char) → Except ReadFault Progress
  | [] => .ok p
  | line :: rest => do
    let p ← p.step number line
    p.steps (number + 1) rest

def model (p : Progress) : Model where
  sections := p.sections.reverse
  definitions := p.definitions
  metadata := p.metadata

end Progress

def Model.ofSource (source : String) : Except ReadFault Model := do
  let p ← Progress.start.steps 1 (lines source.toList)
  let p ← p.close
  return p.model

end Forecast

import Forecast.Proofs.Outline.Texts

/-!
# Outlines

An outline is what the text of a model says apart from its layout: the metadata,
and sections of objects with their comments, where every token comes with what
it denotes on its own. An outline is written line by line, and it denotes a
model, whose line numbers are those of the written text.
-/

namespace Forecast

open Text

/-- A text within a line, without blanks at either end. -/
structure IsTrimmedLine (s : String) : Prop where
  unbroken : ∀ c ∈ s.toList, isLineBreak c = false
  trimmed : trim s.toList = s.toList

/-- A text that can stand between commas, in parentheses. -/
structure IsPlain (s : String) : Prop extends IsTrimmedLine s where
  nonempty : s ≠ ""
  comma : ',' ∉ s.toList
  opening : '(' ∉ s.toList
  closing : ')' ∉ s.toList
  slashes : ¬['/', '/'] <:+: s.toList

instance (s : String) : Decidable (IsTrimmedLine s) :=
  decidable_of_iff (Unbroken s.toList ∧ trim s.toList = s.toList)
    ⟨fun h => ⟨h.1, h.2⟩, fun h => ⟨h.unbroken, h.trimmed⟩⟩

instance (s : String) : Decidable (IsPlain s) :=
  decidable_of_iff (IsTrimmedLine s ∧ s ≠ "" ∧ ',' ∉ s.toList ∧ '(' ∉ s.toList ∧ ')' ∉ s.toList ∧
      NoSlashes s.toList)
    ⟨fun ⟨line, nonempty, comma, opening, closing, slashes⟩ =>
        ⟨line, nonempty, comma, opening, closing, noSlashes_iff.1 slashes⟩,
      fun h => ⟨h.toIsTrimmedLine, h.nonempty, h.comma, h.opening, h.closing,
        noSlashes_iff.2 h.slashes⟩⟩

namespace Outline

/-- A token of an argument, with what it denotes. -/
structure Token where
  text : String
  argument : Argument
  plain : IsPlain text
  denotes : Argument.ofToken 0 text.toList = .ok argument

/-- A key and a value next to an output, with what the value denotes. -/
structure Inline where
  key : String
  text : String
  value : InlineValue
  key_plain : IsPlain key
  key_colon : ':' ∉ key.toList
  plain : IsPlain text
  denotes : InlineValue.ofChars 0 text.toList = .ok value

/-- An output, with parentheses after it or without. -/
structure Output where
  name : String
  inline : Option (List Inline)
  word : IsWord name
  distinct : ∀ values ∈ inline, (values.map (·.key)).Nodup

structure Object where
  name : String
  kind : String
  arguments : List Token
  outputs : List Output
  comments : List String
  name_identifier : IsIdentifier name
  kind_identifier : IsIdentifier kind
  distinct : (outputs.map (·.name)).Nodup
  trimmed : ∀ c ∈ comments, IsTrimmedLine c

structure Section where
  name : String
  objects : List Object
  identifier : IsIdentifier name

end Outline

structure Outline where
  metadata : Entries String
  sections : List Outline.Section
  words : ∀ key ∈ metadata.keys, IsWord key
  distinct : metadata.keys.Nodup
  trimmed : ∀ e ∈ metadata, IsTrimmedLine e.2

namespace Outline

/-! ## How an outline is written -/

def Inline.written (v : Inline) : String :=
  v.key ++ ": " ++ v.text

def Output.written (o : Output) : String :=
  match o.inline with
  | none => o.name
  | some values => o.name ++ "(" ++ ", ".intercalate (values.map Inline.written) ++ ")"

def Object.written (o : Object) : String :=
  let call := o.name ++ " = " ++ o.kind ++ "(" ++ ", ".intercalate (o.arguments.map (·.text)) ++ ")"
  if o.outputs.isEmpty then call
  else call ++ " => " ++ ", ".intercalate (o.outputs.map Output.written)

def Object.lines (o : Object) : List String :=
  o.comments.map ("// " ++ ·) ++ [o.written]

def Section.lines (s : Section) : List String :=
  (s.name ++ ":") :: s.objects.flatMap Object.lines

def lines (o : Outline) : List String :=
  "FM" :: o.metadata.map (fun e => "// " ++ e.1 ++ ": " ++ e.2) ++ o.sections.flatMap Section.lines

def written (o : Outline) : String :=
  "\n".intercalate o.lines

/-! ## What an outline denotes -/

/-- The name of an output with the values next to it, if there are any. -/
def Output.values? (o : Output) : Option (String × Entries InlineValue) :=
  match o.inline with
  | some (v :: values) => some (o.name, (v :: values).map fun v => (v.key, v.value))
  | _ => none

def Object.definition (o : Object) (sectionName : String) (line : Nat) : Definition where
  name := o.name
  kind := o.kind
  arguments := o.arguments.map (·.argument)
  outputs := o.outputs.map (·.name)
  inline := o.outputs.filterMap Output.values?
  sectionName := sectionName
  comment := "\n".intercalate o.comments
  line := line

def definitionsFrom (sectionName : String) (line : Nat) : List Object → List Definition
  | [] => []
  | o :: objects =>
    o.definition sectionName (line + o.comments.length) ::
      definitionsFrom sectionName (line + o.lines.length) objects

def sectionsFrom (line : Nat) : List Section → List Forecast.Section
  | [] => []
  | s :: sections =>
    ⟨s.name, line, definitionsFrom s.name (line + 1) s.objects⟩ ::
      sectionsFrom (line + s.lines.length) sections

def model (o : Outline) : Model :=
  let sections := sectionsFrom (o.metadata.length + 2) o.sections
  { sections := sections
    definitions := sections.flatMap (·.definitions)
    metadata := o.metadata }

end Outline
end Forecast

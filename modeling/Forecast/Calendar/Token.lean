import Forecast.Text.Blank
import Forecast.Text.Digit

/-!
# Tokens of a written date

A written date is cut into words, numbers, and single marks; every blank counts
as a space. Points join words and numbers to one run, and a comma joins digits
to two or more before it. A run is cut again at these marks, unless it is a
number with a single point or comma between its digits; then it is one number,
and the comma is a point.
-/

namespace Forecast.Date

open Text

/-- A word, a number or a mark. -/
abbrev Token := List Char

/-- A character of a word. Outside ASCII, all that is neither blank nor a digit counts as one. -/
def isLetter (c : Char) : Bool :=
  c.isAlpha || (127 < c.toNat && !isBlank c && !isDigitLike c)

/-- What a run of characters has become. -/
inductive RunKind
  | word
  | number
  /-- Words and numbers joined by points, a word at the end. -/
  | pointedWord
  /-- The same with a number at the end. -/
  | pointedNumber
deriving DecidableEq

namespace RunKind

def isPointed : RunKind → Bool
  | pointedWord | pointedNumber => true
  | word | number => false

def isWord : RunKind → Bool
  | word | pointedWord => true
  | number | pointedNumber => false

end RunKind

/-- A run of characters, the last one first. -/
structure Run where
  kind : RunKind
  /-- Whether a character came after a letter of the run. -/
  lettered : Bool
  reversed : List Char

namespace Run

def start? (c : Char) : Option Run :=
  if isLetter c then some ⟨.word, false, [c]⟩
  else if isDigitLike c then some ⟨.number, false, [c]⟩
  else none

/-- The kind of a run after one more character, if the run goes on. Letters may follow digits, and
digits letters, only after a point. -/
def kindAfter? (r : Run) (c : Char) : Option RunKind :=
  match r.kind with
  | .word => if isLetter c then some .word else if c == '.' then some .pointedWord else none
  | .number =>
    if isDigitLike c then some .number
    else if c == '.' || (c == ',' && 2 ≤ r.reversed.length) then some .pointedNumber
    else none
  | .pointedWord =>
    if c == '.' || isLetter c then some .pointedWord
    else if isDigitLike c && r.reversed.head? == some '.' then some .pointedNumber
    else none
  | .pointedNumber =>
    if c == '.' || isDigitLike c then some .pointedNumber
    else if isLetter c && r.reversed.head? == some '.' then some .pointedWord
    else none

/-- The run when it is known that a character follows its last one. -/
def followed (r : Run) : Run :=
  { r with lettered := r.lettered || r.kind.isWord }

def extend? (r : Run) (c : Char) : Option Run :=
  (r.kindAfter? c).map fun kind => { r.followed with kind, reversed := c :: r.reversed }

def isJoint (c : Char) : Bool :=
  c == '.' || c == ','

/-- A run cut at its points and commas, which are tokens of their own. -/
def pieces : List Char → List Token
  | [] => []
  | c :: rest =>
    if isJoint c then [c] :: pieces rest
    else
      match rest, pieces rest with
      | d :: _, piece :: others =>
        if isJoint d then [c] :: piece :: others else (c :: piece) :: others
      | _, others => [c] :: others

/-- Whether a run with points is more than one number. -/
def isCut (r : Run) : Bool :=
  r.lettered || 1 < r.reversed.count '.' || r.reversed.head?.any isJoint

def tokens (r : Run) : List Token :=
  let text := r.reversed.reverse
  if r.kind.isPointed && r.isCut then pieces text
  else if r.kind == .pointedNumber && !text.contains '.' then
    [text.map fun c => if c == ',' then '.' else c]
  else [text]

end Run

def markToken (c : Char) : Token :=
  if isBlank c then [' '] else [c]

def cut (current : Option Run) : List Char → List Token
  | [] => (current.map Run.tokens).getD []
  | c :: rest =>
    match current.bind (·.extend? c) with
    | some r => cut (some r) rest
    | none =>
      let done := (current.map fun r => r.followed.tokens).getD []
      match Run.start? c with
      | some r => done ++ cut (some r) rest
      | none => done ++ markToken c :: cut none rest

/-- The tokens of a written date. Null characters do not count. -/
def tokens (s : List Char) : List Token :=
  cut none (s.filter (· != '\x00'))

end Forecast.Date

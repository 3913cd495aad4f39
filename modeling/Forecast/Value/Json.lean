import Forecast.Entries
import Forecast.Value.Number

/-!
# JSON

Values are read from JSON and written to it. Numbers without a fraction and an
exponent are integers, all others doubles; `NaN` and the infinities are read
too. Of two entries with one key the later one counts. A fault names the place
in the text at which reading stopped.
-/

namespace Forecast.Json

/-- What is wrong with a text that is no JSON. -/
inductive Cause
  | value
  | propertyName
  | colon
  | comma
  | unterminated
  | control
  | escape
  | unicodeEscape
  | extraData
  | byteOrderMark
  /-- An integer with too many digits. -/
  | longInteger (digits : Nat)

def Cause.message : Cause → String
  | value => "Expecting value"
  | propertyName => "Expecting property name enclosed in double quotes"
  | colon => "Expecting ':' delimiter"
  | comma => "Expecting ',' delimiter"
  | unterminated => "Unterminated string starting at"
  | control => "Invalid control character at"
  | escape => "Invalid \\escape"
  | unicodeEscape => "Invalid \\uXXXX escape"
  | extraData => "Extra data"
  | byteOrderMark => "Unexpected UTF-8 BOM (decode using utf-8-sig)"
  | longInteger digits => (NumberFault.tooManyDigits digits).message

/-- A cause, and the number of characters from the place of the fault to the end of the text. -/
structure Stop where
  cause : Cause
  left : Nat

/-- A fault with its place: the characters before it, its line and its column. -/
structure Fault where
  cause : Cause
  offset : Nat
  line : Nat
  column : Nat

def Fault.at (s : List Char) (stop : Stop) : Fault :=
  let before := s.take (s.length - stop.left)
  { cause := stop.cause
    offset := before.length
    line := before.count '\n' + 1
    column := (before.reverse.takeWhile (· != '\n')).length + 1 }

def Fault.message (f : Fault) : String :=
  match f.cause with
  | .longInteger digits => (Cause.longInteger digits).message
  | cause => cause.message ++ ": line " ++ Decimal.intText f.line ++ " column " ++
      Decimal.intText f.column ++
    " (char " ++ Decimal.intText f.offset ++ ")"

/-! ## Reading -/

def stopAt {α : Type} (cause : Cause) (rest : List Char) : Except Stop α :=
  .error ⟨cause, rest.length⟩

def skipSpace (s : List Char) : List Char :=
  s.dropWhile fun c => c == ' ' || c == '\t' || c == '\n' || c == '\r'

def hexDigit? (c : Char) : Option Nat :=
  if '0' ≤ c && c ≤ '9' then some (c.toNat - 48)
  else if 'a' ≤ c && c ≤ 'f' then some (c.toNat - 87)
  else if 'A' ≤ c && c ≤ 'F' then some (c.toNat - 55)
  else none

/-- Four digits in base sixteen, with at least one character after them. -/
def unit? : List Char → Option (Nat × List Char)
  | a :: b :: c :: d :: next :: rest => do
    let n := (← hexDigit? a) * 4096 + (← hexDigit? b) * 256 + (← hexDigit? c) * 16 + (← hexDigit? d)
    return (n, next :: rest)
  | _ => none

/-- The character of one unit, or of two that form a pair; `s` follows the letter of the escape. -/
def unicode? (s : List Char) : Except (List Char) (Char × List Char) :=
  match unit? s with
  | none => .error s
  | some (high, rest) =>
    if 0xD800 ≤ high && high < 0xDC00 then
      match rest with
      | '\\' :: 'u' :: more =>
        match unit? more with
        | none => .error more
        | some (low, after) =>
          if 0xDC00 ≤ low && low < 0xE000 then
            .ok (Char.ofNat (0x10000 + (high - 0xD800) * 1024 + (low - 0xDC00)), after)
          else .ok ('\uFFFD', rest)
      | _ => .ok ('\uFFFD', rest)
    else .ok (if 0xDC00 ≤ high && high < 0xE000 then '\uFFFD' else Char.ofNat high, rest)

def simpleEscape? (c : Char) : Option Char :=
  match c with
  | '"' => some '"'
  | '\\' => some '\\'
  | '/' => some '/'
  | 'b' => some '\x08'
  | 'f' => some '\x0c'
  | 'n' => some '\n'
  | 'r' => some '\r'
  | 't' => some '\t'
  | _ => none

/-- The rest of a text after its opening quote. `start` is what remained at the quote. -/
def stringBody (start : Nat) : Nat → List Char → List Char → Except Stop (String × List Char)
  | 0, _, _ => .error ⟨.unterminated, start⟩
  | _, [], _ => .error ⟨.unterminated, start⟩
  | _ + 1, '"' :: rest, acc => .ok (String.ofList acc.reverse, rest)
  | _ + 1, ['\\'], _ => .error ⟨.unterminated, start⟩
  | fuel + 1, '\\' :: 'u' :: rest, acc =>
    match unicode? rest with
    | .ok (c, after) => stringBody start fuel after (c :: acc)
    | .error digits => .error ⟨.unicodeEscape, digits.length + 1⟩
  | fuel + 1, '\\' :: c :: rest, acc =>
    match simpleEscape? c with
    | some d => stringBody start fuel rest (d :: acc)
    | none => .error ⟨.escape, rest.length + 2⟩
  | fuel + 1, c :: rest, acc =>
    if c.toNat < 32 then stopAt .control (c :: rest) else stringBody start fuel rest (c :: acc)

/-- A text; `s` follows its opening quote. -/
def string (s : List Char) : Except Stop (String × List Char) :=
  stringBody (s.length + 1) (s.length + 1) s []

def asciiDigits (s : List Char) : List Char × List Char :=
  s.span fun c => '0' ≤ c && c ≤ '9'

/-- The digits before the point: a zero alone, or digits that start with none. -/
def wholeDigits (s : List Char) : List Char × List Char :=
  match s with
  | '0' :: rest => (['0'], rest)
  | _ => asciiDigits s

/-- A point with digits, if there is one. -/
def fractionPart (s : List Char) : List Char × List Char :=
  match s with
  | '.' :: rest =>
    match asciiDigits rest with
    | ([], _) => ([], s)
    | (ds, after) => ('.' :: ds, after)
  | _ => ([], s)

/-- A power of ten, if there is one. -/
def exponentPart (s : List Char) : List Char × List Char :=
  match s with
  | c :: rest =>
    if c == 'e' || c == 'E' then
      let (sign, body) :=
        match rest with
        | '+' :: more => (['+'], more)
        | '-' :: more => (['-'], more)
        | _ => ([], rest)
      match asciiDigits body with
      | ([], _) => ([], s)
      | (ds, after) => (c :: sign ++ ds, after)
    else ([], s)
  | [] => ([], s)

def number? (s : List Char) : Option (Value × List Char) :=
  let (sign, body) :=
    match s with
    | '-' :: rest => (['-'], rest)
    | _ => ([], s)
  match wholeDigits body with
  | ([], _) => none
  | (whole, afterWhole) =>
    let (fraction, afterFraction) := fractionPart afterWhole
    let (power, rest) := exponentPart afterFraction
    if fraction.isEmpty && power.isEmpty then
      let n := Decimal.ofDigits (whole.map fun c => c.toNat - 48)
      some (.int (if sign.isEmpty then n else -(n : Int)), rest)
    else
      (Decimal.float? (sign ++ whole ++ fraction ++ power)).map fun x => (.float x, rest)

def words : List (List Char × Value) :=
  [("null".toList, .null), ("true".toList, .bool true), ("false".toList, .bool false),
    ("NaN".toList, .float (0.0 / 0.0)), ("Infinity".toList, .float (1.0 / 0.0)),
    ("-Infinity".toList, .float (-(1.0 / 0.0)))]

/-- A word or a number at the front of a text. -/
def scalar (s : List Char) : Except Stop (Value × List Char) :=
  match words.find? fun w => w.1.isPrefixOf s with
  | some (w, v) => .ok (v, s.drop w.length)
  | none =>
    match number? s with
    | some (.int n, rest) =>
      let digits := (wholeDigits (if s.head? == some '-' then s.drop 1 else s)).1.length
      if Decimal.digitLimit < digits then stopAt (.longInteger digits) s else .ok (.int n, rest)
    | some found => .ok found
    | none => stopAt .value s

mutual

/-- A value at the front of a text; `fuel` bounds the number of values and entries in it. -/
def valueAt : Nat → List Char → Except Stop (Value × List Char)
  | 0, s => stopAt .value s
  | fuel + 1, s =>
    match s with
    | '"' :: rest => (string rest).map fun (t, after) => (.text t, after)
    | '[' :: rest =>
      match skipSpace rest with
      | ']' :: after => .ok (.list [], after)
      | body => itemsAt fuel body []
    | '\x7b' :: rest =>
      match skipSpace rest with
      | '\x7d' :: after => .ok (.record [], after)
      | body => entriesAt fuel body []
    | _ => scalar s

def itemsAt : Nat → List Char → List Value → Except Stop (Value × List Char)
  | 0, s, _ => stopAt .value s
  | fuel + 1, s, acc =>
    match valueAt fuel s with
    | .error stop => .error stop
    | .ok (v, rest) =>
      match skipSpace rest with
      | ']' :: after => .ok (.list (v :: acc).reverse, after)
      | ',' :: more => itemsAt fuel (skipSpace more) (v :: acc)
      | other => stopAt .comma other

def entriesAt : Nat → List Char → List (String × Value) → Except Stop (Value × List Char)
  | 0, s, _ => stopAt .propertyName s
  | fuel + 1, s, acc =>
    match s with
    | '"' :: body =>
      match string body with
      | .error stop => .error stop
      | .ok (key, rest) =>
        match skipSpace rest with
        | ':' :: more =>
          match valueAt fuel (skipSpace more) with
          | .error stop => .error stop
          | .ok (v, tail) =>
            match skipSpace tail with
            | '\x7d' :: after => .ok (.record (Entries.ofList ((key, v) :: acc).reverse), after)
            | ',' :: next => entriesAt fuel (skipSpace next) ((key, v) :: acc)
            | other => stopAt .comma other
        | other => stopAt .colon other
    | other => stopAt .propertyName other

end

def read (s : List Char) : Except Fault Value :=
  let outcome : Except Stop Value :=
    if s.head? == some '\uFEFF' then stopAt .byteOrderMark s
    else
      match valueAt (s.length + 1) (skipSpace s) with
      | .error stop => .error stop
      | .ok (v, rest) =>
        match skipSpace rest with
        | [] => .ok v
        | other => stopAt .extraData other
  outcome.mapError (Fault.at s)

/-! ## Writing -/

/-- One unit of sixteen bits, escaped. -/
def escapeUnit (n : Nat) : List Char :=
  '\\' :: 'u' :: Text.hex 4 n

/-- A character inside quotes; outside printable ASCII it is escaped in units of sixteen bits. -/
def escape (c : Char) : List Char :=
  match c with
  | '"' => ['\\', '"']
  | '\\' => ['\\', '\\']
  | '\n' => ['\\', 'n']
  | '\r' => ['\\', 'r']
  | '\t' => ['\\', 't']
  | '\x08' => ['\\', 'b']
  | '\x0c' => ['\\', 'f']
  | _ =>
    let n := c.toNat
    if 32 ≤ n && n < 127 then [c]
    else if n < 0x10000 then escapeUnit n
    else escapeUnit (0xD800 + (n - 0x10000) / 1024) ++ escapeUnit (0xDC00 + (n - 0x10000) % 1024)

def quoted (s : String) : String :=
  String.ofList ('"' :: s.toList.flatMap escape ++ ['"'])

/-- A double: its shortest digits, or a word if it is not finite. -/
def floatText (x : Float) : String :=
  match Decimal.Parts.ofFloat x with
  | .notANumber => "NaN"
  | .infinite negative => if negative then "-Infinity" else "Infinity"
  | .finite .. => Decimal.floatText x

/-- The text between two items: in one line, or on a new line indented by two columns a level. -/
def separator (indented : Bool) (level : Nat) : String :=
  if indented then "\n" ++ String.ofList (List.replicate (2 * level) ' ') else ""

mutual

/-- A value as JSON; `level` counts the lists and records around it. -/
def write (indented : Bool) (level : Nat) : Value → String
  | .null => "null"
  | .bool b => if b then "true" else "false"
  | .int n => Decimal.intText n
  | .float x => floatText x
  | .text s => quoted s
  | .list [] => "[]"
  | .list (v :: vs) =>
    "[" ++ separator indented (level + 1) ++ write indented (level + 1) v ++
      writeItems indented (level + 1) vs ++ separator indented level ++ "]"
  | .record [] => "\x7b\x7d"
  | .record ((k, v) :: es) =>
    "\x7b" ++ separator indented (level + 1) ++ quoted k ++ ": " ++ write indented (level + 1) v ++
      writeEntries indented (level + 1) es ++ separator indented level ++ "\x7d"

def writeItems (indented : Bool) (level : Nat) : List Value → String
  | [] => ""
  | v :: vs =>
    (if indented then "," else ", ") ++ separator indented level ++ write indented level v ++
      writeItems indented level vs

def writeEntries (indented : Bool) (level : Nat) : List (String × Value) → String
  | [] => ""
  | (k, v) :: es =>
    (if indented then "," else ", ") ++ separator indented level ++ quoted k ++ ": " ++
      write indented level v ++ writeEntries indented level es

end

end Forecast.Json

import Forecast.Checked.Integer
import Forecast.Fault

/-!
# Checked reading

Schemas and templates are read from values of unknown shape. A `Checked` result
is what was read, or all issues that were found; reading two parts gathers the
issues of both.
-/

namespace Forecast

/-- What was read, or the issues that were found. -/
structure Checked (α : Type) where
  outcome : Except (List Issue) α

namespace Checked

variable {α β : Type}

instance : Applicative Checked where
  pure a := ⟨.ok a⟩
  seq f x :=
    match f.outcome, (x ()).outcome with
    | .ok g, .ok a => ⟨.ok (g a)⟩
    | .ok _, .error js => ⟨.error js⟩
    | .error is, .ok _ => ⟨.error is⟩
    | .error is, .error js => ⟨.error (is ++ js)⟩

def issues (c : Checked α) : List Issue :=
  match c.outcome with
  | .ok _ => []
  | .error is => is

def fail (place : List String) (kind : IssueKind) : Checked α :=
  ⟨.error [⟨place, kind⟩]⟩

abbrev Reader (α : Type) := List String → Value → Checked α

/-! ## Simple values -/

def text : Reader String
  | _, .text s => pure s
  | place, _ => fail place .notString

/-- The words for flags, in any case of letters. -/
def flagWord? (s : String) : Option Bool :=
  let word := s.map Char.toLower
  if ["1", "on", "t", "true", "y", "yes"].contains word then some true
  else if ["0", "off", "f", "false", "n", "no"].contains word then some false
  else none

def isWord (n : Int) : Bool :=
  -(Nat.pow 2 63 : Int) ≤ n && n < Nat.pow 2 63

/-- Zero and one as flags. -/
def flagNumber (place : List String) (n : Int) : Checked Bool :=
  if !isWord n then fail place .notBool
  else if n = 0 then pure false
  else if n = 1 then pure true
  else fail place .wrongBool

def integral? (x : Float) : Option Int :=
  match floorFloat x with
  | .ok n =>
    match floatOfInt n with
    | .ok y => if y == x then some n else none
    | .error _ => none
  | .error _ => none

/-- Whether a double lies strictly between the bounds of signed words. -/
def isWithinWords (x : Float) : Bool :=
  x.abs < 9223372036854775808.0

def flag : Reader Bool
  | _, .bool b => pure b
  | place, .text s =>
    match flagWord? s with
    | some b => pure b
    | none => fail place .wrongBool
  | place, .int n => flagNumber place n
  | place, .float x =>
    match integral? x with
    | some n => if isWithinWords x then flagNumber place n else fail place .notBool
    | none => fail place .notBool
  | place, _ => fail place .notBool

def integerOfFloat (place : List String) (x : Float) : Checked Int :=
  if !x.isFinite then fail place .notFinite
  else
    match integral? x with
    | some n => if isWithinWords x then pure n else fail place .longInt
    | none => fail place .fractionalInt

def integer : Reader Int
  | _, .int n => pure n
  | _, .bool b => pure (if b then 1 else 0)
  | place, .text s =>
    match integerOfText s.toList with
    | .value n => pure n
    | .tooLong _ => fail place .longInt
    | .malformed => fail place .wrongInt
  | place, .float x => integerOfFloat place x
  | place, _ => fail place .wrongIntType

/-- One of the texts in a table, as what it stands for. -/
def oneOf (choices : List (String × α)) : Reader α
  | place, .text s =>
    match choices.lookup s with
    | some a => pure a
    | none => fail place .notAllowed
  | place, _ => fail place .notAllowed

def optional (read : Reader α) : Reader (Option α)
  | _, .null => pure none
  | place, v => some <$> read place v

/-! ## Lists and records -/

def items (read : Reader α) (place : List String) (position : Nat) : List Value → Checked (List α)
  | [] => pure []
  | v :: vs =>
    List.cons <$> read (place ++ [Decimal.intText position]) v <*> items read place
      (position + 1) vs

def list (read : Reader α) : Reader (List α)
  | place, .list vs => items read place 0 vs
  | place, _ => fail place .notList

def entries (read : Reader α) (place : List String) : List (String × Value) → Checked (Entries α)
  | [] => pure []
  | (k, v) :: es =>
    (fun a rest => (k, a) :: rest) <$> read (place ++ [k]) v <*> entries read place es

def table (read : Reader α) : Reader (Entries α)
  | place, .record es => entries read place es
  | place, _ => fail place .notRecord

def object (read : List String → List (String × Value) → Checked α) : Reader α
  | place, .record es => read place es
  | place, _ => fail place .notModel

/-- The value of a field that has one name or several; the first name is the one reported. -/
def find? (names : List String) (es : List (String × Value)) : Option Value :=
  names.findSome? fun n => es.lookup n

def required (place : List String) (es : List (String × Value)) (name : String) (read : Reader α) :
    Checked α :=
  match es.lookup name with
  | some v => read (place ++ [name]) v
  | none => fail (place ++ [name]) .missing

def withDefault (place : List String) (es : List (String × Value)) (name : String)
    (otherNames : List String) (default : α) (read : Reader α) : Checked α :=
  match find? (name :: otherNames) es with
  | some v => read (place ++ [name]) v
  | none => pure default

/-- The result, or a fault with all issues; an integer that is too large for a comparison is a fault
of its own. -/
def toExcept (c : Checked α) : Except Fault α :=
  c.outcome.mapError fun is =>
    if is.any fun i => i.kind == .hugeInt then Fault.number .outOfRange else Fault.schema is

end Checked
end Forecast

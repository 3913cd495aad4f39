import Forecast.Decimal.Rounded
import Forecast.Table
import Forecast.Value.Json

/-!
# Formats of tables

A table is written as comma-separated lines, as JSON with one record per row, or
in aligned columns. Comma-separated fields stand between quotes only where they
have to, with inner quotes doubled; an amount that is not a number is left empty
there and is nothing in JSON, where amounts are rounded.
-/

namespace Forecast.Table

/-! ## Comma-separated lines -/

/-- A character that forces quotes around a field. -/
def needsQuotes (c : Char) : Bool :=
  c == ',' || c == '"' || c == '\n'

/-- The characters of a field with every quote doubled. -/
def doubleQuotes : List Char → List Char
  | [] => []
  | c :: rest => if c = '"' then '"' :: '"' :: doubleQuotes rest else c :: doubleQuotes rest

/-- A field of a line. -/
def csvField (s : String) : String :=
  if s.toList.any needsQuotes then String.ofList ('"' :: doubleQuotes s.toList ++ ['"']) else s

def csvAmount (x : Float) : String :=
  if x.isNaN then "" else Decimal.floatText x

def csvCell : TableCell → String
  | .text s => csvField s
  | .amount x => csvAmount x

def csvLine (fields : List String) : String :=
  ",".intercalate fields ++ "\n"

def csv (t : Table) : String :=
  csvLine ((t.rowTitle :: t.columns).map csvField) ++
    String.join (t.rows.map fun (key, cells) => csvLine (csvField key :: cells.map csvCell))

/-! ## JSON -/

def jsonCell : TableCell → Value
  | .text s => .text s
  | .amount x =>
    match Decimal.exported? x with
    | some y => .float y
    | none => .null

def records (t : Table) : Value :=
  .record (t.rows.mapValues fun cells => .record (t.columns.zip (cells.map jsonCell)))

def json (t : Table) : String :=
  Json.write true 0 t.records ++ "\n"

/-! ## Aligned columns -/

def plainCell : TableCell → String
  | .text s => s
  | .amount x => if x.isNaN then "NaN" else Decimal.floatText x

/-- A text filled with spaces from the left. -/
def alignRight (width : Nat) (s : String) : String :=
  String.ofList (List.replicate (width - s.length) ' ') ++ s

/-- A text filled with spaces from the right. -/
def alignLeft (width : Nat) (s : String) : String :=
  s ++ String.ofList (List.replicate (width - s.length) ' ')

def widest (texts : List String) : Nat :=
  texts.foldl (fun w s => max w s.length) 0

/-- Columns of texts of one length each, side by side. -/
def sideBySide (lines : List String) (columns : List (List String)) : List String :=
  columns.foldl
    (fun lines column =>
      List.zipWith (fun l s => l ++ "  " ++ alignRight (widest column) s) lines column)
    lines

/-- The texts of the column at a position, below its heading. -/
def plainColumn (t : Table) (heading : String) (position : Nat) : List String :=
  heading :: t.rows.map fun (_, cells) => (cells[position]?.map plainCell).getD ""

def plain (t : Table) : String :=
  let names := t.rowTitle :: t.rows.keys
  let columns := t.columns.zipIdx.map fun (heading, i) => t.plainColumn heading i
  "\n".intercalate (sideBySide (names.map (alignLeft (widest names))) columns) ++ "\n"

inductive Format
  | plain
  | csv
  | json
deriving DecidableEq

def write (t : Table) : Format → String
  | .plain => t.plain
  | .csv => t.csv
  | .json => t.json

theorem csvField_of_plain {s : String} (h : s.toList.any needsQuotes = false) : csvField s = s := by
  simp [csvField, h]

end Forecast.Table

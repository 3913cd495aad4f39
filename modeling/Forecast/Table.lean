import Forecast.Horizon
import Forecast.Statement

/-!
# Tables

What a run has computed is handed over as a table: one row for each series, one
column for each period, and columns of text in front of them. The store of a
run has its keys in front; statements have the codes and labels of their items.
-/

namespace Forecast

/-- What stands at one place of a table. -/
inductive TableCell
  | text (s : String)
  | amount (x : Float)

/-- A table whose rows are named. -/
structure Table where
  /-- What the names of the rows are called. -/
  rowTitle : String
  columns : List String
  rows : Entries (List TableCell)

namespace Table

def headings (periods : Nat) (start : Option Date) (letter : String) :
    Except DateFault (List String) :=
  (periodLabels periods start letter).map fun labels => labels.map PeriodLabel.heading

def cells (xs : Series Float) : List TableCell :=
  xs.map .amount

def ofStore (store : Store) (h : Horizon) : Except DateFault Table := do
  let columns ← headings h.months h.start "M"
  return { rowTitle := "key", columns, rows := store.mapValues cells }

/-- The label of a line item, or its code if it has none. -/
def itemLabel (t : Template) (code : String) : String :=
  match (t.byCode.lookup code).bind (·.label) with
  | some label => if label.isEmpty then code else label
  | none => code

/-- Financial statements; the columns of months bear dates if the start is known. -/
def ofFinancials (f : Financials Float) (start : Option Date) : Except DateFault Table := do
  let periods ←
    match f.frequency with
    | .monthly => headings f.periods start "M"
    | .annual => headings f.periods none "Y"
  return {
    rowTitle := "code"
    columns := "label" :: periods
    rows := f.lines.map fun (code, xs) => (code, .text (itemLabel f.template code) :: cells xs) }

theorem length_of_headings {periods : Nat} {start : Option Date} {letter : String}
    {names : List String} (h : headings periods start letter = .ok names) :
    names.length = periods := by
  simp only [headings, Except.map] at h
  split at h
  · cases h
  · next labels hl =>
    cases h
    simpa using length_of_periodLabels hl

theorem keys_of_ofStore {store : Store} {h : Horizon} {t : Table} (ht : ofStore store h = .ok t) :
    t.rows.keys = store.keys := by
  simp only [ofStore, bind, Except.bind] at ht
  split at ht
  · cases ht
  · cases ht
    simp

theorem length_columns_of_ofStore {store : Store} {h : Horizon} {t : Table}
    (ht : ofStore store h = .ok t) : t.columns.length = h.months := by
  simp only [ofStore, bind, Except.bind] at ht
  split at ht
  · cases ht
  · next columns hc =>
    cases ht
    exact length_of_headings hc

end Table
end Forecast

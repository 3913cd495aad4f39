import Forecast.Run
import Forecast.Schema.Standard
import Forecast.Statement.Formula
import Forecast.Template.Standard
import Forecast.Text.Title

/-!
# Financial statements

The channels of a run are added to the line items that their types name as
destinations; what has been added to an item is recorded as its contributors.
Then the statements are computed in order, in each of them deeper items first.
-/

namespace Forecast

structure ChannelSeries (α : Type) where
  /-- The type of the object. -/
  kind : String
  output : String
  channel : String
  amounts : Series α

/-- A channel that has been added to a line item. -/
structure Contributor (α : Type) where
  kind : String
  output : String
  channel : String
  label : String
  amounts : Series α

inductive Frequency
  | monthly
  | annual
deriving DecidableEq

/-- The line items of all statements over some periods. -/
structure Financials (α : Type) where
  lines : Lines α
  contributors : Entries (List (Contributor α))
  periods : Nat
  frequency : Frequency
  template : Template

/-- The channels of a run, by output. -/
def Outcome.channelSeries (o : Outcome) : List (ChannelSeries Float) :=
  o.results.channels.flatMap fun (output, channels) =>
    channels.map fun channel =>
      { kind := ((o.plan.symbols.outputs.lookup output).map (·.definition.kind)).getD ""
        output
        channel
        amounts := (o.results.store.lookup (storeKey output channel)).getD [] }

namespace Financials

variable {α : Type} [Amount α]

/-- Line items while channels are added to them. -/
structure Collected (α : Type) where
  lines : Lines α
  contributors : Entries (List (Contributor α))

def addTo (template : Template) (label : String) (s : ChannelSeries α) (c : Collected α)
    (destination : String) : Logged (Collected α) := do
  match c.lines.lookup destination with
  | none => do
    Logged.note (.unknownDestination destination s.output s.channel s.kind template.name)
    return c
  | some total =>
    let sum ← (do return ← total.add s.amounts : Except Fault (Series α))
    let contributor : Contributor α := ⟨s.kind, s.output, s.channel, label, s.amounts⟩
    let earlier := (c.contributors.lookup destination).getD []
    return ⟨c.lines.put destination sum, c.contributors.put destination (earlier ++ [contributor])⟩

def channelOf (schema : Schema) (s : ChannelSeries α) : Option Channel :=
  (schema.lookup s.kind).bind fun t => t.channels.lookup s.channel

def labelOf (c : Channel) (s : ChannelSeries α) : String :=
  let name :=
    match c.label with
    | some label => if label.isEmpty then s.channel else label
    | none => s.channel
  Text.title s.output ++ " - " ++ name

def collect (schema : Schema) (template : Template) (c : Collected α) (s : ChannelSeries α) :
    Logged (Collected α) :=
  match channelOf schema s with
  | none => return c
  | some channel =>
    channel.destinations.foldlM (addTo template (labelOf channel s) s) c

/-- All line items at zero. -/
def blank (template : Template) (months : Nat) : Lines α :=
  Entries.ofList (template.items.map fun i => (i.code, Series.zeros months))

def compute (template : Template) (months : Nat) (lines : Lines α) : Lines α × List Notice :=
  let items := template.byCode
  (template.statements.flatMap fun s => Lines.evaluationOrder s.2.items).foldl
    (Lines.step items months) (lines, [])

/-- The financial statements of the channels of a run. -/
def build (channels : List (ChannelSeries α)) (months : Nat) (schema : Schema)
    (template : Template) :
    Logged (Financials α) := do
  let collected ← channels.foldlM (collect schema template) ⟨blank template months, []⟩
  let (lines, notices) := compute template months collected.lines
  notices.forM Logged.note
  return {
    lines
    contributors := collected.contributors
    periods := months
    frequency := .monthly
    template }

/-! ## Years -/

/-- The sum of up to twelve amounts. Up to seven are added from left to right; of eight or more,
the first eight are added in pairs and the others to that. -/
def blockSum : Series α → α
  | a :: b :: c :: d :: e :: f :: g :: h :: rest =>
    rest.foldl (· + ·) (((a + b) + (c + d)) + ((e + f) + (g + h))) + 0
  | [] => 0
  | x :: xs => xs.foldl (· + ·) x + 0

/-- The months of a year; the last one may have fewer than twelve. -/
def monthsOf (xs : Series α) (year : Nat) : Series α :=
  (xs.drop (12 * year)).take 12

/-- The sums of the years. -/
def annualSeries (years : Nat) (xs : Series α) : Series α :=
  (List.range years).map fun year => blockSum (monthsOf xs year)

/-- The statements with the months of each year added up. -/
def annual (f : Financials α) : Financials α :=
  let years := Horizon.yearsFor f.periods
  { f with
    lines := f.lines.mapValues (annualSeries years)
    periods := years
    frequency := .annual }

end Financials
end Forecast

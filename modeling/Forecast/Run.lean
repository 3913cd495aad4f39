import Forecast.Assumption.Book
import Forecast.Horizon
import Forecast.Linking
import Forecast.Model.Source
import Forecast.Order
import Forecast.Run.Channels
import Forecast.Run.Inputs
import Forecast.Run.Override

/-!
# Runs

A run computes the outputs of a model in their order of dependency: the inputs
of an output are read from the store, its function answers channels, and these
are stored after the user's overrides. Finally every object gets, for each
channel, the sum over its outputs, unless an output of that name has stored it.
-/

namespace Forecast

/-- A model that is linked and ordered. -/
structure Plan where
  model : Model
  symbols : Symbols
  order : Order

/-- The plan of a model that has been read. -/
def Plan.ofModel (m : Model) : Except Fault Plan := do
  let symbols ← Symbols.ofModel m
  let linked ← m.link symbols
  let order ← Order.ofModel linked symbols
  return ⟨linked, symbols, order⟩

def Plan.ofSource (source : String) : Except Fault Plan := do
  let m ← Model.ofSource source
  Plan.ofModel m

/-- What a run depends on besides the model. -/
structure Conditions where
  schema : Schema
  months : Nat
  assumptions : Assumptions
  overrides : Overrides
  registry : Registry

/-- What a run has computed. -/
structure Results where
  store : Store
  /-- The names that the function of each output has answered. -/
  answered : Entries (List String)
  /-- The channels that each output has stored. -/
  channels : Entries (List String)

namespace Run

def start : Results where
  store := []
  answered := []
  channels := []

/-- The type of an object, which must have channels. -/
def typeOf (schema : Schema) (output : String) (d : Definition) : Except RunFault ObjectType :=
  match schema.lookup d.kind with
  | some t => if t.channels.isEmpty then .error (.noChannels output d.kind d.name) else .ok t
  | none => .error (.noChannels output d.kind d.name)

def functionOf (registry : Registry) (t : ObjectType) (output : String) (d : Definition) :
    Except RunFault (Task Float → Except Fault Reply) :=
  match registry.lookup (t.functionName d.kind) with
  | some f => .ok f
  | none => .error (.unknownFunction output (t.functionName d.kind) d.kind)

def feedOf (s : Symbols) (d : Definition) (output : String) : Except LinkFault (List Nat) := do
  let outputs := s.outputsOf d.name
  let positions ← d.feeds outputs.length
  return ((outputs.zip positions).lookup output).getD []

/-- The inputs of an output of an object. -/
def gather (s : Symbols) (d : Definition) (months : Nat) (store : Store) (output : String) :
    Except Fault (List (Series Float)) := do
  let feed ← feedOf s d output
  store.inputs s d output months (feed.map Int.ofNat)

/-- What the function of an output answers to its inputs, and the channels of it that the output
stores. -/
def answer (c : Conditions) (d : Definition) (output : String) (inputs : List (Series Float)) :
    Except Fault (List String × Entries (Series Float)) := do
  let t ← typeOf c.schema output d
  let function ← functionOf c.registry t output d
  let task : Task Float := ⟨c.months, inputs, c.assumptions.settings d.name output, output⟩
  match ← function task with
  | .other => throw (.run (.notChannels output (t.functionName d.kind)))
  | .channels cells _ =>
    let channels ← selectChannels cells t.channels.keys output d.name d.kind c.months
    return (cells.keys, channels)

/-- The names that the function of an output answers, and the channels that the output stores. -/
def compute (m : Model) (s : Symbols) (c : Conditions) (store : Store) (output : String) :
    Except Fault (List String × Entries (Series Float)) := do
  let object := (s.ownerOf? output).getD output
  match m.find? object with
  | none => throw (.run (.undefinedObject output object))
  | some d =>
    let inputs ← gather s d c.months store output
    answer c d output inputs

/-- Stores one channel of an output. -/
def storeChannel (overrides : Overrides) (output : String) (store : Store)
    (channel : String × Series Float) : Logged Store := do
  let xs ← overrides.apply output channel.1 channel.2
  return store.put (storeKey output channel.1) xs

def step (m : Model) (s : Symbols) (c : Conditions) (r : Results) (output : String) :
    Logged Results := do
  let (answered, channels) ← compute m s c r.store output
  let store ← channels.foldlM (storeChannel c.overrides output) r.store
  return ⟨store, r.answered.put output answered, r.channels.put output (channels.map (·.1))⟩

/-- Adds a channel of one output to the totals of its object. -/
def addTotal (store : Store) (months : Nat) (output : String) (totals : Store) (channel : String) :
    Except LengthFault Store := do
  let total := (totals.lookup channel).getD (Series.zeros months)
  let sum ← total.add ((store.lookup (storeKey output channel)).getD [])
  return totals.put channel sum

/-- The totals of an object by channel. -/
def totals (r : Results) (months : Nat) (outputs : List String) : Except LengthFault Store :=
  outputs.foldlM
    (fun totals output =>
      ((r.channels.lookup output).getD []).foldlM (addTotal r.store months output) totals)
    []

/-- Stores the totals of an object under keys that are not taken. -/
def rollUp (r : Results) (months : Nat) (store : Store) (object : String × List String) :
    Except LengthFault Store := do
  let sums ← totals { r with store } months object.2
  return store.addMissing (sums.map fun e => (storeKey object.1 e.1, e.2))

/-- Runs a linked model whose order is known. -/
def execute (p : Plan) (c : Conditions) : Logged Results := do
  let r ← p.order.order.foldlM (step p.model p.symbols c) start
  let rolled : Except LengthFault Store :=
    p.symbols.outputsByObject.foldlM (rollUp r c.months) r.store
  let store ← (rolled : Except Fault Store)
  return { r with store }

end Run

/-- A plan, the assumptions it was run with, and the results. -/
structure Outcome where
  plan : Plan
  assumptions : Assumptions
  results : Results

/-- Runs a model that is linked and ordered; assumptions that are not given are built. -/
def Plan.run (p : Plan) (schema : Schema) (months : Nat) (given : Option Assumptions)
    (overrides : Overrides) (registry : Registry) : Logged Outcome := do
  let assumptions ←
    match given with
    | some a => pure a
    | none => Assumptions.ofModel p.model p.symbols schema months
  let results ← Run.execute p ⟨schema, months, assumptions, overrides, registry⟩
  return ⟨p, assumptions, results⟩

def runSource (source : String) (schema : Schema) (months : Nat) (given : Option Assumptions)
    (overrides : Overrides) (registry : Registry) : Logged Outcome := do
  let p ← Plan.ofSource source
  p.run schema months given overrides registry

end Forecast

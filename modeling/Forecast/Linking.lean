import Forecast.FanIn
import Forecast.Symbols

/-!
# Linking

Linking replaces every spread by references to the outputs of its object and
checks that each reference names an object or an output and that the arguments
of each object can be assigned to its outputs. An object may be referred to
before its definition.
-/

namespace Forecast

def Symbols.expand (s : Symbols) (d : Definition) : Argument → Except LinkFault (List Argument)
  | .spread object field _ =>
    match s.objects.lookup object with
    | none => .error (.unknownSpread object d.line d.name)
    | some target =>
      if target.outputs.isEmpty then .error (.emptySpread object field d.line)
      else
        .ok (target.outputs.map fun output =>
          .reference output field (output ++ "." ++ field) (some object))
  | .reference name field raw spreadOf =>
    if s.has name then .ok [.reference name field raw spreadOf]
    else
      let shown := if raw.isEmpty then name ++ "." ++ field else raw
      .error (.unknownReference shown d.line d.name)
  | .number value raw => .ok [.number value raw]
  | .word text => .ok [.word text]

/-- A definition with its spreads expanded, if its arguments can be assigned to its outputs. -/
def Symbols.linkDefinition (s : Symbols) (d : Definition) : Except LinkFault Definition := do
  let expanded ← d.arguments.mapM (s.expand d)
  let linked := { d with arguments := expanded.flatten }
  let _ ← linked.feeds (s.outputsOf d.name).length
  return linked

/-- The model with all its definitions linked. A section holds the definitions that bear its
name. -/
def Model.link (m : Model) (s : Symbols) : Except LinkFault Model := do
  let linked ← m.definitions.mapM s.linkDefinition
  return {
    sections := m.sections.map fun section_ =>
      { section_ with definitions := linked.filter fun d => d.sectionName == section_.name }
    definitions := linked
    metadata := m.metadata }

end Forecast

import Forecast.Assumption.Monthly
import Forecast.Model
import Forecast.Notice
import Forecast.Settings
import Forecast.Symbols

/-!
# Assumptions of a model

Every object has assumptions of its own and assumptions for each of its
outputs, as its type demands. They start from the defaults of the schema; those
of an output also from the values written next to it in the model. Values that
do not fit are left out with a notice.
-/

namespace Forecast

/-- An assumption: what the schema says, what the user says, and what follows for each month. -/
structure Assumption where
  spec : FieldSpec
  raw : Raw
  value : FieldValue

/-- The assumptions of an object and of its outputs. -/
structure ObjectAssumptions where
  object : Entries Assumption
  outputs : Entries (Entries Assumption)

abbrev Assumptions := Entries ObjectAssumptions

namespace Assumption

/-- The assumption that follows from a raw one. -/
def of (spec : FieldSpec) (raw : Raw) (months : Nat) : Except Fault Assumption := do
  let value ← raw.value spec months
  return ⟨spec, raw, value⟩

def ofDefault (spec : FieldSpec) (months : Nat) : Except Fault Assumption :=
  of spec (Raw.ofSingle spec.default) months

def setting (a : Assumption) : Setting Float :=
  match a.value with
  | .flag b => .scalar (if b then 1.0 else 0.0)
  | .series xs => .series xs

end Assumption

namespace InlineValue

def toValue : InlineValue → Value
  | number x => .float x
  | text s => .text s

/-- The flag that a written value stands for. -/
def flag? : InlineValue → Option Bool
  | number x => if x == 0.0 then some false else if x == 1.0 then some true else none
  | text s =>
    let word := String.ofList ((Text.trim s.toList).map Char.toLower)
    if ["true", "yes", "1"].contains word then some true
    else if ["false", "no", "0"].contains word then some false
    else none

end InlineValue

namespace Assumptions

/-- The raw assumption that the schema and the values next to an output give, with a notice if the
written value does not fit. -/
def seed (spec : FieldSpec) (written : Entries InlineValue) (output : String) : List Notice × Raw :=
  let default := Raw.ofSingle spec.default
  match written.lookup spec.name, spec.baseType with
  | none, _ => ([], default)
  | some value, .boolean =>
    match value.flag? with
    | some b => ([], Raw.ofSingle (.bool b))
    | none => ([.rejectedFlag value.toValue output spec.name], default)
  | some (.text s), .number => ([.rejectedNumber (.text s) output spec.name], default)
  | some (.number x), .number => ([], Raw.ofSingle (.float x))

/-- The assumption of an output that a field of its type demands. -/
def seeded (written : Entries InlineValue) (output : String) (months : Nat) (spec : FieldSpec) :
    Logged (String × Assumption) := do
  let (notices, raw) := seed spec written output
  notices.forM Logged.note
  let a ← Assumption.of spec raw months
  return (spec.name, a)

def ofOutput (t : ObjectType) (d : Definition) (months : Nat) (output : String) :
    Logged (String × Entries Assumption) := do
  let written := (d.inline.lookup output).getD []
  let unknown := written.keys.filter fun k => !(t.outputFields.any fun spec => spec.name == k)
  unknown.forM fun k => Logged.note (.unknownInline k output d.kind)
  let fields ← t.outputFields.mapM (seeded written output months)
  return (output, Entries.ofList fields)

/-- The assumptions of an object; none for one whose type is not in the schema. -/
def ofDefinition (schema : Schema) (s : Symbols) (months : Nat) (d : Definition) :
    Logged (String × ObjectAssumptions) := do
  match schema.lookup d.kind with
  | none => return (d.name, ⟨[], []⟩)
  | some t =>
    let object ← t.objectFields.mapM fun spec => do
      let a ← Assumption.ofDefault spec months
      return (spec.name, a)
    let outputs ← ((s.outputsByObject.lookup d.name).getD [d.name]).mapM (ofOutput t d months)
    return (d.name, ⟨Entries.ofList object, Entries.ofList outputs⟩)

def ofModel (m : Model) (s : Symbols) (schema : Schema) (months : Nat) : Logged Assumptions := do
  let entries ← m.definitions.mapM (ofDefinition schema s months)
  return Entries.ofList entries

def settings (a : Assumptions) (object output : String) : Settings Float :=
  match a.lookup object with
  | none => ⟨[], []⟩
  | some o =>
    ⟨o.object.mapValues Assumption.setting,
      ((o.outputs.lookup output).getD []).mapValues Assumption.setting⟩

def recalculate (a : Assumptions) (months : Nat) : Except Fault Assumptions :=
  a.mapM fun (name, o) => do
    let again (group : Entries Assumption) : Except Fault (Entries Assumption) :=
      group.mapM fun (field, x) => do return (field, ← Assumption.of x.spec x.raw months)
    let object ← again o.object
    let outputs ← o.outputs.mapM fun (output, group) => do return (output, ← again group)
    return (name, ⟨object, outputs⟩)

end Assumptions
end Forecast

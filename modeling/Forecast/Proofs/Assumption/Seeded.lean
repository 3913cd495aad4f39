import Forecast.Proofs.Assumption.Book
import Forecast.Proofs.Linking

/-!
# What assumptions start from

The assumptions of a linked model stand in the order of its objects, those of an
object in the order of its outputs, and those of an output in the order of the
fields of its type. Each starts from a single value: what is written next to the
output if it fits the field, and else the default. Every key that no field bears
and every value that does not fit is noticed, output by output.
-/

namespace Forecast

open Outcome

/-- A text, trimmed and in small letters, is one of some words. -/
def IsWordOf (words : List String) (s : String) : Prop :=
  String.ofList ((Text.trim s.toList).map Char.toLower) ∈ words

namespace InlineValue

/-- A written value that is recognised as a flag. -/
inductive IsFlag : InlineValue → Bool → Prop
  | zero {x : Float} (h : x == 0.0) : IsFlag (.number x) false
  | one {x : Float} (h : x == 1.0) : IsFlag (.number x) true
  | no {s : String} (h : IsWordOf ["false", "no", "0"] s) : IsFlag (.text s) false
  | yes {s : String} (h : IsWordOf ["true", "yes", "1"] s) : IsFlag (.text s) true

/-- A written value fits a field that takes a value from it: a number for a number, or what is
recognised as a flag for a flag. -/
inductive Fits (spec : FieldSpec) : InlineValue → Value → Prop
  | number {x : Float} (h : spec.baseType = .number) : Fits spec (.number x) (.float x)
  | flag {w : InlineValue} {b : Bool} (h : spec.baseType = .boolean) (flag : w.IsFlag b) :
    Fits spec w (.bool b)

theorem ne_one_of_zero {x : Float} (zero : x == 0.0) : (x == 1.0) = false := by
  have isZero : x.toModel.unpack.beq (.zero .positive) = true := zero
  have notOne : x.toModel.unpack.beq (Float.toModel 1.0).unpack = false := by
    cases unpacked : x.toModel.unpack with
    | zero sign => rfl
    | notANumber => rfl
    | infinity sign => cases sign <;> rfl
    | finite sign mantissa exponent positive =>
      rw [unpacked] at isZero
      cases sign <;> cases isZero
  exact notOne

theorem flag?_eq_some {w : InlineValue} {b : Bool} : w.flag? = some b ↔ w.IsFlag b := by
  constructor
  · intro h
    cases w with
    | number x =>
      simp only [flag?] at h
      split at h
      · rename_i zero
        cases h
        exact .zero zero
      · obtain ⟨one, same⟩ := Option.ite_none_right_eq_some.1 h
        cases same
        exact .one one
    | text s =>
      simp only [flag?, List.contains_iff_mem] at h
      split at h
      · rename_i yes
        cases h
        exact .yes yes
      · obtain ⟨no, same⟩ := Option.ite_none_right_eq_some.1 h
        cases same
        exact .no no
  · rintro (zero | one | no | yes)
    · simp [flag?, zero]
    · rename_i x
      have notZero : ¬x == 0.0 := fun zero => by simp [ne_one_of_zero zero] at one
      simp [flag?, one, notZero]
    · have apart : ∀ word ∈ ["false", "no", "0"], word ∉ ["true", "yes", "1"] := by decide
      have notYes := apart _ no
      unfold IsWordOf at no
      simp only [flag?, List.contains_iff_mem, if_neg notYes, if_pos no]
    · unfold IsWordOf at yes
      simp only [flag?, List.contains_iff_mem, if_pos yes]

/-- The value that a field takes from a written one that fits it. -/
def fits? (spec : FieldSpec) (w : InlineValue) : Option Value :=
  match spec.baseType, w with
  | .number, .number x => some (.float x)
  | .number, .text _ => none
  | .boolean, w => w.flag?.map .bool

theorem fits?_eq_some {spec : FieldSpec} {w : InlineValue} {v : Value} :
    w.fits? spec = some v ↔ w.Fits spec v := by
  constructor
  · intro h
    unfold fits? at h
    split at h
    · rename_i base
      cases h
      exact .number base
    · cases h
    · rename_i base
      obtain ⟨b, flag, rfl⟩ := Option.map_eq_some_iff.1 h
      exact .flag base (flag?_eq_some.1 flag)
  · rintro (base | ⟨base, flag⟩)
    · simp [fits?, base]
    · simp [fits?, base, flag?_eq_some.2 flag]

theorem exists_fits_iff {spec : FieldSpec} {w : InlineValue} :
    (∃ v, w.Fits spec v) ↔ (w.fits? spec).isSome := by
  simp only [Option.isSome_iff_exists, fits?_eq_some]

instance (spec : FieldSpec) (w : InlineValue) : Decidable (∃ v, w.Fits spec v) :=
  decidable_of_iff' _ exists_fits_iff

/-- The notice that a value which does not fit a field is left out. -/
def rejection (spec : FieldSpec) (output : String) (w : InlineValue) : Notice :=
  match spec.baseType with
  | .boolean => .rejectedFlag w.toValue output spec.name
  | .number => .rejectedNumber w.toValue output spec.name

end InlineValue

/-! ## What is started from, and what is noticed -/

/-- The value that a field starts from: the one that is written if it fits, else the default. -/
inductive FieldSpec.StartsFrom (spec : FieldSpec) (written : Entries InlineValue) : Value → Prop
  | written {w : InlineValue} {v : Value} (h : written.lookup spec.name = some w)
    (fits : w.Fits spec v) : StartsFrom spec written v
  | default (h : ∀ w, written.lookup spec.name = some w → ∀ v, ¬w.Fits spec v) :
    StartsFrom spec written spec.default

def FieldSpec.rejected? (spec : FieldSpec) (written : Entries InlineValue) (output : String) :
    Option Notice :=
  (written.lookup spec.name).bind fun w =>
    if ∃ v, w.Fits spec v then none else some (w.rejection spec output)

def ObjectType.unknownKeys (t : ObjectType) (written : Entries InlineValue) : List String :=
  written.keys.filter fun key => key ∉ t.outputFields.map (·.name)

namespace Definition

def written (d : Definition) (output : String) : Entries InlineValue :=
  (d.inline.lookup output).getD []

/-- What is noticed about an output: first the keys that no field bears, then the fields whose value
does not fit. -/
def outputNotices (t : ObjectType) (d : Definition) (output : String) : List Notice :=
  (t.unknownKeys (d.written output)).map (.unknownInline · output d.kind) ++
    t.outputFields.filterMap fun spec => spec.rejected? (d.written output) output

def notices (schema : Schema) (d : Definition) : List Notice :=
  match schema.lookup d.kind with
  | none => []
  | some t => d.outputNames.flatMap (outputNotices t d)

end Definition

/-- An assumption stands under the name of its field, and is a single value from which its amounts
follow. -/
structure Assumption.IsSingle (months : Nat) (spec : FieldSpec) (v : Value)
    (e : String × Assumption) : Prop where
  name : e.1 = spec.name
  describes : e.2.spec = spec
  raw : e.2.raw = Raw.ofSingle v
  value : e.2.raw.value spec months = .ok e.2.value

/-- The assumptions of an output: one for each field, in order, which starts from what is written
next to the output if that fits, and else from the default. -/
structure OutputSeeded (months : Nat) (t : ObjectType) (d : Definition) (output : String)
    (e : String × Entries Assumption) : Prop where
  name : e.1 = output
  fields : List.Forall₂
    (fun spec x => ∃ v, spec.StartsFrom (d.written output) v ∧ Assumption.IsSingle months spec v x)
    t.outputFields e.2

/-- The assumptions of an object: its own, which start from the defaults, and those of its outputs,
in order; none if the type of the object is not known. -/
structure ObjectSeeded (months : Nat) (schema : Schema) (d : Definition)
    (e : String × ObjectAssumptions) : Prop where
  name : e.1 = d.name
  unknown : schema.lookup d.kind = none → e.2 = ⟨[], []⟩
  object : ∀ t, schema.lookup d.kind = some t →
    List.Forall₂ (fun spec x => Assumption.IsSingle months spec spec.default x) t.objectFields
      e.2.object
  outputs : ∀ t, schema.lookup d.kind = some t →
    List.Forall₂ (OutputSeeded months t d) d.outputNames e.2.outputs

def Schema.FieldsDistinct (schema : Schema) : Prop :=
  ∀ e ∈ schema, (e.2.objectFields.map (·.name)).Nodup ∧ (e.2.outputFields.map (·.name)).Nodup

namespace Logged

variable {α β : Type}

theorem notices_mapM {f : α → Logged β} {l : List α} {ys : List β}
    (h : (l.mapM f).outcome = .ok ys) : (l.mapM f).notices = l.flatMap fun a => (f a).notices := by
  induction l generalizing ys with
  | nil => rfl
  | cons a l ih =>
    rw [List.mapM_cons, outcome_bind, bind_eq_ok] at h
    obtain ⟨b, hb, h⟩ := h
    rw [outcome_bind, bind_eq_ok] at h
    obtain ⟨bs, hbs, -⟩ := h
    rw [List.mapM_cons, notices_bind_ok _ hb, notices_bind_ok _ hbs, ih hbs, List.flatMap_cons]
    simp

theorem notices_lift_map (x : Except Fault α) (f : α → β) :
    ((x : Logged α) >>= fun a => pure (f a)).notices = [] := by
  cases x <;> rfl

end Logged

namespace Assumptions

variable {months : Nat} {a : Assumptions} {source m : Model} {s : Symbols} {schema : Schema}
  {t : ObjectType} {d : Definition}

theorem seed_of_fits {spec : FieldSpec} {written : Entries InlineValue} {w : InlineValue}
    {v : Value}
    (found : written.lookup spec.name = some w) (fits : w.Fits spec v) (output : String) :
    seed spec written output = ([], Raw.ofSingle v) := by
  cases fits with
  | number base => simp only [seed, found, base]
  | flag base flag => simp only [seed, found, base, InlineValue.flag?_eq_some.2 flag]

theorem seed_of_misfit {spec : FieldSpec} {written : Entries InlineValue} {w : InlineValue}
    (found : written.lookup spec.name = some w) (misfit : ∀ v, ¬w.Fits spec v) (output : String) :
    seed spec written output = ([w.rejection spec output], Raw.ofSingle spec.default) := by
  cases base : spec.baseType with
  | number =>
    cases w with
    | number x => exact absurd (.number base) (misfit (.float x))
    | text s => simp only [seed, found, base, InlineValue.rejection, InlineValue.toValue]
  | boolean =>
    have unrecognised : w.flag? = none := by
      rw [Option.eq_none_iff_forall_ne_some]
      intro b flag
      exact misfit (.bool b) (.flag base (InlineValue.flag?_eq_some.1 flag))
    simp only [seed, found, base, unrecognised, InlineValue.rejection]

/-- A field is seeded with what it starts from, and with a notice if what is written does not
fit. -/
theorem seed_startsFrom (spec : FieldSpec) (written : Entries InlineValue) (output : String) :
    (seed spec written output).1 = (spec.rejected? written output).toList ∧
      ∃ v, spec.StartsFrom written v ∧ (seed spec written output).2 = Raw.ofSingle v := by
  unfold FieldSpec.rejected?
  cases found : written.lookup spec.name with
  | none =>
    refine ⟨by simp [seed, found], spec.default, .default ?_, by simp [seed, found]⟩
    simp [found]
  | some w =>
    rw [Option.bind_some]
    split
    · rename_i fits
      obtain ⟨v, fits⟩ := fits
      rw [seed_of_fits found fits]
      exact ⟨rfl, v, .written found fits, rfl⟩
    · rename_i misfit
      rw [not_exists] at misfit
      rw [seed_of_misfit found misfit]
      refine ⟨rfl, spec.default, .default ?_, rfl⟩
      intro w' found'
      rw [found] at found'
      cases found'
      exact misfit

/-! ## Notices -/

theorem notices_seeded (spec : FieldSpec) (written : Entries InlineValue) (output : String) :
    (seeded written output months spec).notices = (spec.rejected? written output).toList := by
  have noted := Logged.notices_forM id (seed spec written output).1
  rw [List.map_id] at noted
  rw [← (seed_startsFrom spec written output).1, seeded,
    Logged.notices_bind_ok _ (Logged.outcome_forM_note _), Logged.notices_lift_map, List.append_nil]
  exact noted

theorem notices_ofOutput {output : String} {g : String × Entries Assumption}
    (h : (ofOutput t d months output).outcome = .ok g) :
    (ofOutput t d months output).notices = d.outputNotices t output := by
  have unknown : ((d.written output).keys.filter fun k =>
      !(t.outputFields.any fun spec => spec.name == k)) = t.unknownKeys (d.written output) := by
    unfold ObjectType.unknownKeys
    congr 1
    funext key
    rw [Bool.eq_iff_iff]
    simp
  rw [outcome_ofOutput, bind_eq_ok] at h
  obtain ⟨fields, built, -⟩ := h
  rw [← Logged.outcome_mapM] at built
  rw [ofOutput, Logged.notices_bind_ok _ (Logged.outcome_forM ..), Logged.notices_forM,
    Logged.notices_bind_ok _ built, Logged.notices_pure, List.append_nil, Logged.notices_mapM built]
  simp only [notices_seeded, Definition.outputNotices, List.filterMap_eq_flatMap_toList]
  rw [← unknown]
  rfl

theorem notices_ofDefinition {e : String × ObjectAssumptions}
    (listed : (s.outputsByObject.lookup d.name).getD [d.name] = d.outputNames)
    (h : (ofDefinition schema s months d).outcome = .ok e) :
    (ofDefinition schema s months d).notices = d.notices schema := by
  cases known : schema.lookup d.kind with
  | none => simp only [ofDefinition, Definition.notices, known, Logged.notices_pure]
  | some t =>
    rw [outcome_ofDefinition known, bind_eq_ok] at h
    obtain ⟨object, builtObject, h⟩ := h
    rw [bind_eq_ok] at h
    obtain ⟨outputs, builtOutputs, -⟩ := h
    have object' : (t.objectFields.mapM fun spec =>
        ((Assumption.ofDefault spec months : Except Fault Assumption) : Logged Assumption) >>=
          fun x => pure (spec.name, x)).outcome = .ok object := by
      simp only [Logged.outcome_mapM, Logged.outcome_bind, Logged.outcome_lift, Logged.outcome_pure]
      exact builtObject
    rw [← Logged.outcome_mapM] at builtOutputs
    simp only [ofDefinition, Definition.notices, known]
    rw [Logged.notices_bind_ok _ object', Logged.notices_bind_ok _ builtOutputs,
      Logged.notices_mapM object', Logged.notices_mapM builtOutputs, listed]
    simp only [Logged.notices_lift_map, Logged.notices_pure, List.flatMap_eq_nil_iff.2,
      implies_true, List.nil_append, List.append_nil]
    apply List.flatMap_congr
    intro output mem
    obtain ⟨g, -, hg⟩ := exists_mem_of_mapM (Logged.outcome_mapM .. ▸ builtOutputs) (listed ▸ mem)
    exact notices_ofOutput hg

/-! ## Values -/

theorem keys_of_forall₂ {ι β : Type} {R : ι → String × β → Prop} {name : ι → String} {l : List ι}
    {entries : Entries β} (each : List.Forall₂ R l entries) (named : ∀ i e, R i e → e.1 = name i) :
    entries.keys = l.map name := by
  induction each with
  | nil => rfl
  | cons h _ ih =>
    rw [List.map_cons, ← ih, ← named _ _ h]
    rfl

theorem isSingle_of {spec : FieldSpec} {v : Value} {x : Assumption}
    (h : Assumption.of spec (Raw.ofSingle v) months = .ok x) :
    Assumption.IsSingle months spec v (spec.name, x) := by
  obtain ⟨described, raw, value⟩ := Assumption.of_ok h
  exact ⟨rfl, described, raw, raw ▸ value⟩

theorem outputSeeded_of_ofOutput (distinct : (t.outputFields.map (·.name)).Nodup) {output : String}
    {g : String × Entries Assumption} (h : (ofOutput t d months output).outcome = .ok g) :
    OutputSeeded months t d output g := by
  rw [outcome_ofOutput, bind_eq_ok] at h
  obtain ⟨fields, built, h⟩ := h
  cases h
  have each : List.Forall₂ (fun spec x => ∃ v, spec.StartsFrom (d.written output) v ∧
      Assumption.IsSingle months spec v x) t.outputFields fields := by
    refine (mapM_eq_ok.1 built).imp fun spec x hx => ?_
    rw [outcome_seeded, bind_eq_ok] at hx
    obtain ⟨y, hy, same⟩ := hx
    cases same
    obtain ⟨-, v, starts, single⟩ := seed_startsFrom spec (d.written output) output
    exact ⟨v, starts, isSingle_of (single ▸ hy)⟩
  have names : Entries.keys fields = t.outputFields.map (·.name) :=
    keys_of_forall₂ each fun _ _ ⟨_, _, single⟩ => single.name
  refine ⟨rfl, ?_⟩
  rwa [Entries.ofList_of_nodup (names ▸ distinct)]

theorem objectSeeded_of_ofDefinition (distinct : schema.FieldsDistinct)
    (outputs : d.outputNames.Nodup)
    (listed : (s.outputsByObject.lookup d.name).getD [d.name] = d.outputNames)
    {e : String × ObjectAssumptions} (h : (ofDefinition schema s months d).outcome = .ok e) :
    ObjectSeeded months schema d e := by
  cases known : schema.lookup d.kind with
  | none =>
    simp only [ofDefinition, known, Logged.outcome_pure] at h
    cases h
    refine ⟨rfl, fun _ => rfl, ?_, ?_⟩ <;> simp [known]
  | some t =>
    obtain ⟨objectDistinct, outputDistinct⟩ := distinct _ (Entries.mem_of_lookup known)
    simp only [outcome_ofDefinition known, listed, bind_eq_ok] at h
    obtain ⟨fields, builtFields, groups, builtGroups, h⟩ := h
    cases h
    have eachField : List.Forall₂ (fun spec x => Assumption.IsSingle months spec spec.default x)
        t.objectFields fields := by
      refine (mapM_eq_ok.1 builtFields).imp fun spec x hx => ?_
      obtain ⟨y, hy, same⟩ := bind_eq_ok.1 hx
      cases same
      exact isSingle_of hy
    have eachGroup : List.Forall₂ (OutputSeeded months t d) d.outputNames groups :=
      (mapM_eq_ok.1 builtGroups).imp fun output g => outputSeeded_of_ofOutput outputDistinct
    have fieldNames : Entries.keys fields = t.objectFields.map (·.name) :=
      keys_of_forall₂ eachField fun _ _ single => single.name
    have outputNames : Entries.keys groups = d.outputNames.map id :=
      keys_of_forall₂ eachGroup fun _ _ seeded => seeded.name
    rw [List.map_id] at outputNames
    rw [Entries.ofList_of_nodup (fieldNames ▸ objectDistinct),
      Entries.ofList_of_nodup (outputNames ▸ outputs)]
    refine ⟨rfl, by simp [known], ?_, ?_⟩
    · intro t' known'
      rw [known] at known'
      cases known'
      exact eachField
    · intro t' known'
      rw [known] at known'
      cases known'
      exact eachGroup

/-- The assumptions of a linked model are those of its objects, in order, each started from what is
written next to its output or from the default; and what is left out is noticed, output by
output. -/
theorem seeded_of_ofModel (index : Symbols.ofModel source = .ok s) (link : source.link s = .ok m)
    (distinct : schema.FieldsDistinct) (h : (ofModel m s schema months).outcome = .ok a) :
    List.Forall₂ (ObjectSeeded months schema) m.definitions a ∧
      (ofModel m s schema months).notices = m.definitions.flatMap (Definition.notices schema) := by
  have linked := linked_of_link index link
  have listed : ∀ d ∈ m.definitions,
      (s.outputsByObject.lookup d.name).getD [d.name] = d.outputNames := by
    intro d hd
    rw [linked.outputsByObject, Definition.lookup_of_mem linked.objects_nodup _ hd]
    rfl
  rw [outcome_ofModel, bind_eq_ok] at h
  obtain ⟨entries, built, h⟩ := h
  cases h
  have each : List.Forall₂ (ObjectSeeded months schema) m.definitions entries := by
    have members :=
      (List.forall₂_and_left _ _).2 ⟨fun d (hd : d ∈ m.definitions) => hd, mapM_eq_ok.1 built⟩
    refine members.imp fun d e ⟨hd, he⟩ => ?_
    exact objectSeeded_of_ofDefinition distinct (linked.nodup_outputNames hd) (listed d hd) he
  have names : Entries.keys entries = m.definitions.map (·.name) :=
    keys_of_forall₂ each fun _ _ seeded => seeded.name
  rw [Entries.ofList_of_nodup (names ▸ linked.objects_nodup)]
  refine ⟨each, ?_⟩
  rw [← Logged.outcome_mapM] at built
  rw [ofModel, Logged.notices_bind_ok _ built, Logged.notices_pure, List.append_nil,
    Logged.notices_mapM built]
  apply List.flatMap_congr
  intro d hd
  obtain ⟨e, -, he⟩ := exists_mem_of_mapM (Logged.outcome_mapM .. ▸ built) hd
  exact notices_ofDefinition (listed d hd) he

def stallSchema : Schema :=
  [("Stall", ⟨none, [],
    [⟨"fee", none, .number, none, .float 100, Supports.onlySingle⟩],
    [⟨"rent", none, .number, none, .float 10, Supports.onlySingle⟩,
      ⟨"open", none, .boolean, none, .bool true, Supports.onlySingle⟩]⟩)]

def stalls : Model :=
  let object (name kind : String) (outputs : List String)
      (inline : Entries (Entries InlineValue)) : Definition :=
    { name, kind, arguments := [], outputs, inline, sectionName := "S", comment := "", line := 2 }
  ⟨[], [object "Fair" "Stall" ["Toys", "Tea"]
      [("Toys", [("colour", .text "red"), ("rent", .text "cheap")]),
        ("Tea", [("open", .text " No ")])],
    object "Tent" "Canvas" [] [("Tent", [("rent", .number 7)])]], []⟩

theorem seeded_stalls :
    ∃ s m a, Symbols.ofModel stalls = .ok s ∧ stalls.link s = .ok m ∧ stallSchema.FieldsDistinct ∧
      (ofModel m s stallSchema 3).outcome = .ok a ∧
      (ofModel m s stallSchema 3).notices =
        [.unknownInline "colour" "Toys" "Stall", .rejectedNumber (.text "cheap") "Toys" "rent"] ∧
      List.Forall₂ (ObjectSeeded 3 stallSchema) m.definitions a ∧
      (ofModel m s stallSchema 3).notices =
        m.definitions.flatMap (Definition.notices stallSchema) := by
  have distinct : stallSchema.FieldsDistinct := by
    unfold Schema.FieldsDistinct
    decide
  obtain ⟨s, m, a, index, link, built, notices⟩ : ∃ s m a, Symbols.ofModel stalls = .ok s ∧
      stalls.link s = .ok m ∧ (ofModel m s stallSchema 3).outcome = .ok a ∧
      (ofModel m s stallSchema 3).notices =
        [.unknownInline "colour" "Toys" "Stall", .rejectedNumber (.text "cheap") "Toys" "rent"] :=
    ⟨_, _, _, rfl, rfl, rfl, rfl⟩
  exact ⟨s, m, a, index, link, distinct, built, notices,
    seeded_of_ofModel index link distinct built⟩

end Assumptions
end Forecast

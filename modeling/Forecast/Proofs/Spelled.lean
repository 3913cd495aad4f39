import Forecast.Proofs.Linking.Expanded
import Forecast.Proofs.Names

/-!
# Spreads spelled out

A spread stands for one reference to each output of its object. A model in which
these references are written out links if the model does, except that without a
spread there may be no more arguments than outputs; and it links to the same
definitions, but for the marks of where references come from.
-/

namespace Forecast

open Outcome

/-! ## Marks -/

/-- An argument without the mark of a spread that it comes from. -/
def Argument.unmarked : Argument → Argument
  | .reference name field raw _ => .reference name field raw none
  | .spread object field raw => .spread object field raw
  | .number value raw => .number value raw
  | .word text => .word text

/-- A definition whose references do not tell where they come from. -/
def Definition.unmarked (d : Definition) : Definition :=
  { d with arguments := d.arguments.map Argument.unmarked }

/-! ## Spelling out -/

namespace Model

/-- What is written instead of an argument: for a spread of an object that declares outputs, a
reference to each of them. -/
def spelled (m : Model) : Argument → List Argument
  | .spread object field raw =>
    match m.find? object with
    | some target =>
      if target.outputs.isEmpty then [.spread object field raw]
      else target.outputs.map fun output => .reference output field (output ++ "." ++ field) none
    | none => [.spread object field raw]
  | .reference name field raw spreadOf => [.reference name field raw spreadOf]
  | .number value raw => [.number value raw]
  | .word text => [.word text]

def spell (m : Model) (d : Definition) : Definition :=
  { d with arguments := d.arguments.flatMap m.spelled }

def spelledOut (m : Model) : Model where
  sections := m.sections.map fun s => { s with definitions := s.definitions.map m.spell }
  definitions := m.definitions.map m.spell
  metadata := m.metadata

/-- The names of a model have one meaning each, and its arguments can be linked. -/
def Links (m : Model) : Prop :=
  ∃ s l, Symbols.ofModel m = .ok s ∧ m.link s = .ok l

instance (m : Model) : Decidable m.Links :=
  decidable_of_iff ((Symbols.ofModel m).toOption.any fun s => (m.link s).toOption.isSome) (by
    unfold Links
    cases Symbols.ofModel m with
    | error fault => simp [Except.toOption]
    | ok s => cases linked : m.link s <;> simp [Except.toOption, linked])

/-- A definition with several outputs, and a spread that brings it more arguments than outputs. -/
structure Overflows (m : Model) (d : Definition) : Prop where
  hasSpread : d.hasSpread = true
  several : 1 < d.outputNames.length
  more : d.outputNames.length < (m.spell d).arguments.length

end Model

theorem Model.links_iff {m : Model} {s : Symbols} (index : Symbols.ofModel m = .ok s) :
    m.Links ↔ ∀ d ∈ m.definitions, ∃ l, s.linkDefinition d = .ok l := by
  rw [← exists_link_iff]
  constructor
  · rintro ⟨s', l, index', link⟩
    rw [index, Except.ok.injEq] at index'
    subst index'
    exact ⟨l, link⟩
  · rintro ⟨l, link⟩
    exact ⟨s, l, index, link⟩

/-! ## Models that were read -/

/-- Nothing that was read is marked as coming from a spread. -/
def Model.Fresh (m : Model) : Prop :=
  ∀ d ∈ m.definitions, ∀ a ∈ d.arguments, a.unmarked = a

theorem Argument.unmarked_of_ofToken {line : Nat} {token : List Char} {a : Argument}
    (h : ofToken line token = .ok a) : a.unmarked = a := by
  simp only [ofToken] at h
  split at h
  · split at h <;> cases h
    rfl
  · split at h
    · cases h
      rfl
    · split at h <;> cases h <;> rfl

theorem Model.fresh_of_ofSource {text : String} {m : Model} (read : Model.ofSource text = .ok m) :
    m.Fresh := by
  intro d hd a ha
  obtain ⟨sections, draft, defined⟩ := Model.exists_draft read hd
  unfold Progress.define at defined
  split at defined
  · cases defined
  · split at defined
    · cases defined
    · simp only [bind_eq_ok, pure_eq_ok] at defined
      obtain ⟨arguments, each, _, -, rfl⟩ := defined
      obtain ⟨token, -, denotes⟩ := exists_of_mem_mapM each ha
      exact Argument.unmarked_of_ofToken denotes

/-! ## Spelling out and linking -/

section

variable {m : Model} {s s' : Symbols} {d : Definition} {a : Argument}

@[simp] theorem Model.name_spell : (m.spell d).name = d.name := rfl

@[simp] theorem Model.outputs_spell : (m.spell d).outputs = d.outputs := rfl

@[simp] theorem Model.outputNames_spell : (m.spell d).outputNames = d.outputNames := rfl

theorem Symbols.distinct_spelledOut : Symbols.Distinct m.spelledOut ↔ Symbols.Distinct m := by
  constructor
  · rintro ⟨objects, outputs, shared⟩
    exact
      { objects := by simpa [Model.spelledOut, Function.comp_def] using objects
        outputs := by simpa [Model.spelledOut, List.flatMap_map] using outputs
        shared := fun d hd e he =>
          shared (m.spell d) (List.mem_map_of_mem hd) (m.spell e) (List.mem_map_of_mem he) }
  · rintro ⟨objects, outputs, shared⟩
    exact
      { objects := by simpa [Model.spelledOut, Function.comp_def] using objects
        outputs := by simpa [Model.spelledOut, List.flatMap_map] using outputs
        shared := List.forall_mem_map.2 fun d hd => List.forall_mem_map.2 fun e he =>
          shared d hd e he }

theorem Symbols.Lists.lookup_objects (lists : s.Lists m) (name : String) :
    s.objects.lookup name = m.find? name := by
  rw [lists.objects, Model.find?]
  induction m.definitions with
  | nil => rfl
  | cons d definitions ih =>
    rw [List.map_cons, List.lookup_cons, List.find?_cons, ih, BEq.comm]

end

/-- Tables that give the same names to the same objects. -/
structure Symbols.SameNames (s s' : Symbols) : Prop where
  objects : s'.objects.keys = s.objects.keys
  owners : s'.outputs.mapValues (·.definition.name) = s.outputs.mapValues (·.definition.name)
  outputsByObject : s'.outputsByObject = s.outputsByObject

namespace Symbols.SameNames

variable {s s' : Symbols} (same : s.SameNames s')
include same

theorem outputOrder : s'.outputOrder = s.outputOrder := by
  rw [Symbols.outputOrder, Symbols.outputOrder,
    ← Entries.keys_mapValues (·.definition.name) s'.outputs, same.owners, Entries.keys_mapValues]

theorem objects_has (name : String) : s'.objects.has name = s.objects.has name := by
  rw [Bool.eq_iff_iff, Entries.has_iff, Entries.has_iff, same.objects]

theorem outputs_has (name : String) : s'.outputs.has name = s.outputs.has name := by
  rw [Bool.eq_iff_iff, Entries.has_iff, Entries.has_iff]
  exact iff_of_eq (congrArg (name ∈ ·) same.outputOrder)

theorem has (name : String) : s'.has name = s.has name := by
  rw [Symbols.has, Symbols.has, same.objects_has, same.outputs_has]

theorem outputsOf (object : String) : s'.outputsOf object = s.outputsOf object := by
  rw [Symbols.outputsOf, Symbols.outputsOf, same.outputsByObject]

theorem ownerOf? (output : String) : s'.ownerOf? output = s.ownerOf? output := by
  have found := congrArg (List.lookup output) same.owners
  rwa [Entries.lookup_mapValues, Entries.lookup_mapValues] at found

end Symbols.SameNames

section

variable {m : Model} {s s' : Symbols} {d : Definition} {a : Argument}

theorem Symbols.Lists.sameNames (lists : s.Lists m) (lists' : s'.Lists m.spelledOut) :
    s.SameNames s' where
  objects := by
    rw [lists.keys_objects, lists'.keys_objects]
    simp [Model.spelledOut, Function.comp_def]
  owners := by
    rw [lists.outputs, lists'.outputs]
    simp [Model.spelledOut, Entries.mapValues, owned, List.map_flatMap, List.flatMap_map,
      Function.comp_def]
  outputsByObject := by
    rw [lists.outputsByObject, lists'.outputsByObject]
    simp [Model.spelledOut, Function.comp_def]

theorem Symbols.Lists.lookup_spelledOut (lists : s.Lists m) (lists' : s'.Lists m.spelledOut)
    (name : String) : s'.objects.lookup name = (s.objects.lookup name).map m.spell := by
  have objects : s'.objects = s.objects.mapValues m.spell := by
    rw [lists.objects, lists'.objects]
    simp [Model.spelledOut, Entries.mapValues, Function.comp_def]
  rw [objects, Entries.lookup_mapValues]

/-- What can be expanded is spelled out as it is expanded, without the marks. -/
theorem Model.spelled_eq (lists : s.Lists m) (fresh : a.unmarked = a) (expands : s.Expands a) :
    m.spelled a = (s.expansion a).map Argument.unmarked := by
  cases a with
  | spread object field raw =>
    obtain ⟨target, found, declares⟩ := expands
    simp [spelled, Symbols.expansion, ← lists.lookup_objects, found, declares, Argument.unmarked]
  | reference name field raw spreadOf => rw [spelled, Symbols.expansion, List.map_singleton, fresh]
  | number value raw => rfl
  | word text => rfl

theorem Model.expands_spelled (lists : s.Lists m) (lists' : s'.Lists m.spelledOut) :
    (∀ b ∈ m.spelled a, s'.Expands b) ↔ s.Expands a := by
  have same := lists.sameNames lists'
  cases a with
  | spread object field raw =>
    have again := lists.lookup_spelledOut lists' object
    cases found : s.objects.lookup object with
    | none => simp [spelled, ← lists.lookup_objects, found, Symbols.Expands, again]
    | some target =>
      by_cases declares : target.outputs = []
      · simp [spelled, ← lists.lookup_objects, found, Symbols.Expands, again, declares]
      · have known : ∀ output ∈ target.outputs, s.has output = true := by
          intro output mem
          have named : output ∈ target.outputNames := by
            simpa [Definition.outputNames, declares] using mem
          have listed := lists.mem_outputs (lists.mem_of_lookup found).1 named
          rw [Symbols.has, Bool.or_eq_true]
          exact .inr (Entries.has_iff.2 (List.mem_map_of_mem listed))
        simpa [spelled, ← lists.lookup_objects, found, Symbols.Expands, declares,
          same.has] using known
  | reference name field raw spreadOf => simp [spelled, Symbols.Expands, same.has]
  | number value raw => simp [spelled, Symbols.Expands]
  | word text => simp [spelled, Symbols.Expands]

/-- No mark and no spread is left, so nothing is expanded any more. -/
theorem Symbols.expansion_of_unmarked {b : Argument} (expands : s.Expands a)
    (h : b ∈ s.expansion a) :
    s'.expansion b.unmarked = [b.unmarked] ∧ b.unmarked.isSpread = false := by
  cases a with
  | spread object field raw =>
    obtain ⟨target, found, -⟩ := expands
    simp only [expansion, found, List.mem_map] at h
    obtain ⟨output, -, rfl⟩ := h
    exact ⟨rfl, rfl⟩
  | reference name field raw spreadOf =>
    cases List.mem_singleton.1 h
    exact ⟨rfl, rfl⟩
  | number value raw =>
    cases List.mem_singleton.1 h
    exact ⟨rfl, rfl⟩
  | word text =>
    cases List.mem_singleton.1 h
    exact ⟨rfl, rfl⟩

section

variable (lists : s.Lists m) (fresh : ∀ a ∈ d.arguments, a.unmarked = a)
  (expands : ∀ a ∈ d.arguments, s.Expands a)

include lists fresh expands

/-- Spelling out a definition is linking it and dropping the marks. -/
theorem Model.spell_eq : m.spell d = (s.expanded d).unmarked := by
  have arguments : d.arguments.flatMap m.spelled =
      (d.arguments.flatMap s.expansion).map Argument.unmarked := by
    rw [List.map_flatMap]
    exact List.flatMap_congr fun a ha => Model.spelled_eq lists (fresh a ha) (expands a ha)
  simp only [spell, Symbols.expanded, Definition.unmarked, arguments]

theorem Model.plain_of_mem_spell (s' : Symbols) {b : Argument} (h : b ∈ (m.spell d).arguments) :
    s'.expansion b = [b] ∧ b.isSpread = false := by
  rw [Model.spell_eq lists fresh expands, Definition.unmarked, List.mem_map] at h
  obtain ⟨b, mem, rfl⟩ := h
  obtain ⟨a, ha, mem⟩ := List.mem_flatMap.1 mem
  exact Symbols.expansion_of_unmarked (expands a ha) mem

theorem Model.hasSpread_spell : (m.spell d).hasSpread = false := by
  rw [Definition.hasSpread, List.any_eq_false]
  intro b hb
  rw [(Model.plain_of_mem_spell lists fresh expands s hb).2]
  exact Bool.false_ne_true

theorem Symbols.expanded_spell : s'.expanded (m.spell d) = m.spell d := by
  have arguments : (m.spell d).arguments.flatMap s'.expansion = (m.spell d).arguments := by
    rw [List.flatMap_congr fun b hb => (Model.plain_of_mem_spell lists fresh expands s' hb).1]
    exact List.flatMap_singleton' _
  rw [Symbols.expanded, arguments]

end

/-- A definition that is spelled out can be linked if it can be linked as it is and has no more
arguments than it may have without a spread. -/
theorem Symbols.exists_linkDefinition_spell (lists : s.Lists m) (lists' : s'.Lists m.spelledOut)
    (fresh : ∀ a ∈ d.arguments, a.unmarked = a) (hd : d ∈ m.definitions) :
    (∃ l, s'.linkDefinition (m.spell d) = .ok l) ↔ (∃ l, s.linkDefinition d = .ok l) ∧
      ¬m.Overflows d := by
  have arguments : (∀ b ∈ (m.spell d).arguments, s'.Expands b) ↔
      ∀ a ∈ d.arguments, s.Expands a := by
    simp only [Model.spell, List.forall_mem_flatMap, Model.expands_spelled lists lists']
  rw [exists_linkDefinition_iff lists' (List.mem_map_of_mem hd), exists_linkDefinition_iff lists hd,
    arguments, Model.outputNames_spell, and_assoc]
  refine and_congr_right fun expands => ?_
  have length : (s.expanded d).arguments.length = (m.spell d).arguments.length := by
    rw [Model.spell_eq lists fresh expands, Definition.unmarked, List.length_map]
  rw [expanded_spell lists fresh expands, Model.hasSpread_spell lists fresh expands, length]
  constructor
  · intro allowed
    refine ⟨fun more => absurd (allowed more) Bool.false_ne_true, fun overflows => ?_⟩
    exact absurd (allowed ⟨overflows.several, overflows.more⟩) Bool.false_ne_true
  · rintro ⟨allowed, fits⟩ more
    exact absurd ⟨allowed more, more.1, more.2⟩ fits

theorem Model.links_spelledOut (fresh : m.Fresh) :
    m.spelledOut.Links ↔ m.Links ∧ ∀ d ∈ m.definitions, ¬m.Overflows d := by
  have indexed : (∃ s', Symbols.ofModel m.spelledOut = .ok s') ↔
      ∃ s, Symbols.ofModel m = .ok s := by
    rw [Symbols.exists_ofModel_iff, Symbols.exists_ofModel_iff, Symbols.distinct_spelledOut]
  by_cases index : ∃ s, Symbols.ofModel m = .ok s
  · obtain ⟨s', index'⟩ := indexed.2 index
    obtain ⟨s, index⟩ := index
    have lists := Symbols.lists_of_ofModel index
    have lists' := Symbols.lists_of_ofModel index'
    rw [links_iff index, links_iff index', spelledOut, List.forall_mem_map]
    constructor
    · intro each
      have both := fun d hd =>
        (Symbols.exists_linkDefinition_spell lists lists' (fresh d hd) hd).1 (each d hd)
      exact ⟨fun d hd => (both d hd).1, fun d hd => (both d hd).2⟩
    · rintro ⟨each, fits⟩ d hd
      exact (Symbols.exists_linkDefinition_spell lists lists' (fresh d hd) hd).2
        ⟨each d hd, fits d hd⟩
  · constructor
    · rintro ⟨s', _, index', -⟩
      exact absurd (indexed.1 ⟨s', index'⟩) index
    · rintro ⟨⟨s, _, index', -⟩, -⟩
      exact absurd ⟨s, index'⟩ index

theorem Model.definitions_of_spelledOut {l l' : Model} (fresh : m.Fresh)
    (index : Symbols.ofModel m = .ok s) (link : m.link s = .ok l)
    (link' : m.spelledOut.link s' = .ok l') :
    l'.definitions = l.definitions.map (·.unmarked) := by
  have lists := Symbols.lists_of_ofModel index
  have linked' := Model.definitions_of_link link'
  have each : ∀ d ∈ m.definitions, ∀ e, s.linkDefinition d = .ok e →
      s'.linkDefinition (m.spell d) = .ok e.unmarked := by
    intro d hd e linked
    obtain ⟨expands, rfl⟩ := Symbols.expanded_of_linkDefinition linked
    obtain ⟨e', -, again⟩ := exists_mem_of_mapM linked' (List.mem_map_of_mem hd)
    obtain ⟨-, rfl⟩ := Symbols.expanded_of_linkDefinition again
    rw [Symbols.expanded_spell lists (fresh d hd) expands] at again
    rw [again, Model.spell_eq lists (fresh d hd) expands]
  have spelled := mapM_map m.spell (·.unmarked) each (Model.definitions_of_link link)
  exact Except.ok.inj (linked'.symm.trans spelled)

end

end Forecast

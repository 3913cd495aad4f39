import Forecast.Proofs.Linking

/-!
# What linking makes of a model

A model links exactly if its spreads and references name what is there and no
object without a spread has more arguments than it can assign to its outputs.
Linking replaces each argument by what it stands for and changes nothing else,
so that nothing is left to be linked: a second time gives the same model.
-/

namespace Forecast

open Outcome

namespace Definition

variable {d : Definition}

theorem outputNames_of_declared (declared : d.outputs ≠ []) : d.outputNames = d.outputs := by
  rw [outputNames, if_neg (by simpa using declared)]

theorem outputNames_of_several (several : 1 < d.outputNames.length) :
    d.outputNames = d.outputs := by
  apply outputNames_of_declared
  rintro none
  simp [outputNames, none] at several

end Definition

/-! ## Expansion -/

namespace Symbols

variable {m : Model} {s : Symbols} {d : Definition} {a : Argument}

/-- Arguments that linking can expand. -/
def Expands (s : Symbols) : Argument → Prop
  | .spread object _ _ => ∃ target, s.objects.lookup object = some target ∧ target.outputs ≠ []
  | .reference name _ _ _ => s.has name = true
  | .number .. => True
  | .word _ => True

def expansion (s : Symbols) : Argument → List Argument
  | .spread object field _ =>
    match s.objects.lookup object with
    | some target =>
      target.outputs.map fun output =>
        .reference output field (output ++ "." ++ field) (some object)
    | none => []
  | .reference name field raw spreadOf => [.reference name field raw spreadOf]
  | .number value raw => [.number value raw]
  | .word text => [.word text]

def expanded (s : Symbols) (d : Definition) : Definition :=
  { d with arguments := d.arguments.flatMap s.expansion }

theorem expand_eq_ok {expanded : List Argument} :
    s.expand d a = .ok expanded ↔ s.Expands a ∧ s.expansion a = expanded := by
  cases a with
  | spread object field raw =>
    cases found : s.objects.lookup object with
    | none => simp [expand, Expands, found]
    | some target =>
      by_cases declares : target.outputs = [] <;> simp [expand, Expands, expansion, found, declares]
  | reference name field raw spreadOf =>
    by_cases known : s.has name = true <;> simp [expand, Expands, expansion, known]
  | number value raw => simp [expand, Expands, expansion]
  | word text => simp [expand, Expands, expansion]

theorem mapM_expand_eq_ok {arguments : List Argument} {groups : List (List Argument)} :
    arguments.mapM (s.expand d) = .ok groups ↔
      (∀ a ∈ arguments, s.Expands a) ∧ arguments.map s.expansion = groups := by
  rw [mapM_eq_ok, ← List.forall₂_eq_eq_eq, List.forall₂_map_left_iff]
  simp only [expand_eq_ok, List.forall₂_and_left]

theorem any_isSpread_expansion (expands : s.Expands a) :
    (s.expansion a).any Argument.isSpread = a.isSpread := by
  cases a with
  | spread object field raw =>
    obtain ⟨target, found, declares⟩ := expands
    obtain ⟨output, outputs, all⟩ := List.exists_cons_of_ne_nil declares
    simp [expansion, found, all, Argument.isSpread]
  | reference name field raw spreadOf => simp [expansion]
  | number value raw => simp [expansion]
  | word text => simp [expansion]

theorem hasSpread_expanded (expands : ∀ a ∈ d.arguments, s.Expands a) :
    (s.expanded d).hasSpread = d.hasSpread := by
  simp only [Definition.hasSpread, expanded, List.any_flatMap]
  rw [Bool.eq_iff_iff, List.any_eq_true, List.any_eq_true]
  exact exists_congr fun a => and_congr_right fun ha => by
    rw [any_isSpread_expansion (expands a ha)]

theorem expanded_of_linkDefinition {l : Definition} (h : s.linkDefinition d = .ok l) :
    (∀ a ∈ d.arguments, s.Expands a) ∧ s.expanded d = l := by
  obtain ⟨groups, linked, rfl, -⟩ := s.linkDefinition_ok h
  obtain ⟨expands, rfl⟩ := mapM_expand_eq_ok.1 linked
  exact ⟨expands, rfl⟩

theorem linkDefinition_of_expands (expands : ∀ a ∈ d.arguments, s.Expands a)
    (routed : ∃ positions, (s.expanded d).feeds (s.outputsOf d.name).length = .ok positions) :
    s.linkDefinition d = .ok (s.expanded d) := by
  have groups : d.arguments.mapM (s.expand d) = .ok (d.arguments.map s.expansion) :=
    mapM_expand_eq_ok.2 ⟨expands, rfl⟩
  have flat : s.expanded d = { d with arguments := (d.arguments.map s.expansion).flatten } := rfl
  obtain ⟨positions, routed⟩ := routed
  rw [flat] at routed ⊢
  simp only [linkDefinition, groups, ok_bind, routed]
  rfl

/-- A definition can be linked if its arguments can be expanded and, without a spread, an object
with several outputs has no more arguments than outputs. -/
theorem exists_linkDefinition_iff (lists : s.Lists m) (hd : d ∈ m.definitions) :
    (∃ l, s.linkDefinition d = .ok l) ↔ (∀ a ∈ d.arguments, s.Expands a) ∧
      (1 < d.outputNames.length ∧ d.outputNames.length < (s.expanded d).arguments.length →
        d.hasSpread = true) := by
  have some_output : 0 < d.outputNames.length := List.length_pos_iff.2 d.outputNames_ne_nil
  constructor
  · rintro ⟨l, linked⟩
    obtain ⟨expands, rfl⟩ := expanded_of_linkDefinition linked
    obtain ⟨-, -, -, routed⟩ := s.linkDefinition_ok linked
    rw [lists.outputsOf hd, Definition.exists_feeds_iff _ some_output,
      hasSpread_expanded expands] at routed
    exact ⟨expands, routed⟩
  · rintro ⟨expands, allowed⟩
    rw [← hasSpread_expanded expands, ← Definition.exists_feeds_iff _ some_output] at allowed
    obtain ⟨positions, routed⟩ := allowed
    rw [← lists.outputsOf hd] at routed
    exact ⟨_, linkDefinition_of_expands expands ⟨positions, routed⟩⟩

end Symbols

/-! ## Models that link -/

namespace Model

variable {m l : Model} {s : Symbols} {d : Definition} {a : Argument}

/-- An argument names what is there: a spread an object that declares outputs, a reference an object
or an output. -/
def Knows (m : Model) : Argument → Prop
  | .spread object _ _ => ∃ d ∈ m.definitions, d.name = object ∧ d.outputs ≠ []
  | .reference name _ _ _ => ∃ d ∈ m.definitions, name = d.name ∨ name ∈ d.outputs
  | .number .. => True
  | .word _ => True

/-- The arguments of a model name what is there, and an object with several outputs has more
arguments than these only with a spread. -/
structure Linkable (m : Model) : Prop where
  known : ∀ d ∈ m.definitions, ∀ a ∈ d.arguments, m.Knows a
  fits : ∀ d ∈ m.definitions, 2 ≤ d.outputs.length → d.hasSpread = false →
    d.arguments.length ≤ d.outputs.length

/-- A model is linked to another one: each argument is expanded in its place, no spread is left, all
arguments can be assigned to outputs, and linking again changes nothing. -/
structure LinksTo (m : Model) (s : Symbols) (l : Model) : Prop where
  definitions : l.definitions = m.definitions.map s.expanded
  plain : ∀ d ∈ l.definitions, ∀ object field raw, .spread object field raw ∉ d.arguments
  routed : ∀ d ∈ l.definitions, ∃ positions, d.feeds (s.outputsOf d.name).length = .ok positions
  again : l.link s = .ok l

theorem exists_link_iff :
    (∃ l, m.link s = .ok l) ↔ ∀ d ∈ m.definitions, ∃ l, s.linkDefinition d = .ok l := by
  constructor
  · rintro ⟨l, link⟩ d hd
    obtain ⟨e, -, linked⟩ := exists_mem_of_mapM (definitions_of_link link) hd
    exact ⟨e, linked⟩
  · intro each
    obtain ⟨definitions, linked, -⟩ := exists_mapM (P := fun _ => True) fun d hd =>
      (each d hd).imp fun _ h => ⟨h, trivial⟩
    exact ⟨_, by rw [link, linked]; rfl⟩

end Model

namespace Symbols

variable {m : Model} {s : Symbols} {d : Definition} {a : Argument}

/-- What names something that is there can be expanded. -/
theorem Lists.expands_iff_knows (lists : s.Lists m) : s.Expands a ↔ m.Knows a := by
  cases a with
  | spread object field raw =>
    constructor
    · rintro ⟨target, found, declares⟩
      obtain ⟨hd, named⟩ := lists.mem_of_lookup found
      exact ⟨target, hd, named, declares⟩
    · rintro ⟨d, hd, rfl, declares⟩
      have mem : (d.name, d) ∈ s.objects := by
        rw [lists.objects]
        exact List.mem_map.2 ⟨d, hd, rfl⟩
      exact ⟨d, Entries.lookup_of_mem lists.objects_nodup mem, declares⟩
  | reference name field raw spreadOf =>
    have known : s.has name = true ↔
        (∃ d ∈ m.definitions, d.name = name) ∨ ∃ d ∈ m.definitions, name ∈ d.outputNames := by
      rw [has, Bool.or_eq_true, Entries.has_iff, Entries.has_iff, lists.keys_objects,
        lists.keys_outputs, List.mem_map, List.mem_flatMap]
    simp only [Expands, known, Model.Knows]
    constructor
    · rintro (⟨d, hd, rfl⟩ | ⟨d, hd, mem⟩)
      · exact ⟨d, hd, .inl rfl⟩
      · rw [Definition.outputNames] at mem
        split at mem
        · exact ⟨d, hd, .inl (List.mem_singleton.1 mem)⟩
        · exact ⟨d, hd, .inr mem⟩
    · rintro ⟨d, hd, rfl | mem⟩
      · exact .inl ⟨d, hd, rfl⟩
      · refine .inr ⟨d, hd, ?_⟩
        rwa [Definition.outputNames_of_declared (List.ne_nil_of_mem mem)]
  | number value raw => exact Iff.rfl
  | word text => exact Iff.rfl

theorem expanded_of_plain (plain : ∀ object field raw, .spread object field raw ∉ d.arguments) :
    s.expanded d = d := by
  have kept : d.arguments.flatMap s.expansion = d.arguments.flatMap fun a => [a] := by
    apply List.flatMap_congr
    intro a ha
    cases a with
    | spread object field raw => exact absurd ha (plain object field raw)
    | _ => rfl
  rw [expanded, kept, List.flatMap_singleton']

theorem plain_of_hasSpread (h : d.hasSpread = false) (object field raw : String) :
    .spread object field raw ∉ d.arguments := by
  intro mem
  have spread := List.any_eq_false.1 h _ mem
  exact spread rfl

theorem Lists.exists_linkDefinition_iff_knows (lists : s.Lists m) (hd : d ∈ m.definitions) :
    (∃ l, s.linkDefinition d = .ok l) ↔ (∀ a ∈ d.arguments, m.Knows a) ∧
      (2 ≤ d.outputs.length → d.hasSpread = false → d.arguments.length ≤ d.outputs.length) := by
  simp only [exists_linkDefinition_iff lists hd, lists.expands_iff_knows]
  refine and_congr_right fun _ => ?_
  constructor
  · intro allowed several none_spread
    have declared : d.outputs ≠ [] := List.ne_nil_of_length_pos (by omega)
    rw [Definition.outputNames_of_declared declared,
      expanded_of_plain (plain_of_hasSpread none_spread)] at allowed
    by_contra tooMany
    rw [allowed ⟨several, by omega⟩] at none_spread
    cases none_spread
  · rintro allowed ⟨several, tooMany⟩
    have declared := Definition.outputNames_of_several several
    rw [declared] at several tooMany
    by_contra spread
    have none_spread : d.hasSpread = false := by simpa using spread
    rw [expanded_of_plain (plain_of_hasSpread none_spread)] at tooMany
    have fits := allowed several none_spread
    omega

theorem linkDefinition_of_plain (expands : ∀ a ∈ d.arguments, s.Expands a)
    (plain : ∀ object field raw, .spread object field raw ∉ d.arguments)
    (routed : ∃ positions, d.feeds (s.outputsOf d.name).length = .ok positions) :
    s.linkDefinition d = .ok d := by
  have kept : s.expanded d = d := expanded_of_plain plain
  have linked := linkDefinition_of_expands expands (by rwa [kept])
  rwa [kept] at linked

end Symbols

namespace Model

variable {m l : Model} {s : Symbols}

theorem definitions_eq_expanded (link : m.link s = .ok l) :
    l.definitions = m.definitions.map s.expanded := by
  have each := mapM_eq_ok.1 (definitions_of_link link)
  rw [← List.forall₂_eq_eq_eq, List.forall₂_map_right_iff]
  exact each.flip.imp fun _ _ linked => (Symbols.expanded_of_linkDefinition linked).2.symm

/-- A model whose definitions are linked to themselves is linked to itself if it comes from
linking. -/
theorem link_eq_self (link : m.link s = .ok l)
    (each : ∀ d ∈ l.definitions, s.linkDefinition d = .ok d) :
    l.link s = .ok l := by
  have again : l.definitions.mapM s.linkDefinition = .ok l.definitions := mapM_eq_self each
  simp only [Model.link, bind_eq_ok, pure_eq_ok] at link
  obtain ⟨definitions, -, rfl⟩ := link
  rw [Model.link, again]
  simp [bind, Except.bind, pure, Except.pure]

theorem linksTo_of_link (index : Symbols.ofModel m = .ok s) (link : m.link s = .ok l) :
    m.LinksTo s l := by
  have linked := linked_of_link index link
  have plain : ∀ d ∈ l.definitions, ∀ object field raw, .spread object field raw ∉ d.arguments :=
    fun d hd object field raw mem => linked.resolved d hd _ mem
  have routed : ∀ d ∈ l.definitions, ∃ positions,
      d.feeds (s.outputsOf d.name).length = .ok positions := by
    intro d hd
    rw [linked.outputsOf hd]
    exact ⟨_, linked.routed d hd⟩
  refine ⟨definitions_eq_expanded link, plain, routed, link_eq_self link ?_⟩
  intro d hd
  refine Symbols.linkDefinition_of_plain ?_ (plain d hd) (routed d hd)
  intro a ha
  have resolved := linked.resolved d hd a ha
  cases a with
  | spread object field raw => exact resolved.elim
  | _ => exact resolved

/-- A model with symbols links exactly if its arguments name what is there and can be assigned to
outputs; what it links to needs no linking any more. -/
theorem exists_link_iff_linkable (index : Symbols.ofModel m = .ok s) :
    ((∃ l, m.link s = .ok l) ↔ m.Linkable) ∧ ∀ l, m.link s = .ok l → m.LinksTo s l := by
  have lists := Symbols.lists_of_ofModel index
  refine ⟨?_, fun l => linksTo_of_link index⟩
  rw [exists_link_iff]
  constructor
  · intro each
    have both := fun d hd => (lists.exists_linkDefinition_iff_knows hd).1 (each d hd)
    exact ⟨fun d hd => (both d hd).1, fun d hd => (both d hd).2⟩
  · intro linkable d hd
    exact (lists.exists_linkDefinition_iff_knows hd).2 ⟨linkable.known d hd, linkable.fits d hd⟩

/-- An object that spreads one defined after it, and so has more arguments than outputs. -/
def spreadAhead : Model :=
  let object (name : String) (arguments : List Argument) (outputs : List String)
      (line : Nat) : Definition :=
    { name, kind := "Sum", arguments, outputs, inline := [], sectionName := "S",
      comment := "", line }
  ⟨[⟨"S", 1, []⟩],
    [object "Mix" [.spread "Base" "val" "...Base.val", .reference "Solo" "val" "Solo.val" none]
      ["x", "y"] 2, object "Base" [] ["a", "b"] 3, object "Solo" [.word "monthly"] [] 4], []⟩

theorem links_spreadAhead : ∃ s l, Symbols.ofModel spreadAhead = .ok s ∧ spreadAhead.Linkable ∧
    spreadAhead.link s = .ok l ∧ l.definitions.map (·.arguments.length) = [3, 0, 1] ∧
    spreadAhead.LinksTo s l :=
  ⟨_, _, rfl, (exists_link_iff_linkable rfl).1.1 ⟨_, rfl⟩, rfl, rfl,
    (exists_link_iff_linkable rfl).2 _ rfl⟩

end Model

end Forecast

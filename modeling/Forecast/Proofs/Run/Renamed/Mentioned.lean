import Forecast.Proofs.Assumption.Renamed
import Mathlib.SetTheory.Cardinal.Arithmetic

/-!
# Names that occur

A renaming of a model and its assumptions depends only on the names that occur
in them. These are finitely many, so a renaming that keeps them apart is, as far
as they are concerned, one that keeps all names apart.
-/

namespace Forecast

variable {f g : String → String}

def Argument.mentioned : Argument → List String
  | .reference name _ _ spreadOf => name :: spreadOf.toList
  | .spread object _ _ => [object]
  | .number .. => []
  | .word _ => []

def Definition.mentioned (d : Definition) : List String :=
  d.name :: d.outputs ++ d.arguments.flatMap Argument.mentioned ++ d.inline.keys

def Model.mentioned (m : Model) : List String :=
  m.definitions.flatMap Definition.mentioned ++
    m.sections.flatMap fun s => s.definitions.flatMap Definition.mentioned

def Assumptions.mentioned (a : Assumptions) : List String :=
  a.flatMap fun e => e.1 :: e.2.outputs.keys

theorem Entries.renamed_congr {α β : Type} {h : α → β} {t : Entries α}
    (same : ∀ name ∈ t.keys, f name = g name) : t.renamed f h = t.renamed g h := by
  refine List.map_congr_left fun e he => ?_
  rw [same e.1 (List.mem_map_of_mem he)]

theorem Argument.renamed_congr {a : Argument} (same : ∀ name ∈ a.mentioned, f name = g name) :
    a.renamed f = a.renamed g := by
  cases a with
  | reference name field raw spreadOf =>
    have mark : spreadOf.map f = spreadOf.map g :=
      Option.map_congr fun object known => same object (by simp [mentioned, known])
    simp only [renamed, same name (by simp [mentioned]), mark]
  | spread object field raw => simp only [renamed, same object (by simp [mentioned])]
  | number value raw => rfl
  | word text => rfl

theorem Definition.renamed_congr {d : Definition} (same : ∀ name ∈ d.mentioned, f name = g name) :
    d.renamed f = d.renamed g := by
  have name : f d.name = g d.name := same d.name (by simp [mentioned])
  have outputs : d.outputs.map f = d.outputs.map g :=
    List.map_congr_left fun output mem => same output (by simp [mentioned, mem])
  have arguments : d.arguments.map (·.renamed f) = d.arguments.map (·.renamed g) := by
    refine List.map_congr_left fun a ha => Argument.renamed_congr fun name mem => same name ?_
    exact List.mem_append_left _ (List.mem_append_right _ (List.mem_flatMap.2 ⟨a, ha, mem⟩))
  have inline : d.inline.renamed f id = d.inline.renamed g id :=
    Entries.renamed_congr fun name mem => same name (by simp [mentioned, mem])
  simp only [renamed, name, outputs, arguments, inline]

theorem Model.renamed_congr {m : Model} (same : ∀ name ∈ m.mentioned, f name = g name) :
    m.renamed f = m.renamed g := by
  have definitions : m.definitions.map (·.renamed f) = m.definitions.map (·.renamed g) := by
    refine List.map_congr_left fun d hd => Definition.renamed_congr fun name mem => same name ?_
    exact List.mem_append_left _ (List.mem_flatMap.2 ⟨d, hd, mem⟩)
  have sections (s : Section) (hs : s ∈ m.sections) :
      s.definitions.map (·.renamed f) = s.definitions.map (·.renamed g) := by
    refine List.map_congr_left fun d hd => Definition.renamed_congr fun name mem => same name ?_
    exact List.mem_append_right _
      (List.mem_flatMap.2 ⟨s, hs, List.mem_flatMap.2 ⟨d, hd, mem⟩⟩)
  rw [renamed, renamed, definitions, List.map_congr_left fun s hs => by rw [sections s hs]]

theorem Assumptions.renamed_congr {a : Assumptions} (same : ∀ name ∈ a.mentioned, f name = g name) :
    a.renamed f = a.renamed g := by
  refine List.map_congr_left fun e he => ?_
  have name : f e.1 = g e.1 := same e.1 (List.mem_flatMap.2 ⟨e, he, List.mem_cons_self⟩)
  have outputs : e.2.outputs.renamed f id = e.2.outputs.renamed g id :=
    Entries.renamed_congr fun name mem =>
      same name (List.mem_flatMap.2 ⟨e, he, List.mem_cons_of_mem _ mem⟩)
  simp only [ObjectAssumptions.renamed, name, outputs]

/-- A renaming that keeps some names apart does with them what one does that keeps all names
apart. -/
theorem exists_injective_extension {names : List String}
    (apart : Set.InjOn f {name | name ∈ names}) :
    ∃ g : String → String, g.Injective ∧ ∀ name ∈ names, f name = g name := by
  have few : Cardinal.mk {name | name ∈ names} < Cardinal.mk String :=
    (List.finite_toSet names).lt_aleph0.trans_le (Cardinal.aleph0_le_mk String)
  obtain ⟨g, same⟩ := Cardinal.extend_function_of_lt ⟨_, apart.injective⟩ few ⟨.refl _⟩
  exact ⟨g, g.injective, fun name mem => (same ⟨name, mem⟩).symm⟩

end Forecast

import Forecast.Proofs.Headings
import Forecast.Proofs.Linking.Expanded
import Mathlib.Data.List.Flatten

/-!
# Sections of linked models

A definition knows the name of its section and not the section itself, and a
linked section holds all definitions that bear its name. So linking keeps the
sections of a text, each with its own definitions, just if no section that holds
a definition shares its name with another one.
-/

namespace Forecast

open Outcome Text

def Section.linked (s : Symbols) (t : Section) : Section :=
  { t with definitions := t.definitions.map s.expanded }

namespace Model

/-- The sections hold all definitions, in order, and each definition bears the name of its
section. -/
structure Sectioned (m : Model) : Prop where
  flat : m.sections.flatMap (·.definitions) = m.definitions
  named : ∀ t ∈ m.sections, ∀ d ∈ t.definitions, d.sectionName = t.name

/-- Sections of the same name hold no definitions. -/
def OpenedOnce (m : Model) : Prop :=
  m.sections.Pairwise fun t u => t.name = u.name → t.definitions = [] ∧ u.definitions = []

instance (t : Section) : Decidable (t.definitions = []) :=
  decidable_of_iff _ List.isEmpty_iff

instance (m : Model) : Decidable m.OpenedOnce :=
  inferInstanceAs (Decidable (m.sections.Pairwise _))

def bearing (m : Model) (name : String) : List Definition :=
  m.definitions.filter fun d => d.sectionName == name

variable {m l : Model} {s : Symbols} {source : String} {t u : Section}

theorem sectioned_of_ofSource (read : Model.ofSource source = .ok m) : m.Sectioned := by
  simp only [Model.ofSource, bind_eq_ok, pure_eq_ok] at read
  obtain ⟨p, steps, q, closed, rfl⟩ := read
  have placed := (Progress.Placed.steps steps).close closed
  exact ⟨placed.flat, fun t ht d hd => (placed.placed t (List.mem_reverse.1 ht) d hd).1⟩

namespace Sectioned

variable (sectioned : m.Sectioned)
include sectioned

/-- The definitions that bear a name are those of all sections of this name. -/
theorem bearing_eq (name : String) :
    m.bearing name = m.sections.flatMap fun u => if u.name = name then u.definitions else [] := by
  rw [bearing, ← sectioned.flat, List.filter_flatMap]
  apply List.flatMap_congr
  intro u hu
  split
  · rename_i same
    rw [List.filter_eq_self]
    intro d hd
    rw [sectioned.named u hu d hd, same, beq_self_eq_true]
  · rename_i other
    rw [List.filter_eq_nil_iff]
    intro d hd
    rw [sectioned.named u hu d hd, beq_iff_eq]
    exact other

/-- Two sections of one name both find their definitions under it. -/
theorem sublist_bearing (both : [t, u].Sublist m.sections) (same : t.name = u.name) :
    (t.definitions ++ u.definitions).Sublist (m.bearing u.name) := by
  rw [sectioned.bearing_eq]
  have each := both.flatMap fun v => if v.name = u.name then v.definitions else []
  simpa [same] using each

theorem bearing_of_openedOnce (once : m.OpenedOnce) (ht : t ∈ m.sections) :
    m.bearing t.name = t.definitions := by
  obtain ⟨before, after, cut⟩ := List.append_of_mem ht
  rw [OpenedOnce, cut, List.pairwise_append, List.pairwise_cons] at once
  obtain ⟨-, ⟨later, -⟩, earlier⟩ := once
  have nothingBefore :
      (before.flatMap fun u => if u.name = t.name then u.definitions else []) = [] := by
    rw [List.flatMap_eq_nil_iff]
    intro u hu
    split
    · rename_i same
      exact (earlier u hu t (by simp) same).1
    · rfl
  have nothingAfter :
      (after.flatMap fun u => if u.name = t.name then u.definitions else []) = [] := by
    rw [List.flatMap_eq_nil_iff]
    intro u hu
    split
    · rename_i same
      exact (later u hu same.symm).2
    · rfl
  rw [sectioned.bearing_eq, cut, List.flatMap_append, List.flatMap_cons, nothingBefore,
    nothingAfter]
  simp

end Sectioned

/-- A linked section holds what is linked of the definitions that bear its name. -/
theorem sections_eq_bearing (link : m.link s = .ok l) :
    l.sections = m.sections.map fun t =>
      { t with definitions := (m.bearing t.name).map s.expanded } := by
  have definitions := definitions_eq_expanded link
  simp only [Model.link, bind_eq_ok, pure_eq_ok] at link
  obtain ⟨linked, -, rfl⟩ := link
  subst definitions
  simp only [bearing, List.filter_map]
  rfl

variable (sectioned : m.Sectioned) (link : m.link s = .ok l)
include sectioned link

theorem sections_of_openedOnce (once : m.OpenedOnce) :
    l.sections = m.sections.map (Section.linked s) := by
  rw [sections_eq_bearing link]
  apply List.map_congr_left
  intro t ht
  rw [sectioned.bearing_of_openedOnce once ht]
  rfl

theorem flatMap_definitions_of_sections (kept : l.sections = m.sections.map (Section.linked s)) :
    l.sections.flatMap (·.definitions) = l.definitions := by
  rw [kept, List.flatMap_map, definitions_eq_expanded link, ← sectioned.flat, List.map_flatMap]
  rfl

/-- If no definition is repeated along the linked sections, the sections of one name are empty. -/
theorem openedOnce_of_flatMap (distinct : l.definitions.Nodup)
    (flat : l.sections.flatMap (·.definitions) = l.definitions) : m.OpenedOnce := by
  rw [OpenedOnce, List.pairwise_iff_forall_sublist]
  intro t u both same
  have twice : ((m.bearing u.name).map s.expanded ++ (m.bearing u.name).map s.expanded).Sublist
      l.definitions := by
    rw [← flat, sections_eq_bearing link, List.flatMap_map]
    have each := both.flatMap fun v => (m.bearing v.name).map s.expanded
    simpa [same] using each
  have none : m.bearing u.name = [] := by
    have apart := (List.nodup_append.1 (distinct.sublist twice)).2.2
    rw [← List.map_eq_nil_iff (f := s.expanded), List.eq_nil_iff_forall_not_mem]
    exact fun d hd => apart d hd d hd rfl
  have all := sectioned.sublist_bearing both same
  rw [none, List.sublist_nil, List.append_eq_nil_iff] at all
  exact all

omit sectioned link

/-- Linking a text keeps the names, lines and order of its sections and links every definition, in
order and none twice. Each section keeps just its own definitions, and all sections together hold
the definitions of the model, exactly if no section that holds a definition shares its name with
another. -/
theorem sections_of_link (read : Model.ofSource source = .ok m) (index : Symbols.ofModel m = .ok s)
    (link : m.link s = .ok l) :
    l.sections.map (fun t => (t.name, t.line)) = m.sections.map (fun t => (t.name, t.line)) ∧
      (∀ d ∈ m.definitions, s.linkDefinition d = .ok (s.expanded d)) ∧
      l.definitions = m.definitions.map s.expanded ∧ (l.definitions.map (·.name)).Nodup ∧
      (l.sections = m.sections.map (Section.linked s) ↔ m.OpenedOnce) ∧
      (l.sections.flatMap (·.definitions) = l.definitions ↔ m.OpenedOnce) := by
  have sectioned := sectioned_of_ofSource read
  have distinct := (linked_of_link index link).objects_nodup
  have onceOf := openedOnce_of_flatMap sectioned link (distinct.of_map _)
  have flatOf := flatMap_definitions_of_sections sectioned link
  have keptOf := sections_of_openedOnce sectioned link
  refine ⟨?_, ?_, definitions_eq_expanded link, distinct, ⟨onceOf ∘ flatOf, keptOf⟩,
    ⟨onceOf, flatOf ∘ keptOf⟩⟩
  · rw [sections_eq_bearing link, List.map_map]
    rfl
  · intro d hd
    obtain ⟨d', -, linked⟩ := exists_mem_of_mapM (definitions_of_link link) hd
    rw [linked, (Symbols.expanded_of_linkDefinition linked).2]

def linkedSource (source : String) : Except Fault (Model × Symbols × Model) := do
  let m ← (Model.ofSource source).mapError .read
  let s ← (Symbols.ofModel m).mapError .link
  let l ← (m.link s).mapError .link
  return (m, s, l)

def reopenedSource : String :=
  "S:\nA = Setup() => a\nT:\nB = Setup() => b\nS:\nC = Setup() => c\n"

theorem repeated_reopened : ∃ m s l, Model.ofSource reopenedSource = .ok m ∧
    Symbols.ofModel m = .ok s ∧ m.link s = .ok l ∧
    m.sections.map (fun t => t.definitions.map (·.name)) = [["A"], ["B"], ["C"]] ∧
    l.sections.map (fun t => t.definitions.map (·.name)) = [["A", "C"], ["B"], ["A", "C"]] ∧
    l.sections ≠ m.sections.map (Section.linked s) ∧
    l.sections.flatMap (·.definitions) ≠ l.definitions := by
  have names : (linkedSource reopenedSource).toOption.map (fun (m, _, l) =>
        (m.sections.map (fun t => t.definitions.map (·.name)),
          l.sections.map (fun t => t.definitions.map (·.name)), l.definitions.length)) =
      some ([["A"], ["B"], ["C"]], [["A", "C"], ["B"], ["A", "C"]], 3) := by decide +kernel
  obtain ⟨⟨m, s, l⟩, run, names⟩ := exists_of_toOption_map names
  simp only [linkedSource, bind_eq_ok, mapError_eq_ok, pure_eq_ok, Prod.mk.injEq] at run names
  obtain ⟨m', read, s', index, l', link, rfl, rfl, rfl⟩ := run
  obtain ⟨parsed, linked, three⟩ := names
  refine ⟨m', s', l', read, index, link, parsed, linked, fun kept => ?_, fun flat => ?_⟩
  · have same : l'.sections.map (fun t => t.definitions.map (·.name)) =
        m'.sections.map (fun t => t.definitions.map (·.name)) := by
      rw [kept, List.map_map]
      exact List.map_congr_left fun t _ => by simp [Section.linked, Symbols.expanded]
    rw [parsed, linked] at same
    exact absurd same (by decide)
  · have counts : l'.sections.map (fun t => t.definitions.length) = [2, 1, 2] := by
      simpa [Function.comp_def] using congrArg (List.map List.length) linked
    have total := congrArg List.length flat
    rw [List.length_flatMap, counts, three] at total
    exact absurd total (by decide)

def twiceEmptySource : String :=
  "E:\nS:\nA = Quant() => a, b\nE:\nT:\nB = Sum(...A.val) => t\nC = Sum(t.val, B.val) => c\n"

theorem sections_twiceEmpty : ∃ m s l, Model.ofSource twiceEmptySource = .ok m ∧
    Symbols.ofModel m = .ok s ∧ m.link s = .ok l ∧
    l.sections.map (fun t => (t.name, t.line)) = [("E", 1), ("S", 2), ("E", 4), ("T", 5)] ∧
    l.sections = m.sections.map (Section.linked s) ∧
    l.sections.flatMap (·.definitions) = l.definitions := by
  have once : (linkedSource twiceEmptySource).toOption.map (fun (m, _, _) =>
        (decide m.OpenedOnce, m.sections.map (fun t => (t.name, t.line)))) =
      some (true, [("E", 1), ("S", 2), ("E", 4), ("T", 5)]) := by decide +kernel
  obtain ⟨⟨m, s, l⟩, run, once⟩ := exists_of_toOption_map once
  simp only [linkedSource, bind_eq_ok, mapError_eq_ok, pure_eq_ok, Prod.mk.injEq,
    decide_eq_true_eq] at run once
  obtain ⟨m', read, s', index, l', link, rfl, rfl, rfl⟩ := run
  obtain ⟨once, headers⟩ := once
  obtain ⟨same, -, -, -, kept, flat⟩ := sections_of_link read index link
  exact ⟨m', s', l', read, index, link, same.trans headers, kept.2 once, flat.2 once⟩

end Model
end Forecast

import Forecast.Proofs.Plan

/-!
# Definitions in another order

Names are resolved by tables in which every name stands once. So where a
definition stands, in which section and after which others, does not change
what it is linked to, nor what its outputs depend on: if a model can be linked
and ordered, so can every rearrangement of it.
-/

namespace Forecast

open Outcome Relation

/-- A definition without its comment and its place in the text. -/
def Definition.unplaced (d : Definition) : Definition :=
  { d with sectionName := "", comment := "", line := 0 }

/-- Definitions that differ at most in their comments and places. -/
def Definition.Alike (d d' : Definition) : Prop :=
  d'.unplaced = d.unplaced

namespace Definition.Alike

variable {d d' : Definition} (alike : d.Alike d')
include alike

theorem symm : d'.Alike d := Eq.symm alike

theorem keeps {β : Type} (f : Definition → β) (placeless : ∀ d, f d.unplaced = f d) :
    f d' = f d := by
  rw [← placeless d', ← placeless d]
  exact congrArg f alike

theorem name : d'.name = d.name := alike.keeps (·.name) fun _ => rfl

theorem kind : d'.kind = d.kind := alike.keeps (·.kind) fun _ => rfl

theorem arguments : d'.arguments = d.arguments := alike.keeps (·.arguments) fun _ => rfl

theorem outputs : d'.outputs = d.outputs := alike.keeps (·.outputs) fun _ => rfl

theorem inline : d'.inline = d.inline := alike.keeps (·.inline) fun _ => rfl

theorem outputNames : d'.outputNames = d.outputNames := alike.keeps (·.outputNames) fun _ => rfl

theorem feedTable : d'.feedTable = d.feedTable := alike.keeps (·.feedTable) fun _ => rfl

theorem hasSpread : d'.hasSpread = d.hasSpread := alike.keeps (·.hasSpread) fun _ => rfl

theorem feeds {outputs : Nat} {positions : List (List Nat)} (h : d.feeds outputs = .ok positions) :
    d'.feeds outputs = .ok positions := by
  simp only [Definition.feeds, alike.arguments, alike.hasSpread] at h ⊢
  split at h
  · cases h
  · rename_i routed
    rwa [if_neg routed]

theorem withArguments (arguments : List Argument) :
    ({ d with arguments } : Definition).Alike { d' with arguments } := by
  simp only [Definition.Alike, unplaced, alike.name, alike.kind, alike.outputs, alike.inline]

end Definition.Alike

namespace Model

variable {m m' : Model}

/-- The same definitions in any order and in any sections. -/
def Rearranges (m m' : Model) : Prop :=
  (m'.definitions.map (·.unplaced)).Perm (m.definitions.map (·.unplaced))

namespace Rearranges

theorem symm (perm : m.Rearranges m') : m'.Rearranges m :=
  List.Perm.symm perm

theorem exists_alike (perm : m.Rearranges m') {d : Definition} (hd : d ∈ m.definitions) :
    ∃ d' ∈ m'.definitions, d.Alike d' :=
  List.mem_map.1 (perm.symm.subset (List.mem_map_of_mem hd))

theorem map {β : Type} (perm : m.Rearranges m') (f : Definition → β)
    (placeless : ∀ d, f d.unplaced = f d) : (m'.definitions.map f).Perm (m.definitions.map f) := by
  have mapped := List.Perm.map f perm
  simpa only [List.map_map, Function.comp_def, placeless] using mapped

theorem named (perm : m.Rearranges m') (named : m.Named) : m'.Named := by
  intro d' hd'
  obtain ⟨d, hd, alike⟩ := perm.symm.exists_alike hd'
  rw [← alike.name, ← alike.outputNames]
  exact named d hd

theorem distinct (perm : m.Rearranges m') (distinct : Symbols.Distinct m) :
    Symbols.Distinct m' where
  objects := (perm.map (·.name) fun _ => rfl).nodup_iff.2 distinct.objects
  outputs := by
    have outputs := (perm.map (·.outputNames) fun _ => rfl).flatten
    simp only [← List.flatMap_def] at outputs
    exact outputs.nodup_iff.2 distinct.outputs
  shared d' hd' e' he' mem := by
    obtain ⟨d, hd, alike⟩ := perm.symm.exists_alike hd'
    obtain ⟨e, he, alike'⟩ := perm.symm.exists_alike he'
    rw [← alike.outputNames, ← alike'.name] at mem
    rw [← alike.name, ← alike'.name]
    exact distinct.shared d hd e he mem

end Rearranges

end Model

/-! ## Names and links -/

/-- Tables in which every name has the same meaning, up to the place of definitions. -/
structure Symbols.Alike (s s' : Symbols) : Prop where
  objects : ∀ name, (s'.objects.lookup name).map (·.unplaced) =
    (s.objects.lookup name).map (·.unplaced)
  outputs : ∀ name, s'.outputs.has name = s.outputs.has name
  outputsByObject : ∀ name, s'.outputsByObject.lookup name = s.outputsByObject.lookup name

namespace Symbols

variable {m m' : Model} {s s' : Symbols}

theorem Lists.alike (lists : s.Lists m) (lists' : s'.Lists m') (perm : m.Rearranges m') :
    s.Alike s' where
  objects name := by
    rw [← Entries.lookup_mapValues, ← Entries.lookup_mapValues]
    apply Entries.lookup_eq_of_perm
    · simp only [lists.objects, lists'.objects, Entries.mapValues, List.map_map, Function.comp_def]
      exact perm.map (fun d => (d.name, d.unplaced)) fun _ => rfl
    · rw [Entries.keys_mapValues]
      exact lists.objects_nodup
  outputs name := by
    have keys : s'.outputs.keys.Perm s.outputs.keys := by
      rw [lists.keys_outputs, lists'.keys_outputs, List.flatMap_def, List.flatMap_def]
      exact (perm.map (·.outputNames) fun _ => rfl).flatten
    rw [Bool.eq_iff_iff, Entries.has_iff, Entries.has_iff]
    exact keys.mem_iff
  outputsByObject := by
    apply Entries.lookup_eq_of_perm
    · rw [lists.outputsByObject, lists'.outputsByObject]
      exact perm.map (fun d => (d.name, d.outputNames)) fun _ => rfl
    · have keys := lists.objects_nodup
      rw [lists.keys_objects] at keys
      rw [lists.outputsByObject]
      simpa [Entries.keys, Function.comp_def] using keys

namespace Alike

variable (alike : s.Alike s')
include alike

theorem symm : s'.Alike s where
  objects name := (alike.objects name).symm
  outputs name := (alike.outputs name).symm
  outputsByObject name := (alike.outputsByObject name).symm

theorem objects_has (name : String) : s'.objects.has name = s.objects.has name := by
  simpa [Entries.has] using congrArg Option.isSome (alike.objects name)

theorem has (name : String) : s'.has name = s.has name := by
  rw [Symbols.has, Symbols.has, alike.objects_has, alike.outputs]

theorem outputsOf (name : String) : s'.outputsOf name = s.outputsOf name := by
  rw [Symbols.outputsOf, Symbols.outputsOf, alike.outputsByObject]

theorem producers (a : Argument) : s'.producers a = s.producers a := by
  cases a <;> simp only [Symbols.producers, alike.outputs, alike.outputsOf]

theorem exists_object {name : String} {d : Definition} (h : s.objects.lookup name = some d) :
    ∃ d', s'.objects.lookup name = some d' ∧ d.Alike d' := by
  have same := alike.objects name
  rwa [h, Option.map_some, Option.map_eq_some_iff] at same

theorem expand {d d' : Definition} {a : Argument} {expanded : List Argument}
    (h : s.expand d a = .ok expanded) : s'.expand d' a = .ok expanded := by
  cases a with
  | reference name field raw spreadOf =>
    simp only [Symbols.expand, alike.has] at h ⊢
    split at h
    · rename_i known
      rw [if_pos known]
      exact h
    · cases h
  | spread object field raw =>
    simp only [Symbols.expand] at h
    split at h
    · cases h
    · rename_i target found
      obtain ⟨target', found', same⟩ := alike.exists_object found
      split at h
      · cases h
      · rename_i declares
        simp only [Symbols.expand, found', same.outputs, if_neg declares]
        exact h
  | number value raw => exact h
  | word text => exact h

/-- Where a definition stands does not matter for its links. -/
theorem linkDefinition {d d' l : Definition} (same : d.Alike d') (h : s.linkDefinition d = .ok l) :
    ∃ l', s'.linkDefinition d' = .ok l' ∧ l.Alike l' := by
  obtain ⟨expanded, hexpanded, rfl, positions, routed⟩ := s.linkDefinition_ok h
  have expanded' : d'.arguments.mapM (s'.expand d') = .ok expanded := by
    rw [same.arguments, mapM_eq_ok]
    exact (mapM_eq_ok.1 hexpanded).imp fun _ _ => alike.expand
  have linked := same.withArguments expanded.flatten
  have outputs : s'.outputsOf d'.name = s.outputsOf d.name := by
    rw [same.name, alike.outputsOf]
  refine ⟨{ d' with arguments := expanded.flatten }, ?_, linked⟩
  simp only [Symbols.linkDefinition, expanded', ok_bind, outputs, linked.feeds routed]
  rfl

end Alike

end Symbols

namespace Model.Rearranges

variable {m m' l l' : Model} {s s' : Symbols} {p p' : Plan}

theorem exists_link (perm : m.Rearranges m') (alike : s.Alike s') (h : m.link s = .ok l) :
    ∃ l', m'.link s' = .ok l' := by
  obtain ⟨linked, hlinked, -⟩ : ∃ linked, m'.definitions.mapM s'.linkDefinition = .ok linked ∧
      ∀ d ∈ linked, True := by
    apply exists_mapM
    intro d' hd'
    obtain ⟨d, hd, same⟩ := perm.symm.exists_alike hd'
    obtain ⟨e, -, linked⟩ := exists_mem_of_mapM (Model.definitions_of_link h) hd
    obtain ⟨e', linked', -⟩ := alike.linkDefinition same.symm linked
    exact ⟨e', linked', trivial⟩
  exact ⟨_, by rw [Model.link, hlinked]; rfl⟩

theorem link_subset (perm : m.Rearranges m') (alike : s.Alike s') (h : m.link s = .ok l)
    (h' : m'.link s' = .ok l') :
    l.definitions.map (·.unplaced) ⊆ l'.definitions.map (·.unplaced) := by
  intro u hu
  obtain ⟨e, he, rfl⟩ := List.mem_map.1 hu
  obtain ⟨d, hd, linked⟩ := exists_of_mem_mapM (Model.definitions_of_link h) he
  obtain ⟨d', hd', same⟩ := perm.exists_alike hd
  obtain ⟨e', linked', same'⟩ := alike.linkDefinition same linked
  obtain ⟨e'', he'', linked''⟩ := exists_mem_of_mapM (Model.definitions_of_link h') hd'
  rw [linked'] at linked''
  cases linked''
  exact List.mem_map.2 ⟨e', he'', same'⟩

theorem link (perm : m.Rearranges m') (alike : s.Alike s') (linked : Linked l s)
    (linked' : Linked l' s') (h : m.link s = .ok l) (h' : m'.link s' = .ok l') :
    l.Rearranges l' := by
  have once : ∀ {l : Model}, (l.definitions.map (·.name)).Nodup →
      (l.definitions.map (·.unplaced)).Nodup := by
    intro l names
    have same : l.definitions.map (·.name) = (l.definitions.map (·.unplaced)).map (·.name) := by
      rw [List.map_map]
      rfl
    rw [same] at names
    exact names.of_map
  refine (List.perm_ext_iff_of_nodup (once linked'.objects_nodup) (once linked.objects_nodup)).2 ?_
  exact fun u => ⟨fun hu => perm.symm.link_subset alike.symm h' h hu,
    fun hu => perm.link_subset alike h h' hu⟩

/-! ## Dependencies -/

theorem dependsOn (perm : l.Rearranges l') (alike : s.Alike s') {consumer producer : String}
    (h : DependsOn l s consumer producer) : DependsOn l' s' consumer producer := by
  obtain ⟨d, hd, positions, feed, routed, mem, i, hi, a, argument, read⟩ := h
  obtain ⟨d', hd', same⟩ := perm.exists_alike hd
  refine ⟨d', hd', positions, feed, ?_, ?_, i, hi, a, ?_, ?_⟩
  · rw [same.name, alike.outputsOf]
    exact same.feeds routed
  · rw [same.name, alike.outputsOf]
    exact mem
  · rw [same.arguments]
    exact argument
  · rw [alike.producers]
    exact read

theorem needs (perm : l.Rearranges l') (alike : s.Alike s') (linked : Linked l s)
    (linked' : Linked l' s') (output : String) :
    Order.needs l' s' output = Order.needs l s output := by
  have tables : Entries.keys (l'.definitions.flatMap (Order.needsOf s')) = s'.outputOrder ∧
      Entries.keys (l.definitions.flatMap (Order.needsOf s)) = s.outputOrder :=
    ⟨Order.keys_flatMap_needsOf linked', Order.keys_flatMap_needsOf linked⟩
  by_cases known : output ∈ s.outputOrder
  · obtain ⟨d, hd, mem⟩ := linked.exists_owner known
    obtain ⟨feed, hfeed⟩ := Definition.exists_feed mem
    obtain ⟨d', hd', same⟩ := perm.exists_alike hd
    rw [Order.needs_eq linked hd hfeed, Order.needs_eq linked' hd' (same.feedTable ▸ hfeed)]
    simp only [Order.needsAt, same.arguments, funext alike.producers]
  · have unknown : output ∉ s'.outputOrder := by
      rwa [Symbols.outputOrder, ← Entries.has_iff, alike.outputs, Entries.has_iff]
    rw [← tables.2, ← Entries.lookup_eq_none] at known
    rw [← tables.1, ← Entries.lookup_eq_none] at unknown
    rw [Order.needs, Order.needs, known, unknown]

end Model.Rearranges

/-! ## Plans -/

/-- Plans of the same definitions, which stand in another order. -/
structure Plan.Alike (p p' : Plan) : Prop where
  model : p.model.Rearranges p'.model
  symbols : p.symbols.Alike p'.symbols
  dependencies : ∀ output, p'.dependenciesOf output = p.dependenciesOf output

theorem Plan.ofModel_eq_ok {m : Model} {p : Plan} : Plan.ofModel m = .ok p ↔
    Symbols.ofModel m = .ok p.symbols ∧ m.link p.symbols = .ok p.model ∧
      Order.ofModel p.model p.symbols = .ok p.order := by
  simp only [Plan.ofModel, bind_eq_ok, pure_eq_ok]
  constructor
  · rintro ⟨s, hs, l, hl, o, ho, rfl⟩
    exact ⟨mapError_eq_ok.1 hs, mapError_eq_ok.1 hl, ho⟩
  · rintro ⟨hs, hl, ho⟩
    exact ⟨_, mapError_eq_ok.2 hs, _, mapError_eq_ok.2 hl, _, ho, rfl⟩

/-- A model that can be linked and ordered can be so in every arrangement. -/
theorem Model.Rearranges.exists_plan {m m' : Model} (perm : m.Rearranges m') {p : Plan}
    (h : Plan.ofModel m = .ok p) : ∃ p', Plan.ofModel m' = .ok p' ∧ p.Alike p' := by
  obtain ⟨index, link, order⟩ := Plan.ofModel_eq_ok.1 h
  have distinct := Symbols.exists_ofModel_iff.1 ⟨_, index⟩
  obtain ⟨s', index'⟩ := Symbols.exists_ofModel_iff.2 (perm.distinct distinct)
  have alike := (Symbols.lists_of_ofModel index).alike (Symbols.lists_of_ofModel index') perm
  obtain ⟨l', link'⟩ := perm.exists_link alike link
  have linked := linked_of_link index link
  have linked' := linked_of_link index' link'
  have perm' := perm.link alike linked linked' link link'
  -- a cycle of the rearranged model would be one of the model
  have acyclic := (Order.exists_order_iff_acyclic index link).1.1 ⟨_, order⟩
  obtain ⟨o', order'⟩ := (Order.exists_order_iff_acyclic index' link').1.2 fun output loop =>
    acyclic output (TransGen.mono (fun _ _ => perm'.symm.dependsOn alike.symm) _ _ loop)
  refine ⟨⟨l', s', o'⟩, Plan.ofModel_eq_ok.2 ⟨index', link', order'⟩, perm', alike, ?_⟩
  intro output
  rw [Plan.dependenciesOf, Plan.dependenciesOf, Order.dependencies_of_ofModel linked' order',
    Order.dependencies_of_ofModel linked order, perm'.needs alike linked linked']

end Forecast

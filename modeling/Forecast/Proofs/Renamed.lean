import Forecast.Proofs.Plan
import Forecast.Proofs.Rearranged
import Forecast.Proofs.Related

/-!
# Renamed models

Names are only compared with each other. So a renaming that keeps names apart
changes nothing of how a model is linked and ordered but the names: the renamed
model has a plan if the model has one, which is that plan renamed.
-/

namespace Forecast

open Outcome

variable {f : String → String}

/-! ## Renaming -/

def Entries.renamed {α β : Type} (f : String → String) (g : α → β) (t : Entries α) : Entries β :=
  t.map fun e => (f e.1, g e.2)

def Argument.renamed (f : String → String) : Argument → Argument
  | .reference name field _ spreadOf =>
    .reference (f name) field (f name ++ "." ++ field) (spreadOf.map f)
  | .spread object field _ => .spread (f object) field ("..." ++ f object ++ "." ++ field)
  | .number value raw => .number value raw
  | .word text => .word text

def Definition.renamed (f : String → String) (d : Definition) : Definition :=
  { d with
    name := f d.name
    arguments := d.arguments.map (·.renamed f)
    outputs := d.outputs.map f
    inline := d.inline.renamed f id }

def Model.renamed (f : String → String) (m : Model) : Model where
  sections := m.sections.map fun s => { s with definitions := s.definitions.map (·.renamed f) }
  definitions := m.definitions.map (·.renamed f)
  metadata := m.metadata

def Symbols.renamed (f : String → String) (s : Symbols) : Symbols where
  objects := s.objects.renamed f (·.renamed f)
  outputs := s.outputs.renamed f fun o => ⟨o.definition.renamed f, o.synthetic⟩
  outputsByObject := s.outputsByObject.renamed f (·.map f)

def Order.renamed (f : String → String) (o : Order) : Order where
  nodes := o.nodes.map f
  order := o.order.map f
  dependencies := o.dependencies.renamed f (·.map f)
  dependents := o.dependents.renamed f (·.map f)
  owners := o.owners.renamed f f

def Plan.renamed (f : String → String) (p : Plan) : Plan :=
  ⟨p.model.renamed f, p.symbols.renamed f, p.order.renamed f⟩

namespace Entries

variable {α β γ : Type} {g : α → β} {t : Entries α}

@[simp] theorem keys_renamed (f : String → String) (g : α → β) (t : Entries α) :
    (t.renamed f g).keys = t.keys.map f := by
  simp [renamed, keys, Function.comp_def]

theorem lookup_renamed (injective : f.Injective) (g : α → β) (t : Entries α) (key : String) :
    (t.renamed f g).lookup (f key) = (t.lookup key).map g := by
  induction t with
  | nil => rfl
  | cons e t ih =>
    obtain ⟨k, v⟩ := e
    have same : (f key == f k) = (key == k) := by
      rw [Bool.eq_iff_iff, beq_iff_eq, beq_iff_eq, injective.eq_iff]
    simp only [renamed, List.map_cons, List.lookup_cons, same] at ih ⊢
    cases key == k <;> simp [ih]

theorem has_renamed (injective : f.Injective) (g : α → β) (t : Entries α) (key : String) :
    (t.renamed f g).has (f key) = t.has key := by
  rw [has, has, lookup_renamed injective, Option.isSome_map]

theorem renamed_put (injective : f.Injective) (g : α → β) (key : String) (value : α)
    (t : Entries α) :
    (t.put key value).renamed f g = (t.renamed f g).put (f key) (g value) := by
  induction t with
  | nil => rfl
  | cons e t ih =>
    obtain ⟨k, v⟩ := e
    unfold renamed at ih ⊢
    simp only [put, List.map_cons, injective.eq_iff]
    split <;> simp [ih]

theorem renamed_ofList (injective : f.Injective) (g : α → β) (entries : List (String × α)) :
    (ofList entries).renamed f g = ofList (renamed f g entries) := by
  suffices steps : ∀ t : Entries α, (entries.foldl (fun t e => put e.1 e.2 t) t).renamed f g =
      (renamed f g entries).foldl (fun t e => put e.1 e.2 t) (t.renamed f g) from steps []
  induction entries with
  | nil => exact fun _ => rfl
  | cons e entries ih =>
    intro t
    rw [List.foldl_cons, ih, renamed_put injective]
    rfl

/-- The lists of a renamed table of names. -/
theorem getD_lookup_renamed (injective : f.Injective) (t : Entries (List String)) (key : String) :
    ((t.renamed f (List.map f)).lookup (f key)).getD [] = ((t.lookup key).getD []).map f := by
  rw [lookup_renamed injective]
  cases t.lookup key <;> rfl

theorem map_pair_renamed {h : String → α} {h' : String → β} (same : ∀ key, h' (f key) = g (h key))
    (keys : List String) :
    ((keys.map f).map fun key => (key, h' key)) = renamed f g (keys.map fun key =>
      (key, h key)) := by
  rw [renamed, List.map_map, List.map_map]
  exact List.map_congr_left fun key _ => by simp only [Function.comp_apply, same]

end Entries

/-! ## Symbols -/

namespace Definition

variable {d : Definition}

@[simp] theorem name_renamed : (d.renamed f).name = f d.name := rfl

@[simp] theorem outputs_renamed : (d.renamed f).outputs = d.outputs.map f := rfl

@[simp] theorem arguments_renamed : (d.renamed f).arguments = d.arguments.map (·.renamed f) := rfl

@[simp] theorem outputNames_renamed : (d.renamed f).outputNames = d.outputNames.map f := by
  unfold outputNames
  cases h : d.outputs <;> simp [h]

theorem isSpread_renamed (a : Argument) : (a.renamed f).isSpread = a.isSpread := by
  cases a with
  | reference name field raw spreadOf => exact Option.isSome_map ..
  | spread object field raw => rfl
  | number value raw => rfl
  | word text => rfl

theorem hasSpread_renamed : (d.renamed f).hasSpread = d.hasSpread := by
  simp only [hasSpread, arguments_renamed, List.any_map, Function.comp_def, isSpread_renamed]

/-- Which argument feeds which output does not depend on names. -/
theorem feeds_renamed (d : Definition) (outputs : Nat) :
    Related Eq (d.feeds outputs) ((d.renamed f).feeds outputs) := by
  simp only [feeds, hasSpread_renamed, arguments_renamed, List.length_map]
  exact .ite Iff.rfl (fun _ => .error _ _) fun _ => .ok rfl

end Definition

namespace Symbols

variable {m : Model} {s s' : Symbols}

theorem distinct_renamed (injective : f.Injective) : Distinct (m.renamed f) ↔ Distinct m := by
  have objects : (m.renamed f).definitions.map (·.name) = (m.definitions.map (·.name)).map f := by
    simp [Model.renamed, Function.comp_def]
  have outputs : (m.renamed f).definitions.flatMap (·.outputNames) =
      (m.definitions.flatMap (·.outputNames)).map f := by
    simp [Model.renamed, List.flatMap_map, List.map_flatMap]
  have shared : (∀ d ∈ (m.renamed f).definitions, ∀ e ∈ (m.renamed f).definitions,
      e.name ∈ d.outputNames → e.name = d.name) ↔
      ∀ d ∈ m.definitions, ∀ e ∈ m.definitions, e.name ∈ d.outputNames → e.name = d.name := by
    simp only [Model.renamed, List.forall_mem_map, Definition.name_renamed,
      Definition.outputNames_renamed, List.mem_map_of_injective injective, injective.eq_iff]
  constructor
  · intro distinct
    exact
      { objects := (List.nodup_map_iff injective).1 (objects ▸ distinct.objects)
        outputs := (List.nodup_map_iff injective).1 (outputs ▸ distinct.outputs)
        shared := shared.1 distinct.shared }
  · intro distinct
    exact
      { objects := objects ▸ (List.nodup_map_iff injective).2 distinct.objects
        outputs := outputs ▸ (List.nodup_map_iff injective).2 distinct.outputs
        shared := shared.2 distinct.shared }

theorem owned_renamed (d : Definition) :
    owned (d.renamed f) = (owned d).renamed f fun o => ⟨o.definition.renamed f, o.synthetic⟩ := by
  simp [owned, Entries.renamed, Function.comp_def]

/-- The symbols of a renamed model are determined by those of the model. -/
theorem Lists.eq_renamed (lists : s.Lists m) (lists' : s'.Lists (m.renamed f)) :
    s' = s.renamed f := by
  have objects : s'.objects = (s.renamed f).objects := by
    rw [lists'.objects, renamed, lists.objects]
    simp [Model.renamed, Entries.renamed, Function.comp_def]
  have outputs : s'.outputs = (s.renamed f).outputs := by
    rw [lists'.outputs, renamed, lists.outputs]
    simp only [Model.renamed, Entries.renamed, List.map_flatMap, List.flatMap_map, owned_renamed]
  have outputsByObject : s'.outputsByObject = (s.renamed f).outputsByObject := by
    rw [lists'.outputsByObject, renamed, lists.outputsByObject]
    simp [Model.renamed, Entries.renamed, Function.comp_def]
  cases s'
  cases objects
  cases outputs
  cases outputsByObject
  rfl

theorem ofModel_renamed (injective : f.Injective) (m : Model) :
    Related (fun s s' => s' = s.renamed f) (ofModel m) (ofModel (m.renamed f)) := by
  cases index : ofModel m with
  | ok s =>
    have distinct := (distinct_renamed injective).2 (exists_ofModel_iff.1 ⟨s, index⟩)
    obtain ⟨s', index'⟩ := exists_ofModel_iff.2 distinct
    rw [index']
    exact .ok ((lists_of_ofModel index).eq_renamed (lists_of_ofModel index'))
  | error fault =>
    cases index' : ofModel (m.renamed f) with
    | ok s' =>
      have distinct := (distinct_renamed injective).1 (exists_ofModel_iff.1 ⟨s', index'⟩)
      obtain ⟨s, index''⟩ := exists_ofModel_iff.2 distinct
      rw [index] at index''
      cases index''
    | error fault' => exact .error _ _

theorem objects_has_renamed (injective : f.Injective) (s : Symbols) (name : String) :
    (s.renamed f).objects.has (f name) = s.objects.has name := by
  simp only [renamed, Entries.has_renamed injective]

theorem outputs_has_renamed (injective : f.Injective) (s : Symbols) (name : String) :
    (s.renamed f).outputs.has (f name) = s.outputs.has name := by
  simp only [renamed, Entries.has_renamed injective]

theorem has_renamed (injective : f.Injective) (s : Symbols) (name : String) :
    (s.renamed f).has (f name) = s.has name := by
  rw [has, has, s.objects_has_renamed injective, s.outputs_has_renamed injective]

theorem lookup_objects_renamed (injective : f.Injective) (s : Symbols) (name : String) :
    (s.renamed f).objects.lookup (f name) = (s.objects.lookup name).map (Definition.renamed f) := by
  simp only [renamed, Entries.lookup_renamed injective]

theorem outputsOf_renamed (injective : f.Injective) (s : Symbols) (object : String) :
    (s.renamed f).outputsOf (f object) = (s.outputsOf object).map f := by
  simp only [outputsOf, renamed, Entries.lookup_renamed injective]
  cases s.outputsByObject.lookup object <;> rfl

theorem ownerOf?_renamed (injective : f.Injective) (s : Symbols) (output : String) :
    (s.renamed f).ownerOf? (f output) = (s.ownerOf? output).map f := by
  simp only [ownerOf?, renamed, Entries.lookup_renamed injective]
  cases s.outputs.lookup output <;> rfl

theorem producers_renamed (injective : f.Injective) (s : Symbols) (a : Argument) :
    (s.renamed f).producers (a.renamed f) = (s.producers a).map f := by
  cases a with
  | reference name field raw spreadOf =>
    simp only [Argument.renamed, producers, outputs_has_renamed injective,
      outputsOf_renamed injective]
    split <;> simp
  | spread object field raw => rfl
  | number value raw => rfl
  | word text => rfl

end Symbols

/-! ## Linking -/

namespace Symbols

theorem expand_renamed (injective : f.Injective) (s : Symbols) (d : Definition) (a : Argument) :
    Related (fun as as' => as' = as.map (·.renamed f)) (s.expand d a)
      ((s.renamed f).expand (d.renamed f) (a.renamed f)) := by
  cases a with
  | reference name field raw spreadOf =>
    simp only [Argument.renamed, expand, has_renamed injective]
    exact .ite Iff.rfl (fun _ => .ok rfl) fun _ => .error _ _
  | spread object field raw =>
    simp only [Argument.renamed, expand, lookup_objects_renamed injective]
    cases s.objects.lookup object with
    | none => exact .error _ _
    | some target =>
      simp only [Option.map_some, Definition.outputs_renamed, List.isEmpty_map]
      refine .ite Iff.rfl (fun _ => .error _ _) fun _ => .ok ?_
      rw [List.map_map, List.map_map]
      rfl
  | number value raw => exact .ok rfl
  | word text => exact .ok rfl

theorem linkDefinition_renamed (injective : f.Injective) (s : Symbols) (d : Definition) :
    Related (fun l l' => l' = l.renamed f) (s.linkDefinition d)
      ((s.renamed f).linkDefinition (d.renamed f)) := by
  refine (Related.mapM_image (Argument.renamed f) (List.map (Argument.renamed f)) fun a _ =>
    s.expand_renamed injective d a).bind ?_
  rintro expanded _ rfl
  have linked : ({ d.renamed f with
      arguments := (expanded.map (·.map (Argument.renamed f))).flatten } : Definition) =
      ({ d with arguments := expanded.flatten } : Definition).renamed f := by
    simp [Definition.renamed, List.map_flatten]
  rw [linked, Definition.name_renamed, s.outputsOf_renamed injective, List.length_map]
  exact (Definition.feeds_renamed _ _).bind fun _ _ _ => .ok rfl

end Symbols

theorem Model.find?_renamed (injective : f.Injective) (m : Model) (name : String) :
    (m.renamed f).find? (f name) = (m.find? name).map (Definition.renamed f) := by
  simp only [find?, renamed, List.find?_map, Function.comp_def, Definition.name_renamed,
    Bool.beq_eq_decide_eq, injective.eq_iff]

theorem Model.link_renamed (injective : f.Injective) (m : Model) (s : Symbols) :
    Related (fun l l' => l' = l.renamed f) (m.link s) ((m.renamed f).link (s.renamed f)) := by
  refine (Related.mapM_image (Definition.renamed f) (Definition.renamed f) fun d _ =>
    s.linkDefinition_renamed injective d).bind ?_
  rintro linked _ rfl
  refine .ok ?_
  simp [renamed, List.filter_map, Function.comp_def, Definition.renamed]

/-! ## Order -/

theorem eraseDups_map (injective : f.Injective) (l : List String) :
    (l.map f).eraseDups = l.eraseDups.map f := by
  match l with
  | [] => rfl
  | a :: l =>
    have rest : (l.map f).filter (fun b => !b == f a) = (l.filter fun b => !b == a).map f := by
      rw [List.filter_map]
      congr 1
      exact List.filter_congr fun b _ => by simp [injective.eq_iff]
    rw [List.map_cons, List.eraseDups_cons, List.eraseDups_cons, rest, eraseDups_map injective]
    rfl
termination_by l.length
decreasing_by
  have := List.length_filter_le (fun b => !b == a) l
  simp only [List.length_cons]
  omega

namespace Order

theorem dependenciesOf_renamed (injective : f.Injective) (s : Symbols) (d : Definition) :
    Related (fun t t' => t' = t.renamed f (List.map f)) (dependenciesOf s d)
      (dependenciesOf (s.renamed f) (d.renamed f)) := by
  have needs (feed : List Nat) :
      (feed.flatMap fun i => ((d.renamed f).arguments[i]?.map (s.renamed f).producers).getD []) =
        (feed.flatMap fun i => (d.arguments[i]?.map s.producers).getD []).map f := by
    rw [List.map_flatMap]
    congr 1
    funext i
    rw [Definition.arguments_renamed, List.getElem?_map]
    cases d.arguments[i]? with
    | none => rfl
    | some a => exact s.producers_renamed injective a
  simp only [dependenciesOf, Definition.name_renamed, s.outputsOf_renamed injective,
    List.length_map]
  refine (d.feeds_renamed _).bind ?_
  rintro positions _ rfl
  refine .ok ?_
  simp only [List.zip_map_left, List.map_map, Entries.renamed, Function.comp_def, Prod.map, needs,
    eraseDups_map injective, id]

theorem dependentsOf_renamed (injective : f.Injective) (nodes : List String)
    (dependencies : Entries (List String)) :
    dependentsOf (nodes.map f) (dependencies.renamed f (List.map f)) =
      (dependentsOf nodes dependencies).renamed f (List.map f) := by
  refine Entries.map_pair_renamed (fun n => ?_) nodes
  rw [List.filter_map]
  congr 1
  refine List.filter_congr fun m _ => ?_
  rw [Function.comp_apply, Entries.getD_lookup_renamed injective, Bool.eq_iff_iff,
    List.contains_iff_mem, List.contains_iff_mem, List.mem_map_of_injective injective]

theorem partition_renamed (waiting : Waiting) :
    (waiting.renamed f (List.map f)).partition (fun w => w.2.isEmpty) =
      (Entries.renamed f (List.map f) (waiting.partition fun w => w.2.isEmpty).1,
        Entries.renamed f (List.map f) (waiting.partition fun w => w.2.isEmpty).2) := by
  simp only [List.partition_eq_filter_filter, Entries.renamed, List.filter_map, Function.comp_def,
    List.isEmpty_map]

theorem release_renamed (injective : f.Injective) (node : String) (waiting : Waiting) :
    release (f node) (waiting.renamed f (List.map f)) =
      ((release node waiting).1.map f, (release node waiting).2.renamed f (List.map f)) := by
  have erased : (waiting.renamed f (List.map f)).mapValues (·.erase (f node)) =
      (waiting.mapValues (·.erase node)).renamed f (List.map f) := by
    simp only [Entries.mapValues, Entries.renamed, List.map_map, Function.comp_def,
      List.map_erase injective]
  simp only [release, erased, partition_renamed, Entries.keys_renamed]

theorem settle_renamed (injective : f.Injective) (queue : List String) (waiting : Waiting)
    (done : List String) :
    settle (queue.map f) (waiting.renamed f (List.map f)) (done.map f) =
      ((settle queue waiting done).1.map f, (settle queue waiting done).2.renamed f
        (List.map f)) := by
  induction queue, waiting, done using settle.induct with
  | case1 waiting done => simp only [settle, List.map_nil]
  | case2 waiting done node rest ih =>
    rw [List.map_cons, settle, settle, release_renamed injective, ← List.map_append, ← ih]
    rfl

theorem ofModel_renamed (injective : f.Injective) (m : Model) (s : Symbols) :
    Related (fun o o' => o' = o.renamed f) (ofModel m s) (ofModel (m.renamed f) (s.renamed f)) := by
  have nodes : (s.renamed f).outputOrder = s.outputOrder.map f := by
    simp only [Symbols.outputOrder, Symbols.renamed, Entries.keys_renamed]
  refine ((Related.mapM_image (Definition.renamed f) _ fun d _ =>
    dependenciesOf_renamed injective s d).mapError).bind ?_
  rintro tables _ rfl
  have table : (tables.map (Entries.renamed f (List.map f))).flatten =
      Entries.renamed f (List.map f) tables.flatten := by
    unfold Entries.renamed
    exact List.map_flatten.symm
  have waiting : ((s.outputOrder.map f).map fun n =>
      (n, ((Entries.renamed f (List.map f) tables.flatten).lookup n).getD [])) =
      Entries.renamed f (List.map f) (s.outputOrder.map fun n =>
        (n, (tables.flatten.lookup n).getD [])) :=
    Entries.map_pair_renamed (Entries.getD_lookup_renamed injective tables.flatten) _
  have settled (queue : List String) (waiting : Waiting) :
      settle (queue.map f) (waiting.renamed f (List.map f)) [] =
        ((settle queue waiting []).1.map f,
          (settle queue waiting []).2.renamed f (List.map f)) :=
          settle_renamed injective queue waiting []
  simp only [nodes, table, waiting, partition_renamed, Entries.keys_renamed,
    dependentsOf_renamed injective, settled]
  refine .ite (by simp [Entries.renamed]) (fun _ => .ok ?_) fun _ => .error _ _
  simp [renamed, Symbols.renamed, Entries.renamed, Entries.mapValues, Function.comp_def]

end Order

/-! ## Plans -/

/-- A renamed model has the plan of the model, renamed. -/
theorem Plan.ofModel_renamed (injective : f.Injective) (m : Model) :
    Related (fun p p' => p' = p.renamed f) (Plan.ofModel m) (Plan.ofModel (m.renamed f)) := by
  refine ((Symbols.ofModel_renamed injective m).mapError).bind ?_
  rintro s _ rfl
  refine ((m.link_renamed injective s).mapError).bind ?_
  rintro l _ rfl
  refine (Order.ofModel_renamed injective l s).bind ?_
  rintro o _ rfl
  exact .ok rfl

end Forecast

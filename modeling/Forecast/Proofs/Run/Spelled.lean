import Forecast.Proofs.Plan
import Forecast.Proofs.Spelled

/-!
# Running a model with its spreads spelled out

Where a reference comes from matters for linking only. Models that differ in
nothing but such marks are ordered alike, get the same assumptions, and run to
the same store or the same fault.
-/

namespace Forecast

open Outcome

/-- Linked models that differ in nothing but the marks of references. -/
structure Unmarks (l l' : Model) (s s' : Symbols) : Prop where
  linked : Linked l s
  linked' : Linked l' s'
  definitions : l'.definitions = l.definitions.map (·.unmarked)
  names : s.SameNames s'

namespace Unmarks

variable {l l' : Model} {s s' : Symbols} {d : Definition} {output : String}

section

variable (names : s.SameNames s')
include names

theorem producers_unmarked (a : Argument) : s'.producers a.unmarked = s.producers a := by
  cases a <;> simp only [Argument.unmarked, Symbols.producers, names.outputs_has, names.outputsOf]

theorem needsAt_unmarked (d : Definition) (feed : List Nat) :
    Order.needsAt s' d.unmarked feed = Order.needsAt s d feed := by
  have same : s'.producers ∘ Argument.unmarked = s.producers := funext (producers_unmarked names)
  simp only [Order.needsAt, Definition.unmarked, List.getElem?_map, Option.map_map, same]

theorem needsOf_unmarked (d : Definition) : Order.needsOf s' d.unmarked = Order.needsOf s d := by
  have table : d.unmarked.feedTable = d.feedTable := by
    simp [Definition.feedTable, Definition.unmarked, Definition.outputNames]
  rw [Order.needsOf, Order.needsOf, table, funext (needsAt_unmarked names d)]

theorem input_unmarked (store : Store) (d : Definition) (months : Nat) (i : Int) (a : Argument) :
    store.input s' d.unmarked output months i a.unmarked = store.input s d output months i a := by
  cases a <;> simp only [Argument.unmarked, Store.input, names.outputs_has, names.objects_has,
    names.outputsOf] <;> rfl

theorem inputs_unmarked (store : Store) (d : Definition) (months : Nat) (positions : List Int) :
    store.inputs s' d.unmarked output months positions =
      store.inputs s d output months positions := by
  have argument : ∀ i, Store.argumentAt? d.unmarked i =
      (Store.argumentAt? d i).map Argument.unmarked := by
    intro i
    simp only [Store.argumentAt?, Definition.unmarked, List.getElem?_map, List.length_map]
    split
    · rfl
    · split <;> rfl
  simp only [Store.inputs, argument]
  congr 1
  funext i
  cases Store.argumentAt? d i with
  | none => rfl
  | some a => exact input_unmarked names store d months i a

end

variable (unmarks : Unmarks l l' s s')
include unmarks

theorem mem (hd : d ∈ l.definitions) : d.unmarked ∈ l'.definitions := by
  rw [unmarks.definitions]
  exact List.mem_map_of_mem hd

theorem order : Order.ofModel l' s' = Order.ofModel l s := by
  have needs : l'.definitions.map (Order.needsOf s') = l.definitions.map (Order.needsOf s) := by
    rw [unmarks.definitions, List.map_map]
    exact List.map_congr_left fun d _ => needsOf_unmarked unmarks.names d
  rw [Order.ofModel, Order.ofModel, Order.mapM_dependenciesOf unmarks.linked,
    Order.mapM_dependenciesOf unmarks.linked', needs, unmarks.names.outputOrder,
    unmarks.names.owners]

theorem assumptions (schema : Schema) (months : Nat) :
    Assumptions.ofModel l' s' schema months = Assumptions.ofModel l s schema months := by
  have each : ∀ d : Definition, Assumptions.ofDefinition schema s' months d.unmarked =
      Assumptions.ofDefinition schema s months d := by
    intro d
    simp only [Assumptions.ofDefinition, unmarks.names.outputsByObject]
    rfl
  simp only [Assumptions.ofModel, unmarks.definitions, List.mapM_map, Function.comp_def, each]

theorem feedOf (hd : d ∈ l.definitions) (output : String) :
    Run.feedOf s' d.unmarked output = Run.feedOf s d output := by
  have length : d.unmarked.arguments.length = d.arguments.length := List.length_map _
  rw [Run.feedOf, Run.feedOf, unmarks.linked.outputsOf hd,
    unmarks.linked'.outputsOf (unmarks.mem hd),
    unmarks.linked.routed d hd, unmarks.linked'.routed _ (unmarks.mem hd), length]
  rfl

theorem gather (hd : d ∈ l.definitions) (months : Nat) (store : Store) (output : String) :
    Run.gather s' d.unmarked months store output = Run.gather s d months store output := by
  simp only [Run.gather, unmarks.feedOf hd, inputs_unmarked unmarks.names]

theorem compute (c : Conditions) (store : Store) (output : String) :
    Run.compute l' s' c store output = Run.compute l s c store output := by
  have find : ∀ object, l'.find? object = (l.find? object).map (·.unmarked) := by
    intro object
    rw [Model.find?, unmarks.definitions, List.find?_map]
    rfl
  simp only [Run.compute, unmarks.names.ownerOf?, find]
  cases found : l.find? ((s.ownerOf? output).getD output) with
  | none => rfl
  | some d =>
    have hd : d ∈ l.definitions := List.mem_of_find?_eq_some found
    simp only [Option.map_some, unmarks.gather hd]
    rfl

theorem execute (order : Order) (c : Conditions) :
    Run.execute ⟨l', s', order⟩ c = Run.execute ⟨l, s, order⟩ c := by
  have step : Run.step l' s' c = Run.step l s c := by
    funext r output
    simp only [Run.step, unmarks.compute]
  simp only [Run.execute, step, unmarks.names.outputsByObject]

end Unmarks

/-- A spread is only shorthand: spelled out, a model that was read links unless it did not before or
a definition loses the spread that allowed its arguments; and then it is ordered and runs alike. -/
theorem Model.spelledOut_equivalent {text : String} {m : Model}
    (read : Model.ofSource text = .ok m) :
    (¬m.spelledOut.Links ↔ ¬m.Links ∨ ∃ d ∈ m.definitions, m.Overflows d) ∧
    ∀ s l s' l', Symbols.ofModel m = .ok s → m.link s = .ok l →
      Symbols.ofModel m.spelledOut = .ok s' → m.spelledOut.link s' = .ok l' →
      Order.ofModel l' s' = Order.ofModel l s ∧
      (∀ schema months, Assumptions.ofModel l' s' schema months =
        Assumptions.ofModel l s schema months) ∧
      ∀ order c, Run.execute ⟨l', s', order⟩ c = Run.execute ⟨l, s, order⟩ c := by
  have fresh := Model.fresh_of_ofSource read
  refine ⟨?_, ?_⟩
  · rw [Model.links_spelledOut fresh, not_and_or]
    simp only [not_forall, not_not, exists_prop]
  · intro s l s' l' index link index' link'
    have unmarks : Unmarks l l' s s' :=
      { linked := linked_of_link index link
        linked' := linked_of_link index' link'
        definitions := Model.definitions_of_spelledOut fresh index link link'
        names := (Symbols.lists_of_ofModel index).sameNames (Symbols.lists_of_ofModel index') }
    exact ⟨unmarks.order, unmarks.assumptions, unmarks.execute⟩

/-- An object that takes one output of another each, and one that takes both and a number. -/
def spreadTwice : String :=
  "S:\nA = Quant() => a, b\nB = Sum(...A.val) => c, d\nC = Sum(...A.val, 2)"

theorem spelledOut_spreadTwice : ∃ m s l s' l', Model.ofSource spreadTwice = .ok m ∧
    (m.spelledOut.definitions.map fun d => d.arguments.length) = [0, 2, 3] ∧
    (Symbols.ofModel m = .ok s ∧ m.link s = .ok l) ∧
    (Symbols.ofModel m.spelledOut = .ok s' ∧ m.spelledOut.link s' = .ok l') ∧
    Order.ofModel l' s' = Order.ofModel l s ∧
    ∀ order c, Run.execute ⟨l', s', order⟩ c = Run.execute ⟨l, s, order⟩ c := by
  have shape : (Model.ofSource spreadTwice).toOption.map (fun m =>
      (m.spelledOut.definitions.map fun d => d.arguments.length,
        decide (m.Links ∧ m.spelledOut.Links))) =
      some ([0, 2, 3], true) := by decide +kernel
  obtain ⟨m, read, same⟩ := exists_of_toOption_map shape
  obtain ⟨lengths, links⟩ := Prod.mk.inj same
  obtain ⟨⟨s, l, index, link⟩, s', l', index', link'⟩ := of_decide_eq_true links
  obtain ⟨order, -, execute⟩ :=
    (Model.spelledOut_equivalent read).2 s l s' l' index link index' link'
  exact ⟨m, s, l, s', l', read, lengths, ⟨index, link⟩, ⟨index', link'⟩, order, execute⟩

end Forecast

import Forecast.Proofs.Names
import Forecast.Proofs.Order.Acyclic
import Forecast.Run

/-!
# Plans

The plan of a text holds a linked model whose objects and outputs bear names,
and an order that sorts it. Every output of the order belongs to one definition
of the model, some of whose arguments feed it.
-/

namespace Forecast

open Outcome

/-- Computing an output is gathering its inputs and answering them. -/
theorem Linked.compute_eq {m : Model} {s : Symbols} {d : Definition} {output : String}
    (linked : Linked m s) (hd : d ∈ m.definitions) (mem : output ∈ d.outputNames) (c : Conditions)
    (store : Store) :
    Run.compute m s c store output =
      Run.gather s d c.months store output >>= Run.answer c d output := by
  simp only [Run.compute, linked.owner d hd output mem, Option.getD_some, linked.find hd]

def Plan.dependenciesOf (p : Plan) (output : String) : List String :=
  (p.order.dependencies.lookup output).getD []

structure Plan.Sound (p : Plan) : Prop where
  linked : Linked p.model p.symbols
  named : p.model.Named
  sorts : p.order.Sorts p.model p.symbols

theorem Plan.ofModel_ok {m : Model} {p : Plan} (h : Plan.ofModel m = .ok p) :
    m.link p.symbols = .ok p.model ∧ Linked p.model p.symbols ∧
      p.order.Sorts p.model p.symbols := by
  simp only [Plan.ofModel, bind_eq_ok, pure_eq_ok] at h
  obtain ⟨s, hs, linkedModel, hm, o, ho, rfl⟩ := h
  have index : Symbols.ofModel m = .ok s := mapError_eq_ok.1 hs
  have link : m.link s = .ok linkedModel := mapError_eq_ok.1 hm
  have linked := linked_of_link index link
  exact ⟨link, linked, Order.sorts_of_ofModel linked ho⟩

theorem Plan.sound_of_ofModel {m : Model} {p : Plan} (named : m.Named)
    (h : Plan.ofModel m = .ok p) : p.Sound := by
  obtain ⟨link, linked, sorts⟩ := Plan.ofModel_ok h
  exact
    { linked := linked
      named := Model.named_of_link link named
      sorts := sorts }

theorem Plan.exists_model {text : String} {p : Plan} (h : Plan.ofSource text = .ok p) :
    ∃ m : Model, m.Named ∧ Plan.ofModel m = .ok p := by
  simp only [Plan.ofSource, bind_eq_ok] at h
  obtain ⟨m, hm, planned⟩ := h
  exact ⟨m, Model.named_of_ofSource (mapError_eq_ok.1 hm), planned⟩

theorem Plan.sound_of_ofSource {text : String} {p : Plan} (h : Plan.ofSource text = .ok p) :
    p.Sound := by
  obtain ⟨m, named, planned⟩ := Plan.exists_model h
  exact sound_of_ofModel named planned

namespace Plan.Sound

variable {p : Plan} {d : Definition} {output producer : String} {feed : List Nat}

theorem mem_order (sound : p.Sound) : output ∈ p.order.order ↔ output ∈ p.symbols.outputOrder :=
  sound.sorts.complete.mem_iff

theorem isName (sound : p.Sound) (h : output ∈ p.order.order) : IsName output :=
  sound.linked.isName sound.named (sound.mem_order.1 h)

theorem exists_definition {object : String × List String} (sound : p.Sound)
    (h : object ∈ p.symbols.outputsByObject) :
    ∃ d ∈ p.model.definitions, object = (d.name, d.outputNames) := by
  rw [sound.linked.outputsByObject] at h
  obtain ⟨d, hd, rfl⟩ := List.mem_map.1 h
  exact ⟨d, hd, rfl⟩

theorem mem_outputsByObject {d : Definition} (sound : p.Sound) (hd : d ∈ p.model.definitions) :
    (d.name, d.outputNames) ∈ p.symbols.outputsByObject := by
  rw [sound.linked.outputsByObject]
  exact List.mem_map.2 ⟨d, hd, rfl⟩

theorem exists_named {name : String} (sound : p.Sound) (h : p.symbols.objects.has name = true) :
    ∃ d ∈ p.model.definitions, d.name = name := by
  rw [Entries.has_iff, sound.linked.objects] at h
  exact List.mem_map.1 h

theorem ordered (sound : p.Sound) (hd : d ∈ p.model.definitions) (h : output ∈ d.outputNames) :
    output ∈ p.order.order :=
  sound.mem_order.2 (sound.linked.mem_outputOrder hd h)

theorem mem_order_of_object {object : String × List String} (sound : p.Sound)
    (h : object ∈ p.symbols.outputsByObject) (mem : output ∈ object.2) :
    output ∈ p.order.order := by
  obtain ⟨d, hd, rfl⟩ := sound.exists_definition h
  exact sound.ordered hd mem

theorem exists_feed (sound : p.Sound) (h : output ∈ p.order.order) :
    ∃ d ∈ p.model.definitions, ∃ feed, (output, feed) ∈ d.feedTable := by
  obtain ⟨d, hd, mem⟩ := sound.linked.exists_owner (sound.mem_order.1 h)
  obtain ⟨feed, hfeed⟩ := Definition.exists_feed mem
  exact ⟨d, hd, feed, hfeed⟩

/-- The order records what the arguments that feed an output denote. -/
theorem mem_dependencies (sound : p.Sound) (hd : d ∈ p.model.definitions)
    (h : (output, feed) ∈ d.feedTable) :
    producer ∈ p.dependenciesOf output ↔ producer ∈ Order.needsAt p.symbols d feed := by
  rw [Plan.dependenciesOf, sound.sorts.dependencies, ← Order.mem_needs sound.linked,
    Order.needs_eq sound.linked hd h]

theorem mem_order_of_dependency (sound : p.Sound) (h : producer ∈ p.dependenciesOf output) :
    producer ∈ p.order.order :=
  sound.mem_order.2 (sound.linked.mem_outputOrder_of_dependsOn ((sound.sorts.dependencies _ _).1 h))

theorem owner (sound : p.Sound) (hd : d ∈ p.model.definitions) (h : (output, feed) ∈ d.feedTable) :
    p.symbols.ownerOf? output = some d.name := by
  apply sound.linked.owner d hd
  rw [← d.keys_feedTable]
  exact List.mem_map_of_mem h

/-- What holds of an output as soon as it holds of all that the output depends on holds of every
output. -/
theorem induction (sound : p.Sound) {P : String → Prop}
    (step : ∀ output ∈ p.order.order, (∀ producer ∈ p.dependenciesOf output, P producer) →
      P output) :
    ∀ output ∈ p.order.order, P output := by
  suffices prefixes : ∀ before after, p.order.order = before ++ after → ∀ o ∈ before, P o from
    prefixes _ [] (List.append_nil _).symm
  intro before
  induction before using List.reverseRecOn with
  | nil => simp
  | append_singleton before output ih =>
    intro after cut o ho
    have cut' : p.order.order = before ++ output :: after := by simp [cut]
    have earlier := ih _ cut'
    rcases List.mem_append.1 ho with ho | ho
    · exact earlier o ho
    · cases List.mem_singleton.1 ho
      refine step output (by simp [cut']) fun producer needed => earlier producer ?_
      exact sound.sorts.behind before output after cut' producer needed

theorem compute_eq (sound : p.Sound) (hd : d ∈ p.model.definitions)
    (h : (output, feed) ∈ d.feedTable) (c : Conditions) (store : Store) :
    Run.compute p.model p.symbols c store output =
      Run.gather p.symbols d c.months store output >>= Run.answer c d output := by
  apply sound.linked.compute_eq hd
  rw [← d.keys_feedTable]
  exact List.mem_map_of_mem h

end Plan.Sound
end Forecast

import Forecast.Model.Source
import Forecast.Proofs.Linking
import Forecast.Proofs.Text.Word
import Forecast.Run.Inputs
import Mathlib.Data.List.TakeDrop

/-!
# Names

Every definition of a model that was read stems from a draft, so its name and
the names of its outputs consist of name characters. A point is none of these:
the key of a channel in a store tells the owner and the channel apart.
-/

namespace Forecast

open Outcome

/-- An owner without a point ends at the first point of a key. -/
theorem PointFree.storeKey_inj {owner owner' channel channel' : String} (h : PointFree owner)
    (h' : PointFree owner') (same : storeKey owner channel = storeKey owner' channel') :
    owner = owner' ∧ channel = channel' := by
  have chars : owner.toList ++ '.' :: channel.toList = owner'.toList ++ '.' :: channel'.toList := by
    simpa [storeKey, String.toList_append] using congrArg String.toList same
  suffices split : ∀ xs ys us vs : List Char, '.' ∉ xs → '.' ∉ us →
      xs ++ '.' :: ys = us ++ '.' :: vs → xs = us ∧ ys = vs by
    obtain ⟨ho, hc⟩ := split _ _ _ _ h h' chars
    exact ⟨String.toList_inj.1 ho, String.toList_inj.1 hc⟩
  intro xs ys us vs hx hu eq
  induction xs generalizing us with
  | nil =>
    cases us with
    | nil => exact ⟨rfl, (List.cons.inj eq).2⟩
    | cons u us => exact absurd (List.cons.inj eq).1 (fun e => hu (e ▸ by simp))
  | cons x xs ih =>
    cases us with
    | nil => exact absurd (List.cons.inj eq).1.symm (fun e => hx (e ▸ by simp))
    | cons u us =>
      obtain ⟨rfl, tails⟩ := List.cons.inj eq
      simp only [List.mem_cons, not_or] at hx hu
      obtain ⟨rfl, rfl⟩ := ih us hx.2 hu.2 tails
      exact ⟨rfl, rfl⟩

theorem storeKey_inj {owner owner' channel channel' : String} (h : IsName owner)
    (h' : IsName owner') (same : storeKey owner channel = storeKey owner' channel') :
    owner = owner' ∧ channel = channel' :=
  h.point_notMem.storeKey_inj h'.point_notMem same

theorem isNameChar_of_mem_span {s : List Char} :
    ∀ c ∈ (s.span isNameChar).1, isNameChar c = true := by
  intro c hc
  rw [List.span_eq_takeWhile_dropWhile] at hc
  exact List.mem_takeWhile_imp hc

theorem isName_of_identifier? {s name rest : List Char} (h : identifier? s = some (name, rest)) :
    IsName (String.ofList name) := by
  intro c hc
  rw [String.toList_ofList] at hc
  cases s with
  | nil => cases h
  | cons a s =>
    simp only [identifier?] at h
    split at h
    · rename_i letter
      cases h
      rcases List.mem_cons.1 hc with rfl | hc
      · simp [isNameChar, Char.isAlphanum, letter]
      · exact isNameChar_of_mem_span c hc
    · cases h

theorem Header.isName_of_ofChars? {s : List Char} {h : Header}
    (found : Header.ofChars? s = some h) :
    IsName h.name := by
  simp only [Header.ofChars?, Option.bind_eq_bind, Option.bind_eq_some_iff] at found
  obtain ⟨⟨name, rest⟩, hname, found⟩ := found
  have named := isName_of_identifier? hname
  split at found
  · rw [Option.bind_eq_some_iff] at found
    obtain ⟨⟨kind, rest⟩, -, found⟩ := found
    split at found
    · rw [Option.bind_eq_some_iff] at found
      obtain ⟨⟨args, outputs⟩, -, found⟩ := found
      cases found
      exact named
    · cases found
  · cases found

theorem isName_of_outputToken? {token : List Char} {name : String} {inside : Option (List Char)}
    (h : outputToken? token = some (name, inside)) : IsName name := by
  have named : IsName (String.ofList (token.span isNameChar).1) := by
    intro c hc
    rw [String.toList_ofList] at hc
    exact isNameChar_of_mem_span c hc
  simp only [outputToken?] at h
  split at h
  · cases h
  · rename_i chars rest _ eq
    rw [eq] at named
    split at h
    · cases h
      exact named
    · split at h
      · cases h
        exact named
      · cases h
    · cases h

theorem Outputs.isName_of_ofChars {line : Nat} {s : List Char} {o : Outputs}
    (h : Outputs.ofChars line s = .ok o) : ∀ name ∈ o.names, IsName name := by
  refine foldlM_keeps (fun o : Outputs => ∀ name ∈ o.names, IsName name) ?_ h (by simp)
  intro token _ u v hu hv
  simp only [Outputs.add] at hv
  split at hv
  · cases hv
  · rename_i name inside found
    have named : ∀ name' ∈ u.names ++ [name], IsName name' := by
      intro name' mem
      rcases List.mem_append.1 mem with mem | mem
      · exact hu name' mem
      · cases List.mem_singleton.1 mem
        exact isName_of_outputToken? found
    split at hv
    · cases hv
      exact named
    · simp only [bind_eq_ok, pure_eq_ok] at hv
      obtain ⟨values, -, rfl⟩ := hv
      exact named

namespace Progress

/-- Every definition so far was read from a draft. -/
def FromDrafts (p : Progress) : Prop :=
  ∀ d ∈ p.definitions, ∃ sections draft, define sections draft = .ok d

theorem FromDrafts.close {p p' : Progress} (hp : p.FromDrafts) (h : p.close = .ok p') :
    p'.FromDrafts := by
  unfold Progress.close at h
  split at h
  · cases h
    exact hp
  · rename_i draft _
    simp only [bind_eq_ok, pure_eq_ok] at h
    obtain ⟨d, defined, rfl⟩ := h
    intro e he
    rcases List.mem_append.1 he with he | he
    · exact hp e he
    · cases List.mem_singleton.1 he
      exact ⟨_, _, defined⟩

theorem FromDrafts.code {p p' : Progress} {number : Nat} {line : List Char} (hp : p.FromDrafts)
    (h : p.code number line = .ok p') : p'.FromDrafts := by
  simp only [Progress.code] at h
  split at h
  · simp only [bind_eq_ok, pure_eq_ok] at h
    obtain ⟨closed, hclosed, rfl⟩ := h
    have drafts : closed.FromDrafts := hp.close hclosed
    exact drafts
  · split at h
    · cases h
    · cases h
      exact hp

theorem FromDrafts.body {p p' : Progress} {number : Nat} {line : List Char} (hp : p.FromDrafts)
    (h : p.body number line = .ok p') : p'.FromDrafts := by
  unfold Progress.body at h
  split at h
  · simp only [bind_eq_ok, pure_eq_ok] at h
    obtain ⟨closed, hclosed, rfl⟩ := h
    have drafts : closed.FromDrafts := hp.close hclosed
    exact drafts
  · split at h
    · cases h
      exact hp
    · exact hp.code h

theorem FromDrafts.step {p p' : Progress} {number : Nat} {raw : List Char} (hp : p.FromDrafts)
    (h : p.step number raw = .ok p') : p'.FromDrafts := by
  simp only [Progress.step] at h
  split at h
  · simp only [bind_eq_ok, pure_eq_ok] at h
    obtain ⟨closed, hclosed, rfl⟩ := h
    have drafts : closed.FromDrafts := hp.close hclosed
    exact drafts
  · split at h
    · split at h
      · cases h
        exact hp
      · split at h
        · split at h
          · cases h
            exact hp
          · exact hp.body h
        · have here : ({ p with inHeader := false } : Progress).FromDrafts := hp
          exact here.body h
    · exact hp.body h

theorem FromDrafts.steps {p p' : Progress} {number : Nat} {lines : List (List Char)}
    (hp : p.FromDrafts) (h : p.steps number lines = .ok p') : p'.FromDrafts := by
  induction lines generalizing p number with
  | nil =>
    cases h
    exact hp
  | cons line lines ih =>
    simp only [Progress.steps, bind_eq_ok] at h
    obtain ⟨next, hnext, h⟩ := h
    exact ih (hp.step hnext) h

end Progress

variable {text : String} {source m : Model} {s : Symbols}

theorem Model.exists_draft (h : Model.ofSource text = .ok source) {d : Definition}
    (hd : d ∈ source.definitions) : ∃ sections draft, Progress.define sections draft = .ok d := by
  simp only [Model.ofSource, bind_eq_ok, pure_eq_ok] at h
  obtain ⟨p, hp, closed, hclosed, rfl⟩ := h
  have start : Progress.start.FromDrafts := by
    intro d hd
    cases hd
  exact (start.steps hp).close hclosed d hd

theorem Definition.isName_of_define {sections : List Section} {draft : Draft} {d : Definition}
    (h : Progress.define sections draft = .ok d) : IsName d.name ∧ ∀ o ∈ d.outputs, IsName o := by
  unfold Progress.define at h
  split at h
  · cases h
  · rename_i header found
    split at h
    · cases h
    · simp only [bind_eq_ok, pure_eq_ok] at h
      obtain ⟨args, -, outputs, houtputs, rfl⟩ := h
      exact ⟨Header.isName_of_ofChars? found, Outputs.isName_of_ofChars houtputs⟩

/-- The objects and outputs of a model bear names. -/
def Model.Named (m : Model) : Prop :=
  ∀ d ∈ m.definitions, IsName d.name ∧ ∀ o ∈ d.outputNames, IsName o

theorem Model.named_of_ofSource (h : Model.ofSource text = .ok source) : source.Named := by
  intro d hd
  obtain ⟨_, _, defined⟩ := Model.exists_draft h hd
  obtain ⟨name, outputs⟩ := Definition.isName_of_define defined
  refine ⟨name, ?_⟩
  intro o ho
  rw [Definition.outputNames] at ho
  split at ho
  · cases List.mem_singleton.1 ho
    exact name
  · exact outputs o ho

theorem Model.named_of_link (h : source.link s = .ok m) (named : source.Named) : m.Named := by
  intro d hd
  have same := Model.map_definitions_of_link (fun d => (d.name, d.outputNames)) (fun _ _ => rfl) h
  have mem : (d.name, d.outputNames) ∈ m.definitions.map fun d => (d.name, d.outputNames) :=
    List.mem_map.2 ⟨d, hd, rfl⟩
  rw [same, List.mem_map] at mem
  obtain ⟨d₀, hd₀, eq⟩ := mem
  rw [Prod.mk.injEq] at eq
  rw [← eq.1, ← eq.2]
  exact named d₀ hd₀

theorem Linked.isName (linked : Linked m s) (named : m.Named) {output : String}
    (h : output ∈ s.outputOrder) : IsName output := by
  obtain ⟨d, hd, mem⟩ := linked.exists_owner h
  exact (named d hd).2 output mem

end Forecast

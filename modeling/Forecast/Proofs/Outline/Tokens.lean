import Forecast.Proofs.Outline

/-!
# Reading tokens

What is written next to an output, an output, and an argument are read back as
what they denote. What a token denotes does not depend on its line, which only
faults tell.
-/

namespace Forecast

open Outcome Text

section

variable {line line' : Nat} {s : List Char}

theorem Argument.ofToken_line {a : Argument} (h : ofToken line s = .ok a) :
    ofToken line' s = .ok a := by
  unfold ofToken at h ⊢
  split at h
  · rename_i spread
    rw [if_pos spread]
    split at h
    · exact h
    · cases h
  · rename_i other
    rw [if_neg other]
    exact h

theorem InlineValue.ofChars_line {v : InlineValue} (h : ofChars line s = .ok v) :
    ofChars line' s = .ok v := by
  unfold ofChars at h ⊢
  simp only at h ⊢
  split at h
  · rename_i percentage
    rw [if_pos percentage]
    split at h
    · exact h
    · cases h
  · rename_i other
    rw [if_neg other]
    exact h

theorem InlineValue.ofChars_cons {c : Char} (blank : isBlank c = true) (line : Nat)
    (s : List Char) :
    ofChars line (c :: s) = ofChars line s := by
  simp only [ofChars, trim_cons blank]

end

/-! ## Texts within a line -/

theorem IsName.unbroken {s : String} (h : IsName s) : Unbroken s.toList :=
  fun c hc => isLineBreak_of_isNameChar (h c hc)

theorem IsName.inCode {s : String} (h : IsName s) : InCode s.toList where
  unbroken := h.unbroken
  noSlashes := by
    rw [noSlashes_iff]
    intro within
    exact absurd (h '/' (within.subset (by simp))) (by decide)

theorem IsName.closed {s : String} (h : IsName s) : Closed s.toList := by
  have other {c : Char} (hc : isNameChar c = false) : c ∉ s.toList := by
    intro mem
    rw [h c mem] at hc
    cases hc
  exact closed_of_plain (other (by decide)) (other (by decide)) (other (by decide))

theorem IsTrimmedLine.ends {s : String} (h : IsTrimmedLine s) : Trimmed s.toList :=
  trimmed_of_trim_eq h.trimmed

namespace IsPlain

variable {s : String} (plain : IsPlain s)

include plain

theorem toList_ne_nil : s.toList ≠ [] :=
  fun eq => plain.nonempty (String.toList_eq_nil_iff.1 eq)

theorem inCode : InCode s.toList :=
  ⟨plain.unbroken, noSlashes_iff.2 plain.slashes⟩

theorem closed : Closed s.toList :=
  closed_of_plain plain.opening plain.closing plain.comma

end IsPlain

namespace Outline

/-! ## Values next to an output -/

namespace Inline

variable (v : Inline)

theorem toList_written : v.written.toList = v.key.toList ++ ([':', ' '] ++ v.text.toList) := by
  simp [written, String.toList_append]

theorem written_ne_nil : v.written.toList ≠ [] := by
  simp [toList_written]

theorem trimmed_written : Trimmed v.written.toList := by
  rw [toList_written, ← List.append_assoc]
  exact v.key_plain.ends.append v.plain.ends v.key_plain.toList_ne_nil
    v.plain.toList_ne_nil _

theorem notMem_written {c : Char} (key : c ∉ v.key.toList) (text : c ∉ v.text.toList)
    (colon : c ≠ ':') (blank : c ≠ ' ') : c ∉ v.written.toList := by
  simp [toList_written, key, text, colon, blank]

theorem opening_notMem_written : '(' ∉ v.written.toList :=
  v.notMem_written v.key_plain.opening v.plain.opening (by decide) (by decide)

theorem closing_notMem_written : ')' ∉ v.written.toList :=
  v.notMem_written v.key_plain.closing v.plain.closing (by decide) (by decide)

theorem comma_notMem_written : ',' ∉ v.written.toList :=
  v.notMem_written v.key_plain.comma v.plain.comma (by decide) (by decide)

theorem inCode_written : InCode v.written.toList := by
  have value : InCode ([':', ' '] ++ v.text.toList) :=
    InCode.append (by decide) v.plain.inCode (.inl (by simp))
  rw [toList_written]
  exact v.key_plain.inCode.append value (.inr (by simp))

theorem entry_written : entry? v.written.toList = some (v.key.toList, ' ' :: v.text.toList) := by
  have key : ∀ c ∈ v.key.toList, (c != ':') = true := by
    intro c hc
    simpa using fun eq : c = ':' => v.key_colon (eq ▸ hc)
  have span : v.written.toList.span (· != ':') = (v.key.toList, ':' :: ' ' :: v.text.toList) := by
    rw [toList_written]
    exact span_append key (by simp)
  have text : trim (' ' :: v.text.toList) = v.text.toList := by
    rw [trim_cons (by decide), v.plain.trimmed]
  unfold entry?
  rw [span]
  simp [text, v.key_plain.trimmed, v.key_plain.toList_ne_nil, v.plain.toList_ne_nil]

end Inline

def body (values : List Inline) : List Char :=
  [',', ' '].intercalate (values.map (·.written.toList))

section

variable (values : List Inline)

theorem opening_notMem_body : '(' ∉ body values :=
  notMem_intercalate (by decide) (List.forall_mem_map.2 fun v _ => v.opening_notMem_written)

theorem closing_notMem_body : ')' ∉ body values :=
  notMem_intercalate (by decide) (List.forall_mem_map.2 fun v _ => v.closing_notMem_written)

theorem inCode_body : InCode (body values) :=
  InCode.intercalate (List.forall_mem_map.2 fun v _ => v.inCode_written)

theorem trim_body : (trim (body values)).isEmpty = values.isEmpty := by
  have each : ∀ t ∈ values.map (·.written.toList), Trimmed t ∧ t ≠ [] :=
    List.forall_mem_map.2 fun v _ => ⟨v.trimmed_written, v.written_ne_nil⟩
  obtain ⟨trimmed, nonempty⟩ := Trimmed.intercalate [',', ' '] each
  rw [body, trimmed.trim_eq]
  cases values with
  | nil => rfl
  | cons v values => simpa using nonempty (by simp)

end

theorem inlineValues_body {values : List Inline} (distinct : (values.map (·.key)).Nodup)
    (line : Nat) :
    inlineValues line (body values) = .ok (values.map fun v => (v.key, v.value)) := by
  have tokens : splitTokens (body values) = values.map (·.written.toList) := by
    apply splitTokens_intercalate
    refine List.forall_mem_map.2 fun v _ => ⟨?_, v.trimmed_written, v.written_ne_nil⟩
    exact closed_of_plain v.opening_notMem_written v.closing_notMem_written v.comma_notMem_written
  have entries : Entries.ofList (values.map fun v => (v.key, v.value)) =
      values.map fun v => (v.key, v.value) := by
    apply Entries.ofList_of_nodup
    simpa [Entries.keys, Function.comp_def] using distinct
  rw [inlineValues, tokens, List.foldlM_map,
    foldlM_eq_foldl (g := fun entries v => Entries.put v.key v.value entries)]
  · rw [Entries.ofList, List.foldl_map] at entries
    rw [entries]
  · intro v _ entries
    have value : InlineValue.ofChars line (' ' :: v.text.toList) = .ok v.value := by
      rw [InlineValue.ofChars_cons (by decide)]
      exact InlineValue.ofChars_line v.denotes
    simp only [v.entry_written, value, ok_bind, String.ofList_toList]
    rfl

/-! ## Outputs -/

namespace Output

variable (o : Output)

def parentheses : List Char :=
  match o.inline with
  | none => []
  | some values => '(' :: (body values ++ [')'])

theorem toList_written : o.written.toList = o.name.toList ++ o.parentheses := by
  unfold written parentheses
  cases o.inline with
  | none => simp
  | some values => simp [String.toList_append, body, Function.comp_def]

theorem written_ne_nil : o.written.toList ≠ [] := by
  simp [toList_written, o.word.toList_ne_nil]

theorem closed_written : Closed o.written.toList := by
  rw [toList_written]
  refine o.word.named.closed.append ?_
  unfold parentheses
  split
  · exact closed_of_plain (by simp) (by simp) (by simp)
  · rename_i values _
    exact closed_parentheses (opening_notMem_body values) (closing_notMem_body values)

theorem trimmed_written : Trimmed o.written.toList := by
  rw [toList_written]
  unfold parentheses
  split
  · rw [List.append_nil]
    exact o.word.named.trimmed
  · rename_i values _
    have nonempty := o.word.toList_ne_nil
    have closed : Trimmed ((o.name.toList ++ '(' :: body values) ++ [')']) := by
      refine trimmed_concat ?_ (by simp) (by decide)
      rw [List.head?_append_of_ne_nil _ nonempty]
      exact o.word.named.trimmed.first
    simpa using closed

theorem inCode_written : InCode o.written.toList := by
  rw [toList_written]
  unfold parentheses
  split
  · simpa using o.word.named.inCode
  · rename_i values _
    have opened : InCode (['('] ++ body values) :=
      InCode.append (by decide) (inCode_body values) (.inl (by simp))
    have closed : InCode (['('] ++ body values ++ [')']) :=
      opened.append (by decide) (.inr (by simp))
    exact o.word.named.inCode.append closed (.inr (by simp))

theorem outputToken?_written :
    outputToken? o.written.toList = some (o.name, o.inline.map body) := by
  have span : o.written.toList.span isNameChar = (o.name.toList, o.parentheses) := by
    rw [toList_written]
    apply span_append o.word.named
    unfold parentheses
    split <;> simp [isNameChar]
  obtain ⟨c, rest, chars⟩ := List.exists_cons_of_ne_nil o.word.toList_ne_nil
  have name : String.ofList (c :: rest) = o.name := by rw [← chars, String.ofList_toList]
  rw [outputToken?, span, chars]
  unfold parentheses
  cases o.inline with
  | none => simp [name]
  | some values =>
    have last : (body values ++ [')']).getLast? = some ')' := by simp
    have lineFeed : '\n' ∉ body values := by
      intro mem
      exact absurd ((inCode_body values).unbroken '\n' mem) (by decide)
    have blank : isBlank '(' = false := by decide
    simp [blank, dropFinalLineFeed, last, lineFeed, name]

def addTo (outputs : Outputs) : Outputs where
  names := outputs.names ++ [o.name]
  inline :=
    match o.values? with
    | none => outputs.inline
    | some e => outputs.inline.put e.1 e.2

theorem name_of_values? {e : String × Entries InlineValue} (h : o.values? = some e) :
    e.1 = o.name := by
  unfold values? at h
  split at h
  · cases h
    rfl
  · cases h

theorem add_written (line : Nat) (outputs : Outputs) :
    outputs.add line o.written.toList = .ok (o.addTo outputs) := by
  simp only [Outputs.add, outputToken?_written]
  unfold addTo values?
  cases inline : o.inline with
  | none => simp
  | some values =>
    have distinct := o.distinct values inline
    rw [Option.map_some, Option.getD_some, trim_body, inlineValues_body distinct line]
    cases values with
    | nil => simp
    | cons v values => rfl

end Output

theorem foldl_addTo (outputs : List Output) (start : Outputs) :
    outputs.foldl (fun acc o => o.addTo acc) start =
      ⟨start.names ++ outputs.map (·.name),
        (outputs.filterMap Output.values?).foldl (fun t e => t.put e.1 e.2) start.inline⟩ := by
  induction outputs generalizing start with
  | nil => simp
  | cons o outputs ih =>
    rw [List.foldl_cons, ih, Output.addTo, List.filterMap_cons]
    cases o.values? <;> simp

theorem keys_entries_sublist (outputs : List Output) :
    List.Sublist (Entries.keys (outputs.filterMap Output.values?)) (outputs.map (·.name)) := by
  induction outputs with
  | nil => simp [Entries.keys]
  | cons o outputs ih =>
    rw [List.filterMap_cons, List.map_cons]
    cases written : o.values? with
    | none => exact ih.cons _
    | some e =>
      rw [← o.name_of_values? written]
      exact ih.cons_cons _

theorem outputs_ofChars {outputs : List Output} (distinct : (outputs.map (·.name)).Nodup)
    (line : Nat) :
    Outputs.ofChars line ([',', ' '].intercalate (outputs.map (·.written.toList))) =
      .ok ⟨outputs.map (·.name), outputs.filterMap Output.values?⟩ := by
  have tokens : splitTokens ([',', ' '].intercalate (outputs.map (·.written.toList))) =
      outputs.map (·.written.toList) := by
    apply splitTokens_intercalate
    exact List.forall_mem_map.2 fun o _ => ⟨o.closed_written, o.trimmed_written, o.written_ne_nil⟩
  have inline : Entries.ofList (outputs.filterMap Output.values?) =
      outputs.filterMap Output.values? :=
    Entries.ofList_of_nodup (distinct.sublist (keys_entries_sublist outputs))
  rw [Outputs.ofChars, tokens, List.foldlM_map, foldlM_eq_foldl (g := fun acc o => o.addTo acc)]
  · rw [foldl_addTo, List.nil_append]
    rw [Entries.ofList] at inline
    rw [inline]
  · exact fun o _ acc => o.add_written line acc

/-! ## Arguments -/

theorem arguments_mapM (arguments : List Token) (line : Nat) :
    (splitTokens ([',', ' '].intercalate (arguments.map (·.text.toList)))).mapM
      (Argument.ofToken line) = .ok (arguments.map (·.argument)) := by
  rw [splitTokens_intercalate]
  · rw [mapM_eq_ok, List.forall₂_map_left_iff, List.forall₂_map_right_iff, List.forall₂_same]
    exact fun token _ => Argument.ofToken_line token.denotes
  · exact List.forall_mem_map.2 fun token _ =>
      ⟨token.plain.closed, token.plain.ends, token.plain.toList_ne_nil⟩

end Outline
end Forecast

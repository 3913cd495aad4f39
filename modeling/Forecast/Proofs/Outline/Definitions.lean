import Forecast.Proofs.Outline.Tokens

/-!
# Reading sections and definitions

The line of a section is a name and a colon. The line of an object opens a definition, and holds no
comment. Arguments contain no parentheses, so the first closing one ends them, and what follows it
is nothing or the outputs after an arrow.
-/

namespace Forecast

open Outcome Text

variable {s name rest : List Char}

theorem identifier?_append {s : String} (h : IsIdentifier s) {rest : List Char}
    (stop : ∀ c ∈ rest.head?, isNameChar c = false) :
    identifier? (s.toList ++ rest) = some (s.toList, rest) := by
  obtain ⟨c, tail, chars, letter⟩ := h.exists_cons
  have named : ∀ d ∈ tail, isNameChar d = true := fun d hd => h.named d (by simp [chars, hd])
  rw [chars, List.cons_append, identifier?, if_pos letter, span_append named stop]

theorem trimmed_sectionLine {name : String} (h : IsIdentifier name) :
    Trimmed (name.toList ++ [':']) :=
  trimmed_concat h.named.trimmed.first h.isWord.toList_ne_nil (by decide)

theorem sectionName?_sectionLine {name : String} (h : IsIdentifier name) :
    sectionName? (name.toList ++ [':']) = some name := by
  have identifier : identifier? (name.toList ++ [':']) = some (name.toList, [':']) := by
    apply identifier?_append h
    rintro c ⟨⟩
    decide
  rw [sectionName?, identifier]
  simp only [String.ofList_toList]
  rfl

/-- The first parenthesis that can close the arguments closes them. -/
theorem arguments?_append {args outputs : List Char} (closing : ')' ∉ args)
    (after : afterArguments? rest = some outputs) :
    arguments? (args ++ ')' :: rest) = some (args, outputs) := by
  induction args with
  | nil => simp [arguments?, after]
  | cons c args ih =>
    simp only [List.mem_cons, not_or] at closing
    rw [List.cons_append, arguments?, if_neg (Ne.symm closing.1), ih closing.2]
    rfl

namespace Outline.Object

variable (o : Object)

def inside : List Char :=
  [',', ' '].intercalate (o.arguments.map (·.text.toList))

def outside : List Char :=
  [',', ' '].intercalate (o.outputs.map (·.written.toList))

def tail : List Char :=
  if o.outputs.isEmpty then [] else ' ' :: '=' :: '>' :: ' ' :: o.outside

def call : List Char :=
  o.kind.toList ++ '(' :: (o.inside ++ ')' :: o.tail)

theorem toList_written : o.written.toList = o.name.toList ++ ' ' :: '=' :: ' ' :: o.call := by
  unfold written call tail
  split <;> simp [String.toList_append, inside, outside, Function.comp_def]

theorem closing_notMem_inside : ')' ∉ o.inside :=
  notMem_intercalate (by decide) (List.forall_mem_map.2 fun token _ => token.plain.closing)

theorem trimmed_outside : Trimmed o.outside ∧ (o.outputs ≠ [] → o.outside ≠ []) := by
  have each : ∀ t ∈ o.outputs.map (·.written.toList), Trimmed t ∧ t ≠ [] :=
    List.forall_mem_map.2 fun output _ => ⟨output.trimmed_written, output.written_ne_nil⟩
  simpa [outside] using Trimmed.intercalate [',', ' '] each

theorem afterArguments?_tail : afterArguments? o.tail = some o.outside := by
  unfold tail
  split
  · rename_i none
    rw [List.isEmpty_iff] at none
    simp [afterArguments?, outside, none]
  · have arrow : afterArguments? (' ' :: '=' :: '>' :: ' ' :: o.outside) =
        some (trim (' ' :: o.outside)) := rfl
    rw [arrow, trim_cons (by decide), o.trimmed_outside.1.trim_eq]

theorem identifier?_written :
    identifier? o.written.toList = some (o.name.toList, ' ' :: '=' :: ' ' :: o.call) := by
  rw [toList_written]
  apply identifier?_append o.name_identifier
  rintro c ⟨⟩
  decide

theorem identifier?_call :
    identifier? o.call = some (o.kind.toList, '(' :: (o.inside ++ ')' :: o.tail)) := by
  apply identifier?_append o.kind_identifier
  rintro c ⟨⟩
  decide

theorem dropWhile_call : (' ' :: o.call).dropWhile isBlank = o.call := by
  obtain ⟨c, rest, chars, letter⟩ := o.kind_identifier.exists_cons
  have blank : isBlank c = false := isBlank_of_isNameChar (isNameChar_of_isAlpha letter)
  have space : isBlank ' ' = true := by decide
  simp [call, chars, blank, space]

theorem header_written :
    Header.ofChars? o.written.toList = some ⟨o.name, o.kind, o.inside, o.outside⟩ := by
  have equals : (' ' :: '=' :: ' ' :: o.call).dropWhile isBlank = '=' :: ' ' :: o.call := rfl
  have opening : ('(' :: (o.inside ++ ')' :: o.tail)).dropWhile isBlank =
      '(' :: (o.inside ++ ')' :: o.tail) := rfl
  have arguments := arguments?_append o.closing_notMem_inside o.afterArguments?_tail
  simp only [Header.ofChars?, identifier?_written, Option.bind_eq_bind, Option.bind_some, equals,
    dropWhile_call, identifier?_call, opening, arguments, String.ofList_toList]
  rfl

/-! ## The line of an object -/

theorem exists_cons_written : ∃ c rest, o.written.toList = c :: rest ∧ c.isAlpha = true := by
  obtain ⟨c, rest, chars, letter⟩ := o.name_identifier.exists_cons
  exact ⟨c, rest ++ ' ' :: '=' :: ' ' :: o.call,
    by rw [toList_written, chars, List.cons_append], letter⟩

theorem opensDefinition_written : opensDefinition o.written.toList = true := by
  rw [opensDefinition, identifier?_written]
  rfl

theorem sectionName?_written : sectionName? o.written.toList = none := by
  rw [sectionName?, identifier?_written]
  rfl

theorem inCode_inside : InCode o.inside :=
  InCode.intercalate (List.forall_mem_map.2 fun token _ => token.plain.inCode)

theorem inCode_tail : InCode o.tail := by
  have outside : InCode o.outside :=
    InCode.intercalate (List.forall_mem_map.2 fun output _ => output.inCode_written)
  unfold tail
  split
  · decide
  · exact InCode.append (s := [' ', '=', '>', ' ']) (by decide) outside (.inl (by simp))

theorem inCode_call : InCode o.call := by
  have opened : InCode (['('] ++ o.inside) :=
    InCode.append (by decide) o.inCode_inside (.inl (by simp))
  have closed : InCode ([')'] ++ o.tail) := InCode.append (by decide) o.inCode_tail (.inl (by simp))
  have arguments := opened.append closed (.inr (by simp))
  simpa [call] using o.kind_identifier.named.inCode.append arguments (.inr (by simp))

theorem inCode_written : InCode o.written.toList := by
  have equals : InCode ([' ', '=', ' '] ++ o.call) :=
    InCode.append (by decide) o.inCode_call (.inl (by simp))
  rw [toList_written]
  exact o.name_identifier.named.inCode.append equals (.inr (by simp))

theorem trimmed_written : Trimmed o.written.toList where
  first := by
    rw [toList_written, List.head?_append_of_ne_nil _ o.name_identifier.isWord.toList_ne_nil]
    exact o.name_identifier.named.trimmed.first
  last := by
    obtain ⟨before, cut⟩ : ∃ before, o.written.toList = before ++ ')' :: o.tail :=
      ⟨o.name.toList ++ ' ' :: '=' :: ' ' :: (o.kind.toList ++ '(' :: o.inside), by
        simp [toList_written, call]⟩
    rw [cut, List.getLast?_append_of_ne_nil _ (by simp)]
    unfold tail
    split
    · rintro c ⟨⟩
      decide
    · rename_i some
      obtain ⟨trimmed, nonempty⟩ := o.trimmed_outside
      have outputs : o.outputs ≠ [] := by simpa using some
      have arrow : ')' :: ' ' :: '=' :: '>' :: ' ' :: o.outside =
          [')', ' ', '=', '>', ' '] ++ o.outside := rfl
      rw [arrow, List.getLast?_append_of_ne_nil _ (nonempty outputs)]
      exact trimmed.last

theorem define_written (current : Forecast.Section) (earlier : List Forecast.Section) (line : Nat) :
    Progress.define (current :: earlier) ⟨o.written.toList, line, o.comments⟩ =
      .ok (o.definition current.name line) := by
  simp only [Progress.define, header_written, inside, outside, arguments_mapM,
    outputs_ofChars o.distinct, ok_bind]
  rfl

end Outline.Object
end Forecast

import Forecast.Proofs.Headings

/-!
# The grammar of arguments

An argument is a spread, a number, a reference or a word. A token that begins as
a spread has to be one. Any other token that is none of these is not refused: it
is taken for a word as it stands, whatever blanks, points and parentheses it has.
-/

namespace Forecast

open Outcome Text

/-! ## Tokens -/

namespace Argument

/-- A word, a point and a word. -/
structure IsReference (token : List Char) (name field : String) : Prop where
  name_word : IsWord name
  field_word : IsWord field
  point : token = name.toList ++ '.' :: field.toList

/-- Three points and a reference, with blanks between them or without. -/
def IsSpread (token : List Char) (object field : String) : Prop :=
  ∃ gap body, token = ['.', '.', '.'] ++ (gap ++ body) ∧ (∀ c ∈ gap, isBlank c = true) ∧
    IsReference body object field

inductive Listed (token : List Char) : Prop
  | spread {object field : String} (spread : IsSpread token object field) : Listed token
  | number (numeral : Decimal.IsNumeral token) : Listed token
  | reference {name field : String} (reference : IsReference token name field) : Listed token
  | word (word : IsWord (String.ofList token)) : Listed token

/-- What a token denotes: a number before a reference or a word, and for lack of anything else the
token itself. -/
inductive Denotes (token : List Char) : Argument → Prop
  | spread {object field : String} (spread : IsSpread token object field) :
    Denotes token (.spread object field (String.ofList token))
  | number {x : Float} (numeral : Decimal.IsNumeral token) (value : Decimal.float? token = some x) :
    Denotes token (.number x (String.ofList token))
  | reference {name field : String} (reference : IsReference token name field)
    (other : ¬Decimal.IsNumeral token) :
      Denotes token (.reference name field (String.ofList token) none)
  | word (word : IsWord (String.ofList token)) (other : ¬Decimal.IsNumeral token) :
    Denotes token (.word (String.ofList token))
  | stray (unlisted : ¬Listed token) (begins : ¬['.', '.', '.'] <+: token) :
    Denotes token (.word (String.ofList token))

section

variable {token : List Char} {name object field : String} {a : Argument} {fault : ReadFault}
  {line : Nat}

theorem IsReference.trimmed (h : IsReference token name field) : Trimmed token := by
  rw [h.point, ← List.singleton_append, ← List.append_assoc]
  exact Trimmed.append h.name_word.named.trimmed h.field_word.named.trimmed
    h.name_word.toList_ne_nil
    h.field_word.toList_ne_nil ['.']

theorem IsReference.ne_nil (h : IsReference token name field) : token ≠ [] := by
  simp [h.point]

theorem reference?_eq_some (trimmed : Trimmed token) :
    reference? token = some (name, field) ↔ IsReference token name field := by
  rw [reference?, trimmed.dropFinalLineFeed_eq]
  constructor
  · intro h
    split at h
    · rename_i first rest tail span
      have cut := List.takeWhile_append_dropWhile (p := isNameChar) (l := token)
      have named : ∀ c ∈ (token.span isNameChar).1, isNameChar c = true := isNameChar_of_mem_span
      rw [List.span_eq_takeWhile_dropWhile, Prod.mk.injEq] at span
      rw [List.span_eq_takeWhile_dropWhile, span.1] at named
      rw [span.1, span.2] at cut
      simp only [Option.ite_none_right_eq_some, Option.some.injEq, Prod.mk.injEq, Bool.and_eq_true,
        Bool.not_eq_true', List.all_eq_true, List.isEmpty_eq_false_iff] at h
      obtain ⟨⟨nonempty, fields⟩, rfl, rfl⟩ := h
      refine ⟨⟨?_, ?_⟩, ⟨?_, ?_⟩, ?_⟩
      · simpa [IsName] using named
      · simp
      · simpa [IsName] using fields
      · simpa using nonempty
      · simpa using cut.symm
    · cases h
  · rintro ⟨name_word, field_word, rfl⟩
    have span : (name.toList ++ '.' :: field.toList).span isNameChar =
        (name.toList, '.' :: field.toList) :=
      span_append name_word.named (by simp [isNameChar])
    obtain ⟨c, rest, chars⟩ := List.exists_cons_of_ne_nil name_word.toList_ne_nil
    have all : field.toList.all isNameChar = true := List.all_eq_true.2 field_word.named
    have name_eq : String.ofList (c :: rest) = name := by rw [← chars, String.ofList_toList]
    rw [span, chars]
    simp only [all, name_eq, String.ofList_toList,
      List.isEmpty_eq_false_iff.2 field_word.toList_ne_nil, Bool.not_false, Bool.and_self, if_true]

/-- What follows the points of a spread is a reference, once the blanks before it are dropped. -/
theorem reference?_after_points {rest : List Char} (trimmed : Trimmed (['.', '.', '.'] ++ rest)) :
    reference? (trim rest) = some (object, field) ↔
      IsSpread (['.', '.', '.'] ++ rest) object field := by
  rw [reference?_eq_some (trimmed_trim rest)]
  constructor
  · intro h
    have nonempty : rest.dropWhile isBlank ≠ [] := by
      intro empty
      exact h.ne_nil (by rw [trim, strip, empty]; rfl)
    have last : ∀ c ∈ (rest.dropWhile isBlank).getLast?, isBlank c = false := by
      have whole := trimmed.last
      rwa [← List.takeWhile_append_dropWhile (p := isBlank) (l := rest), ← List.append_assoc,
        List.getLast?_append_of_ne_nil _ nonempty] at whole
    have first : ∀ c ∈ (rest.dropWhile isBlank).head?, isBlank c = false := by
      intro c hc
      obtain ⟨tail, start⟩ := List.head?_eq_some_iff.1 hc
      exact dropWhile_head start
    have blank : ∀ c ∈ rest.takeWhile isBlank, isBlank c = true := fun _ => List.mem_takeWhile_imp
    have body : trim rest = rest.dropWhile isBlank := by
      rw [← List.takeWhile_append_dropWhile (p := isBlank) (l := rest), trim_append blank,
        Trimmed.trim_eq ⟨first, last⟩, List.dropWhile_append_of_pos blank,
        dropWhile_eq_self first]
    exact ⟨rest.takeWhile isBlank, trim rest,
      by rw [body, List.takeWhile_append_dropWhile], blank, h⟩
  · rintro ⟨gap, body, same, blank, reference⟩
    rw [List.append_cancel_left same, trim_append blank, reference.trimmed.trim_eq]
    exact reference

theorem numeral?_isSome (trimmed : Trimmed token) :
    (numeral? token).isSome ↔ Decimal.IsNumeral token := by
  rw [numeral?, trimmed.dropFinalLineFeed_eq, Decimal.isSome_ofChars?]

/-- What begins with points is neither a number, nor a reference, nor a word. -/
theorem not_isNumeral_of_points (h : ['.', '.', '.'] <+: token) : ¬Decimal.IsNumeral token := by
  obtain ⟨rest, rfl⟩ := h
  intro numeral
  have read := Decimal.isSome_ofChars?.2 numeral
  cases read

theorem not_points_of_isReference (h : IsReference token name field) :
    ¬['.', '.', '.'] <+: token := by
  rintro ⟨rest, same⟩
  obtain ⟨c, tail, chars⟩ := List.exists_cons_of_ne_nil h.name_word.toList_ne_nil
  rw [h.point, chars] at same
  have first : '.' = c := (List.cons.inj same).1
  have point : '.' ∈ name.toList := by
    rw [chars, ← first]
    exact List.mem_cons_self
  exact h.name_word.named.point_notMem point

theorem not_isWord_of_isReference (h : IsReference token name field) :
    ¬IsWord (String.ofList token) := by
  intro word
  have named := word.named '.' (by simp [h.point])
  exact absurd named (by decide)

theorem not_points_of_isWord (h : IsWord (String.ofList token)) : ¬['.', '.', '.'] <+: token := by
  intro points
  have named := h.named '.' (by simpa using points.subset (by simp))
  exact absurd named (by decide)

theorem points_of_isSpread (h : IsSpread token object field) : ['.', '.', '.'] <+: token := by
  obtain ⟨gap, body, rfl, -⟩ := h
  exact List.prefix_append _ _

/-- Apart from the blanks within a spread, the grammar has no blanks, no parentheses and no
operators but signs. -/
theorem plain_of_listed (h : Listed token) (begins : ¬['.', '.', '.'] <+: token) :
    ∀ c ∈ token, Decimal.isNumeralChar c = true ∨ isNameChar c = true := by
  intro c hc
  cases h with
  | spread spread => exact absurd (points_of_isSpread spread) begins
  | number numeral => exact .inl (numeral.isNumeralChar c hc)
  | reference reference =>
    rw [reference.point] at hc
    rcases List.mem_append.1 hc with hc | hc
    · exact .inr (reference.name_word.named c hc)
    · rcases List.mem_cons.1 hc with rfl | hc
      · exact .inl (by decide)
      · exact .inr (reference.field_word.named c hc)
  | word word => exact .inr (word.named c (by simpa using hc))

/-! ## What a token is read as -/

theorem ofToken_eq_ok_of_spread (trimmed : Trimmed token) (h : IsSpread token object field) :
    ofToken line token = .ok (.spread object field (String.ofList token)) := by
  obtain ⟨rest, rfl⟩ := points_of_isSpread h
  have points : ['.', '.', '.'].isPrefixOf (['.', '.', '.'] ++ rest) = true :=
    List.isPrefixOf_iff_prefix.2 (List.prefix_append _ _)
  have found := (reference?_after_points trimmed).2 h
  have after : (['.', '.', '.'] ++ rest).drop 3 = rest := rfl
  simp only [ofToken, points, if_true, after, found]

theorem isPrefixOf_eq_false (begins : ¬['.', '.', '.'] <+: token) :
    ['.', '.', '.'].isPrefixOf token = false := by
  rwa [← Bool.not_eq_true, List.isPrefixOf_iff_prefix]

theorem numeral?_eq_none (trimmed : Trimmed token) (other : ¬Decimal.IsNumeral token) :
    numeral? token = none := by
  rwa [← numeral?_isSome trimmed, Option.not_isSome_iff_eq_none] at other

theorem reference?_eq_none (trimmed : Trimmed token)
    (other : ∀ name field, ¬IsReference token name field) :
    reference? token = none :=
  Option.eq_none_iff_forall_ne_some.2 fun ⟨name, field⟩ found =>
    other name field ((reference?_eq_some trimmed).1 found)

/-- A token is read as what it denotes. -/
theorem ofToken_of_denotes (trimmed : Trimmed token) (h : Denotes token a) :
    ofToken line token = .ok a := by
  cases h with
  | spread spread => exact ofToken_eq_ok_of_spread trimmed spread
  | number numeral value =>
    obtain ⟨n, found⟩ := Option.isSome_iff_exists.1 ((numeral?_isSome trimmed).2 numeral)
    rw [float?_of_numeral? found, Option.some.injEq] at value
    have begins := isPrefixOf_eq_false fun points => not_isNumeral_of_points points numeral
    simp only [ofToken, begins, Bool.false_eq_true, if_false, found, value]
  | reference reference other =>
    have begins := isPrefixOf_eq_false (not_points_of_isReference reference)
    have found := (reference?_eq_some trimmed).2 reference
    simp only [ofToken, begins, Bool.false_eq_true, if_false, numeral?_eq_none trimmed other, found]
  | word word other =>
    have begins := isPrefixOf_eq_false (not_points_of_isWord word)
    have unreferred :=
      reference?_eq_none trimmed fun _ _ found => not_isWord_of_isReference found word
    simp only [ofToken, begins, Bool.false_eq_true, if_false, numeral?_eq_none trimmed other,
      unreferred]
  | stray unlisted begins =>
    have unnumbered := numeral?_eq_none trimmed fun numeral => unlisted (.number numeral)
    have unreferred := reference?_eq_none trimmed fun _ _ found => unlisted (.reference found)
    simp only [ofToken, isPrefixOf_eq_false begins, Bool.false_eq_true, if_false, unnumbered,
      unreferred]

theorem exists_denotes (trimmed : Trimmed token) (h : Listed token ∨ ¬['.', '.', '.'] <+: token) :
    ∃ a, Denotes token a := by
  by_cases listed : Listed token
  · by_cases numeral : Decimal.IsNumeral token
    · obtain ⟨n, found⟩ := Option.isSome_iff_exists.1 ((numeral?_isSome trimmed).2 numeral)
      exact ⟨_, .number numeral (float?_of_numeral? found)⟩
    · cases listed with
      | spread spread => exact ⟨_, .spread spread⟩
      | number here => exact absurd here numeral
      | reference reference => exact ⟨_, .reference reference numeral⟩
      | word word => exact ⟨_, .word word numeral⟩
  · exact ⟨_, .stray listed (h.resolve_left listed)⟩

theorem ofToken_of_unlisted (trimmed : Trimmed token) (points : ['.', '.', '.'] <+: token)
    (unlisted : ¬Listed token) :
    ofToken line token = .error ⟨.spread, line, String.ofList token⟩ := by
  obtain ⟨rest, rfl⟩ := points
  have begins : ['.', '.', '.'].isPrefixOf (['.', '.', '.'] ++ rest) = true :=
    List.isPrefixOf_iff_prefix.2 (List.prefix_append _ _)
  have unreferred : reference? (trim rest) = none :=
    Option.eq_none_iff_forall_ne_some.2 fun _ found =>
      unlisted (.spread ((reference?_after_points trimmed).1 found))
  have after : (['.', '.', '.'] ++ rest).drop 3 = rest := rfl
  simp only [ofToken, begins, if_true, after, unreferred]

theorem ofToken_eq_ok (trimmed : Trimmed token) : ofToken line token = .ok a ↔ Denotes token a := by
  refine ⟨fun h => ?_, ofToken_of_denotes trimmed⟩
  by_cases read : Listed token ∨ ¬['.', '.', '.'] <+: token
  · obtain ⟨b, denotes⟩ := exists_denotes trimmed read
    rw [ofToken_of_denotes trimmed denotes, Except.ok.injEq] at h
    exact h ▸ denotes
  · rw [not_or, not_not] at read
    rw [ofToken_of_unlisted trimmed read.2 read.1] at h
    cases h

theorem ofToken_eq_error (trimmed : Trimmed token) : ofToken line token = .error fault ↔
    ['.', '.', '.'] <+: token ∧ ¬Listed token ∧ fault = ⟨.spread, line, String.ofList token⟩ := by
  constructor
  · intro h
    by_cases read : Listed token ∨ ¬['.', '.', '.'] <+: token
    · obtain ⟨b, denotes⟩ := exists_denotes trimmed read
      rw [ofToken_of_denotes trimmed denotes] at h
      cases h
    · rw [not_or, not_not] at read
      rw [ofToken_of_unlisted trimmed read.2 read.1, Except.error.injEq] at h
      exact ⟨read.2, read.1, h.symm⟩
  · rintro ⟨points, unlisted, rfl⟩
    exact ofToken_of_unlisted trimmed points unlisted

end

end Argument

/-! ## Models -/

namespace Progress

/-- After some of the lines a draft is open that a definition is read off. -/
def Defines (ls : List (List Char)) (draft : Draft) (d : Definition) : Prop :=
  ∃ before after p, ls = before ++ after ∧ start.steps 1 before = .ok p ∧ p.draft = some draft ∧
    define p.sections draft = .ok d

variable {p p' q : Progress} {ls : List (List Char)} {raw : List Char} {draft : Draft}
  {d : Definition}

theorem Defines.append (h : Defines ls draft d) (more : List (List Char)) :
    Defines (ls ++ more) draft d := by
  obtain ⟨before, after, p, rfl, read, open_, defined⟩ := h
  exact ⟨before, after ++ more, p, by simp, read, open_, defined⟩

theorem defines_of_close (read : start.steps 1 ls = .ok p) (closed : p.close = .ok q)
    (earlier : ∀ d ∈ p.definitions, ∃ draft, Defines ls draft d) :
    ∀ d ∈ q.definitions, ∃ draft, Defines ls draft d := by
  rcases close_eq_ok.1 closed with ⟨-, rfl⟩ | ⟨draft, d, open_, defined, rfl⟩
  · exact earlier
  · intro e he
    rcases List.mem_append.1 he with he | he
    · exact earlier e he
    · cases List.mem_singleton.1 he
      exact ⟨draft, ls, [], p, by simp, read, open_, defined⟩

/-- Every definition was read off a draft that was open. -/
theorem defines_of_steps (read : start.steps 1 ls = .ok p) :
    ∀ d ∈ p.definitions, ∃ draft, Defines ls draft d := by
  induction ls using List.reverseRecOn generalizing p with
  | nil =>
    cases read
    intro d hd
    cases hd
  | append_singleton ls raw ih =>
    rw [steps_concat, bind_eq_ok, Nat.add_comm 1] at read
    obtain ⟨before, first, last⟩ := read
    have kept (d) (hd : d ∈ before.definitions) : ∃ draft, Defines (ls ++ [raw]) draft d :=
      (ih first d hd).imp fun _ h => h.append [raw]
    have closed {q : Progress} (hq : before.close = .ok q) (d) (hd : d ∈ q.definitions) :
        ∃ draft, Defines (ls ++ [raw]) draft d :=
      (defines_of_close first hq (ih first) d hd).imp fun _ h => h.append [raw]
    have definitions : p.definitions = p.content.definitions := rfl
    rw [definitions]
    cases reads_step last with
    | aside _ _ same =>
      rw [same]
      exact kept
    | closes _ _ hq same =>
      rw [same]
      exact closed hq
    | heads _ hq next =>
      rw [next]
      exact closed hq
    | opens _ _ hq next =>
      rw [next]
      exact closed hq
    | continues _ _ _ next =>
      rw [next]
      exact kept

end Progress

/-- Every argument of a text that is read is what its token denotes; and a token is refused only if
it begins as a spread and is none. -/
theorem Model.arguments_denoted {source : String} {m : Model}
    (read : Model.ofSource source = .ok m) :
    (∀ d ∈ m.definitions, ∃ draft header, Progress.Defines (lines source.toList) draft d ∧
      Header.ofChars? draft.text = some header ∧
      List.Forall₂ Argument.Denotes (splitTokens header.arguments) d.arguments) ∧
    ∀ line token, Trimmed token →
      (∀ a, Argument.ofToken line token = .ok a ↔ Argument.Denotes token a) ∧
      ∀ fault, Argument.ofToken line token = .error fault ↔ ['.', '.', '.'] <+: token ∧
        ¬Argument.Listed token ∧ fault = ⟨.spread, line, String.ofList token⟩ := by
  refine ⟨fun d hd => ?_, fun line token trimmed =>
    ⟨fun _ => Argument.ofToken_eq_ok trimmed, fun _ => Argument.ofToken_eq_error trimmed⟩⟩
  simp only [Model.ofSource, bind_eq_ok, pure_eq_ok] at read
  obtain ⟨p, steps, q, closed, rfl⟩ := read
  obtain ⟨draft, defines⟩ :=
    Progress.defines_of_close steps closed (Progress.defines_of_steps steps) d hd
  obtain ⟨-, -, p, -, -, -, defined⟩ := id defines
  unfold Progress.define at defined
  split at defined
  · cases defined
  · rename_i header found
    split at defined
    · cases defined
    · simp only [bind_eq_ok, pure_eq_ok] at defined
      obtain ⟨arguments, each, _, -, rfl⟩ := defined
      refine ⟨draft, header, defines, found, ?_⟩
      obtain ⟨lengths, same⟩ := List.forall₂_iff_get.1 (mapM_eq_ok.1 each)
      exact List.forall₂_iff_get.2 ⟨lengths, fun i h h' =>
        (Argument.ofToken_eq_ok (trimmed_of_mem_splitTokens (List.getElem_mem h))).1 (same i h h')⟩

def everyArgument : String :=
  "S:\nA = Quant() => a, b\nB = Sum(... A.val, a.val,\n  1.5, monthly, (a.val) + b.val) => c"

theorem denoted_everyArgument : ∃ m, Model.ofSource everyArgument = .ok m ∧
    m.definitions.map (fun d => (d.name, d.arguments.length)) = [("A", 0), ("B", 5)] ∧
    ∀ d ∈ m.definitions, ∃ draft header, Progress.Defines (lines everyArgument.toList) draft d ∧
      Header.ofChars? draft.text = some header ∧
      List.Forall₂ Argument.Denotes (splitTokens header.arguments) d.arguments := by
  have shape : (Model.ofSource everyArgument).toOption.map (fun m =>
      m.definitions.map fun d => (d.name, d.arguments.length)) = some [("A", 0), ("B", 5)] := by
    decide +kernel
  obtain ⟨m, read, same⟩ := exists_of_toOption_map shape
  exact ⟨m, read, same, (Model.arguments_denoted read).1⟩

def Argument.word? : Argument → Option String
  | word text => some text
  | _ => none

theorem Argument.eq_of_word? {a : Argument} {s : String} (h : a.word? = some s) : a = word s := by
  cases a <;> cases h
  rfl

def summedReferences : String :=
  "S:\nA = Sum(b.val + c.val) => a\n"

theorem stray_summedReferences :
    ∃ m d, Model.ofSource summedReferences = .ok m ∧ m.definitions = [d] ∧
    d.arguments = [.word "b.val + c.val"] ∧ ¬Argument.Listed "b.val + c.val".toList := by
  have shape : (Model.ofSource summedReferences).toOption.map (fun m =>
      m.definitions.map fun d => d.arguments.map Argument.word?) =
      some [[some "b.val + c.val"]] := by
    decide +kernel
  obtain ⟨m, read, same⟩ := exists_of_toOption_map shape
  obtain ⟨d, definitions, arguments⟩ := List.map_eq_singleton_iff.1 same
  obtain ⟨a, all, word⟩ := List.map_eq_singleton_iff.1 arguments
  refine ⟨m, d, read, definitions, by rw [all, Argument.eq_of_word? word], fun listed => ?_⟩
  have plain := Argument.plain_of_listed listed (by decide) ' ' (by decide)
  exact absurd plain (by decide)

end Forecast

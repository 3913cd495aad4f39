import Forecast.Proofs.Outline.Definitions

/-!
# Reading outlines

A definition may go on in the next line, so what has been read is known only
once the open definition is closed. Each line of an outline leads from what is
known before it to what is known after it, whether a definition is open or not;
lines that lead from one to another are composed.
-/

namespace Forecast

open Outcome Text

namespace Progress

variable {p q q' q'' : Progress} {number : Nat}

theorem close_eq_ok : p.close = .ok q ↔
    (p.draft = none ∧ q = p) ∨ ∃ draft d, p.draft = some draft ∧ define p.sections draft = .ok d ∧
      q = { p with
        draft := none, sections := addTo d p.sections, definitions := p.definitions ++ [d] } := by
  unfold close
  cases p.draft with
  | none => simp [eq_comm]
  | some draft =>
    simp only [bind_eq_ok, pure_eq_ok]
    simp [eq_comm]

theorem draft_of_close (h : p.close = .ok q) : q.draft = none := by
  rcases close_eq_ok.1 h with ⟨none, rfl⟩ | ⟨_, _, -, -, rfl⟩
  · exact none
  · rfl

theorem close_with (h : p.close = .ok q) (inHeader : Bool → Bool)
    (metadata : Entries String → Entries String) (waiting : List String → List String) :
    { p with
      inHeader := inHeader p.inHeader
      metadata := metadata p.metadata
      waiting := waiting p.waiting }.close =
    .ok { q with
      inHeader := inHeader q.inHeader
      metadata := metadata q.metadata
      waiting := waiting q.waiting } := by
  rcases close_eq_ok.1 h with ⟨none, rfl⟩ | ⟨draft, d, some, defined, rfl⟩
  · exact close_eq_ok.2 (.inl ⟨none, rfl⟩)
  · exact close_eq_ok.2 (.inr ⟨draft, d, some, defined, rfl⟩)

theorem inHeader_of_close (h : p.close = .ok q) : p.inHeader = q.inHeader := by
  rcases close_eq_ok.1 h with ⟨-, rfl⟩ | ⟨_, _, -, -, rfl⟩ <;> rfl

/-! ## Lines by what they begin with -/

variable {raw rest : List Char} {c : Char}

theorem step_metadata {key value : String} (h : p.inHeader = true)
    (line : trim raw = '/' :: '/' :: rest)
    (entry : metadata? ('/' :: '/' :: rest) = some (key, value)) :
    p.step number raw = .ok { p with metadata := p.metadata.put key value } := by
  simp [step, line, h, entry]

theorem step_comment (h : p.inHeader = false) (line : trim raw = '/' :: '/' :: rest) :
    p.step number raw = .ok { p with waiting := p.waiting ++ [String.ofList (trim rest)] } := by
  have letter : '/'.isAlpha = false := by decide
  simp [step, line, h, body, sectionName?, identifier?, letter]

/-- A line that is neither a comment nor the mark of the format ends the header. -/
theorem step_body (slash : c ≠ '/') (line : trim raw = c :: rest) (other : c :: rest ≠ ['F', 'M']) :
    p.step number raw = { p with inHeader := false }.body number (c :: rest) := by
  cases h : p.inHeader with
  | true => simp [step, line, h, other, slash]
  | false =>
    have same : { p with inHeader := false } = p := by rw [← h]
    simp [step, line, h, same]

theorem body_section {line : List Char} {name : String} (h : sectionName? line = some name)
    (closed : p.close = .ok q) :
    p.body number line =
      .ok { q with sections := ⟨name, number, []⟩ :: q.sections, waiting := [] } := by
  simp [body, h, closed]

theorem body_definition (slash : c ≠ '/') (name : sectionName? (c :: rest) = none)
    (opens : opensDefinition (c :: rest) = true) (slashes : NoSlashes (c :: rest))
    (trimmed : Trimmed (c :: rest)) (closed : p.close = .ok q) :
    p.body number (c :: rest) =
      .ok { q with draft := some ⟨c :: rest, number, q.waiting⟩, waiting := [] } := by
  simp [body, name, slash, code, opens, splitComment_of_noSlashes slashes, trimmed.trim_eq, closed,
    trailing]

/-! ## Lines one after the other -/

theorem steps_append (p : Progress) (number : Nat) (xs ys : List (List Char)) :
    p.steps number (xs ++ ys) = p.steps number xs >>= fun p => p.steps (number + xs.length) ys := by
  induction xs generalizing p number with
  | nil => rfl
  | cons x xs ih =>
    simp only [List.cons_append, Progress.steps, bind_assoc, ih, List.length_cons, Nat.add_assoc,
      Nat.add_comm 1]

/-- Lines lead from what is known before them to what is known after them. -/
def Leads (q : Progress) (number : Nat) (lines : List String) (q' : Progress) : Prop :=
  ∀ p : Progress, p.close = .ok q →
    ∃ p', p.steps number (lines.map String.toList) = .ok p' ∧ p'.close = .ok q'

namespace Leads

variable {xs ys : List String}

theorem nil (q : Progress) (number : Nat) : Leads q number [] q :=
  fun p h => ⟨p, rfl, h⟩

theorem append (first : Leads q number xs q') (second : Leads q' (number + xs.length) ys q'') :
    Leads q number (xs ++ ys) q'' := by
  intro p h
  obtain ⟨p', steps, closed⟩ := first p h
  obtain ⟨p'', steps', closed'⟩ := second p' closed
  refine ⟨p'', ?_, closed'⟩
  rw [List.map_append, steps_append, steps, ok_bind, List.length_map, steps']

/-- One line leads to what closing the progress after it leaves. -/
theorem line {x : String}
    (step : ∀ p : Progress, p.close = .ok q → ∃ p', p.step number x.toList = .ok p' ∧
      p'.close = .ok q') :
    Leads q number [x] q' := by
  intro p h
  obtain ⟨p', stepped, closed⟩ := step p h
  exact ⟨p', by simp [Progress.steps, stepped, ok_bind], closed⟩

end Leads

/-! ## The header -/

theorem leads_format (h : q.inHeader = true) : Leads q number ["FM"] q := by
  refine Leads.line fun p closed => ?_
  have inHeader : p.inHeader = true := (inHeader_of_close closed).trans h
  have line : trim "FM".toList = ['F', 'M'] := by decide
  exact ⟨p, by simp only [step, line, inHeader]; rfl, closed⟩

theorem metadata?_append {key : String} (word : IsWord key) (tail : List Char) :
    metadata? ('/' :: '/' :: ' ' :: (key.toList ++ ':' :: tail)) =
      some (key, String.ofList (trim tail)) := by
  obtain ⟨c, name, chars⟩ := List.exists_cons_of_ne_nil word.toList_ne_nil
  have nameChar : isNameChar c = true := word.named c (by simp [chars])
  have start : (' ' :: (key.toList ++ ':' :: tail)).dropWhile isBlank = key.toList ++
      ':' :: tail := by
    have space : isBlank ' ' = true := by decide
    simp [chars, space, isBlank_of_isNameChar nameChar]
  have span : (key.toList ++ ':' :: tail).span isNameChar = (key.toList, ':' :: tail) := by
    apply span_append word.named
    rintro d ⟨⟩
    decide
  have colon : (':' :: tail).dropWhile isBlank = ':' :: tail := rfl
  have name : String.ofList (c :: name) = key := by rw [← chars, String.ofList_toList]
  simp only [metadata?, start, span]
  rw [chars]
  simp only [colon, name]

/-- The line of an entry of the metadata, without the blank at its end if the value is empty. -/
theorem trim_metadata {key value : String} (word : IsWord key) (trimmed : IsTrimmedLine value) :
    ∃ rest, trim ("// " ++ key ++ ": " ++ value).toList = '/' :: '/' :: rest ∧
      metadata? ('/' :: '/' :: rest) = some (key, value) := by
  have before : Trimmed (['/', '/', ' '] ++ key.toList ++ [':']) :=
    trimmed_concat (by rintro c ⟨⟩; decide) (by simp) (by decide)
  obtain ⟨tail, line, entry⟩ := before.exists_tail (by simp) trimmed.ends
  refine ⟨' ' :: (key.toList ++ ':' :: tail), ?_, ?_⟩
  · simpa [String.toList_append] using line
  · rw [metadata?_append word, entry, String.ofList_toList]

theorem leads_metadata (h : q.inHeader = true) {key value : String} (word : IsWord key)
    (trimmed : IsTrimmedLine value) :
    Leads q number ["// " ++ key ++ ": " ++ value]
      { q with metadata := q.metadata.put key value } := by
  refine Leads.line fun p closed => ?_
  obtain ⟨rest, line, entry⟩ := trim_metadata word trimmed
  exact ⟨_, step_metadata ((inHeader_of_close closed).trans h) line entry,
    close_with closed id (·.put key value) id⟩

/-! ## Sections, comments and objects -/

/-- What is known after the header while no definition is open. -/
def inBody (metadata : Entries String) (sections : List Section) (definitions : List Definition)
    (waiting : List String) : Progress where
  inHeader := false
  metadata := metadata
  sections := sections
  definitions := definitions
  waiting := waiting
  draft := none

variable {metadata : Entries String} {sections earlier : List Section} {current : Section}
  {definitions : List Definition} {waiting : List String}

theorem ne_slash_of_isAlpha {c : Char} (letter : c.isAlpha = true) : c ≠ '/' := by
  rintro rfl
  exact absurd letter (by decide)

theorem close_inBody (h : p.close = .ok q) :
    { p with inHeader := false }.close =
      .ok (inBody q.metadata q.sections q.definitions q.waiting) := by
  have closed := close_with h (fun _ => false) id id
  simpa [inBody, draft_of_close h] using closed

theorem leads_section {name : String} (h : IsIdentifier name) :
    Leads q number [name ++ ":"]
      (inBody q.metadata (⟨name, number, []⟩ :: q.sections) q.definitions []) := by
  refine Leads.line fun p closed => ?_
  obtain ⟨c, rest, chars, letter⟩ := h.exists_cons
  have found := sectionName?_sectionLine h
  have line : trim (name ++ ":").toList = c :: (rest ++ [':']) := by
    have text : (name ++ ":").toList = name.toList ++ [':'] := by simp [String.toList_append]
    rw [text, (trimmed_sectionLine h).trim_eq, chars, List.cons_append]
  have other : c :: (rest ++ [':']) ≠ ['F', 'M'] := by
    intro eq
    have colon : ':' ∈ ['F', 'M'] := eq ▸ (by simp)
    exact absurd colon (by decide)
  rw [chars] at found
  exact ⟨_, (step_body (ne_slash_of_isAlpha letter) line other).trans
    (body_section found (close_inBody closed)), rfl⟩

theorem leads_comment {text : String} (trimmed : IsTrimmedLine text) :
    Leads (inBody metadata sections definitions waiting) number ["// " ++ text]
      (inBody metadata sections definitions (waiting ++ [text])) := by
  refine Leads.line fun p closed => ?_
  have slashes : Trimmed (['/'] ++ ['/']) :=
    trimmed_concat (by rintro c ⟨⟩; decide) (by simp) (by decide)
  obtain ⟨tail, line, comment⟩ := slashes.exists_tail (by simp) trimmed.ends
  have comment : String.ofList (trim tail) = text := by rw [comment, String.ofList_toList]
  refine ⟨{ p with waiting := p.waiting ++ [text] }, ?_, close_with closed id id (· ++ [text])⟩
  rw [step_comment (inHeader_of_close closed) (by simpa [String.toList_append] using line), comment]

theorem leads_definition (o : Outline.Object) :
    Leads (inBody metadata (current :: earlier) definitions o.comments) number [o.written]
      (inBody metadata (addTo (o.definition current.name number) (current :: earlier))
        (definitions ++ [o.definition current.name number]) []) := by
  refine Leads.line fun p closed => ?_
  obtain ⟨c, rest, chars, letter⟩ := o.exists_cons_written
  have line : trim o.written.toList = c :: rest := by rw [o.trimmed_written.trim_eq, chars]
  have opens := o.opensDefinition_written
  have other : c :: rest ≠ ['F', 'M'] := by
    intro eq
    rw [chars, eq] at opens
    exact absurd opens (by decide)
  have slash := ne_slash_of_isAlpha letter
  have defined := o.define_written current earlier number
  have body : { p with inHeader := false }.body number (c :: rest) = .ok _ :=
    body_definition slash (by rw [← chars, o.sectionName?_written]) (by rw [← chars, opens])
      (chars ▸ o.inCode_written.noSlashes) (chars ▸ o.trimmed_written) (close_inBody closed)
  rw [chars] at defined
  refine ⟨_, (step_body slash line other).trans body, ?_⟩
  -- the definition stays open, and is what it will be closed to
  simp [close, inBody, defined]

/-! ## From comments to whole texts -/

theorem leads_comments {comments : List String} (trimmed : ∀ c ∈ comments, IsTrimmedLine c) :
    Leads (inBody metadata sections definitions waiting) number (comments.map ("// " ++ ·))
      (inBody metadata sections definitions (waiting ++ comments)) := by
  induction comments generalizing waiting number with
  | nil => simpa using Leads.nil _ number
  | cons text comments ih =>
    have first : Leads (inBody metadata sections definitions waiting) number ["// " ++ text]
        (inBody metadata sections definitions (waiting ++ [text])) :=
      leads_comment (trimmed text (by simp))
    simpa using first.append (ih fun c hc => trimmed c (by simp [hc]))

theorem leads_object (o : Outline.Object) :
    Leads (inBody metadata (current :: earlier) definitions []) number o.lines
      (inBody metadata
        (addTo (o.definition current.name (number + o.comments.length)) (current :: earlier))
        (definitions ++ [o.definition current.name (number + o.comments.length)]) []) := by
  have comments : Leads (inBody metadata (current :: earlier) definitions []) number
      (o.comments.map ("// " ++ ·))
      (inBody metadata (current :: earlier) definitions o.comments) := leads_comments o.trimmed
  refine comments.append ?_
  rw [List.length_map]
  exact leads_definition o

/-- The objects of a section add their definitions to it and to the model. -/
theorem leads_objects (objects : List Outline.Object) :
    Leads (inBody metadata (current :: earlier) definitions []) number
      (objects.flatMap Outline.Object.lines)
      (inBody metadata
        ({ current with
            definitions := current.definitions ++
              Outline.definitionsFrom current.name number objects } :: earlier)
        (definitions ++ Outline.definitionsFrom current.name number objects) []) := by
  induction objects generalizing current definitions number with
  | nil => simpa [Outline.definitionsFrom] using Leads.nil _ number
  | cons o objects ih =>
    have first : Leads (inBody metadata (current :: earlier) definitions []) number o.lines _ :=
      leads_object o
    simpa [Outline.definitionsFrom] using first.append ih

theorem leads_wholeSection (s : Outline.Section) :
    Leads q number s.lines
      (inBody q.metadata
        (⟨s.name, number, Outline.definitionsFrom s.name (number + 1) s.objects⟩ :: q.sections)
        (q.definitions ++ Outline.definitionsFrom s.name (number + 1) s.objects) []) :=
  (leads_section s.identifier).append (leads_objects s.objects)

theorem leads_sections (sections : List Outline.Section) :
    ∃ q', Leads q number (sections.flatMap Outline.Section.lines) q' ∧ q'.metadata = q.metadata ∧
      q'.sections = (Outline.sectionsFrom number sections).reverse ++ q.sections ∧
      q'.definitions = q.definitions ++
        (Outline.sectionsFrom number sections).flatMap (·.definitions) := by
  induction sections generalizing q number with
  | nil => exact ⟨q, Leads.nil q number, by simp [Outline.sectionsFrom]⟩
  | cons s sections ih =>
    have first : Leads q number s.lines _ := leads_wholeSection s
    obtain ⟨q', rest, metadata, all, definitions⟩ := ih
    refine ⟨q', first.append rest, metadata, ?_, ?_⟩
    · simp [all, Outline.sectionsFrom, inBody]
    · simp [definitions, Outline.sectionsFrom, inBody]

/-- The entries of the metadata are put one after the other. -/
theorem leads_header (h : q.inHeader = true) {entries : Entries String}
    (words : ∀ key ∈ entries.keys, IsWord key) (trimmed : ∀ e ∈ entries, IsTrimmedLine e.2) :
    Leads q number (entries.map fun e => "// " ++ e.1 ++ ": " ++ e.2)
      { q with metadata := entries.foldl (fun t e => t.put e.1 e.2) q.metadata } := by
  induction entries generalizing q number with
  | nil => simpa using Leads.nil q number
  | cons e entries ih =>
    simp only [Entries.keys, List.map_cons, List.forall_mem_cons] at words trimmed
    have first : Leads q number ["// " ++ e.1 ++ ": " ++ e.2] _ :=
      leads_metadata h words.1 trimmed.1
    simpa using first.append (ih h words.2 trimmed.2)

end Progress

namespace Outline

theorem Object.unbroken_lines (o : Object) : ∀ l ∈ o.lines, Unbroken l.toList ∧ l.toList ≠ [] := by
  intro l hl
  rcases List.mem_append.1 hl with comment | written
  · obtain ⟨text, htext, rfl⟩ := List.mem_map.1 comment
    rw [String.toList_append]
    exact ⟨Unbroken.append (by decide) (o.trimmed text htext).unbroken, by simp⟩
  · cases List.mem_singleton.1 written
    obtain ⟨c, rest, chars, -⟩ := o.exists_cons_written
    exact ⟨o.inCode_written.unbroken, by simp [chars]⟩

theorem unbroken_lines (o : Outline) : ∀ l ∈ o.lines, Unbroken l.toList ∧ l.toList ≠ [] := by
  intro l hl
  rcases List.mem_append.1 hl with header | body
  · rcases List.mem_cons.1 header with rfl | entry
    · exact ⟨by decide, by decide⟩
    · obtain ⟨e, he, rfl⟩ := List.mem_map.1 entry
      have key := (o.words e.1 (List.mem_map_of_mem he)).named.unbroken
      simp only [String.toList_append]
      exact ⟨((Unbroken.append (by decide) key).append (by decide)).append
        (o.trimmed e he).unbroken, by simp⟩
  · obtain ⟨s, hs, mem⟩ := List.mem_flatMap.1 body
    rcases List.mem_cons.1 mem with rfl | mem
    · rw [String.toList_append]
      exact ⟨s.identifier.named.unbroken.append (by decide), by simp⟩
    · obtain ⟨object, -, mem⟩ := List.mem_flatMap.1 mem
      exact object.unbroken_lines l mem

theorem lines_written (o : Outline) : Text.lines o.written.toList = o.lines.map String.toList := by
  rw [written, String.toList_intercalate]
  exact lines_intercalate (List.forall_mem_map.2 o.unbroken_lines)

/-- The lines of an outline lead from the start to the model that the outline denotes. -/
theorem leads_lines (o : Outline) :
    ∃ q, Progress.Leads Progress.start 1 o.lines q ∧ q.model = o.model := by
  have metadata : o.metadata.foldl (fun t e => Entries.put e.1 e.2 t) [] = o.metadata :=
    Entries.ofList_of_nodup o.distinct
  have format : Progress.Leads Progress.start 1 ["FM"] _ := Progress.leads_format rfl
  have header : Progress.Leads Progress.start (1 + ["FM"].length)
      (o.metadata.map fun e => "// " ++ e.1 ++ ": " ++ e.2) _ :=
    Progress.leads_header rfl o.words o.trimmed
  obtain ⟨q, sections, kept, all, definitions⟩ := Progress.leads_sections o.sections
  refine ⟨q, (format.append header).append sections, ?_⟩
  have line : 1 + (["FM"] ++ o.metadata.map fun e => "// " ++ e.1 ++ ": " ++ e.2).length =
      o.metadata.length + 2 := by
    rw [List.length_append, List.length_map, List.length_singleton]
    omega
  rw [line] at all definitions
  simp [Progress.model, Outline.model, kept, all, definitions, metadata, Progress.start]

/-- What an outline is written as is read back. -/
theorem ofSource_written (o : Outline) : Model.ofSource o.written = .ok o.model := by
  obtain ⟨q, leads, model⟩ := o.leads_lines
  obtain ⟨p, steps, closed⟩ := leads Progress.start rfl
  rw [Model.ofSource, lines_written, steps, ok_bind, closed, ok_bind, model]
  rfl

def shop : Outline where
  metadata := [("Currency", "EUR")]
  sections :=
    [{ name := "Sales"
       objects :=
        [{ name := "Shop"
           kind := "SubMth"
           arguments :=
            [{ text := "Users.val"
               argument := .reference "Users" "val" "Users.val" none
               plain := by decide
               denotes := rfl }]
           outputs :=
            [{ name := "paid"
               inline := some
                [{ key := "plan"
                   text := "'basic'"
                   value := .text "basic"
                   key_plain := by decide
                   key_colon := by decide
                   plain := by decide
                   denotes := rfl }]
               word := by decide
               distinct := by decide }]
           comments := ["all users pay"]
           name_identifier := by decide
           kind_identifier := by decide
           distinct := by decide
           trimmed := by decide }]
       identifier := by decide }]
  words := by decide
  distinct := by decide
  trimmed := by decide

example : shop.written =
    "FM\n// Currency: EUR\nSales:\n// all users pay\n" ++
      "Shop = SubMth(Users.val) => paid(plan: 'basic')" := by
  decide +kernel

end Outline
end Forecast

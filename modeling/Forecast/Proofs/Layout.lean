import Forecast.Proofs.Headings

/-!
# Layout

Blank lines and comments shape a text without saying anything, apart from the
entries of the header. A blank line closes the definition before it. Without the
blank line this definition stays open, until a heading or the end of the text
closes it: what follows a blank line never continues it, or it would be stray.
So two layouts of one text are read alike, up to a definition that one of them
has still to close.
-/

namespace Forecast

open Outcome Text

def Definition.bare (d : Definition) : Definition :=
  { d with comment := "", line := 0 }

def Section.bare (s : Section) : Section :=
  { s with line := 0, definitions := s.definitions.map Definition.bare }

def Model.bare (m : Model) : Model where
  sections := m.sections.map Section.bare
  definitions := m.definitions.map Definition.bare
  metadata := m.metadata

namespace Text

def IsComment (raw : List Char) : Prop :=
  ∃ rest, trim raw = '/' :: '/' :: rest

/-- Whether a line leaves the header open: it is blank, the mark of the format or a comment. -/
def mayHead (raw : List Char) : Bool :=
  match trim raw with
  | [] | ['F', 'M'] | '/' :: '/' :: _ => true
  | _ => false

end Text

/-- Lines in another layout; `header` tells whether all lines before may belong to the header, where
a comment may be an entry. -/
inductive Relaid : Bool → List (List Char) → List (List Char) → Prop
  | nil (header : Bool) : Relaid header [] []
  | keep {header : Bool} {raw raw' : List Char} {ls ls' : List (List Char)}
      (same : trim raw' = trim raw)
    (rest : Relaid (header && mayHead raw) ls ls') : Relaid header (raw :: ls) (raw' :: ls')
  /-- A comment behind a line that opens a definition is taken away. -/
  | uncomment {header : Bool} {raw raw' : List Char} {ls ls' : List (List Char)}
    (opens : opensDefinition (trim raw) = true)
      (code : trim raw' = trim (splitComment (trim raw)).1)
    (rest : Relaid false ls ls') : Relaid header (raw :: ls) (raw' :: ls')
  | dropBlank {header : Bool} {raw : List Char} {ls ls' : List (List Char)} (blank : trim raw = [])
    (rest : Relaid header ls ls') : Relaid header (raw :: ls) ls'
  | dropComment {header : Bool} {raw : List Char} {ls ls' : List (List Char)}
      (comment : IsComment raw)
    (noEntry : header = true → metadata? (trim raw) = none) (rest : Relaid header ls ls') :
    Relaid header (raw :: ls) ls'
  | addComment {raw' : List Char} {ls ls' : List (List Char)} (comment : IsComment raw')
    (rest : Relaid false ls ls') : Relaid false ls (raw' :: ls')

/-! ## The code of a line -/

namespace Text

variable {s : List Char}

theorem code_prefix (s : List Char) : (splitComment s).1 <+: s := by
  fun_induction splitComment s with
  | case1 rest => exact List.nil_prefix
  | case2 c rest _ before comment split ih =>
    rw [split] at ih
    exact (List.cons_prefix_cons).2 ⟨rfl, ih⟩
  | case3 => exact List.prefix_rfl

theorem noSlashes_code (s : List Char) : NoSlashes (splitComment s).1 := by
  fun_induction splitComment s with
  | case1 rest => exact List.isChain_nil
  | case2 c rest single before comment split ih =>
    rw [split] at ih
    refine List.isChain_cons.2 ⟨?_, ih⟩
    rintro d hd ⟨rfl, rfl⟩
    have front := code_prefix rest
    rw [split] at front
    obtain ⟨tail, start⟩ := List.head?_eq_some_iff.1 hd
    obtain ⟨more, whole⟩ := front
    rw [start, List.cons_append] at whole
    exact single _ rfl whole.symm
  | case3 => exact List.isChain_nil

theorem code_code (s : List Char) :
    trim (splitComment (trim (splitComment s).1)).1 = trim (splitComment s).1 := by
  have inside : trim (splitComment s).1 <:+: (splitComment s).1 := by
    obtain ⟨before, after, whole, -⟩ := exists_trim (splitComment s).1
    exact ⟨before, after, by rw [List.append_assoc, ← whole]⟩
  have slashes : NoSlashes (trim (splitComment s).1) :=
    noSlashes_iff.2 fun pair => noSlashes_iff.1 (noSlashes_code s) (pair.trans inside)
  rw [splitComment_of_noSlashes slashes]
  exact (trimmed_trim _).trim_eq

theorem opensDefinition_code (opens : opensDefinition s = true) :
    opensDefinition (trim (splitComment s).1) = true := by
  rw [← isSome_definitionName?, Option.isSome_iff_exists] at opens ⊢
  obtain ⟨name, found⟩ := opens
  exact ⟨name, definitionName?_eq_some.2 (definitionName?_eq_some.1 found).code⟩

end Text

/-! ## Lines only matter for faults -/

section

variable {line line' : Nat} {s : List Char}

theorem inlineValues_line {values : Entries InlineValue} (h : inlineValues line s = .ok values) :
    inlineValues line' s = .ok values := by
  refine (foldlM_through id (fun _ => True) ?_ h trivial).1
  refine fun part _ values values' _ step => ⟨?_, trivial⟩
  split at step
  · cases step
  · simp only [bind_eq_ok] at step ⊢
    obtain ⟨v, read, put⟩ := step
    exact ⟨v, InlineValue.ofChars_line read, put⟩

theorem Outputs.ofChars_line {o : Outputs} (h : ofChars line s = .ok o) :
    ofChars line' s = .ok o := by
  refine (foldlM_through id (fun _ => True) ?_ h trivial).1
  refine fun token _ o o' _ step => ⟨?_, trivial⟩
  simp only [add] at step ⊢
  split at step
  · cases step
  · split at step
    · rename_i empty
      rw [if_pos empty]
      exact step
    · rename_i some
      rw [if_neg some]
      simp only [bind_eq_ok] at step ⊢
      obtain ⟨values, read, put⟩ := step
      exact ⟨values, inlineValues_line read, put⟩

end

namespace Progress

variable {p p' q q' : Progress} {number : Nat} {line line' raw raw' : List Char}
  {ls ls' : List (List Char)} {sections sections' : List Section} {draft draft' : Draft}
  {d d' : Definition}

theorem define_bare (same : sections'.map Section.bare = sections.map Section.bare)
    (text : draft'.text = draft.text) (h : define sections draft = .ok d) :
    ∃ d', define sections' draft' = .ok d' ∧ d'.bare = d.bare := by
  unfold define at h ⊢
  rw [text]
  split at h
  · cases h
  · rename_i header found
    split at h
    · cases h
    · rename_i current earlier
      obtain ⟨current', earlier', rfl, first, -⟩ := List.map_eq_cons_iff.1 same
      have name : current'.name = current.name := (Section.mk.inj first).1
      simp only [bind_eq_ok, pure_eq_ok] at h ⊢
      obtain ⟨arguments, tokens, outputs, named, rfl⟩ := h
      have tokens' : (splitTokens header.arguments).mapM (Argument.ofToken draft'.line) =
          .ok arguments :=
        mapM_eq_ok.2 ((mapM_eq_ok.1 tokens).imp fun _ _ => Argument.ofToken_line)
      exact ⟨_, ⟨_, tokens', _, Outputs.ofChars_line named, rfl⟩, by simp [Definition.bare, name]⟩

theorem addTo_bare (same : sections'.map Section.bare = sections.map Section.bare)
    (alike : d'.bare = d.bare) :
    (addTo d' sections').map Section.bare = (addTo d sections).map Section.bare := by
  cases sections with
  | nil =>
    rw [List.map_nil, List.map_eq_nil_iff] at same
    rw [same, addTo, addTo]
  | cons current earlier =>
    obtain ⟨current', earlier', rfl, first, others⟩ := List.map_eq_cons_iff.1 same
    simp only [Section.bare, Section.mk.injEq] at first
    obtain ⟨name, -, definitions⟩ := first
    simp [addTo, Section.bare, others, name, definitions, alike]

/-! ## Two readings of one text -/

/-- What has been read into sections and definitions differs at most in comments and lines. -/
structure Agrees (p q : Progress) : Prop where
  inHeader : q.inHeader = p.inHeader
  metadata : q.metadata = p.metadata
  sections : q.sections.map Section.bare = p.sections.map Section.bare
  definitions : q.definitions.map Definition.bare = p.definitions.map Definition.bare

/-- What has been read of a text, and of its other layout. The definition that is open is the same,
or the other layout has still to close one that the text has closed. -/
inductive Mirrors (p q : Progress) : Prop
  | together {draft draft' : Draft} (agrees : p.Agrees q) (first : p.draft = some draft)
    (second : q.draft = some draft') (text : draft'.text = draft.text) : Mirrors p q
  | late {q' : Progress} (none : p.draft = .none) (closed : q.close = .ok q')
      (agrees : p.Agrees q') :
    Mirrors p q

theorem Agrees.mirrors (agrees : p.Agrees q) (none : p.draft = .none) (none' : q.draft = .none) :
    p.Mirrors q :=
  .late none (close_eq_ok.2 (.inl ⟨none', rfl⟩)) agrees

namespace Mirrors

variable (mirrors : p.Mirrors q)
include mirrors

theorem inHeader : q.inHeader = p.inHeader := by
  cases mirrors with
  | together agrees => exact agrees.inHeader
  | late _ closed agrees => exact (inHeader_of_close closed).trans agrees.inHeader

/-- If the text ends here, so may the other layout. -/
theorem close (closed : p.close = .ok p') : ∃ q', q.close = .ok q' ∧ p'.Agrees q' := by
  cases mirrors with
  | @together draft draft' agrees first second text =>
    rcases close_eq_ok.1 closed with ⟨none, -⟩ | ⟨_, d, some, defined, rfl⟩
    · rw [first] at none
      cases none
    · cases first.symm.trans some
      obtain ⟨d', defined', alike⟩ := define_bare agrees.sections text defined
      refine ⟨_, close_eq_ok.2 (.inr ⟨draft', d', second, defined', rfl⟩), ?_⟩
      exact
        { inHeader := agrees.inHeader
          metadata := agrees.metadata
          sections := addTo_bare agrees.sections alike
          definitions := by simp [agrees.definitions, alike] }
  | @late q' none closed' agrees =>
    rcases close_eq_ok.1 closed with ⟨-, rfl⟩ | ⟨_, _, some, -, -⟩
    · exact ⟨q', closed', agrees⟩
    · rw [none] at some
      cases some

/-- The header may change on both sides alike, and comments may wait anywhere. -/
theorem update (inHeader : Bool → Bool) (metadata : Entries String → Entries String)
    (waiting waiting' : List String) :
    Mirrors { p with inHeader := inHeader p.inHeader, metadata := metadata p.metadata, waiting }
      { q with
        inHeader := inHeader q.inHeader, metadata := metadata q.metadata
        waiting := waiting' } := by
  cases mirrors with
  | together agrees first second text =>
    refine .together ⟨?_, ?_, agrees.sections, agrees.definitions⟩ first second text
    · exact congrArg inHeader agrees.inHeader
    · exact congrArg metadata agrees.metadata
  | late none closed agrees =>
    refine .late none (close_with closed inHeader metadata fun _ => waiting')
      ⟨?_, ?_, agrees.sections, agrees.definitions⟩
    · exact congrArg inHeader agrees.inHeader
    · exact congrArg metadata agrees.metadata

/-! ## One line -/

/-- A line of code, and one that opens or continues with the same code. -/
theorem code (opens : opensDefinition line' = opensDefinition line)
    (text : trim (splitComment line').1 = trim (splitComment line).1) (number' : Nat)
    (h : p.code number line = .ok p') : ∃ q', q.code number' line' = .ok q' ∧ p'.Mirrors q' := by
  simp only [Progress.code, opens, text] at h ⊢
  split at h
  · rename_i begins
    simp only [bind_eq_ok, pure_eq_ok] at h
    obtain ⟨r, closed, rfl⟩ := h
    obtain ⟨r', closed', agrees⟩ := mirrors.close closed
    refine ⟨_, by rw [if_pos begins, closed']; rfl, ?_⟩
    exact .together ⟨agrees.inHeader, agrees.metadata, agrees.sections,
      agrees.definitions⟩ rfl rfl rfl
  · rename_i other
    rw [if_neg other]
    cases mirrors with
    | together agrees first second same =>
      rw [first] at h
      rw [second]
      cases h
      refine ⟨_, rfl, .together ⟨agrees.inHeader, agrees.metadata, agrees.sections,
        agrees.definitions⟩
        rfl rfl ?_⟩
      simp only [same]
    | late none =>
      rw [none] at h
      cases h

theorem body (number' : Nat) (h : p.body number line = .ok p') :
    ∃ q', q.body number' line = .ok q' ∧ p'.Mirrors q' := by
  unfold Progress.body at h ⊢
  split at h
  · rename_i name heads
    simp only [bind_eq_ok, pure_eq_ok] at h
    obtain ⟨r, closed, rfl⟩ := h
    obtain ⟨r', closed', agrees⟩ := mirrors.close closed
    have none := draft_of_close closed
    have none' := draft_of_close closed'
    refine ⟨{ r' with sections := ⟨name, number', []⟩ :: r'.sections, waiting := [] },
      by simp [closed'], Agrees.mirrors ?_ none none'⟩
    exact
      { inHeader := agrees.inHeader
        metadata := agrees.metadata
        sections := by simp [Section.bare, agrees.sections]
        definitions := agrees.definitions }
  · split at h
    · cases h
      exact ⟨_, rfl, mirrors.update id id _ _⟩
    · rename_i plain
      exact mirrors.code rfl rfl number' h

/-- A line that is kept, at most with other blanks around it. -/
theorem keep (same : trim raw' = trim raw) (number' : Nat) (h : p.step number raw = .ok p') :
    ∃ q', q.step number' raw' = .ok q' ∧ p'.Mirrors q' := by
  simp only [Progress.step, same] at h ⊢
  split at h
  · rename_i empty
    simp only [bind_eq_ok, pure_eq_ok] at h
    obtain ⟨r, closed, rfl⟩ := h
    obtain ⟨r', closed', agrees⟩ := mirrors.close closed
    have none := draft_of_close closed
    have none' := draft_of_close closed'
    exact ⟨_, by rw [if_pos empty, closed']; rfl, (agrees.mirrors none none').update id id _ _⟩
  · rename_i some
    rw [if_neg some]
    split at h
    · rename_i header
      rw [if_pos (mirrors.inHeader.trans header)]
      split at h
      · rename_i mark
        cases h
        exact ⟨q, by rw [if_pos mark], mirrors⟩
      · rename_i other
        rw [if_neg other]
        split at h
        · split at h
          · cases h
            exact ⟨_, rfl, mirrors.update id (·.put _ _) _ _⟩
          · exact mirrors.body number' h
        · exact (mirrors.update (fun _ => false) id _ _).body number' h
    · rename_i passed
      rw [if_neg (by rwa [mirrors.inHeader])]
      exact mirrors.body number' h

end Mirrors

theorem step_blank (empty : trim raw = []) (h : p.step number raw = .ok p') :
    ∃ r, p.close = .ok r ∧ p' = { r with waiting := [] } := by
  simp only [step, empty, List.isEmpty_nil, if_true, bind_eq_ok, pure_eq_ok] at h
  obtain ⟨r, closed, rfl⟩ := h
  exact ⟨r, closed, rfl⟩

theorem step_remark (number : Nat) (comment : IsComment raw)
    (noEntry : p.inHeader = true → metadata? (trim raw) = none) :
    ∃ waiting, p.step number raw = .ok { p with waiting } := by
  obtain ⟨rest, line⟩ := comment
  cases header : p.inHeader with
  | false => exact ⟨_, by rw [step_comment header line, ← header]⟩
  | true =>
    have letter : '/'.isAlpha = false := by decide
    have noEntry := line ▸ noEntry header
    refine ⟨p.waiting ++ [String.ofList (trim rest)], ?_⟩
    simp [step, line, header, noEntry, body, sectionName?, identifier?, letter]

theorem step_definition (opens : opensDefinition (trim raw) = true) :
    p.step number raw = { p with inHeader := false }.code number (trim raw) := by
  rw [← isSome_definitionName?, Option.isSome_iff_exists] at opens
  obtain ⟨name, found⟩ := opens
  have other : sectionName? (trim raw) = none := by
    rw [Option.eq_none_iff_forall_ne_some]
    intro name' section_
    rw [definitionName?_of_sectionName? section_] at found
    cases found
  obtain ⟨identifier, between, after, line, -⟩ := definitionName?_eq_some.1 found
  obtain ⟨c, rest, chars, letter⟩ := identifier.exists_cons
  have slash := ne_slash_of_isAlpha letter
  rw [chars, List.cons_append] at line
  have mark : trim raw ≠ ['F', 'M'] := by
    intro mark
    have nothing : definitionName? ['F', 'M'] = none := by decide
    rw [mark, nothing] at found
    cases found
  rw [line] at mark other ⊢
  rw [step_body slash line mark, body, other]
  simp [slash]

/-! ## Whether the header is over -/

theorem inHeader_code (h : p.code number line = .ok p') : p'.inHeader = p.inHeader := by
  simp only [code] at h
  split at h
  · simp only [bind_eq_ok, pure_eq_ok] at h
    obtain ⟨r, closed, rfl⟩ := h
    exact (inHeader_of_close closed).symm
  · split at h <;> cases h
    rfl

theorem inHeader_body (h : p.body number line = .ok p') : p'.inHeader = p.inHeader := by
  unfold body at h
  split at h
  · simp only [bind_eq_ok, pure_eq_ok] at h
    obtain ⟨r, closed, rfl⟩ := h
    exact (inHeader_of_close closed).symm
  · split at h
    · cases h
      rfl
    · exact inHeader_code h

theorem inHeader_step (h : p.step number raw = .ok p') :
    p'.inHeader = (p.inHeader && mayHead raw) := by
  simp only [step] at h
  split at h
  · rename_i empty
    rw [List.isEmpty_iff] at empty
    simp only [bind_eq_ok, pure_eq_ok] at h
    obtain ⟨r, closed, rfl⟩ := h
    simp [mayHead, empty, inHeader_of_close closed]
  · rename_i some
    split at h
    · rename_i header
      split at h
      · rename_i mark
        cases h
        simp [mayHead, mark]
      · rename_i other
        split at h
        · rename_i comment
          have open_ : mayHead raw = true := by simp [mayHead, comment]
          rw [open_, Bool.and_true]
          split at h
          · cases h
            rfl
          · exact inHeader_body h
        · rename_i plain
          rw [inHeader_body h, header, Bool.true_and, mayHead]
          split <;> simp_all
    · rename_i passed
      have passed : p.inHeader = false := by simpa using passed
      rw [inHeader_body h, passed, Bool.false_and]

/-! ## All lines -/

/-- A definition can be opened without the comment behind it. -/
theorem Mirrors.uncomment (mirrors : p.Mirrors q) (opens : opensDefinition (trim raw) = true)
    (same : trim raw' = trim (splitComment (trim raw)).1) (number' : Nat)
    (h : p.step number raw = .ok p') : ∃ q', q.step number' raw' = .ok q' ∧ p'.Mirrors q' := by
  have opens' : opensDefinition (trim raw') = true := same ▸ opensDefinition_code opens
  rw [step_definition opens] at h
  rw [step_definition opens']
  refine (mirrors.update (fun _ => false) id _ _).code (opens'.trans opens.symm) ?_ number' h
  rw [same, code_code]

theorem Mirrors.steps {header : Bool} (relaid : Relaid header ls ls') (mirrors : p.Mirrors q)
    (here : p.inHeader = header) (number' : Nat) (h : p.steps number ls = .ok p') :
    ∃ q', q.steps number' ls' = .ok q' ∧ p'.Mirrors q' := by
  induction relaid generalizing p q number number' with
  | nil header =>
    cases h
    exact ⟨q, rfl, mirrors⟩
  | keep same rest ih =>
    rw [Progress.steps, bind_eq_ok] at h
    obtain ⟨r, first, others⟩ := h
    obtain ⟨r', first', after⟩ := mirrors.keep same number' first
    rw [Progress.steps, first', ok_bind]
    exact ih after (by rw [inHeader_step first, here]) _ others
  | uncomment opens code rest ih =>
    rw [Progress.steps, bind_eq_ok] at h
    obtain ⟨r, first, others⟩ := h
    obtain ⟨r', first', after⟩ := mirrors.uncomment opens code number' first
    rw [Progress.steps, first', ok_bind]
    refine ih after ?_ _ others
    rw [step_definition opens] at first
    exact inHeader_code first
  | dropBlank blank rest ih =>
    rw [Progress.steps, bind_eq_ok] at h
    obtain ⟨r, first, others⟩ := h
    obtain ⟨s, closed, rfl⟩ := step_blank blank first
    obtain ⟨q', closed', agrees⟩ := mirrors.close closed
    have none := draft_of_close closed
    refine ih ((Mirrors.late none closed' agrees).update id id _ _) ?_ _ others
    exact (inHeader_of_close closed).symm.trans here
  | dropComment comment noEntry rest ih =>
    rw [Progress.steps, bind_eq_ok] at h
    obtain ⟨r, first, others⟩ := h
    obtain ⟨waiting, step⟩ := step_remark _ comment (here ▸ noEntry)
    cases first.symm.trans step
    exact ih (mirrors.update id id waiting _) here _ others
  | @addComment raw' ls ls' comment rest ih =>
    have passed : q.inHeader = true → metadata? (trim raw') = none := by
      rw [mirrors.inHeader, here]
      rintro ⟨⟩
    obtain ⟨waiting, step⟩ := step_remark number' comment passed
    rw [Progress.steps, step, ok_bind]
    exact ih (mirrors.update id id _ waiting) here _ h

end Progress

/-- A text in another layout holds the same model, apart from comments and lines. -/
theorem Model.bare_of_relaid {source source' : String} {m : Model}
    (read : Model.ofSource source = .ok m)
    (relaid : Relaid true (lines source.toList) (lines source'.toList)) :
    ∃ m', Model.ofSource source' = .ok m' ∧ m'.bare = m.bare := by
  simp only [Model.ofSource, bind_eq_ok, pure_eq_ok] at read ⊢
  obtain ⟨p, steps, r, closed, rfl⟩ := read
  have agrees : Progress.start.Agrees Progress.start := ⟨rfl, rfl, rfl, rfl⟩
  obtain ⟨q, steps', mirrors⟩ := (agrees.mirrors rfl rfl).steps relaid rfl 1 steps
  obtain ⟨r', closed', after⟩ := mirrors.close closed
  refine ⟨_, ⟨q, steps', r', closed', rfl⟩, ?_⟩
  simp [Progress.model, Model.bare, after.metadata, after.sections, after.definitions]

def annotated : String :=
  "FM\n\n// a note\n// Date: 2025\nS:\n// sums\nA = Sum(1, // one\n// of two\n  2) => a\n\n" ++
    "// lost\n\nB = Sum(a.val) // last"

def unannotated : String :=
  "FM\n// Date: 2025\nS:\nA = Sum(1,\n// more\n  2) => a\n// Key: value\nB = Sum(a.val)\n// end"

theorem relaid_annotated : Relaid true (lines annotated.toList) (lines unannotated.toList) := by
  have first : lines annotated.toList = ["FM", "", "// a note", "// Date: 2025", "S:", "// sums",
    "A = Sum(1, // one", "// of two", "  2) => a", "", "// lost", "", "B = Sum(a.val) // last"].map
      String.toList := by decide +kernel
  have second : lines unannotated.toList = ["FM", "// Date: 2025", "S:", "A = Sum(1,", "// more",
    "  2) => a", "// Key: value", "B = Sum(a.val)", "// end"].map String.toList := by decide +kernel
  rw [first, second]
  exact .keep rfl <| .dropBlank rfl <| .dropComment ⟨_, rfl⟩ (fun _ => by decide) <| .keep rfl <|
    .keep rfl <| .dropComment ⟨_, rfl⟩ (by decide) <| .uncomment (by decide) (by decide) <|
    .dropComment ⟨_, rfl⟩ (by decide) <| .addComment ⟨_, rfl⟩ <| .keep rfl <| .dropBlank rfl <|
    .dropComment ⟨_, rfl⟩ (by decide) <| .dropBlank rfl <| .addComment ⟨_, rfl⟩ <|
    .uncomment (by decide) (by decide) <| .addComment ⟨_, rfl⟩ <| .nil _

theorem bare_annotated : ∃ m m', Model.ofSource annotated = .ok m ∧
    Model.ofSource unannotated = .ok m' ∧ m'.bare = m.bare ∧
    m.definitions.map (fun d => (d.name, d.comment, d.line)) =
      [("A", "sums\none", 7), ("B", "last", 13)] ∧ m.metadata = [("Date", "2025")] := by
  have shape : (Model.ofSource annotated).toOption.map (fun m =>
      (m.definitions.map (fun d => (d.name, d.comment, d.line)), m.metadata)) =
      some ([("A", "sums\none", 7), ("B", "last", 13)], [("Date", "2025")]) := by decide +kernel
  obtain ⟨m, read, same⟩ := exists_of_toOption_map shape
  obtain ⟨definitions, metadata⟩ := Prod.mk.inj same
  obtain ⟨m', read', bare⟩ := Model.bare_of_relaid read relaid_annotated
  exact ⟨m, m', read, read', bare, definitions, metadata⟩

end Forecast

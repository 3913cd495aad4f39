import Forecast.Proofs.Located

/-!
# Headings

A line may head a section or a definition, by an identifier and the character
after it. The sections and definitions of a model are the headings of its text,
in order: a definition that is open while other lines are read is neither lost
nor read twice, and stands in the section that was open when it began.
-/

namespace Forecast

open Outcome Text

/-- A trimmed line that heads a section: an identifier, then a colon and nothing more. -/
structure HeadsSection (line : List Char) (name : String) : Prop where
  identifier : IsIdentifier name
  colon : ∃ between after, line = name.toList ++ (between ++ ':' :: after) ∧
    (∀ c ∈ between, isBlank c = true) ∧ ∀ c ∈ after, isBlank c = true

/-- A trimmed line that heads a definition: an identifier, then an equals sign. -/
structure HeadsDefinition (line : List Char) (name : String) : Prop where
  identifier : IsIdentifier name
  equals : ∃ between after, line = name.toList ++ (between ++ '=' :: after) ∧
    ∀ c ∈ between, isBlank c = true

def definitionName? (line : List Char) : Option String :=
  if opensDefinition line then (identifier? line).map fun found => String.ofList found.1 else none

def headings (name? : List Char → Option String) (ls : List (List Char)) : List (String × Nat) :=
  (ls.zipIdx 1).filterMap fun line => (name? (trim line.1)).map (·, line.2)

def sectionBefore (ls : List (List Char)) (number : Nat) : Option (String × Nat) :=
  ((headings sectionName? ls).filter (·.2 < number)).getLast?

/-! ## What heads a section or a definition -/

section

variable {line name rest between after : List Char} {s : String} {c : Char}

theorem identifier?_eq_some (h : identifier? line = some (name, rest)) :
    IsIdentifier (String.ofList name) ∧ line = name ++ rest := by
  have named := isName_of_identifier? h
  cases line with
  | nil => cases h
  | cons c line =>
    simp only [identifier?] at h
    split at h
    · rename_i letter
      cases h
      refine ⟨⟨named, by simp [letter]⟩, ?_⟩
      simp [List.span_eq_takeWhile_dropWhile]
    · cases h

theorem identifier?_heading (identifier : IsIdentifier s) (blank : ∀ d ∈ between, isBlank d = true)
    (stop : isNameChar c = false) (after : List Char) :
    identifier? (s.toList ++ (between ++ c :: after)) = some (s.toList, between ++ c :: after) := by
  apply identifier?_append identifier
  intro d hd
  cases between with
  | nil =>
    cases hd
    exact stop
  | cons b between =>
    cases hd
    by_contra named
    have other := isBlank_of_isNameChar (Bool.not_eq_false _ ▸ named)
    rw [blank d (by simp)] at other
    cases other

theorem exists_between {p : Char → Bool} (h : rest.dropWhile p = c :: after) :
    ∃ between, rest = between ++ c :: after ∧ ∀ d ∈ between, p d = true :=
  ⟨rest.takeWhile p, by rw [← h, List.takeWhile_append_dropWhile], fun _ => List.mem_takeWhile_imp⟩

theorem dropWhile_between (blank : ∀ d ∈ between, isBlank d = true) (stop : isBlank c = false)
    (after : List Char) : (between ++ c :: after).dropWhile isBlank = c :: after := by
  rw [List.dropWhile_append_of_pos blank, List.dropWhile_cons_of_neg (by simp [stop])]

theorem sectionName?_eq_some : sectionName? line = some s ↔ HeadsSection line s := by
  constructor
  · intro h
    unfold sectionName? at h
    split at h
    · rename_i name rest found
      obtain ⟨identifier, rfl⟩ := identifier?_eq_some found
      split at h
      · rename_i tail start
        split at h
        · rename_i empty
          cases h
          obtain ⟨between, rfl, blank⟩ := exists_between start
          exact ⟨identifier, between, tail, by simp, blank, trim_eq_nil.1 (by simpa using empty)⟩
        · cases h
      · cases h
    · cases h
  · rintro ⟨identifier, between, after, rfl, blank, empty⟩
    have found := identifier?_heading identifier blank
      (show isNameChar ':' = false by decide) after
    have start := dropWhile_between blank (show isBlank ':' = false by decide) after
    have nothing : (trim after).isEmpty = true := by simpa using trim_eq_nil.2 empty
    simp only [sectionName?, found, start, nothing, if_true, String.ofList_toList]

theorem definitionName?_eq_some : definitionName? line = some s ↔ HeadsDefinition line s := by
  constructor
  · intro h
    unfold definitionName? opensDefinition at h
    cases found : identifier? line with
    | none => simp [found] at h
    | some parts =>
      obtain ⟨name, rest⟩ := parts
      obtain ⟨identifier, rfl⟩ := identifier?_eq_some found
      simp only [found, Option.map_some, Option.ite_none_right_eq_some, beq_iff_eq,
        List.head?_eq_some_iff] at h
      obtain ⟨⟨after, start⟩, same⟩ := h
      obtain ⟨between, rfl, blank⟩ := exists_between start
      cases same
      exact ⟨identifier, between, after, by simp, blank⟩
  · rintro ⟨identifier, between, after, rfl, blank⟩
    have found := identifier?_heading identifier blank
      (show isNameChar '=' = false by decide) after
    have start := dropWhile_between blank (show isBlank '=' = false by decide) after
    simp [definitionName?, opensDefinition, found, start]

theorem isSome_definitionName? : (definitionName? line).isSome = opensDefinition line := by
  unfold definitionName? opensDefinition
  cases identifier? line with
  | none => rfl
  | some found => by_cases equals : (found.2.dropWhile isBlank).head? = some '=' <;> simp [equals]

theorem definitionName?_of_sectionName? (h : sectionName? line = some s) :
    definitionName? line = none := by
  obtain ⟨identifier, between, after, rfl, blank, -⟩ := sectionName?_eq_some.1 h
  have found := identifier?_heading identifier blank
    (show isNameChar ':' = false by decide) after
  have start := dropWhile_between blank (show isBlank ':' = false by decide) after
  simp [definitionName?, opensDefinition, found, start]

end

/-! ## Lists of headings -/

section

variable {name? : List Char → Option String} {ls : List (List Char)} {raw : List Char}
  {name : String} {number : Nat}

theorem headings_concat :
    headings name? (ls ++ [raw]) =
      headings name? ls ++ ((name? (trim raw)).map (·, ls.length + 1)).toList := by
  simp only [headings, List.zipIdx_append, List.filterMap_append, Nat.add_comm 1]
  cases h : name? (trim raw) <;> simp [h]

theorem headings_concat_none (h : name? (trim raw) = none) :
    headings name? (ls ++ [raw]) = headings name? ls := by
  simp [headings_concat, h]

theorem headings_concat_some (h : name? (trim raw) = some name) :
    headings name? (ls ++ [raw]) = headings name? ls ++ [(name, ls.length + 1)] := by
  simp [headings_concat, h]

theorem le_of_mem_headings (h : (name, number) ∈ headings name? ls) : number ≤ ls.length := by
  simp only [headings, List.mem_filterMap, Option.map_eq_some_iff, Prod.mk.injEq] at h
  obtain ⟨line, mem, _, -, rfl, rfl⟩ := h
  have := List.snd_lt_of_mem_zipIdx mem
  omega

/-- The section before a line is known as soon as the lines before it are. -/
theorem sectionBefore_concat (h : number ≤ ls.length + 1) :
    sectionBefore (ls ++ [raw]) number = sectionBefore ls number := by
  rw [sectionBefore, headings_concat, List.filter_append]
  cases found : sectionName? (trim raw) with
  | none => simp [sectionBefore]
  | some name =>
    have late : ¬ls.length + 1 < number := by omega
    simp [sectionBefore, late]

theorem sectionBefore_last :
    sectionBefore ls (ls.length + 1) = (headings sectionName? ls).getLast? := by
  rw [sectionBefore, List.filter_eq_self.2]
  rintro ⟨name, number⟩ mem
  have := le_of_mem_headings mem
  simp
  omega

end

/-! ## What a line does to sections and definitions -/

section

variable {text more between rest : List Char} {c : Char} {name : String} {header : Header}

theorem dropEnd_concat {p : Char → Bool} (stop : p c = false) (before after : List Char) :
    dropEnd p (before ++ c :: after) = before ++ c :: dropEnd p after := by
  simp only [dropEnd, List.reverse_append, List.reverse_cons, List.append_assoc,
    List.dropWhile_append]
  split <;> simp_all

theorem splitComment_append {before : List Char} (slash : '/' ∉ before) (after : List Char) :
    (splitComment (before ++ after)).1 = before ++ (splitComment after).1 := by
  induction before with
  | nil => rfl
  | cons c before ih =>
    simp only [List.mem_cons, not_or] at slash
    rw [List.cons_append, splitComment]
    · exact congrArg (c :: ·) (ih slash.2)
    · rintro _ rfl
      exact absurd rfl slash.1

/-- The code before a comment has the same heading as the whole line. -/
theorem HeadsDefinition.code {line : List Char} (h : HeadsDefinition line name) :
    HeadsDefinition (trim (splitComment line).1) name := by
  obtain ⟨identifier, between, after, rfl, blank⟩ := h
  obtain ⟨c, rest, chars, letter⟩ := identifier.exists_cons
  have slash : '/' ∉ name.toList ++ between := by
    rw [List.mem_append, not_or]
    exact ⟨fun mem => absurd (identifier.named '/' mem) (by decide),
      fun mem => absurd (blank '/' mem) (by decide)⟩
  have equals : '/' ∉ ['='] := by decide
  have start : isBlank c = false := isBlank_of_isNameChar (isNameChar_of_isAlpha letter)
  refine ⟨identifier, between, dropEnd isBlank (splitComment after).1, ?_, blank⟩
  rw [← List.append_assoc, splitComment_append slash, ← List.singleton_append,
    splitComment_append equals, trim, strip, List.singleton_append,
    dropWhile_eq_self (by simp [chars, start]), dropEnd_concat (by decide), List.append_assoc]

theorem HeadsDefinition.append (h : HeadsDefinition text name) (more : List Char) :
    HeadsDefinition (text ++ more) name := by
  obtain ⟨identifier, between, after, rfl, blank⟩ := h
  exact ⟨identifier, between, after ++ more, by simp, blank⟩

theorem HeadsDefinition.name_eq (h : HeadsDefinition text name)
    (found : Header.ofChars? text = some header) : header.name = name := by
  obtain ⟨identifier, between, after, rfl, blank⟩ := h
  have here := identifier?_heading identifier blank
    (show isNameChar '=' = false by decide) after
  simp only [Header.ofChars?, here, Option.bind_eq_bind, Option.bind_some] at found
  split at found
  · rw [Option.bind_eq_some_iff] at found
    obtain ⟨⟨kind, rest⟩, -, found⟩ := found
    split at found
    · rw [Option.bind_eq_some_iff] at found
      obtain ⟨⟨args, outputs⟩, -, found⟩ := found
      cases found
      exact String.ofList_toList
    · cases found
  · cases found

end

namespace Progress

variable {p p' q : Progress} {number : Nat} {line raw : List Char} {ls : List (List Char)}
  {sections : List Section} {definitions : List Definition} {draft : Option Draft}

/-- The part of a progress that headings matter for. -/
structure Content where
  sections : List Section
  definitions : List Definition
  draft : Option Draft

def content (p : Progress) : Content :=
  ⟨p.sections, p.definitions, p.draft⟩

/-- What a trimmed line that is accepted does to the content. -/
inductive Reads (p : Progress) (number : Nat) (line : List Char) (p' : Progress) : Prop
  | aside (section_ : sectionName? line = none) (definition : definitionName? line = none)
    (same : p'.content = p.content) : Reads p number line p'
  | closes {q : Progress} (section_ : sectionName? line = none)
      (definition : definitionName? line = none)
    (closed : p.close = .ok q) (same : p'.content = q.content) : Reads p number line p'
  | heads {q : Progress} {name : String} (section_ : sectionName? line = some name)
    (closed : p.close = .ok q)
    (next : p'.content = ⟨⟨name, number, []⟩ :: q.sections, q.definitions, none⟩) :
    Reads p number line p'
  | opens {q : Progress} {name : String} {draft : Draft} (section_ : sectionName? line = none)
    (definition : definitionName? line = some name) (closed : p.close = .ok q)
    (next : p'.content = ⟨q.sections, q.definitions, some draft⟩) (here : draft.line = number)
    (headed : HeadsDefinition draft.text name) : Reads p number line p'
  | continues {draft draft' : Draft} (section_ : sectionName? line = none)
    (definition : definitionName? line = none) (open_ : p.draft = some draft)
    (next : p'.content = ⟨p.sections, p.definitions, some draft'⟩) (same : draft'.line = draft.line)
    (headed : ∀ name, HeadsDefinition draft.text name → HeadsDefinition draft'.text name) :
    Reads p number line p'

theorem reads_code (section_ : sectionName? line = none) (h : p.code number line = .ok p') :
    p.Reads number line p' := by
  simp only [code] at h
  split at h
  · rename_i begins
    rw [← isSome_definitionName?, Option.isSome_iff_exists] at begins
    obtain ⟨name, definition⟩ := begins
    simp only [bind_eq_ok, pure_eq_ok] at h
    obtain ⟨q, closed, rfl⟩ := h
    exact .opens section_ definition closed rfl rfl (definitionName?_eq_some.1 definition).code
  · rename_i other
    have definition : definitionName? line = none := by
      rwa [← Option.not_isSome_iff_eq_none, isSome_definitionName?]
    split at h
    · cases h
    · rename_i draft open_
      cases h
      refine .continues section_ definition open_ rfl rfl fun name headed => ?_
      simp only
      split
      · exact headed
      · exact headed.append _

theorem reads_body (h : p.body number line = .ok p') : p.Reads number line p' := by
  unfold body at h
  split at h
  · rename_i name section_
    simp only [bind_eq_ok, pure_eq_ok] at h
    obtain ⟨q, closed, rfl⟩ := h
    exact .heads section_ closed (by simp [content, draft_of_close closed])
  · rename_i section_
    split at h
    · cases h
      exact .aside section_ rfl rfl
    · exact reads_code section_ h

/-- Whether the header is over does not matter for what a line does. -/
theorem Reads.of_inHeader {inHeader : Bool} (reads : Reads { p with inHeader } number line p') :
    Reads p number line p' := by
  have close {q : Progress} (closed : { p with inHeader }.close = .ok q) :
      p.close = .ok { q with inHeader := p.inHeader } := by
    have again := close_with closed (fun _ => p.inHeader) id id
    exact again
  cases reads with
  | aside section_ definition same => exact .aside section_ definition same
  | closes section_ definition closed same => exact .closes section_ definition (close closed) same
  | heads section_ closed next => exact .heads section_ (close closed) next
  | opens section_ definition closed next here headed =>
    exact .opens section_ definition (close closed) next here headed
  | continues section_ definition open_ next same headed =>
    exact .continues section_ definition open_ next same headed

theorem reads_step (h : p.step number raw = .ok p') : p.Reads number (trim raw) p' := by
  simp only [step] at h
  split at h
  · rename_i empty
    rw [List.isEmpty_iff] at empty
    simp only [bind_eq_ok, pure_eq_ok] at h
    obtain ⟨q, closed, rfl⟩ := h
    rw [empty]
    exact .closes rfl rfl closed rfl
  · split at h
    · split at h
      · rename_i mark
        cases h
        rw [mark]
        exact .aside (by decide) (by decide) rfl
      · split at h
        · rename_i comment
          split at h
          · cases h
            rw [comment]
            exact .aside rfl rfl rfl
          · exact reads_body h
        · exact (reads_body h).of_inHeader
    · exact reads_body h

/-! ## What has been read of some lines -/

theorem define_ok {draft : Draft} {d : Definition} (h : define sections draft = .ok d) :
    ∃ header current earlier, Header.ofChars? draft.text = some header ∧
      sections = current :: earlier ∧ d.name = header.name ∧ d.sectionName = current.name ∧
      d.line = draft.line := by
  unfold define at h
  split at h
  · cases h
  · rename_i header found
    split at h
    · cases h
    · rename_i current earlier
      simp only [bind_eq_ok, pure_eq_ok] at h
      obtain ⟨_, -, _, -, rfl⟩ := h
      exact ⟨header, current, earlier, found, rfl, rfl, rfl, rfl⟩

/-- The heading that an open definition began with. -/
def Begins (draft : Draft) (heading : String × Nat) : Prop :=
  HeadsDefinition draft.text heading.1 ∧ draft.line = heading.2

/-- Content that is just what some lines head. -/
structure Placed (ls : List (List Char)) (content : Content) : Prop where
  sections : content.sections.reverse.map (fun s => (s.name, s.line)) = headings sectionName? ls
  /-- The open definition, if there is one, bears the last heading. -/
  definitions : ∃ last : Option (String × Nat), Option.Rel Begins content.draft last ∧
    content.definitions.map (fun d => (d.name, d.line)) ++ last.toList = headings definitionName? ls
  flat : content.sections.reverse.flatMap (·.definitions) = content.definitions
  placed : ∀ s ∈ content.sections, ∀ d ∈ s.definitions,
    d.sectionName = s.name ∧ sectionBefore ls d.line = some (s.name, s.line)
  /-- No section has been opened since the open definition was. -/
  current : ∀ draft ∈ content.draft,
    sectionBefore ls draft.line = content.sections.head?.map fun s => (s.name, s.line)

namespace Placed

variable {content : Content} {name : String}

theorem start : Placed [] Progress.start.content where
  sections := rfl
  definitions := ⟨none, .none, rfl⟩
  flat := rfl
  placed := by simp [Progress.content, Progress.start]
  current := by simp [Progress.content, Progress.start]

theorem close (placed : Placed ls p.content) (closed : p.close = .ok q) : Placed ls q.content := by
  rcases close_eq_ok.1 closed with ⟨-, rfl⟩ | ⟨draft, d, open_, defined, rfl⟩
  · exact placed
  obtain ⟨header, current, earlier, found, all, bears, inside, line⟩ := define_ok defined
  obtain ⟨sections, ⟨last, begins, definitions⟩, flat, each, here⟩ := placed
  simp only [Progress.content, open_, all] at sections begins definitions flat each here ⊢
  cases begins with
  | @some _ heading begins =>
    obtain ⟨headed, same⟩ := begins
    refine ⟨?_, ⟨none, .none, ?_⟩, ?_, ?_, by simp⟩
    · simpa [addTo] using sections
    · simpa [bears, line, headed.name_eq found, same] using definitions
    · simp [addTo, ← flat]
    · intro s hs e he
      rcases List.mem_cons.1 hs with rfl | hs
      · rcases List.mem_append.1 he with he | he
        · exact each current (by simp) e he
        · cases List.mem_singleton.1 he
          rw [line]
          exact ⟨inside, here draft rfl⟩
      · exact each s (by simp [hs]) e he

theorem line_le (placed : Placed ls content) {s : Section} (hs : s ∈ content.sections)
    {d : Definition} (hd : d ∈ s.definitions) : d.line ≤ ls.length := by
  obtain ⟨last, -, definitions⟩ := placed.definitions
  have mem : d ∈ content.definitions := by
    rw [← placed.flat]
    exact List.mem_flatMap.2 ⟨s, List.mem_reverse.2 hs, hd⟩
  have heading : (d.name, d.line) ∈ headings definitionName? ls := by
    rw [← definitions]
    exact List.mem_append_left _ (List.mem_map_of_mem mem)
  exact le_of_mem_headings heading

theorem draft_line_le (placed : Placed ls content) {draft : Draft}
    (open_ : content.draft = some draft) :
    draft.line ≤ ls.length := by
  obtain ⟨last, begins, definitions⟩ := placed.definitions
  rw [open_] at begins
  cases begins with
  | @some _ heading begins =>
    have last : (heading.1, draft.line) ∈ headings definitionName? ls := by
      rw [← definitions, begins.2]
      simp
    exact le_of_mem_headings last

theorem placed_concat (placed : Placed ls content) (raw : List Char) :
    ∀ s ∈ content.sections, ∀ d ∈ s.definitions,
      d.sectionName = s.name ∧ sectionBefore (ls ++ [raw]) d.line = some (s.name, s.line) := by
  intro s hs d hd
  rw [sectionBefore_concat (by have := placed.line_le hs hd; omega)]
  exact placed.placed s hs d hd

/-- The section that is open is the last one before the next line. -/
theorem sectionBefore_next (placed : Placed ls content) (raw : List Char) :
    sectionBefore (ls ++ [raw]) (ls.length + 1) =
      content.sections.head?.map fun s => (s.name, s.line) := by
  rw [sectionBefore_concat le_rfl, sectionBefore_last, ← placed.sections]
  simp

/-- A line that heads nothing, while the open definition keeps its heading. -/
theorem beside (placed : Placed ls content) (section_ : sectionName? (trim raw) = none)
    (definition : definitionName? (trim raw) = none) : Placed (ls ++ [raw]) content where
  sections := by rw [headings_concat_none section_, placed.sections]
  definitions := by
    rw [headings_concat_none definition]
    exact placed.definitions
  flat := placed.flat
  placed := placed.placed_concat raw
  current := by
    intro draft open_
    rw [sectionBefore_concat (by have := placed.draft_line_le open_; omega)]
    exact placed.current draft open_

theorem goOn {draft draft' : Draft} (placed : Placed ls ⟨sections, definitions, some draft⟩)
    (same : draft'.line = draft.line)
    (headed : ∀ name, HeadsDefinition draft.text name → HeadsDefinition draft'.text name) :
    Placed ls ⟨sections, definitions, some draft'⟩ where
  sections := placed.sections
  definitions := by
    obtain ⟨last, begins, all⟩ := placed.definitions
    cases begins with
    | @some _ heading begins =>
      exact ⟨some heading, .some ⟨headed _ begins.1, same.trans begins.2⟩, all⟩
  flat := placed.flat
  placed := placed.placed
  current := by
    rintro _ ⟨⟩
    rw [same]
    exact placed.current draft rfl

theorem openSection (placed : Placed ls ⟨sections, definitions, none⟩)
    (section_ : sectionName? (trim raw) = some name) :
    Placed (ls ++ [raw]) ⟨⟨name, ls.length + 1, []⟩ :: sections, definitions, none⟩ where
  sections := by
    rw [headings_concat_some section_, ← placed.sections]
    simp
  definitions := by
    rw [headings_concat_none (definitionName?_of_sectionName? section_)]
    exact placed.definitions
  flat := by simpa using placed.flat
  placed := by
    intro s hs
    rcases List.mem_cons.1 hs with rfl | hs
    · simp
    · exact placed.placed_concat raw s hs
  current := by simp

theorem openDefinition (placed : Placed ls ⟨sections, definitions, none⟩)
    (section_ : sectionName? (trim raw) = none)
    (definition : definitionName? (trim raw) = some name)
    {draft : Draft} (here : draft.line = ls.length + 1) (headed : HeadsDefinition draft.text name) :
    Placed (ls ++ [raw]) ⟨sections, definitions, some draft⟩ where
  sections := by rw [headings_concat_none section_, placed.sections]
  definitions := by
    obtain ⟨last, begins, all⟩ := placed.definitions
    cases begins
    refine ⟨some (name, ls.length + 1), .some ⟨headed, here⟩, ?_⟩
    rw [headings_concat_some definition, ← all]
    simp
  flat := placed.flat
  placed := placed.placed_concat raw
  current := by
    rintro _ ⟨⟩
    rw [here]
    exact placed.sectionBefore_next raw

/-- One line keeps content placed. -/
theorem step (placed : Placed ls p.content) (h : p.step (ls.length + 1) raw = .ok p') :
    Placed (ls ++ [raw]) p'.content := by
  have closed {q : Progress} (closed : p.close = .ok q) :
      Placed ls ⟨q.sections, q.definitions, none⟩ := by
    have after := placed.close closed
    rwa [content, draft_of_close closed] at after
  cases reads_step h with
  | aside section_ definition same =>
    rw [same]
    exact placed.beside section_ definition
  | closes section_ definition hq same =>
    rw [same]
    exact (placed.close hq).beside section_ definition
  | heads section_ hq next =>
    rw [next]
    exact (closed hq).openSection section_
  | opens section_ definition hq next here headed =>
    rw [next]
    exact (closed hq).openDefinition section_ definition here headed
  | continues section_ definition open_ next same headed =>
    rw [content, open_] at placed
    rw [next]
    exact (placed.goOn same headed).beside section_ definition

theorem steps (h : Progress.start.steps 1 ls = .ok p) : Placed ls p.content := by
  induction ls using List.reverseRecOn generalizing p with
  | nil =>
    cases h
    exact start
  | append_singleton ls raw ih =>
    rw [steps_concat, bind_eq_ok, Nat.add_comm 1] at h
    obtain ⟨before, first, last⟩ := h
    exact (ih first).step last

end Placed

end Progress

/-! ## Models -/

/-- A model whose sections and definitions are the headings of lines, each definition in the section
that was opened last before it. -/
structure Model.Follows (m : Model) (ls : List (List Char)) : Prop where
  definitions : m.definitions.map (fun d => (d.name, d.line)) = headings definitionName? ls
  sections : m.sections.map (fun s => (s.name, s.line)) = headings sectionName? ls
  flat : m.sections.flatMap (·.definitions) = m.definitions
  placed : ∀ s ∈ m.sections, ∀ d ∈ s.definitions,
    d.sectionName = s.name ∧ sectionBefore ls d.line = some (s.name, s.line)

/-- No definition of a text is lost, doubled or put into another section. -/
theorem Model.follows_of_ofSource {source : String} {m : Model}
    (read : Model.ofSource source = .ok m) :
    m.Follows (lines source.toList) ∧ ∀ line name,
      (definitionName? line = some name ↔ HeadsDefinition line name) ∧
      (sectionName? line = some name ↔ HeadsSection line name) := by
  refine ⟨?_, fun _ _ => ⟨definitionName?_eq_some, sectionName?_eq_some⟩⟩
  simp only [Model.ofSource, bind_eq_ok, pure_eq_ok] at read
  obtain ⟨p, steps, q, closed, rfl⟩ := read
  have placed := (Progress.Placed.steps steps).close closed
  obtain ⟨last, begins, definitions⟩ := placed.definitions
  rw [Progress.content, Progress.draft_of_close closed] at begins
  cases begins
  exact
    { definitions := by simpa [Progress.content, Progress.model] using definitions
      sections := placed.sections
      flat := placed.flat
      placed := fun s hs => placed.placed s (List.mem_reverse.1 hs) }

def twiceOpened : String :=
  "FM\n// Date: 2025-01-01\nS:\n// first\nA = Sum(1, // one\n// of B\n  2)\nT :\nB = Sum(A.val)\n"
    ++ "  => b\n\n// lost\n\nS:\nC=Quant()\nD = Quant() > d"

theorem follows_twiceOpened : ∃ m, Model.ofSource twiceOpened = .ok m ∧
    m.Follows (lines twiceOpened.toList) ∧
    m.sections.map (fun s => (s.name, s.line, s.definitions.map fun d => (d.name, d.line))) =
      [("S", 3, [("A", 5)]), ("T", 8, [("B", 9)]), ("S", 14, [("C", 15), ("D", 16)])] := by
  have shape : (Model.ofSource twiceOpened).toOption.map (fun m =>
      m.sections.map fun s => (s.name, s.line, s.definitions.map fun d => (d.name, d.line))) =
      some [("S", 3, [("A", 5)]), ("T", 8, [("B", 9)]), ("S", 14, [("C", 15), ("D", 16)])] := by
    decide +kernel
  obtain ⟨m, read, same⟩ := exists_of_toOption_map shape
  exact ⟨m, read, (Model.follows_of_ofSource read).1, same⟩

end Forecast

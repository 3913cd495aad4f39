import Forecast.Proofs.Outline.Reading

/-!
# Where a reading fails

A definition is taken apart only when it is closed, which may be many lines
after it was opened. The fault still names the line that opened it: everything
before that line had been closed, so the text up to there is a model by itself.
-/

namespace Forecast

open Outcome Text

namespace Text

def firstLines : Nat → List Char → List Char
  | 0, _ => []
  | _ + 1, [] => []
  | n + 1, '\r' :: '\n' :: rest => '\r' :: '\n' :: firstLines n rest
  | n + 1, c :: rest =>
    if isLineBreak c then c :: firstLines n rest else c :: firstLines (n + 1) rest

theorem firstLines_prefix (n : Nat) (s : List Char) : firstLines n s <+: s := by
  fun_induction firstLines n s with
  | case1 s => exact List.nil_prefix
  | case2 => exact List.prefix_rfl
  | case3 n rest ih => simpa using ih
  | case4 n c rest _ _ ih => simpa using ih
  | case5 n c rest _ _ ih => simpa using ih

theorem lines_break {c : Char} {s : List Char} (ends : isLineBreak c = true)
    (alone : c = '\r' → s.head? ≠ some '\n') : lines (c :: s) = [] :: lines s := by
  rw [lines, if_pos ends]
  rintro rest rfl rfl
  exact alone rfl rfl

theorem lines_firstLines (n : Nat) (s : List Char) : lines (firstLines n s) = (lines s).take n := by
  fun_induction firstLines n s with
  | case1 s => simp
  | case2 n => simp
  | case3 n rest ih => simp [lines, ih]
  | case4 n c rest unpaired ends ih =>
    have alone : c = '\r' → rest.head? ≠ some '\n' := by
      rintro rfl paired
      obtain ⟨tail, rfl⟩ := List.head?_eq_some_iff.1 paired
      exact unpaired tail rfl rfl
    have alone' : c = '\r' → (firstLines n rest).head? ≠ some '\n' := by
      intro carriage paired
      obtain ⟨tail, cut⟩ := List.head?_eq_some_iff.1 paired
      obtain ⟨more, whole⟩ := firstLines_prefix n rest
      exact alone carriage (by rw [← whole, cut]; rfl)
    rw [lines_break ends alone, lines_break ends alone', ih, List.take_succ_cons]
  | case5 n c rest _ inside ih =>
    have inside : isLineBreak c = false := by simpa using inside
    rw [lines_cons inside, lines_cons inside, ih]
    cases lines rest <;> simp

end Text

/-! ## Faults of a definition -/

/-- A fault of the definition that begins at a line. -/
def ReadFault.IsAbout (fault : ReadFault) (line : Nat) : Prop :=
  fault.line = line ∧ fault.cause ≠ .strayLine

section

variable {line : Nat} {fault : ReadFault}

theorem Argument.isAbout_of_ofToken {token : List Char} (h : ofToken line token = .error fault) :
    fault.IsAbout line := by
  simp only [ofToken] at h
  split at h
  · split at h <;> cases h
    exact ⟨rfl, by simp⟩
  · split at h
    · cases h
    · split at h <;> cases h

theorem InlineValue.isAbout_of_ofChars {s : List Char} (h : ofChars line s = .error fault) :
    fault.IsAbout line := by
  simp only [ofChars] at h
  split at h
  · split at h <;> cases h
    exact ⟨rfl, by simp⟩
  · split at h <;> cases h

theorem isAbout_of_inlineValues {s : List Char} (h : inlineValues line s = .error fault) :
    fault.IsAbout line := by
  obtain ⟨_, part, _, values, -, -, h⟩ := foldlM_eq_error h
  split at h
  · cases h
    exact ⟨rfl, by simp⟩
  · simp only [bind_eq_error, pure_ne_error, and_false, exists_false, or_false] at h
    exact InlineValue.isAbout_of_ofChars h

theorem Outputs.isAbout_of_ofChars {s : List Char} (h : ofChars line s = .error fault) :
    fault.IsAbout line := by
  obtain ⟨_, token, _, o, -, -, h⟩ := foldlM_eq_error h
  simp only [Outputs.add] at h
  split at h
  · cases h
    exact ⟨rfl, by simp⟩
  · split at h
    · cases h
    · simp only [bind_eq_error, pure_ne_error, and_false, exists_false, or_false] at h
      exact isAbout_of_inlineValues h

end

namespace Progress

variable {p p' : Progress} {number : Nat} {line raw : List Char} {fault : ReadFault}
  {ls more : List (List Char)}

theorem isAbout_of_define {sections : List Section} {d : Draft}
    (h : define sections d = .error fault) :
    fault.IsAbout d.line := by
  unfold define at h
  split at h
  · cases h
    exact ⟨rfl, by simp⟩
  · split at h
    · cases h
      exact ⟨rfl, by simp⟩
    · simp only [bind_eq_error, pure_ne_error, and_false, exists_false, or_false] at h
      rcases h with h | ⟨_, -, h⟩
      · obtain ⟨token, -, h⟩ := mapM_eq_error h
        exact Argument.isAbout_of_ofToken h
      · exact Outputs.isAbout_of_ofChars h

theorem close_eq_error : p.close = .error fault ↔
    ∃ draft, p.draft = some draft ∧ define p.sections draft = .error fault := by
  unfold close
  cases p.draft with
  | none => simp
  | some draft =>
    simp only [bind_eq_error, pure_ne_error, and_false, exists_false, or_false, Option.some.injEq,
      exists_eq_left']

theorem steps_concat (p : Progress) (number : Nat) (ls : List (List Char)) (raw : List Char) :
    p.steps number (ls ++ [raw]) = p.steps number ls >>= fun q =>
      q.step (number + ls.length) raw := by
  rw [steps_append]
  refine bind_congr fun q => ?_
  exact bind_pure _

/-! ## What a line does -/

/-- What has been read is a model if the text ends here. -/
def Accepts (p : Progress) : Prop :=
  ∃ q, p.close = .ok q

/-- What a trimmed line can lead to. -/
inductive Moves (p : Progress) (number : Nat) (line : List Char) : Except ReadFault Progress → Prop
  | keeps {p' : Progress} (same : p'.draft.map (·.line) = p.draft.map (·.line)) :
    Moves p number line (.ok p')
  | closes {p' : Progress} (accepts : p.Accepts) (none : p'.draft = none) :
      Moves p number line (.ok p')
  | opens {p' : Progress} {draft : Draft} (accepts : p.Accepts)
      (begins : opensDefinition line = true)
    (open_ : p'.draft = some draft) (here : draft.line = number) : Moves p number line (.ok p')
  | fails {fault : ReadFault} (failed : p.close = .error fault) : Moves p number line (.error fault)
  | stray (none : p.draft = none) (other : opensDefinition line = false) :
    Moves p number line (.error ⟨.strayLine, number, String.ofList line⟩)

theorem moves_code (p : Progress) (number : Nat) (line : List Char) :
    p.Moves number line (p.code number line) := by
  simp only [code]
  split
  · rename_i begins
    cases closed : p.close with
    | error fault => exact .fails closed
    | ok q => exact .opens ⟨q, closed⟩ begins rfl rfl
  · rename_i other
    cases open_ : p.draft with
    | none => exact .stray open_ (by simpa using other)
    | some draft => exact .keeps (by simp [open_])

theorem moves_body (p : Progress) (number : Nat) (line : List Char) :
    p.Moves number line (p.body number line) := by
  unfold body
  split
  · cases closed : p.close with
    | error fault => exact .fails closed
    | ok q =>
      have none := draft_of_close closed
      exact .closes ⟨q, closed⟩ none
  · split
    · exact .keeps rfl
    · exact moves_code p number _

/-- Whether the header is over does not matter for what a line leads to. -/
theorem Moves.of_inHeader {inHeader : Bool} {result : Except ReadFault Progress}
    (moves : Moves { p with inHeader } number line result) : Moves p number line result := by
  have accepts : ({ p with inHeader } : Progress).Accepts → p.Accepts := by
    rintro ⟨q, closed⟩
    exact ⟨_, close_with closed (fun _ => p.inHeader) id id⟩
  cases moves with
  | keeps same => exact .keeps same
  | closes accepted none => exact .closes (accepts accepted) none
  | opens accepted begins open_ here => exact .opens (accepts accepted) begins open_ here
  | fails failed =>
    have undefined := close_eq_error.1 failed
    exact .fails (close_eq_error.2 undefined)
  | stray none other => exact .stray none other

theorem moves_step (p : Progress) (number : Nat) (raw : List Char) :
    p.Moves number (trim raw) (p.step number raw) := by
  simp only [step]
  split
  · cases closed : p.close with
    | error fault => exact .fails closed
    | ok q =>
      have none := draft_of_close closed
      exact .closes ⟨q, closed⟩ none
  · split
    · split
      · exact .keeps rfl
      · split
        · split
          · exact .keeps rfl
          · exact moves_body p number _
        · exact (moves_body _ number _).of_inHeader
    · exact moves_body p number _

/-! ## Lines read so far -/

def Accepted (ls : List (List Char)) : Prop :=
  ∃ p, start.steps 1 ls = .ok p ∧ p.Accepts

/-- A line among those read so far that opens a definition, and before which a model ends. -/
structure Opening (ls : List (List Char)) (number : Nat) : Prop where
  positive : 1 ≤ number
  inside : number ≤ ls.length
  begins : ∃ raw, ls[number - 1]? = some raw ∧ opensDefinition (trim raw) = true
  accepted : Accepted (ls.take (number - 1))

theorem Opening.append (opening : Opening ls number) (more : List (List Char)) :
    Opening (ls ++ more) number := by
  obtain ⟨positive, inside, ⟨raw, found, begins⟩, accepted⟩ := opening
  refine ⟨positive, ?_, ⟨raw, ?_, begins⟩, ?_⟩
  · simp only [List.length_append]
    omega
  · rw [List.getElem?_append_left (by omega), found]
  · rwa [List.take_append_of_le_length (by omega)]

theorem opening_last (read : start.steps 1 ls = .ok p) (accepts : p.Accepts)
    (begins : opensDefinition (trim raw) = true) : Opening (ls ++ [raw]) (ls.length + 1) where
  positive := by omega
  inside := by simp
  begins := ⟨raw, by simp, begins⟩
  accepted := ⟨p, by simpa using read, accepts⟩

/-- A definition that is open was opened by the line that its draft names. -/
theorem opening_of_steps (read : start.steps 1 ls = .ok p) :
    ∀ draft, p.draft = some draft → Opening ls draft.line := by
  induction ls using List.reverseRecOn generalizing p with
  | nil =>
    cases read
    intro draft open_
    cases open_
  | append_singleton ls raw ih =>
    rw [steps_concat, bind_eq_ok, Nat.add_comm 1] at read
    obtain ⟨before, first, last⟩ := read
    have moves := moves_step before (ls.length + 1) raw
    rw [last] at moves
    intro draft open_
    cases moves with
    | keeps same =>
      rw [open_, Option.map_some, eq_comm, Option.map_eq_some_iff] at same
      obtain ⟨earlier, was, lines⟩ := same
      rw [← lines]
      exact (ih first earlier was).append [raw]
    | closes _ none =>
      rw [none] at open_
      cases open_
    | opens accepts begins now here =>
      rw [now] at open_
      cases open_
      rw [here]
      exact opening_last first accepts begins

/-- Why lines are no model: a line is stray, or a definition cannot be read. -/
inductive Offends (ls : List (List Char)) (fault : ReadFault) : Prop
  | stray {before after : List (List Char)} {raw : List Char} {p : Progress}
    (cut : ls = before ++ raw :: after) (read : start.steps 1 before = .ok p)
      (none : p.draft = none)
    (other : opensDefinition (trim raw) = false)
    (failed : p.step (before.length + 1) raw = .error fault)
    (same : fault = ⟨.strayLine, before.length + 1, String.ofList (trim raw)⟩)
  | definition {before after : List (List Char)} {p : Progress} {draft : Draft}
    (cut : ls = before ++ after) (read : start.steps 1 before = .ok p)
      (open_ : p.draft = some draft)
    (opening : Opening before draft.line) (failed : define p.sections draft = .error fault)
    (same : fault.line = draft.line)

theorem offends_of_close (read : start.steps 1 ls = .ok p) (failed : p.close = .error fault)
    (more : List (List Char)) : Offends (ls ++ more) fault := by
  obtain ⟨draft, open_, failed⟩ := close_eq_error.1 failed
  exact .definition rfl read open_ (opening_of_steps read draft open_) failed
    (isAbout_of_define failed).1

theorem offends_of_steps (failed : start.steps 1 ls = .error fault) : Offends ls fault := by
  induction ls using List.reverseRecOn generalizing fault with
  | nil => cases failed
  | append_singleton ls raw ih =>
    rw [steps_concat, bind_eq_error, Nat.add_comm 1] at failed
    rcases failed with earlier | ⟨p, read, last⟩
    · cases ih earlier with
      | stray cut read none other failed same =>
        exact .stray (by rw [cut, List.append_assoc, List.cons_append]) read none other failed same
      | definition cut read open_ opening failed same =>
        exact .definition (by rw [cut, List.append_assoc]) read open_ opening failed same
    · have moves := moves_step p (ls.length + 1) raw
      rw [last] at moves
      cases moves with
      | fails failed => exact offends_of_close read failed [raw]
      | stray none other => exact .stray rfl read none other last rfl

/-- What offends is named by its first line, and before it a model ends. -/
theorem Offends.located (offends : Offends ls fault) :
    1 ≤ fault.line ∧ fault.line ≤ ls.length ∧ Accepted (ls.take (fault.line - 1)) := by
  cases offends with
  | @stray before after raw p cut read none other failed same =>
    subst cut same
    refine ⟨by simp, by simp, p, ?_, p, ?_⟩
    · simpa using read
    · exact close_eq_ok.2 (.inl ⟨none, rfl⟩)
  | definition cut read open_ opening failed same =>
    subst cut
    obtain ⟨positive, inside, -, accepted⟩ := opening.append _
    rw [same]
    exact ⟨positive, inside, accepted⟩

end Progress

/-! ## Texts -/

theorem Model.exists_ofSource_iff {source : String} :
    (∃ m, Model.ofSource source = .ok m) ↔ Progress.Accepted (lines source.toList) := by
  simp only [Model.ofSource, bind_eq_ok, pure_eq_ok]
  constructor
  · rintro ⟨m, p, read, q, closed, -⟩
    exact ⟨p, read, q, closed⟩
  · rintro ⟨p, read, q, closed⟩
    exact ⟨q.model, p, read, q, closed, rfl⟩

/-- A fault names a line of the text, the text before this line is a model, and the line is the
first one of what cannot be read. -/
structure ReadFault.Located (source : String) (fault : ReadFault) : Prop where
  positive : 1 ≤ fault.line
  inside : fault.line ≤ (lines source.toList).length
  accepted : ∃ m, Model.ofSource (String.ofList (firstLines (fault.line - 1) source.toList)) = .ok m
  offends : Progress.Offends (lines source.toList) fault

/-- Every text is a model, or is refused for a fault at the line where it begins; and no token that
is taken for a number fails to be one. -/
theorem Model.ofSource_located (source : String) :
    ((∃ m, Model.ofSource source = .ok m) ∨
      ∃ fault, Model.ofSource source = .error fault ∧ fault.Located source) ∧
    ∀ token n, numeral? token = some n → Decimal.float? token = some n.toFloat := by
  refine ⟨?_, fun _ _ => float?_of_numeral?⟩
  cases result : Model.ofSource source with
  | ok m => exact .inl ⟨m, rfl⟩
  | error fault =>
    right
    have offends : Progress.Offends (lines source.toList) fault := by
      simp only [Model.ofSource, bind_eq_error, pure_ne_error, and_false, exists_false,
        or_false] at result
      rcases result with failed | ⟨p, read, failed⟩
      · exact Progress.offends_of_steps failed
      · simpa using Progress.offends_of_close read failed []
    obtain ⟨positive, inside, accepted⟩ := offends.located
    refine ⟨fault, rfl, positive, inside, ?_, offends⟩
    rwa [Model.exists_ofSource_iff, String.toList_ofList, lines_firstLines]

def brokenOutput : String :=
  "S:\nA = Sum(1)\nB = Sum(A.val,\n  2) => b,\n  (rate: 5%)\nT:\nC = Sum(3)"

theorem located_brokenOutput : ∃ fault, Model.ofSource brokenOutput = .error fault ∧
    fault.cause = .outputAlias ∧ fault.line = 3 ∧ fault.Located brokenOutput := by
  have refused : (match Model.ofSource brokenOutput with
      | .ok _ => none
      | .error fault => some (fault.cause, fault.line)) = some (.outputAlias, 3) := by
        decide +kernel
  rcases (Model.ofSource_located brokenOutput).1 with ⟨m, accepted⟩ | ⟨fault, failed, located⟩
  · rw [accepted] at refused
    cases refused
  · rw [failed] at refused
    obtain ⟨cause, line⟩ := Prod.mk.inj (Option.some.inj refused)
    exact ⟨fault, failed, cause, line, located⟩

end Forecast

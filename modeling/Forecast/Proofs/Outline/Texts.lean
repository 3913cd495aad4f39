import Forecast.Proofs.Decimal.Numeral
import Forecast.Proofs.Names
import Mathlib.Data.List.Chain

/-!
# Texts that are put together

A reader takes apart what is joined here: lines joined by line feeds, tokens
joined by commas. Each lemma says what a part must not contain, or what must not
follow it, so that the reader stops where the part ends.
-/

namespace Forecast

open Text

/-! ## Tokens that were cut out -/

theorem Text.Trimmed.dropFinalLineFeed_eq {s : List Char} (h : Trimmed s) :
    dropFinalLineFeed s = s := by
  rw [dropFinalLineFeed, if_neg]
  intro last
  exact absurd (h.last '\n' last) (by decide)

theorem trimmed_of_mem_splitTokens {s token : List Char} (h : token ∈ splitTokens s) :
    Trimmed token := by
  obtain ⟨piece, -, rfl⟩ := List.mem_map.1 (List.mem_of_mem_filter h)
  exact trimmed_trim piece

/-- Around a text without spaces, a line feed at its end is all that stripping removes. -/
theorem strip_eq_dropFinalLineFeed {s : List Char}
    (spaces : ∀ c ∈ dropFinalLineFeed s, isSpace c = false) (nonempty : dropFinalLineFeed s ≠ []) :
    strip isSpace s = dropFinalLineFeed s := by
  have first : ∀ c ∈ (dropFinalLineFeed s).head?, isSpace c = false :=
    fun c hc => spaces c (List.mem_of_mem_head? hc)
  by_cases last : s.getLast? = some '\n'
  · obtain ⟨body, rfl⟩ := List.getLast?_eq_some_iff.1 last
    rw [dropFinalLineFeed, if_pos last, List.dropLast_concat] at *
    have feed : isSpace '\n' = true := by decide
    have start : ∀ c ∈ (body ++ ['\n']).head?, isSpace c = false := by
      rwa [List.head?_append_of_ne_nil _ nonempty]
    rw [strip, dropWhile_eq_self start]
    simpa [dropEnd, feed] using dropEnd_of_forall spaces
  · rw [dropFinalLineFeed, if_neg last] at *
    rw [strip, dropWhile_eq_self first, dropEnd_of_forall spaces]

/-- A token that is a numeral can be read as a number. -/
theorem float?_of_numeral? {token : List Char} {n : Decimal.Numeral} (h : numeral? token = some n) :
    Decimal.float? token = some n.toFloat := by
  rw [numeral?] at h
  have chars := (Decimal.isSome_ofChars?.1 (Option.isSome_of_mem h)).isNumeralChar
  have plain : '_' ∉ dropFinalLineFeed token := by
    intro mem
    exact absurd (chars '_' mem) (by decide)
  have nonempty : dropFinalLineFeed token ≠ [] := by
    intro empty
    rw [empty] at h
    cases h
  have stripped := strip_eq_dropFinalLineFeed
    (fun c hc => Decimal.isSpace_of_isNumeralChar (chars c hc)) nonempty
  rw [Decimal.float?, stripped, Decimal.ofChars?_eq plain, h]

namespace Text

variable {s t : List Char} {ts : List (List Char)} {c : Char}

/-! ## Lines -/

/-- A text without line breaks. -/
def Unbroken (s : List Char) : Prop :=
  ∀ c ∈ s, isLineBreak c = false

instance (s : List Char) : Decidable (Unbroken s) :=
  List.decidableBAll _ s

theorem Unbroken.append (hs : Unbroken s) (ht : Unbroken t) : Unbroken (s ++ t) := by
  intro c hc
  exact (List.mem_append.1 hc).elim (hs c) (ht c)

theorem lines_cons (h : isLineBreak c = false) (s : List Char) :
    lines (c :: s) = (match lines s with
      | [] => [[c]]
      | first :: others => (c :: first) :: others) := by
  rw [lines, h]
  · rfl
  · rintro _ rfl
    exact absurd h (by decide)

theorem lines_append (h : Unbroken s) (rest : List Char) :
    lines (s ++ '\n' :: rest) = s :: lines rest := by
  induction s with
  | nil => rfl
  | cons c s ih =>
    rw [List.cons_append, lines_cons (h c (by simp)), ih fun d hd => h d (by simp [hd])]

theorem lines_of_unbroken (h : Unbroken s) (nonempty : s ≠ []) : lines s = [s] := by
  induction s with
  | nil => exact absurd rfl nonempty
  | cons c s ih =>
    rw [lines_cons (h c (by simp))]
    cases s with
    | nil => rfl
    | cons d s => rw [ih (fun e he => h e (List.mem_cons_of_mem _ he)) (by simp)]

theorem lines_intercalate (each : ∀ t ∈ ts, Unbroken t ∧ t ≠ []) :
    lines (['\n'].intercalate ts) = ts := by
  induction ts with
  | nil => rfl
  | cons t ts ih =>
    obtain ⟨unbroken, nonempty⟩ := each t (by simp)
    cases ts with
    | nil => rw [List.intercalate_singleton, lines_of_unbroken unbroken nonempty]
    | cons u ts =>
      rw [List.intercalate_cons_cons, List.append_assoc, List.singleton_append,
        lines_append unbroken, ih fun t ht => each t (List.mem_cons_of_mem _ ht)]

/-! ## Tokens -/

theorem span_append {p : Char → Bool} (all : ∀ c ∈ s, p c = true)
    (stop : ∀ c ∈ t.head?, p c = false) :
    (s ++ t).span p = (s, t) := by
  rw [List.span_eq_takeWhile_dropWhile, List.takeWhile_append_of_pos all,
    List.dropWhile_append_of_pos all, dropWhile_eq_self stop]
  cases t with
  | nil => simp
  | cons c t => simp [stop c (by simp)]

/-- What a character adds to the number of open parentheses. -/
def nesting (c : Char) : Int :=
  if c = '(' then 1 else if c = ')' then -1 else 0

/-- The parentheses that a text opens, less those that it closes. -/
def depth : List Char → Int
  | [] => 0
  | c :: s => nesting c + depth s

@[simp] theorem depth_nil : depth [] = 0 := rfl

@[simp] theorem depth_cons (c : Char) (s : List Char) : depth (c :: s) = nesting c + depth s :=
  rfl

@[simp] theorem depth_append (s t : List Char) : depth (s ++ t) = depth s + depth t := by
  induction s with
  | nil => rw [List.nil_append, depth_nil, Int.zero_add]
  | cons c s ih => rw [List.cons_append, depth_cons, depth_cons, ih, Int.add_assoc]

theorem depth_eq_zero (each : ∀ c ∈ s, nesting c = 0) : depth s = 0 := by
  induction s with
  | nil => rfl
  | cons c s ih =>
    rw [depth_cons, each c (by simp), ih fun d hd => each d (by simp [hd]), Int.zero_add]

theorem depth_of_plain (opening : '(' ∉ s) (closing : ')' ∉ s) : depth s = 0 := by
  apply depth_eq_zero
  intro c hc
  rw [nesting, if_neg (ne_of_mem_of_not_mem hc opening), if_neg (ne_of_mem_of_not_mem hc closing)]

/-- No comma of a text that begins at some depth stands at depth zero. -/
def Sheltered (start : Int) (s : List Char) : Prop :=
  ∀ front back, s = front ++ ',' :: back → start + depth front ≠ 0

theorem sheltered_nil (start : Int) : Sheltered start [] := by
  intro front back cut
  simp at cut

theorem sheltered_cons {start : Int} :
    Sheltered start (c :: s) ↔ ¬(c = ',' ∧ start = 0) ∧ Sheltered (start + nesting c) s := by
  constructor
  · intro h
    constructor
    · rintro ⟨rfl, rfl⟩
      exact h [] s rfl rfl
    · intro front back cut
      have here := h (c :: front) back (by rw [cut, List.cons_append])
      rwa [depth_cons, ← Int.add_assoc] at here
  · rintro ⟨first, rest⟩ front back cut
    rcases List.cons_eq_append_iff.1 cut with ⟨rfl, same⟩ | ⟨front, rfl, later⟩
    · rw [List.cons.injEq] at same
      rw [depth_nil, Int.add_zero]
      exact fun zero => first ⟨same.1.symm, zero⟩
    · rw [depth_cons, ← Int.add_assoc]
      exact rest front back later

theorem Sheltered.append {start : Int} {t : List Char} (hs : Sheltered start s)
    (ht : Sheltered (start + depth s) t) : Sheltered start (s ++ t) := by
  induction s generalizing start with
  | nil => simpa using ht
  | cons c s ih =>
    rw [sheltered_cons] at hs
    rw [depth_cons, ← Int.add_assoc] at ht
    exact sheltered_cons.2 ⟨hs.1, ih hs.2 ht⟩

theorem sheltered_of_notMem (commas : ',' ∉ s) (start : Int) : Sheltered start s := by
  intro front back cut
  simp [cut] at commas

/-- Commas do not matter where no parenthesis changes the depth. -/
theorem sheltered_of_plain {start : Int} (opening : '(' ∉ s) (closing : ')' ∉ s)
    (inside : start ≠ 0) :
    Sheltered start s := by
  rintro front back rfl
  simp only [List.mem_append, not_or] at opening closing
  rwa [depth_of_plain opening.1 closing.1, Int.add_zero]

theorem pieces_cons (start : Int) (c : Char) (s : List Char) :
    pieces start (c :: s) =
      if c = ',' ∧ start = 0 then [] :: pieces 0 s
      else (pieces (start + nesting c) s).modifyHead (c :: ·) := by
  rw [pieces]
  congr 2
  unfold nesting
  split
  · rfl
  · split
    · rfl
    · rw [Int.add_zero]

/-- A text whose commas are sheltered stays within a piece. -/
theorem Sheltered.pieces_append {start : Int} (h : Sheltered start s) (rest : List Char) :
    pieces start (s ++ rest) = (pieces (start + depth s) rest).modifyHead (s ++ ·) := by
  induction s generalizing start with
  | nil =>
    rw [List.nil_append, depth_nil, Int.add_zero]
    cases pieces start rest <;> rfl
  | cons c s ih =>
    rw [sheltered_cons] at h
    rw [List.cons_append, pieces_cons, if_neg h.1, ih h.2, List.modifyHead_modifyHead, depth_cons,
      Int.add_assoc]
    rfl

theorem Sheltered.pieces_eq {start : Int} (h : Sheltered start s) : pieces start s = [s] := by
  simpa [pieces] using h.pieces_append []

/-- A text that is one piece, or the beginning of one. -/
def Closed (s : List Char) : Prop :=
  ∀ rest, pieces 0 (s ++ rest) = (pieces 0 rest).modifyHead (s ++ ·)

theorem Closed.pieces_eq (h : Closed s) : pieces 0 s = [s] := by
  simpa [pieces] using h []

theorem closed_of_sheltered (sheltered : Sheltered 0 s) (balanced : depth s = 0) : Closed s := by
  intro rest
  rw [sheltered.pieces_append rest, balanced, Int.add_zero]

theorem closed_parentheses {body : List Char} (opening : '(' ∉ body) (closing : ')' ∉ body) :
    Closed ('(' :: (body ++ [')'])) := by
  have inner : depth body = 0 := depth_of_plain opening closing
  apply closed_of_sheltered
  · rw [sheltered_cons]
    refine ⟨by decide, ?_⟩
    exact (sheltered_of_plain opening closing (by decide)).append
      (sheltered_of_notMem (by decide) _)
  · simp [inner, nesting]

theorem closed_of_plain (opening : '(' ∉ s) (closing : ')' ∉ s) (commas : ',' ∉ s) : Closed s :=
  closed_of_sheltered (sheltered_of_notMem commas 0) (depth_of_plain opening closing)

theorem Closed.append (hs : Closed s) (ht : Closed t) : Closed (s ++ t) := by
  intro rest
  rw [List.append_assoc, hs, ht, List.modifyHead_modifyHead]
  congr 1
  funext piece
  simp

theorem map_trim_modifyHead (blank : isBlank c = true) (ts : List (List Char)) :
    (ts.modifyHead (c :: ·)).map trim = ts.map trim := by
  cases ts with
  | nil => rfl
  | cons t ts => rw [List.modifyHead_cons, List.map_cons, List.map_cons, trim_cons blank]

/-- Texts that are pieces, each one but the last closed, are found again. -/
theorem trim_pieces_intercalate (each : ∀ t ∈ ts, pieces 0 t = [t] ∧ Trimmed t)
    (closed : ts.Pairwise fun t _ => Closed t) (some : ts ≠ []) :
    (pieces 0 ([',', ' '].intercalate ts)).map trim = ts := by
  induction ts with
  | nil => exact absurd rfl some
  | cons t ts ih =>
    obtain ⟨whole, trimmed⟩ := each t (by simp)
    cases ts with
    | nil => rw [List.intercalate_singleton, whole, List.map_singleton, trimmed.trim_eq]
    | cons u ts =>
      rw [List.pairwise_cons] at closed
      have rest := ih (fun u hu => each u (List.mem_cons_of_mem _ hu)) closed.2 (by simp)
      have separated : pieces 0 (',' :: ' ' :: [',', ' '].intercalate (u :: ts)) =
          [] :: (pieces 0 ([',', ' '].intercalate (u :: ts))).modifyHead (' ' :: ·) := rfl
      rw [List.intercalate_cons_cons, List.append_assoc, closed.1 u (by simp), List.cons_append,
        List.cons_append, List.nil_append, separated, List.modifyHead_cons, List.append_nil,
        List.map_cons, map_trim_modifyHead (by decide), rest, trimmed.trim_eq]

theorem splitTokens_joined (each : ∀ t ∈ ts, pieces 0 t = [t] ∧ Trimmed t ∧ t ≠ [])
    (closed : ts.Pairwise fun t _ => Closed t) : splitTokens ([',', ' '].intercalate ts) = ts := by
  by_cases none : ts = []
  · subst none
    rfl
  · rw [splitTokens,
      trim_pieces_intercalate (fun t ht => (each t ht).imp_right And.left) closed none,
      List.filter_eq_self]
    intro t ht
    simpa using (each t ht).2.2

theorem splitTokens_intercalate (each : ∀ t ∈ ts, Closed t ∧ Trimmed t ∧ t ≠ []) :
    splitTokens ([',', ' '].intercalate ts) = ts := by
  apply splitTokens_joined
  · intro t ht
    obtain ⟨closed, rest⟩ := each t ht
    exact ⟨closed.pieces_eq, rest⟩
  · exact List.pairwise_of_forall_mem_list fun t ht u _ => (each t ht).1

/-! ## Comments -/

/-- A text without two slashes next to each other. -/
def NoSlashes (s : List Char) : Prop :=
  s.IsChain fun c d => ¬(c = '/' ∧ d = '/')

instance (s : List Char) : Decidable (NoSlashes s) :=
  inferInstanceAs (Decidable (s.IsChain _))

theorem noSlashes_iff : NoSlashes s ↔ ¬['/', '/'] <:+: s := by
  induction s with
  | nil => simp [NoSlashes]
  | cons c s ih =>
    rw [List.infix_cons_iff, not_or, ← ih, NoSlashes, List.isChain_cons]
    refine and_congr_left fun _ => ?_
    cases s with
    | nil => simp
    | cons d s => simp [List.cons_prefix_cons, eq_comm]

theorem splitComment_of_noSlashes (h : NoSlashes s) : splitComment s = (s, none) := by
  induction s with
  | nil => rfl
  | cons c s ih =>
    have rest : NoSlashes s := List.IsChain.tail h
    rw [splitComment, ih rest]
    intro rest first eq
    subst first eq
    simp [NoSlashes, List.isChain_cons_cons] at h

theorem NoSlashes.append (hs : NoSlashes s) (ht : NoSlashes t)
    (apart : s.getLast? ≠ some '/' ∨ t.head? ≠ some '/') : NoSlashes (s ++ t) := by
  refine List.isChain_append.2 ⟨hs, ht, ?_⟩
  rintro c hc d hd ⟨rfl, rfl⟩
  rcases apart with last | first
  · exact last hc
  · exact first hd

theorem NoSlashes.intercalate (each : ∀ t ∈ ts, NoSlashes t) :
    NoSlashes ([',', ' '].intercalate ts) := by
  induction ts with
  | nil => simp [NoSlashes]
  | cons t ts ih =>
    have first := each t (by simp)
    cases ts with
    | nil => rwa [List.intercalate_singleton]
    | cons u ts =>
      have rest := ih fun u hu => each u (List.mem_cons_of_mem _ hu)
      have separator : NoSlashes [',', ' '] := by simp [NoSlashes]
      rw [List.intercalate_cons_cons]
      exact (first.append separator (.inr (by simp))).append rest (.inl (by simp))

/-- A text that can stand in a line of code: it has neither a line break nor the slashes of a
comment. -/
structure InCode (s : List Char) : Prop where
  unbroken : Unbroken s
  noSlashes : NoSlashes s

instance (s : List Char) : Decidable (InCode s) :=
  decidable_of_iff (Unbroken s ∧ NoSlashes s) ⟨fun h => ⟨h.1, h.2⟩, fun h =>
    ⟨h.unbroken, h.noSlashes⟩⟩

theorem InCode.append (hs : InCode s) (ht : InCode t)
    (apart : s.getLast? ≠ some '/' ∨ t.head? ≠ some '/') : InCode (s ++ t) where
  unbroken := hs.unbroken.append ht.unbroken
  noSlashes := hs.noSlashes.append ht.noSlashes apart

theorem InCode.intercalate (each : ∀ t ∈ ts, InCode t) : InCode ([',', ' '].intercalate ts) where
  unbroken :=
    have separator : Unbroken [',', ' '] := by decide
    forall_mem_intercalate separator fun t ht => (each t ht).unbroken
  noSlashes := NoSlashes.intercalate fun t ht => (each t ht).noSlashes

end Text
end Forecast

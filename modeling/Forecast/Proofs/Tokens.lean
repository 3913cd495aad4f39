import Forecast.Proofs.Outline.Texts

/-!
# Tokens split and joined

A text is cut at its commas at depth zero. Every piece before such a comma ends
at the depth where it began, so each piece begins at depth zero again; only the
last one may leave parentheses open, or close too many. So the tokens of a text
are told by what they are, not by the text that they come from, and a list of
such tokens that is joined is split into the same list.
-/

namespace Forecast

open Text

namespace Text

variable {s t : List Char} {ts : List (List Char)}

theorem nesting_of_isBlank {c : Char} (blank : isBlank c = true) : nesting c = 0 := by
  unfold nesting
  split
  · rename_i opening
    subst opening
    exact absurd blank (by decide)
  · split
    · rename_i closing
      subst closing
      exact absurd blank (by decide)
    · rfl

theorem depth_of_blank (blank : ∀ c ∈ s, isBlank c = true) : depth s = 0 :=
  depth_eq_zero fun c hc => nesting_of_isBlank (blank c hc)

theorem depth_trim (s : List Char) : depth (trim s) = depth s := by
  obtain ⟨before, after, whole, blank⟩ := exists_trim s
  have front := depth_of_blank fun c hc => blank c (List.mem_append_left _ hc)
  have back := depth_of_blank fun c hc => blank c (List.mem_append_right _ hc)
  conv_rhs => rw [whole, depth_append, depth_append, front, back, Int.add_zero, Int.zero_add]

theorem Sheltered.trim (h : Sheltered 0 s) : Sheltered 0 (trim s) := by
  intro front back cut
  obtain ⟨before, after, whole, blank⟩ := exists_trim s
  have gap := depth_of_blank fun c hc => blank c (List.mem_append_left _ hc)
  have here := h (before ++ front) (back ++ after) (by rw [whole, cut]; simp)
  rwa [depth_append, gap, Int.zero_add] at here

/-- Pieces of a text: no comma stands at depth zero in one of them, and each one but the last ends
at depth zero. -/
structure Cut (ps : List (List Char)) : Prop where
  sheltered : ∀ p ∈ ps, Sheltered 0 p
  balanced : ps.Pairwise fun p _ => depth p = 0

namespace Cut

variable {p : List Char}

theorem nil : Cut [] where
  sheltered := by simp
  balanced := List.Pairwise.nil

theorem cons (sheltered : Sheltered 0 p) (balanced : ts ≠ [] → depth p = 0) (h : Cut ts) :
    Cut (p :: ts) where
  sheltered := List.forall_mem_cons.2 ⟨sheltered, h.sheltered⟩
  balanced := List.pairwise_cons.2 ⟨fun _ hq => balanced (List.ne_nil_of_mem hq), h.balanced⟩

theorem map_trim (h : Cut ts) : Cut (ts.map trim) where
  sheltered := List.forall_mem_map.2 fun p hp => (h.sheltered p hp).trim
  balanced := by
    rw [List.pairwise_map]
    exact h.balanced.imp fun balanced => (depth_trim _).trans balanced

theorem filter (h : Cut ts) (keep : List Char → Bool) : Cut (ts.filter keep) where
  sheltered p hp := h.sheltered p (List.mem_of_mem_filter hp)
  balanced := h.balanced.filter keep

end Cut

/-- The pieces of a text that begins at some depth: the first one begins there too, the others at
depth zero. -/
theorem exists_pieces (start : Int) (s : List Char) :
    ∃ first others, pieces start s = first :: others ∧ Sheltered start first ∧
      (others ≠ [] → start + depth first = 0) ∧ Cut others := by
  induction s generalizing start with
  | nil => exact ⟨[], [], rfl, sheltered_nil start, by simp, .nil⟩
  | cons c s ih =>
    rw [pieces_cons]
    split
    · rename_i separates
      obtain ⟨first, others, cut, sheltered, balanced, rest⟩ := ih 0
      rw [Int.zero_add] at balanced
      refine ⟨[], pieces 0 s, rfl, sheltered_nil start, fun _ => by simp [separates.2], ?_⟩
      rw [cut]
      exact rest.cons sheltered balanced
    · rename_i within
      obtain ⟨first, others, cut, sheltered, balanced, rest⟩ := ih (start + nesting c)
      refine ⟨c :: first, others, by rw [cut, List.modifyHead_cons], ?_, ?_, rest⟩
      · exact sheltered_cons.2 ⟨within, sheltered⟩
      · intro more
        rw [depth_cons, ← Int.add_assoc]
        exact balanced more

theorem cut_pieces (s : List Char) : Cut (pieces 0 s) := by
  obtain ⟨first, others, cut, sheltered, balanced, rest⟩ := exists_pieces 0 s
  rw [Int.zero_add] at balanced
  rw [cut]
  exact rest.cons sheltered balanced

/-- A text that stands for itself among others: it is not empty, has no blanks around it and no
comma at depth zero. -/
structure IsToken (t : List Char) : Prop where
  nonempty : t ≠ []
  trimmed : Trimmed t
  sheltered : Sheltered 0 t

instance decidableSheltered (start : Int) : (s : List Char) → Decidable (Sheltered start s)
  | [] => .isTrue (sheltered_nil start)
  | c :: s =>
    have := decidableSheltered (start + nesting c) s
    decidable_of_iff _ sheltered_cons.symm

instance (t : List Char) : Decidable (IsToken t) :=
  decidable_of_iff (t ≠ [] ∧ trim t = t ∧ Sheltered 0 t)
    ⟨fun h => ⟨h.1, trimmed_of_trim_eq h.2.1, h.2.2⟩,
      fun h => ⟨h.nonempty, h.trimmed.trim_eq, h.sheltered⟩⟩

/-- Tokens of one text: each one but the last closes the parentheses that it opens, and no
others. -/
structure Tokens (ts : List (List Char)) : Prop where
  each : ∀ t ∈ ts, IsToken t
  balanced : ts.Pairwise fun t _ => depth t = 0

theorem tokens_splitTokens (s : List Char) : Tokens (splitTokens s) := by
  have cut := ((cut_pieces s).map_trim).filter fun t => !t.isEmpty
  have each : ∀ t ∈ splitTokens s, IsToken t := fun t ht =>
    ⟨ne_nil_of_mem_splitTokens ht, trimmed_of_mem_splitTokens ht, cut.sheltered t ht⟩
  exact ⟨each, cut.balanced⟩

theorem Tokens.splitTokens_eq (h : Tokens ts) : splitTokens ([',', ' '].intercalate ts) = ts := by
  apply splitTokens_joined
  · intro t ht
    have token := h.each t ht
    exact ⟨token.sheltered.pieces_eq, token.trimmed, token.nonempty⟩
  · exact h.balanced.imp_of_mem fun ht _ balanced =>
      closed_of_sheltered (h.each _ ht).sheltered balanced

/-- Balanced tokens that are joined by commas are split into the same tokens. Any text, whether its
parentheses match or not, is split into tokens that are not empty and have no blanks around them,
and what these are joined to is split into them again. -/
theorem splitTokens_joined_tokens :
    (∀ ts, (∀ t ∈ ts, IsToken t ∧ depth t = 0) → splitTokens ([',', ' '].intercalate ts) = ts) ∧
      ∀ s, (∀ t ∈ splitTokens s, t ≠ [] ∧ Trimmed t) ∧
        splitTokens ([',', ' '].intercalate (splitTokens s)) = splitTokens s := by
  constructor
  · intro ts each
    apply Tokens.splitTokens_eq
    exact ⟨fun t ht => (each t ht).1,
      List.pairwise_of_forall_mem_list fun t ht _ _ => (each t ht).2⟩
  · intro s
    have tokens := tokens_splitTokens s
    exact ⟨fun t ht => ⟨(tokens.each t ht).nonempty, (tokens.each t ht).trimmed⟩,
      tokens.splitTokens_eq⟩

/-- A parenthesis that is closed before it is opened shelters a comma as well. -/
theorem splitTokens_joined_tokens_unmatched :
    (∀ t ∈ [")a, b(".toList, "f(x, (y))".toList], IsToken t ∧ depth t = 0) ∧
      splitTokens ")a, b(, f(x, (y))".toList = [")a, b(".toList, "f(x, (y))".toList] ∧
      splitTokens "a), b,( c, , d".toList = ["a), b,( c".toList, "d".toList] ∧
      splitTokens "a), b,( c, d".toList = ["a), b,( c".toList, "d".toList] := by
  have each : ∀ t ∈ [")a, b(".toList, "f(x, (y))".toList], IsToken t ∧ depth t = 0 := by
    decide +kernel
  have split : splitTokens "a), b,( c, , d".toList = ["a), b,( c".toList, "d".toList] := by
    decide +kernel
  have again := (splitTokens_joined_tokens.2 "a), b,( c, , d".toList).2
  rw [split] at again
  exact ⟨each, splitTokens_joined_tokens.1 _ each, split, again⟩

end Text

end Forecast

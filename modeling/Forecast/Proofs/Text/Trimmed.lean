import Forecast.Text.Blank
import Mathlib.Data.List.Basic
import Mathlib.Data.List.TakeWhile

/-!
# Trimmed texts

Trimming removes the blanks at both ends of a text, and nothing else. A text
that has none there is left as it is.
-/

namespace Forecast.Text

variable {s t : List Char} {ts : List (List Char)} {c : Char} {p : Char → Bool}

/-! ## Ends without characters of a class -/

theorem dropWhile_eq_self (h : ∀ c ∈ s.head?, p c = false) : s.dropWhile p = s := by
  cases s with
  | nil => rfl
  | cons c s => simp [h c (by simp)]

theorem dropEnd_of_forall (h : ∀ c ∈ s, p c = false) : dropEnd p s = s := by
  have last : ∀ c ∈ s.reverse.head?, p c = false :=
    fun c hc => h c (List.mem_reverse.1 (List.mem_of_mem_head? hc))
  rw [dropEnd, dropWhile_eq_self last, List.reverse_reverse]

theorem strip_of_forall (h : ∀ c ∈ s, p c = false) : strip p s = s := by
  rw [strip, dropWhile_eq_self fun c hc => h c (List.mem_of_mem_head? hc), dropEnd_of_forall h]

/-! ## Trimmed texts -/

/-- A text that neither begins nor ends with a blank. -/
structure Trimmed (s : List Char) : Prop where
  first : ∀ c ∈ s.head?, isBlank c = false
  last : ∀ c ∈ s.getLast?, isBlank c = false

theorem Trimmed.trim_eq (h : Trimmed s) : trim s = s := by
  have last : ∀ c ∈ s.reverse.head?, isBlank c = false := by simpa using h.last
  rw [trim, strip, dropEnd, dropWhile_eq_self h.first, dropWhile_eq_self last, List.reverse_reverse]

theorem trimmed_trim (s : List Char) : Trimmed (trim s) where
  first := by
    intro c hc
    have front : dropEnd isBlank (s.dropWhile isBlank) <+: s.dropWhile isBlank := by
      rw [dropEnd, ← List.reverse_suffix, List.reverse_reverse]
      exact List.dropWhile_suffix _
    obtain ⟨more, whole⟩ := front
    obtain ⟨rest, start⟩ := List.head?_eq_some_iff.1 hc
    rw [trim, strip] at start
    rw [start, List.cons_append] at whole
    exact dropWhile_head whole.symm
  last := by
    intro c hc
    rw [trim, strip, dropEnd, List.getLast?_reverse] at hc
    obtain ⟨rest, start⟩ := List.head?_eq_some_iff.1 hc
    exact dropWhile_head start

/-- Trimming keeps just the trimmed texts. -/
theorem trimmed_of_trim_eq (h : trim s = s) : Trimmed s :=
  h ▸ trimmed_trim s

theorem trim_append {gap : List Char} (blank : ∀ c ∈ gap, isBlank c = true) (s : List Char) :
    trim (gap ++ s) = trim s := by
  rw [trim, trim, strip, strip, List.dropWhile_append_of_pos blank]

theorem trim_cons (blank : isBlank c = true) (s : List Char) : trim (c :: s) = trim s :=
  @trim_append [c] (by simpa using blank) s

/-- A blank and a trimmed text after another: nothing is lost but a blank that nothing follows. -/
theorem Trimmed.exists_tail (hs : Trimmed s) (nonempty : s ≠ []) (ht : Trimmed t) :
    ∃ tail, trim (s ++ ' ' :: t) = s ++ tail ∧ trim tail = t := by
  have first : ∀ c ∈ (s ++ ' ' :: t).head?, isBlank c = false := by
    rw [List.head?_append_of_ne_nil _ nonempty]
    exact hs.first
  by_cases none : t = []
  · subst none
    have last : s.reverse.dropWhile isBlank = s.reverse :=
      dropWhile_eq_self (by simpa using hs.last)
    have blank : isBlank ' ' = true := by decide
    refine ⟨[], ?_, rfl⟩
    rw [trim, strip, dropEnd, dropWhile_eq_self first, List.reverse_append]
    simp [blank, last]
  · refine ⟨' ' :: t, Trimmed.trim_eq ⟨first, ?_⟩, ?_⟩
    · rw [List.getLast?_append_of_ne_nil _ (by simp), ← List.singleton_append,
        List.getLast?_append_of_ne_nil _ none]
      exact ht.last
    · rw [trim_cons (by decide), ht.trim_eq]

theorem trimmed_concat (first : ∀ d ∈ s.head?, isBlank d = false) (nonempty : s ≠ [])
    (last : isBlank c = false) : Trimmed (s ++ [c]) where
  first := by
    rw [List.head?_append_of_ne_nil _ nonempty]
    exact first
  last := by
    rw [List.getLast?_concat]
    rintro d ⟨⟩
    exact last

theorem Trimmed.append (hs : Trimmed s) (ht : Trimmed t) (left : s ≠ []) (right : t ≠ [])
    (between : List Char) : Trimmed (s ++ between ++ t) where
  first := by
    obtain ⟨c, s, rfl⟩ := List.exists_cons_of_ne_nil left
    simpa using hs.first
  last := by
    rw [List.getLast?_append_of_ne_nil _ right]
    exact ht.last

/-! ## What trimming removes -/

/-- A text is what trimming leaves of it, with blanks around. -/
theorem exists_trim (s : List Char) : ∃ before after, s = before ++ (trim s ++ after) ∧
    ∀ c ∈ before ++ after, isBlank c = true := by
  have front := List.takeWhile_append_dropWhile (p := isBlank) (l := s)
  have back := List.takeWhile_append_dropWhile (p := isBlank) (l := (s.dropWhile isBlank).reverse)
  refine ⟨s.takeWhile isBlank, ((s.dropWhile isBlank).reverse.takeWhile isBlank).reverse, ?_, ?_⟩
  · rw [trim, strip, dropEnd, ← List.reverse_append, back, List.reverse_reverse, front]
  · intro c hc
    rcases List.mem_append.1 hc with hc | hc
    · exact List.mem_takeWhile_imp hc
    · exact List.mem_takeWhile_imp (List.mem_reverse.1 hc)

/-- Trimming removes the blanks around a text, and nothing else. -/
theorem Trimmed.trim_surrounded {before after : List Char} (h : Trimmed s) (nonempty : s ≠ [])
    (blank : ∀ c ∈ before ++ after, isBlank c = true) : trim (before ++ (s ++ after)) = s := by
  have first : ∀ c ∈ (s ++ after).head?, isBlank c = false := by
    rw [List.head?_append_of_ne_nil _ nonempty]
    exact h.first
  have last : ∀ c ∈ s.reverse.head?, isBlank c = false := by
    rw [List.head?_reverse]
    exact h.last
  have behind : ∀ c ∈ after.reverse, isBlank c = true := by
    intro c hc
    exact blank c (List.mem_append_right _ (List.mem_reverse.1 hc))
  rw [trim_append fun c hc => blank c (List.mem_append_left _ hc), trim, strip,
    dropWhile_eq_self first, dropEnd, List.reverse_append, List.dropWhile_append_of_pos behind,
    dropWhile_eq_self last, List.reverse_reverse]

theorem trim_eq_nil : trim s = [] ↔ ∀ d ∈ s, isBlank d = true := by
  rw [← List.dropWhile_eq_nil_iff, trim, strip, dropEnd, List.reverse_eq_nil_iff]
  cases start : s.dropWhile isBlank with
  | nil => simp
  | cons c rest =>
    have stop := dropWhile_head start
    simp [List.dropWhile_eq_nil_iff, stop]

theorem trim_subset (s : List Char) : trim s ⊆ s := by
  obtain ⟨before, after, cut, -⟩ := exists_trim s
  intro c hc
  rw [cut]
  simp [hc]

theorem length_trim_le (s : List Char) : (trim s).length ≤ s.length := by
  obtain ⟨before, after, cut, -⟩ := exists_trim s
  have length := congrArg List.length cut
  simp only [List.length_append] at length
  omega

/-! ## Texts that are joined -/

theorem Trimmed.intercalate (sep : List Char) (each : ∀ t ∈ ts, Trimmed t ∧ t ≠ []) :
    Trimmed (sep.intercalate ts) ∧ (ts ≠ [] → sep.intercalate ts ≠ []) := by
  induction ts with
  | nil => exact ⟨⟨by simp, by simp⟩, by simp⟩
  | cons t ts ih =>
    obtain ⟨trimmed, nonempty⟩ := each t (by simp)
    cases ts with
    | nil => simpa [trimmed] using nonempty
    | cons u ts =>
      obtain ⟨rest, some⟩ := ih fun t ht => each t (by simp [ht])
      rw [List.intercalate_cons_cons]
      exact ⟨trimmed.append rest nonempty (some (by simp)) sep, by simp [nonempty]⟩

theorem forall_mem_intercalate {P : Char → Prop} {sep : List Char} (separator : ∀ c ∈ sep, P c)
    (each : ∀ t ∈ ts, ∀ c ∈ t, P c) : ∀ c ∈ sep.intercalate ts, P c := by
  induction ts with
  | nil => simp
  | cons t ts ih =>
    have rest := ih fun u hu => each u (List.mem_cons_of_mem _ hu)
    have first := each t (by simp)
    cases ts with
    | nil => rwa [List.intercalate_singleton]
    | cons u ts =>
      rw [List.intercalate_cons_cons]
      intro c hc
      rcases List.mem_append.1 hc with hc | hc
      · rcases List.mem_append.1 hc with hc | hc
        · exact first c hc
        · exact separator c hc
      · exact rest c hc

theorem notMem_intercalate {sep : List Char} (separator : c ∉ sep) (each : ∀ t ∈ ts, c ∉ t) :
    c ∉ sep.intercalate ts := by
  have other := forall_mem_intercalate (P := (· ≠ c)) (fun d hd eq => separator (eq ▸ hd))
    (fun t ht d hd eq => each t ht (eq ▸ hd))
  exact fun mem => other c mem rfl

end Forecast.Text

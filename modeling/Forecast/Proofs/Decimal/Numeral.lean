import Forecast.Decimal.Numeral
import Mathlib.Data.List.Basic
import Mathlib.Data.List.TakeWhile

/-!
# The grammar of numerals

A numeral is a sign or none, digits with a point after or among them, before
them, or with none, and a power of ten or none. What is recognised as a numeral
is what is written so. Without underscores it does not matter whether digits may
be grouped by them.
-/

namespace Forecast.Decimal

open Text

variable {s t : List Char} {c : Char}

/-! ## The grammar -/

/-- One or more decimal digits. -/
structure IsDigits (s : List Char) : Prop where
  nonempty : s ≠ []
  digits : ∀ c ∈ s, isDecimalDigit c = true

def IsSign (s : List Char) : Prop :=
  s = [] ∨ s = ['+'] ∨ s = ['-']

/-- Digits with a point after or among them, before them, or with none. -/
inductive IsMantissa : List Char → Prop
  | whole {s : List Char} (digits : IsDigits s) : IsMantissa s
  | point {s t : List Char} (digits : IsDigits s) (more : ∀ c ∈ t, isDecimalDigit c = true) :
    IsMantissa (s ++ '.' :: t)
  | fraction {t : List Char} (digits : IsDigits t) : IsMantissa ('.' :: t)

inductive IsExponent : List Char → Prop
  | none : IsExponent []
  | power {mark : Char} {sign s : List Char} (marked : mark = 'e' ∨ mark = 'E')
    (signed : IsSign sign)
    (digits : IsDigits s) : IsExponent (mark :: (sign ++ s))

/-- A number as it is written. -/
structure IsNumeral (s : List Char) : Prop where
  parts : ∃ sign mantissa exponent, s = sign ++ (mantissa ++ exponent) ∧
    IsSign sign ∧ IsMantissa mantissa ∧ IsExponent exponent

/-! ## Characters -/

def isNumeralChar (c : Char) : Bool :=
  isDecimalDigit c || ['+', '-', '.', 'e', 'E'].contains c

theorem isSpace_of_isDecimalDigit (h : isDecimalDigit c = true) : isSpace c = false := by
  have apart : ∀ z ∈ digitZeros, z + 10 ≤ 128 ∨ (0xA0 < z ∧ z + 10 ≤ 0x1680) ∨
      (0x1680 < z ∧ z + 10 ≤ 0x2000) ∨ (0x205F < z ∧ z + 10 ≤ 0x3000) ∨ 0x3000 < z := by decide
  obtain ⟨d, hd⟩ := Option.isSome_iff_exists.1 h
  simp only [digitValue?] at hd
  split at hd
  · split at hd
    · rename_i ascii
      simp only [Bool.and_eq_true, decide_eq_true_eq] at ascii
      simp [isSpace]
      omega
    · cases hd
  · obtain ⟨z, hz, -⟩ := Option.map_eq_some_iff.1 hd
    have near := List.find?_some hz
    have := apart z (List.mem_of_find?_eq_some hz)
    simp only [Bool.and_eq_true, decide_eq_true_eq] at near
    simp [isSpace]
    omega

theorem isSpace_of_isNumeralChar (h : isNumeralChar c = true) : isSpace c = false := by
  simp only [isNumeralChar, Bool.or_eq_true, List.contains_iff_mem] at h
  rcases h with digit | mark
  · exact isSpace_of_isDecimalDigit digit
  · simp only [List.mem_cons, List.not_mem_nil, or_false] at mark
    rcases mark with rfl | rfl | rfl | rfl | rfl <;> decide

/-! ## Digits and signs at the beginning -/

theorem spanDigits_cons (plain : c ≠ '_') (grouped after : Bool) (s : List Char) :
    spanDigits grouped after (c :: s) =
      match digitValue? c with
      | some d => (d :: (spanDigits grouped true s).1, (spanDigits grouped true s).2)
      | none => ([], c :: s) := by
  have other : ∀ d rest, c = '_' → s = d :: rest → False := fun _ _ h => absurd h plain
  cases known : digitValue? c with
  | none => simp only [spanDigits, known]
  | some d => simp only [spanDigits, known]

/-- A text begins with digits, which end where they have to. -/
theorem spanDigits_append (digits : ∀ c ∈ s, isDecimalDigit c = true)
    (stop : ∀ c ∈ t.head?, isDecimalDigit c = false) (after : Bool) :
    ∃ values, spanDigits false after (s ++ t) = (values, t) ∧ values.isEmpty = s.isEmpty := by
  induction s generalizing after with
  | nil =>
    refine ⟨[], ?_, rfl⟩
    rw [List.nil_append]
    fun_cases spanDigits false after t with
    | case1 => rfl
    | case2 _ _ _ _ allowed => simp at allowed
    | case3 => rfl
    | case4 => rfl
    | case5 c rest _ d found =>
      have other : isDecimalDigit c = false := stop c rfl
      simp [isDecimalDigit, found] at other
    | case6 => rfl
  | cons c s ih =>
    have digit := digits c (by simp)
    have plain : c ≠ '_' := by
      rintro rfl
      exact absurd digit (by decide)
    obtain ⟨d, found⟩ := Option.isSome_iff_exists.1 digit
    obtain ⟨values, span, -⟩ := ih (fun d hd => digits d (by simp [hd])) true
    exact ⟨d :: values, by simp [spanDigits_cons plain, found, span], rfl⟩

theorem exists_digits (s : List Char) :
    ∃ digits rest, s = digits ++ rest ∧ (∀ c ∈ digits, isDecimalDigit c = true) ∧
      ∀ c ∈ rest.head?, isDecimalDigit c = false := by
  refine ⟨s.takeWhile isDecimalDigit, s.dropWhile isDecimalDigit, ?_, ?_, ?_⟩
  · exact List.takeWhile_append_dropWhile.symm
  · exact fun _ => List.mem_takeWhile_imp
  · intro c hc
    obtain ⟨rest, start⟩ := List.head?_eq_some_iff.1 hc
    exact dropWhile_head start

theorem exists_sign (s : List Char) : ∃ sign, s = sign ++ (spanSign s).2 ∧ IsSign sign := by
  fun_cases spanSign s with
  | case1 rest => exact ⟨['-'], rfl, .inr (.inr rfl)⟩
  | case2 rest => exact ⟨['+'], rfl, .inr (.inl rfl)⟩
  | case3 => exact ⟨[], rfl, .inl rfl⟩

theorem spanSign_append {sign : List Char} (signed : IsSign sign)
    (stop : ∀ c ∈ s.head?, c ≠ '+' ∧ c ≠ '-') : (spanSign (sign ++ s)).2 = s := by
  rcases signed with rfl | rfl | rfl
  · cases s with
    | nil => rfl
    | cons c s =>
      obtain ⟨plus, minus⟩ := stop c rfl
      unfold spanSign
      split <;> simp_all
  · rfl
  · rfl

theorem IsDigits.stop (digits : IsDigits s) (t : List Char) :
    ∀ c ∈ (s ++ t).head?, c ≠ '+' ∧ c ≠ '-' := by
  intro c hc
  rw [List.head?_append_of_ne_nil _ digits.nonempty] at hc
  have digit := digits.digits c (List.mem_of_mem_head? hc)
  constructor
  · rintro rfl
    exact absurd digit (by decide)
  · rintro rfl
    exact absurd digit (by decide)

/-- What a span of digits takes are digits, unless underscores are allowed among them. -/
theorem exists_spanDigits (after : Bool) (s : List Char) :
    ∃ digits, s = digits ++ (spanDigits false after s).2 ∧
      ∀ c ∈ digits, isDecimalDigit c = true := by
  fun_induction spanDigits false after s with
  | case1 => exact ⟨[], rfl, by simp⟩
  | case2 _ _ _ _ _ allowed => simp at allowed
  | case3 => exact ⟨[], rfl, by simp⟩
  | case4 => exact ⟨[], rfl, by simp⟩
  | case5 after c rest _ d found ds tail span ih =>
    obtain ⟨digits, cut, each⟩ := ih
    refine ⟨c :: digits, ?_, ?_⟩
    · rw [span] at cut
      rw [List.cons_append, ← cut]
    · simpa [isDecimalDigit, found] using each
  | case6 => exact ⟨[], rfl, by simp⟩

theorem spanDigits_suffix (after : Bool) (s : List Char) : (spanDigits false after s).2 <:+ s := by
  obtain ⟨digits, cut, -⟩ := exists_spanDigits after s
  exact ⟨digits, cut.symm⟩

/-! ## What is recognised -/

theorem isSome_exponent? : (exponent? false s).isSome ↔ IsExponent s := by
  constructor
  · intro h
    cases s with
    | nil => exact .none
    | cons c rest =>
      simp only [exponent?] at h
      split at h
      · rename_i mark
        obtain ⟨sign, cut, signed⟩ := exists_sign rest
        obtain ⟨digits, tail, body, each, stop⟩ := exists_digits (spanSign rest).2
        obtain ⟨values, span, empty⟩ := spanDigits_append each stop false
        rw [body, span] at h
        rw [cut, body]
        cases values with
        | nil => cases h
        | cons value values =>
          cases tail with
          | nil =>
            rw [List.append_nil]
            exact .power (by simpa using mark) signed ⟨by simpa using empty, each⟩
          | cons => cases h
      · cases h
  · rintro (_ | @⟨mark, sign, digits, marked, signed, all⟩)
    · rfl
    · have mark : (mark == 'e' || mark == 'E') = true := by simpa using marked
      have body : (spanSign (sign ++ digits)).2 = digits :=
        spanSign_append signed (by simpa using all.stop [])
      obtain ⟨values, span, empty⟩ := spanDigits_append all.digits (t := []) (by simp) false
      rw [List.append_nil] at span
      cases values with
      | nil => exact absurd (by simpa using empty) all.nonempty
      | cons value values => simp [exponent?, mark, body, span]

theorem IsExponent.stop (h : IsExponent s) : ∀ c ∈ s.head?, c = 'e' ∨ c = 'E' := by
  cases h with
  | none => simp
  | power marked => simpa using marked

theorem IsExponent.isDecimalDigit_eq_false (h : IsExponent s) :
    ∀ c ∈ s.head?, isDecimalDigit c = false := by
  intro c hc
  rcases h.stop c hc with rfl | rfl <;> decide

/-! The sign and the digits before a point are known; what is read then depends on the rest. -/

section

variable {whole part : List Char} (wholes : ∀ c ∈ whole, isDecimalDigit c = true)

include wholes

theorem isSome_ofChars?_of_point (body : (spanSign s).2 = whole ++ '.' :: (part ++ t))
    (parts : ∀ c ∈ part, isDecimalDigit c = true) (stop : ∀ c ∈ t.head?, isDecimalDigit c = false) :
    (Numeral.ofChars? false s).isSome ↔ ¬(whole = [] ∧ part = []) ∧ IsExponent t := by
  have point : ∀ c ∈ ('.' :: (part ++ t)).head?, isDecimalDigit c = false := by
    rintro c ⟨⟩
    decide
  obtain ⟨ws, front, ws_empty⟩ := spanDigits_append wholes point false
  obtain ⟨ps, back, ps_empty⟩ := spanDigits_append parts stop false
  simp only [Numeral.ofChars?, body, front, back, ws_empty, ps_empty]
  split <;> simp_all [isSome_exponent?]

theorem isSome_ofChars?_of_whole (body : (spanSign s).2 = whole ++ t)
    (stop : ∀ c ∈ t.head?, isDecimalDigit c = false) (point : t.head? ≠ some '.') :
    (Numeral.ofChars? false s).isSome ↔ whole ≠ [] ∧ IsExponent t := by
  obtain ⟨ws, front, ws_empty⟩ := spanDigits_append wholes stop false
  simp only [Numeral.ofChars?, body, front, ws_empty]
  split
  · exact absurd rfl point
  · split <;> simp_all [isSome_exponent?]

end

/-- The numbers that are recognised are those written as numbers. -/
theorem isSome_ofChars? : (Numeral.ofChars? false s).isSome ↔ IsNumeral s := by
  constructor
  · intro h
    obtain ⟨sign, cut, signed⟩ := exists_sign s
    obtain ⟨whole, rest, body, wholes, stop⟩ := exists_digits (spanSign s).2
    by_cases point : rest.head? = some '.'
    · obtain ⟨tail, rfl⟩ := List.head?_eq_some_iff.1 point
      obtain ⟨part, exponent, rfl, parts, stop⟩ := exists_digits tail
      obtain ⟨some, power⟩ := (isSome_ofChars?_of_point wholes body parts stop).1 h
      refine ⟨sign, whole ++ '.' :: part, exponent, by simpa [body] using cut, signed, ?_, power⟩
      by_cases empty : whole = []
      · subst empty
        exact .fraction ⟨by simpa using some, parts⟩
      · exact .point ⟨empty, wholes⟩ parts
    · obtain ⟨some, power⟩ := (isSome_ofChars?_of_whole wholes body stop point).1 h
      exact ⟨sign, whole, rest, by rw [← body, ← cut], signed, .whole ⟨some, wholes⟩, power⟩
  · rintro ⟨sign, mantissa, exponent, rfl, signed, mantissas, power⟩
    have stop := power.isDecimalDigit_eq_false
    cases mantissas with
    | whole digits =>
      have body := spanSign_append signed (digits.stop exponent)
      have point : exponent.head? ≠ some '.' := by
        intro point
        rcases power.stop '.' point with mark | mark <;> exact absurd mark (by decide)
      exact (isSome_ofChars?_of_whole digits.digits body stop point).2 ⟨digits.nonempty, power⟩
    | @point whole part digits parts =>
      have body := spanSign_append signed (digits.stop ('.' :: (part ++ exponent)))
      rw [List.append_assoc, List.cons_append]
      exact (isSome_ofChars?_of_point digits.digits body parts stop).2
        ⟨fun none => digits.nonempty none.1, power⟩
    | @fraction part digits =>
      have body : (spanSign (sign ++ '.' :: (part ++ exponent))).2 = [] ++
          '.' :: (part ++ exponent) :=
        spanSign_append signed (by simp)
      rw [List.cons_append]
      exact (isSome_ofChars?_of_point (by simp) body digits.digits stop).2
        ⟨fun none => digits.nonempty none.2, power⟩

/-! ## Characters of numerals -/

theorem IsSign.isNumeralChar (h : IsSign s) : ∀ c ∈ s, isNumeralChar c = true := by
  intro c hc
  rcases h with rfl | rfl | rfl
  · cases hc
  · cases List.mem_singleton.1 hc
    decide
  · cases List.mem_singleton.1 hc
    decide

theorem isNumeralChar_of_digits (digits : ∀ c ∈ s, isDecimalDigit c = true) :
    ∀ c ∈ s, isNumeralChar c = true := by
  intro c hc
  simp [isNumeralChar, digits c hc]

theorem IsMantissa.isNumeralChar (h : IsMantissa s) : ∀ c ∈ s, isNumeralChar c = true := by
  have point : Decimal.isNumeralChar '.' = true := by decide
  cases h with
  | whole digits => exact isNumeralChar_of_digits digits.digits
  | point digits more =>
    rw [List.forall_mem_append, List.forall_mem_cons]
    exact ⟨isNumeralChar_of_digits digits.digits, point, isNumeralChar_of_digits more⟩
  | fraction digits => exact List.forall_mem_cons.2 ⟨point, isNumeralChar_of_digits digits.digits⟩

theorem IsExponent.isNumeralChar (h : IsExponent s) : ∀ c ∈ s, isNumeralChar c = true := by
  cases h with
  | none => simp
  | power marked signed digits =>
    rw [List.forall_mem_cons, List.forall_mem_append]
    refine ⟨?_, signed.isNumeralChar, isNumeralChar_of_digits digits.digits⟩
    rcases marked with rfl | rfl <;> decide

theorem IsNumeral.isNumeralChar (h : IsNumeral s) : ∀ c ∈ s, isNumeralChar c = true := by
  obtain ⟨sign, mantissa, exponent, rfl, signed, mantissas, power⟩ := h.parts
  rw [List.forall_mem_append, List.forall_mem_append]
  exact ⟨signed.isNumeralChar, mantissas.isNumeralChar, power.isNumeralChar⟩

/-! ## Numerals with and without groups -/

theorem spanDigits_eq (plain : '_' ∉ s) (grouped after : Bool) :
    spanDigits grouped after s = spanDigits false false s := by
  suffices same : ∀ grouped' after', spanDigits grouped after s = spanDigits grouped' after' s from
    same _ _
  intro grouped' after'
  induction s generalizing after after' with
  | nil => rfl
  | cons c s ih =>
    simp only [List.mem_cons, not_or] at plain
    rw [spanDigits_cons (Ne.symm plain.1), spanDigits_cons (Ne.symm plain.1), ih plain.2 true true]

theorem exponent?_eq (plain : '_' ∉ s) : exponent? true s = exponent? false s := by
  cases s with
  | nil => rfl
  | cons c rest =>
    have body : '_' ∉ (spanSign rest).2 := by
      obtain ⟨sign, cut, -⟩ := exists_sign rest
      intro mem
      apply plain
      rw [cut]
      simp [mem]
    simp only [exponent?, spanDigits_eq body true]

theorem ofChars?_eq (plain : '_' ∉ s) : Numeral.ofChars? true s = Numeral.ofChars? false s := by
  have body : '_' ∉ (spanSign s).2 := by
    obtain ⟨sign, cut, -⟩ := exists_sign s
    intro mem
    apply plain
    rw [cut]
    simp [mem]
  have rest : '_' ∉ (spanDigits false false (spanSign s).2).2 :=
    fun mem => body ((spanDigits_suffix _ _).subset mem)
  simp only [Numeral.ofChars?, spanDigits_eq body true]
  generalize (spanDigits false false (spanSign s).2).2 = afterWhole at rest ⊢
  split
  · rename_i fraction
    have part : '_' ∉ fraction := fun mem => rest (List.mem_cons_of_mem _ mem)
    have tail : '_' ∉ (spanDigits false false fraction).2 :=
      fun mem => part ((spanDigits_suffix _ _).subset mem)
    simp only [spanDigits_eq part true, exponent?_eq tail]
  · simp only [exponent?_eq rest]

end Forecast.Decimal

/-!
# Blank characters

Two classes of characters separate words. `isSpace` is the Unicode property
`White_Space`; a number may be surrounded by such characters. `isBlank` adds
the four information separators U+001C to U+001F; lines, names and values are
trimmed of those as well.
-/

namespace Forecast.Text

/-- The Unicode property `White_Space`. -/
def isSpace (c : Char) : Bool :=
  let n := c.toNat
  (9 ≤ n && n ≤ 13) || n == 32 || n == 0x85 || n == 0xA0 || n == 0x1680 ||
    (0x2000 ≤ n && n ≤ 0x200A) || n == 0x2028 || n == 0x2029 || n == 0x202F ||
    n == 0x205F || n == 0x3000

/-- A character that trimming removes. -/
def isBlank (c : Char) : Bool :=
  isSpace c || (0x1C ≤ c.toNat && c.toNat ≤ 0x1F)

theorem isBlank_of_isSpace {c : Char} (h : isSpace c = true) : isBlank c = true := by
  simp [isBlank, h]

/-- Drops the characters of a class from the right end. -/
def dropEnd (p : Char → Bool) (s : List Char) : List Char :=
  (s.reverse.dropWhile p).reverse

/-- Drops the characters of a class from both ends. -/
def strip (p : Char → Bool) (s : List Char) : List Char :=
  dropEnd p (s.dropWhile p)

/-- The text without the blanks at either end. -/
def trim (s : List Char) : List Char :=
  strip isBlank s

/-- The maximal runs of characters that are not blank. -/
def words (s : List Char) : List (List Char) :=
  (s.splitOnP isBlank).filter fun w => !w.isEmpty

/-- Joins texts with a separator between neighbours. -/
def joinWith (sep : List Char) : List (List Char) → List Char
  | [] => []
  | [w] => w
  | w :: ws => w ++ sep ++ joinWith sep ws

@[simp] theorem trim_nil : trim [] = [] := rfl

theorem dropWhile_head {p : Char → Bool} {s : List Char} {c : Char} {r : List Char}
    (h : s.dropWhile p = c :: r) : p c = false := by
  induction s with
  | nil => simp at h
  | cons d t ih =>
    by_cases hd : p d = true
    · rw [List.dropWhile_cons_of_pos hd] at h
      exact ih h
    · rw [List.dropWhile_cons_of_neg hd] at h
      cases h
      simpa using hd

end Forecast.Text

import Forecast.Text.Printable

/-!
# Quoted texts

A text in a message stands between single quotes, or between double quotes if
it holds a single quote and no double one. A backslash, the quote in use and
every character without a printed form are escaped.
-/

namespace Forecast.Text

/-- The digits of a number in base sixteen, filled with zeros to a width. -/
def hex (width n : Nat) : List Char :=
  let ds := Nat.toDigits 16 n
  List.replicate (width - ds.length) '0' ++ ds

/-- The quote that a text is put between. -/
def quoteFor (s : List Char) : Char :=
  if s.contains '\'' && !s.contains '"' then '"' else '\''

def escape (quote c : Char) : List Char :=
  if c == quote || c == '\\' then ['\\', c]
  else if c == '\n' then ['\\', 'n']
  else if c == '\r' then ['\\', 'r']
  else if c == '\t' then ['\\', 't']
  else if isPrintable c then [c]
  else if c.toNat < 0x100 then '\\' :: 'x' :: hex 2 c.toNat
  else if c.toNat < 0x10000 then '\\' :: 'u' :: hex 4 c.toNat
  else '\\' :: 'U' :: hex 8 c.toNat

def quoted (s : String) : String :=
  let cs := s.toList
  let quote := quoteFor cs
  String.ofList (quote :: cs.flatMap (escape quote) ++ [quote])

theorem quoteFor_eq (s : List Char) : quoteFor s = '"' ↔ '\'' ∈ s ∧ '"' ∉ s := by
  by_cases h : s.contains '\'' = true <;> by_cases g : s.contains '"' = true <;>
    simp_all [quoteFor]

end Forecast.Text

import Forecast.Text.Blank
import Forecast.Text.Capital

/-!
# Titles of names

A name in camel case or with underscores is written as words that start with a
capital: `monthlyRev` becomes `Monthly Rev`.
-/

namespace Forecast.Text

/-- Whether a word starts at the second of three neighbouring characters. -/
def startsWord (before c : Char) (after : Option Char) : Bool :=
  ((before.isLower || before.isDigit) && c.isUpper) ||
    (before.isUpper && c.isUpper && after.any Char.isLower)

/-- Puts a space before every character that starts a word inside a name. -/
def spaceWords : List Char → List Char
  | a :: b :: rest =>
    if startsWord a b rest.head? then a :: ' ' :: spaceWords (b :: rest)
    else a :: spaceWords (b :: rest)
  | s => s

/-- A word with a capital at its start. -/
def capitalize : List Char → List Char
  | [] => []
  | c :: rest => capital c ++ rest

def title (name : String) : String :=
  let spaced := spaceWords (name.toList.map fun c => if c == '_' then ' ' else c)
  String.ofList (joinWith [' '] ((words spaced).map capitalize))

end Forecast.Text

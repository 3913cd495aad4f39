import Forecast.Calendar.Token

/-!
# Words of a written date

Months and days of the week have English names, which may be cut to three
letters. Some words mean a half of the day or a unit of time, and some words and
marks carry no meaning. The case of letters does not count.
-/

namespace Forecast.Date

def monthNames : List (List String) :=
  [["january"], ["february"], ["march"], ["april"], ["may"], ["june"], ["july"], ["august"],
    ["september", "sept"], ["october"], ["november"], ["december"]]

def dayNames : List String :=
  ["monday", "tuesday", "wednesday", "thursday", "friday", "saturday", "sunday"]

def lower (t : Token) : Token :=
  t.map Char.toLower

def isOneOf (words : List String) (t : Token) : Bool :=
  words.contains (String.ofList (lower t))

/-- Whether a word is a name or the first three letters of it. -/
def abbreviates (t : Token) (name : String) : Bool :=
  lower t == name.toList || lower t == name.toList.take 3

def monthOf? (t : Token) : Option Nat :=
  (monthNames.findIdx? fun names => names.any (abbreviates t)).map (· + 1)

def weekdayOf? (t : Token) : Option Nat :=
  dayNames.findIdx? (abbreviates t)

/-- Whether a word means a half of the day, and whether that is the second half. -/
def halfOf? (t : Token) : Option Bool :=
  [("am", false), ("a", false), ("pm", true), ("p", true)].lookup (String.ofList (lower t))

/-- A unit of the time of day. -/
inductive ClockUnit
  | hour
  | minute
  | second
  /-- Less than a second; it does not count. -/
  | part

def ClockUnit.next : ClockUnit → ClockUnit
  | hour => minute
  | minute => second
  | second => part
  | part => part

def unitOf? (t : Token) : Option ClockUnit :=
  if isOneOf ["h", "hour", "hours"] t then some .hour
  else if isOneOf ["m", "minute", "minutes"] t then some .minute
  else if isOneOf ["s", "second", "seconds"] t then some .second
  else none

/-- Words and marks that carry no meaning. -/
def isFiller (t : Token) : Bool :=
  isOneOf [" ", ".", ",", ";", "-", "/", "'", "at", "on", "and", "ad", "m", "t", "of", "st", "nd",
    "rd", "th"] t

/-- Marks that may join the numbers of a date. -/
def isDateMark (t : Token) : Bool :=
  t == ['-'] || t == ['/'] || t == ['.']

def isSignMark (t : Token) : Bool :=
  t == ['+'] || t == ['-']

/-- Words for values that are no finite numbers, which no date has. -/
def isUnbounded (t : Token) : Bool :=
  isOneOf ["nan", "inf", "infinity"] t

def isUniversal (t : Token) : Bool :=
  isOneOf ["utc", "gmt", "z"] t

def isZoneName (t : Token) : Bool :=
  t.length ≤ 5 && (t.all Char.isUpper || t == ['z'])

end Forecast.Date

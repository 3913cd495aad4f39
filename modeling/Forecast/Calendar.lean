import Forecast.Decimal.Layout

/-!
# Dates

A start date labels the months of a horizon. It is a day of the calendar with a
time of day, to a millionth of a second, and possibly the distance of its clock
from universal time.
-/

namespace Forecast

/-- A date and a time of day. -/
structure Date where
  year : Nat
  month : Nat
  day : Nat
  hour : Nat
  minute : Nat
  second : Nat
  micro : Nat
  /-- How many minutes the clock is ahead of universal time, if that is known. -/
  offset : Option Int
deriving DecidableEq

namespace Date

def isLeap (year : Nat) : Bool :=
  year % 4 == 0 && (year % 100 != 0 || year % 400 == 0)

def daysIn (year month : Nat) : Nat :=
  if month == 2 then (if isLeap year then 29 else 28)
  else if [4, 6, 9, 11].contains month then 30
  else 31

/-- Whether clocks may differ so many minutes: less than a day. -/
def isOffset (minutes : Int) : Bool :=
  minutes.natAbs < 24 * 60

def isValid (d : Date) : Bool :=
  1 ≤ d.year && d.year ≤ 9999 && 1 ≤ d.month && d.month ≤ 12 && 1 ≤ d.day &&
    d.day ≤ daysIn d.year d.month && d.hour < 24 && d.minute < 60 && d.second < 60 &&
    d.micro < 1000000 && d.offset.all isOffset

def firstOf (year month : Nat) : Date where
  year
  month
  day := 1
  hour := 0
  minute := 0
  second := 0
  micro := 0
  offset := none

/-- The number of months from the start of the calendar to the month of a date. -/
def monthIndex (d : Date) : Nat :=
  d.year * 12 + (d.month - 1)

/-- The day after a date, at the same time of day. -/
def tomorrow (d : Date) : Date :=
  if d.day < daysIn d.year d.month then { d with day := d.day + 1 }
  else if d.month < 12 then { d with month := d.month + 1, day := 1 }
  else { d with year := d.year + 1, month := 1, day := 1 }

/-- The place of a day in its week, which starts with Monday. -/
def weekday (d : Date) : Nat :=
  let years := d.year - 1
  let months := (List.range' 1 (d.month - 1)).foldl (fun days month => days + daysIn d.year month) 0
  (365 * years + years / 4 - years / 100 + years / 400 + months + d.day + 6) % 7

/-- The first of such weekdays from a date on. -/
def nextOn (d : Date) (weekday : Nat) : Date :=
  Nat.repeat tomorrow ((weekday + 7 - d.weekday) % 7) d

/-- The first day of the month that lies `months` after the month of a date. -/
def monthStart (d : Date) (months : Nat) : Date :=
  let index := d.monthIndex + months
  firstOf (index / 12) (index % 12 + 1)

def pad (width n : Nat) : String :=
  String.ofList (Decimal.padZeros width (Decimal.digitChars n))

def monthText (d : Date) : String :=
  pad 4 d.year ++ "-" ++ pad 2 d.month

def dayText (d : Date) : String :=
  d.monthText ++ "-" ++ pad 2 d.day

def clockText (d : Date) : String :=
  pad 2 d.hour ++ ":" ++ pad 2 d.minute ++ ":" ++ pad 2 d.second

def microText (micro : Nat) : String :=
  if micro = 0 then "" else "." ++ pad 6 micro

/-- The distance from universal time, if it is known. -/
def offsetText : Option Int → String
  | none => ""
  | some minutes =>
    (if minutes < 0 then "-" else "+") ++ pad 2 (minutes.natAbs / 60) ++ ":" ++
      pad 2 (minutes.natAbs % 60)

def text (d : Date) : String :=
  d.dayText ++ "T" ++ d.clockText ++ microText d.micro ++ offsetText d.offset

/-- A month as messages show it, the year without zeros in front. -/
def shownMonth (d : Date) : String :=
  Decimal.intText d.year ++ "-" ++ pad 2 d.month ++ "-01 00:00:00"

/-- Whether a month may label a column. A label counts nanoseconds from 1970 in a signed word, so
it lies between October 1677 and April 2262. -/
def isLabel (d : Date) : Bool :=
  (firstOf 1677 10).monthIndex ≤ d.monthIndex && d.monthIndex ≤ (firstOf 2262 4).monthIndex

/-- Why a text gives no date. -/
inductive Unread
  /-- It is not a date. -/
  | noDate
  /-- A number in it is too long to be looked at. -/
  | tooLong
deriving DecidableEq

theorem monthIndex_firstOf (index : Nat) :
    (firstOf (index / 12) (index % 12 + 1)).monthIndex = index := by
  simp only [monthIndex, firstOf]
  omega

@[simp] theorem monthIndex_monthStart (d : Date) (months : Nat) :
    (d.monthStart months).monthIndex = d.monthIndex + months :=
  monthIndex_firstOf _

end Date

/-- Reads a date from a text. Dates are written in many forms, some of which leave parts open that
the day of reading fills in, so all that depends on written dates takes the reader as given. -/
abbrev DateReader := String → Except Date.Unread Date

end Forecast

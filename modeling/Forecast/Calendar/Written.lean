import Forecast.Calendar
import Forecast.Calendar.Figure
import Forecast.Calendar.Word

/-!
# Written dates

A date is read from a text in one of many forms: year, month and day; month and
day before the year; or with the name of the month. A time of day may follow,
with colons or with units, and a time zone. A number is understood by what
stands around it. Which numbers are year, month and day is decided at the end:
a number of more than two digits is a year, one above 31 is no day and one above
12 is no month; otherwise the month comes first. What a text leaves open is that
of the day on which it is read, and the century of a year is the nearest one.
-/

namespace Forecast.Date

/-- What has been found in a written date. -/
structure Found where
  /-- The day on which the date is read. -/
  today : Date
  /-- The numbers of the date in the order in which they stand. -/
  numbers : List Nat
  /-- The place of the year among the numbers, if it is known. -/
  yearAt : Option Nat
  /-- The place of the month among the numbers, if it is known. -/
  monthAt : Option Nat
  weekday : Option Nat
  hour : Option Nat
  minute : Option Nat
  second : Option Nat
  micro : Option Nat
  zone : Option Token
  /-- Minutes ahead of universal time. -/
  offset : Option Int
  /-- Whether the next sign means the opposite, since it follows the name of a zone. -/
  opposite : Bool

/-- The finding and how many further tokens belong to it. -/
abbrev Reading := Except Unread (Found × Nat)

/-- A year as it is meant: one without a century is at most fifty years away. -/
def withCentury (thisYear year : Nat) : Nat :=
  let sameCentury := thisYear / 100 * 100 + year
  if 100 ≤ year then year
  else if thisYear + 50 ≤ sameCentury then sameCentury - 100
  else if sameCentury + 50 < thisYear then sameCentury + 100
  else sameCentury

namespace Found

def nothing (today : Date) : Found where
  today
  numbers := []
  yearAt := none
  monthAt := none
  weekday := none
  hour := none
  minute := none
  second := none
  micro := none
  zone := none
  offset := none
  opposite := false

/-! ## Numbers of the date -/

def addYear (f : Found) (n : Nat) : Except Unread Found :=
  if f.yearAt.isSome then .error .noDate
  else .ok { f with numbers := f.numbers ++ [n], yearAt := some f.numbers.length }

def addMonth (f : Found) (n : Nat) : Except Unread Found :=
  if f.monthAt.isSome then .error .noDate
  else .ok { f with numbers := f.numbers ++ [n], monthAt := some f.numbers.length }

/-- Adds a number; one that cannot be a day or a month is the year. -/
def addNumber (f : Found) (n : Nat) (isYear : Bool) : Except Unread Found :=
  if isYear then f.addYear n else .ok { f with numbers := f.numbers ++ [n] }

def addDigits (f : Found) (t : Token) : Except Unread Found := do
  f.addNumber (← need (natural? t)) (2 < t.length)

def addFigure (f : Found) (x : Figure) : Except Unread Found :=
  f.addNumber x.whole (100 < x.whole || (x.whole == 100 && x.isBroken))

def addPart (f : Found) (t : Token) : Except Unread Found :=
  match monthOf? t with
  | some m => f.addMonth m
  | none => f.addDigits t

/-- Whether a number may be the day, as far as month and year are known. -/
def mayBeDay (f : Found) (x : Figure) : Bool :=
  let number (place : Option Nat) : Option Nat := place.map fun i => f.numbers.getD i 0
  match number f.monthAt with
  | none => x.isUpTo 31
  | some month => x.isUpTo (daysIn ((number f.yearAt).getD 2000) month)

/-! ## The time of day -/

/-- The hour of the day for an hour of half a day. -/
def hourOf (hour : Nat) (afternoon : Bool) : Nat :=
  if hour < 12 && afternoon then hour + 12
  else if hour == 12 && !afternoon then 0
  else hour

def setHalf (f : Found) (hour : Nat) (afternoon : Bool) : Found :=
  { f with hour := some (hourOf hour afternoon) }

def setHourMinute (f : Found) (hour minute : Token) : Except Unread Found := do
  let h ← need (natural? hour)
  if minute.isEmpty then return { f with hour := some h }
  return { f with hour := some h, minute := some (← need (natural? minute)) }

def setSecond (f : Found) (t : Token) : Except Unread Found := do
  let (second, micro) ← seconds t
  return { f with second := some second, micro := some micro }

/-- Sets minutes; their fraction gives the seconds. -/
def setMinute (f : Found) (x : Figure) : Except Unread Found := do
  let (minute, second) ← x.inSixtieths
  return { f with minute := some minute, second }

def setUnit (f : Found) (x : Figure) : ClockUnit → Except Unread Found
  | .hour => do
    let (hour, minute) ← x.inSixtieths
    return { f with hour := some hour, minute := minute.or f.minute }
  | .minute => f.setMinute x
  | .second => f.setSecond x.token
  | .part => .ok f

/-- The unit of a number and how many tokens after it belong to it: the unit follows, possibly after
a space, or else it is smaller than the unit just before. -/
def unitOf? (before rest : List Token) : Option (ClockUnit × Nat) :=
  let following :=
    match rest with
    | t :: more =>
      match Date.unitOf? t, t == [' '], more with
      | some unit, _, _ => some (unit, 1)
      | none, true, u :: _ => (Date.unitOf? u).map fun unit => (unit, 2)
      | none, _, _ => none
    | [] => none
  let earlier :=
    match before with
    | t :: more =>
      match Date.unitOf? t, t == [' '] && rest.isEmpty, more with
      | some unit, _, _ => some (unit.next, 0)
      | none, true, u :: _ => (Date.unitOf? u).map fun unit => (unit.next, 0)
      | none, _, _ => none
    | [] => none
  following.or earlier

/-! ## Numbers by what is around them -/

def clockFollows : List Token → Bool
  | t :: _ => t == [':'] || (Date.unitOf? t).isSome
  | [] => false

/-- Six digits: year, month and day if they come first, and a time otherwise. -/
def readSix (f : Found) (x : Figure) : Except Unread Found := do
  let (a, b, c) := (x.token.take 2, (x.token.drop 2).take 2, x.token.drop 4)
  if f.numbers.isEmpty && !x.hasPoint then
    let f ← f.addDigits a
    let f ← f.addDigits b
    f.addDigits c
  else
    let f ← f.setHourMinute a b
    f.setSecond c

/-- Eight digits for year, month and day, possibly with hours, minutes and seconds after them. -/
def readEight (f : Found) (x : Figure) : Except Unread Found := do
  let part (start count : Nat) : Token := (x.token.drop start).take count
  let f ← f.addDigits (part 0 4)
  let f ← f.addDigits (part 4 2)
  let f ← f.addDigits (part 6 2)
  if x.token.length ≤ 8 then return f
  let f ← f.setHourMinute (part 8 2) (part 10 2)
  if x.token.length ≤ 12 then return f
  return { f with second := some (← need (natural? (part 12 2))) }

/-- Hours with a colon and minutes after them, possibly with seconds. -/
def readClock (f : Found) (x : Figure) (minute : Token) (rest : List Token) : Reading := do
  let m ← need (Figure.ofToken? minute)
  let f ← { f with hour := some x.whole }.setMinute m
  match rest with
  | [':'] :: s :: _ => return (← f.setSecond s, 4)
  | _ => return (f, 2)

/-- The third part of a date whose parts are joined by one mark. -/
def readThird (f : Found) (mark : Token) : List Token → Reading
  | t :: rest =>
    if t == mark then
      match rest with
      | u :: _ => do return (← f.addPart u, 4)
      | [] => .error .noDate
    else .ok (f, 2)
  | [] => .ok (f, 2)

/-- A number with a mark after it that joins the parts of a date. -/
def readJoined (f : Found) (x : Figure) (mark : Token) (rest : List Token) : Reading := do
  let f ← f.addDigits x.token
  match rest with
  | t :: more =>
    if isFiller t then return (f, 1)
    else if t.all Text.isDigitLike then (← f.addDigits t).readThird mark more
    else (← f.addMonth (← need (monthOf? t))).readThird mark more
  | [] => return (f, 1)

def readSingle (f : Found) (x : Figure) : List Token → Reading
  | [] => do return (← f.addFigure x, 0)
  | t :: rest =>
    if isFiller t then
      match rest.head?.bind halfOf? with
      | some afternoon => .ok (f.setHalf x.whole afternoon, 2)
      | none => do return (← f.addFigure x, 1)
    else
      match (halfOf? t).filter fun _ => x.whole < 24 with
      | some afternoon => .ok (f.setHalf x.whole afternoon, 1)
      | none => if f.mayBeDay x then do return (← f.addFigure x, 0) else .error .noDate

def readBefore (f : Found) (x : Figure) (rest : List Token) : Reading :=
  match rest with
  | t :: more =>
    match t == [':'], more with
    | true, m :: after => f.readClock x m after
    | _, _ => if isDateMark t then f.readJoined x t more else f.readSingle x rest
  | [] => f.readSingle x rest

def readFigure (f : Found) (before : List Token) (x : Figure) (rest : List Token) : Reading :=
  let size := x.token.length
  if f.numbers.length = 3 ∧ (size = 2 ∨ size = 4) ∧ f.hour.isNone ∧ !clockFollows rest then do
    return (← f.setHourMinute (x.token.take 2) (x.token.drop 2), 0)
  else if size = 6 ∨ x.token[6]? = some '.' then do return (← f.readSix x, 0)
  else if size = 8 ∨ size = 12 ∨ size = 14 then do return (← f.readEight x, 0)
  else
    match unitOf? before rest with
    | some (unit, count) => do return (← f.setUnit x unit, count)
    | none => f.readBefore x rest

/-! ## Words -/

/-- The name of a month, possibly with numbers joined to it, or with a year after the word `of`. -/
def readMonth (f : Found) (m : Nat) (rest : List Token) : Reading := do
  let f ← f.addMonth m
  match rest with
  | [' '] :: w :: [' '] :: t :: _ =>
    if !isOneOf ["of"] w then return (f, 0)
    else if t.all Text.isDigitLike then
      return (← f.addYear (withCentury f.today.year (← need (natural? t))), 4)
    else return (f, 4)
  | mark :: more =>
    if mark == ['-'] || mark == ['/'] then
      match more with
      | [] => throw .noDate
      | t :: after => do
        let f ← f.addDigits t
        match after with
        | next :: rest =>
          if next == mark then
            match rest with
            | u :: _ => return (← f.addDigits u, 4)
            | [] => throw .noDate
          else return (f, 2)
        | [] => return (f, 2)
    else return (f, 0)
  | [] => return (f, 0)

def readHalf (f : Found) (afternoon : Bool) : Reading :=
  match f.hour with
  | some hour => if hour ≤ 12 then .ok (f.setHalf hour afternoon, 0) else .error .noDate
  | none => .error .noDate

def takesZone (f : Found) (t : Token) : Bool :=
  f.hour.isSome && f.zone.isNone && isZoneName t

/-- The name of a zone. A sign after it tells what must be added to the time to get that of the
zone. -/
def readZone (f : Found) (t : Token) (rest : List Token) : Found :=
  if rest.head?.any isSignMark then
    { f with zone := if isUniversal t then none else some t, opposite := true }
  else { f with zone := some t, offset := if t == ['z'] then some 0 else none }

/-- Hours and minutes after a sign, and how many tokens they take. -/
def readOffset (t : Token) (rest : List Token) : Except Unread (Nat × Nat) := do
  if t.length = 4 then
    return (60 * (← need (natural? (t.take 2))) + (← need (natural? (t.drop 2))), 1)
  match rest with
  | [':'] :: more =>
    match more with
    | m :: _ => return (60 * (← need (natural? t)) + (← need (natural? m)), 3)
    | [] => throw .noDate
  | _ => if t.length ≤ 2 then return (60 * (← need (natural? t)), 1) else throw .noDate

/-- The distance from universal time after a sign, possibly with the name of the zone in
parentheses. -/
def readSigned (f : Found) (sign : Token) (rest : List Token) : Reading := do
  match rest with
  | [] => throw .noDate
  | t :: more =>
    let (minutes, count) ← readOffset t more
    let ahead := (sign == ['+']) != f.opposite
    let g := { f with
      offset := some (if ahead then (minutes : Int) else -(minutes : Int)), opposite := false }
    match rest.drop count with
    | j :: ['('] :: name :: [')'] :: _ =>
      if isFiller j && 3 ≤ name.length && f.takesZone name then
        return ({ g with zone := some name }, count + 4)
      else return (g, count)
    | _ => return (g, count)

def readWord (f : Found) (t : Token) (rest : List Token) : Reading :=
  if isUnbounded t then .error .noDate
  else
    match weekdayOf? t, monthOf? t, halfOf? t with
    | some day, _, _ => .ok ({ f with weekday := some day }, 0)
    | none, some m, _ => f.readMonth m rest
    | none, none, some afternoon => f.readHalf afternoon
    | none, none, none =>
      if f.offset.isNone && f.takesZone t then .ok (f.readZone t rest, 0)
      else if f.hour.isSome && isSignMark t then f.readSigned t rest
      else if isFiller t then .ok (f, 0)
      else .error .noDate

def readToken (f : Found) (before : List Token) (t : Token) (rest : List Token) : Reading :=
  match Figure.ofToken? t with
  | some x => f.readFigure before x rest
  | none => f.readWord t rest

def scan (f : Found) (before : List Token) : List Token → Except Unread Found
  | [] => .ok f
  | t :: rest =>
    match f.readToken before t rest with
    | .ok (g, count) => scan g ((rest.take count).reverse ++ t :: before) (rest.drop count)
    | .error e => .error e
termination_by tokens => tokens.length
decreasing_by rw [List.length_drop, List.length_cons]; omega

/-! ## Year, month and day -/

/-- Whether the text says nothing of a day or a time. -/
def isEmpty (f : Found) : Bool :=
  f.numbers.isEmpty && f.weekday.isNone && f.hour.isNone && f.minute.isNone && f.second.isNone

/-- The year that a number stands for. The century is written if some number could only be a
year. -/
def yearOf (f : Found) (n : Nat) : Nat :=
  if f.yearAt.isSome then n else withCentury f.today.year n

/-- Year, month and day as far as they are written. -/
structure Parts where
  year : Option Nat
  month : Option Nat
  day : Option Nat

/-- A number beside a month, or alone: a year if it is too large for a day. -/
def Parts.yearOrDay (n : Nat) (month : Option Nat) : Parts :=
  if 31 < n then ⟨n, month, none⟩ else ⟨none, month, n⟩

/-- What the numbers stand for; their order depends on which of them are known. -/
def parts? (f : Found) : Option Parts :=
  match f.numbers, f.yearAt, f.monthAt with
  | [], _, _ => some ⟨none, none, none⟩
  | [a], some _, _ => some ⟨a, none, none⟩
  | [a], none, some _ => some ⟨none, a, none⟩
  | [a], none, none => some (.yearOrDay a none)
  | [a, b], some _, some 0 => some ⟨b, a, none⟩
  | [a, b], some _, some _ => some ⟨a, b, none⟩
  | [a, b], none, some 0 => some (.yearOrDay b a)
  | [a, b], none, some _ => some (.yearOrDay a b)
  | [a, b], _, none =>
    if 31 < a then some ⟨a, b, none⟩
    else if 31 < b then some ⟨b, a, none⟩
    else some ⟨none, a, b⟩
  | [a, b, c], some 0, some 1 => some ⟨a, b, c⟩
  | [a, b, c], some 0, some 2 => some ⟨a, c, b⟩
  | [a, b, c], some 1, some 0 => some ⟨b, a, c⟩
  | [a, b, c], some 1, some 2 => some ⟨b, c, a⟩
  | [a, b, c], some 2, some 0 => some ⟨c, a, b⟩
  | [a, b, c], some 2, some 1 => some ⟨c, b, a⟩
  | [a, b, c], none, some 0 => if 31 < b then some ⟨b, a, c⟩ else some ⟨c, a, b⟩
  | [a, b, c], none, some 1 => if 31 < a then some ⟨a, b, c⟩ else some ⟨c, b, a⟩
  | [a, b, c], none, some 2 => if 31 < b then some ⟨b, c, a⟩ else some ⟨a, c, b⟩
  | [a, b, c], year, _ =>
    if 31 < a || year == some 0 then some ⟨a, b, c⟩
    else if 12 < a then some ⟨c, b, a⟩
    else some ⟨c, a, b⟩
  | _, _, _ => none

/-- Minutes ahead of universal time. A zone that is only named counts if it is universal time. -/
def offset? (f : Found) : Option Int :=
  match f.zone with
  | some name => if isUniversal name then some 0 else f.offset
  | none => f.offset

/-- The date with what is not written taken from the day of reading. A month that is too short for
that day gives its last one. -/
def complete (f : Found) (p : Parts) : Date :=
  let year := (p.year.map f.yearOf).getD f.today.year
  let month := p.month.getD f.today.month
  { year
    month
    day := p.day.getD (min f.today.day (daysIn year month))
    hour := f.hour.getD 0
    minute := f.minute.getD 0
    second := f.second.getD 0
    micro := f.micro.getD 0
    offset := f.offset? }

end Found

def onCalendar (d : Date) : Except Unread Date :=
  if d.isValid then .ok d else .error .noDate

/-- A day to read dates on where no other is given. -/
def someDay : Date :=
  firstOf 2026 1

/-- The date that a text denotes when it is read on a day. A weekday counts if no day of the month
is written. -/
def ofText (s : String) (today : Date := someDay) : Except Unread Date := do
  let f ← (Found.nothing today).scan [] (tokens s.toList)
  if f.isEmpty then throw .noDate
  let p ← need f.parts?
  let d ← onCalendar (f.complete p)
  match p.day, f.weekday with
  | none, some weekday => onCalendar (d.nextOn weekday)
  | _, _ => return d

theorem isValid_of_onCalendar {d e : Date} (h : onCalendar d = .ok e) : e.isValid = true := by
  unfold onCalendar at h
  split at h
  · cases h
    assumption
  · cases h

theorem isValid_of_ofText {s : String} {today d : Date} (h : ofText s today = .ok d) :
    d.isValid = true := by
  simp only [ofText, bind, Except.bind] at h
  iterate 4
    split at h
    · cases h
  rename_i completed
  split at h
  · exact isValid_of_onCalendar h
  · cases h
    exact isValid_of_onCalendar completed

end Forecast.Date

/-!
# The calendar

Dates of the Gregorian calendar from the year 1 to the year 9999, times of day to the microsecond,
and a point of time as both, read off a clock. `Timestamp.instant` is the number of microseconds
from the epoch, the beginning of 1970; a clock without a known offset counts as one in UTC.

`Timestamp.isBefore` is the order in which points are compared. It is that of the instants, but for
two points on the clock of one zone: there it is the order of what the clock shows, whether or not
the clock was put back between them.
-/

namespace Dataspace

def isLeapYear (year : Nat) : Bool :=
  year % 4 = 0 && (year % 100 ≠ 0 || year % 400 = 0)

def daysInMonth (year month : Nat) : Nat :=
  match month with
  | 2 => if isLeapYear year then 29 else 28
  | 4 | 6 | 9 | 11 => 30
  | _ => 31

structure Date where
  year : Nat
  month : Nat
  day : Nat
  valid : 1 ≤ year ∧ year ≤ 9999 ∧ 1 ≤ month ∧ month ≤ 12 ∧ 1 ≤ day ∧ day ≤ daysInMonth year month
deriving DecidableEq

structure TimeOfDay where
  hour : Nat
  minute : Nat
  second : Nat
  microsecond : Nat
  valid : hour < 24 ∧ minute < 60 ∧ second < 60 ∧ microsecond < 1000000
deriving DecidableEq

/-- The seconds by which local time is ahead of UTC: less than a day. -/
structure Offset where
  seconds : Int
  valid : seconds.natAbs < 86400
deriving DecidableEq

/-- What a point of time is read off: a clock whose offset from UTC is not known, one at a fixed
offset, or the clock of a zone. A zone changes its offset in the course of the years; the one that
is given is that of the point. -/
inductive Clock where
  | unknown
  | fixed (offset : Offset)
  | zone (name : String) (offset : Offset)
deriving DecidableEq

structure Timestamp where
  date : Date
  time : TimeOfDay
  clock : Clock
deriving DecidableEq

namespace Date

def ofParts? (year month day : Nat) : Option Date :=
  if h : 1 ≤ year ∧ year ≤ 9999 ∧ 1 ≤ month ∧ month ≤ 12 ∧ 1 ≤ day ∧
      day ≤ daysInMonth year month then
    some ⟨year, month, day, h⟩
  else none

/-- The days of the year before a month. -/
def daysBeforeMonth (year month : Nat) : Nat :=
  (List.range (month - 1)).foldl (fun days m => days + daysInMonth year (m + 1)) 0

/-- The days before a year, from the beginning of the year 1. -/
def daysBeforeYear (year : Nat) : Nat :=
  let y := year - 1
  y * 365 + y / 4 - y / 100 + y / 400

/-- The days from the beginning of the year 1 to the beginning of 1970. -/
def epochDays : Nat := 719162

/-- The days from the epoch to a date. -/
def dayNumber (d : Date) : Int :=
  (daysBeforeYear d.year + daysBeforeMonth d.year d.month + (d.day - 1) : Nat) - (epochDays : Int)

/-- The date a number of days after the epoch, if the calendar reaches it. Years are counted from
March, in cycles of four hundred, so that the leap day ends both the year and the cycle. -/
def ofDayNumber? (days : Int) : Option Date :=
  let z := days + 719468
  let cycle := z / 146097
  let dayOfCycle := (z % 146097).toNat
  let yearOfCycle :=
    (dayOfCycle - dayOfCycle / 1460 + dayOfCycle / 36524 - dayOfCycle / 146096) / 365
  let dayOfYear := dayOfCycle - (365 * yearOfCycle + yearOfCycle / 4 - yearOfCycle / 100)
  let monthFromMarch := (5 * dayOfYear + 2) / 153
  let day := dayOfYear - (153 * monthFromMarch + 2) / 5 + 1
  let month := if monthFromMarch < 10 then monthFromMarch + 3 else monthFromMarch - 9
  let year : Int := yearOfCycle + cycle * 400 + (if month ≤ 2 then 1 else 0)
  if year < 1 then none else ofParts? year.toNat month day

end Date

namespace TimeOfDay

def ofParts? (hour minute second microsecond : Nat) : Option TimeOfDay :=
  if h : hour < 24 ∧ minute < 60 ∧ second < 60 ∧ microsecond < 1000000 then
    some ⟨hour, minute, second, microsecond, h⟩
  else none

def midnight : TimeOfDay := ⟨0, 0, 0, 0, by decide⟩

/-- The microseconds since midnight. -/
def microseconds (t : TimeOfDay) : Nat :=
  ((t.hour * 60 + t.minute) * 60 + t.second) * 1000000 + t.microsecond

end TimeOfDay

namespace Offset

def ofSeconds? (seconds : Int) : Option Offset :=
  if h : seconds.natAbs < 86400 then some ⟨seconds, h⟩ else none

def utc : Offset := ⟨0, by decide⟩

end Offset

namespace Clock

def ofOffset : Option Offset → Clock
  | none => unknown
  | some offset => fixed offset

def offset? : Clock → Option Offset
  | unknown => none
  | fixed offset => some offset
  | zone _ offset => some offset

def zone? : Clock → Option String
  | zone name _ => some name
  | _ => none

end Clock

namespace Timestamp

def offset (t : Timestamp) : Option Offset :=
  t.clock.offset?

/-- The microseconds that the clock itself shows, from when it shows the beginning of 1970. -/
def reading (t : Timestamp) : Int :=
  t.date.dayNumber * 86400 * 1000000 + t.time.microseconds

/-- The microseconds from the epoch; a point of time without an offset is in UTC. -/
def instant (t : Timestamp) : Int :=
  t.reading - (t.offset.map Offset.seconds).getD 0 * 1000000

/-- Whether two points stand on the clock of one zone. -/
def sharesZone (s t : Timestamp) : Bool :=
  s.clock.zone?.isSome && s.clock.zone? = t.clock.zone?

/-- Whether a point is taken to lie before another: by what the clock shows if they share a zone,
and by their instants otherwise. -/
def isBefore (s t : Timestamp) : Bool :=
  if s.sharesZone t then s.reading < t.reading else s.instant < t.instant

/-- The point of time, in UTC, a number of microseconds after the epoch. -/
def ofInstant? (microseconds : Int) : Option Timestamp := do
  let perDay : Int := 86400000000
  let date ← Date.ofDayNumber? (microseconds / perDay)
  let rest := (microseconds % perDay).toNat
  let time ← TimeOfDay.ofParts? (rest / 3600000000) (rest / 60000000 % 60) (rest / 1000000 % 60)
    (rest % 1000000)
  return ⟨date, time, .fixed Offset.utc⟩

end Timestamp

end Dataspace

import Mathlib

/-!
# Instants, dates and time zones

An aware timestamp is an instant: microseconds since the epoch in UTC.  A date
counts days since the epoch, a time of day counts microseconds since midnight.
A zone is its first offset and its ordered offset changes; a wall-clock reading
inside a fold or a gap takes the earlier offset, as `fold = 0` does.
-/

namespace MiniLakehouse

/-- Microseconds since the epoch, UTC. -/
abbrev Instant := Int

/-- Days since the epoch. -/
abbrev Day := Int

/-- Microseconds since midnight. -/
abbrev TimeOfDay := Int

/-- `timedelta(seconds=n)` in microseconds. -/
def seconds (n : Int) : Int := n * 1000000

/-- `timedelta(milliseconds=n)` in microseconds. -/
def milliseconds (n : Int) : Int := n * 1000

/-- Microseconds of one day. -/
def dayLength : Int := seconds 86400

/-- A time zone: its name, the offset before its first change, and the ordered
changes with the offset that holds from each of them on. -/
structure ZoneInfo where
  key : String
  initial : Int
  transitions : List (Instant × Int)
  deriving DecidableEq, Repr

namespace ZoneInfo

/-- The offset in force at an instant, walking the ordered changes. -/
def offsetFrom (at' : Instant) : Int → List (Instant × Int) → Int
  | before, [] => before
  | before, (change, after) :: rest =>
      if change ≤ at' then offsetFrom at' after rest else before

/-- The offset that turns a wall-clock reading back into an instant: a change
applies from the later of the two readings that its instant has. -/
def wallOffsetFrom (wall : Int) : Int → List (Instant × Int) → Int
  | before, [] => before
  | before, (change, after) :: rest =>
      if change + max before after ≤ wall then wallOffsetFrom wall after rest
      else before

/-- `datetime.utcoffset` of an instant in the zone. -/
def utcoffset (zone : ZoneInfo) (at' : Instant) : Int :=
  offsetFrom at' zone.initial zone.transitions

/-- The wall clock of an instant, in microseconds. -/
def wall (zone : ZoneInfo) (at' : Instant) : Int := at' + zone.utcoffset at'

/-- `value.astimezone(zone).date()`. -/
def date (zone : ZoneInfo) (at' : Instant) : Day := zone.wall at' / dayLength

/-- `value.astimezone(zone).time()`. -/
def time (zone : ZoneInfo) (at' : Instant) : TimeOfDay := zone.wall at' % dayLength

/-- `datetime.combine(day, time, zone).astimezone(UTC)`. -/
def combine (zone : ZoneInfo) (day : Day) (time : TimeOfDay) : Instant :=
  let reading := day * dayLength + time
  reading - wallOffsetFrom reading zone.initial zone.transitions

end ZoneInfo

/-! ## Calendar dates -/

/-- A year of 366 days. -/
def isLeapYear (year : Nat) : Bool :=
  year % 4 = 0 && (year % 100 ≠ 0 || year % 400 = 0)

def daysInMonth (year month : Nat) : Nat :=
  if month = 2 then (if isLeapYear year then 29 else 28)
  else if month ∈ [4, 6, 9, 11] then 30
  else 31

/-- Days of the months of a year before the given one. -/
def daysBeforeMonth (year month : Nat) : Nat :=
  ((List.range' 1 (month - 1)).map (daysInMonth year)).sum

/-- Days of the years from year one up to the given one. -/
def daysBeforeYear (year : Nat) : Nat :=
  (year - 1) * 365 + (year - 1) / 4 - (year - 1) / 100 + (year - 1) / 400

/-- The day of a date of the proleptic Gregorian calendar, if there is one. -/
def dayOfDate (year month day : Nat) : Option Day :=
  if 1 ≤ year ∧ 1 ≤ month ∧ month ≤ 12 ∧ 1 ≤ day ∧ day ≤ daysInMonth year month then
    some ((daysBeforeYear year + daysBeforeMonth year month + day : Nat) - 719163)
  else none

end MiniLakehouse

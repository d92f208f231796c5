/-! # Dates and times

Days of the proleptic Gregorian calendar and seconds of a day. An instant counts seconds from the
start of 1970 and nanoseconds within the second; in a leap second the nanoseconds go on past one
second. Instants are ordered by seconds first.
-/

namespace QueryFilter

/-- Seconds from the start of 1970 and nanoseconds, one second or more in a leap second. -/
structure Instant where
  seconds : Int
  nanos : Nat
deriving DecidableEq

instance : Ord Instant :=
  ⟨fun x y => (compare x.seconds y.seconds).then (compare x.nanos y.nanos)⟩

namespace Calendar

def isLeapYear (year : Int) : Bool :=
  decide (year % 4 = 0 ∧ (year % 100 ≠ 0 ∨ year % 400 = 0))

def daysInMonth (year : Int) : Nat → Nat
  | 2 => if isLeapYear year then 29 else 28
  | 4 | 6 | 9 | 11 => 30
  | _ => 31

def daysBeforeYear (year : Int) : Int :=
  let past := year - 1
  365 * past + past / 4 - past / 100 + past / 400

def daysBeforeMonth (year : Int) (month : Nat) : Nat :=
  (List.range (month - 1)).foldl (fun days m => days + daysInMonth year (m + 1)) 0

/-- Years outside these have no dates. -/
def firstYear : Int := -262143

def lastYear : Int := 262142

/-- The number of a date's day, the first of 1970 being zero; none if there is no such date. -/
def day? (year : Int) (month day : Nat) : Option Int :=
  if firstYear ≤ year ∧ year ≤ lastYear ∧ 1 ≤ month ∧ month ≤ 12 ∧ 1 ≤ day ∧
      day ≤ daysInMonth year month then
    some (daysBeforeYear year - daysBeforeYear 1970 + daysBeforeMonth year month + day - 1)
  else none

def secondsPerDay : Nat := 86400

def nanosPerSecond : Nat := 1000000000

/-- The second of the day and the nanoseconds of a time. The sixtieth second continues the one
before it. -/
def time? (hour minute second nanos : Nat) : Option (Nat × Nat) :=
  if hour ≤ 23 ∧ minute ≤ 59 ∧ second ≤ 60 ∧ nanos < nanosPerSecond then
    let start := 3600 * hour + 60 * minute
    if second = 60 then some (start + 59, nanosPerSecond + nanos) else some (start + second, nanos)
  else none

def instant (day : Int) (time : Nat × Nat) : Instant :=
  ⟨secondsPerDay * day + time.1, time.2⟩

end Calendar

end QueryFilter

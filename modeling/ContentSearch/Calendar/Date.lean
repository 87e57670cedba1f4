import ContentSearch.Number.Format

/-!
Dates and instants of the Gregorian calendar, extended to all years in the range of the library,
and how they are written.
-/

namespace ContentSearch

structure Date where
  year : Int
  month : Nat
  day : Nat
  deriving Repr, DecidableEq

namespace Date

def minYear : Int := -262143

def maxYear : Int := 262142

def isLeapYear (y : Int) : Bool := y % 4 = 0 && (y % 100 ≠ 0 || y % 400 = 0)

def daysInMonth (y : Int) (m : Nat) : Nat :=
  if m = 2 then (if isLeapYear y then 29 else 28)
  else if m = 4 || m = 6 || m = 9 || m = 11 then 30
  else 31

/-- The date with this year, month and day, if there is one. -/
def of? (y : Int) (m d : Nat) : Option Date :=
  if minYear ≤ y && y ≤ maxYear && 1 ≤ m && m ≤ 12 && 1 ≤ d && d ≤ daysInMonth y m then
    some ⟨y, m, d⟩
  else none

/-- The number of days from 1970-01-01 to a date. Years are counted from March, and in periods of
400 years. -/
def toDays (date : Date) : Int :=
  let y := if date.month ≤ 2 then date.year - 1 else date.year
  let period := y / 400
  let yearOfPeriod := y % 400
  let month : Int := if date.month ≤ 2 then date.month + 9 else date.month - 3
  let dayOfYear := (153 * month + 2) / 5 + date.day - 1
  let dayOfPeriod := yearOfPeriod * 365 + yearOfPeriod / 4 - yearOfPeriod / 100 + dayOfYear
  period * 146097 + dayOfPeriod - 719468

/-- The date that lies a number of days after 1970-01-01. -/
def ofDays (days : Int) : Date :=
  let z := days + 719468
  let period := z / 146097
  let dayOfPeriod := z % 146097
  let yearOfPeriod :=
    (dayOfPeriod - dayOfPeriod / 1460 + dayOfPeriod / 36524 - dayOfPeriod / 146096) / 365
  let dayOfYear := dayOfPeriod - (365 * yearOfPeriod + yearOfPeriod / 4 - yearOfPeriod / 100)
  let month := (5 * dayOfYear + 2) / 153
  let day := dayOfYear - (153 * month + 2) / 5 + 1
  let y := yearOfPeriod + period * 400
  if month < 10 then ⟨y, (month + 3).toNat, day.toNat⟩ else ⟨y + 1, (month - 9).toNat, day.toNat⟩

def padded (width n : Nat) : Text :=
  let digits := natText n
  List.replicate (width - digits.length) '0' ++ digits

def yearText (y : Int) : Text :=
  if y < 0 then '-' :: padded 4 y.natAbs
  else if 9999 < y then '+' :: padded 4 y.natAbs
  else padded 4 y.natAbs

def text (date : Date) : Text :=
  yearText date.year ++ '-' :: padded 2 date.month ++ '-' :: padded 2 date.day

end Date

/-- A moment in universal time: a day, a second of the day, and nanoseconds. A second that is
counted twice, or 61st in its minute, has nanoseconds from 1,000,000,000 on. -/
structure Instant where
  days : Int
  second : Nat
  nano : Nat
  deriving Repr, DecidableEq

namespace Instant

/-- Whether an instant lies in a year of the range of dates. -/
def inRange (i : Instant) : Bool :=
  let y := (Date.ofDays i.days).year
  Date.minYear ≤ y && y ≤ Date.maxYear

/-- The time of day as `hour:minute:second`, the extra second as the 60th. -/
def timeText (i : Instant) : Text :=
  Date.padded 2 (i.second / 3600) ++ ':' :: Date.padded 2 (i.second / 60 % 60) ++
    ':' :: Date.padded 2 (i.second % 60 + i.nano / 1000000000)

/-- An instant to the second, in the notation of the internet. -/
def text (i : Instant) : Text := (Date.ofDays i.days).text ++ 'T' :: i.timeText ++ ['Z']

/-- The fraction of a second with as many groups of three digits as it needs. -/
def fractionText (nano : Nat) : Text :=
  if nano = 0 then []
  else if nano % 1000000 = 0 then '.' :: Date.padded 3 (nano / 1000000)
  else if nano % 1000 = 0 then '.' :: Date.padded 6 (nano / 1000)
  else '.' :: Date.padded 9 nano

/-- An instant with its fraction of a second. -/
def preciseText (i : Instant) : Text :=
  (Date.ofDays i.days).text ++ 'T' :: i.timeText ++ fractionText (i.nano % 1000000000) ++ ['Z']

/-- The instant that lies a number of milliseconds after the start of 1970, if it is in range. -/
def ofMillis? (millis : Int) : Option Instant :=
  let i : Instant :=
    ⟨millis / 86400000, (millis % 86400000).toNat / 1000, (millis % 1000).toNat * 1000000⟩
  if i.inRange then some i else none

end Instant

/-- Milliseconds after the start of 1970 as date and time to the second, or as they are where the
date is out of range. -/
def timestampText (millis : Int) : Text :=
  match Instant.ofMillis? millis with
  | some i => (Date.ofDays i.days).text ++ ' ' :: i.timeText
  | none => intText millis

end ContentSearch

import SlotLease.Time
import SlotLease.Text.Decimal

namespace SlotLease

structure Date where
  year : Int
  month : Nat
  day : Nat
deriving DecidableEq, Repr

namespace Date

def isLeap (year : Int) : Bool := year % 4 = 0 && (year % 100 ≠ 0 || year % 400 = 0)

def daysInMonth (year : Int) (month : Nat) : Nat :=
  if month = 2 then if isLeap year then 29 else 28
  else if month = 4 ∨ month = 6 ∨ month = 9 ∨ month = 11 then 30
  else 31

/-- The days from 1970-01-01 to a date. Years are counted from March here, so that a leap day is the
last of its year; 400 such years have 146097 days. -/
def toDays (date : Date) : Int :=
  let year := if date.month ≤ 2 then date.year - 1 else date.year
  let month : Int := if date.month ≤ 2 then date.month + 9 else date.month - 3
  let yearOfEra := year % 400
  let dayOfYear := (153 * month + 2) / 5 + date.day - 1
  year / 400 * 146097 + (yearOfEra * 365 + yearOfEra / 4 - yearOfEra / 100 + dayOfYear) - 719468

def ofDays (days : Int) : Date :=
  let shifted := days + 719468
  let dayOfEra := (shifted % 146097).toNat
  let yearOfEra := (dayOfEra - dayOfEra / 1460 + dayOfEra / 36524 - dayOfEra / 146096) / 365
  let dayOfYear := dayOfEra - (365 * yearOfEra + yearOfEra / 4 - yearOfEra / 100)
  let monthFromMarch := (5 * dayOfYear + 2) / 153
  let day := dayOfYear - (153 * monthFromMarch + 2) / 5 + 1
  let month := if monthFromMarch < 10 then monthFromMarch + 3 else monthFromMarch - 9
  let year := shifted / 146097 * 400 + yearOfEra
  { year := if month ≤ 2 then year + 1 else year, month, day }

def weekday (days : Int) : Nat := ((days + 4) % 7).toNat + 1

end Date

private def twoDigits (n : Nat) : String := Decimal.padded 2 n

namespace Instant

def last : Instant := ⟨8210266876799999999999⟩

def yearText (year : Int) : String :=
  if 0 ≤ year ∧ year ≤ 9999 then Decimal.padded 4 year.natAbs
  else (if year < 0 then "-" else "+") ++ Decimal.padded 4 year.natAbs

def dateTimeText (t : Instant) : String :=
  let date := Date.ofDays (t.seconds / 86400)
  let time := (t.seconds % 86400).toNat
  yearText date.year ++ "-" ++ twoDigits date.month ++ "-" ++ twoDigits date.day ++ "T" ++
    twoDigits (time / 3600) ++ ":" ++ twoDigits (time / 60 % 60) ++ ":" ++ twoDigits (time % 60)

def fractionText (t : Instant) : String :=
  let nanos := t.subsecond
  if nanos = 0 then ""
  else if nanos % 1000000 = 0 then "." ++ Decimal.padded 3 (nanos / 1000000)
  else if nanos % 1000 = 0 then "." ++ Decimal.padded 6 (nanos / 1000)
  else "." ++ Decimal.padded 9 nanos

def rfc3339 (t : Instant) : String := t.dateTimeText ++ t.fractionText ++ "+00:00"

def rfc3339Millis (t : Instant) : String :=
  t.dateTimeText ++ "." ++ Decimal.padded 3 (t.subsecond / 1000000) ++ "Z"

end Instant

end SlotLease

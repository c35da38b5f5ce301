import SlotLease.Calendar
import SlotLease.Schedule.Expression

namespace SlotLease

structure Schedule where
  expression : String
  seconds : List Nat
  minutes : List Nat
  hours : List Nat
  days : List Nat
  months : List Nat
  weekdays : List Nat
  years : List Nat
deriving DecidableEq, Repr

namespace Schedule

def ofString? (expression : String) : Option Schedule := do
  let written ← Written.ofString? expression
  return {
    expression
    seconds := ← Field.second.values? written.second
    minutes := ← Field.minute.values? written.minute
    hours := ← Field.hour.values? written.hour
    days := ← Field.day.values? written.day
    months := ← Field.month.values? written.month
    weekdays := ← Field.weekday.values? written.weekday
    years := ← Field.year.values? written.year }

def onDay (s : Schedule) (day : Int) : Bool :=
  let date := Date.ofDays day
  s.years.any (fun year => (year : Int) = date.year) && s.months.contains date.month &&
    s.days.contains date.day && s.weekdays.contains (Date.weekday day)

def atTime (s : Schedule) (time : Nat) : Bool :=
  s.hours.contains (time / 3600) && s.minutes.contains (time / 60 % 60) &&
    s.seconds.contains (time % 60)

def fires (s : Schedule) (second : Int) : Bool :=
  s.onDay (second / 86400) && s.atTime (second % 86400).toNat

/-! ### The next fire time -/

def firstTime (s : Schedule) (time : Nat) : Option Nat :=
  s.hours.findSome? fun hour =>
    if hour < time / 3600 then none
    else
      let within := hour = time / 3600
      s.minutes.findSome? fun minute =>
        if within ∧ minute < time / 60 % 60 then none
        else
          let within := within ∧ minute = time / 60 % 60
          (s.seconds.find? fun second => ¬(within ∧ second < time % 60)).map fun second =>
            hour * 3600 + minute * 60 + second

def firstDay (s : Schedule) : (count : Nat) → (day : Int) → Option Int
  | 0, _ => none
  | count + 1, day => if s.onDay day then some day else s.firstDay count (day + 1)

def lastDay : Int := Date.toDays ⟨Field.year.greatest, 12, 31⟩

/-- The first second at or after `second` at which the schedule fires, counted from 1970. Schedules
begin in 1970, and nothing is found from a year below 0 on. -/
def firstFrom (s : Schedule) (second : Int) : Option Int :=
  if (Date.ofDays (second / 86400)).year < 0 then none
  else
    let start := max second 0
    let day := start / 86400
    let today := if s.onDay day then s.firstTime (start % 86400).toNat else none
    match today with
    | some time => some (day * 86400 + time)
    | none => do
      let later ← s.firstDay (lastDay - day).toNat (day + 1)
      return later * 86400 + (← s.firstTime 0)

def nextAfter (s : Schedule) (t : Instant) : Option Instant :=
  (s.firstFrom (t.seconds + 1)).map .ofSeconds

def delay (s : Schedule) (t : Instant) : Option Duration := (s.nextAfter t).map t.spanTo

/-! ### A fire time before an instant

The search goes down through the values of each field, from the year to the second. The fields of
the instant it starts from bound the first value tried in each field, as long as the values above
were those of the start. For years that is not asked: the first year tried is bounded by the start
even where the start lies in a later one. -/

structure Fields where
  date : Date
  hour : Nat
  minute : Nat
  second : Nat
deriving Repr

def Fields.ofSecond (second : Int) : Fields :=
  let time := (second % 86400).toNat
  { date := Date.ofDays (second / 86400)
    hour := time / 3600
    minute := time / 60 % 60
    second := time % 60 }

def downFrom (values : List Nat) (bound : Nat) : List Nat :=
  (values.filter (· ≤ bound)).reverse

/-- The first result of a search through values, of which only the first is `bound`. -/
def searchDown (search : (bound : Bool) → Nat → Option α) (bound : Bool) : List Nat → Option α
  | [] => none
  | first :: rest =>
    match search bound first with
    | some found => some found
    | none => rest.findSome? (search false)

def lastSecond (s : Schedule) (start : Fields) (bound : Bool) : Option Nat :=
  (downFrom s.seconds (if bound then start.second else Field.second.greatest)).head?

def lastMinute (s : Schedule) (start : Fields) (bound : Bool) : Option Nat :=
  let top := if bound then start.minute else Field.minute.greatest
  searchDown (fun bound minute => (s.lastSecond start bound).map (minute * 60 + ·))
    (bound && s.minutes.contains top) (downFrom s.minutes top)

def lastTime (s : Schedule) (start : Fields) (bound : Bool) : Option Nat :=
  let top := if bound then start.hour else Field.hour.greatest
  searchDown (fun bound hour => (s.lastMinute start bound).map (hour * 3600 + ·))
    (bound && s.hours.contains top) (downFrom s.hours top)

def lastInMonth (s : Schedule) (start : Fields) (year month : Nat) (bound : Bool) : Option Int :=
  let top := if bound then start.date.day else Field.day.greatest
  searchDown
    (fun bound day =>
      let days := Date.toDays ⟨year, month, day⟩
      if s.weekdays.contains (Date.weekday days) then
        (s.lastTime start bound).map (days * 86400 + ·)
      else none)
    (bound && s.days.contains top) (downFrom s.days (min top (Date.daysInMonth year month)))

def lastInYear (s : Schedule) (start : Fields) (year : Nat) (bound : Bool) : Option Int :=
  let top := if bound then start.date.month else Field.month.greatest
  searchDown (fun bound month => s.lastInMonth start year month bound)
    (bound && s.months.contains top) (downFrom s.months top)

/-- A second no later than `second` at which the schedule fires. A year below 0 bounds no year. -/
def lastFrom (s : Schedule) (second : Int) : Option Int :=
  let start := Fields.ofSecond second
  let top := if start.date.year < 0 then Field.year.greatest else start.date.year.toNat
  searchDown (fun bound year => s.lastInYear start year bound) true (downFrom s.years top)

def lastBefore (s : Schedule) (t : Instant) : Option Instant :=
  (s.lastFrom ((t.nanos - 1) / 1000000000)).map .ofSeconds

end Schedule

end SlotLease

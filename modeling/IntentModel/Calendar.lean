import IntentModel.Number.Digits

/-! # Dates and times

Days of the Gregorian calendar from year 1 to year 9999, and points in time with an optional offset
from universal time. Only days and times that exist can be built through `of?`.
-/

namespace IntentModel

/-- A day of the calendar. -/
structure Date where
  year : Nat
  month : Nat
  day : Nat
deriving DecidableEq, Repr, Inhabited

namespace Date

def isLeap (year : Nat) : Bool :=
  year % 4 == 0 && (year % 100 != 0 || year % 400 == 0)

/-- The number of days of a month; none outside the twelve. -/
def daysIn (year month : Nat) : Nat :=
  match month with
  | 1 | 3 | 5 | 7 | 8 | 10 | 12 => 31
  | 4 | 6 | 9 | 11 => 30
  | 2 => if isLeap year then 29 else 28
  | _ => 0

/-- The day with these numbers, if the calendar has it. -/
def of? (year month day : Nat) : Option Date :=
  if 1 ≤ year && year ≤ 9999 && 1 ≤ day && day ≤ daysIn year month then some ⟨year, month, day⟩
  else none

/-- The days before the first of a year. -/
def daysBeforeYear (year : Nat) : Nat :=
  let past := year - 1
  past * 365 + past / 4 - past / 100 + past / 400

/-- The number of a day, counted from the first of January of year 1, which has number 1. -/
def ordinal (date : Date) : Nat :=
  daysBeforeYear date.year +
    (List.range' 1 (date.month - 1)).foldl (fun days month => days + daysIn date.year month) 0 +
    date.day

def iso (date : Date) : Text :=
  Text.ofNatPadded 4 date.year ++ .char '-' :: Text.ofNatPadded 2 date.month ++
    .char '-' :: Text.ofNatPadded 2 date.day

/-- Reads a date written as `YYYY-MM-DD`. -/
def ofIso? (text : Text) : Option Date :=
  match text.splitOn (.char '-') with
  | [year, month, day] => do
    of? (← Text.toNat? 10 year) (← Text.toNat? 10 month) (← Text.toNat? 10 day)
  | _ => none

end Date

/-- A point in time, to the microsecond. Without an offset it belongs to no time zone. -/
structure Moment where
  date : Date
  hour : Nat
  minute : Nat
  second : Nat
  microsecond : Nat
  /-- Minutes that the clock is ahead of universal time. -/
  offset : Option Int
deriving DecidableEq, Repr, Inhabited

namespace Moment

/-- The point in time with these numbers, if clock and offset allow it; offsets stay below a day. -/
def of? (date : Date) (hour minute second microsecond : Nat) (offset : Option Int) :
    Option Moment :=
  let offsetFits := match offset with
    | none => true
    | some minutes => minutes.natAbs < 24 * 60
  if hour < 24 && minute < 60 && second < 60 && microsecond < 1000000 && offsetFits then
    some ⟨date, hour, minute, second, microsecond, offset⟩
  else none

/-- Microseconds on a clock that shows the date and the time of day. -/
def clock (moment : Moment) : Int :=
  ((((moment.date.ordinal * 24 + moment.hour) * 60 + moment.minute) * 60 + moment.second)
    * 1000000 + moment.microsecond : Nat)

/-- Whether two moments are the same point in time; one with an offset never equals one without. -/
def same (a b : Moment) : Bool :=
  match a.offset, b.offset with
  | none, none => a.clock == b.clock
  | some m, some n => a.clock - m * 60000000 == b.clock - n * 60000000
  | _, _ => false

/-- An offset as `+HH:MM` or `-HH:MM`. -/
def isoOffset (minutes : Int) : Text :=
  (if minutes < 0 then .char '-' else .char '+') :: Text.ofNatPadded 2 (minutes.natAbs / 60) ++
    .char ':' :: Text.ofNatPadded 2 (minutes.natAbs % 60)

/-- The moment as date, separator, time and offset; microseconds only when there are some. -/
def isoWith (separator : CodePoint) (moment : Moment) : Text :=
  moment.date.iso ++ separator :: Text.ofNatPadded 2 moment.hour ++
    .char ':' :: Text.ofNatPadded 2 moment.minute ++ .char ':' :: Text.ofNatPadded 2 moment.second ++
    (if moment.microsecond = 0 then [] else .char '.' :: Text.ofNatPadded 6 moment.microsecond) ++
    (match moment.offset with
      | none => []
      | some minutes => isoOffset minutes)

def iso (moment : Moment) : Text :=
  moment.isoWith 'T'

end Moment

end IntentModel

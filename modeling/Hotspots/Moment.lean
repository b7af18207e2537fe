import Hotspots.Number.Decimal

/-!
# Dates and times

A date is a day of the proleptic calendar, a time is a time of day to the microsecond, and a moment is
both, possibly with an offset from universal time.
-/

namespace Hotspots

/-- A day of the calendar. -/
structure Date where
  year : Nat
  month : Nat
  day : Nat
  deriving DecidableEq, Repr

/-- A time of day to the microsecond. -/
structure TimeOfDay where
  hour : Nat
  minute : Nat
  second : Nat
  micro : Nat
  deriving DecidableEq, Repr

/-- Whether a year has a leap day. -/
def isLeapYear (year : Nat) : Bool := year % 4 == 0 && (year % 100 != 0 || year % 400 == 0)

/-- The number of days in a month. -/
def daysInMonth (year month : Nat) : Nat :=
  if month = 2 then (if isLeapYear year then 29 else 28)
  else if month = 4 ∨ month = 6 ∨ month = 9 ∨ month = 11 then 30
  else 31

namespace Date

/-- Whether the calendar has the day; it begins with the year 1. -/
def isValid (d : Date) : Bool :=
  1 ≤ d.year && d.year ≤ 9999 && 1 ≤ d.month && d.month ≤ 12 && 1 ≤ d.day
    && d.day ≤ daysInMonth d.year d.month

/-- Year, month and day joined by hyphens. -/
def text (d : Date) : String :=
  Binary64.zeroPadded 4 d.year ++ "-" ++ Binary64.zeroPadded 2 d.month ++ "-"
    ++ Binary64.zeroPadded 2 d.day

end Date

namespace TimeOfDay

/-- Hour, minute and second joined by colons, with the microseconds if there are any. -/
def text (t : TimeOfDay) : String :=
  Binary64.zeroPadded 2 t.hour ++ ":" ++ Binary64.zeroPadded 2 t.minute ++ ":"
    ++ Binary64.zeroPadded 2 t.second
    ++ (if t.micro = 0 then "" else "." ++ Binary64.zeroPadded 6 t.micro)

/-- The parts that a constructor call lists: seconds and microseconds only when they count. -/
def parts (t : TimeOfDay) : List Nat :=
  [t.hour, t.minute] ++ (if t.micro ≠ 0 then [t.second, t.micro] else if t.second ≠ 0 then [t.second] else [])

end TimeOfDay

/-- An offset from universal time in minutes as a signed time. -/
def offsetText (minutes : Int) : String :=
  (if minutes < 0 then "-" else "+") ++ Binary64.zeroPadded 2 (minutes.natAbs / 60) ++ ":"
    ++ Binary64.zeroPadded 2 (minutes.natAbs % 60)

/-- A date, a time of day, or both with an offset in minutes if one is known. -/
inductive Moment where
  | date (d : Date)
  | time (t : TimeOfDay)
  | dateTime (d : Date) (t : TimeOfDay) (offset : Option Int)
  deriving DecidableEq, Repr

namespace Moment

/-- The plain text of a moment. -/
def text : Moment → String
  | .date d => d.text
  | .time t => t.text
  | .dateTime d t offset => d.text ++ " " ++ t.text ++ (offset.map offsetText).getD ""

/-- The name of the kind of a moment. -/
def kind : Moment → String
  | .date _ => "date"
  | .time _ => "time"
  | .dateTime _ _ _ => "datetime"

/-- Numbers joined by commas. -/
def commaJoined (ns : List Nat) : String := ", ".intercalate (ns.map natText)

/-- An offset as a constructor call: whole days below zero are split off. -/
def offsetCall (minutes : Int) : String :=
  if minutes = 0 then "datetime.timezone.utc"
  else if minutes < 0 then
    "datetime.timezone(datetime.timedelta(days=-1, seconds=" ++ intText (86400 + minutes * 60) ++ "))"
  else "datetime.timezone(datetime.timedelta(seconds=" ++ intText (minutes * 60) ++ "))"

/-- A moment as the constructor call that makes it. -/
def call : Moment → String
  | .date d => "datetime.date(" ++ commaJoined [d.year, d.month, d.day] ++ ")"
  | .time t => "datetime.time(" ++ commaJoined t.parts ++ ")"
  | .dateTime d t offset =>
    "datetime.datetime(" ++ commaJoined ([d.year, d.month, d.day] ++ t.parts)
      ++ (offset.map fun minutes => ", tzinfo=" ++ offsetCall minutes).getD "" ++ ")"

end Moment

end Hotspots

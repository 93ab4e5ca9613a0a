/-
Module: StyleAudit.Calendar.Moment
Purpose: The dates and times that a configuration file can hold.
Trusted boundary: none
Main exports: Day, Clock, Moment, Moment.instant, Moment.display, Moment.described
-/

namespace StyleAudit

/-!
### Dates and times

A configuration file can hold a date, a time of day, a date with a time, and a
date with a time and an offset from universal time.  Only the last kind names a
point in time, so two of them are the same entry key when they name the same
point, whatever their offsets.
-/

/-- A day of the Gregorian calendar. -/
structure Day where
  year : Nat
  month : Nat
  day : Nat
deriving DecidableEq, Repr

/-- A time of day to the microsecond. -/
structure Clock where
  hour : Nat
  minute : Nat
  second : Nat
  microsecond : Nat
deriving DecidableEq, Repr

/-- A date, a time, or both; offsets are minutes east of universal time. -/
inductive Moment where
  | date (day : Day)
  | time (clock : Clock)
  | floating (day : Day) (clock : Clock)
  | zoned (day : Day) (clock : Clock) (offset : Int)
deriving DecidableEq, Repr

/-- Every fourth year is a leap year, except three centuries of four. -/
def isLeapYear (year : Nat) : Bool :=
  year % 4 = 0 && (year % 100 ≠ 0 || year % 400 = 0)

/-- The days in the months of a year, from January on. -/
def monthLengths (year : Nat) : List Nat :=
  [31, if isLeapYear year then 29 else 28, 31, 30, 31, 30, 31, 31, 30, 31, 30, 31]

/-- The number of days in a month; zero where there is no such month. -/
def daysInMonth (year month : Nat) : Nat :=
  if month = 0 then 0 else (monthLengths year)[month - 1]?.getD 0

/-- The day exists, in a year of one to four digits after year zero. -/
def Day.exists (d : Day) : Bool :=
  1 ≤ d.year && d.year ≤ 9999 && 1 ≤ d.day && d.day ≤ daysInMonth d.year d.month

/-- The time of day exists; there are no leap seconds. -/
def Clock.exists (c : Clock) : Bool :=
  c.hour < 24 && c.minute < 60 && c.second < 60 && c.microsecond < 1000000

/-- The moment exists; an offset is less than a day either way. -/
def Moment.exists : Moment → Bool
  | .date d => d.exists
  | .time c => c.exists
  | .floating d c => d.exists && c.exists
  | .zoned d c offset => d.exists && c.exists && offset.natAbs < 1440

/-- How many days lie between the first day of year one and a day. -/
def Day.number (d : Day) : Nat :=
  let past := d.year - 1
  past * 365 + past / 4 - past / 100 + past / 400
    + ((monthLengths d.year).take (d.month - 1)).foldl (· + ·) 0 + d.day - 1

/-- The microseconds since midnight. -/
def Clock.microseconds (c : Clock) : Nat :=
  ((c.hour * 60 + c.minute) * 60 + c.second) * 1000000 + c.microsecond

/-- The point in time of a moment with an offset, in microseconds. -/
def Moment.instant (d : Day) (c : Clock) (offset : Int) : Int :=
  (d.number * 86400000000 + c.microseconds : Nat) - offset * 60000000

/-- A number in decimal digits, filled up with zeros. -/
def paddedDecimal (width n : Nat) : String :=
  let digits := Nat.toDigits 10 n
  String.ofList (List.replicate (width - digits.length) '0' ++ digits)

/-- A day as year, month and day of the month. -/
def Day.display (d : Day) : String :=
  paddedDecimal 4 d.year ++ "-" ++ paddedDecimal 2 d.month ++ "-" ++ paddedDecimal 2 d.day

/-- A time of day, its microseconds only when there are some. -/
def Clock.display (c : Clock) : String :=
  paddedDecimal 2 c.hour ++ ":" ++ paddedDecimal 2 c.minute ++ ":" ++ paddedDecimal 2 c.second
    ++ (if c.microsecond = 0 then "" else "." ++ paddedDecimal 6 c.microsecond)

/-- An offset as signed hours and minutes. -/
def offsetDisplay (offset : Int) : String :=
  (if offset < 0 then "-" else "+") ++ paddedDecimal 2 (offset.natAbs / 60) ++ ":"
    ++ paddedDecimal 2 (offset.natAbs % 60)

/-- A moment as plain text. -/
def Moment.display : Moment → String
  | .date d => d.display
  | .time c => c.display
  | .floating d c => d.display ++ " " ++ c.display
  | .zoned d c offset => d.display ++ " " ++ c.display ++ offsetDisplay offset

/-- The parts of a day, as a description lists them. -/
def Day.parts (d : Day) : List Nat :=
  [d.year, d.month, d.day]

/-- The parts of a time of day, the seconds and microseconds only when needed. -/
def Clock.parts (c : Clock) : List Nat :=
  [c.hour, c.minute]
    ++ (if c.second = 0 && c.microsecond = 0 then [] else [c.second])
    ++ (if c.microsecond = 0 then [] else [c.microsecond])

/-- An offset as a description names it: a whole number of days, rounded down,
and the seconds left over. -/
def offsetDescribed (offset : Int) : String :=
  if offset = 0 then "datetime.timezone.utc"
  else if offset < 0 then
    "datetime.timezone(datetime.timedelta(days=-1, seconds="
      ++ toString (86400 + offset * 60) ++ "))"
  else "datetime.timezone(datetime.timedelta(seconds=" ++ toString (offset * 60) ++ "))"

/-- A moment as messages describe it, part by part. -/
def Moment.described (m : Moment) : String :=
  let listed (parts : List Nat) : String := String.intercalate ", " (parts.map toString)
  match m with
  | .date d => "datetime.date(" ++ listed d.parts ++ ")"
  | .time c => "datetime.time(" ++ listed c.parts ++ ")"
  | .floating d c => "datetime.datetime(" ++ listed (d.parts ++ c.parts) ++ ")"
  | .zoned d c offset =>
      "datetime.datetime(" ++ listed (d.parts ++ c.parts) ++ ", tzinfo="
        ++ offsetDescribed offset ++ ")"

/-- The word for the kind of a moment. -/
def Moment.kindName : Moment → String
  | .date _ => "date"
  | .time _ => "time"
  | .floating _ _ => "datetime"
  | .zoned _ _ _ => "datetime"

/-- February has a twenty-ninth day exactly in leap years. -/
theorem daysInMonth_february (year : Nat) :
    daysInMonth year 2 = if isLeapYear year then 29 else 28 := rfl

end StyleAudit

import EventStream.Text.Basic

/-
# Dates and times

A settings file may hold a date, a time of day, or both together, and both together may carry an
offset from UTC in minutes. Two moments with offsets are equal if they name the same instant; all
other moments are equal only if they are written with the same fields.
-/

namespace EventStream

/-- A day of the proleptic Gregorian calendar. -/
structure Date where
  year : Nat
  month : Nat
  day : Nat
  deriving DecidableEq

/-- A time of day to the microsecond. -/
structure TimeOfDay where
  hour : Nat
  minute : Nat
  second : Nat
  microsecond : Nat
  deriving DecidableEq

/-- A date, a time, or a date with a time, the last with or without an offset in minutes. -/
inductive Moment where
  | date (d : Date)
  | time (t : TimeOfDay)
  | floating (d : Date) (t : TimeOfDay)
  | zoned (d : Date) (t : TimeOfDay) (offset : Int)
  deriving DecidableEq

/-- A number with zeros in front, up to a width. -/
def padded (width n : Nat) : Text :=
  let digits := Nat.toDigits 10 n
  Text.ofChars (List.replicate (width - digits.length) '0' ++ digits)

namespace Date

/-- Whether a year has a 29th of February. -/
def isLeap (year : Nat) : Bool := (year % 4 = 0 && year % 100 ≠ 0) || year % 400 = 0

/-- The number of days of a month. -/
def daysIn (year month : Nat) : Nat :=
  if month = 2 then (if isLeap year then 29 else 28)
  else if month = 4 || month = 6 || month = 9 || month = 11 then 30
  else 31

/-- Whether the fields name a day; years run from 1 to 9999. -/
def isValid (d : Date) : Bool :=
  1 ≤ d.year && d.year ≤ 9999 && 1 ≤ d.month && d.month ≤ 12 && 1 ≤ d.day &&
    d.day ≤ daysIn d.year d.month

/-- The number of days before this one, counted from the first day of year 1. -/
def ordinal (d : Date) : Nat :=
  let y := d.year - 1
  let months := (List.range (d.month - 1)).map fun m => daysIn d.year (m + 1)
  y * 365 + y / 4 - y / 100 + y / 400 + months.foldl (· + ·) 0 + (d.day - 1)

/-- Year, month and day with hyphens between them. -/
def iso (d : Date) : Text :=
  Text.concat [padded 4 d.year, "-", padded 2 d.month, "-", padded 2 d.day]

end Date

namespace TimeOfDay

/-- Hours, minutes and seconds with colons, and microseconds if there are any. -/
def iso (t : TimeOfDay) : Text :=
  Text.concat [padded 2 t.hour, ":", padded 2 t.minute, ":", padded 2 t.second,
    if t.microsecond = 0 then [] else Text.concat [".", padded 6 t.microsecond]]

/-- Microseconds since midnight. -/
def sinceMidnight (t : TimeOfDay) : Nat :=
  ((t.hour * 60 + t.minute) * 60 + t.second) * 1000000 + t.microsecond

end TimeOfDay

namespace Moment

/-- An offset as sign, hours and minutes. -/
def isoOffset (offset : Int) : Text :=
  let n := offset.natAbs
  Text.concat [if offset < 0 then "-" else "+", padded 2 (n / 60), ":", padded 2 (n % 60)]

/-- A moment with a given text between date and time. -/
def isoWith (between : CodePoint) : Moment → Text
  | .date d => d.iso
  | .time t => t.iso
  | .floating d t => d.iso ++ between :: t.iso
  | .zoned d t offset => d.iso ++ between :: t.iso ++ isoOffset offset

/-- A moment in the ISO form with `T` between date and time. -/
def iso : Moment → Text := isoWith 'T'

/-- The instant of a moment with an offset, in microseconds. -/
def instant (d : Date) (t : TimeOfDay) (offset : Int) : Int :=
  (d.ordinal : Int) * 86400000000 + t.sinceMidnight - offset * 60000000

/-- Whether two moments are equal: instants are compared where both have an offset. -/
def same : Moment → Moment → Bool
  | .zoned d t o, .zoned d' t' o' => instant d t o = instant d' t' o'
  | a, b => a = b

/-- The fields of a date and a time as arguments, less the zeros at the end that may be left out. -/
private def arguments (fixed : List Nat) (t : TimeOfDay) : Text :=
  let more :=
    if t.microsecond ≠ 0 then [t.second, t.microsecond]
    else if t.second ≠ 0 then [t.second] else []
  Text.join ", " ((fixed ++ [t.hour, t.minute] ++ more).map Text.ofNat)

/-- An offset shown as a time zone. -/
def shownZone (offset : Int) : Text :=
  if offset = 0 then "datetime.timezone.utc"
  else
    let seconds := offset * 60
    let delta :=
      if 0 ≤ seconds then Text.concat ["seconds=", Text.ofInt seconds]
      else Text.concat ["days=-1, seconds=", Text.ofInt (seconds + 86400)]
    Text.concat ["datetime.timezone(datetime.timedelta(", delta, "))"]

/-- A moment as it is shown inside a list or a table. -/
def shown : Moment → Text
  | .date d =>
    let fields := Text.join ", " ([d.year, d.month, d.day].map Text.ofNat)
    Text.concat ["datetime.date(", fields, ")"]
  | .time t => Text.concat ["datetime.time(", arguments [] t, ")"]
  | .floating d t =>
    Text.concat ["datetime.datetime(", arguments [d.year, d.month, d.day] t, ")"]
  | .zoned d t offset =>
    Text.concat ["datetime.datetime(", arguments [d.year, d.month, d.day] t, ", tzinfo=",
      shownZone offset, ")"]

/-- The name of the kind of a moment in messages. -/
def kindName : Moment → Text
  | .date _ => "datetime.date"
  | .time _ => "datetime.time"
  | .floating .. | .zoned .. => "datetime.datetime"

end Moment

end EventStream

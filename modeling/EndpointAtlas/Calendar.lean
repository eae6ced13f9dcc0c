/-!
# Dates and moments

Dates of the Gregorian calendar from year 1 to year 9999, and moments: a date with a time of day
and perhaps an offset from universal time. `Date.text` and `Moment.text` write them the way a
reader expects them, `Date.literal` and `Moment.literal` as constructor calls.
-/

namespace EndpointAtlas

/-- A day of the calendar. -/
structure Date where
  year : Nat
  month : Nat
  day : Nat
  deriving DecidableEq, Repr, Inhabited

/-- A date and a time of day, in an offset of so many minutes when one is known. -/
structure Moment where
  date : Date
  hour : Nat
  minute : Nat
  second : Nat
  microsecond : Nat
  offset : Option Int
  deriving DecidableEq, Repr, Inhabited

/-- A number with zeros in front up to a width. -/
def padded (width n : Nat) : String :=
  let digits := Nat.toDigits 10 n
  String.ofList (List.replicate (width - digits.length) '0' ++ digits)

namespace Date

/-- Whether a year has 366 days. -/
def isLeap (year : Nat) : Bool := year % 4 = 0 && (year % 100 ≠ 0 || year % 400 = 0)

/-- The number of days of a month. -/
def daysInMonth (year month : Nat) : Nat :=
  if month = 2 then (if isLeap year then 29 else 28)
  else if month = 4 ∨ month = 6 ∨ month = 9 ∨ month = 11 then 30
  else 31

/-- The date of a year, month and day, if there is one. -/
def ofParts? (year month day : Nat) : Option Date :=
  if 1 ≤ year ∧ year ≤ 9999 ∧ 1 ≤ month ∧ month ≤ 12 ∧ 1 ≤ day ∧ day ≤ daysInMonth year month then
    some ⟨year, month, day⟩
  else none

/-- The number of days from the first day of year 1. -/
def dayNumber (d : Date) : Nat :=
  let before := d.year - 1
  let months := (List.range (d.month - 1)).map fun m => daysInMonth d.year (m + 1)
  before * 365 + before / 4 - before / 100 + before / 400 + months.foldl (· + ·) 0 +
    (d.day - 1)

/-- Year, month and day with hyphens. -/
def text (d : Date) : String :=
  padded 4 d.year ++ "-" ++ padded 2 d.month ++ "-" ++ padded 2 d.day

/-- The date as a constructor call. -/
def literal (d : Date) : String :=
  "datetime.date(" ++ ", ".intercalate [toString d.year, toString d.month, toString d.day] ++ ")"

end Date

namespace Moment

/-- Offsets stay below one day. -/
def offsetLimit : Int := 24 * 60

/-- The moment of its parts, if they are in range. -/
def ofParts? (date : Date) (hour minute second microsecond : Nat) (offset : Option Int) :
    Option Moment :=
  let inRange : Bool := match offset with
    | none => true
    | some o => -offsetLimit < o && o < offsetLimit
  if hour < 24 ∧ minute < 60 ∧ second < 60 ∧ inRange = true then
    some ⟨date, hour, minute, second, microsecond, offset⟩
  else none

/-- Microseconds since the first day of year 1, in universal time when the offset is known. -/
def instant (m : Moment) : Int :=
  let seconds : Int := ((m.date.dayNumber * 24 + m.hour) * 60 + m.minute) * 60 + m.second
  (seconds - m.offset.getD 0 * 60) * 1000000 + m.microsecond

/-- Equality of keys: moments with an offset are equal when they are the same instant, and never
equal to one without. -/
def same (a b : Moment) : Bool := a.offset.isSome = b.offset.isSome && a.instant = b.instant

/-- The offset as sign, hours and minutes. -/
def offsetText (o : Int) : String :=
  (if o < 0 then "-" else "+") ++ padded 2 (o.natAbs / 60) ++ ":" ++ padded 2 (o.natAbs % 60)

/-- Date and time with a separator between them, and a way to write the offset. Microseconds are
left out when they are zero. -/
def textWith (separator : String) (offset : Int → String) (m : Moment) : String :=
  m.date.text ++ separator ++ padded 2 m.hour ++ ":" ++ padded 2 m.minute ++ ":" ++
    padded 2 m.second ++ (if m.microsecond = 0 then "" else "." ++ padded 6 m.microsecond) ++
    (match m.offset with | none => "" | some o => offset o)

/-- The moment with a blank between date and time. -/
def text (m : Moment) : String := m.textWith " " offsetText

/-- The moment with a `T` between date and time and a `Z` for universal time. -/
def isoText (m : Moment) : String :=
  m.textWith "T" fun o => if o = 0 then "Z" else offsetText o

/-- The offset as a constructor call. -/
def offsetLiteral (o : Int) : String :=
  let seconds := o * 60
  if o = 0 then "datetime.timezone.utc"
  else if 0 < o then "datetime.timezone(datetime.timedelta(seconds=" ++ toString seconds ++ "))"
  else
    "datetime.timezone(datetime.timedelta(days=-1, seconds=" ++ toString (seconds + 86400) ++ "))"

/-- The moment as a constructor call. Trailing zeros of the time are left out below the minute. -/
def literal (m : Moment) : String :=
  let small := if m.microsecond ≠ 0 then [m.second, m.microsecond]
    else if m.second ≠ 0 then [m.second] else []
  let parts := [m.date.year, m.date.month, m.date.day, m.hour, m.minute] ++ small
  let offset := match m.offset with
    | none => ""
    | some o => ", tzinfo=" ++ offsetLiteral o
  "datetime.datetime(" ++ ", ".intercalate (parts.map toString) ++ offset ++ ")"

end Moment

end EndpointAtlas

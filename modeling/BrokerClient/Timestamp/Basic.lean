/-!
# Points in time

A date and a time of day in the proleptic Gregorian calendar, to the microsecond, with
an optional distance from UTC. `ofUnix?` gives the point of a number of seconds since
1970 in UTC, for the years 1 to 9999; `toText` writes the extended ISO 8601 form.
-/
namespace BrokerClient

/-- A date with a time of day; `offset` is the distance from UTC in minutes. -/
structure Timestamp where
  year : Nat
  month : Nat
  day : Nat
  hour : Nat
  minute : Nat
  second : Nat
  microsecond : Nat
  offset : Option Int
  deriving DecidableEq, Repr

namespace Timestamp

/-- Years divisible by four, centuries only if divisible by four hundred. -/
def isLeap (year : Nat) : Bool := year % 4 == 0 && (year % 100 != 0 || year % 400 == 0)

/-- The number of days of a month. -/
def daysInMonth (year month : Nat) : Nat :=
  if month = 2 then if isLeap year then 29 else 28
  else if month = 4 || month = 6 || month = 9 || month = 11 then 30
  else 31

/-- The date that lies `days` after 1970-01-01. Counting years from March puts the leap
day at the end of a year, and 146097 days are four centuries. -/
def civil (days : Int) : Int × Nat × Nat :=
  let shifted := days + 719468
  let era := shifted.fdiv 146097
  let dayOfEra := (shifted.fmod 146097).toNat
  let yearOfEra :=
    (dayOfEra - dayOfEra / 1460 + dayOfEra / 36524 - dayOfEra / 146096) / 365
  let dayOfYear := dayOfEra - (365 * yearOfEra + yearOfEra / 4 - yearOfEra / 100)
  let monthFromMarch := (5 * dayOfYear + 2) / 153
  let day := dayOfYear - (153 * monthFromMarch + 2) / 5 + 1
  let month := if monthFromMarch < 10 then monthFromMarch + 3 else monthFromMarch - 9
  let year := yearOfEra + era * 400 + if month ≤ 2 then 1 else 0
  (year, month, day)

/-- The first second of the year 1 and the last one of 9999, from 1970. -/
def unixRange : Int × Int := (-62135596800, 253402300799)

/-- The point that many seconds and microseconds after 1970 in UTC. -/
def ofUnix? (seconds : Int) (microseconds : Nat) : Option Timestamp :=
  let seconds := seconds + (microseconds / 1000000 : Nat)
  if seconds < unixRange.1 || unixRange.2 < seconds then none
  else
    let (year, month, day) := civil (seconds.fdiv 86400)
    let ofDay := (seconds.fmod 86400).toNat
    some ⟨year.toNat, month, day, ofDay / 3600, ofDay / 60 % 60, ofDay % 60,
      microseconds % 1000000, some 0⟩

/-- A number with at least `width` digits. -/
def padded (width n : Nat) : String :=
  let digits := Nat.toDigits 10 n
  String.ofList (List.replicate (width - digits.length) '0' ++ digits)

/-- The extended ISO 8601 form; microseconds only if there are any. -/
def toText (t : Timestamp) : String :=
  let date := s!"{padded 4 t.year}-{padded 2 t.month}-{padded 2 t.day}"
  let time := s!"{padded 2 t.hour}:{padded 2 t.minute}:{padded 2 t.second}"
  let fraction := if t.microsecond = 0 then "" else "." ++ padded 6 t.microsecond
  let offset := match t.offset with
    | none => ""
    | some minutes =>
      let sign := if minutes < 0 then "-" else "+"
      s!"{sign}{padded 2 (minutes.natAbs / 60)}:{padded 2 (minutes.natAbs % 60)}"
  date ++ "T" ++ time ++ fraction ++ offset

end Timestamp

end BrokerClient

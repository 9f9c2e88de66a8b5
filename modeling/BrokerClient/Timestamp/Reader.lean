import BrokerClient.Decimal.Binary
import BrokerClient.Decimal.Reading
import BrokerClient.Timestamp.Basic

/-!
# Reading points in time

A point in time is read from its ISO 8601 form, from a date alone, which means midnight,
and from a number or its decimal text, which counts from 1970 in UTC: milliseconds when
it is beyond twenty thousand million either way, seconds otherwise. Digits of a second
after the sixth are cut off.
-/
namespace BrokerClient.Timestamp

open Decimal

/-- Exactly two digits in front of a text. -/
def twoDigits? : List Char → Option (Nat × List Char)
  | a :: b :: rest => (natural? [a, b]).map (·, rest)
  | _ => none

/-- The date in front of a text: year, month, day. -/
def date? : List Char → Option ((Nat × Nat × Nat) × List Char)
  | a :: b :: c :: d :: '-' :: rest => do
    let year ← natural? [a, b, c, d]
    let (month, rest) ← twoDigits? rest
    match rest with
    | '-' :: rest =>
      let (day, rest) ← twoDigits? rest
      if 1 ≤ year && 1 ≤ month && month ≤ 12 && 1 ≤ day && day ≤ daysInMonth year month then
        some ((year, month, day), rest)
      else none
    | _ => none
  | _ => none

/-- The microseconds of a fraction's digits. -/
def microseconds (digits : List Char) : Nat :=
  let kept := digits.take 6
  ofDigits (kept ++ List.replicate (6 - kept.length) '0')

/-- Seconds with an optional fraction in front of a text. -/
def seconds? (text : List Char) : Option ((Nat × Nat) × List Char) := do
  let (second, rest) ← twoDigits? text
  if 59 < second then none
  else
    match rest with
    | mark :: tail =>
      if mark = '.' || mark = ',' then
        let (digits, tail) := tail.span Char.isDigit
        if digits.isEmpty then none else some ((second, microseconds digits), tail)
      else some ((second, 0), rest)
    | [] => some ((second, 0), rest)

/-- The distance from UTC that a whole text names; none if the text is empty. -/
def offset? : List Char → Option (Option Int)
  | [] => some none
  | ['Z'] => some (some 0)
  | ['z'] => some (some 0)
  | sign :: rest =>
    if sign = '+' || sign = '-' || sign = '\u2212' then do
      let (hours, rest) ← twoDigits? rest
      let rest := match rest with
        | ':' :: tail => tail
        | _ => rest
      let (minutes, rest) ← twoDigits? rest
      if rest.isEmpty && hours ≤ 23 && minutes ≤ 59 then
        some (some (signed (sign != '+') (60 * hours + minutes)))
      else none
    else none

/-- The ISO 8601 form of a date, alone or with a time of day. -/
def iso? (text : List Char) : Option Timestamp := do
  let ((year, month, day), rest) ← date? text
  match rest with
  | [] => some ⟨year, month, day, 0, 0, 0, 0, none⟩
  | mark :: rest =>
    if mark = 'T' || mark = 't' || mark = ' ' || mark = '_' then do
      let (hour, rest) ← twoDigits? rest
      match rest with
      | ':' :: rest =>
        let (minute, rest) ← twoDigits? rest
        let ((second, microsecond), rest) ← match rest with
          | ':' :: rest => seconds? rest
          | _ => some ((0, 0), rest)
        let offset ← offset? rest
        if hour ≤ 23 && minute ≤ 59 then
          some ⟨year, month, day, hour, minute, second, microsecond, offset⟩
        else none
      | _ => none
    else none

/-- Above this magnitude a number counts milliseconds. -/
def secondsLimit : Nat := 20000000000

/-- The point that a whole number stands for. -/
def ofCount? (count : Int) : Option Timestamp :=
  if count.natAbs ≤ secondsLimit then ofUnix? count 0
  else ofUnix? (count.fdiv 1000) ((count.fmod 1000).toNat * 1000)

/-- How far a double lies above the whole number below it, in parts of `1 / parts`. -/
def fractionOf (x parts : Float) : Nat := ((x - x.floor) * parts).round.toUInt64.toNat

/-- The point that a double stands for. -/
def ofFloat? (x : Float) : Option Timestamp :=
  (whole? x.floor).bind fun count =>
    if x.abs ≤ secondsLimit.toFloat then ofUnix? count (fractionOf x 1000000.0)
    else ofUnix? (count.fdiv 1000) ((count.fmod 1000).toNat * 1000 + fractionOf x 1000.0)

/-- The integer of a sign and digits, if it has 64 bits. -/
def word? (negative : Bool) (digits : List Char) : Option Int :=
  let n := signed negative (ofDigits digits)
  if -(Nat.pow 2 63 : Int) ≤ n && n < Nat.pow 2 63 then some n else none

/-- The point that the decimal text of a number stands for. Only a number with a point can
have an exponent. -/
def ofDecimal? (text : List Char) : Option Timestamp := do
  let (negative, digits) := splitSign text
  let (whole, rest) := digits.span Char.isDigit
  let count ← word? negative whole
  match rest with
  | [] => if whole.isEmpty then none else ofCount? count
  | '.' :: _ =>
    let (digits, place) ← scientific? digits
    ofFloat? (toFloat negative digits place)
  | _ => none

/-- The point in time that a text stands for. -/
def ofText? (text : String) : Option Timestamp :=
  (iso? text.toList).orElse fun _ => ofDecimal? text.toList

end BrokerClient.Timestamp

import BrokerClient.Decimal.Reading
import BrokerClient.Timestamp.Basic
import BrokerClient.Yaml.Spelling

/-!
# Points in time

A scalar can spell a date, or a date with a time of day, a fraction of a second and a
distance from UTC. The spelling is checked first; whether there is such a day and such a
time is a second question, and the distance from UTC is looked at before both.
-/
namespace BrokerClient.Yaml

/-- The numbers in the spelling of a time of day. -/
structure SpelledTime where
  hour : Nat
  minute : Nat
  second : Nat
  fraction : List Char
  /-- The distance from UTC in minutes. -/
  offset : Option Int

/-- The numbers in the spelling of a point in time. -/
structure SpelledMoment where
  year : Nat
  month : Nat
  day : Nat
  time : Option SpelledTime

/-- A number of `low` to `high` digits in front of a text. -/
def digits? (low high : Nat) (text : List Char) : Option (Nat × List Char) :=
  let digits := (text.take high).takeWhile Char.isDigit
  if low ≤ digits.length then some (Decimal.ofDigits digits, text.drop digits.length) else none

/-- A character in front of a text. -/
def expect? (c : Char) : List Char → Option (List Char)
  | d :: rest => if c = d then some rest else none
  | [] => none

/-- The distance from UTC that may be behind a time of day, after blanks. -/
def offset? (text : List Char) : Option (Option Int) :=
  match text with
  | [] => some none
  | _ =>
    match text.dropWhile fun c => c == ' ' || c == '\t' with
    | ['Z'] => some (some 0)
    | sign :: rest =>
      if sign = '+' || sign = '-' then do
        let (hours, rest) ← digits? 1 2 rest
        let (minutes, rest) ← match rest with
          | ':' :: rest => digits? 2 2 rest
          | rest => some (0, rest)
        if rest.isEmpty then some (some (Decimal.signed (sign = '-') (60 * hours + minutes)))
        else none
      else none
    | [] => none

/-- The time of day that a text spells. -/
def time? (text : List Char) : Option SpelledTime := do
  let (hour, rest) ← digits? 1 2 text
  let (minute, rest) ← expect? ':' rest >>= digits? 2 2
  let (second, rest) ← expect? ':' rest >>= digits? 2 2
  let (fraction, rest) := match rest with
    | '.' :: rest => rest.span Char.isDigit
    | rest => ([], rest)
  some ⟨hour, minute, second, fraction, ← offset? rest⟩

/-- The numbers of the point in time that a text spells. -/
def SpelledMoment.ofText? (text : List Char) : Option SpelledMoment := do
  let (year, rest) ← digits? 4 4 text
  let (month, rest) ← expect? '-' rest >>= digits? 1 2
  let (day, rest) ← expect? '-' rest >>= digits? 1 2
  match rest with
  | [] => some ⟨year, month, day, none⟩
  | c :: rest =>
    if c = 'T' || c = 't' then some ⟨year, month, day, some (← time? rest)⟩
    else if c = ' ' || c = '\t' then
      let rest := rest.dropWhile fun c => c == ' ' || c == '\t'
      some ⟨year, month, day, some (← time? rest)⟩
    else none

/-- The spelling of a point in time. In a date alone all numbers have all their digits. -/
def isMoment (text : List Char) : Bool :=
  (SpelledMoment.ofText? text).any fun spelled => spelled.time.isSome || text.length == 10

/-- A date, or a date with a time of day. -/
inductive Moment where
  | date (year month day : Nat)
  | time (timestamp : Timestamp)
  deriving DecidableEq, Repr

namespace Moment

/-- What is wrong with a date. -/
def dateFault? (year month day : Nat) : Option MomentFault :=
  if year = 0 then some (.year year)
  else if month = 0 || 12 < month then some .month
  else if day = 0 || Timestamp.daysInMonth year month < day then some .day
  else none

/-- What is wrong with a time of day. -/
def timeFault? (time : SpelledTime) : Option MomentFault :=
  if 23 < time.hour then some .hour
  else if 59 < time.minute then some .minute
  else if 59 < time.second then some .second
  else none

/-- What is wrong with a distance from UTC. -/
def offsetFault? (offset : Option Int) : Option MomentFault :=
  (offset.filter fun minutes => 1440 ≤ minutes.natAbs).map .offset

/-- The microseconds of a fraction's digits. -/
def microseconds (digits : List Char) : Nat :=
  let kept := digits.take 6
  Decimal.ofDigits (kept ++ List.replicate (6 - kept.length) '0')

/-- The point in time of the numbers in a spelling. -/
def ofSpelled (spelled : SpelledMoment) : Except MomentFault Moment :=
  let ⟨year, month, day, spelledTime⟩ := spelled
  match spelledTime with
  | none =>
    match dateFault? year month day with
    | some fault => .error fault
    | none => .ok (.date year month day)
  | some t =>
    match offsetFault? t.offset <|> dateFault? year month day <|> timeFault? t with
    | some fault => .error fault
    | none =>
      .ok (.time ⟨year, month, day, t.hour, t.minute, t.second, microseconds t.fraction,
        t.offset⟩)

/-- The point in time that a text spells. -/
def ofText (text : List Char) : Except Failure Moment :=
  match SpelledMoment.ofText? (withoutBreak text) with
  | none => .error .notMoment
  | some spelled => (ofSpelled spelled).mapError .invalidMoment

/-- The text of a point in time; a space stands between date and time of day. -/
def text : Moment → String
  | date year month day =>
    s!"{Timestamp.padded 4 year}-{Timestamp.padded 2 month}-{Timestamp.padded 2 day}"
  | time t => String.ofList (t.toText.toList.map fun c => if c = 'T' then ' ' else c)

/-- The minutes since the start of the year zero. -/
def minutes (t : Timestamp) : Int :=
  let years := t.year - 1
  let leapDays := years / 4 - years / 100 + years / 400
  let months := (List.range (t.month - 1)).map fun m => Timestamp.daysInMonth t.year (m + 1)
  let days := years * 365 + leapDays + months.foldl (· + ·) 0 + (t.day - 1)
  ((days * 24 + t.hour) * 60 + t.minute : Nat)

/-- Two points in time are the same: the same numbers, or the same point in UTC. -/
def same : Moment → Moment → Bool
  | date y m d, date y' m' d' => y == y' && m == m' && d == d'
  | time t, time t' =>
    match t.offset, t'.offset with
    | none, none => t == t'
    | some offset, some offset' =>
      minutes t - offset == minutes t' - offset' && t.second == t'.second &&
        t.microsecond == t'.microsecond
    | _, _ => false
  | _, _ => false

end Moment

end BrokerClient.Yaml

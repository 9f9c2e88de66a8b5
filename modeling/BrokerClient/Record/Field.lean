import BrokerClient.Decimal.Binary
import BrokerClient.Decimal.Reading
import BrokerClient.Record.Verdict
import BrokerClient.Text.Blank
import BrokerClient.Timestamp.Reader

/-!
# Decoders of plain fields

What is accepted for a text, an integer, a number, a truth value or a point in time, and
how the fields of an object are looked up. Integers and truth values are also read from
texts and from numbers that stand for them.
-/
namespace BrokerClient.Record

open Verdict

variable {α : Type}

/-- Only a text. Halves of surrogate pairs may be in it. -/
def string : Value → Verdict String
  | .str s => accepted s
  | .word w => accepted w.text
  | .torn points => accepted (Text.ofPoints points)
  | .bytes data =>
    match Text.ofBytes? data with
    | some s => accepted s
    | none => problem .tornText
  | _ => problem .notText

/-- What is read from the text that bytes spell. They have to spell one. -/
def spelled (read : String → Verdict α) (p : Problem) (data : List UInt8) : Verdict α :=
  match Text.ofBytes? data with
  | some s => read s
  | none => problem p

/-- A text without its underscores. They may stand inside of it, not next to each other. -/
def ungrouped? (text : List Char) : Option (List Char) :=
  let pairs := text.zip (text.drop 1)
  if text.head? == some '_' || text.getLast? == some '_' || pairs.contains ('_', '_') then none
  else some (text.filter (· != '_'))

/-- A text without a fraction of zeros. A point needs zeros behind it and nothing else. -/
def wholePart? (text : List Char) : Option (List Char) :=
  match text.span (· != '.') with
  | (whole, []) => some whole
  | (whole, _ :: zeros) => if !zeros.isEmpty && zeros.all (· == '0') then some whole else none

/-- A text without a plus in front, behind which no minus can stand. -/
def withoutPlus? : List Char → Option (List Char)
  | '+' :: '-' :: _ => none
  | '+' :: rest => some rest
  | text => some text

/-- A digit other than zero, or a minus. -/
def startsInteger (c : Char) : Bool := c == '-' || ('1' ≤ c && c ≤ '9')

/-- A text from its first digit other than zero or from a minus. In front of it there are
only zeros, and underscores behind the first of them. Of a text of such signs alone the
last one is left. -/
def withoutZeros? : List Char → Option (List Char)
  | [] => none
  | first :: rest =>
    if startsInteger first then some (first :: rest)
    else if first = '0' then
      match rest.dropWhile fun c => c == '0' || c == '_' with
      | [] => some [rest.getLastD first]
      | c :: tail => if startsInteger c then some (c :: tail) else none
    else none

/-- A text without the zeros in front, which can stand behind a minus as well. -/
def withoutPadding? : List Char → Option (List Char)
  | '-' :: rest => (withoutZeros? rest).map ('-' :: ·)
  | text => withoutZeros? text

/-- The most digits that an integer can be spelled with. -/
def integerLength : Nat := 4300

/-- The integer that a text spells in the plain way: an optional minus and digits, the
first of which is zero only if it is alone. Digits beyond the limit are noticed before what
follows them. -/
def plainInteger (text : List Char) : Verdict Int :=
  let (negative, digits) := match text with
    | '-' :: digits => (true, digits)
    | digits => (false, digits)
  let run := digits.takeWhile Char.isDigit
  if run.isEmpty || (run.head? == some '0' && 1 < run.length) then problem .unreadableInteger
  else if integerLength < run.length then problem .oversizedInteger
  else if run.length < digits.length then problem .unreadableInteger
  else accepted (Decimal.signed negative (Decimal.ofDigits run))

/-- A text for an integer in the plain way of spelling: without a plus, a fraction of
zeros, zeros in front and underscores between the digits. -/
def plainText? (text : List Char) : Option (List Char) := do
  let text ← wholePart? text >>= withoutPlus? >>= withoutPadding?
  pure ((ungrouped? text).getD text)

/-- The integer that a text spells between blanks. A text that is not in the plain way of
spelling is brought into it, and then nothing is said about its length. -/
def spelledInteger (s : String) : Verdict Int :=
  let text := (Text.trim s).toList
  match plainInteger text with
  | rejected [⟨[], .unreadableInteger⟩] =>
    match (plainText? text).map plainInteger with
    | some (accepted n) => accepted n
    | _ => problem .unreadableInteger
  | verdict => verdict

/-- The magnitude that an integer of 64 bits stays below. -/
def wordLimit : Nat := Nat.pow 2 63

/-- The integer that a double is, if it is finite and whole. It has to have 64 bits. -/
def wholeNumber (x : Float) : Verdict Int :=
  match Decimal.whole? x with
  | some n => if n.natAbs < wordLimit then accepted n else problem .oversizedInteger
  | none => problem (if x.isNaN || x.isInf then .notFinite else .fractionalInteger)

/-- An integer, a truth value, a whole number, or a text that spells an integer. -/
def integer : Value → Verdict Int
  | .int n => accepted n
  | .bool b => accepted (if b then 1 else 0)
  | .float x => wholeNumber x
  | .str s => spelledInteger s
  | .word w => spelledInteger w.text
  | .bytes data => spelled spelledInteger .unreadableInteger data
  | .torn _ => problem .tornText
  | _ => problem .notInteger

/-- The number that a text spells between blanks, or with its digits grouped. -/
def spelledNumber? (s : String) : Option Float :=
  Decimal.number? (Text.trim s).toList <|> (ungrouped? s.toList).bind Decimal.number?

/-- The number that a text spells, as a verdict. -/
def spelledNumber (s : String) : Verdict Float :=
  match spelledNumber? s with
  | some x => accepted x
  | none => problem .unreadableNumber

/-- The double nearest to an integer. -/
def nearestFloat (n : Int) : Float := Decimal.toFloat (n < 0) n.natAbs 0

/-- A number that a double can hold, a truth value, or a text that spells a number. -/
def number : Value → Verdict Float
  | .float x => accepted x
  | .int n =>
    let x := nearestFloat n
    if x.isInf then problem .notNumber else accepted x
  | .bool b => accepted (if b then 1.0 else 0.0)
  | .str s => spelledNumber s
  | .word w => spelledNumber w.text
  | .bytes data => spelled spelledNumber .unreadableNumber data
  | .torn _ => problem .tornText
  | _ => problem .notNumber

/-- The words for true and for false. -/
def truthWords : List (String × Bool) :=
  [("0", false), ("off", false), ("f", false), ("false", false), ("n", false), ("no", false),
   ("1", true), ("on", true), ("t", true), ("true", true), ("y", true), ("yes", true)]

/-- The truth value that a text is a word for, in any case. -/
def spelledTruth (s : String) : Verdict Bool :=
  match truthWords.lookup (String.ofList (s.toList.map Char.toLower)) with
  | some b => accepted b
  | none => problem .unreadableTruth

/-- Zero or one. -/
def binaryDigit (n : Int) : Verdict Bool :=
  if n = 0 then accepted false else if n = 1 then accepted true else problem .unreadableTruth

/-- An integer of 64 bits. -/
def isWord (n : Int) : Bool := -(wordLimit : Int) ≤ n && n < wordLimit

/-- A truth value, zero or one, or a word for a truth value in any case. A number that is no
integer of 64 bits stands for nothing. -/
def truth : Value → Verdict Bool
  | .bool b => accepted b
  | .int n => if isWord n then binaryDigit n else problem .notTruth
  | .float x =>
    match wholeNumber x with
    | accepted n => binaryDigit n
    | _ => problem .notTruth
  | .str s => spelledTruth s
  | .word w => spelledTruth w.text
  | .bytes data => spelled spelledTruth .unreadableTruth data
  | .torn _ => problem .tornText
  | _ => problem .notTruth

/-- A point in time: its text, or a count from 1970. An integer of more than 64 bits counts
as the double next to it, if there is one. -/
def timestamp : Value → Verdict Timestamp
  | .str s => ofReading (Timestamp.ofText? s)
  | .word w => ofReading (Timestamp.ofText? w.text)
  | .bytes data => ofReading ((Text.ofBytes? data).bind Timestamp.ofText?)
  | .int n =>
    if isWord n then ofReading (Timestamp.ofCount? n)
    else if (nearestFloat n).isInf then problem .notTimestamp
    else ofReading (Timestamp.ofFloat? (nearestFloat n))
  | .float x => ofReading (Timestamp.ofFloat? x)
  | .torn _ => problem .tornText
  | _ => problem .notTimestamp
where
  ofReading : Option Timestamp → Verdict Timestamp
    | some t => accepted t
    | none => problem .unreadableTimestamp

/-- Null, or what the decoder accepts. -/
def nullable (decode : Value → Verdict α) : Value → Verdict (Option α)
  | .null => accepted none
  | v => (decode v).map some

/-- A list of what the decoder accepts. -/
def list (decode : Value → Verdict α) : Value → Verdict (List α)
  | .arr items => each decode items
  | _ => problem .notList

/-- A sequence of what the decoder accepts. -/
def sequence (decode : Value → Verdict α) : Value → Verdict (List α)
  | .arr items => each decode items
  | _ => problem .notSequence

/-- What has a name and nothing else, made from that. -/
def named (v : Value) : Verdict String := (string v).within (.field "name")

/-- An object, decoded from its fields. -/
def object (decode : Mapping Value → Verdict α) : Value → Verdict α
  | .obj fields => decode fields
  | _ => problem .notRecord

/-- A field that has to be there. -/
def required (name : String) (decode : Value → Verdict α) (fields : Mapping Value) :
    Verdict α :=
  (match fields.find? name with
    | some v => decode v
    | none => problem .missing).within (.field name)

/-- A field with a default for its absence. -/
def defaulted (name : String) (default : α) (decode : Value → Verdict α)
    (fields : Mapping Value) : Verdict α :=
  match fields.find? name with
  | some v => (decode v).within (.field name)
  | none => accepted default

end BrokerClient.Record

import BrokerClient.Decimal.Shortest
import BrokerClient.Text.Blank
import BrokerClient.Text.Digit
import BrokerClient.Text.Lowercase
import BrokerClient.Yaml.Spelling

/-!
# The numbers that scalars spell

Underscores do not count. A zero in front of an integer makes it octal unless a letter says
otherwise, and colons separate places to the base sixty, in integers and in numbers with a
point. A scalar that is tagged as a number need not be spelled as one: digits of every script
count, and what is no number is reported with the text that should be one.
-/
namespace BrokerClient.Yaml

/-- The digits after the letter that names a base in front of them, if it is there. -/
def withoutBase (base : Nat) (digits : List Char) : List Char :=
  match digits with
  | '0' :: letter :: rest =>
    if (base, letter.toLower) ∈ [(2, 'b'), (8, 'o'), (16, 'x')] then rest else digits
  | digits => digits

/-- The value of digits of a base. -/
def valueOf (base : Nat) (digits : List Char) : Nat :=
  digits.foldl (fun value d => value * base + (Json.hexDigit? d).getD 0) 0

/-- A text without blanks at its ends and with the digits of the first script. -/
def plainText (text : List Char) : List Char :=
  (Text.trim (String.ofList text)).toList.map Text.plainDigit

/-- The integer that a text spells in a base, between blanks and with a sign. The number of
decimal digits is limited. -/
def integerIn (base : Nat) (text : List Char) : Except Failure Int :=
  let (negative, digits) := Decimal.splitSign (plainText text)
  let digits := withoutBase base digits
  let run := digits.takeWhile fun c => c != '_' && isDigitOf base c
  if base = 10 && Decimal.digitLimit < run.length then .error (.oversizedInteger run.length)
  else if run.isEmpty || run.length < digits.length then
    .error (.notInteger base (String.ofList text))
  else .ok (Decimal.signed negative (valueOf base run))

/-- The value of places to the base sixty. -/
def sexagesimal (places : List Int) : Int := places.foldl (fun value place => value * 60 + place) 0

/-- A sign in front of digits, one character at least. -/
def signOf (text : List Char) : Except Failure (Bool × List Char) :=
  if text.isEmpty then .error .emptyNumber else .ok (Decimal.splitSign text)

/-- The integer that a scalar spells. -/
def integerOf (text : List Char) : Except Failure Int := do
  let (negative, digits) ← signOf (text.filter (· != '_'))
  let signed (n : Int) := if negative then -n else n
  match digits with
  | [] => throw .emptyNumber
  | '0' :: 'b' :: digits => signed <$> integerIn 2 digits
  | '0' :: 'x' :: digits => signed <$> integerIn 16 digits
  | ['0'] => pure 0
  | '0' :: _ => signed <$> integerIn 8 digits
  | _ =>
    if digits.contains ':' then
      let places ← (parts digits).mapM (integerIn 10)
      pure (signed (sexagesimal places))
    else signed <$> integerIn 10 digits

/-- The number that a text spells between blanks. -/
def plainNumber (text : List Char) : Except Failure Float :=
  match Decimal.number? (plainText text) with
  | some x => .ok x
  | none => .error (.notNumber (String.ofList text))

/-- The sum of places to the base sixty, the last of them first; `unit` is the worth of
that, which has to be in the range of doubles. -/
def sexagesimalSum (sum : Float) (unit : Nat) : List Float → Except Failure Float
  | [] => .ok sum
  | place :: rest =>
    let worth := Decimal.toFloat false unit 0
    if worth.isInf then .error .oversizedUnit
    else sexagesimalSum (sum + place * worth) (unit * 60) rest

/-- The number that a scalar spells. -/
def numberOf (text : List Char) : Except Failure Float := do
  let lower := (Text.lowercase (String.ofList (text.filter (· != '_')))).toList
  let (negative, digits) ← signOf lower
  let signed (x : Float) := if negative then -x else x
  if digits = ".inf".toList then pure (signed (1.0 / 0.0))
  else if digits = ".nan".toList then pure (0.0 / 0.0)
  else if digits.contains ':' then
    let places ← (parts digits).mapM plainNumber
    signed <$> sexagesimalSum 0.0 1 places.reverse
  else signed <$> plainNumber digits

end BrokerClient.Yaml

import BrokerClient.Decimal.Reading
import BrokerClient.Yaml.Tag

/-!
# The spelling of plain scalars

What a plain scalar is shows in its spelling: words for null and for the truth values,
integers in several bases, numbers with a point, points in time, and the signs for a merge
and for a default. Between the digits of a number underscores may stand. Everything else is
a text.
-/
namespace BrokerClient.Yaml

/-- A text without a line feed at its end. -/
def withoutBreak (text : List Char) : List Char :=
  if text.getLast? == some '\n' then text.dropLast else text

/-- The words for null. -/
def nullWords : List String := ["", "~", "null", "Null", "NULL"]

/-- The words for the truth values. -/
def truthWords : List String :=
  ["yes", "Yes", "YES", "no", "No", "NO", "true", "True", "TRUE", "false", "False", "FALSE",
    "on", "On", "ON", "off", "Off", "OFF"]

/-- The words for infinity and for no number. -/
def numberWords : List String :=
  [".inf", ".Inf", ".INF", "+.inf", "+.Inf", "+.INF", "-.inf", "-.Inf", "-.INF",
    ".nan", ".NaN", ".NAN"]

/-- A digit or an underscore. -/
def isDigit (c : Char) : Bool := c.isDigit || c == '_'

/-- A digit of a base up to sixteen, or an underscore. -/
def isDigitOf (base : Nat) (c : Char) : Bool :=
  c == '_' || (Json.hexDigit? c).any fun digit => digit < base

/-- The parts of a text between colons. -/
def parts : List Char → List (List Char)
  | [] => [[]]
  | c :: rest =>
    match c, parts rest with
    | ':', more => [] :: more
    | c, part :: more => (c :: part) :: more
    | c, [] => [[c]]

/-- A place to the base sixty: one digit, or two digits below sixty. -/
def isSixtieth (place : List Char) : Bool :=
  match place with
  | [a] => a.isDigit
  | [a, b] => '0' ≤ a && a ≤ '5' && b.isDigit
  | _ => false

/-- Places to the base sixty behind a first part, one at least. -/
def areSixtieths (places : List (List Char)) : Bool := !places.isEmpty && places.all isSixtieth

/-- The spelling of an integer: in the bases two, eight, ten, sixteen and sixty. -/
def isInteger (text : List Char) : Bool :=
  match (Decimal.splitSign text).2 with
  | '0' :: 'b' :: digits => !digits.isEmpty && digits.all (isDigitOf 2)
  | '0' :: 'x' :: digits => !digits.isEmpty && digits.all (isDigitOf 16)
  | '0' :: digits => digits.all (isDigitOf 8)
  | digits =>
    match parts digits with
    | (c :: rest) :: places =>
      c.isDigit && rest.all isDigit && (places.isEmpty || areSixtieths places)
    | _ => false

/-- The exponent that may follow a number. It needs a sign. -/
def isExponent (text : List Char) : Bool :=
  match text with
  | [] => true
  | e :: sign :: digits =>
    (e == 'e' || e == 'E') && (sign == '+' || sign == '-') && !digits.isEmpty &&
      digits.all Char.isDigit
  | _ => false

/-- The spelling of a number with a point. In front of a point without digits no sign can
stand. -/
def isPointed (text : List Char) : Bool :=
  let (whole, rest) := ((Decimal.splitSign text).2).span fun c => isDigit c || c == ':'
  match rest with
  | '.' :: fraction =>
    let (digits, power) := fraction.span isDigit
    match parts whole with
    | [[]] => text.head? == some '.' && digits.head?.any Char.isDigit && isExponent power
    | [first] => first.head?.any Char.isDigit && isExponent power
    | first :: places =>
      first.head?.any Char.isDigit && first.all isDigit && areSixtieths places && power.isEmpty
    | [] => false
  | _ => false

end BrokerClient.Yaml

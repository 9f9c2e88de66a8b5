import BrokerClient.Decimal.Reading
import BrokerClient.Value

/-!
# Reading JSON

The reader accepts the JSON grammar with three extensions: the words `NaN`, `Infinity`
and `-Infinity` are numbers. Blanks are space, tab, line feed and carriage return.
A number without fraction and exponent is an integer of any size. Of a name that an
object repeats, the first position and the last value count. Control characters inside
a string are refused. A string with an escaped half of a surrogate pair that stands alone is
a torn text.

An integer of too many digits fails by itself, and so does an array or an object that is
nested too deeply; what follows is not looked at. How deep is too deep depends on where the
reader is called, so that it is told. The functions below read from the front of
a text and return what follows. Their fuel bounds the nesting of calls; `Json.read` supplies
two units for every character, and no two successive calls leave the text as it was. Their
`depth` says how many arrays and objects can still be entered.
-/
namespace BrokerClient.Json

/-- What can hold other values. -/
inductive Shape where
  | array
  | object
  deriving DecidableEq, Repr

/-- The word for a shape. -/
def Shape.word : Shape → String
  | array => "array"
  | object => "object"

/-- The wording for an array or an object that is nested too deeply. -/
def Shape.tooDeepText (shape : Shape) : String :=
  "maximum recursion depth exceeded while decoding a JSON " ++ shape.word ++
    " from a unicode string"

/-- Why a text is not read. -/
inductive Failure where
  /-- The text breaks the grammar. -/
  | malformed
  /-- An integer has that many digits, which is more than the limit. -/
  | oversized (digits : Nat)
  /-- An array or an object starts at a depth that is not read. -/
  | tooDeep (shape : Shape)

/-- The text without the blanks in front. -/
def skipBlanks (text : List Char) : List Char :=
  text.dropWhile fun c => c == ' ' || c == '\t' || c == '\n' || c == '\r'

/-- The value of a hexadecimal digit. -/
def hexDigit? (c : Char) : Option Nat :=
  if '0' ≤ c && c ≤ '9' then some (c.toNat - '0'.toNat)
  else if 'a' ≤ c && c ≤ 'f' then some (c.toNat - 'a'.toNat + 10)
  else if 'A' ≤ c && c ≤ 'F' then some (c.toNat - 'A'.toNat + 10)
  else none

/-- Four hexadecimal digits in front of a text. -/
def hexUnit? : List Char → Option (Nat × List Char)
  | a :: b :: c :: d :: rest => do
    let a ← hexDigit? a
    let b ← hexDigit? b
    let c ← hexDigit? c
    let d ← hexDigit? d
    some (((a * 16 + b) * 16 + c) * 16 + d, rest)
  | _ => none

/-- The character of an escape that is a single letter. -/
def escapeLetter? : Char → Option Char
  | '"' => some '"'
  | '\\' => some '\\'
  | '/' => some '/'
  | 'b' => some '\x08'
  | 'f' => some '\x0c'
  | 'n' => some '\n'
  | 'r' => some '\r'
  | 't' => some '\t'
  | _ => none

/-- The code point that an escaped unit stands for, with the low half that may follow. -/
def unitPoint (unit : Nat) (rest : List Char) : Nat × List Char :=
  if 0xD800 ≤ unit && unit < 0xDC00 then
    match rest with
    | '\\' :: 'u' :: rest' =>
      match hexUnit? rest' with
      | some (low, rest'') =>
        if 0xDC00 ≤ low && low < 0xE000 then
          (0x10000 + (unit - 0xD800) * 0x400 + (low - 0xDC00), rest'')
        else (unit, rest)
      | none => (unit, rest)
    | _ => (unit, rest)
  else (unit, rest)

/-- The rest of a string whose opening quote has been read; `points` holds its code points so
far, last first. -/
def stringTail : Nat → List Nat → List Char → Except Failure (List Nat × List Char)
  | 0, _, _ => .error .malformed
  | fuel + 1, points, text =>
    match text with
    | '"' :: rest => .ok (points.reverse, rest)
    | '\\' :: 'u' :: rest =>
      match hexUnit? rest with
      | some (unit, rest) =>
        let (point, rest) := unitPoint unit rest
        stringTail fuel (point :: points) rest
      | none => .error .malformed
    | '\\' :: letter :: rest =>
      match escapeLetter? letter with
      | some c => stringTail fuel (c.toNat :: points) rest
      | none => .error .malformed
    | c :: rest =>
      if c.toNat < 0x20 then .error .malformed else stringTail fuel (c.toNat :: points) rest
    | [] => .error .malformed

/-- The integer of digits, unless these are too many. -/
def integer (negative : Bool) (digits : List Char) : Except Failure Value :=
  if Decimal.digitLimit < digits.length then .error (.oversized digits.length)
  else .ok (.int (Decimal.signed negative (Decimal.ofDigits digits)))

/-- A number in front of a text: no leading zeros, and a fraction or an exponent only if
digits follow its mark. -/
def number (text : List Char) : Except Failure (Value × List Char) :=
  let (negative, rest) := match text with
    | '-' :: rest => (true, rest)
    | _ => (false, text)
  let (whole, rest) := match rest with
    | '0' :: rest => (['0'], rest)
    | _ => rest.span Char.isDigit
  if whole.isEmpty then .error .malformed
  else
    let (fraction, rest') := match rest with
      | '.' :: tail => tail.span Char.isDigit
      | _ => ([], rest)
    let rest' := if fraction.isEmpty then rest else rest'
    let power := match rest' with
      | e :: tail =>
        if e = 'e' || e = 'E' then
          let (negative, tail) := Decimal.splitSign tail
          let (digits, tail) := tail.span Char.isDigit
          if digits.isEmpty then none
          else some (Decimal.signed negative (Decimal.ofDigits digits), tail)
        else none
      | [] => none
    match fraction, power with
    | [], none => (integer negative whole).map (·, rest')
    | _, none =>
      .ok (.float (Decimal.toFloat negative (Decimal.ofDigits (whole ++ fraction))
        (-fraction.length)), rest')
    | _, some (power, tail) =>
      .ok (.float (Decimal.toFloat negative (Decimal.ofDigits (whole ++ fraction))
        (power - fraction.length)), tail)

/-- A word with a fixed value in front of a text, or a number. -/
def scalar (text : List Char) : Except Failure (Value × List Char) :=
  let words : List (String × Value) :=
    [("null", .null), ("true", .bool true), ("false", .bool false), ("NaN", .float (0.0 / 0.0)),
     ("Infinity", .float (1.0 / 0.0)), ("-Infinity", .float (-1.0 / 0.0))]
  match words.find? fun (word, _) => word.toList.isPrefixOf text with
  | some (word, v) => .ok (v, text.drop word.length)
  | none => number text

mutual

/-- A value in front of a text that does not start with a blank. -/
def value : Nat → Nat → List Char → Except Failure (Value × List Char)
  | 0, _, _ => .error .malformed
  | fuel + 1, depth, text =>
    match text, depth with
    | '"' :: rest, _ => do
      let (points, rest) ← stringTail (rest.length + 1) [] rest
      pure (.ofPoints points, rest)
    | '[' :: _, 0 => .error (.tooDeep .array)
    | '[' :: rest, depth + 1 =>
      match skipBlanks rest with
      | ']' :: rest => .ok (.arr [], rest)
      | rest => do
        let (items, rest) ← items fuel depth rest
        pure (.arr items, rest)
    | '{' :: _, 0 => .error (.tooDeep .object)
    | '{' :: rest, depth + 1 =>
      match skipBlanks rest with
      | '}' :: rest => .ok (.obj [], rest)
      | rest => do
        let (members, rest) ← members fuel depth rest
        pure (.obj (Mapping.ofPairs members), rest)
    | _, _ => scalar text

/-- The items of a list up to its closing bracket, one at least. -/
def items : Nat → Nat → List Char → Except Failure (List Value × List Char)
  | 0, _, _ => .error .malformed
  | fuel + 1, depth, text => do
    let (item, rest) ← value fuel depth text
    match skipBlanks rest with
    | ',' :: rest =>
      let (items, rest) ← items fuel depth (skipBlanks rest)
      pure (item :: items, rest)
    | ']' :: rest => pure ([item], rest)
    | _ => throw .malformed

/-- The members of an object up to its closing brace, one at least. -/
def members : Nat → Nat → List Char →
    Except Failure (List (String × Value) × List Char)
  | 0, _, _ => .error .malformed
  | fuel + 1, depth, text =>
    match text with
    | '"' :: rest => do
      let (points, rest) ← stringTail (rest.length + 1) [] rest
      let name := Text.ofPoints points
      match skipBlanks rest with
      | ':' :: rest =>
        let (member, rest) ← value fuel depth (skipBlanks rest)
        match skipBlanks rest with
        | ',' :: rest =>
          let (members, rest) ← members fuel depth (skipBlanks rest)
          pure ((name, member) :: members, rest)
        | '}' :: rest => pure ([(name, member)], rest)
        | _ => throw .malformed
      | _ => throw .malformed
    | _ => .error .malformed

end

/-- The value that a whole text is the JSON of, read down to a depth of nested arrays and
objects. -/
def read (depth : Nat) (text : String) : Except Failure Value := do
  let chars := text.toList
  let (v, rest) ← value (2 * chars.length + 2) depth (skipBlanks chars)
  if (skipBlanks rest).isEmpty then pure v else throw .malformed

end BrokerClient.Json

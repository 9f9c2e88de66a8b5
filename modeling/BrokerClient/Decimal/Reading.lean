/-!
# Reading decimal numbers

Runs of decimal digits, and the double nearest to `digits * 10 ^ place`. A number far
outside the range of doubles is decided by the position of its first digit, so no
power of ten grows with the exponent that a text names. Integers are neither read nor written
if they have too many digits.
-/
namespace BrokerClient.Decimal

/-- The most digits of an integer that is read or written. -/
def digitLimit : Nat := 4300

/-- The wording for an integer of that many digits, which are more than the limit. -/
def oversizedText (digits : Nat) : String :=
  s!"Exceeds the limit ({digitLimit} digits) for integer string conversion: value has " ++
    s!"{digits} digits; use sys.set_int_max_str_digits() to increase the limit"

/-- The wording for an integer whose text would be longer than the limit. -/
def unwritableText : String :=
  s!"Exceeds the limit ({digitLimit} digits) for integer string conversion; " ++
    "use sys.set_int_max_str_digits() to increase the limit"

/-- An integer is not too long to be written. A sign does not count. -/
def isWritable (n : Int) : Bool := (Nat.toDigits 10 n.natAbs).length ≤ digitLimit

/-- The value of a run of decimal digits. -/
def ofDigits (digits : List Char) : Nat :=
  digits.foldl (fun value d => 10 * value + (d.toNat - '0'.toNat)) 0

/-- The value of a text that is a non-empty run of decimal digits. -/
def natural? (digits : List Char) : Option Nat :=
  if !digits.isEmpty && digits.all Char.isDigit then some (ofDigits digits) else none

/-- An optional sign in front of a text: whether it is a minus, and the rest. -/
def splitSign : List Char → Bool × List Char
  | '-' :: rest => (true, rest)
  | '+' :: rest => (false, rest)
  | rest => (false, rest)

/-- A natural number with a sign. -/
def signed (negative : Bool) (n : Nat) : Int := if negative then -(n : Int) else n

/-- The double nearest to `digits * 10 ^ place`, with a sign. -/
def toFloat (negative : Bool) (digits : Nat) (place : Int) : Float :=
  let first := (Nat.toDigits 10 digits).length + place
  let magnitude :=
    if digits = 0 || first < -330 then 0.0
    else if 310 < first then 1.0 / 0.0
    else Float.ofScientific digits (place < 0) place.natAbs
  if negative then -magnitude else magnitude

/-- A decimal number without its sign: digits with an optional point, at least one
digit in all, and an optional exponent. The answer is the digits and their place. -/
def scientific? (text : List Char) : Option (Nat × Int) :=
  let (whole, rest) := text.span Char.isDigit
  let (fraction, rest) :=
    match rest with
    | '.' :: rest => rest.span Char.isDigit
    | rest => ([], rest)
  if whole.isEmpty && fraction.isEmpty then none
  else
    let digits := ofDigits (whole ++ fraction)
    match rest with
    | [] => some (digits, -fraction.length)
    | e :: rest =>
      if e = 'e' || e = 'E' then
        let (negative, power) := splitSign rest
        (natural? power).map fun power => (digits, signed negative power - fraction.length)
      else none

/-- The number in decimal notation with an optional sign, or the word for infinity or for no
number in any case. -/
def number? (text : List Char) : Option Float :=
  let (negative, digits) := splitSign text
  match scientific? digits with
  | some (digits, place) => some (toFloat negative digits place)
  | none =>
    let word := String.ofList (digits.map Char.toLower)
    if word = "inf" || word = "infinity" then
      some (if negative then -(1.0 / 0.0) else 1.0 / 0.0)
    else if word = "nan" then some (0.0 / 0.0)
    else none

end BrokerClient.Decimal

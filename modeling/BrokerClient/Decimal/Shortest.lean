import BrokerClient.Decimal.Binary

/-!
# The shortest decimal of a double

The reals that are rounded to a double form an interval, closed exactly when the
mantissa of the double is even. Of the decimals in that interval, those with the fewest
digits are taken, and of these the nearest to the double; a tie goes to the even last
digit. Nothing here is rounded: both ends are compared in exact natural arithmetic.

`floatText` writes the digits positionally when the exponent of the first digit lies
in `-4 … 15`, and with an exponent of at least two digits otherwise.
-/
namespace BrokerClient.Decimal

/-- The decimal `digits * 10 ^ place` lies in the interval of the double. -/
def Binary.covers (b : Binary) (digits : Nat) (place : Int) : Bool :=
  let value := 4 * digits * Nat.pow 10 place.toNat * Nat.pow 2 (-b.exponent).toNat
  let unit := Nat.pow 10 (-place).toNat * Nat.pow 2 b.exponent.toNat
  let low := (4 * b.mantissa - if b.narrowBelow then 1 else 2) * unit
  let high := (4 * b.mantissa + 2) * unit
  if b.mantissa % 2 = 0 then low ≤ value && value ≤ high else low < value && value < high

/-- The multiple of `10 ^ place` next to the double that lies in its interval. -/
def Binary.nearestOn (b : Binary) (place : Int) : Option Nat :=
  let num := b.mantissa * Nat.pow 2 b.exponent.toNat * Nat.pow 10 (-place).toNat
  let den := Nat.pow 2 (-b.exponent).toNat * Nat.pow 10 place.toNat
  let below := num / den
  let twice := 2 * (num - below * den)
  match b.covers below place, b.covers (below + 1) place with
  | true, true =>
    if twice < den || (twice == den && below % 2 == 0) then some below else some (below + 1)
  | true, false => some below
  | false, true => some (below + 1)
  | false, false => none

/-- The zeros between the point and the first digit of `num / den < 1`. -/
def leadingZeros (den : Nat) : Nat → Nat → Nat
  | 0, _ => 0
  | fuel + 1, num => if den ≤ num * 10 then 0 else leadingZeros den fuel (num * 10) + 1

/-- How many digits stand before the point; below one, minus the zeros after it. -/
def Binary.digitsBeforePoint (b : Binary) : Int :=
  let num := b.mantissa * Nat.pow 2 b.exponent.toNat
  let den := Nat.pow 2 (-b.exponent).toNat
  if den ≤ num then (Nat.toDigits 10 (num / den)).length
  else -(leadingZeros den 330 num : Int)

/-- The digits of the shortest decimal and the place of the last of them: the first of
the grids of `1` to `17` digits that has a point in the interval. -/
def Binary.shortest (b : Binary) : Nat × Int :=
  let before := b.digitsBeforePoint
  ((List.range 17).findSome? fun (n : Nat) =>
    let place := before - (n + 1)
    (b.nearestOn place).map (·, place)).getD (0, 0)

/-- Digits without the zeros at their end, which move into the place. -/
def trimZeros (digits : List Char) (place : Int) : List Char × Int :=
  let kept := (digits.reverse.dropWhile (· == '0')).reverse
  (kept, place + (digits.length - kept.length : Nat))

/-- How digits are laid out: positionally, or with an exponent outside `-4 … 15`. -/
def layOut (digits : List Char) (place : Int) : List Char :=
  let before := digits.length + place
  let exponent := before - 1
  if -4 ≤ exponent && exponent < 16 then
    if before ≤ 0 then '0' :: '.' :: List.replicate (-before).toNat '0' ++ digits
    else if 0 ≤ place then digits ++ List.replicate place.toNat '0' ++ ['.', '0']
    else digits.take before.toNat ++ '.' :: digits.drop before.toNat
  else
    let power := Nat.toDigits 10 exponent.natAbs
    let power := if power.length < 2 then '0' :: power else power
    let point := if digits.length ≤ 1 then [] else ['.']
    digits.take 1 ++ point ++ digits.drop 1 ++
      'e' :: (if exponent < 0 then '-' else '+') :: power

/-- The text of a double that reads back as the same double. -/
def floatText (x : Float) : String :=
  if x.isNaN then "nan"
  else
    let bits := x.toBits
    let sign := if Nat.pow 2 63 ≤ bits.toNat then "-" else ""
    if x.isInf then sign ++ "inf"
    else
      let magnitude := Binary.ofBits bits
      if magnitude.mantissa = 0 then sign ++ "0.0"
      else
        let (digits, place) := magnitude.shortest
        let (digits, place) := trimZeros (Nat.toDigits 10 digits) place
        sign ++ String.ofList (layOut digits place)

end BrokerClient.Decimal

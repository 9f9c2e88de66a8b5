/-!
# Doubles as exact products

Every finite double is, up to its sign, an exact product `mantissa * 2 ^ exponent`. The
whole part of a double and the test for a whole number are taken from that product, so
they are right for doubles of any size.
-/
namespace BrokerClient.Decimal

/-- The magnitude of a finite double, `mantissa * 2 ^ exponent`. The gap to the next
smaller double is half as wide as the gap above when `narrowBelow` holds. -/
structure Binary where
  mantissa : Nat
  exponent : Int
  narrowBelow : Bool

/-- The magnitude that the bits of a finite double stand for. -/
def Binary.ofBits (bits : UInt64) : Binary :=
  let fraction : Nat := bits.toNat % Nat.pow 2 52
  let biased : Nat := bits.toNat / Nat.pow 2 52 % Nat.pow 2 11
  if biased = 0 then ⟨fraction, -1074, false⟩
  else ⟨fraction + Nat.pow 2 52, Int.ofNat biased - 1075, fraction == 0 && 1 < biased⟩

/-- The whole number that a magnitude is, if it is one. -/
def Binary.whole? (b : Binary) : Option Nat :=
  let divisor := Nat.pow 2 (-b.exponent).toNat
  if b.mantissa % divisor = 0 then some (b.mantissa / divisor * Nat.pow 2 b.exponent.toNat)
  else none

/-- The integer that a double is, if it is finite and whole. -/
def whole? (x : Float) : Option Int :=
  if x.isNaN || x.isInf then none
  else
    (Binary.ofBits x.toBits).whole?.map fun n => if x < 0 then -(n : Int) else n

end BrokerClient.Decimal

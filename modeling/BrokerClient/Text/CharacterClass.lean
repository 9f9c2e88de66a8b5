/-!
# Character classes given by ranges of code points

A class is a sorted table of closed ranges. This module says what membership in
such a table is; the tables of the individual classes stand beside their use.
-/
namespace BrokerClient.Text

/-- A class of characters as closed ranges of code points. -/
abbrev CodeRanges := Array (Nat × Nat)

/-- A character belongs to the class when one of the ranges contains it. -/
def CodeRanges.contains (ranges : CodeRanges) (c : Char) : Bool :=
  ranges.any fun (first, last) => first ≤ c.toNat && c.toNat ≤ last

end BrokerClient.Text

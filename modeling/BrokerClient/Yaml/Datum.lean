import BrokerClient.Value.Equality
import BrokerClient.Yaml.Graph

/-!
# Data

What the nodes of a document stand for. Of a set or a mapping inside of a document only the
number of members is kept, because no setting has one of them as its value; of a list it is
also kept where it stands, because a list of texts can say how settings are read. A datum that
is no collection can be a name; two names are the same if they are equal as numbers, as points
in time, or as texts.
-/
namespace BrokerClient.Yaml

/-- What a node stands for. -/
inductive Datum where
  /-- A null, a truth value, a number, a text or bytes. -/
  | value (v : Value)
  | moment (m : Moment)
  /-- A list at a node. -/
  | list (node : NodeId) (size : Nat)
  | set (size : Nat)
  | mapping (size : Nat)

namespace Datum

/-- A datum that can be a name in a mapping. -/
def isName : Datum → Bool
  | value _ | moment _ => true
  | _ => false

/-- The code points of the text of a name. -/
def points : Datum → List Nat
  | value (.torn points) => points
  | value v => Text.points v.text
  | moment m => m.text.toList.map Char.toNat
  | _ => []

/-- The value of a setting. A point in time and a collection are values that no setting has;
they stand as lists and objects of as many members. -/
def toValue : Datum → Value
  | value v => v
  | moment _ => .obj [("", .null)]
  | list _ n | set n => .arr (List.replicate n .null)
  | mapping n => .obj (List.replicate n ("", .null))

/-- Two values that are the same name. As a name, not a number is one value. -/
def sameValue (v w : Value) : Bool :=
  match v, w with
  | .float x, .float y => x == y || (x.isNaN && y.isNaN)
  | v, w => v.same w

/-- Two data that are the same name. -/
def sameName : Datum → Datum → Bool
  | value v, value w => sameValue v w
  | moment m, moment m' => m.same m'
  | _, _ => false

end Datum

/-- Writes a pair: in place if the name is there, at the end otherwise. -/
def putDatum (pairs : List (Datum × Datum)) (name value : Datum) : List (Datum × Datum) :=
  match pairs with
  | [] => [(name, value)]
  | (n, v) :: rest =>
    if n.sameName name then (n, value) :: rest else (n, v) :: putDatum rest name value

end BrokerClient.Yaml

import BrokerClient.Decimal.Binary
import BrokerClient.Value

/-!
# Equal values

Two values are equal as numbers, as texts, or member by member; the order of an object's
fields does not count. A truth value is zero or one, and a word is its text. Not a number
is not equal to itself.
-/
namespace BrokerClient.Value

/-- The integer that a value is as a number. Truth values are zero and one. -/
def wholeNumber? : Value → Option Int
  | bool b => some (if b then 1 else 0)
  | int n => some n
  | float x => Decimal.whole? x
  | _ => none

/-- Two values are the same number. -/
def sameNumber (v w : Value) : Bool :=
  match v.wholeNumber?, w.wholeNumber? with
  | some n, some m => n == m
  | none, none =>
    match v, w with
    | float x, float y => x == y
    | _, _ => false
  | _, _ => false

/-- Two values are the same text. -/
def sameText (v w : Value) : Bool :=
  match v.asText?, w.asText? with
  | some s, some t => s == t
  | _, _ => false

mutual

/-- Two values are equal. -/
def same : Value → Value → Bool
  | null, null => true
  | torn points, torn others => points == others
  | bytes data, bytes others => data == others
  | thing kind name, thing kind' name' => kind == kind' && name == name'
  | arr items, arr others => sameItems items others
  | obj fields, obj others => fields.length == others.length && sameFields fields others
  | v, w => sameNumber v w || sameText v w

/-- The items of two lists are equal. -/
def sameItems : List Value → List Value → Bool
  | [], [] => true
  | v :: rest, w :: others => same v w && sameItems rest others
  | _, _ => false

/-- The fields of one object are in another one too. -/
def sameFields : List (String × Value) → Mapping Value → Bool
  | [], _ => true
  | (name, v) :: rest, others =>
    (match others.find? name with
      | some w => same v w
      | none => false) && sameFields rest others

end

/-- A value can be looked up. Lists and objects cannot. -/
def isKey : Value → Bool
  | arr _ | obj _ => false
  | _ => true

theorem same_str (s t : String) : (str s).same (str t) = (s == t) := by
  simp [same, sameNumber, sameText, wholeNumber?, asText?]

end BrokerClient.Value

import BrokerClient.Decimal.Reading
import BrokerClient.Decimal.Shortest
import BrokerClient.Mapping
import BrokerClient.Text.Bytes
import BrokerClient.Text.Points
import BrokerClient.Value.Word

/-!
# Values on the wire

The values that a response holds and that a request parameter can have. A value has a
kind, whose name stands in messages, a truth value, and a text. Inside a list or an
object a text is quoted; by itself it is written as it is. `Value.wire?` is the text
that is sent to the server, which differs from the text for the two booleans only. There is
none if an integer is too long to be written. Bytes, words and things come from callers and not
from responses.
-/
namespace BrokerClient

/-- A null, a truth value, a number, a text, bytes, a word, a thing, a list or an object. A
torn text is given by its code points, because some of them are no characters. -/
inductive Value where
  | null
  | bool (b : Bool)
  | int (n : Int)
  | float (x : Float)
  | str (s : String)
  | torn (points : List Nat)
  | bytes (data : List UInt8)
  | word (w : Word)
  | thing (kind : ThingKind) (name : String)
  | arr (items : List Value)
  | obj (fields : List (String × Value))

namespace Value

instance : Inhabited Value := ⟨.null⟩

/-- The name of a value's kind in messages. -/
def kindName : Value → String
  | null => "NoneType"
  | bool _ => "bool"
  | int _ => "int"
  | float _ => "float"
  | str _ | torn _ => "str"
  | bytes _ => "bytes"
  | word w => w.kindName
  | thing kind _ => kind.name
  | arr _ => "list"
  | obj _ => "dict"

/-- Null, false, zero and whatever is empty do not count as given. -/
def isGiven : Value → Bool
  | null => false
  | bool b => b
  | int n => n != 0
  | float x => x != 0
  | str s => s != ""
  | torn points => !points.isEmpty
  | bytes data => !data.isEmpty
  | word _ | thing .. => true
  | arr items => !items.isEmpty
  | obj fields => !fields.isEmpty

/-- The text of code points as a value, torn if it holds a half of a surrogate pair. -/
def ofPoints (points : List Nat) : Value :=
  if points.any Text.isHalf then torn points else str (Text.ofPoints points)

/-- A value is null. -/
def isNull : Value → Bool
  | null => true
  | _ => false

theorem isNull_eq_false {v : Value} : v.isNull = false ↔ v ≠ null := by
  cases v <;> simp [isNull]

mutual

/-- The text of a value inside a list or an object. -/
def inner : Value → String
  | null => "None"
  | bool b => if b then "True" else "False"
  | int n => toString n
  | float x => Decimal.floatText x
  | str s => Text.quoted s
  | torn points => Text.quotedPoints points
  | bytes data => Text.quotedBytes data
  | word w => w.inner
  | thing kind name => kind.name ++ "(name=" ++ Text.quoted name ++ ")"
  | arr items => "[" ++ String.intercalate ", " (innerList items) ++ "]"
  | obj fields => "\x7b" ++ String.intercalate ", " (innerFields fields) ++ "\x7d"

/-- The texts of the members of a list. -/
def innerList : List Value → List String
  | [] => []
  | v :: rest => inner v :: innerList rest

/-- The texts of the members of an object, name and value. -/
def innerFields : List (String × Value) → List String
  | [] => []
  | (name, v) :: rest => (Text.quoted name ++ ": " ++ inner v) :: innerFields rest

end

/-- The text of a value. -/
def text : Value → String
  | str s => s
  | torn points => Text.ofPoints points
  | word w => w.text
  | thing _ name => "name=" ++ Text.quoted name
  | v => v.inner

mutual

/-- No integer in a value is too long to be written. -/
def isWritable : Value → Bool
  | int n => Decimal.isWritable n
  | arr items => areWritable items
  | obj fields => holdWritable fields
  | _ => true

/-- No integer in the members of a list is too long. -/
def areWritable : List Value → Bool
  | [] => true
  | v :: rest => isWritable v && areWritable rest

/-- No integer in the members of an object is too long. -/
def holdWritable : List (String × Value) → Bool
  | [] => true
  | (_, v) :: rest => isWritable v && holdWritable rest

end

/-- The text that a value would be sent as, however long its integers are. -/
def wireText : Value → String
  | bool b => if b then "true" else "false"
  | v => v.text

/-- The text that a value is sent as, if it can be written. -/
def wire? (v : Value) : Option String := if v.isWritable then some v.wireText else none

@[simp] theorem wire?_str (s : String) : (str s).wire? = some s := rfl

theorem wire?_of_isWritable {v : Value} (h : v.isWritable = true) : v.wire? = some v.wireText :=
  if_pos h

theorem wire?_eq_none {v : Value} : v.wire? = none ↔ v.isWritable = false := by
  simp [wire?]

theorem wire?_eq_some {v : Value} {s : String} :
    v.wire? = some s ↔ v.isWritable = true ∧ v.wireText = s := by
  simp [wire?]

/-- The text that a value is, if it is one. A word is a text. -/
def asText? : Value → Option String
  | str s => some s
  | word w => some w.text
  | _ => none

/-- A field of an object; no other value has fields. -/
def field? (name : String) : Value → Option Value
  | obj fields => Mapping.find? fields name
  | _ => none

end Value

/-- Request parameters: names with their values, in the order of the caller. -/
abbrev Parameters := Mapping Value

end BrokerClient

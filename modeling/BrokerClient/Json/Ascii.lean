import BrokerClient.Record.Verdict
import BrokerClient.Text.Quoted

/-!
# JSON strings in ASCII

The JSON text of a string in which every character but the printable ASCII ones is
escaped, characters beyond the basic plane as two units. Issues of a record can be put
into the order of the JSON text of their paths.
-/
namespace BrokerClient.Json

/-- A UTF-16 unit as an escape. -/
def escapeUnit (n : Nat) : List Char := '\\' :: 'u' :: Text.hexDigits 4 n

/-- A character of a JSON string. -/
def escapeChar (c : Char) : List Char :=
  if c = '"' then ['\\', '"']
  else if c = '\\' then ['\\', '\\']
  else if c = '\n' then ['\\', 'n']
  else if c = '\r' then ['\\', 'r']
  else if c = '\t' then ['\\', 't']
  else if c = '\x08' then ['\\', 'b']
  else if c = '\x0c' then ['\\', 'f']
  else if ' ' ≤ c && c ≤ '~' then [c]
  else if c.toNat < 0x10000 then escapeUnit c.toNat
  else
    let above := c.toNat - 0x10000
    escapeUnit (0xD800 + above / 0x400) ++ escapeUnit (0xDC00 + above % 0x400)

/-- The JSON text of a string. -/
def asciiText (s : String) : String := "\"" ++ String.ofList (s.toList.flatMap escapeChar) ++ "\""

/-- The JSON text of a path. -/
def pathText (path : List Record.Step) : String :=
  let steps := path.map fun step =>
    match step with
    | .field name => asciiText name
    | .item index => toString index
  "[" ++ String.intercalate ", " steps ++ "]"

/-- Issues in the order of the JSON text of path and problem. -/
def sortIssues (issues : List Record.Issue) : List Record.Issue :=
  let key (i : Record.Issue) := "[" ++ pathText i.path ++ ", " ++ asciiText i.problem.word ++ "]"
  issues.mergeSort fun a b => key a ≤ key b

end BrokerClient.Json

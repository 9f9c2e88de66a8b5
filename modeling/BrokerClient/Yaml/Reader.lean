import BrokerClient.Yaml.Content
import BrokerClient.Yaml.Token.Stream

/-!
# Reading YAML

A text is cut into tokens, the tokens become the graph of a document, and its nodes become
data. Carriage returns count as line feeds, and a text that holds a character which is not
meant to be read is refused before anything else is looked at.
-/
namespace BrokerClient.Yaml

/-- A character that a text may hold. -/
def isAllowed (c : Char) : Bool :=
  let n := c.toNat
  n == 0x9 || n == 0xa || n == 0xd || (0x20 ≤ n && n ≤ 0x7e) || n == 0x85 ||
    (0xa0 ≤ n && n ≤ 0xfffd) || 0x10000 ≤ n

/-- A text with line feeds in place of carriage returns. -/
def normalized : List Char → List Char
  | '\r' :: '\n' :: rest => '\n' :: normalized rest
  | '\r' :: rest => '\n' :: normalized rest
  | c :: rest => c :: normalized rest
  | [] => []

/-- The content of a text. -/
def read (text : String) : Except Failure Content := do
  let chars := normalized text.toList
  if !chars.all isAllowed then throw .malformed
  let document ← Document.ofTokens (.ofText chars)
  document.content

end BrokerClient.Yaml

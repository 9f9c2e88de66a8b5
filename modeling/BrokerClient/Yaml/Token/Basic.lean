import BrokerClient.Yaml.Tag

/-!
# Tokens

The parts of a YAML text in the order of their meaning. Where lists and mappings in block
notation start and end is told by indentation, so the tokens for that have no text of their
own, and the token for a name of a mapping stands in front of the name although only the colon
behind it shows that it is one.
-/
namespace BrokerClient.Yaml

/-- A part of a text. -/
inductive Token where
  | directive (directive : Directive)
  | documentStart
  | documentEnd
  | streamEnd
  | listStart
  | mappingStart
  | blockEnd
  /-- The mark of an item in block notation. -/
  | item
  | flowListStart
  | flowListEnd
  | flowMappingStart
  | flowMappingEnd
  /-- The comma in flow notation. -/
  | comma
  | key
  | value
  | reference (name : String)
  | anchor (name : String)
  | tag (tag : WrittenTag)
  | scalar (points : List Nat) (isPlain : Bool)

/-- The tokens of a text, as far as they are known, and the failure that is met behind
them. -/
structure Tokens where
  known : List Token
  failure : Failure

end BrokerClient.Yaml

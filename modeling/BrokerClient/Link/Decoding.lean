import BrokerClient.Link.Basic
import BrokerClient.Record.Field
import BrokerClient.Text.Lowercase

/-!
# Decoding links

A link and its parameters are decoded from objects. In a mapping of links the relation
of a link may be left out, or be null, zero or empty: its name in the mapping takes that
place. The same rule holds for the links of a resource and for those of the API root.
-/
namespace BrokerClient

open Record Verdict

namespace LinkParameter

/-- The kind of a parameter: a word in any case; null means `string`. -/
def decodeKind : Value → Verdict String
  | .null => accepted "string"
  | .str s => accepted (Text.lowercase s)
  | .word w => accepted (Text.lowercase w.text)
  | .torn points => accepted (Text.lowercase (Text.ofPoints points))
  | v => string v

/-- A default value is kept as the text that would be sent. -/
def decodeDefault : Value → Verdict (Option String)
  | .null => accepted none
  | v =>
    match v.wire? with
    | some s => accepted (some s)
    | none => problem .unwritable

/-- The options as the texts that would be sent. A text is gone through by its
characters, bytes by their numbers, an object by its names and a thing by its only field;
other values cannot be gone through. -/
def decodeOptions : Value → Verdict (List String)
  | .null => accepted []
  | .arr items =>
    match items.mapM Value.wire? with
    | some options => accepted options
    | none => problem .unwritable
  | .str s => accepted (Text.letters s)
  | .word w => accepted (Text.letters w.text)
  | .bytes data => accepted (data.map fun byte => toString byte.toNat)
  | .thing _ name => accepted ["('name', " ++ Text.quoted name ++ ")"]
  | .torn points => accepted (points.map fun point => Text.ofPoints [point])
  | .obj fields => accepted (Mapping.names fields)
  | v => aborted v.kindName

/-- The declaration of a parameter. -/
def decode : Value → Verdict LinkParameter :=
  object fun fields =>
    mk <$> required "name" string fields
      <*> defaulted "type" "string" decodeKind fields
      <*> defaulted "default_value" none decodeDefault fields
      <*> defaulted "description" none (nullable string) fields
      <*> defaulted "valid_options" [] decodeOptions fields

end LinkParameter

namespace Link

/-- The relation is read from `rel`, and from `relation` where that is absent. -/
def decodeRelation (fields : Mapping Value) : Verdict String :=
  if fields.has "rel" then required "rel" string fields
  else defaulted "relation" "" string fields

/-- One of the four methods, in any case. -/
def decodeMethod : Value → Verdict Method
  | .torn _ => problem .tornText
  | v =>
    match v.asText?.bind Method.recognize? with
    | some method => accepted method
    | none => problem .notOfWords

/-- A list of parameters; null means none. -/
def decodeParams : Value → Verdict (List LinkParameter)
  | .null => accepted []
  | v => sequence LinkParameter.decode v

/-- A link. -/
def decode : Value → Verdict Link :=
  object fun fields =>
    mk <$> decodeRelation fields
      <*> required "href" string fields
      <*> defaulted "method" .get decodeMethod fields
      <*> defaulted "required_params" [] decodeParams fields
      <*> defaulted "optional_params" [] decodeParams fields

/-- The link object with its name in the mapping as relation, if it gives none itself. -/
def named (name : String) : Value → Value
  | .obj fields =>
    if ((Mapping.find? fields "rel").getD .null).isGiven then .obj fields
    else .obj (Mapping.put fields "rel" (.str name))
  | v => v

/-- A link under its name in a mapping. -/
def decodeNamed (name : String) (v : Value) : Verdict Link := decode (named name v)

/-- The links of a resource; null means none. -/
def decodeMap : Value → Verdict (Mapping Link)
  | .null => accepted []
  | .obj fields => eachPair decodeNamed fields
  | _ => problem .notMapping

end Link

end BrokerClient

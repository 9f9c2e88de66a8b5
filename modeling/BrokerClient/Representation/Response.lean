import BrokerClient.Error.Fault
import BrokerClient.Json.Reader
import BrokerClient.Representation.Decoding
import BrokerClient.Service.Body

/-!
# Responses

A response body is an envelope: a type, data and messages. The type says how the data is
decoded; data of an unknown type is kept as it is. The messages of a response become the
creation log of the single resource in it. A body that is absent or blank is no response.
-/
namespace BrokerClient

open BrokerClient.Representation Record

/-- The data of a response. -/
inductive Payload where
  | absent
  | links (links : Mapping Link)
  | user (r : User)
  | domain (r : Domain)
  | application (r : Application)
  | cartridge (r : Cartridge)
  | gear (r : Gear)
  | key (r : Key)
  | domains (rs : List Domain)
  | applications (rs : List Application)
  | cartridges (rs : List Cartridge)
  | gears (rs : List Gear)
  | keys (rs : List Key)
  | plain (v : Value)

/-- The name of a payload's kind in messages. -/
def Payload.kindName : Payload → String
  | absent => "NoneType"
  | links _ => "dict"
  | user _ => RecordKind.user.name
  | domain _ => RecordKind.domain.name
  | application _ => RecordKind.application.name
  | cartridge _ => RecordKind.cartridge.name
  | gear _ => RecordKind.gear.name
  | key _ => RecordKind.key.name
  | domains _ | applications _ | cartridges _ | gears _ | keys _ => "list"
  | plain v => v.kindName

/-- A decoded envelope. -/
structure Response where
  type : String
  data : Payload
  messages : List Message

namespace Response

/-- The outcome of decoding a record of a kind. -/
def ofVerdict {α : Type} (kind : RecordKind) : Verdict α → Except Fault α
  | .accepted a => .ok a
  | .rejected issues => .error (.decode (.record kind issues))
  | .aborted kindName => .error (.notIterable kindName)

/-- A record of a kind. -/
def decodeRecord {α : Type} (kind : RecordKind) (decode : Value → Verdict α) (v : Value) :
    Except Fault α :=
  ofVerdict kind (decode v)

/-- The records of a list; the first that fails is reported. -/
def decodeRecords {α : Type} (kind : RecordKind) (decode : Value → Verdict α)
    (responseType : String) : Value → Except Fault (List α)
  | .arr items => items.mapM (decodeRecord kind decode)
  | _ => .error (.decode (.listExpected responseType))

/-- The links of a mapping; the first that fails is reported. -/
def decodeLinks : Value → Except Fault (Mapping Link)
  | .obj fields =>
    fields.mapM fun (name, v) => do
      let link ← decodeRecord .link (Link.decodeNamed name) v
      pure (name, link)
  | _ => .error (.decode .linksExpected)

/-- The creation log of a single resource: the messages of the response, if there are
any. -/
def withLog (messages : List Message) (common : Common) : Common :=
  if messages.isEmpty then common else { common with creationLog := messages }

/-- The data of a response of a type. -/
def decodeData (type : String) (messages : List Message) (data : Value) :
    Except Fault Payload :=
  if data.isNull then .ok .absent
  else
    match type with
    | "links" => .links <$> decodeLinks data
    | "user" => do
      let r ← decodeRecord .user User.decode data
      pure (.user { r with toCommon := withLog messages r.toCommon })
    | "domain" => do
      let r ← decodeRecord .domain Domain.decode data
      pure (.domain { r with toCommon := withLog messages r.toCommon })
    | "application" => do
      let r ← decodeRecord .application Application.decode data
      pure (.application { r with toCommon := withLog messages r.toCommon })
    | "cartridge" => do
      let r ← decodeRecord .cartridge Cartridge.decode data
      pure (.cartridge { r with toCommon := withLog messages r.toCommon })
    | "gear" => .gear <$> decodeRecord .gear Gear.decode data
    | "key" => do
      let r ← decodeRecord .key Key.decode data
      pure (.key { r with toCommon := withLog messages r.toCommon })
    | "domains" => .domains <$> decodeRecords .domain Domain.decode type data
    | "applications" => .applications <$> decodeRecords .application Application.decode type data
    | "cartridges" => .cartridges <$> decodeRecords .cartridge Cartridge.decode type data
    | "gears" => .gears <$> decodeRecords .gear Gear.decode type data
    | "keys" => .keys <$> decodeRecords .key Key.decode type data
    | _ => .ok (.plain data)

/-- The messages of an envelope; whatever is empty or null means none. -/
def decodeMessages (v : Value) : Except Fault (List Message) :=
  if !v.isGiven then .ok []
  else
    match v with
    | .arr items => items.mapM (decodeRecord .message Message.decode)
    | v => .error (.decode (.messages v.kindName))

/-- The envelope that a value is. -/
def ofValue : Value → Except Fault Response
  | .obj fields => do
    let given := (Mapping.find? fields "type").getD .null
    let type := if given.isGiven then given.text else ""
    let messages ← decodeMessages ((Mapping.find? fields "messages").getD .null)
    let data ← decodeData type messages ((Mapping.find? fields "data").getD .null)
    pure ⟨type, data, messages⟩
  | v => .error (.decode (.payload v.kindName))

/-- The response in the text of a body, read down to a depth; none if the text is blank. -/
def ofText (depth : Nat) (s : String) : Except Fault (Option Response) :=
  if Text.isBlank s then .ok none
  else
    match Json.read depth s with
    | .error .malformed => .error (.decode .notJson)
    | .error (.oversized digits) => .error (.decode (.oversizedInteger digits))
    | .error (.tooDeep shape) => .error (.tooDeep shape)
    | .ok v => some <$> ofValue v

/-- The response in a body, read down to a depth; none if the body is absent or blank. -/
def ofBody (depth : Nat) : Body → Except Fault (Option Response)
  | .absent => .ok none
  | .text s => ofText depth s
  | .bytes data =>
    match Text.ofBytes? data with
    | none => .error (.decode .notUtf8)
    | some s => ofText depth s

end Response

end BrokerClient

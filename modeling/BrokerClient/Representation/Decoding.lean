import BrokerClient.Link.Decoding
import BrokerClient.Representation.Basic

/-!
# Decoding representations

Which fields a representation has, what each of them accepts, and the defaults of those
that may be absent. Fields with other names are passed over.
-/
namespace BrokerClient

open Record Verdict

/-- A message of the server. -/
def Message.decode : Value → Verdict Message :=
  object fun fields =>
    mk <$> defaulted "text" "" string fields
      <*> defaulted "severity" "info" string fields
      <*> defaulted "field" none (nullable string) fields
      <*> defaulted "exit_code" none (nullable integer) fields

/-- The algorithm of an SSH key, by its word. -/
def KeyType.decode : Value → Verdict KeyType
  | .str s =>
    if s = rsa.word then accepted rsa
    else if s = dsa.word then accepted dsa
    else problem .notOfEnumeration
  | .torn _ => problem .tornText
  | _ => problem .notOfEnumeration

namespace Representation

/-- The links and the creation log of a representation. -/
def Common.decode (fields : Mapping Value) : Verdict Common :=
  mk <$> defaulted "links" [] Link.decodeMap fields
    <*> defaulted "creation_log" [] (sequence Message.decode) fields

/-- A user. -/
def User.decode : Value → Verdict User :=
  object fun fields =>
    mk <$> Common.decode fields
      <*> required "login" string fields
      <*> defaulted "consumed_gears" 0 integer fields
      <*> defaulted "max_gears" 0 integer fields

/-- A domain. -/
def Domain.decode : Value → Verdict Domain :=
  object fun fields =>
    mk <$> Common.decode fields
      <*> required "id" string fields
      <*> defaulted "suffix" "" string fields

/-- Aliases; null means none. -/
def Application.decodeAliases : Value → Verdict (List String)
  | .null => accepted []
  | v => list string v

/-- An application. -/
def Application.decode : Value → Verdict Application :=
  object fun fields =>
    mk <$> Common.decode fields
      <*> required "name" string fields
      <*> defaulted "uuid" "" string fields
      <*> defaulted "framework" "" string fields
      <*> defaulted "creation_time" none (nullable timestamp) fields
      <*> defaulted "app_url" "" string fields
      <*> defaulted "git_url" "" string fields
      <*> defaulted "domain_id" "" string fields
      <*> defaulted "aliases" [] decodeAliases fields
      <*> defaulted "gear_profile" none (nullable string) fields
      <*> defaulted "scalable" false truth fields

/-- A cartridge. -/
def Cartridge.decode : Value → Verdict Cartridge :=
  object fun fields =>
    mk <$> Common.decode fields
      <*> required "name" string fields
      <*> defaulted "type" "embedded" string fields
      <*> defaulted "url" none (nullable string) fields

/-- Null, or the text of whatever value there is. -/
def Component.decodeText : Value → Verdict (Option String)
  | .null => accepted none
  | v => accepted (some v.text)

/-- A component of a gear. -/
def Component.decode : Value → Verdict Component :=
  object fun fields =>
    mk <$> required "name" string fields
      <*> defaulted "internal_port" none decodeText fields
      <*> defaulted "proxy_host" none (nullable string) fields
      <*> defaulted "proxy_port" none decodeText fields

/-- A gear. -/
def Gear.decode : Value → Verdict Gear :=
  object fun fields =>
    mk <$> required "uuid" string fields
      <*> defaulted "git_url" none (nullable string) fields
      <*> defaulted "components" [] (list Component.decode) fields

/-- An SSH key. -/
def Key.decode : Value → Verdict Key :=
  object fun fields =>
    mk <$> Common.decode fields
      <*> required "name" string fields
      <*> required "type" KeyType.decode fields
      <*> required "content" string fields

end Representation

end BrokerClient

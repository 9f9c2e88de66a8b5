import BrokerClient.Text.Points

/-!
# Words and things

Values that no response holds, but that a caller can pass. A word is a member of one of two
enumerations; it counts as the text that it is sent as, and only inside of a list or an
object its text tells it from that. A thing is known by its kind and its name.
-/
namespace BrokerClient

/-- How an application scales, or the algorithm of an SSH key. -/
inductive Word where
  | scaled
  | unscaled
  | rsa
  | dsa
  deriving DecidableEq, Repr

namespace Word

/-- The text that a word is. -/
def text : Word → String
  | scaled => "true"
  | unscaled => "false"
  | rsa => "ssh-rsa"
  | dsa => "ssh-dss"

/-- The name of the enumeration that a word is in. -/
def kindName : Word → String
  | scaled | unscaled => "ApplicationScale"
  | rsa | dsa => "SSHKeyType"

/-- The name of a word in its enumeration. -/
def name : Word → String
  | scaled => "SCALE"
  | unscaled => "NO_SCALE"
  | rsa => "SSH_RSA"
  | dsa => "SSH_DSA"

/-- The text of a word inside a list or an object. -/
def inner (w : Word) : String :=
  "<" ++ w.kindName ++ "." ++ w.name ++ ": " ++ Text.quoted w.text ++ ">"

end Word

/-- The kinds of things. -/
inductive ThingKind where
  | cartridge
  | gearProfile
  deriving DecidableEq, Repr

/-- The name of a kind of things in messages. -/
def ThingKind.name : ThingKind → String
  | cartridge => "Cartridge"
  | gearProfile => "GearProfile"

end BrokerClient

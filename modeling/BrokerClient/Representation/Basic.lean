import BrokerClient.Link.Basic
import BrokerClient.Timestamp.Basic

/-!
# Representations

The records by which the server represents its resources. Each but that of a gear holds
the links that the resource offers and the messages of its creation.
-/
namespace BrokerClient

/-- A message of the server, for instance about the progress of a creation. -/
structure Message where
  text : String
  severity : String
  field : Option String
  exitCode : Option Int
  deriving DecidableEq, Repr

/-- The algorithms of SSH keys. -/
inductive KeyType where
  | rsa
  | dsa
  deriving DecidableEq, Repr

/-- The word for an algorithm. -/
def KeyType.word : KeyType → String
  | rsa => "ssh-rsa"
  | dsa => "ssh-dss"

namespace Representation

/-- What the representations of resources have in common. -/
structure Common where
  links : Mapping Link
  creationLog : List Message
  deriving DecidableEq, Repr

/-- A user. -/
structure User extends Common where
  login : String
  consumedGears : Int
  maxGears : Int
  deriving DecidableEq, Repr

/-- A domain; its id is a name space. -/
structure Domain extends Common where
  id : String
  suffix : String
  deriving DecidableEq, Repr

/-- An application. -/
structure Application extends Common where
  name : String
  uuid : String
  framework : String
  creationTime : Option Timestamp
  appUrl : String
  gitUrl : String
  domainId : String
  aliases : List String
  gearProfile : Option String
  scalable : Bool
  deriving DecidableEq, Repr

/-- A cartridge. -/
structure Cartridge extends Common where
  name : String
  type : String
  url : Option String
  deriving DecidableEq, Repr

/-- A component that runs on a gear. -/
structure Component where
  name : String
  internalPort : Option String
  proxyHost : Option String
  proxyPort : Option String
  deriving DecidableEq, Repr

/-- A gear, which the server works out and no request changes. -/
structure Gear where
  uuid : String
  gitUrl : Option String
  components : List Component
  deriving DecidableEq, Repr

/-- An SSH key. -/
structure Key extends Common where
  name : String
  type : KeyType
  content : String
  deriving DecidableEq, Repr

end Representation

end BrokerClient

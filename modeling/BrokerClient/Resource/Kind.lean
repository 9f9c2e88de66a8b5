/-!
# Kinds of resources and records

The kinds of resources that make up the hierarchy and of records that responses hold,
with the names by which messages call them.
-/
namespace BrokerClient

/-- The kinds of resources. A bare resource has links and a creation log only. -/
inductive ResourceKind where
  | connection
  | user
  | domain
  | application
  | cartridge
  | key
  | bare
  deriving DecidableEq, Repr

namespace ResourceKind

/-- The name of a resource's kind in messages about links. -/
def name : ResourceKind → String
  | connection => "Connection"
  | user => "User"
  | domain => "DomainResource"
  | application => "ApplicationResource"
  | cartridge => "EmbeddedCartridgeResource"
  | key => "SSHKeyResource"
  | bare => "ApiResource"

/-- The name of a resource's kind in messages about a name that is taken. -/
def label : ResourceKind → String
  | connection => "Connection"
  | user => "User"
  | domain => "Domain"
  | application => "Application"
  | cartridge => "Embedded cartridge"
  | key => "SSH key"
  | bare => "Resource"

end ResourceKind

/-- The kinds of records that are decoded. -/
inductive RecordKind where
  | message
  | link
  | linkParameter
  | user
  | domain
  | application
  | cartridge
  | gear
  | key
  | healthCheck
  | configuration
  /-- A cartridge of which only the name is known. -/
  | namedCartridge
  deriving DecidableEq, Repr

/-- The name of a record's kind in messages. -/
def RecordKind.name : RecordKind → String
  | message => "Message"
  | link => "Link"
  | linkParameter => "LinkParameter"
  | user => "UserDTO"
  | domain => "DomainDTO"
  | application => "ApplicationDTO"
  | cartridge => "CartridgeDTO"
  | gear => "GearDTO"
  | key => "SSHKeyDTO"
  | healthCheck => "HealthCheck"
  | configuration => "ClientConfig"
  | namedCartridge => "Cartridge"

end BrokerClient

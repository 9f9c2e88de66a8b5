import BrokerClient.Hierarchy.Attributes

/-!
# Families of resources

A family is a kind of owner with the kind of members that it has: a connection has
domains, a domain applications, an application embedded cartridges, and a user SSH keys.
What the four have in common is done once for all of them; here stands where they differ.
-/
namespace BrokerClient.Hierarchy

/-- The families of owners and members, named for the members. -/
inductive Family where
  | domains
  | applications
  | cartridges
  | keys
  deriving DecidableEq, Repr

namespace Family

/-- The family whose owners are of a kind. -/
def ofOwner? : ResourceKind → Option Family
  | .connection => some domains
  | .domain => some applications
  | .application => some cartridges
  | .user => some keys
  | _ => none

/-- The kind of the members. -/
def memberKind : Family → ResourceKind
  | domains => .domain
  | applications => .application
  | cartridges => .cartridge
  | keys => .key

/-- The records that represent members. -/
def recordKind : Family → RecordKind
  | domains => .domain
  | applications => .application
  | cartridges => .cartridge
  | keys => .key

/-- The relation of the owner under which its members are listed. -/
def listRelation : Family → String
  | domains => Relation.listDomains
  | applications => Relation.listApplications
  | cartridges => Relation.listCartridges
  | keys => Relation.listKeys

/-- The relation of the owner under which a member is added. -/
def addRelation : Family → String
  | domains => Relation.addDomain
  | applications => Relation.addApplication
  | cartridges => Relation.addCartridge
  | keys => Relation.addKey

/-- A listed record counts as a member. Of the cartridges only the embedded ones do. -/
def admits : Family → Representation → Bool
  | cartridges, .cartridge r => r.type == "embedded"
  | _, _ => true

/-- What the log says about a new member of an owner. -/
def createdText : Family → (owner member : String) → String
  | domains, _, member => "Created domain " ++ member
  | applications, owner, member => "Created application " ++ member ++ " in domain " ++ owner
  | cartridges, owner, member => "Added cartridge " ++ member ++ " to application " ++ owner
  | keys, _, member => "Added ssh key " ++ member

end Family

/-- The relations that a resource of a kind is expected to offer. -/
def expectedRelations : ResourceKind → List String
  | .connection => [Relation.listDomains, Relation.addDomain, Relation.getUser]
  | .user => [Relation.listKeys, Relation.addKey]
  | .domain =>
    [Relation.get, Relation.listApplications, Relation.addApplication, Relation.update,
      Relation.delete]
  | .application =>
    [Relation.get, Relation.delete, Relation.start, Relation.stop, Relation.restart,
      Relation.addAlias, Relation.removeAlias, Relation.addCartridge, Relation.listCartridges,
      Relation.getGears]
  | .cartridge => [Relation.delete]
  | .key => [Relation.update, Relation.delete]
  | .bare => []

/-- What the log says about a resource that was destroyed, given the name of its owner. -/
def Attributes.destroyedText (owner : String) : Attributes → String
  | domain id _ => "Destroyed domain " ++ id
  | application a => "Destroyed application " ++ a.name
  | cartridge name _ _ => "Removed cartridge " ++ name ++ " from application " ++ owner
  | key name _ _ => "Destroyed ssh key " ++ name
  | attributes => "Destroyed " ++ attributes.kind.name

end BrokerClient.Hierarchy

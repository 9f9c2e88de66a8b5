import BrokerClient.Hierarchy.Creation
import BrokerClient.Hierarchy.Follow

/-!
# Owners and their members

The members of an owner are fetched when they are first asked for. A member is created
only if no member of its name is known; the owner then gets it at its end. A resource that
was destroyed is dropped from the members of its owner, if these are loaded and hold it.
A refresh replaces what is known of a resource and forgets its members.
-/
namespace BrokerClient.Hierarchy.Client

variable {σ : Type} (client : Client σ)

/-- Fetches the members of an owner and makes resources of them. -/
def fetchMembers (family : Family) (owner : Ref) : Action σ (List Ref) := do
  let representations ← client.fetchList owner family.listRelation family.recordKind
  modifyGet (·.adoptAll owner (representations.filter family.admits))

/-- The members of a resource; one that is no owner has none. -/
def members (owner : Ref) : Action σ (List Ref) := do
  match Family.ofOwner? ((← get).resource owner).kind with
  | some family => Lazy.load (World.members owner) (client.fetchMembers family owner)
  | none => pure []

/-- The first member of a name. A value that is no text is no name. -/
def member? (owner : Ref) (name : Value) : Action σ (Option Ref) := do
  let refs ← client.members owner
  let w ← get
  pure (refs.find? fun r => name.asText? == some (w.resource r).name)

/-- Refuses a request for an argument that lacks. -/
def demand : Option Argument → Action σ Unit
  | some argument => throw (.client (.invalidRequest (.notGiven argument)))
  | none => pure ()

/-- The parameters of a creation. -/
def parametersOf (creation : Creation) : Action σ Parameters :=
  match creation.parameters with
  | .ok parameters => pure parameters
  | .error f => throw (.fault f)

/-- Adds a member to an owner of a family. -/
def createIn (family : Family) (owner : Ref) (creation : Creation) : Action σ Ref := do
  if (← client.member? owner creation.name).isSome then
    throw (.client (.duplicate family.memberKind creation.name.text))
  let parameters ← parametersOf creation
  let representation ← client.fetchOne owner family.addRelation family.recordKind parameters
  let r ← modifyGet (·.adopt owner representation)
  modify (Lazy.edit (World.members owner) (· ++ [r]))
  let name := ((← get).resource owner).name
  modify (·.note (.info (family.createdText name representation.name)))
  pure r

/-- Creates a member of an owner. -/
def create (owner : Ref) (creation : Creation) : Action σ Ref := do
  demand creation.lacks?
  let kind := ((← get).resource owner).kind
  match Family.ofOwner? kind with
  | some family => client.createIn family owner creation
  | none => throw (.client (.invalidRequest (.linksUnavailable kind)))

/-- The parameters of the request that destroys a resource, and whether they are sent as a
body. A cartridge is destroyed by a request with an empty body. -/
def destruction (force : Value) : Attributes → Parameters × Bool
  | .domain .. => ([("force", force)], force.isGiven)
  | .cartridge .. => ([], true)
  | _ => ([], false)

/-- Destroys a resource. Force concerns domains only: it takes their applications along. -/
def destroy (r : Ref) (force : Value) : Action σ Unit := do
  let (parameters, deleteWithBody) := destruction force ((← get).resource r).attributes
  let _ ← client.follow r Relation.delete parameters deleteWithBody
  let x := (← get).resource r
  let _ ← (modifyGet (Lazy.remove (World.members x.owner) r) : Action σ Bool)
  let owner := ((← get).resource x.owner).name
  modify (·.note (.info (x.attributes.destroyedText owner)))

/-- The user of a connection, who is fetched once. -/
def user (connection : Ref) : Action σ Ref := do
  match ((← get).resource connection).attributes.user? with
  | some r => pure r
  | none =>
    let representation ← client.fetchOne connection Relation.getUser .user []
    let r ← modifyGet (·.adopt connection representation)
    modify (·.alter connection fun x => { x with attributes := x.attributes.withUser (some r) })
    pure r

/-- Where the representation of a resource comes from: the resource to ask, the relation
and the kind of record. A user is asked for at the connection; connections and bare
resources have none. -/
def source? (r : Ref) (x : Resource) : Option (Ref × String × RecordKind) :=
  match x.kind with
  | .user => some (x.owner, Relation.getUser, .user)
  | .domain => some (r, Relation.get, .domain)
  | .application => some (r, Relation.get, .application)
  | .cartridge => some (r, Relation.get, .cartridge)
  | .key => some (r, Relation.get, .key)
  | .connection | .bare => none

/-- Has a connection forget its links and its user. -/
def discard (x : Resource) : Resource :=
  match x.kind with
  | .connection => { x with catalog := none, attributes := x.attributes.withUser none }
  | _ => x

/-- Replaces what is known of a resource and forgets its members and gears. -/
def refresh (r : Ref) : Action σ Unit := do
  match source? r ((← get).resource r) with
  | some (asked, relation, kind) =>
    let representation ← client.fetchOne asked relation kind []
    modify (·.accept r representation)
  | none => modify (·.alter r discard)
  modify (Lazy.invalidate (World.members r))
  modify (Lazy.invalidate (World.gears r))

/-- The gears of an application. -/
def gears (application : Ref) : Action σ (List Representation.Gear) :=
  Lazy.load (World.gears application) (client.fetchGears application)

end BrokerClient.Hierarchy.Client

import BrokerClient.Hierarchy.Event

/-!
# Operations

Everything that can be done with the resources, as data, so that a session with a server
is a list of operations. An operation that fails does not end a session. A relation, a name
or a cartridge that is looked up can be any value; most of them find nothing.
-/
namespace BrokerClient.Hierarchy

/-- An operation on a resource. -/
inductive Op where
  | links (r : Ref)
  | link (r : Ref) (relation : Value)
  | hasLink (r : Ref) (relation : Value)
  | members (owner : Ref)
  | member (owner : Ref) (name : Value)
  | hasMember (owner : Ref) (name : Value)
  | create (owner : Ref) (creation : Creation)
  | destroy (r : Ref) (force : Value)
  | refresh (r : Ref)
  | user (connection : Ref)
  | availableCartridges (connection : Ref)
  | rename (domain : Ref) (id : Value)
  | applicationsOf (domain : Ref) (cartridge : Value)
  | hasApplicationsOf (domain : Ref) (cartridge : Value)
  | cartridgeNames (domain : Ref)
  | gearProfiles (domain : Ref)
  | post (application : Ref) (event : Event)
  | gears (application : Ref)
  | updateKey (key : Ref) (type publicKey : Value)
  | setPublicKey (key : Ref) (publicKey : Value)

/-- What an operation answers. -/
inductive Answer where
  | done
  | links (catalog : Catalog)
  | entry (entry : CatalogEntry)
  | truth (b : Bool)
  | resource (r : Ref)
  | found (r : Option Ref)
  | resources (refs : List Ref)
  | names (names : List String)
  | gears (gears : List Representation.Gear)

namespace Client

variable {σ : Type} (client : Client σ)

/-- The cartridges that can run an application, by name. They are fetched every time. -/
def availableCartridges (connection : Ref) : Action σ (List String) := do
  let representations ← client.fetchList connection Relation.listCartridges .cartridge
  pure (representations.filterMap fun representation =>
    match representation with
    | .cartridge r => if r.type == "standalone" then some r.name else none
    | _ => none)

/-- The applications of a domain that run on a cartridge. -/
def applicationsOf (domain : Ref) (cartridge : Value) : Action σ (List Ref) := do
  let refs ← client.members domain
  let w ← get
  pure (refs.filter fun r =>
    match (w.resource r).attributes with
    | .application a => (Value.thing .cartridge a.cartridge).same cartridge
    | _ => false)

/-- The options that a domain offers for a parameter of a new application. -/
def creationOptions (domain : Ref) (parameter : String) : Action σ (List String) := do
  let link ← client.link domain Relation.addApplication
  pure (((link.parameter? parameter).map (·.options)).getD [])

/-- Carries out an operation. -/
def perform : Op → Action σ Answer
  | .links r => .links <$> client.links r
  | .link r relation => .entry <$> client.entry r relation
  | .hasLink r relation => .truth <$> client.hasLink r relation
  | .members owner => .resources <$> client.members owner
  | .member owner name => .found <$> client.member? owner name
  | .hasMember owner name => (fun found => .truth found.isSome) <$> client.member? owner name
  | .create owner creation => .resource <$> client.create owner creation
  | .destroy r force => (fun _ => .done) <$> client.destroy r force
  | .refresh r => (fun _ => .done) <$> client.refresh r
  | .user connection => .resource <$> client.user connection
  | .availableCartridges connection => .names <$> client.availableCartridges connection
  | .rename domain id => (fun _ => .done) <$> client.rename domain id
  | .applicationsOf domain cartridge => .resources <$> client.applicationsOf domain cartridge
  | .hasApplicationsOf domain cartridge =>
    (fun refs => .truth !refs.isEmpty) <$> client.applicationsOf domain cartridge
  | .cartridgeNames domain => .names <$> client.creationOptions domain "cartridge"
  | .gearProfiles domain => .names <$> client.creationOptions domain "gear_profile"
  | .post application event => (fun _ => .done) <$> client.post application event
  | .gears application => .gears <$> client.gears application
  | .updateKey key type publicKey => (fun _ => .done) <$> client.updateKey key type publicKey
  | .setPublicKey key publicKey => (fun _ => .done) <$> client.setPublicKey key publicKey

/-- The answer to an operation and the state after it. -/
def step (op : Op) (w : World σ) : Except Raised Answer × World σ := client.perform op w

/-- The answers to operations one after the other, and the state after all of them. -/
def run : List Op → World σ → List (Except Raised Answer) × World σ
  | [], w => ([], w)
  | op :: rest, w =>
    let (answer, w) := client.step op w
    let (answers, w) := run rest w
    (answer :: answers, w)

end Client

end BrokerClient.Hierarchy

import BrokerClient.Hierarchy.World
import BrokerClient.Service.Request

/-!
# Following links

A resource is asked by following one of the links in its catalog. The catalog of the root
is fetched when it is first needed; every other resource has had one since it was made. An
answer is held against what the relation promises: one record of a kind, or a list of
them.
-/
namespace BrokerClient.Hierarchy

/-- A client of a service. -/
structure Client (σ : Type) where
  service : Service
  transport : Transport σ

namespace Client

variable {σ : Type} (client : Client σ)

/-- Sends the request of a link and takes the data of the response. -/
def send (link : Link) (parameters : Parameters) (deleteWithBody : Bool) : Action σ Payload :=
  fun w =>
    let (outcome, exchange) :=
      client.service.request client.transport link parameters deleteWithBody w.exchange
    (outcome.map fun response => (response.map (·.data)).getD .absent,
      { w with exchange := exchange })

/-- Refuses the answer to a link. -/
def refuse {α : Type} (link : Link) (reason : EndpointReason) : Action σ α :=
  match client.service.resolveUrl link.href with
  | .ok url => throw (.client (.endpoint url reason))
  | .error e => throw (.client e)

/-- The link under which the root is found. -/
def rootLink : Link := ⟨"Get API", Service.rootPath, .get, [], []⟩

/-- The catalog in the answer for the root. An object of an unknown type is taken over as
it is. -/
def rootCatalog? : Payload → Option Catalog
  | .links links => some (.ofLinks links)
  | .plain (.obj fields) => some (.ofValues fields)
  | _ => none

/-- Fetches the catalog of the root. -/
def fetchRoot : Action σ Catalog := do
  let payload ← client.send rootLink [] false
  match rootCatalog? payload with
  | some catalog =>
    modify (·.note (.debug ("Resolved " ++ toString catalog.length ++ " root links")))
    pure catalog
  | none => client.refuse rootLink .noRootLinks

/-- The catalog of a resource. -/
def links (r : Ref) : Action σ Catalog := do
  let x := (← get).resource r
  match x.catalog, x.kind with
  | some catalog, _ => pure catalog
  | none, .connection =>
    let catalog ← client.fetchRoot
    modify (·.setCatalog r catalog)
    pure catalog
  | none, kind => throw (.client (.invalidRequest (.linksUnavailable kind)))

/-- What the catalog of a resource holds under a relation. -/
def entry (r : Ref) (relation : Value) : Action σ CatalogEntry := do
  let catalog ← client.links r
  match catalog.demand relation ((← get).resource r).kind.name with
  | .ok entry => pure entry
  | .error e => throw e

/-- The link of a resource under a relation. -/
def link (r : Ref) (relation : String) : Action σ Link := do
  match ← client.entry r (.str relation) with
  | .link link => pure link
  | .plain v => throw (.fault (.noAttribute v.kindName "required_params"))

/-- A resource has something under a relation. -/
def hasLink (r : Ref) (relation : Value) : Action σ Bool := do
  let catalog ← client.links r
  match catalog.entry? relation with
  | .ok entry => pure entry.isSome
  | .error fault => throw (.fault fault)

/-- Follows the link of a resource under a relation. -/
def follow (r : Ref) (relation : String) (parameters : Parameters) (deleteWithBody : Bool) :
    Action σ Payload := do
  let link ← client.link r relation
  client.send link parameters deleteWithBody

/-- Follows a link that answers one record of a kind. -/
def fetchOne (r : Ref) (relation : String) (kind : RecordKind) (parameters : Parameters) :
    Action σ Representation := do
  let link ← client.link r relation
  let payload ← client.send link parameters false
  match payload.singleOf? kind with
  | some representation => pure representation
  | none => client.refuse link (.expectedRecord kind payload.kindName)

/-- Follows a link that answers a list of records of a kind. -/
def fetchList (r : Ref) (relation : String) (kind : RecordKind) :
    Action σ (List Representation) := do
  let link ← client.link r relation
  let payload ← client.send link [] false
  match payload.listOf? kind with
  | some representations => pure representations
  | none => client.refuse link (.expectedList kind)

/-- Follows the link that answers the gears of an application. -/
def fetchGears (r : Ref) : Action σ (List Representation.Gear) := do
  let link ← client.link r Relation.getGears
  let payload ← client.send link [] false
  match payload.gears? with
  | some gears => pure gears
  | none => client.refuse link (.expectedList .gear)

end Client

end BrokerClient.Hierarchy

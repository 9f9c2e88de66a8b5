import BrokerClient.Health.Check
import BrokerClient.Representation.Content
import BrokerClient.Resource.Kind

/-!
# Attributes of resources

What a resource knows of itself apart from its links and its members. The attributes come
from the representation that the resource was made of; a later representation replaces
them, but a resource keeps the name under which its owner knows it. Only a domain takes
over a new name, because it can be renamed.
-/
namespace BrokerClient.Hierarchy

/-- Resources are numbered in the order in which they are made. -/
abbrev Ref := Nat

/-- A list without its repetitions; of equal members the first stays. -/
def distinct : List String → List String
  | [] => []
  | a :: rest => a :: (distinct rest).filter (· != a)

/-- The attributes of an application. -/
structure Application where
  name : String
  uuid : String
  cartridge : String
  creationTime : Option Timestamp
  applicationUrl : String
  gitUrl : String
  /-- Texts from the server, and whatever was added since. -/
  aliases : List Value
  gearProfile : Option String
  scaled : Bool

namespace Application

/-- The attributes in a representation. -/
def ofRepresentation (r : Representation.Application) : Application where
  name := r.name
  uuid := r.uuid
  cartridge := r.framework
  creationTime := r.creationTime
  applicationUrl := r.appUrl
  gitUrl := r.gitUrl
  aliases := (distinct r.aliases).map .str
  gearProfile := r.gearProfile.filter (· != "")
  scaled := r.scalable

/-- The attributes after a later representation: name and uuid stay. -/
def accept (a : Application) (r : Representation.Application) : Application :=
  { ofRepresentation r with name := a.name, uuid := a.uuid }

/-- The kind of an application. -/
def kind (a : Application) : ApplicationKind := .ofCartridge a.cartridge

/-- The health check of an application. -/
def healthCheck (a : Application) : HealthCheck := .ofKind a.kind

/-- The URL that tells whether an application is healthy. -/
def healthCheckUrl (a : Application) : String := a.healthCheck.urlFor a.applicationUrl

end Application

/-- The attributes of a resource, by its kind. A connection remembers its user once that
was fetched. -/
inductive Attributes where
  | connection (user : Option Ref)
  | user (login : String) (consumedGears maxGears : Int)
  | domain (id suffix : String)
  | application (a : Application)
  | cartridge (name type : String) (url : Option String)
  | key (name : String) (type : KeyType) (publicKey : String)
  | bare

namespace Attributes

/-- The kind of resource that has these attributes. -/
def kind : Attributes → ResourceKind
  | connection _ => .connection
  | user .. => .user
  | domain .. => .domain
  | application _ => .application
  | cartridge .. => .cartridge
  | key .. => .key
  | bare => .bare

/-- The name by which its owner knows a resource. -/
def name : Attributes → String
  | connection _ => ""
  | user login _ _ => login
  | domain id _ => id
  | application a => a.name
  | cartridge name _ _ => name
  | key name _ _ => name
  | bare => ""

/-- The attributes in a representation. -/
def ofRepresentation : Representation → Attributes
  | .user r => user r.login r.consumedGears r.maxGears
  | .domain r => domain r.id r.suffix
  | .application r => application (.ofRepresentation r)
  | .cartridge r => cartridge r.name r.type r.url
  | .key r => key r.name r.type r.content

/-- The attributes after a later representation. One of another kind changes nothing. -/
def accept : Attributes → Representation → Attributes
  | user .., .user r => user r.login r.consumedGears r.maxGears
  | domain .., .domain r => domain r.id r.suffix
  | application a, .application r => application (a.accept r)
  | cartridge name _ _, .cartridge r => cartridge name r.type r.url
  | key name _ _, .key r => key name r.type r.content
  | attributes, _ => attributes

/-- The aliases of an application. -/
def aliases : Attributes → List Value
  | application a => a.aliases
  | _ => []

/-- Changes the aliases of an application. -/
def editAliases (f : List Value → List Value) : Attributes → Attributes
  | application a => application { a with aliases := f a.aliases }
  | attributes => attributes

/-- The user that a connection remembers. -/
def user? : Attributes → Option Ref
  | connection current => current
  | _ => none

/-- Has a connection remember a user, or none. -/
def withUser (current : Option Ref) : Attributes → Attributes
  | connection _ => connection current
  | attributes => attributes

/-- The label under which the log calls the members. -/
def membersLabel : Attributes → String
  | connection _ => "domains"
  | user .. => "ssh keys"
  | domain id _ => "applications of domain " ++ id
  | application a => "embedded cartridges of application " ++ a.name
  | _ => "members"

/-- The label under which the log calls the gears. -/
def gearsLabel (attributes : Attributes) : String := "gears of application " ++ attributes.name

end Attributes

@[simp] theorem kind_accept (attributes : Attributes) (r : Representation) :
    (attributes.accept r).kind = attributes.kind := by
  cases attributes <;> cases r <;> rfl

theorem nodup_distinct (names : List String) : (distinct names).Nodup := by
  induction names with
  | nil => simp [distinct]
  | cons a rest ih =>
    simp only [distinct, List.nodup_cons, List.mem_filter, bne_self_eq_false, Bool.false_eq_true,
      and_false, not_false_eq_true, true_and]
    exact ih.filter _

theorem mem_distinct {name : String} {names : List String} :
    name ∈ distinct names ↔ name ∈ names := by
  induction names with
  | nil => simp [distinct]
  | cons a rest ih =>
    by_cases h : name = a
    · simp [distinct, h]
    · simp [distinct, h, ih]

end BrokerClient.Hierarchy

import BrokerClient.Hierarchy.Attributes
import BrokerClient.Lazy.Place
import BrokerClient.Link.Catalog

/-!
# The store of resources

All resources that were ever made stay in the store; a resource that its owner dropped
can still be referred to. The resource with the number zero is the connection, the root
of the hierarchy. A number that was not given out stands for a bare resource without
links, which changes cannot reach.
-/
namespace BrokerClient.Hierarchy

/-- A resource. Its members are fetched when they are first asked for; so are the gears of
an application. The root does not have its catalog at first. -/
structure Resource where
  owner : Ref
  attributes : Attributes
  creationLog : List Message
  catalog : Option Catalog
  members : Lazy.Collection Ref
  gears : Lazy.Collection Representation.Gear

namespace Resource

/-- A resource before anything was fetched for it. -/
def fresh (owner : Ref) (attributes : Attributes) (creationLog : List Message)
    (catalog : Option Catalog) : Resource where
  owner := owner
  attributes := attributes
  creationLog := creationLog
  catalog := catalog
  members := .fresh attributes.membersLabel
  gears := .fresh attributes.gearsLabel

/-- The kind of a resource. -/
def kind (x : Resource) : ResourceKind := x.attributes.kind

/-- The name by which its owner knows a resource. -/
def name (x : Resource) : String := x.attributes.name

/-- The messages of its creation in one text, if there are any. -/
def creationText? (x : Resource) : Option String :=
  if x.creationLog.isEmpty then none else some (String.join (x.creationLog.map (·.text)))

/-- An application has an alias. -/
def hasAlias (x : Resource) (name : Value) : Bool := x.attributes.aliases.any (·.same name)

/-- Sets the attributes and the links of a later representation. -/
def accept (x : Resource) (r : Representation) : Resource :=
  { x with
    attributes := x.attributes.accept r
    catalog := some (Catalog.ofLinks r.common.links) }

/-- The text of a resource under a base URL. -/
def toText (baseUrl : String) (x : Resource) : String :=
  match x.attributes with
  | .connection _ => "Connection(url=" ++ Text.quoted baseUrl ++ ")"
  | .user login _ _ => "User(login=" ++ Text.quoted login ++ ")"
  | .domain id suffix =>
    "DomainResource(id=" ++ Text.quoted id ++ ", suffix=" ++ Text.quoted suffix ++ ")"
  | .application a =>
    "ApplicationResource(name=" ++ Text.quoted a.name ++ ", cartridge=" ++
      Text.quoted a.cartridge ++ ")"
  | .cartridge name _ _ => "EmbeddedCartridgeResource(name=" ++ Text.quoted name ++ ")"
  | .key name type _ =>
    "SSHKeyResource(name=" ++ Text.quoted name ++ ", type=" ++ Text.quoted type.word ++ ")"
  | .bare => "ApiResource()"

end Resource

/-- All resources, by number. -/
structure Store where
  resources : List Resource

namespace Store

/-- The number of the root. -/
def root : Ref := 0

/-- Only the root, of which nothing is known yet. -/
def initial : Store := ⟨[.fresh root (.connection none) [] none]⟩

/-- The resource with a number. -/
def get (s : Store) (r : Ref) : Resource := s.resources[r]?.getD (.fresh root .bare [] none)

/-- Changes the resource with a number. -/
def alter (s : Store) (r : Ref) (f : Resource → Resource) : Store := ⟨s.resources.modify r f⟩

/-- The number that the next resource gets. -/
def next (s : Store) : Ref := s.resources.length

/-- Adds a resource. -/
def push (s : Store) (x : Resource) : Store := ⟨s.resources ++ [x]⟩

theorem get_alter_self {s : Store} {r : Ref} (h : r < s.next) (f : Resource → Resource) :
    (s.alter r f).get r = f (s.get r) := by
  simp only [next] at h
  simp [get, alter, List.getElem?_eq_getElem h]

theorem get_alter_of_ne {s : Store} {r r' : Ref} (h : r ≠ r') (f : Resource → Resource) :
    (s.alter r f).get r' = s.get r' := by
  simp [get, alter, h]

theorem get_push_of_lt {s : Store} {r : Ref} (h : r < s.next) (x : Resource) :
    (s.push x).get r = s.get r := by
  simp only [next] at h
  simp [get, push, List.getElem?_append_left h]

theorem get_push_next (s : Store) (x : Resource) : (s.push x).get s.next = x := by
  simp [get, push, next]

@[simp] theorem next_alter (s : Store) (r : Ref) (f : Resource → Resource) :
    (s.alter r f).next = s.next := by
  simp [next, alter]

@[simp] theorem next_push (s : Store) (x : Resource) : (s.push x).next = s.next + 1 := by
  simp [next, push]

end Store

end BrokerClient.Hierarchy

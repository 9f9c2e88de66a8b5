import BrokerClient.Hierarchy.Family
import BrokerClient.Hierarchy.Store
import BrokerClient.Service.Transport

/-!
# The state of a client

A client works on its store of resources and on its exchange with the server. Here are
the changes of that state that cannot fail: taking over links and representations, and
making resources of representations. Whenever a resource takes over links, the log warns
of the expected relations that are not among them.
-/
namespace BrokerClient.Hierarchy

/-- The resources and the exchange with the server. -/
structure World (σ : Type) where
  store : Store
  exchange : Exchange σ

namespace World

variable {σ : Type}

/-- Before anything was done. -/
def start (server : σ) : World σ := ⟨.initial, ⟨server, [], []⟩⟩

/-- The resource with a number. -/
def resource (w : World σ) (r : Ref) : Resource := w.store.get r

/-- Adds an entry to the log. -/
def note (w : World σ) (entry : LogEntry) : World σ :=
  { w with exchange := w.exchange.note entry }

/-- Changes the resource with a number. -/
def alter (w : World σ) (r : Ref) (f : Resource → Resource) : World σ :=
  { w with store := w.store.alter r f }

/-- Warns of the expected relations that a catalog lacks. -/
def warn (w : World σ) (kind : ResourceKind) (catalog : Catalog) : World σ :=
  match catalog.missing (expectedRelations kind) with
  | [] => w
  | missing =>
    w.note (.warning (kind.name ++ " offers no link for " ++ String.intercalate ", " missing))

/-- Has a resource take over a catalog. -/
def setCatalog (w : World σ) (r : Ref) (catalog : Catalog) : World σ :=
  (w.warn (w.resource r).kind catalog).alter r fun x => { x with catalog := some catalog }

/-- Has a resource take over a representation. -/
def accept (w : World σ) (r : Ref) (representation : Representation) : World σ :=
  (w.warn (w.resource r).kind (.ofLinks representation.common.links)).alter r
    (·.accept representation)

/-- Makes a resource of a representation. -/
def adopt (w : World σ) (owner : Ref) (representation : Representation) : Ref × World σ :=
  let attributes := Attributes.ofRepresentation representation
  let common := representation.common
  let catalog := Catalog.ofLinks common.links
  let w := w.warn attributes.kind catalog
  let x := Resource.fresh owner attributes common.creationLog (some catalog)
  (w.store.next, { w with store := w.store.push x })

/-- Makes resources of representations, one after the other. -/
def adoptAll (w : World σ) (owner : Ref) : List Representation → List Ref × World σ
  | [] => ([], w)
  | representation :: rest =>
    let (r, w) := w.adopt owner representation
    let (refs, w) := w.adoptAll owner rest
    (r :: refs, w)

/-- Makes a bare resource, with the given links or without a catalog. -/
def addBare (w : World σ) (links : Option (Mapping Link)) (creationLog : List Message) :
    Ref × World σ :=
  let x := Resource.fresh Store.root .bare creationLog (links.map Catalog.ofLinks)
  (w.store.next, { w with store := w.store.push x })

/-- Where the members of a resource are kept. -/
def members (r : Ref) : Lazy.Place (World σ) Ref where
  look w := (w.resource r).members
  fill cell w := w.alter r fun x => { x with members := { x.members with cell := cell } }
  note entry w := w.note entry

/-- Where the gears of an application are kept. -/
def gears (r : Ref) : Lazy.Place (World σ) Representation.Gear where
  look w := (w.resource r).gears
  fill cell w := w.alter r fun x => { x with gears := { x.gears with cell := cell } }
  note entry w := w.note entry

@[simp] theorem store_note (w : World σ) (entry : LogEntry) : (w.note entry).store = w.store := rfl

@[simp] theorem exchange_note (w : World σ) (entry : LogEntry) :
    (w.note entry).exchange = w.exchange.note entry := rfl

@[simp] theorem resource_note (w : World σ) (entry : LogEntry) (r : Ref) :
    (w.note entry).resource r = w.resource r := rfl

@[simp] theorem exchange_alter (w : World σ) (r : Ref) (f : Resource → Resource) :
    (w.alter r f).exchange = w.exchange := rfl

@[simp] theorem next_alter (w : World σ) (r : Ref) (f : Resource → Resource) :
    (w.alter r f).store.next = w.store.next :=
  Store.next_alter w.store r f

theorem resource_alter_self {w : World σ} {r : Ref} (h : r < w.store.next)
    (f : Resource → Resource) : (w.alter r f).resource r = f (w.resource r) :=
  Store.get_alter_self h f

theorem resource_alter_of_ne {r r' : Ref} (h : r ≠ r') (w : World σ) (f : Resource → Resource) :
    (w.alter r f).resource r' = w.resource r' :=
  Store.get_alter_of_ne h f

/-- A number that was not given out stands for a bare resource. -/
theorem resource_of_next_le {w : World σ} {r : Ref} (h : w.store.next ≤ r) :
    w.resource r = .fresh Store.root .bare [] none := by
  have hnone : w.store.resources[r]? = none := by
    simpa [Store.next] using h
  simp [resource, Store.get, hnone]

theorem lt_next_of_kind {w : World σ} {r : Ref} (h : (w.resource r).kind ≠ .bare) :
    r < w.store.next := by
  by_cases hlt : r < w.store.next
  · exact hlt
  · exact absurd (by rw [resource_of_next_le (Nat.le_of_not_lt hlt)]; rfl) h

theorem lt_next_of_catalog {w : World σ} {r : Ref} {catalog : Catalog}
    (h : (w.resource r).catalog = some catalog) : r < w.store.next := by
  by_cases hlt : r < w.store.next
  · exact hlt
  · rw [resource_of_next_le (Nat.le_of_not_lt hlt)] at h
    cases h

/-- Whatever a change keeps of every resource, it keeps of all of them. -/
theorem resource_alter_congr {α : Type} (view : Resource → α) {f : Resource → Resource}
    (h : ∀ x, view (f x) = view x) (w : World σ) (r r' : Ref) :
    view ((w.alter r f).resource r') = view (w.resource r') := by
  by_cases hr : r = r'
  · subst hr
    by_cases hlt : r < w.store.next
    · rw [resource_alter_self hlt, h]
    · have hle := Nat.le_of_not_lt hlt
      rw [resource_of_next_le hle, resource_of_next_le (by rwa [next_alter])]
  · rw [resource_alter_of_ne hr]

@[simp] theorem store_warn (w : World σ) (kind : ResourceKind) (catalog : Catalog) :
    (w.warn kind catalog).store = w.store := by
  unfold warn
  split <;> rfl

@[simp] theorem resource_warn (w : World σ) (kind : ResourceKind) (catalog : Catalog) (r : Ref) :
    (w.warn kind catalog).resource r = w.resource r := by
  simp [resource]

theorem exchange_warn (w : World σ) (kind : ResourceKind) (catalog : Catalog) :
    (w.warn kind catalog).exchange = w.exchange ∨
      ∃ entry, (w.warn kind catalog).exchange = w.exchange.note entry := by
  unfold warn
  split
  · exact .inl rfl
  · exact .inr ⟨_, rfl⟩

@[simp] theorem next_setCatalog (w : World σ) (r : Ref) (catalog : Catalog) :
    (w.setCatalog r catalog).store.next = w.store.next := by
  simp [setCatalog]

@[simp] theorem next_accept (w : World σ) (r : Ref) (representation : Representation) :
    (w.accept r representation).store.next = w.store.next := by
  simp [accept]

@[simp] theorem adopt_fst (w : World σ) (owner : Ref) (representation : Representation) :
    (w.adopt owner representation).1 = w.store.next := by
  simp [adopt]

@[simp] theorem next_adopt (w : World σ) (owner : Ref) (representation : Representation) :
    (w.adopt owner representation).2.store.next = w.store.next + 1 := by
  simp [adopt]

theorem resource_adopt_of_lt {w : World σ} {r : Ref} (h : r < w.store.next) (owner : Ref)
    (representation : Representation) :
    (w.adopt owner representation).2.resource r = w.resource r := by
  simp [adopt, resource, Store.get_push_of_lt h]

end World

/-- An operation on the state of a client, which may fail. The state after a failure
stays. -/
abbrev Action (σ α : Type) := ExceptT Raised (StateM (World σ)) α

end BrokerClient.Hierarchy

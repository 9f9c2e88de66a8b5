import BrokerClient.Hierarchy.Store
import BrokerClient.Proofs.Hierarchy.Filling

/-!
# What becomes of a resource

A resource is made of a representation and takes over others later. Its attributes can be told from
these alone, but for the aliases of an application, which can be edited, and for the user that a
connection remembers. No later representation changes what a resource is: its owner, its creation
log, its kind, and the names that identify it.
-/
namespace BrokerClient.Hierarchy

/-! ## Attributes -/

namespace Attributes

/-- The attributes that change only when a representation is taken over. -/
def settled (attributes : Attributes) : Attributes :=
  (attributes.editAliases fun _ => []).withUser none

/-- The kind of a resource, and the names that identify it. A domain has none because it can be
renamed, and of a user there is only one. -/
def identity : Attributes → ResourceKind × List String
  | application a => (.application, [a.name, a.uuid])
  | cartridge name _ _ => (.cartridge, [name])
  | key name _ _ => (.key, [name])
  | attributes => (attributes.kind, [])

variable (attributes : Attributes)

theorem settled_editAliases (f : List Value → List Value) :
    (attributes.editAliases f).settled = attributes.settled := by
  cases attributes <;> rfl

theorem settled_withUser (current : Option Ref) :
    (attributes.withUser current).settled = attributes.settled := by
  cases attributes <;> rfl

theorem settled_accept (representation : Representation) :
    (attributes.accept representation).settled =
      (attributes.settled.accept representation).settled := by
  cases attributes <;> cases representation <;> rfl

theorem identity_settled : attributes.settled.identity = attributes.identity := by
  cases attributes <;> rfl

theorem identity_accept (representation : Representation) :
    (attributes.accept representation).identity = attributes.identity := by
  cases attributes <;> cases representation <;> rfl

theorem identity_fst : attributes.identity.1 = attributes.kind := by
  cases attributes <;> rfl

/-- The attributes after some representations one after the other. -/
def acceptAll (representations : List Representation) : Attributes :=
  representations.foldl accept attributes

theorem acceptAll_append (representations later : List Representation) :
    attributes.acceptAll (representations ++ later) =
      (attributes.acceptAll representations).acceptAll later :=
  List.foldl_append

theorem settled_acceptAll (representations : List Representation) :
    (attributes.acceptAll representations).settled =
      (attributes.settled.acceptAll representations).settled := by
  induction representations generalizing attributes with
  | nil => cases attributes <;> rfl
  | cons representation rest ih =>
    calc ((attributes.accept representation).acceptAll rest).settled
        = ((attributes.accept representation).settled.acceptAll rest).settled := ih _
      _ = ((attributes.settled.accept representation).settled.acceptAll rest).settled := by
        rw [settled_accept]
      _ = ((attributes.settled.accept representation).acceptAll rest).settled := (ih _).symm

theorem identity_acceptAll (representations : List Representation) :
    (attributes.acceptAll representations).identity = attributes.identity := by
  induction representations generalizing attributes with
  | nil => rfl
  | cons representation rest ih => exact (ih _).trans (identity_accept _ _)

end Attributes

/-- The domain in a representation of one. -/
def Representation.domain? : Representation → Option Representation.Domain
  | .domain d => some d
  | _ => none

/-- A domain has the name and the suffix that were last represented. -/
theorem Attributes.acceptAll_domain (d : Representation.Domain)
    (representations : List Representation) :
    ∃ e, (d :: representations.filterMap Representation.domain?).getLast? = some e ∧
      (Attributes.domain d.id d.suffix).acceptAll representations = .domain e.id e.suffix := by
  induction representations generalizing d with
  | nil => exact ⟨d, rfl, rfl⟩
  | cons representation rest ih =>
    cases representation with
    | domain d' =>
      obtain ⟨e, hlast, haccept⟩ := ih d'
      exact ⟨e, by simpa [Representation.domain?] using hlast, haccept⟩
    | _ =>
      obtain ⟨e, hlast, haccept⟩ := ih d
      exact ⟨e, by simpa [List.filterMap_cons, Representation.domain?] using hlast, haccept⟩

/-! ## Resources -/

namespace Resource

/-- What a resource is: whose it is, of which kind and under which names, and how it was created. -/
def identity (x : Resource) : Ref × (ResourceKind × List String) × List Message :=
  (x.owner, x.attributes.identity, x.creationLog)

/-- A resource develops into another one if it takes over some representations one after the other,
while only the aliases of an application and the user of a connection change otherwise. -/
structure Develops (x : Resource) (representations : List Representation) (y : Resource) :
    Prop where
  owner : y.owner = x.owner
  creationLog : y.creationLog = x.creationLog
  attributes : y.attributes.settled = (x.attributes.acceptAll representations).settled

namespace Develops

variable {x y z : Resource} {representations later : List Representation}

theorem of_core (h : y.core = x.core) : x.Develops [] y :=
  ⟨congrArg (·.1) h, congrArg (·.2.2.1) h, congrArg (·.2.1.settled) h⟩

theorem refl (x : Resource) : x.Develops [] x := of_core rfl

theorem accept (x : Resource) (representation : Representation) :
    x.Develops [representation] (x.accept representation) := ⟨rfl, rfl, rfl⟩

theorem trans (h : x.Develops representations y) (h' : y.Develops later z) :
    x.Develops (representations ++ later) z where
  owner := h'.owner.trans h.owner
  creationLog := h'.creationLog.trans h.creationLog
  attributes := by
    rw [h'.attributes, Attributes.settled_acceptAll, h.attributes, ← Attributes.settled_acceptAll,
      Attributes.acceptAll_append]

theorem identity (h : x.Develops representations y) : y.identity = x.identity := by
  have hattributes : y.attributes.identity = x.attributes.identity := by
    rw [← Attributes.identity_settled, h.attributes, Attributes.identity_settled,
      Attributes.identity_acceptAll]
  rw [Resource.identity, h.owner, h.creationLog, hattributes, Resource.identity]

theorem kind (h : x.Develops representations y) : y.kind = x.kind := by
  rw [Resource.kind, Resource.kind, ← Attributes.identity_fst, ← Attributes.identity_fst]
  exact congrArg (·.2.1.1) h.identity

end Develops

/-- A domain has the name and the suffix that were last represented, when it was made or later. -/
theorem Develops.domain {owner : Ref} {representation : Representation}
    {later : List Representation} {y : Resource}
    (h : (Resource.ofRepresentation owner representation).Develops later y)
    (hkind : y.kind = .domain) :
    ∃ d, ((representation :: later).filterMap Representation.domain?).getLast? = some d ∧
      y.attributes = .domain d.id d.suffix := by
  have hmade : representation.kind = .domain := by
    rw [h.kind] at hkind
    cases representation <;> first | rfl | cases hkind
  cases representation with
  | domain d =>
    obtain ⟨e, hlast, haccept⟩ := Attributes.acceptAll_domain d later
    refine ⟨e, hlast, ?_⟩
    have hattributes : y.attributes.settled = .domain e.id e.suffix :=
      h.attributes.trans (congrArg Attributes.settled haccept)
    unfold Resource.kind at hkind
    cases hcases : y.attributes with
    | domain id suffix => rwa [hcases] at hattributes
    | _ =>
      rw [hcases] at hkind
      cases hkind
  | _ => cases hmade

end Resource

end BrokerClient.Hierarchy

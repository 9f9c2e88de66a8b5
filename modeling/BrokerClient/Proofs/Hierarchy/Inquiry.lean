import BrokerClient.Proofs.Hierarchy.Change
import BrokerClient.Proofs.Hierarchy.Development

/-!
# What an operation asks for

An operation asks resources for their catalogs, for links in them and for what the links lead to.
Here is, as data, what each operation asks for, in which states, and the inquiries that come of it:
each is one request to the server, together with the resource that it is made for and with what
becomes of its answer. A history of catalogs can be told from the inquiries alone, and so can what
becomes of each resource.
-/
namespace BrokerClient.Hierarchy

open Hierarchy.Action

variable {σ : Type}

/-! ## Places that are filled -/

/-- What a resource keeps once it was fetched. -/
inductive Part where
  | catalog
  | user
  | members
  | gears
  deriving DecidableEq, Repr

/-- A place for something that is fetched: whose it is and what is kept there. -/
structure Slot where
  owner : Ref
  part : Part
  deriving DecidableEq, Repr

namespace Slot

/-- Something is kept in a place. A catalog or a list that is empty is something. -/
def isFilled (slot : Slot) (w : World σ) : Bool :=
  let x := w.resource slot.owner
  match slot.part with
  | .catalog => x.catalog.isSome
  | .user => x.attributes.user?.isSome
  | .members => x.members.cell.isLoaded
  | .gears => x.gears.cell.isLoaded

/-- Resources of the owner's kind have such a place, and it is not filled from the start. -/
def Fits (slot : Slot) (w : World σ) : Prop :=
  let kind := (w.resource slot.owner).kind
  match slot.part with
  | .catalog | .user => kind = .connection
  | .members => (Family.ofOwner? kind).isSome
  | .gears => kind = .application

end Slot

/-! ## Asking -/

/-- What becomes of the answer to an inquiry. -/
inductive Purpose where
  /-- It holds the catalog of the root. -/
  | root
  /-- It lists the members of an owner. -/
  | members (family : Family)
  | gears
  | user
  /-- It represents a new member. -/
  | creation (family : Family)
  /-- A resource takes it over if it is a record of a kind. -/
  | update (r : Ref) (kind : RecordKind)
  /-- The application that was asked takes it over if it is one. -/
  | event
  /-- No resource takes over anything of it. -/
  | errand

/-- What a resource is asked for: its catalog, what the catalog holds under a relation, or what the
link under a relation leads to. -/
inductive Aim where
  | catalog
  | link (relation : Value)
  | follow (relation : String) (parameters : Parameters) (deleteWithBody : Bool)
      (purpose : Purpose)

/-- A resource that is asked for something in a state. -/
structure Ask (σ : Type) where
  state : World σ
  asked : Ref
  aim : Aim

/-- A request on behalf of a resource, in the state in which it is sent. The one for the catalog of
the root follows no relation. -/
structure Inquiry (σ : Type) where
  state : World σ
  asked : Ref
  relation : Option String
  purpose : Purpose
  link : Link
  parameters : Parameters
  deleteWithBody : Bool

/-- The relation that a resource is asked for, unless it is only asked for its catalog. -/
def Aim.relation? : Aim → Option Value
  | .catalog => none
  | .link relation => some relation
  | .follow relation .. => some (.str relation)

/-- The members of an owner have to be asked for if they are not loaded. -/
def World.listing (w : World σ) (owner : Ref) : List (Ask σ) :=
  match Family.ofOwner? (w.resource owner).kind, (w.resource owner).members.cell.items? with
  | some family, none =>
    [⟨(World.members owner).loading w, owner,
      .follow family.listRelation [] false (.members family)⟩]
  | _, _ => []

/-- The catalog of the root has to be inquired first if it is not there. -/
def World.catalogInquiries (w : World σ) (r : Ref) : List (Inquiry σ) :=
  match (w.resource r).catalog, (w.resource r).kind with
  | none, .connection => [⟨w, r, none, .root, Client.rootLink, [], false⟩]
  | _, _ => []

namespace Client

variable (client : Client σ)

/-- What the creation of a member asks for: the members, if they are not loaded, and if none of
them has the name of the new one, then the new one. -/
def creationAsks (owner : Ref) (creation : Creation) (w : World σ) : List (Ask σ) :=
  match creation.lacks? with
  | some _ => []
  | none =>
    w.listing owner ++
      match Family.ofOwner? (w.resource owner).kind, creation.parameters,
        (client.member? owner creation.name).exec w with
      | some family, .ok parameters, (.ok none, w₁) =>
        [⟨w₁, owner, .follow family.addRelation parameters false (.creation family)⟩]
      | _, _, _ => []

/-- What an operation asks for. -/
def asks (op : Op) (w : World σ) : List (Ask σ) :=
  match op with
  | .links r | .hasLink r _ => [⟨w, r, .catalog⟩]
  | .link r relation => [⟨w, r, .link relation⟩]
  | .members owner | .member owner _ | .hasMember owner _ | .applicationsOf owner _
  | .hasApplicationsOf owner _ => w.listing owner
  | .create owner creation => client.creationAsks owner creation w
  | .destroy r force =>
    let (parameters, deleteWithBody) := destruction force (w.resource r).attributes
    [⟨w, r, .follow Relation.delete parameters deleteWithBody .errand⟩]
  | .refresh r =>
    match source? r (w.resource r) with
    | some (asked, relation, kind) => [⟨w, asked, .follow relation [] false (.update r kind)⟩]
    | none => []
  | .user connection =>
    match (w.resource connection).attributes.user? with
    | some _ => []
    | none => [⟨w, connection, .follow Relation.getUser [] false .user⟩]
  | .availableCartridges connection =>
    [⟨w, connection, .follow Relation.listCartridges [] false .errand⟩]
  | .rename domain id =>
    if isLacking id then []
    else [⟨w, domain, .follow Relation.update [("id", id)] false (.update domain .domain)⟩]
  | .cartridgeNames domain | .gearProfiles domain =>
    [⟨w, domain, .link (.str Relation.addApplication)⟩]
  | .post application event =>
    match event.lacks? with
    | some _ => []
    | none => [⟨w, application, .follow event.relation event.parameters false .event⟩]
  | .gears application =>
    match (w.resource application).gears.cell.items? with
    | some _ => []
    | none =>
      [⟨(World.gears application).loading w, application,
        .follow Relation.getGears [] false .gears⟩]
  | .updateKey key type publicKey => updateAsks key type publicKey w
  | .setPublicKey key publicKey =>
    updateAsks key (typeValue (w.resource key).attributes) publicKey w
where
  /-- What the change of a key asks for. -/
  updateAsks (key : Ref) (type publicKey : Value) (w : World σ) : List (Ask σ) :=
    if isLacking publicKey then []
    else [⟨w, key, .follow Relation.update [("type", type), ("content", publicKey)] false
      (.update key .key)⟩]

/-- What follows from asking for what a link leads to: there is one inquiry, if there is a link. -/
def linkInquiries (ask : Ask σ) : List (Inquiry σ) :=
  match ask.aim with
  | .follow relation parameters deleteWithBody purpose =>
    match (client.link ask.asked relation).exec ask.state with
    | (.ok link, w) => [⟨w, ask.asked, some relation, purpose, link, parameters, deleteWithBody⟩]
    | _ => []
  | _ => []

/-- The inquiries that come of asking a resource for something. -/
def inquiriesOf (ask : Ask σ) : List (Inquiry σ) :=
  ask.state.catalogInquiries ask.asked ++ client.linkInquiries ask

/-- The inquiries that an operation makes, in order. -/
def inquiries (op : Op) (w : World σ) : List (Inquiry σ) :=
  (client.asks op w).flatMap client.inquiriesOf

/-! ## Answers -/

/-- The call that an inquiry makes, if it makes one. -/
def call? (i : Inquiry σ) : Option Call := client.service.call? i.link i.parameters i.deleteWithBody

/-- What comes of an inquiry, and the state after it. -/
def outcome (i : Inquiry σ) : Except Raised Payload × World σ :=
  (client.send i.link i.parameters i.deleteWithBody).exec i.state

end Client

/-- What an answer to an inquiry holds, if it holds what it should. -/
inductive Data where
  | catalog (catalog : Catalog)
  | record (representation : Representation)
  | records (representations : List Representation)
  | gears (gears : List Representation.Gear)

namespace Purpose

/-- What an answer should hold. -/
def read? : Purpose → Payload → Option Data
  | root, payload => (Client.rootCatalog? payload).map .catalog
  | members family, payload =>
    (payload.listOf? family.recordKind).map fun representations =>
      .records (representations.filter family.admits)
  | gears, payload => payload.gears?.map .gears
  | user, payload => (payload.singleOf? .user).map .record
  | creation family, payload => (payload.singleOf? family.recordKind).map .record
  | update _ kind, payload => (payload.singleOf? kind).map .record
  | event, payload => (payload.singleOf? .application).map .record
  | errand, _ => none

/-- What an answer fills a place with. -/
def part? : Purpose → Option Part
  | root => some .catalog
  | members _ => some .members
  | gears => some .gears
  | user => some .user
  | _ => none

end Purpose

/-- Resources with the catalogs that they take over, oldest first. One that loses its catalog takes
over none. -/
abbrev History := List (Ref × Option Catalog)

/-- The catalogs that data of some purpose brings to resources: to the one that was asked, to the
one that is updated, or to new ones, which are numbered from `next` on. -/
def Purpose.news (asked next : Ref) : Purpose → Data → History
  | .root, .catalog catalog => [(asked, some catalog)]
  | .members _, .records representations =>
    (List.range' next representations.length).zip
      (representations.map fun representation => some (.ofLinks representation.common.links))
  | .user, .record representation | .creation _, .record representation =>
    [(next, some (.ofLinks representation.common.links))]
  | .update r _, .record representation => [(r, some (.ofLinks representation.common.links))]
  | .event, .record representation => [(asked, some (.ofLinks representation.common.links))]
  | _, _ => []

/-- The resources to which data of some purpose brings a representation, with it: the one that was
asked, the one that is updated, or new ones, which are numbered from `next` on. -/
def Purpose.takers (asked next : Ref) : Purpose → Data → List (Ref × Representation)
  | .members _, .records representations =>
    (List.range' next representations.length).zip representations
  | .user, .record representation | .creation _, .record representation =>
    [(next, representation)]
  | .update r _, .record representation => [(r, representation)]
  | .event, .record representation => [(asked, representation)]
  | _, _ => []

namespace History

/-- The catalog of a resource after a history: the last one in it, or else the one before. -/
def latest (history : History) (r : Ref) (before : Option Catalog) : Option Catalog :=
  history.foldl (fun last entry => if entry.1 = r then entry.2 else last) before

variable {history later : History} {r : Ref} {before : Option Catalog}

@[simp] theorem latest_nil : latest [] r before = before := rfl

@[simp] theorem latest_append :
    latest (history ++ later) r before = latest later r (latest history r before) :=
  List.foldl_append

@[simp] theorem latest_cons {entry : Ref × Option Catalog} :
    latest (entry :: history) r before =
      latest history r (if entry.1 = r then entry.2 else before) := rfl

end History

namespace Inquiry

/-- The place that the answer to an inquiry fills. -/
def slot? (i : Inquiry σ) : Option Slot := i.purpose.part?.map fun part => ⟨i.asked, part⟩

end Inquiry

namespace Client

variable (client : Client σ)

/-- What the answer to an inquiry holds, if there is one and it holds what it should. -/
def data? (i : Inquiry σ) : Option Data := (client.outcome i).1.toOption.bind i.purpose.read?

/-- The catalogs that the answer to an inquiry brings to resources. -/
def news (i : Inquiry σ) : History :=
  match client.data? i with
  | some data => i.purpose.news i.asked i.state.store.next data
  | none => []

/-- The resources to which the answer to an inquiry brings a representation, with it. -/
def takers (i : Inquiry σ) : List (Ref × Representation) :=
  match client.data? i with
  | some data => i.purpose.takers i.asked i.state.store.next data
  | none => []

/-- The representations that the answers to inquiries bring to a resource, oldest first. -/
def told (inquiries : List (Inquiry σ)) (r : Ref) : List Representation :=
  (inquiries.flatMap client.takers).filterMap fun (taker, representation) =>
    if taker = r then some representation else none

/-- An exchange passes through inquiries: each is made where the last one, or the exchange itself,
left off, and nothing is sent in between. -/
def Conducts (client : Client σ) : Exchange σ → List (Inquiry σ) → Exchange σ → Prop
  | x, [], y => x.Logs y
  | x, i :: rest, y =>
    x.Logs i.state.exchange ∧ client.Conducts (client.outcome i).2.exchange rest y

/-- The inquiries between two states tell what became of the resources: those that were there take
over the representations that were brought to them, and the others are made of the first one, on
behalf of the resource that was asked for it. -/
structure Retells (client : Client σ) (w : World σ) (inquiries : List (Inquiry σ))
    (w' : World σ) : Prop where
  next : w.store.next ≤ w'.store.next
  develops : ∀ r < w.store.next,
    (w.resource r).Develops (client.told inquiries r) (w'.resource r)
  made : ∀ r, w.store.next ≤ r → r < w'.store.next → ∃ i ∈ inquiries, ∃ representation later,
    (r, representation) ∈ client.takers i ∧
      client.told inquiries r = representation :: later ∧
      (Resource.ofRepresentation i.asked representation).Develops later (w'.resource r)
  untold : ∀ r, w'.store.next ≤ r → client.told inquiries r = []

/-- The inquiries between two states account for what was sent, for what became of the resources,
for the catalogs that they took over, and for the places that were filled. -/
structure AccountsFor (client : Client σ) (w : World σ) (inquiries : List (Inquiry σ))
    (w' : World σ) : Prop extends client.Retells w inquiries w' where
  conducts : client.Conducts w.exchange inquiries w'.exchange
  catalogs : ∀ r, (w'.resource r).catalog =
    History.latest (inquiries.flatMap client.news) r (w.resource r).catalog
  fills : ∀ slot : Slot, slot.Fits w → (slot.isFilled w' = true ↔
    slot.isFilled w = true ∨ ∃ i ∈ inquiries, i.slot? = some slot ∧ (client.data? i).isSome)

end Client

namespace Slot

variable {slot : Slot} {w w' : World σ}

theorem Fits.lt_next (h : slot.Fits w) : slot.owner < w.store.next := by
  refine World.lt_next_of_kind fun hbare => ?_
  unfold Fits at h
  rw [hbare] at h
  cases hpart : slot.part <;> rw [hpart] at h <;> cases h

theorem Fits.of_kind (h : slot.Fits w)
    (hkind : (w'.resource slot.owner).kind = (w.resource slot.owner).kind) : slot.Fits w' := by
  unfold Fits at h ⊢
  rwa [hkind]

end Slot

/-- Two states have the same resources as far as these are concerned that keep what was fetched: the
same places are filled, and the catalogs are the same. -/
structure World.Resembles (w w' : World σ) : Prop where
  next : w'.store.next = w.store.next
  develops : ∀ r, (w.resource r).Develops [] (w'.resource r)
  catalog : ∀ r, (w'.resource r).catalog = (w.resource r).catalog
  user : ∀ r, (w'.resource r).attributes.user?.isSome = (w.resource r).attributes.user?.isSome
  members : ∀ r, (w'.resource r).members.cell.isLoaded = (w.resource r).members.cell.isLoaded
  gears : ∀ r, (w'.resource r).gears.cell.isLoaded = (w.resource r).gears.cell.isLoaded

namespace World.Resembles

variable {w w₁ w₂ : World σ}

theorem of_store (h : w₁.store = w.store) : w.Resembles w₁ := by
  have hresource (r : Ref) : w₁.resource r = w.resource r := by rw [resource, h, resource]
  constructor <;> simp [h, hresource, Resource.Develops.refl]

theorem trans (h : w.Resembles w₁) (h' : w₁.Resembles w₂) : w.Resembles w₂ where
  next := h'.next.trans h.next
  develops r := (h.develops r).trans (h'.develops r)
  catalog r := (h'.catalog r).trans (h.catalog r)
  user r := (h'.user r).trans (h.user r)
  members r := (h'.members r).trans (h.members r)
  gears r := (h'.gears r).trans (h.gears r)

theorem isFilled (h : w.Resembles w₁) (slot : Slot) : slot.isFilled w₁ = slot.isFilled w := by
  unfold Slot.isFilled
  cases slot.part
  · exact congrArg Option.isSome (h.catalog slot.owner)
  · exact h.user slot.owner
  · exact h.members slot.owner
  · exact h.gears slot.owner

theorem kind (h : w.Resembles w₁) (r : Ref) : (w₁.resource r).kind = (w.resource r).kind :=
  (h.develops r).kind

/-- What holds of any resource and itself holds after a change of one if it holds of that one. -/
theorem forall_alter {P : Resource → Resource → Prop} (hrefl : ∀ x, P x x) {r : Ref}
    {f : Resource → Resource} (h : P (w.resource r) (f (w.resource r))) (r' : Ref) :
    P (w.resource r') ((w.alter r f).resource r') := by
  by_cases he : r = r'
  · subst he
    obtain hlt | hle := Nat.lt_or_ge r w.store.next
    · rwa [resource_alter_self hlt]
    · rw [resource_of_next_le hle, resource_of_next_le (by rwa [next_alter])]
      exact hrefl _
  · rw [resource_alter_of_ne he]
    exact hrefl _

/-- A change of one resource that leaves what was fetched for it as it was. -/
theorem alter {r : Ref} {f : Resource → Resource}
    (hdevelops : (w.resource r).Develops [] (f (w.resource r)))
    (hcatalog : (f (w.resource r)).catalog = (w.resource r).catalog)
    (huser : (f (w.resource r)).attributes.user?.isSome =
      (w.resource r).attributes.user?.isSome)
    (hmembers : (f (w.resource r)).members.cell.isLoaded = (w.resource r).members.cell.isLoaded)
    (hgears : (f (w.resource r)).gears.cell.isLoaded = (w.resource r).gears.cell.isLoaded) :
    w.Resembles (w.alter r f) where
  next := by simp
  develops := forall_alter (P := fun x y => x.Develops [] y) .refl hdevelops
  catalog := forall_alter (P := fun x y => y.catalog = x.catalog) (fun _ => rfl) hcatalog
  user := forall_alter (P := fun x y => y.attributes.user?.isSome = x.attributes.user?.isSome)
    (fun _ => rfl) huser
  members := forall_alter (P := fun x y => y.members.cell.isLoaded = x.members.cell.isLoaded)
    (fun _ => rfl) hmembers
  gears := forall_alter (P := fun x y => y.gears.cell.isLoaded = x.gears.cell.isLoaded)
    (fun _ => rfl) hgears

end World.Resembles

namespace Client

variable {client : Client σ} {w w₁ w₂ : World σ} {l l' : List (Inquiry σ)}

/-! ## What is told -/

theorem told_append (l l' : List (Inquiry σ)) (r : Ref) :
    client.told (l ++ l') r = client.told l r ++ client.told l' r := by
  rw [told, List.flatMap_append, List.filterMap_append, told, told]

theorem told_singleton (i : Inquiry σ) (r : Ref) :
    client.told [i] r = (client.takers i).filterMap fun (taker, representation) =>
      if taker = r then some representation else none := by
  rw [told, List.flatMap_singleton]

/-- Of resources that are numbered one after the other each takes its own representation. -/
theorem filterMap_zip_range' (representations : List Representation) (next r : Nat) :
    (((List.range' next representations.length).zip representations).filterMap
      fun (taker, representation) => if taker = r then some representation else none) =
        if next ≤ r then representations[r - next]?.toList else [] := by
  induction representations generalizing next with
  | nil => simp
  | cons representation rest ih =>
    rw [List.length_cons, List.range'_succ, List.zip_cons_cons, List.filterMap_cons, ih]
    rcases Nat.lt_trichotomy next r with hlt | rfl | hlt
    · have hpred : r - next = (r - (next + 1)) + 1 := by omega
      simp [Nat.ne_of_lt hlt, hlt.le, Nat.succ_le_of_lt hlt, hpred]
    · rw [if_neg (Nat.not_succ_le_self next)]
      simp
    · simp [Nat.ne_of_gt hlt, Nat.not_le.mpr hlt, Nat.not_le.mpr (Nat.lt_succ_of_lt hlt)]

namespace Retells

/-- Nothing is told of resources that only change in what can be fetched or edited. -/
theorem of_develops (hnext : w₁.store.next = w.store.next)
    (h : ∀ r < w.store.next, (w.resource r).Develops [] (w₁.resource r)) :
    client.Retells w [] w₁ where
  next := hnext.ge
  develops := h
  made _ hr hr' := absurd hr' (hnext ▸ Nat.not_lt.mpr hr)
  untold _ _ := rfl

theorem trans (h : client.Retells w l w₁) (h' : client.Retells w₁ l' w₂) :
    client.Retells w (l ++ l') w₂ where
  next := h.next.trans h'.next
  develops r hr := by
    rw [told_append]
    exact (h.develops r hr).trans (h'.develops r (hr.trans_le h.next))
  made r hr hr' := by
    rw [told_append]
    obtain hlt | hle := Nat.lt_or_ge r w₁.store.next
    · obtain ⟨i, hi, representation, later, htaker, htold, hdevelops⟩ := h.made r hr hlt
      refine ⟨i, List.mem_append_left _ hi, representation, _, htaker, ?_,
        hdevelops.trans (h'.develops r hlt)⟩
      rw [htold, List.cons_append]
    · obtain ⟨i, hi, representation, later, htaker, htold, hdevelops⟩ := h'.made r hle hr'
      refine ⟨i, List.mem_append_right _ hi, representation, later, htaker, ?_, hdevelops⟩
      rw [h.untold r hle, htold, List.nil_append]
  untold r hr := by
    rw [told_append, h.untold r (h'.next.trans hr), h'.untold r hr, List.append_nil]

variable {i : Inquiry σ}

/-- An inquiry that brings no representation. -/
theorem of_takers_nil (htakers : client.takers i = []) (hnext : w₁.store.next = i.state.store.next)
    (h : ∀ r < i.state.store.next, (i.state.resource r).Develops [] (w₁.resource r)) :
    client.Retells i.state [i] w₁ := by
  have htold (r : Ref) : client.told [i] r = [] := by rw [told_singleton, htakers]; rfl
  refine ⟨hnext.ge, fun r hr => ?_, fun r hr hr' => ?_, fun r _ => htold r⟩
  · rw [htold]
    exact h r hr
  · exact absurd hr' (hnext ▸ Nat.not_lt.mpr hr)

/-- An inquiry that brings a representation to a resource that is there. -/
theorem of_update {r : Ref} {representation : Representation}
    (htakers : client.takers i = [(r, representation)]) (hr : r < i.state.store.next)
    (hnext : w₁.store.next = i.state.store.next)
    (h : ∀ r', (w₁.resource r') =
      if r' = r then (i.state.resource r').accept representation else i.state.resource r') :
    client.Retells i.state [i] w₁ := by
  have htold (r' : Ref) : client.told [i] r' = if r = r' then [representation] else [] := by
    rw [told_singleton, htakers]
    by_cases he : r = r' <;> simp [he]
  refine ⟨hnext.ge, fun r' _ => ?_, fun r' hr' hlt => ?_, fun r' hr' => ?_⟩
  · rw [htold, h]
    by_cases he : r' = r
    · rw [if_pos he, if_pos he.symm]
      exact .accept _ _
    · rw [if_neg he, if_neg (Ne.symm he)]
      exact .refl _
  · exact absurd hlt (hnext ▸ Nat.not_lt.mpr hr')
  · rw [htold, if_neg (Nat.ne_of_lt (hr.trans_le (hnext ▸ hr')))]

/-- An inquiry of which new resources are made, one of each representation. -/
theorem of_new {representations : List Representation}
    (htakers : client.takers i =
      (List.range' i.state.store.next representations.length).zip representations)
    (hnext : w₁.store.next = i.state.store.next + representations.length)
    (hold : ∀ r < i.state.store.next, (i.state.resource r).Develops [] (w₁.resource r))
    (hnew : ∀ k (hk : k < representations.length),
      (Resource.ofRepresentation i.asked representations[k]).Develops []
        (w₁.resource (i.state.store.next + k))) :
    client.Retells i.state [i] w₁ := by
  have htold (r : Ref) : client.told [i] r = if i.state.store.next ≤ r then
      representations[r - i.state.store.next]?.toList else [] := by
    rw [told_singleton, htakers, filterMap_zip_range']
  refine ⟨hnext ▸ Nat.le_add_right _ _, fun r hr => ?_, fun r hr hlt => ?_, fun r hr => ?_⟩
  · rw [htold, if_neg (Nat.not_le.mpr hr)]
    exact hold r hr
  · obtain ⟨k, rfl⟩ := Nat.exists_eq_add_of_le hr
    have hk : k < representations.length := Nat.lt_of_add_lt_add_left (hnext ▸ hlt)
    refine ⟨i, List.mem_singleton_self i, representations[k], [], ?_, ?_, hnew k hk⟩
    · rw [htakers]
      refine List.mem_iff_getElem.mpr ⟨k, by simpa using hk, ?_⟩
      simp
    · rw [htold, if_pos hr, Nat.add_sub_cancel_left, List.getElem?_eq_getElem hk]
      rfl
  · have hlength : representations.length ≤ r - i.state.store.next :=
      Nat.le_sub_of_add_le' (hnext ▸ hr)
    rw [htold, List.getElem?_eq_none hlength]
    split <;> rfl

/-- An inquiry of which one new resource is made. -/
theorem of_one {representation : Representation}
    (htakers : client.takers i = [(i.state.store.next, representation)])
    (hnext : w₁.store.next = i.state.store.next + 1)
    (hold : ∀ r < i.state.store.next, (i.state.resource r).Develops [] (w₁.resource r))
    (hnew : w₁.resource i.state.store.next = .ofRepresentation i.asked representation) :
    client.Retells i.state [i] w₁ := by
  have htakers' : client.takers i =
      (List.range' i.state.store.next [representation].length).zip [representation] := htakers
  refine of_new htakers' hnext hold fun k hk => ?_
  obtain rfl := Nat.lt_one_iff.mp hk
  rw [Nat.add_zero, hnew]
  exact .refl _

end Retells

/-! ## Accounts -/

theorem store_outcome (client : Client σ) (i : Inquiry σ) :
    (client.outcome i).2.store = i.state.store := by
  rw [outcome, exec_send]

theorem calls_outcome (client : Client σ) (i : Inquiry σ) :
    (client.outcome i).2.exchange.calls = i.state.exchange.calls ++ (client.call? i).toList := by
  rw [outcome, exec_send]
  exact client.service.calls_request _ _ _ _ _

namespace Conducts

variable {x y z : Exchange σ}

theorem of_logs (h : x.Logs y) (h' : client.Conducts y l z) : client.Conducts x l z := by
  cases l with
  | nil => exact h.trans h'
  | cons i rest => exact ⟨h.trans h'.1, h'.2⟩

theorem logs (h : client.Conducts x l y) (h' : y.Logs z) : client.Conducts x l z := by
  induction l generalizing x with
  | nil => exact Exchange.Logs.trans h h'
  | cons i rest ih => exact ⟨h.1, ih h.2⟩

theorem append (h : client.Conducts x l y) (h' : client.Conducts y l' z) :
    client.Conducts x (l ++ l') z := by
  induction l generalizing x with
  | nil => exact h'.of_logs h
  | cons i rest ih => exact ⟨h.1, ih h.2⟩

/-- The calls of an exchange are those of the inquiries that it passes through. -/
theorem calls (h : client.Conducts x l y) :
    y.calls = x.calls ++ l.filterMap client.call? := by
  induction l generalizing x with
  | nil => simpa using Exchange.Logs.calls h
  | cons i rest ih =>
    obtain ⟨hlogs, hrest⟩ := h
    rw [ih hrest, client.calls_outcome, hlogs.calls]
    cases hcall : client.call? i <;> simp [hcall]

end Conducts

namespace AccountsFor

/-- Where nothing is asked for, nothing that was fetched changes. -/
theorem of_resembles (h : w.Resembles w₁) (hlogs : w.exchange.Logs w₁.exchange) :
    client.AccountsFor w [] w₁ where
  toRetells := .of_develops h.next fun r _ => h.develops r
  conducts := hlogs
  catalogs r := h.catalog r
  fills slot _ := by simp [h.isFilled slot]

theorem refl (w : World σ) : client.AccountsFor w [] w := of_resembles (.of_store rfl) (.refl _)

theorem kinds (h : client.AccountsFor w l w₁) (r : Ref) (hr : r < w.store.next) :
    (w₁.resource r).kind = (w.resource r).kind :=
  (h.develops r hr).kind

theorem fits (h : client.AccountsFor w l w₁) {slot : Slot} (hslot : slot.Fits w) :
    slot.Fits w₁ :=
  hslot.of_kind (h.kinds _ hslot.lt_next)

theorem trans (h : client.AccountsFor w l w₁) (h' : client.AccountsFor w₁ l' w₂) :
    client.AccountsFor w (l ++ l') w₂ where
  toRetells := h.toRetells.trans h'.toRetells
  conducts := h.conducts.append h'.conducts
  catalogs r := by rw [h'.catalogs, h.catalogs, List.flatMap_append, History.latest_append]
  fills slot hslot := by
    rw [h'.fills slot (h.fits hslot), h.fills slot hslot, or_assoc]
    simp only [List.mem_append, or_and_right, exists_or]

/-- Nothing that was fetched changes before the inquiries. -/
theorem after (hw : w.Resembles w₁) (hlogs : w.exchange.Logs w₁.exchange)
    (h : client.AccountsFor w₁ l w₂) : client.AccountsFor w l w₂ :=
  (of_resembles hw hlogs).trans h

/-- Nothing that was fetched changes after the inquiries. -/
theorem before (h : client.AccountsFor w l w₁) (hw : w₁.Resembles w₂)
    (hlogs : w₁.exchange.Logs w₂.exchange) : client.AccountsFor w l w₂ := by
  simpa using h.trans (of_resembles hw hlogs)

/-- One inquiry, and what became of its answer. -/
theorem of_inquiry {i : Inquiry σ} (hlogs : (client.outcome i).2.exchange.Logs w₁.exchange)
    (hretells : client.Retells i.state [i] w₁)
    (hcatalogs : ∀ r, (w₁.resource r).catalog =
      (client.news i).latest r (i.state.resource r).catalog)
    (hfills : ∀ slot : Slot, slot.Fits i.state → (slot.isFilled w₁ = true ↔
      slot.isFilled i.state = true ∨ i.slot? = some slot ∧ (client.data? i).isSome)) :
    client.AccountsFor i.state [i] w₁ where
  toRetells := hretells
  conducts := ⟨.refl _, hlogs⟩
  catalogs r := by rw [List.flatMap_singleton]; exact hcatalogs r
  fills slot hslot := by simpa using hfills slot hslot

/-- An inquiry that brings nothing that is kept. -/
theorem of_unanswered {i : Inquiry σ} (h : client.data? i = none) :
    client.AccountsFor i.state [i] (client.outcome i).2 := by
  have hstore : i.state.Resembles (client.outcome i).2 := .of_store (client.store_outcome i)
  have htakers : client.takers i = [] := by rw [takers, h]
  refine of_inquiry (.refl _) (.of_takers_nil htakers hstore.next fun r _ => hstore.develops r)
    (fun r => ?_) fun slot _ => ?_
  · rw [news, h]
    exact hstore.catalog r
  · simp [hstore.isFilled, h]

end AccountsFor

end Client

end BrokerClient.Hierarchy

import BrokerClient.Hierarchy.Member
import BrokerClient.Proofs.Hierarchy.Follow
import Mathlib.Data.List.Forall2
import Mathlib.Order.Nat

/-!
# Filling what was not fetched yet

To get what it needs, an operation may have to fetch the catalog of the root, the members of an
owner or the gears of an application. All of that goes into places that were empty before. A
state fills another one if nothing else happened to the resources in between: everything that was
known stays, and whatever came in is the whole answer to a request of its own.
-/
namespace BrokerClient.Hierarchy

variable {σ : Type}

/-- The resource that is made of a representation. -/
def Resource.ofRepresentation (owner : Ref) (r : Representation) : Resource :=
  .fresh owner (.ofRepresentation r) r.common.creationLog (some (.ofLinks r.common.links))

/-- What a resource is apart from what was fetched for it: its owner, its attributes, its creation
log and its links. -/
def Resource.core (x : Resource) : Ref × Attributes × List Message × Option Catalog :=
  (x.owner, x.attributes, x.creationLog, x.catalog)

/-- A resource is what the representation says that it was made of. -/
def Resource.Shows (x : Resource) (owner : Ref) (r : Representation) : Prop :=
  x.core = (Resource.ofRepresentation owner r).core

/-- A resource with other members. -/
def Resource.withMembers (cell : Lazy.Cell Ref) (x : Resource) : Resource :=
  { x with members := { x.members with cell := cell } }

/-- A resource with other gears. -/
def Resource.withGears (cell : Lazy.Cell Representation.Gear) (x : Resource) : Resource :=
  { x with gears := { x.gears with cell := cell } }

theorem Resource.core_withMembers (cell : Lazy.Cell Ref) (x : Resource) :
    (x.withMembers cell).core = x.core := rfl

theorem Resource.core_withGears (cell : Lazy.Cell Representation.Gear) (x : Resource) :
    (x.withGears cell).core = x.core := rfl

theorem World.fill_members (w : World σ) (r : Ref) (cell : Lazy.Cell Ref) :
    (World.members r).fill cell w = w.alter r (·.withMembers cell) := rfl

theorem World.fill_gears (w : World σ) (r : Ref) (cell : Lazy.Cell Representation.Gear) :
    (World.gears r).fill cell w = w.alter r (·.withGears cell) := rfl

theorem World.resource_adopt_next (w : World σ) (owner : Ref) (r : Representation) :
    (w.adopt owner r).2.resource w.store.next = .ofRepresentation owner r := by
  simp only [World.adopt, World.resource, World.store_warn]
  exact Store.get_push_next w.store (.ofRepresentation owner r)

/-- Where resources were only added, none of them has members or gears yet. -/
theorem World.cells_of_made {w w' : World σ} (h : ∀ r < w.store.next, w'.resource r = w.resource r)
    (hmade : ∀ r < w'.store.next, w.store.next ≤ r →
      ∃ owner representation, w'.resource r = .ofRepresentation owner representation) (r : Ref) :
    (w'.resource r).members.cell = (w.resource r).members.cell ∧
      (w'.resource r).gears.cell = (w.resource r).gears.cell := by
  obtain hlt | hle := Nat.lt_or_ge r w.store.next
  · rw [h r hlt]
    exact ⟨rfl, rfl⟩
  · rw [World.resource_of_next_le hle]
    obtain hlt' | hle' := Nat.lt_or_ge r w'.store.next
    · obtain ⟨owner, representation, hr⟩ := hmade r hlt' hle
      rw [hr]
      exact ⟨rfl, rfl⟩
    · rw [World.resource_of_next_le hle']
      exact ⟨rfl, rfl⟩

namespace Client

variable {client : Client σ}

/-- Between two exchanges a link was followed without parameters, and the answer was a payload. -/
def Fetched (client : Client σ) (x y : Exchange σ) (link : Link) (payload : Payload) : Prop :=
  ∃ a b response, x.Continues client.transport a ∧
    client.service.request client.transport link [] false a = (.ok response, b) ∧
    b.Continues client.transport y ∧ payload = Response.payload response

theorem Fetched.mono {x x' y y' : Exchange σ} {link : Link} {payload : Payload}
    (h : client.Fetched x y link payload) (hx : x'.Continues client.transport x)
    (hy : y.Continues client.transport y') : client.Fetched x' y' link payload := by
  obtain ⟨a, b, response, ha, hrequest, hb, hpayload⟩ := h
  exact ⟨a, b, response, hx.trans ha, hrequest, hb.trans hy, hpayload⟩

/-- Between two states the members of an owner were fetched: the link for them was followed, and
of each record in the answer that counts a new resource was made, in the order of the answer. -/
structure Lists (client : Client σ) (w w' : World σ) (owner : Ref) (family : Family)
    (representations : List Representation) (refs : List Ref) : Prop where
  owns : Family.ofOwner? (w'.resource owner).kind = some family
  fetched : ∃ catalog link payload, (w'.resource owner).catalog = some catalog ∧
    catalog.find? family.listRelation = some (.link link) ∧
    client.Fetched w.exchange w'.exchange link payload ∧
    payload.listOf? family.recordKind = some representations
  fresh : ∀ r ∈ refs, w.store.next ≤ r ∧ r < w'.store.next
  nodup : refs.Nodup
  shows : List.Forall₂ (fun r representation => (w'.resource r).Shows owner representation) refs
    (representations.filter family.admits)

/-- Between two states the gears of an application were fetched. -/
def ListsGears (client : Client σ) (w w' : World σ) (application : Ref)
    (gears : List Representation.Gear) : Prop :=
  ∃ catalog link payload, (w'.resource application).catalog = some catalog ∧
    catalog.find? Relation.getGears = some (.link link) ∧
    client.Fetched w.exchange w'.exchange link payload ∧ payload.gears? = some gears

/-- Between two states the catalog of the root was fetched. -/
def FetchesRoot (client : Client σ) (w w' : World σ) (catalog : Catalog) : Prop :=
  ∃ payload, client.Fetched w.exchange w'.exchange rootLink payload ∧
    rootCatalog? payload = some catalog

/-- The members of a resource are those that it had, or there were none and they were fetched. -/
def FillsMembers (client : Client σ) (w w' : World σ) (r : Ref) : Prop :=
  (w'.resource r).members.cell.items? = (w.resource r).members.cell.items? ∨
    (w.resource r).members.cell.items? = none ∧
      ∃ family representations refs, (w'.resource r).members.cell.items? = some refs ∧
        client.Lists w w' r family representations refs

/-- The gears of a resource are those that it had, or there were none and they were fetched. -/
def FillsGears (client : Client σ) (w w' : World σ) (r : Ref) : Prop :=
  (w'.resource r).gears.cell.items? = (w.resource r).gears.cell.items? ∨
    (w.resource r).gears.cell.items? = none ∧
      ∃ gears, (w'.resource r).gears.cell.items? = some gears ∧ client.ListsGears w w' r gears

/-- Everything that was known of the resources stays; all that can have come in is the catalog of
the root, the members of owners and the gears of applications, where there were none. -/
structure Keeps (client : Client σ) (w w' : World σ) : Prop where
  exchange : w.exchange.Continues client.transport w'.exchange
  next : w.store.next ≤ w'.store.next
  owner : ∀ r < w.store.next, (w'.resource r).owner = (w.resource r).owner
  attributes : ∀ r < w.store.next, (w'.resource r).attributes = (w.resource r).attributes
  creationLog : ∀ r < w.store.next, (w'.resource r).creationLog = (w.resource r).creationLog
  catalog : ∀ r < w.store.next, (w'.resource r).catalog = (w.resource r).catalog ∨
    (w.resource r).catalog = none ∧ (w.resource r).kind = .connection ∧
      ∃ catalog, (w'.resource r).catalog = some catalog ∧ client.FetchesRoot w w' catalog
  members : ∀ r, client.FillsMembers w w' r
  gears : ∀ r, client.FillsGears w w' r
  made : ∀ r < w'.store.next, w.store.next ≤ r →
    ∃ owner representation, (w'.resource r).Shows owner representation

/-- What was fetched stays so when one looks further back and further ahead. -/
theorem Lists.mono {w w' v v' : World σ} {owner : Ref} {family : Family}
    {representations : List Representation} {refs : List Ref}
    (h : client.Lists w w' owner family representations refs)
    (hkind : (v'.resource owner).kind = (w'.resource owner).kind)
    (hnext : v.store.next ≤ w.store.next)
    (hexchange : v.exchange.Continues client.transport w.exchange)
    (hcatalog : ∀ {catalog}, (w'.resource owner).catalog = some catalog →
      (v'.resource owner).catalog = some catalog)
    (hshows : ∀ {r representation}, r < w'.store.next → (w'.resource r).Shows owner representation →
      (v'.resource r).Shows owner representation)
    (hnext' : w'.store.next ≤ v'.store.next)
    (hexchange' : w'.exchange.Continues client.transport v'.exchange) :
    client.Lists v v' owner family representations refs where
  owns := by rw [hkind, h.owns]
  fetched := by
    obtain ⟨catalog, link, payload, hc, hlink, hfetched, hlist⟩ := h.fetched
    exact ⟨catalog, link, payload, hcatalog hc, hlink, hfetched.mono hexchange hexchange', hlist⟩
  fresh r hr := ⟨hnext.trans (h.fresh r hr).1, (h.fresh r hr).2.trans_le hnext'⟩
  nodup := h.nodup
  shows := by
    refine List.forall₂_iff_get.mpr ⟨h.shows.length_eq, fun i hi hi' => ?_⟩
    exact hshows (h.fresh _ (List.get_mem _ _)).2 (h.shows.get hi hi')

theorem ListsGears.mono {w w' v v' : World σ} {application : Ref}
    {gears : List Representation.Gear} (h : client.ListsGears w w' application gears)
    (hexchange : v.exchange.Continues client.transport w.exchange)
    (hcatalog : ∀ {catalog}, (w'.resource application).catalog = some catalog →
      (v'.resource application).catalog = some catalog)
    (hexchange' : w'.exchange.Continues client.transport v'.exchange) :
    client.ListsGears v v' application gears := by
  obtain ⟨catalog, link, payload, hc, hlink, hfetched, hlist⟩ := h
  exact ⟨catalog, link, payload, hcatalog hc, hlink, hfetched.mono hexchange hexchange', hlist⟩

theorem FetchesRoot.mono {w w' v v' : World σ} {catalog : Catalog}
    (h : client.FetchesRoot w w' catalog) (hv : v.exchange.Continues client.transport w.exchange)
    (hv' : w'.exchange.Continues client.transport v'.exchange) :
    client.FetchesRoot v v' catalog := by
  obtain ⟨payload, hfetched, hroot⟩ := h
  exact ⟨payload, hfetched.mono hv hv', hroot⟩

namespace Keeps

variable {w w₁ w₂ : World σ}

/-- Resources may be added. -/
theorem of_resource (hexchange : w.exchange.Continues client.transport w₁.exchange)
    (hnext : w.store.next ≤ w₁.store.next)
    (h : ∀ r < w.store.next, w₁.resource r = w.resource r)
    (hmade : ∀ r < w₁.store.next, w.store.next ≤ r →
      ∃ owner representation, w₁.resource r = .ofRepresentation owner representation) :
    client.Keeps w w₁ where
  exchange := hexchange
  next := hnext
  owner r hr := by rw [h r hr]
  attributes r hr := by rw [h r hr]
  creationLog r hr := by rw [h r hr]
  catalog r hr := .inl (by rw [h r hr])
  members r := .inl (by rw [(World.cells_of_made h hmade r).1])
  gears r := .inl (by rw [(World.cells_of_made h hmade r).2])
  made r hr hr' := by
    obtain ⟨owner, representation, hr⟩ := hmade r hr hr'
    exact ⟨owner, representation, congrArg Resource.core hr⟩

/-- The exchange may move on. -/
theorem of_exchange (w : World σ) {x : Exchange σ}
    (h : w.exchange.Continues client.transport x) : client.Keeps w { w with exchange := x } :=
  of_resource h le_rfl (fun _ _ => rfl) fun _ hr hr' => absurd hr (Nat.not_lt.mpr hr')

theorem refl (w : World σ) : client.Keeps w w := of_exchange w (.refl _)

theorem note (w : World σ) (entry : LogEntry) : client.Keeps w (w.note entry) :=
  of_exchange w ((Exchange.Continues.refl _).note entry)

theorem kind (h : client.Keeps w w₁) {r : Ref} (hr : r < w.store.next) :
    (w₁.resource r).kind = (w.resource r).kind := by
  rw [Resource.kind, h.attributes r hr, Resource.kind]

/-- Where no resource was made, none has other attributes. -/
theorem attributes_of_next_eq (h : client.Keeps w w₁) (hnext : w₁.store.next = w.store.next)
    (r : Ref) : (w₁.resource r).attributes = (w.resource r).attributes := by
  obtain hlt | hle := Nat.lt_or_ge r w.store.next
  · exact h.attributes r hlt
  · rw [World.resource_of_next_le hle, World.resource_of_next_le (by rwa [hnext])]

theorem catalog_of_some (h : client.Keeps w w₁) {r : Ref} (hr : r < w.store.next)
    {catalog : Catalog} (hc : (w.resource r).catalog = some catalog) :
    (w₁.resource r).catalog = some catalog := by
  obtain h | ⟨hnone, -⟩ := h.catalog r hr
  · rw [h, hc]
  · simp [hc] at hnone

theorem items_of_some (h : client.Keeps w w₁) {r : Ref} {refs : List Ref}
    (hrefs : (w.resource r).members.cell.items? = some refs) :
    (w₁.resource r).members.cell.items? = some refs := by
  obtain h | ⟨hnone, -⟩ := h.members r
  · rw [h, hrefs]
  · simp [hrefs] at hnone

theorem shows (h : client.Keeps w w₁) {r owner : Ref} (hr : r < w.store.next)
    {representation : Representation} (hs : (w.resource r).Shows owner representation) :
    (w₁.resource r).Shows owner representation := by
  have hcatalog : (w.resource r).catalog = some (.ofLinks representation.common.links) :=
    congrArg (·.2.2.2) hs
  rw [Resource.Shows, ← hs, Resource.core, h.owner r hr, h.attributes r hr, h.creationLog r hr,
    h.catalog_of_some hr hcatalog, ← hcatalog]
  rfl

end Keeps

theorem Lists.owner_lt {w w' : World σ} {owner : Ref} {family : Family}
    {representations : List Representation} {refs : List Ref}
    (h : client.Lists w w' owner family representations refs) : owner < w'.store.next := by
  obtain ⟨catalog, -, -, hcatalog, -⟩ := h.fetched
  exact World.lt_next_of_catalog hcatalog

/-- What was fetched by a later state was fetched by the time of a still later one. -/
theorem Lists.later {w w₁ w₂ : World σ} {owner : Ref} {family : Family}
    {representations : List Representation} {refs : List Ref}
    (h : client.Lists w w₁ owner family representations refs) (h' : client.Keeps w₁ w₂) :
    client.Lists w w₂ owner family representations refs :=
  h.mono (h'.kind h.owner_lt) le_rfl (.refl _) (h'.catalog_of_some h.owner_lt)
    (fun hlt => h'.shows hlt) h'.next h'.exchange

/-- What was fetched since a state was fetched since an earlier one. -/
theorem Lists.earlier {w w₁ w₂ : World σ} {owner : Ref} {family : Family}
    {representations : List Representation} {refs : List Ref}
    (h : client.Lists w₁ w₂ owner family representations refs) (h' : client.Keeps w w₁) :
    client.Lists w w₂ owner family representations refs :=
  h.mono rfl h'.next h'.exchange id (fun _ => id) le_rfl (.refl _)

theorem FillsMembers.trans {w w₁ w₂ : World σ} {r : Ref} (h : client.Keeps w w₁)
    (h' : client.Keeps w₁ w₂) : client.FillsMembers w w₂ r := by
  obtain heq | ⟨hnone, family, representations, refs, hrefs, hl⟩ := h.members r
  · obtain heq' | ⟨hnone, family, representations, refs, hrefs, hl⟩ := h'.members r
    · exact .inl (heq'.trans heq)
    · exact .inr ⟨heq ▸ hnone, family, representations, refs, hrefs, hl.earlier h⟩
  · exact .inr ⟨hnone, family, representations, refs, h'.items_of_some hrefs, hl.later h'⟩

theorem FillsGears.trans {w w₁ w₂ : World σ} {r : Ref} (h : client.Keeps w w₁)
    (h' : client.Keeps w₁ w₂) : client.FillsGears w w₂ r := by
  obtain heq | ⟨hnone, gears, hgears, hl⟩ := h.gears r
  · obtain heq' | ⟨hnone, gears, hgears, hl⟩ := h'.gears r
    · exact .inl (heq'.trans heq)
    · exact .inr ⟨heq ▸ hnone, gears, hgears, hl.mono h.exchange id (.refl _)⟩
  · obtain heq' | ⟨hnone', -⟩ := h'.gears r
    · have hlater := hl
      obtain ⟨catalog, -, -, hcatalog, -⟩ := hlater
      have hr := World.lt_next_of_catalog hcatalog
      exact .inr ⟨hnone, gears, heq'.trans hgears,
        hl.mono (.refl _) (h'.catalog_of_some hr) h'.exchange⟩
    · simp [hgears] at hnone'

theorem Keeps.trans {w w₁ w₂ : World σ} (h : client.Keeps w w₁) (h' : client.Keeps w₁ w₂) :
    client.Keeps w w₂ where
  exchange := h.exchange.trans h'.exchange
  next := h.next.trans h'.next
  owner r hr := by rw [h'.owner r (hr.trans_le h.next), h.owner r hr]
  attributes r hr := by rw [h'.attributes r (hr.trans_le h.next), h.attributes r hr]
  creationLog r hr := by rw [h'.creationLog r (hr.trans_le h.next), h.creationLog r hr]
  catalog r hr := by
    have hr₁ := hr.trans_le h.next
    obtain heq | ⟨hnone, hkind, catalog, hcatalog, hroot⟩ := h.catalog r hr
    · obtain heq' | ⟨hnone, hkind, catalog, hcatalog, hroot⟩ := h'.catalog r hr₁
      · exact .inl (heq'.trans heq)
      · exact .inr ⟨heq ▸ hnone, h.kind hr ▸ hkind, catalog, hcatalog,
          hroot.mono h.exchange (.refl _)⟩
    · exact .inr ⟨hnone, hkind, catalog, h'.catalog_of_some hr₁ hcatalog,
        hroot.mono (.refl _) h'.exchange⟩
  members _ := FillsMembers.trans h h'
  gears _ := FillsGears.trans h h'
  made r hr hr' := by
    obtain hlt | hle := Nat.lt_or_ge r w₁.store.next
    · obtain ⟨owner, representation, hs⟩ := h.made r hlt hr'
      exact ⟨owner, representation, h'.shows hlt hs⟩
    · exact h'.made r hr hle

/-! ## Filling one place more -/

section Alter

variable {w w₁ : World σ} {r : Ref} {f : Resource → Resource}

theorem Lists.alter (hcore : ∀ x, (f x).core = x.core) {owner : Ref} {family : Family}
    {representations : List Representation} {refs : List Ref}
    (h : client.Lists w w₁ owner family representations refs) :
    client.Lists w (w₁.alter r f) owner family representations refs := by
  have hkeep := World.resource_alter_congr Resource.core hcore w₁ r
  refine h.mono ?_ le_rfl (.refl _) (fun hc => ?_) (fun {r' representation} _ hs => ?_)
    (by simp) (.refl _)
  · exact congrArg (·.2.1.kind) (hkeep owner)
  · exact (congrArg (·.2.2.2) (hkeep owner)).trans hc
  · exact (hkeep r').trans hs

theorem ListsGears.alter (hcore : ∀ x, (f x).core = x.core) {application : Ref}
    {gears : List Representation.Gear} (h : client.ListsGears w w₁ application gears) :
    client.ListsGears w (w₁.alter r f) application gears := by
  have hkeep := World.resource_alter_congr Resource.core hcore w₁ r application
  exact h.mono (.refl _) (fun hc => (congrArg (·.2.2.2) hkeep).trans hc) (.refl _)

theorem Keeps.alter (hcore : ∀ x, (f x).core = x.core) (h : client.Keeps w w₁)
    (hmembers : ∀ r', client.FillsMembers w (w₁.alter r f) r')
    (hgears : ∀ r', client.FillsGears w (w₁.alter r f) r') :
    client.Keeps w (w₁.alter r f) := by
  have hkeep := World.resource_alter_congr Resource.core hcore w₁ r
  refine ⟨h.exchange, by simpa using h.next, fun r' hr' => ?_, fun r' hr' => ?_, fun r' hr' => ?_,
    fun r' hr' => ?_, hmembers, hgears, fun r' hr' hle => ?_⟩
  · exact (congrArg (·.1) (hkeep r')).trans (h.owner r' hr')
  · exact (congrArg (·.2.1) (hkeep r')).trans (h.attributes r' hr')
  · exact (congrArg (·.2.2.1) (hkeep r')).trans (h.creationLog r' hr')
  · have hcatalog := congrArg (·.2.2.2) (hkeep r')
    obtain heq | ⟨hnone, hkind, catalog, hc, hroot⟩ := h.catalog r' hr'
    · exact .inl (hcatalog.trans heq)
    · exact .inr ⟨hnone, hkind, catalog, hcatalog.trans hc, hroot⟩
  · obtain ⟨owner, representation, hs⟩ := h.made r' (by simpa using hr') hle
    exact ⟨owner, representation, (hkeep r').trans hs⟩

end Alter

/-- A place for members that was empty is emptied again, or filled with what was fetched. -/
theorem Keeps.fill_members {w w₁ : World σ} {r : Ref} {cell : Lazy.Cell Ref}
    (h : client.Keeps w w₁) (hnone : (w.resource r).members.cell.items? = none)
    (hcell : ∀ refs, cell.items? = some refs →
      ∃ family representations, client.Lists w w₁ r family representations refs) :
    client.Keeps w ((World.members r).fill cell w₁) := by
  rw [World.fill_members]
  have hcore := Resource.core_withMembers cell
  refine h.alter hcore (fun r' => ?_) (fun r' => ?_)
  · by_cases he : r = r'
    · subst he
      obtain hlt | hle := Nat.lt_or_ge r w₁.store.next
      · rw [FillsMembers, World.resource_alter_self hlt, hnone]
        cases hc : cell.items? with
        | none => exact .inl hc
        | some refs =>
          obtain ⟨family, representations, hl⟩ := hcell refs hc
          exact .inr ⟨rfl, family, representations, refs, hc, hl.alter hcore⟩
      · rw [FillsMembers, World.resource_of_next_le (by rwa [World.next_alter]), hnone]
        exact .inl rfl
    · have hsame := World.resource_alter_of_ne he w₁ (·.withMembers cell)
      obtain heq | ⟨hnone, family, representations, refs, hrefs, hl⟩ := h.members r'
      · exact .inl (by rw [hsame, heq])
      · exact .inr ⟨hnone, family, representations, refs, by rw [hsame, hrefs], hl.alter hcore⟩
  · have hsame := World.resource_alter_congr (·.gears) (f := (·.withMembers cell))
      (fun _ => rfl) w₁ r r'
    obtain heq | ⟨hnone, gears, hgears, hl⟩ := h.gears r'
    · exact .inl (by rw [hsame, heq])
    · exact .inr ⟨hnone, gears, by rw [hsame, hgears], hl.alter hcore⟩

/-- A place for gears that was empty is emptied again, or filled with what was fetched. -/
theorem Keeps.fill_gears {w w₁ : World σ} {r : Ref} {cell : Lazy.Cell Representation.Gear}
    (h : client.Keeps w w₁) (hnone : (w.resource r).gears.cell.items? = none)
    (hcell : ∀ gears, cell.items? = some gears → client.ListsGears w w₁ r gears) :
    client.Keeps w ((World.gears r).fill cell w₁) := by
  rw [World.fill_gears]
  have hcore := Resource.core_withGears cell
  refine h.alter hcore (fun r' => ?_) (fun r' => ?_)
  · have hsame := World.resource_alter_congr (·.members) (f := (·.withGears cell))
      (fun _ => rfl) w₁ r r'
    obtain heq | ⟨hnone, family, representations, refs, hrefs, hl⟩ := h.members r'
    · exact .inl (by rw [hsame, heq])
    · exact .inr ⟨hnone, family, representations, refs, by rw [hsame, hrefs], hl.alter hcore⟩
  · by_cases he : r = r'
    · subst he
      obtain hlt | hle := Nat.lt_or_ge r w₁.store.next
      · rw [FillsGears, World.resource_alter_self hlt, hnone]
        cases hc : cell.items? with
        | none => exact .inl hc
        | some gears => exact .inr ⟨rfl, gears, hc, (hcell gears hc).alter hcore⟩
      · rw [FillsGears, World.resource_of_next_le (by rwa [World.next_alter]), hnone]
        exact .inl rfl
    · have hsame := World.resource_alter_of_ne he w₁ (·.withGears cell)
      obtain heq | ⟨hnone, gears, hgears, hl⟩ := h.gears r'
      · exact .inl (by rw [hsame, heq])
      · exact .inr ⟨hnone, gears, by rw [hsame, hgears], hl.alter hcore⟩

/-! ## Filling places -/

/-- Nothing happened to the resources of a state but that places were filled that had not been
fetched, and no loading that began is left unfinished. -/
structure Fills (client : Client σ) (w w' : World σ) : Prop extends client.Keeps w w' where
  idle_members : ∀ r, (w'.resource r).members.cell = .loading →
    (w.resource r).members.cell = .loading
  idle_gears : ∀ r, (w'.resource r).gears.cell = .loading → (w.resource r).gears.cell = .loading

namespace Fills

variable {w w₁ w₂ : World σ}

/-- Resources may be added. -/
theorem of_resource (hexchange : w.exchange.Continues client.transport w₁.exchange)
    (hnext : w.store.next ≤ w₁.store.next)
    (h : ∀ r < w.store.next, w₁.resource r = w.resource r)
    (hmade : ∀ r < w₁.store.next, w.store.next ≤ r →
      ∃ owner representation, w₁.resource r = .ofRepresentation owner representation) :
    client.Fills w w₁ where
  toKeeps := .of_resource hexchange hnext h hmade
  idle_members r hr := by rwa [(World.cells_of_made h hmade r).1] at hr
  idle_gears r hr := by rwa [(World.cells_of_made h hmade r).2] at hr

/-- The exchange may move on. -/
theorem of_exchange (w : World σ) {x : Exchange σ}
    (h : w.exchange.Continues client.transport x) : client.Fills w { w with exchange := x } where
  toKeeps := .of_exchange w h
  idle_members _ := id
  idle_gears _ := id

theorem refl (w : World σ) : client.Fills w w := of_exchange w (.refl _)

theorem note (w : World σ) (entry : LogEntry) : client.Fills w (w.note entry) :=
  of_exchange w ((Exchange.Continues.refl _).note entry)

theorem trans {w w₁ w₂ : World σ} (h : client.Fills w w₁) (h' : client.Fills w₁ w₂) :
    client.Fills w w₂ where
  toKeeps := h.toKeeps.trans h'.toKeeps
  idle_members r hr := h.idle_members r (h'.idle_members r hr)
  idle_gears r hr := h.idle_gears r (h'.idle_gears r hr)

end Fills

end Client

end BrokerClient.Hierarchy

import BrokerClient.Proofs.Hierarchy.Loading

/-!
# Honest servers

A server keeps the members of one owner as an ordered list of names. It is honest if it lists
exactly these, adds a name that it does not hold at the end, removes a name that it holds, and
offers the links for all of that with whatever it represents. Any call may fail instead, and then
the names stay as they are.

Here is what that comes to on the side of the client, one statement for each step from a relation
to the data of an answer: either the data are those of an honest answer, or the error stands for
the failure of a call that was made.
-/
namespace BrokerClient.Hierarchy

open Hierarchy.Action

variable {σ α : Type}

/-- What a call asks of the server. -/
inductive Intent where
  | root
  | owner
  | list
  | add (name : String)
  | remove (name : String)

/-- How a server keeps the members of one owner: the names that it holds, in order, and what a call
asks of it. -/
structure Ledger (σ : Type) where
  held : σ → List String
  intent? : Call → Option Intent

namespace Family

/-- The kind of the owners. -/
def ownerKind : Family → ResourceKind
  | domains => .connection
  | applications => .domain
  | cartridges => .application
  | keys => .user

theorem ofOwner?_ownerKind (family : Family) : ofOwner? family.ownerKind = some family := by
  cases family <;> rfl

/-- Where the representation of an owner comes from: the kind of the resource that is asked, the
relation and the kind of record. Connections have none. -/
def ownerSource? : Family → Option (ResourceKind × String × RecordKind)
  | domains => none
  | applications => some (.domain, Relation.get, .domain)
  | cartridges => some (.application, Relation.get, .application)
  | keys => some (.connection, Relation.getUser, .user)

end Family

/-- The family of what is to be created. -/
def Creation.family : Creation → Family
  | domain .. => .domains
  | application .. => .applications
  | cartridge .. => .cartridges
  | key .. => .keys

namespace Client

section Honest

variable (client : Client σ) (ledger : Ledger σ) (family : Family)

/-- A link that is followed with parameters that pass asks the server for something. -/
def Means (link : Link) (parameters : Parameters) (deleteWithBody : Bool) (intent : Intent) :
    Prop :=
  Request.check link parameters = .ok () →
    ∃ url call, client.service.Sends link parameters deleteWithBody url call ∧
      ledger.intent? call = some intent

/-- A link that is followed without parameters, which pass, asks the server for something. -/
structure Leads (link : Link) (intent : Intent) : Prop where
  passes : Request.check link [] = .ok ()
  means : client.Means ledger link [] false intent

/-- The links that a resource needs in order to have its members listed and added to, and to have
the owner represented, as far as these are asked of resources of its kind. -/
structure Offers (kind : ResourceKind) (catalog : Catalog) : Prop where
  list : kind = family.ownerKind →
    ∃ link, catalog.find? family.listRelation = some (.link link) ∧ client.Leads ledger link .list
  add : kind = family.ownerKind →
    ∃ link, catalog.find? family.addRelation = some (.link link) ∧
      ∀ (creation : Creation) name parameters, creation.family = family →
        creation.name.asText? = some name → creation.parameters = .ok parameters →
        client.Means ledger link parameters false (.add name)
  owner : ∀ relation record, family.ownerSource? = some (kind, relation, record) →
    ∃ link, catalog.find? relation = some (.link link) ∧ client.Leads ledger link .owner

/-- The link that a member needs in order to be destroyed. -/
def Removable (name : String) (catalog : Catalog) : Prop :=
  ∃ link, catalog.find? Relation.delete = some (.link link) ∧
    ∀ force attributes, attributes.kind = family.memberKind →
      client.Means ledger link (destruction force attributes).1 (destruction force attributes).2
        (.remove name)

/-- A record stands for the member of a name. -/
structure Represents (name : String) (representation : Representation) : Prop where
  name_eq : representation.name = name
  admitted : family.admits representation = true
  removable : client.Removable ledger family name (.ofLinks representation.common.links)

/-- What an honest server that holds some names answers if it does what it is asked, and the names
that it holds then. Records that do not count as members may be among those that are listed. -/
inductive Answers : Intent → List String → Payload → List String → Prop
  | root {names : List String} {payload : Payload} {catalog : Catalog}
      (hroot : rootCatalog? payload = some catalog)
      (hoffers : client.Offers ledger family .connection catalog) :
      Answers .root names payload names
  | owner {names : List String} {payload : Payload} {kind : ResourceKind} {relation : String}
      {record : RecordKind} {representation : Representation}
      (hsource : family.ownerSource? = some (kind, relation, record))
      (hrecord : payload.singleOf? record = some representation)
      (hoffers : client.Offers ledger family family.ownerKind
        (.ofLinks representation.common.links)) :
      Answers .owner names payload names
  | list {names : List String} {payload : Payload} {representations : List Representation}
      (hlist : payload.listOf? family.recordKind = some representations)
      (hnames : List.Forall₂ (client.Represents ledger family) names
        (representations.filter family.admits)) :
      Answers .list names payload names
  | add {names : List String} {name : String} {payload : Payload}
      {representation : Representation} (hnew : name ∉ names)
      (hrecord : payload.singleOf? family.recordKind = some representation)
      (hname : client.Represents ledger family name representation) :
      Answers (.add name) names payload (names ++ [name])
  | remove {names : List String} {name : String} {payload : Payload} (hmem : name ∈ names) :
      Answers (.remove name) names payload (names.erase name)

/-- The replies of an honest server to what it is asked. One that says nothing, because the call
failed or because it cannot be read, leaves the names as they were. -/
inductive Replies : Intent → List String → Reply → List String → Prop
  | failed {intent : Intent} {reply : Reply} (names : List String)
      (h : ∀ url response, client.service.interpret url reply ≠ .ok response) :
      Replies intent names reply names
  | answered {intent : Intent} {names names' : List String} {body : Body}
      {response : Option Response}
      (hbody : Response.ofBody client.service.depth body = .ok response)
      (h : client.Answers ledger family intent names (Response.payload response) names') :
      Replies intent names (.ok body) names'

/-- A server is honest if all its replies are, its API root being one of the things it is asked
for. -/
structure Honest : Prop where
  root : client.Leads ledger rootLink .root
  replies : ∀ {call intent} server, ledger.intent? call = some intent →
    client.Replies ledger family intent (ledger.held server)
      (client.transport.send call server).1
      (ledger.held (client.transport.send call server).2)

/-- A resource has the links that it needs, or it is a connection that will ask for them. -/
def Stands (w : World σ) (r : Ref) : Prop :=
  ((w.resource r).catalog = none ∧ (w.resource r).kind = .connection) ∨
    ∃ catalog, (w.resource r).catalog = some catalog ∧
      client.Offers ledger family (w.resource r).kind catalog

/-- The catalog of a resource has a link under a relation. -/
def HasLink (w : World σ) (r : Ref) (relation : String) (link : Link) : Prop :=
  ∃ catalog, (w.resource r).catalog = some catalog ∧ catalog.find? relation = some (.link link)

/-- An error stands for the reply to a call that was made in between. -/
def Refused (w w' : World σ) (e : Raised) : Prop :=
  ∃ x url call e', w.exchange.Continues client.transport x ∧
    (x.send client.transport call).2.Continues client.transport w'.exchange ∧
    client.service.interpret url (x.send client.transport call).1 = .error e' ∧ e = .client e'

/-- Places were filled in between, but none for members. -/
structure Reads (w w' : World σ) : Prop where
  fills : client.Fills w w'
  members : ∀ r, (w'.resource r).members.cell.items? = (w.resource r).members.cell.items?

/-- Besides, the server holds the names that it held. -/
structure Rests (w w' : World σ) : Prop extends client.Reads w w' where
  held : ledger.held w'.exchange.server = ledger.held w.exchange.server

end Honest

variable {client : Client σ} {ledger : Ledger σ} {family : Family} {w w₁ w₂ w' : World σ} {r : Ref}
  {relation : String} {link : Link} {parameters : Parameters} {intent : Intent}

theorem Refused.mono {e : Raised} (h : client.Refused w₁ w₂ e)
    (hw : w.exchange.Continues client.transport w₁.exchange)
    (hw' : w₂.exchange.Continues client.transport w'.exchange) : client.Refused w w' e := by
  obtain ⟨x, url, call, e', hx, hsent, hreply, he⟩ := h
  exact ⟨x, url, call, e', hw.trans hx, hsent.trans hw', hreply, he⟩

namespace Reads

theorem trans (h : client.Reads w w₁) (h' : client.Reads w₁ w₂) : client.Reads w w₂ where
  fills := h.fills.trans h'.fills
  members r := (h'.members r).trans (h.members r)

/-- What leaves the resources alone lists nothing. -/
theorem of_store (h : client.Fills w w') (hstore : w'.store = w.store) : client.Reads w w' :=
  ⟨h, fun r => by rw [World.resource, hstore, World.resource]⟩

end Reads

namespace Rests

theorem refl (w : World σ) : client.Rests ledger w w := ⟨⟨.refl w, fun _ => rfl⟩, rfl⟩

theorem trans (h : client.Rests ledger w w₁) (h' : client.Rests ledger w₁ w₂) :
    client.Rests ledger w w₂ :=
  ⟨h.toReads.trans h'.toReads, h'.held.trans h.held⟩

theorem of_store (h : client.Fills w w') (hstore : w'.store = w.store)
    (hheld : ledger.held w'.exchange.server = ledger.held w.exchange.server) :
    client.Rests ledger w w' :=
  ⟨.of_store h hstore, hheld⟩

end Rests

theorem HasLink.fills (hw : HasLink w r relation link) (h : client.Fills w w') :
    HasLink w' r relation link := by
  obtain ⟨catalog, hcatalog, hfind⟩ := hw
  exact ⟨catalog, h.catalog_of_some (World.lt_next_of_catalog hcatalog) hcatalog, hfind⟩

/-! ## Calls -/

/-- What an honest reply is to the client. -/
theorem Replies.interpret {names names' : List String} {reply : Reply}
    (h : client.Replies ledger family intent names reply names') (url : String) :
    (names' = names ∧ ∃ e, client.service.interpret url reply = .error e) ∨
      ∃ response, client.service.interpret url reply = .ok response ∧
        client.Answers ledger family intent names (Response.payload response) names' := by
  cases h with
  | failed _ hfailed =>
    cases hreply : client.service.interpret url reply with
    | error e => exact .inl ⟨rfl, e, rfl⟩
    | ok response => exact absurd hreply (hfailed url response)
  | answered hbody hanswers =>
    refine .inr ⟨_, ?_, hanswers⟩
    simp only [Service.interpret, Service.interpretWith, Service.unmarshal, hbody, Except.mapError]

theorem send_ends (hhonest : client.Honest ledger family) {deleteWithBody : Bool}
    (hmeans : client.Means ledger link parameters deleteWithBody intent) (w : World σ) :
    (client.send link parameters deleteWithBody).Ends w
      (fun payload w' => w'.store = w.store ∧ client.Answers ledger family intent
        (ledger.held w.exchange.server) payload (ledger.held w'.exchange.server))
      (fun e w' => client.Rests ledger w w' ∧
        (client.Refused w w' e ∨ Request.check link parameters = .error e)) := by
  have hsend := client.exec_send link parameters deleteWithBody w
  have hfills := (client.send_fills link parameters deleteWithBody).of_eq hsend
  cases hcheck : Request.check link parameters with
  | error e =>
    simp only [Service.request, Service.requestWith, Service.prepare, hcheck] at hsend
    exact (ends_of_error hsend).mpr ⟨.refl w, .inr rfl⟩
  | ok =>
    obtain ⟨url, call, hsends, hintent⟩ := hmeans hcheck
    simp only [Service.request_of_sends hsends, Exchange.send] at hsend hfills
    obtain ⟨hheld, e, hreply⟩ | ⟨response, hreply, hanswers⟩ :=
      (hhonest.replies w.exchange.server hintent).interpret url
    · simp only [Exchange.note, hreply] at hsend hfills
      refine (ends_of_error hsend).mpr ⟨.of_store hfills rfl hheld, .inl ?_⟩
      exact ⟨w.exchange.note _, url, call, e, (Exchange.Continues.refl _).note _, .refl _, hreply,
        rfl⟩
    · simp only [Exchange.note, hreply] at hsend
      exact (ends_of_ok hsend).mpr ⟨rfl, hanswers⟩

/-! ## Links -/

/-- The root is offered with all the links that are asked of it. -/
theorem fetchRoot_ends (hhonest : client.Honest ledger family) (w : World σ) :
    client.fetchRoot.Ends w
      (fun catalog w' => client.Rests ledger w w' ∧ client.Offers ledger family .connection catalog)
      (fun e w' => client.Rests ledger w w' ∧ client.Refused w w' e) := by
  rw [fetchRoot, ends_bind]
  refine (send_ends hhonest hhonest.root.means w).within (client.send_fills _ _ _) ?_ ?_
  · rintro payload w₁ hfills ⟨hstore, hanswers⟩
    generalize hheld : ledger.held w₁.exchange.server = names at hanswers
    cases hanswers with
    | root hroot hoffers =>
      simp only [hroot]
      exact ⟨.of_store (hfills.trans (.note w₁ _)) hstore hheld, hoffers⟩
  · rintro e w₁ - ⟨hrests, hrefused | hcheck⟩
    · exact ⟨hrests, hrefused⟩
    · rw [hhonest.root.passes] at hcheck
      cases hcheck

theorem links_ends (hhonest : client.Honest ledger family)
    (hstands : client.Stands ledger family w r) :
    (client.links r).Ends w
      (fun catalog w' => client.Rests ledger w w' ∧
        client.Offers ledger family (w.resource r).kind catalog)
      (fun e w' => client.Rests ledger w w' ∧ client.Refused w w' e) := by
  obtain ⟨hnone, hkind⟩ | ⟨catalog, hcatalog, hoffers⟩ := hstands
  · have hroot := fetchRoot_ends hhonest w
    rcases hlinks : (client.links r).exec w with ⟨e | catalog, w'⟩
    · rw [ends_of_error hlinks]
      obtain ⟨-, ⟨-, hfetch⟩ | ⟨hne, -⟩⟩ := links_eq_error.mp hlinks
      · exact (ends_of_error hfetch).mp hroot
      · exact absurd hkind hne
    · rw [ends_of_ok hlinks]
      obtain ⟨hsome, -⟩ | ⟨-, -, w₁, hfetch, rfl⟩ := links_eq_ok.mp hlinks
      · rw [hnone] at hsome
        cases hsome
      · obtain ⟨hrests, hoffers⟩ := (ends_of_ok hfetch).mp hroot
        refine ⟨⟨⟨(client.links_fills r).of_eq hlinks, fun r' => ?_⟩, ?_⟩, hkind ▸ hoffers⟩
        · have hkeep := World.resource_alter_congr (·.members.cell.items?)
            (f := fun x => { x with catalog := some catalog }) (fun _ => rfl)
            (w₁.warn (w₁.resource r).kind catalog) r r'
          rw [World.resource_warn] at hkeep
          exact hkeep.trans (hrests.members r')
        · have hserver := (w₁.warn_logs (w₁.resource r).kind catalog).server
          exact (congrArg ledger.held hserver).trans hrests.held
  · exact (ends_of_ok (links_of_some hcatalog)).mpr ⟨.refl w, hoffers⟩

theorem link_ends (hhonest : client.Honest ledger family)
    (hstands : client.Stands ledger family w r) {P : Link → Prop}
    (hlink : ∀ catalog, client.Offers ledger family (w.resource r).kind catalog →
      ∃ link, catalog.find? relation = some (.link link) ∧ P link) :
    (client.link r relation).Ends w
      (fun link w' => client.Rests ledger w w' ∧ HasLink w' r relation link ∧ P link)
      (fun e w' => client.Rests ledger w w' ∧ client.Refused w w' e) := by
  have hends := links_ends hhonest hstands
  rcases hexec : (client.link r relation).exec w with ⟨e | link, w'⟩
  · rw [ends_of_error hexec]
    obtain hlinks | ⟨catalog, hlinks, hfound⟩ := link_eq_error.mp hexec
    · exact (ends_of_error hlinks).mp hends
    · obtain ⟨-, hoffers⟩ := (ends_of_ok hlinks).mp hends
      obtain ⟨link, hfind, -⟩ := hlink catalog hoffers
      simp [hfind] at hfound
  · rw [ends_of_ok hexec]
    obtain ⟨catalog, hlinks, hfind⟩ := link_eq_ok.mp hexec
    obtain ⟨hrests, hoffers⟩ := (ends_of_ok hlinks).mp hends
    obtain ⟨found, hfound, hP⟩ := hlink catalog hoffers
    obtain rfl : found = link := CatalogEntry.link.inj (Option.some.inj (hfound.symm.trans hfind))
    exact ⟨hrests, ⟨catalog, catalog_of_links hlinks, hfind⟩, hP⟩

/-! ## Answers -/

/-- If a link means something to an honest server, then the data that are expected are those of an
honest answer. -/
theorem expect_ends (hhonest : client.Honest ledger family)
    (hstands : client.Stands ledger family w r) {P : Link → Prop}
    (hlink : ∀ catalog, client.Offers ledger family (w.resource r).kind catalog →
      ∃ link, catalog.find? relation = some (.link link) ∧ P link)
    (hmeans : ∀ link, P link → client.Means ledger link parameters false intent)
    {view : Payload → Option α} {reason : Payload → EndpointReason}
    (hview : ∀ {names payload names'}, client.Answers ledger family intent names payload names' →
      ∃ a, view payload = some a) :
    (client.expect r relation parameters view reason).Ends w
      (fun a w' => client.Reads w w' ∧ ∃ payload, view payload = some a ∧
        client.Answers ledger family intent (ledger.held w.exchange.server) payload
          (ledger.held w'.exchange.server))
      (fun e w' => client.Rests ledger w w' ∧
        (client.Refused w w' e ∨ ∃ link, HasLink w' r relation link ∧ P link ∧
          Request.check link parameters = .error e)) := by
  rw [expect, ends_bind]
  refine (link_ends hhonest hstands hlink).mono ?_ ?_
  · rintro link w₁ ⟨hrests, hhas, hP⟩
    rw [ends_bind]
    refine (send_ends hhonest (hmeans link hP) w₁).within (client.send_fills _ _ _) ?_ ?_
    · rintro payload w₂ hfills ⟨hstore, hanswers⟩
      rw [hrests.held] at hanswers
      obtain ⟨a, ha⟩ := hview hanswers
      simp only [ha]
      exact ⟨hrests.toReads.trans (.of_store hfills hstore), payload, ha, hanswers⟩
    · rintro e w₂ hfills ⟨hrests', hrefused | hcheck⟩
      · exact ⟨hrests.trans hrests', .inl (hrefused.mono hrests.fills.exchange (.refl _))⟩
      · exact ⟨hrests.trans hrests', .inr ⟨link, hhas.fills hfills, hP, hcheck⟩⟩
  · rintro e w₁ ⟨hrests, hrefused⟩
    exact ⟨hrests, .inl hrefused⟩

end Client

end BrokerClient.Hierarchy

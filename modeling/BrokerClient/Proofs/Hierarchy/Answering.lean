import BrokerClient.Proofs.Hierarchy.Inquiry
import BrokerClient.Proofs.Hierarchy.Step

/-!
# Accounting for an answer

An inquiry accounts for what is done with its answer. What all operations share is accounted for
here: to get at a catalog, to follow a link, and the changes of the state that end an inquiry.
-/
namespace BrokerClient.Hierarchy

open Hierarchy.Action

variable {σ : Type} {client : Client σ} {w w' w₁ : World σ} {r : Ref}

namespace World

theorem resource_setCatalog (hr : r < w.store.next) (catalog : Catalog) (r' : Ref) :
    (w.setCatalog r catalog).resource r' =
      if r' = r then { w.resource r' with catalog := some catalog } else w.resource r' := by
  rw [setCatalog]
  split
  · rename_i h
    subst h
    rw [resource_alter_self (by simpa using hr), resource_warn]
  · rename_i h
    rw [resource_alter_of_ne (Ne.symm h), resource_warn]

theorem setCatalog_logs (w : World σ) (r : Ref) (catalog : Catalog) :
    w.exchange.Logs (w.setCatalog r catalog).exchange :=
  w.warn_logs _ _

/-- The catalogs of resources that are made of representations are those in them. -/
theorem catalog_adoptAll (w : World σ) (owner : Ref) (representations : List Representation)
    (r : Ref) :
    ((w.adoptAll owner representations).2.resource r).catalog =
      History.latest ((List.range' w.store.next representations.length).zip
        (representations.map fun representation => some (.ofLinks representation.common.links))) r
        (w.resource r).catalog := by
  induction representations generalizing w with
  | nil => rfl
  | cons representation rest ih =>
    rw [adoptAll_cons, ih, next_adopt, resource_adopt, List.length_cons, List.range'_succ,
      List.map_cons, List.zip_cons_cons, History.latest_cons]
    congr 1
    by_cases he : r = w.store.next
    · simp [he, Resource.ofRepresentation, Resource.fresh]
    · simp [he, Ne.symm he]

/-- The resources that are made of representations are made of one each, in order. -/
theorem resource_adoptAll_add (w : World σ) (owner : Ref) {representations : List Representation}
    {k : Nat} (hk : k < representations.length) :
    (w.adoptAll owner representations).2.resource (w.store.next + k) =
      .ofRepresentation owner representations[k] := by
  have hrefs := w.adoptAll_refs owner representations
  have hlength : k < (w.adoptAll owner representations).1.length := by
    rw [hrefs, List.length_range']
    exact hk
  have hmade := (w.resource_adoptAll owner representations).get hlength hk
  simpa [hrefs] using hmade

end World

namespace Client

/-! ## Catalogs and links -/

theorem data?_of_outcome {i : Inquiry σ} {payload : Payload}
    (h : (client.outcome i).1 = .ok payload) :
    client.data? i = i.purpose.read? payload := by
  rw [data?, h]
  rfl

theorem data?_of_error {i : Inquiry σ} {e : Raised} (h : (client.outcome i).1 = .error e) :
    client.data? i = none := by
  rw [data?, h]
  rfl

/-- The inquiry for the catalog of the root. -/
def rootInquiry (w : World σ) (r : Ref) : Inquiry σ := ⟨w, r, none, .root, rootLink, [], false⟩

theorem catalogInquiries_of_some {catalog : Catalog} (h : (w.resource r).catalog = some catalog) :
    w.catalogInquiries r = [] := by
  simp [World.catalogInquiries, h]

theorem catalogInquiries_of_root (h : (w.resource r).catalog = none)
    (hkind : (w.resource r).kind = .connection) : w.catalogInquiries r = [rootInquiry w r] := by
  simp [World.catalogInquiries, h, hkind, rootInquiry]

theorem catalogInquiries_of_ne (hkind : (w.resource r).kind ≠ .connection) :
    w.catalogInquiries r = [] := by
  unfold World.catalogInquiries
  split
  · exact absurd ‹_› hkind
  · rfl

/-- The catalog of the root comes if the answer holds one. -/
theorem fetchRoot_error {e : Raised} (h : client.fetchRoot.exec w = (.error e, w')) (r : Ref) :
    client.data? (rootInquiry w r) = none ∧ w' = (client.outcome (rootInquiry w r)).2 := by
  rw [fetchRoot] at h
  obtain hsend | ⟨payload, w₁, hsend, hrefuse⟩ := exec_bind_eq_error.mp h
  · have houtcome : client.outcome (rootInquiry w r) = (.error e, w') := hsend
    exact ⟨data?_of_error (by rw [houtcome]), by rw [houtcome]⟩
  · have houtcome : client.outcome (rootInquiry w r) = (.ok payload, w₁) := hsend
    cases hroot : rootCatalog? payload with
    | some catalog =>
      rw [hroot] at hrefuse
      cases hrefuse
    | none =>
      rw [hroot] at hrefuse
      obtain ⟨e', he'⟩ := client.exec_refuse (α := Catalog) rootLink .noRootLinks w₁
      obtain ⟨-, rfl⟩ := Prod.mk.inj (he'.symm.trans hrefuse)
      refine ⟨?_, by rw [houtcome]⟩
      rw [data?_of_outcome (by rw [houtcome])]
      simp [rootInquiry, Purpose.read?, hroot]

theorem fetchRoot_ok {catalog : Catalog} (h : client.fetchRoot.exec w = (.ok catalog, w'))
    (r : Ref) :
    client.data? (rootInquiry w r) = some (.catalog catalog) ∧
      (client.outcome (rootInquiry w r)).2.exchange.Logs w'.exchange := by
  obtain ⟨payload, w₁, hsend, hroot, rfl⟩ := fetchRoot_eq_ok.mp h
  have houtcome : client.outcome (rootInquiry w r) = (.ok payload, w₁) := hsend
  refine ⟨?_, ?_⟩
  · rw [data?_of_outcome (by rw [houtcome])]
    simp [rootInquiry, Purpose.read?, hroot]
  · rw [houtcome]
    exact (Exchange.Logs.refl _).note _

theorem setCatalog_accounts {catalog : Catalog} (hkind : (w.resource r).kind = .connection)
    (hstore : w'.store = w.store)
    (hlogs : (client.outcome (rootInquiry w r)).2.exchange.Logs w'.exchange)
    (hdata : client.data? (rootInquiry w r) = some (.catalog catalog)) :
    client.AccountsFor w [rootInquiry w r] (w'.setCatalog r catalog) := by
  have hr : r < w'.store.next := by
    rw [hstore]
    exact World.lt_next_of_kind (by simp [hkind])
  have hresource (r' : Ref) : w'.resource r' = w.resource r' := by
    rw [World.resource, hstore, World.resource]
  have htakers : client.takers (rootInquiry w r) = [] := by rw [takers, hdata]; rfl
  refine .of_inquiry (hlogs.trans (w'.setCatalog_logs r catalog))
    (.of_takers_nil htakers ?_ fun r' _ => ?_) (fun r' => ?_) fun slot hslot => ?_
  · simp [rootInquiry, hstore]
  · rw [World.resource_setCatalog hr, hresource]
    split <;> exact ⟨rfl, rfl, rfl⟩
  · rw [World.resource_setCatalog hr, hresource, news, hdata]
    by_cases he : r' = r
    · simp [rootInquiry, Purpose.news, he]
    · simp [rootInquiry, Purpose.news, he, Ne.symm he]
  · obtain ⟨owner, part⟩ := slot
    simp only [Slot.isFilled, World.resource_setCatalog hr, hresource, hdata]
    by_cases he : owner = r
    · cases part <;> simp [rootInquiry, Inquiry.slot?, Purpose.part?, he]
    · cases part <;> simp [rootInquiry, Inquiry.slot?, Purpose.part?, he, Ne.symm he]

/-- To get at the catalog of a resource, that of the root is inquired if it is not there. -/
theorem links_accounts (client : Client σ) (w : World σ) (r : Ref) :
    client.AccountsFor w (w.catalogInquiries r) ((client.links r).exec w).2 := by
  rcases h : (client.links r).exec w with ⟨e | catalog, w'⟩
  · obtain ⟨hnone, ⟨hkind, hroot⟩ | ⟨hkind, rfl, -⟩⟩ := links_eq_error.mp h
    · obtain ⟨hdata, rfl⟩ := fetchRoot_error hroot r
      rw [catalogInquiries_of_root hnone hkind]
      exact .of_unanswered hdata
    · rw [catalogInquiries_of_ne hkind]
      exact .refl _
  · obtain ⟨hcatalog, rfl⟩ | ⟨hnone, hkind, w₁, hroot, rfl⟩ := links_eq_ok.mp h
    · rw [catalogInquiries_of_some hcatalog]
      exact .refl _
    · obtain ⟨hdata, hlogs⟩ := fetchRoot_ok hroot r
      rw [catalogInquiries_of_root hnone hkind]
      exact setCatalog_accounts hkind (fetchRoot_ok_store hroot).1 hlogs hdata

/-! ## Looking at a catalog changes nothing more -/

theorem entry_snd (client : Client σ) (r : Ref) (relation : Value) (w : World σ) :
    ((client.entry r relation).exec w).2 = ((client.links r).exec w).2 := by
  refine exec_bind_snd (fun catalog w' => ?_) _ _
  rw [exec_bind_of_ok (exec_get w')]
  split <;> rfl

theorem link_snd (client : Client σ) (r : Ref) (relation : String) (w : World σ) :
    ((client.link r relation).exec w).2 = ((client.links r).exec w).2 := by
  rw [← entry_snd client r (.str relation)]
  refine exec_bind_snd (fun entry w' => ?_) _ _
  cases entry <;> rfl

/-- To look for a link, the catalog of the root is inquired if it is not there. -/
theorem link_accounts (client : Client σ) (w : World σ) (r : Ref) (relation : String) :
    client.AccountsFor w (w.catalogInquiries r) ((client.link r relation).exec w).2 := by
  rw [link_snd]
  exact client.links_accounts w r

theorem hasLink_snd (client : Client σ) (r : Ref) (relation : Value) (w : World σ) :
    ((client.hasLink r relation).exec w).2 = ((client.links r).exec w).2 := by
  refine exec_bind_snd (fun catalog w' => ?_) _ _
  cases catalog.entry? relation <;> rfl

theorem creationOptions_snd (client : Client σ) (domain : Ref) (parameter : String)
    (w : World σ) :
    ((client.creationOptions domain parameter).exec w).2 = ((client.links domain).exec w).2 := by
  rw [← link_snd client domain Relation.addApplication]
  exact exec_bind_snd (fun _ _ => rfl) _ _

theorem member?_snd (client : Client σ) (owner : Ref) (name : Value) (w : World σ) :
    ((client.member? owner name).exec w).2 = ((client.members owner).exec w).2 :=
  exec_bind_snd (fun _ _ => rfl) _ _

theorem applicationsOf_snd (client : Client σ) (domain : Ref) (cartridge : Value) (w : World σ) :
    ((client.applicationsOf domain cartridge).exec w).2 = ((client.members domain).exec w).2 :=
  exec_bind_snd (fun _ _ => rfl) _ _

/-! ## Following a link -/

/-- Follows a link and does something with the answer. -/
def inquire {α : Type} (client : Client σ) (r : Ref) (relation : String) (parameters : Parameters)
    (deleteWithBody : Bool) (f : Link → Payload → Action σ α) : Action σ α := do
  let link ← client.link r relation
  let payload ← client.send link parameters deleteWithBody
  f link payload

variable {relation : String} {parameters : Parameters} {deleteWithBody : Bool} {purpose : Purpose}

/-- An inquiry comes of asking a resource to follow a link if the resource was asked in a state with
its catalog. -/
structure Comes (client : Client σ) (w : World σ) (r : Ref) (purpose : Purpose) (i : Inquiry σ) :
    Prop where
  asked : i.asked = r
  purpose : i.purpose = purpose
  accounts : client.AccountsFor w (w.catalogInquiries r) i.state
  next : i.state.store.next = w.store.next
  catalog : (i.state.resource r).catalog.isSome = true

theorem Comes.asked_lt {i : Inquiry σ} (h : client.Comes w r purpose i) :
    i.asked < i.state.store.next := by
  obtain ⟨catalog, hcatalog⟩ := Option.isSome_iff_exists.mp h.catalog
  exact h.asked ▸ World.lt_next_of_catalog hcatalog

/-- If it is accounted for what is done with an answer, it is accounted for all. -/
theorem inquire_accounts {α : Type} {f : Link → Payload → Action σ α}
    (h : ∀ i payload, client.Comes w r purpose i → (client.outcome i).1 = .ok payload →
      client.AccountsFor i.state [i] ((f i.link payload).exec (client.outcome i).2).2) :
    client.AccountsFor w
      (client.inquiriesOf ⟨w, r, .follow relation parameters deleteWithBody purpose⟩)
      ((client.inquire r relation parameters deleteWithBody f).exec w).2 := by
  have hcatalog := client.link_accounts w r relation
  rcases hlink : (client.link r relation).exec w with ⟨e | link, w₁⟩
  · rw [hlink] at hcatalog
    simpa [inquire, exec_bind_of_error hlink, inquiriesOf, linkInquiries, hlink] using hcatalog
  · rw [hlink] at hcatalog
    obtain ⟨catalog, hlinks, -⟩ := link_eq_ok.mp hlink
    have hnext := next_of_links hlinks
    let i : Inquiry σ := ⟨w₁, r, some relation, purpose, link, parameters, deleteWithBody⟩
    have hinquiries : client.inquiriesOf
        ⟨w, r, .follow relation parameters deleteWithBody purpose⟩ =
        w.catalogInquiries r ++ [i] := by
      simp [inquiriesOf, linkInquiries, hlink, i]
    have hcomes : client.Comes w r purpose i :=
      ⟨rfl, rfl, hcatalog, hnext, by rw [catalog_of_links hlinks]; rfl⟩
    rw [hinquiries, inquire, exec_bind_of_ok hlink]
    refine hcatalog.trans ?_
    rcases hsend : (client.send link parameters deleteWithBody).exec w₁ with ⟨e | payload, w₂⟩
    · have houtcome : client.outcome i = (.error e, w₂) := hsend
      have hunanswered := AccountsFor.of_unanswered (data?_of_error (by rw [houtcome]) :
        client.data? i = none)
      rw [houtcome] at hunanswered
      rw [exec_bind_of_error hsend]
      exact hunanswered
    · have houtcome : client.outcome i = (.ok payload, w₂) := hsend
      have hanswered := h i payload hcomes (by rw [houtcome])
      rw [houtcome] at hanswered
      rw [exec_bind_of_ok hsend]
      exact hanswered

/-- The same for an answer of which something is expected: another answer is refused. -/
theorem expect_accounts {α β : Type} {view : Payload → Option α} {reason : Payload → EndpointReason}
    {k : α → Action σ β}
    (hread : ∀ payload, view payload = none → purpose.read? payload = none)
    (h : ∀ i payload a, client.Comes w r purpose i → (client.outcome i).1 = .ok payload →
      view payload = some a →
      client.AccountsFor i.state [i] ((k a).exec (client.outcome i).2).2) :
    client.AccountsFor w (client.inquiriesOf ⟨w, r, .follow relation parameters false purpose⟩)
      (exec (client.expect r relation parameters view reason >>= k) w).2 := by
  have hexpect : client.expect r relation parameters view reason >>= k =
      client.inquire r relation parameters false fun link payload =>
        (view payload).elim (client.refuse link (reason payload)) pure >>= k := by
    rw [expect, inquire, bind_assoc]
    refine bind_congr fun link => (bind_assoc _ _ _).trans (bind_congr fun payload => ?_)
    cases view payload <;> rfl
  rw [hexpect]
  refine inquire_accounts fun i payload hcomes houtcome => ?_
  cases hview : view payload with
  | some a => exact h i payload a hcomes houtcome hview
  | none =>
    obtain ⟨e, he⟩ := client.exec_refuse (α := α) i.link (reason payload) (client.outcome i).2
    rw [Option.elim_none, exec_bind_of_error he]
    refine .of_unanswered ?_
    rw [data?_of_outcome houtcome, hcomes.purpose, hread payload hview]

/-! ## What becomes of answers -/

theorem resource_outcome (client : Client σ) (i : Inquiry σ) (r : Ref) :
    (client.outcome i).2.resource r = i.state.resource r := by
  rw [World.resource, store_outcome, World.resource]

theorem user?_accept (attributes : Attributes) (representation : Representation) :
    (attributes.accept representation).user? = attributes.user? := by
  cases attributes <;> cases representation <;> rfl

theorem user?_withUser {attributes : Attributes} (h : attributes.kind = .connection)
    (current : Option Ref) : (attributes.withUser current).user? = current := by
  cases attributes with
  | connection => rfl
  | _ => cases h

section Answers

variable {i : Inquiry σ} {representation : Representation}

/-- What an answer brings that a resource takes over. -/
theorem brings_of_record
    (hpurpose : (∃ kind, i.purpose = .update r kind) ∨ i.purpose = .event ∧ i.asked = r)
    (hdata : client.data? i = some (.record representation)) :
    i.slot? = none ∧ client.news i = [(r, some (.ofLinks representation.common.links))] ∧
      client.takers i = [(r, representation)] := by
  obtain ⟨kind, hpurpose⟩ | ⟨hpurpose, rfl⟩ := hpurpose
  · rw [Inquiry.slot?, news, takers, hdata, hpurpose]
    exact ⟨rfl, rfl, rfl⟩
  · rw [Inquiry.slot?, news, takers, hdata, hpurpose]
    exact ⟨rfl, rfl, rfl⟩

/-- A resource takes over the representation in an answer. -/
theorem accept_accounts
    (hpurpose : (∃ kind, i.purpose = .update r kind) ∨ i.purpose = .event ∧ i.asked = r)
    (hdata : client.data? i = some (.record representation)) (hr : r < i.state.store.next)
    (hroot : (i.state.resource r).kind = .connection → (i.state.resource r).catalog.isSome = true)
    (hstore : w.store = i.state.store) (hlogs : (client.outcome i).2.exchange.Logs w.exchange) :
    client.AccountsFor i.state [i] (w.accept r representation) := by
  have hr' : r < w.store.next := by rwa [hstore]
  have hresource (r' : Ref) : w.resource r' = i.state.resource r' := by
    rw [World.resource, hstore, World.resource]
  obtain ⟨hslot, hnews, htakers⟩ := brings_of_record hpurpose hdata
  refine .of_inquiry (hlogs.trans (World.accept_logs _ _ _))
    (.of_update htakers hr ?_ fun r' => ?_) (fun r' => ?_) fun slot hfits => ?_
  · simp [hstore]
  · rw [World.resource_accept hr', hresource]
  · rw [World.resource_accept hr', hresource, hnews]
    by_cases he : r' = r
    · simp [he, Resource.accept]
    · simp [he, Ne.symm he]
  · obtain ⟨owner, part⟩ := slot
    simp only [Slot.isFilled, World.resource_accept hr', hresource, hslot]
    by_cases he : owner = r
    · subst he
      cases part with
      | catalog => simp [Resource.accept, hroot hfits]
      | user => simp [Resource.accept, user?_accept]
      | _ => simp [Resource.accept]
    · simp [he]

/-- The record in an answer is enrolled among the members of the resource that was asked. -/
theorem enroll_accounts {family : Family} (hpurpose : i.purpose = .creation family)
    (hdata : client.data? i = some (.record representation))
    (hasked : i.asked < i.state.store.next) :
    client.AccountsFor i.state [i]
      ((client.outcome i).2.enroll family i.asked representation) := by
  have hasked' : i.asked < (client.outcome i).2.store.next := by rwa [store_outcome]
  have htakers : client.takers i = [(i.state.store.next, representation)] := by
    rw [takers, hdata, hpurpose]
    rfl
  refine .of_inquiry (World.enroll_logs _ _ _ _)
    (.of_one htakers ?_ (fun r' hr' => ?_) ?_) (fun r' => ?_) fun slot hfits => ?_
  · simp [store_outcome]
  · rw [World.resource_enroll hasked', resource_outcome, store_outcome, if_neg (Nat.ne_of_lt hr')]
    split <;> exact ⟨rfl, rfl, rfl⟩
  · rw [World.resource_enroll hasked', store_outcome, if_pos rfl]
  · rw [World.resource_enroll hasked', resource_outcome, store_outcome, news, hdata, hpurpose]
    by_cases he : r' = i.state.store.next
    · simp [he, Purpose.news, Resource.ofRepresentation, Resource.fresh]
    · simp only [he, if_false, Purpose.news, History.latest_cons, Ne.symm he, History.latest_nil]
      split <;> rfl
  · have hne := Nat.ne_of_lt hfits.lt_next
    obtain ⟨owner, part⟩ := slot
    have hslot : i.slot? = none := by rw [Inquiry.slot?, hpurpose]; rfl
    simp only [Slot.isFilled, World.resource_enroll hasked', resource_outcome, store_outcome,
      hslot, if_neg hne]
    by_cases he : owner = i.asked
    · cases part <;> simp [he, Resource.withMembers, Lazy.Cell.isLoaded]
    · simp [he]

/-- The record in an answer becomes the user of the connection that was asked. -/
theorem welcome_accounts (hpurpose : i.purpose = .user)
    (hdata : client.data? i = some (.record representation))
    (hasked : i.asked < i.state.store.next) :
    client.AccountsFor i.state [i] ((client.outcome i).2.welcome i.asked representation) := by
  have hasked' : i.asked < (client.outcome i).2.store.next := by rwa [store_outcome]
  have htakers : client.takers i = [(i.state.store.next, representation)] := by
    rw [takers, hdata, hpurpose]
    rfl
  refine .of_inquiry (World.welcome_logs _ _ _)
    (.of_one htakers ?_ (fun r' hr' => ?_) ?_) (fun r' => ?_) fun slot hfits => ?_
  · simp [store_outcome]
  · rw [World.resource_welcome hasked', resource_outcome, store_outcome, if_neg (Nat.ne_of_lt hr')]
    split
    · exact ⟨rfl, rfl, Attributes.settled_withUser _ _⟩
    · exact .refl _
  · rw [World.resource_welcome hasked', store_outcome, if_pos rfl]
  · rw [World.resource_welcome hasked', resource_outcome, store_outcome, news, hdata, hpurpose]
    by_cases he : r' = i.state.store.next
    · simp [he, Purpose.news, Resource.ofRepresentation, Resource.fresh]
    · simp only [he, if_false, Purpose.news, History.latest_cons, Ne.symm he, History.latest_nil]
      split <;> rfl
  · have hne := Nat.ne_of_lt hfits.lt_next
    obtain ⟨owner, part⟩ := slot
    have hslot : i.slot? = some ⟨i.asked, .user⟩ := by rw [Inquiry.slot?, hpurpose]; rfl
    simp only [Slot.isFilled, World.resource_welcome hasked', resource_outcome, store_outcome,
      hslot, hdata, if_neg hne]
    by_cases he : owner = i.asked
    · subst he
      cases part with
      | user => simp [user?_withUser hfits]
      | _ => simp
    · cases part <;> simp [he, Ne.symm he]

/-- The records in an answer become the members of the owner that was asked. -/
theorem adoptAll_accounts {family : Family} (hpurpose : i.purpose = .members family)
    {representations : List Representation}
    (hdata : client.data? i = some (.records representations))
    (hasked : i.asked < i.state.store.next) {adopted : List Ref × World σ}
    (hadopted : (client.outcome i).2.adoptAll i.asked representations = adopted) :
    client.AccountsFor i.state [i]
      ((World.members i.asked).fill (.loaded adopted.1) adopted.2) := by
  subst hadopted
  have hasked' : i.asked < (client.outcome i).2.store.next := by rwa [store_outcome]
  have hresource {r' : Ref} (hr' : r' < i.state.store.next) :
      ((client.outcome i).2.adoptAll i.asked representations).2.resource r' =
        i.state.resource r' := by
    rw [World.resource_adoptAll_of_lt (by rwa [store_outcome]), resource_outcome]
  have hcore := World.resource_alter_congr Resource.core
    (Resource.core_withMembers (.loaded ((client.outcome i).2.adoptAll i.asked representations).1))
    ((client.outcome i).2.adoptAll i.asked representations).2 i.asked
  have htakers : client.takers i =
      (List.range' i.state.store.next representations.length).zip representations := by
    rw [takers, hdata, hpurpose]
    rfl
  rw [World.fill_members]
  refine .of_inquiry (World.adoptAll_logs _ _ _)
    (.of_new htakers ?_ (fun r' hr' => ?_) fun k hk => ?_) (fun r' => ?_) fun slot hfits => ?_
  · rw [World.next_alter, World.next_adoptAll, store_outcome]
  · rw [← hresource hr']
    exact .of_core (hcore r')
  · rw [← store_outcome client, ← World.resource_adoptAll_add _ _ hk]
    exact .of_core (hcore _)
  · refine (congrArg (·.2.2.2) (hcore r')).trans ?_
    rw [news, hdata, hpurpose, ← resource_outcome, ← store_outcome client]
    exact World.catalog_adoptAll _ _ _ _
  · obtain ⟨owner, part⟩ := slot
    have hslot : i.slot? = some ⟨i.asked, .members⟩ := by rw [Inquiry.slot?, hpurpose]; rfl
    have howner : owner < i.state.store.next := hfits.lt_next
    simp only [Slot.isFilled, hslot, hdata]
    by_cases he : owner = i.asked
    · subst he
      rw [World.resource_alter_self
        (by rw [World.next_adoptAll]; exact Nat.lt_add_right _ hasked'), hresource howner]
      cases part <;> simp [Resource.withMembers, Lazy.Cell.isLoaded]
    · rw [World.resource_alter_of_ne (Ne.symm he), hresource howner]
      cases part <;> simp [Ne.symm he]

/-- The gears in an answer become those of the application that was asked. -/
theorem fillGears_accounts (hpurpose : i.purpose = .gears) {gears : List Representation.Gear}
    (hdata : client.data? i = some (.gears gears)) (hasked : i.asked < i.state.store.next) :
    client.AccountsFor i.state [i]
      ((World.gears i.asked).fill (.loaded gears) (client.outcome i).2) := by
  have hasked' : i.asked < (client.outcome i).2.store.next := by rwa [store_outcome]
  have hcore := World.resource_alter_congr Resource.core
    (Resource.core_withGears (.loaded gears)) (client.outcome i).2 i.asked
  have htakers : client.takers i = [] := by
    rw [takers, hdata, hpurpose]
    rfl
  rw [World.fill_gears]
  refine .of_inquiry (.refl _) (.of_takers_nil htakers ?_ fun r' _ => ?_) (fun r' => ?_)
    fun slot _ => ?_
  · rw [World.next_alter, store_outcome]
  · rw [← resource_outcome client]
    exact .of_core (hcore r')
  · refine (congrArg (·.2.2.2) (hcore r')).trans ?_
    rw [news, hdata, hpurpose, ← resource_outcome client]
    rfl
  · obtain ⟨owner, part⟩ := slot
    have hslot : i.slot? = some ⟨i.asked, .gears⟩ := by rw [Inquiry.slot?, hpurpose]; rfl
    simp only [Slot.isFilled, hslot, hdata]
    by_cases he : owner = i.asked
    · subst he
      rw [World.resource_alter_self hasked', resource_outcome]
      cases part <;> simp [Resource.withGears, Lazy.Cell.isLoaded]
    · rw [World.resource_alter_of_ne (Ne.symm he), resource_outcome]
      cases part <;> simp [Ne.symm he]

end Answers

theorem follow_accounts {β : Type} {k : Payload → Action σ β}
    (h : ∀ i payload, client.Comes w r purpose i → (client.outcome i).1 = .ok payload →
      client.AccountsFor i.state [i] ((k payload).exec (client.outcome i).2).2) :
    client.AccountsFor w
      (client.inquiriesOf ⟨w, r, .follow relation parameters deleteWithBody purpose⟩)
      (exec (client.follow r relation parameters deleteWithBody >>= k) w).2 := by
  have hfollow : client.follow r relation parameters deleteWithBody >>= k =
      client.inquire r relation parameters deleteWithBody fun _ payload => k payload := by
    simp only [follow, inquire, bind_assoc]
  rw [hfollow]
  exact inquire_accounts h

/-! ## Answers of which something is expected -/

theorem fetchOne_accounts {β : Type} {kind : RecordKind} {k : Representation → Action σ β}
    (hread : ∀ payload, purpose.read? payload = (payload.singleOf? kind).map .record)
    (h : ∀ i representation, client.Comes w r purpose i →
      client.data? i = some (.record representation) → representation.kind = kind →
      client.AccountsFor i.state [i] ((k representation).exec (client.outcome i).2).2) :
    client.AccountsFor w (client.inquiriesOf ⟨w, r, .follow relation parameters false purpose⟩)
      (exec (client.fetchOne r relation kind parameters >>= k) w).2 := by
  rw [fetchOne_eq]
  refine expect_accounts (fun payload hview => by simp [hread, hview])
    fun i payload representation hcomes houtcome hview => ?_
  refine h i representation hcomes ?_ (Payload.kind_of_singleOf? hview)
  rw [data?_of_outcome houtcome, hcomes.purpose, hread, hview]
  rfl

/-- A resource that was asked takes over the representation in the answer. -/
theorem update_accounts {i : Inquiry σ} {kind : RecordKind} {representation : Representation}
    (hcomes : client.Comes w r (.update r kind) i)
    (hdata : client.data? i = some (.record representation)) :
    client.AccountsFor i.state [i] ((client.outcome i).2.accept r representation) := by
  exact accept_accounts (.inl ⟨kind, hcomes.purpose⟩) hdata (hcomes.asked ▸ hcomes.asked_lt)
    (fun _ => hcomes.catalog) (client.store_outcome i) (.refl _)

/-! ## What asking leaves as it was -/

/-- To get at a catalog changes nothing of a resource but its catalog. -/
theorem resource_links (client : Client σ) (w : World σ) (r r' : Ref) :
    ∃ catalog, ((client.links r).exec w).2.resource r' =
      { w.resource r' with catalog := catalog } := by
  rcases h : (client.links r).exec w with ⟨e | catalog, w'⟩
  · obtain ⟨-, ⟨-, hroot⟩ | ⟨-, rfl, -⟩⟩ := links_eq_error.mp h
    · obtain ⟨-, rfl⟩ := fetchRoot_error hroot r
      exact ⟨(w.resource r').catalog, resource_outcome _ _ _⟩
    · exact ⟨(w'.resource r').catalog, rfl⟩
  · obtain ⟨-, rfl⟩ | ⟨hnone, hkind, w₁, hroot, rfl⟩ := links_eq_ok.mp h
    · exact ⟨(w'.resource r').catalog, rfl⟩
    · have hstore := (fetchRoot_ok_store hroot).1
      have hr : r < w₁.store.next := by
        rw [hstore]
        exact World.lt_next_of_kind (by simp [hkind])
      have hresource : w₁.resource r' = w.resource r' := by
        rw [World.resource, hstore, World.resource]
      rw [World.resource_setCatalog hr, hresource]
      split
      · exact ⟨some catalog, rfl⟩
      · exact ⟨(w.resource r').catalog, rfl⟩

/-- What is expected of an answer does not matter to the resources. -/
theorem store_expect {α : Type} {view : Payload → Option α} {reason : Payload → EndpointReason} :
    ((client.expect r relation parameters view reason).exec w).2.store =
      ((client.links r).exec w).2.store := by
  have hsend (link : Link) {w₁ w₂ : World σ} {outcome : Except Raised Payload}
      (h : (client.send link parameters false).exec w₁ = (outcome, w₂)) : w₂.store = w₁.store := by
    rw [exec_send] at h
    exact (Prod.mk.inj h).2 ▸ rfl
  rw [← link_snd client r relation]
  refine after_bind (P := fun w' => w'.store = ((client.link r relation).exec w).2.store)
    (fun e w' h => by rw [h]) fun link w₁ h => ?_
  rw [h]
  refine after_bind (P := fun w' => w'.store = w₁.store) (fun e w' => hsend link)
    fun payload w₂ h => ?_
  rw [← hsend link h]
  cases view payload with
  | some a => rfl
  | none =>
    obtain ⟨e, he⟩ := client.exec_refuse (α := α) link (reason payload) w₂
    simp only [he]

theorem resource_expect {α : Type} {view : Payload → Option α} {reason : Payload → EndpointReason}
    {outcome : Except Raised α}
    (h : (client.expect r relation parameters view reason).exec w = (outcome, w')) (r' : Ref) :
    ∃ catalog, w'.resource r' = { w.resource r' with catalog := catalog } := by
  have hstore : w'.store = ((client.links r).exec w).2.store := by
    have hexpect : ((client.expect r relation parameters view reason).exec w).2.store = _ :=
      store_expect
    rw [← hexpect, h]
  rw [World.resource, hstore]
  exact client.resource_links w r r'

end Client

end BrokerClient.Hierarchy

import BrokerClient.Proofs.Hierarchy.Account

/-!
# Asking in the right state

Every resource is asked for something in the state to which the inquiries before have led, and every
inquiry has its link from the catalog that the resource has in that state, or is the one for the
root. What an operation asks for depends on the operation and on what is missing.
-/
namespace BrokerClient.Hierarchy

open Hierarchy.Action

variable {σ : Type}

/-! ## Parts of lists -/

section Split

variable {α β : Type} {x y before after : List α} {a : α}

/-- A member of two lists in a row is in the first one or in the second one. -/
theorem append_eq_append_cons (h : x ++ y = before ++ a :: after) :
    (∃ rest, x = before ++ a :: rest) ∨ ∃ front, before = x ++ front ∧ y = front ++ a :: after := by
  obtain ⟨front, hbefore, hy⟩ | ⟨rest, hx, hrest⟩ := List.append_eq_append_iff.mp h
  · exact .inr ⟨front, hbefore, hy⟩
  · cases rest with
    | nil => exact .inr ⟨[], by simpa using hx.symm, by simpa using hrest.symm⟩
    | cons b rest =>
      obtain ⟨rfl, -⟩ := List.cons.inj hrest
      exact .inl ⟨rest, hx⟩

theorem flatMap_eq_append_cons {f : β → List α} {l : List β}
    (h : l.flatMap f = before ++ a :: after) :
    ∃ l₁ b l₂ front rest, l = l₁ ++ b :: l₂ ∧ before = l₁.flatMap f ++ front ∧
      f b = front ++ a :: rest := by
  induction l generalizing before with
  | nil => simp at h
  | cons b l ih =>
    rw [List.flatMap_cons] at h
    obtain ⟨rest, hb⟩ | ⟨front, rfl, hl⟩ := append_eq_append_cons h
    · exact ⟨[], b, l, before, rest, rfl, rfl, hb⟩
    · obtain ⟨l₁, c, l₂, front', rest, rfl, rfl, hc⟩ := ih hl
      exact ⟨b :: l₁, c, l₂, front', rest, rfl, by simp, hc⟩

theorem eq_of_singleton {b : α} (h : [b] = before ++ a :: after) : before = [] ∧ a = b := by
  cases before with
  | nil => exact ⟨rfl, (List.cons.inj h).1.symm⟩
  | cons c rest => simp at h

end Split

/-! ## Operations, aims and links -/

/-- An operation is one that resources of that kind have: connections know the available cartridges,
domains are renamed, applications have events, and keys are changed. -/
def Op.Suits (op : Op) (w : World σ) : Prop :=
  match op with
  | .availableCartridges connection => (w.resource connection).kind = .connection
  | .rename domain _ => (w.resource domain).kind = .domain
  | .post application _ => (w.resource application).kind = .application
  | .updateKey key _ _ | .setPublicKey key _ => (w.resource key).kind = .key
  | _ => True

/-- The place that an operation is about, if there is one that it has to find filled or to fill. -/
def Op.slot? : Op → Option Slot
  | .links r | .link r _ | .hasLink r _ => some ⟨r, .catalog⟩
  | .members owner | .member owner _ | .hasMember owner _ | .applicationsOf owner _
  | .hasApplicationsOf owner _ | .create owner _ => some ⟨owner, .members⟩
  | .user connection => some ⟨connection, .user⟩
  | .gears application => some ⟨application, .gears⟩
  | _ => none

/-- What becomes of the answer, if the resource is asked to follow a link. -/
def Aim.purpose? : Aim → Option Purpose
  | .follow _ _ _ purpose => some purpose
  | _ => none

/-- Where the link of an inquiry comes from: it is the one for the root, whose catalog is not there,
or the catalog of the resource that was asked holds it under the relation. -/
inductive Inquiry.IsGrounded (i : Inquiry σ) : Prop
  | root (hrelation : i.relation = none) (hlink : i.link = Client.rootLink)
      (hparameters : i.parameters = []) (hcatalog : (i.state.resource i.asked).catalog = none)
      (hkind : (i.state.resource i.asked).kind = .connection)
  | link {relation : String} {catalog : Catalog} (hrelation : i.relation = some relation)
      (hcatalog : (i.state.resource i.asked).catalog = some catalog)
      (hfind : catalog.find? relation = some (.link i.link))

namespace Client

variable {client : Client σ} {w : World σ} {r : Ref}

/-! ## Asking in the right state -/

/-- Resources are asked for something in the states to which the inquiries before have led. -/
def Poses (client : Client σ) (w : World σ) (asks : List (Ask σ)) : Prop :=
  ∀ before ask after, asks = before ++ ask :: after →
    client.AccountsFor w (before.flatMap client.inquiriesOf) ask.state

namespace Poses

theorem nil : client.Poses w [] := by
  intro before ask after h
  simp at h

theorem single {ask : Ask σ} (h : client.AccountsFor w [] ask.state) : client.Poses w [ask] := by
  intro before ask' after hsplit
  obtain ⟨rfl, rfl⟩ := eq_of_singleton hsplit
  exact h

theorem append {asks : List (Ask σ)} {ask : Ask σ} (h : client.Poses w asks)
    (hask : client.AccountsFor w (asks.flatMap client.inquiriesOf) ask.state) :
    client.Poses w (asks ++ [ask]) := by
  intro before ask' after hsplit
  obtain ⟨rest, hasks⟩ | ⟨front, rfl, hlast⟩ := append_eq_append_cons hsplit
  · exact h before ask' rest hasks
  · obtain ⟨rfl, rfl⟩ := eq_of_singleton hlast
    simpa using hask

end Poses

theorem poses_listing (client : Client σ) (w : World σ) (owner : Ref) :
    client.Poses w (w.listing owner) := by
  unfold World.listing
  split
  · rename_i family hfamily hitems
    exact .single (.of_resembles (resembles_loading_members hitems) ((Exchange.Logs.refl _).note _))
  · exact .nil

theorem poses_creation (client : Client σ) (w : World σ) (owner : Ref) (creation : Creation) :
    client.Poses w (client.creationAsks owner creation w) := by
  unfold creationAsks
  split
  · exact .nil
  · split
    · rename_i hmember
      have hlisted := client.members_accounts w owner
      rw [← member?_snd client owner creation.name, hmember] at hlisted
      exact (client.poses_listing w owner).append hlisted
    · simpa using client.poses_listing w owner

theorem poses_updateAsks (client : Client σ) (w : World σ) (key : Ref) (type publicKey : Value) :
    client.Poses w (asks.updateAsks key type publicKey w) := by
  unfold asks.updateAsks
  split
  · exact .nil
  · exact .single (.refl w)

theorem poses_asks (client : Client σ) (op : Op) (w : World σ) :
    client.Poses w (client.asks op w) := by
  cases op with
  | members owner => exact client.poses_listing w owner
  | member owner name => exact client.poses_listing w owner
  | hasMember owner name => exact client.poses_listing w owner
  | applicationsOf domain cartridge => exact client.poses_listing w domain
  | hasApplicationsOf domain cartridge => exact client.poses_listing w domain
  | create owner creation => exact client.poses_creation w owner creation
  | refresh r =>
    simp only [asks]
    split
    · exact .single (.refl w)
    · exact .nil
  | user connection =>
    simp only [asks]
    split
    · exact .nil
    · exact .single (.refl w)
  | rename domain id =>
    simp only [asks]
    split
    · exact .nil
    · exact .single (.refl w)
  | post application event =>
    simp only [asks]
    split
    · exact .nil
    · exact .single (.refl w)
  | gears application =>
    simp only [asks]
    split
    · exact .nil
    · rename_i hitems
      exact .single (.of_resembles (resembles_loading_gears hitems) ((Exchange.Logs.refl _).note _))
  | updateKey key type publicKey => exact client.poses_updateAsks w key type publicKey
  | setPublicKey key publicKey => exact client.poses_updateAsks w key _ publicKey
  | _ => exact .single (.refl w)

/-! ## The link of an inquiry -/

/-- An inquiry is made in the state to which the inquiries before it have led, and its link comes
from the catalog of the resource that was asked. -/
theorem inquiriesOf_split {ask : Ask σ} {before after : List (Inquiry σ)} {i : Inquiry σ}
    (h : client.inquiriesOf ask = before ++ i :: after) :
    client.AccountsFor ask.state before i.state ∧ i.asked = ask.asked ∧ i.IsGrounded := by
  obtain ⟨rest, hroot⟩ | ⟨front, rfl, hlink⟩ := append_eq_append_cons h
  · unfold World.catalogInquiries at hroot
    split at hroot
    · obtain ⟨rfl, rfl⟩ := eq_of_singleton hroot
      exact ⟨.refl _, rfl, .root rfl rfl rfl ‹_› ‹_›⟩
    · simp at hroot
  · unfold linkInquiries at hlink
    split at hlink
    · rename_i relation parameters deleteWithBody purpose haim
      have hcatalog := client.link_accounts ask.state ask.asked relation
      split at hlink
      · rename_i link w₁ hfound
        obtain ⟨rfl, rfl⟩ := eq_of_singleton hlink
        obtain ⟨catalog, hlinks, hfind⟩ := link_eq_ok.mp hfound
        rw [hfound] at hcatalog
        exact ⟨by simpa using hcatalog, rfl, .link rfl (catalog_of_links hlinks) hfind⟩
      · simp at hlink
    · simp at hlink

theorem inquiries_split {op : Op} {before after : List (Inquiry σ)} {i : Inquiry σ}
    (h : client.inquiries op w = before ++ i :: after) :
    client.AccountsFor w before i.state ∧ i.IsGrounded := by
  obtain ⟨asks, ask, later, front, rest, hasks, rfl, hask⟩ := flatMap_eq_append_cons h
  obtain ⟨haccounts, -, hgrounded⟩ := inquiriesOf_split hask
  exact ⟨(client.poses_asks op w asks ask later hasks).trans haccounts, hgrounded⟩

/-! ## What is asked for -/

/-- What operations ask for, by what becomes of the answer. -/
inductive Posed (client : Client σ) (op : Op) (w : World σ) : Ask σ → Prop
  | idle {r : Ref} {aim : Aim} (h : aim.purpose? = none) : Posed client op w ⟨w, r, aim⟩
  | errand {r : Ref} {relation : String} {parameters : Parameters} {deleteWithBody : Bool}
      (hrelation : op.Suits w → relation = Relation.delete ∨
        relation = Relation.listCartridges ∧ (w.resource r).kind = .connection) :
      Posed client op w ⟨w, r, .follow relation parameters deleteWithBody .errand⟩
  | members {owner : Ref} {family : Family} (hop : op.slot? = some ⟨owner, .members⟩)
      (hfamily : Family.ofOwner? (w.resource owner).kind = some family)
      (hitems : (w.resource owner).members.cell.items? = none) :
      Posed client op w ⟨(World.members owner).loading w, owner,
        .follow family.listRelation [] false (.members family)⟩
  | gears {application : Ref} (hop : op = .gears application)
      (hitems : (w.resource application).gears.cell.items? = none) :
      Posed client op w ⟨(World.gears application).loading w, application,
        .follow Relation.getGears [] false .gears⟩
  | user {connection : Ref} (hop : op = .user connection)
      (huser : (w.resource connection).attributes.user? = none) :
      Posed client op w ⟨w, connection, .follow Relation.getUser [] false .user⟩
  | creation {owner : Ref} {creation : Creation} {family : Family} {parameters : Parameters}
      {w₁ : World σ} (hmember : (client.member? owner creation.name).exec w = (.ok none, w₁)) :
      Posed client op w
        ⟨w₁, owner, .follow family.addRelation parameters false (.creation family)⟩
  | update {asked r : Ref} {kind : RecordKind} {relation : String} {parameters : Parameters}
      (hrelation : (∀ r, op ≠ .refresh r) → relation = Relation.update)
      (hkind : op.Suits w → (w.resource r).kind ≠ .connection)
      (hdomain : kind = .domain → op = .refresh r ∨ ∃ id, op = .rename r id) :
      Posed client op w ⟨w, asked, .follow relation parameters false (.update r kind)⟩
  | event {application : Ref} {event : Event}
      (hkind : op.Suits w → (w.resource application).kind ≠ .connection) :
      Posed client op w
        ⟨w, application, .follow event.relation event.parameters false .event⟩

theorem posed_of_mem_listing {op : Op} {owner : Ref} (hop : op.slot? = some ⟨owner, .members⟩)
    {ask : Ask σ} (h : ask ∈ w.listing owner) : client.Posed op w ask := by
  unfold World.listing at h
  split at h
  · obtain rfl := List.mem_singleton.mp h
    exact .members hop ‹_› ‹_›
  · cases h

theorem posed_of_mem_creationAsks {owner : Ref} {creation : Creation} {ask : Ask σ}
    (h : ask ∈ client.creationAsks owner creation w) :
    client.Posed (.create owner creation) w ask := by
  unfold creationAsks at h
  split at h
  · cases h
  · obtain h | h := List.mem_append.mp h
    · exact posed_of_mem_listing rfl h
    · split at h
      · obtain rfl := List.mem_singleton.mp h
        exact .creation ‹_›
      · cases h

theorem posed_of_mem_updateAsks {op : Op} {key : Ref} {type publicKey : Value} {ask : Ask σ}
    (hkind : op.Suits w → (w.resource key).kind = .key)
    (h : ask ∈ asks.updateAsks key type publicKey w) : client.Posed op w ask := by
  unfold asks.updateAsks at h
  split at h
  · cases h
  · obtain rfl := List.mem_singleton.mp h
    exact .update (fun _ => rfl) (fun hop => by simp [hkind hop]) nofun

theorem posed_of_mem_asks {op : Op} {ask : Ask σ} (h : ask ∈ client.asks op w) :
    client.Posed op w ask := by
  cases op with
  | members owner => exact posed_of_mem_listing rfl h
  | member owner name => exact posed_of_mem_listing rfl h
  | hasMember owner name => exact posed_of_mem_listing rfl h
  | applicationsOf domain cartridge => exact posed_of_mem_listing rfl h
  | hasApplicationsOf domain cartridge => exact posed_of_mem_listing rfl h
  | create owner creation => exact posed_of_mem_creationAsks h
  | refresh r =>
    simp only [asks] at h
    split at h
    · rename_i hsource
      obtain rfl := List.mem_singleton.mp h
      exact .update (fun h => absurd rfl (h r)) (fun _ hkind => by simp [source?, hkind] at hsource)
        fun _ => .inl rfl
    · cases h
  | user connection =>
    simp only [asks] at h
    split at h
    · cases h
    · obtain rfl := List.mem_singleton.mp h
      exact .user rfl ‹_›
  | rename domain id =>
    simp only [asks] at h
    split at h
    · cases h
    · obtain rfl := List.mem_singleton.mp h
      refine .update (fun _ => rfl) (fun hop => ?_) fun _ => .inr ⟨id, rfl⟩
      rw [Op.Suits] at hop
      simp [hop]
  | post application event =>
    simp only [asks] at h
    split at h
    · cases h
    · obtain rfl := List.mem_singleton.mp h
      refine .event fun hop => ?_
      rw [Op.Suits] at hop
      simp [hop]
  | gears application =>
    simp only [asks] at h
    split at h
    · cases h
    · obtain rfl := List.mem_singleton.mp h
      exact .gears rfl ‹_›
  | updateKey key type publicKey => exact posed_of_mem_updateAsks id h
  | setPublicKey key publicKey => exact posed_of_mem_updateAsks id h
  | destroy r force =>
    obtain rfl := List.mem_singleton.mp h
    exact .errand fun _ => .inl rfl
  | availableCartridges connection =>
    obtain rfl := List.mem_singleton.mp h
    exact .errand fun hop => .inr ⟨rfl, hop⟩
  | _ =>
    obtain rfl := List.mem_singleton.mp h
    exact .idle rfl

theorem Posed.kind_of_update {op : Op} {ask : Ask σ} (h : client.Posed op w ask) (hop : op.Suits w)
    {kind : RecordKind} (hpurpose : ask.aim.purpose? = some (.update r kind)) :
    (w.resource r).kind ≠ .connection := by
  cases h with
  | update hrelation hkind =>
    cases hpurpose
    exact hkind hop
  | idle hidle => rw [hidle] at hpurpose; cases hpurpose
  | _ => cases hpurpose

/-- A domain is updated when it is refreshed or renamed. -/
theorem Posed.occasion {op : Op} {ask : Ask σ} (h : client.Posed op w ask)
    (hpurpose : ask.aim.purpose? = some (.update r .domain)) :
    op = .refresh r ∨ ∃ id, op = .rename r id := by
  cases h with
  | update hrelation hkind hdomain =>
    cases hpurpose
    exact hdomain rfl
  | idle hidle => rw [hidle] at hpurpose; cases hpurpose
  | _ => cases hpurpose

theorem Posed.kind_of_event {op : Op} {ask : Ask σ} (h : client.Posed op w ask) (hop : op.Suits w)
    (hpurpose : ask.aim.purpose? = some .event) : (w.resource ask.asked).kind ≠ .connection := by
  cases h with
  | event hkind => exact hkind hop
  | idle hidle => rw [hidle] at hpurpose; cases hpurpose
  | _ => cases hpurpose

theorem mem_catalogInquiries {i : Inquiry σ} (h : i ∈ w.catalogInquiries r) :
    i = rootInquiry w r ∧ (w.resource r).catalog = none := by
  unfold World.catalogInquiries at h
  split at h
  · exact ⟨List.mem_singleton.mp h, ‹_›⟩
  · cases h

theorem mem_linkInquiries {ask : Ask σ} {i : Inquiry σ} (h : i ∈ client.linkInquiries ask) :
    i.asked = ask.asked ∧ ask.aim.purpose? = some i.purpose ∧
      ∃ relation, i.relation = some relation ∧ ask.aim.relation? = some (.str relation) := by
  unfold linkInquiries at h
  split at h
  · rename_i relation parameters deleteWithBody purpose haim
    split at h
    · obtain rfl := List.mem_singleton.mp h
      exact ⟨rfl, by rw [haim]; rfl, relation, rfl, by rw [haim]; rfl⟩
    · cases h
  · cases h

theorem purpose_of_mem_inquiriesOf {ask : Ask σ} {i : Inquiry σ}
    (h : i ∈ client.inquiriesOf ask) :
    i.asked = ask.asked ∧ (i.purpose = .root ∨ ask.aim.purpose? = some i.purpose) := by
  obtain hroot | hlink := List.mem_append.mp h
  · obtain ⟨rfl, -⟩ := mem_catalogInquiries hroot
    exact ⟨rfl, .inl rfl⟩
  · obtain ⟨hasked, hpurpose, -⟩ := mem_linkInquiries hlink
    exact ⟨hasked, .inr hpurpose⟩

/-- An answer brings catalogs to new resources, to the one that was asked or to the one that is
updated. -/
theorem mem_news {purpose : Purpose} {asked next : Ref} {data : Data}
    {entry : Ref × Option Catalog} (h : entry ∈ purpose.news asked next data) :
    next ≤ entry.1 ∨ (∃ kind, purpose = .update entry.1 kind) ∨
      entry.1 = asked ∧ (purpose = .root ∨ purpose = .event) := by
  unfold Purpose.news at h
  split at h
  · obtain rfl := List.mem_singleton.mp h
    exact .inr (.inr ⟨rfl, .inl rfl⟩)
  · have hmem := (List.of_mem_zip h).1
    exact .inl (List.mem_range'_1.mp hmem).1
  · obtain rfl := List.mem_singleton.mp h
    exact .inl le_rfl
  · obtain rfl := List.mem_singleton.mp h
    exact .inl le_rfl
  · obtain rfl := List.mem_singleton.mp h
    exact .inr (.inl ⟨_, rfl⟩)
  · obtain rfl := List.mem_singleton.mp h
    exact .inr (.inr ⟨rfl, .inr rfl⟩)
  · cases h

/-- Only the answer for the root brings a catalog to a connection. -/
theorem root_of_news {op : Op} (hop : op.Suits w) {before after : List (Inquiry σ)}
    {i : Inquiry σ} (hsplit : client.inquiries op w = before ++ i :: after)
    {entry : Ref × Option Catalog} (hentry : entry ∈ client.news i)
    (hkind : (w.resource entry.1).kind = .connection) : i.purpose = .root := by
  have hi : i ∈ client.inquiries op w := hsplit ▸ List.mem_append_right _ List.mem_cons_self
  obtain ⟨ask, hask, hinquiry⟩ := List.mem_flatMap.mp hi
  have hlt : entry.1 < i.state.store.next :=
    (World.lt_next_of_kind (by simp [hkind])).trans_le (inquiries_split hsplit).1.next
  obtain ⟨hasked, hroot | hpurpose⟩ := purpose_of_mem_inquiriesOf hinquiry
  · exact hroot
  · have hmem : ∃ data, entry ∈ i.purpose.news i.asked i.state.store.next data := by
      unfold news at hentry
      split at hentry
      · exact ⟨_, hentry⟩
      · cases hentry
    obtain ⟨data, hmem⟩ := hmem
    obtain hle | ⟨kind, hupdate⟩ | ⟨hentry, hroot | hevent⟩ := mem_news hmem
    · exact absurd hlt (Nat.not_lt.mpr hle)
    · exact absurd hkind ((posed_of_mem_asks hask).kind_of_update hop (hupdate ▸ hpurpose))
    · exact hroot
    · rw [hentry, hasked] at hkind
      exact absurd hkind ((posed_of_mem_asks hask).kind_of_event hop (hevent ▸ hpurpose))

end Client

end BrokerClient.Hierarchy

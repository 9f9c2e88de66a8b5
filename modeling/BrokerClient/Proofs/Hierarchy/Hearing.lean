import BrokerClient.Proofs.Hierarchy.Contents
import BrokerClient.Proofs.Hierarchy.Destruction

/-!
# What an operation hears

An operation that asks for one thing only does what it does by the one answer that it hears. So
its outcome can be told from that payload: an operation that takes over a record succeeds if the
payload is such a record, and an event succeeds with any payload.
-/
namespace BrokerClient.Hierarchy

deriving instance DecidableEq for Purpose

namespace Client

open Hierarchy.Action

variable {σ : Type} {client : Client σ} {w w' u : World σ} {r : Ref} {op : Op} {payload : Payload}

/-- The server answers a payload to an inquiry that an operation makes for some purpose. -/
def Hears (client : Client σ) (op : Op) (w : World σ) (purpose : Purpose) (payload : Payload) :
    Prop :=
  ∃ i ∈ client.inquiries op w, i.purpose = purpose ∧ (client.outcome i).1 = .ok payload

/-- What a view shows of the first answer that an operation hears for some purpose. -/
def heard? {α : Type} (client : Client σ) (op : Op) (w : World σ) (purpose : Purpose)
    (view : Payload → Option α) : Option α :=
  (client.inquiries op w).findSome? fun i =>
    if i.purpose = purpose then (client.outcome i).1.toOption.bind view else none

theorem hears_of_heard? {α : Type} {purpose : Purpose} {view : Payload → Option α} {a : α}
    (h : client.heard? op w purpose view = some a) :
    ∃ payload, client.Hears op w purpose payload ∧ view payload = some a := by
  obtain ⟨i, hi, hview⟩ := List.exists_of_findSome?_eq_some h
  split at hview
  · rename_i hpurpose
    obtain ⟨payload, houtcome, hpayload⟩ := Option.bind_eq_some_iff.mp hview
    rcases hanswer : (client.outcome i).1 with e | payload'
    · rw [hanswer] at houtcome
      cases houtcome
    · rw [hanswer] at houtcome
      cases houtcome
      exact ⟨payload, ⟨i, hi, hpurpose, hanswer⟩, hpayload⟩
  · cases hview

/-- An operation that asks for one thing hears what a link leads to. -/
theorem hears_iff {relation : String} {parameters : Parameters} {deleteWithBody : Bool}
    {purpose : Purpose} (hpurpose : purpose ≠ .root)
    (hasks : client.asks op w = [⟨u, r, .follow relation parameters deleteWithBody purpose⟩]) :
    client.Hears op w purpose payload ↔
      ∃ w', (client.follow r relation parameters deleteWithBody).exec u = (.ok payload, w') := by
  have hinquiries : client.inquiries op w =
      client.inquiriesOf ⟨u, r, .follow relation parameters deleteWithBody purpose⟩ := by
    rw [inquiries, hasks, List.flatMap_singleton]
  rw [Hears, hinquiries]
  constructor
  · rintro ⟨i, hi, hfor, houtcome⟩
    obtain hroot | hlink := List.mem_append.mp hi
    · obtain ⟨rfl, -⟩ := mem_catalogInquiries hroot
      exact absurd hfor.symm hpurpose
    · simp only [linkInquiries] at hlink
      split at hlink
      · rename_i link w₁ hfound
        obtain rfl := List.mem_singleton.mp hlink
        exact ⟨_, follow_eq_ok.mpr ⟨link, w₁, hfound, Prod.ext houtcome rfl⟩⟩
      · cases hlink
  · rintro ⟨w', hfollow⟩
    obtain ⟨link, w₁, hfound, hsend⟩ := follow_eq_ok.mp hfollow
    refine ⟨⟨w₁, r, some relation, purpose, link, parameters, deleteWithBody⟩,
      List.mem_append_right _ ?_, rfl, ?_⟩
    · simp only [linkInquiries, hfound, List.mem_singleton]
    · rw [outcome, hsend]

/-- A record is fetched if it is what a link leads to. -/
theorem fetchOne_eq_ok {relation : String} {kind : RecordKind} {parameters : Parameters}
    {representation : Representation} :
    (client.fetchOne r relation kind parameters).exec w = (.ok representation, w') ↔
      ∃ payload, (client.follow r relation parameters false).exec w = (.ok payload, w') ∧
        payload.singleOf? kind = some representation := by
  rw [fetchOne_eq, expect_eq_ok]
  constructor
  · rintro ⟨link, w₁, payload, hlink, hsend, hview⟩
    exact ⟨payload, follow_eq_ok.mpr ⟨link, w₁, hlink, hsend⟩, hview⟩
  · rintro ⟨payload, hfollow, hview⟩
    obtain ⟨link, w₁, hlink, hsend⟩ := follow_eq_ok.mp hfollow
    exact ⟨link, w₁, payload, hlink, hsend, hview⟩

/-! ## Events -/

theorem asks_post {event : Event} (hlacks : event.lacks? = none) :
    client.asks (.post r event) w =
      [⟨w, r, .follow event.relation event.parameters false .event⟩] := by
  simp only [asks, hlacks]

theorem hears_post_iff {event : Event} :
    client.Hears (.post r event) w .event payload ↔ event.lacks? = none ∧
      ∃ w', (client.follow r event.relation event.parameters false).exec w = (.ok payload, w') := by
  cases hlacks : event.lacks? with
  | none =>
    rw [hears_iff (by simp) (asks_post hlacks)]
    simp
  | some argument => simp [Hears, inquiries, asks, hlacks]

/-- An event succeeds if anything is heard of it, and then the application settles for that. -/
theorem step_post_of_hears {event : Event} (hkind : (w.resource r).kind ≠ .connection)
    (h : client.Hears (.post r event) w .event payload) :
    ∃ u : World σ, u.store = w.store ∧
      client.step (.post r event) w = (.ok .done, settle r event payload u) := by
  obtain ⟨hlacks, w₁, hfollow⟩ := hears_post_iff.mp h
  have hpost : (client.post r event).exec w = (.ok (), _) :=
    post_eq_ok.mpr ⟨hlacks, payload, w₁, hfollow, rfl⟩
  exact ⟨w₁.note _, (follow_call hkind hfollow).1, exec_map_eq_ok.mpr ⟨(), hpost, rfl⟩⟩

theorem hears_of_step_post {event : Event} {answer : Answer}
    (h : client.step (.post r event) w = (.ok answer, w')) :
    ∃ payload, client.Hears (.post r event) w .event payload := by
  obtain ⟨_, hpost, -⟩ := step_eq_ok rfl h
  obtain ⟨hlacks, payload, w₁, hfollow, -⟩ := post_eq_ok.mp hpost
  exact ⟨payload, hears_post_iff.mpr ⟨hlacks, w₁, hfollow⟩⟩

/-! ## Refreshes -/

section Refresh

variable {asked : Ref} {relation : String} {kind : RecordKind}

theorem hears_refresh_iff (hsource : source? r (w.resource r) = some (asked, relation, kind)) :
    client.Hears (.refresh r) w (.update r kind) payload ↔
      ∃ w', (client.follow asked relation [] false).exec w = (.ok payload, w') :=
  hears_iff (by simp) (by simp only [asks, hsource])

/-- A refresh succeeds if the record that is asked for is heard, and the resource takes it over. -/
theorem step_refresh_of_hears (hsource : source? r (w.resource r) = some (r, relation, kind))
    (h : client.Hears (.refresh r) w (.update r kind) payload) {representation : Representation}
    (hview : payload.singleOf? kind = some representation) :
    ∃ u : World σ, u.store = w.store ∧
      client.step (.refresh r) w = (.ok .done, (u.accept r representation).forget r) := by
  obtain ⟨u, hfollow⟩ := (hears_refresh_iff hsource).mp h
  have hkind : (w.resource r).kind ≠ .connection := by
    intro hkind
    simp [source?, hkind] at hsource
  have hfetch := fetchOne_eq_ok.mpr ⟨payload, hfollow, hview⟩
  have hrefresh : (client.refresh r).exec w = (.ok (), _) :=
    refresh_eq_ok.mpr (.inl ⟨r, relation, kind, representation, u, hsource, hfetch, rfl⟩)
  exact ⟨u, (follow_call hkind hfollow).1, exec_map_eq_ok.mpr ⟨(), hrefresh, rfl⟩⟩

theorem hears_of_step_refresh {answer : Answer}
    (hsource : source? r (w.resource r) = some (asked, relation, kind))
    (h : client.step (.refresh r) w = (.ok answer, w')) :
    ∃ payload representation, client.Hears (.refresh r) w (.update r kind) payload ∧
      payload.singleOf? kind = some representation := by
  obtain ⟨_, hrefresh, -⟩ := step_eq_ok rfl h
  obtain ⟨asked', relation', kind', representation, w₁, hsource', hfetch, -⟩ | ⟨hnone, -⟩ :=
    refresh_eq_ok.mp hrefresh
  · rw [hsource] at hsource'
    cases hsource'
    obtain ⟨payload, hfollow, hview⟩ := fetchOne_eq_ok.mp hfetch
    exact ⟨payload, representation, (hears_refresh_iff hsource).mpr ⟨w₁, hfollow⟩, hview⟩
  · rw [hsource] at hnone
    cases hnone

end Refresh

/-! ## Creations and listings -/

section Members

variable {family : Family} {refs : List Ref} {creation : Creation}

theorem hears_nothing (h : client.asks op w = []) (purpose : Purpose) (payload : Payload) :
    ¬client.Hears op w purpose payload := by
  rintro ⟨i, hi, -⟩
  rw [inquiries, h] at hi
  cases hi

/-- If the members are loaded, a creation succeeds if the record is heard that it asks for, and
then the new member is enrolled. -/
theorem step_create_of_hears (hfamily : Family.ofOwner? (w.resource r).kind = some family)
    (hkind : (w.resource r).kind ≠ .connection)
    (hitems : (w.resource r).members.cell.items? = some refs)
    (h : client.Hears (.create r creation) w (.creation family) payload)
    {representation : Representation}
    (hview : payload.singleOf? family.recordKind = some representation) :
    ∃ u : World σ, u.store = w.store ∧ client.step (.create r creation) w =
      (.ok (.resource u.store.next), u.enroll family r representation) := by
  have hmembers : (client.members r).exec w = (.ok refs, w) :=
    (members_eq_ok hfamily).mpr (.inl ⟨hitems, rfl⟩)
  have hlisting : w.listing r = [] := by simp [World.listing, hfamily, hitems]
  cases hlacks : creation.lacks? with
  | some argument => exact absurd h (hears_nothing (client.step_create_of_lacks r w hlacks).2 _ _)
  | none =>
    obtain ⟨later, hasks, hcourse⟩ := client.createIn_course hfamily hlacks
    rw [hlisting, List.nil_append] at hasks
    have hfetched (parameters : Parameters) (hlater : later = [newcomer family r parameters w]) :
        ∃ u : World σ, u.store = w.store ∧
          (client.fetchOne r family.addRelation family.recordKind parameters).exec w =
            (.ok representation, u) := by
      obtain ⟨u, hfollow⟩ := (hears_iff (by simp) (hasks.trans hlater)).mp h
      exact ⟨u, (follow_call hkind hfollow).1, fetchOne_eq_ok.mpr ⟨payload, hfollow, hview⟩⟩
    rw [step_create hfamily hlacks]
    generalize hin : (client.createIn family r creation).exec w = result at hcourse
    obtain ⟨answer, w'⟩ := result
    cases hcourse with
    | unlisted | taken | unfit => exact absurd h (hears_nothing hasks _ _)
    | refused hmembers' hfree hparameters hfetch =>
      obtain ⟨-, rfl⟩ := members_unique hmembers hmembers'
      obtain ⟨u, -, hfetch'⟩ := hfetched _ rfl
      rw [hfetch] at hfetch'
      cases hfetch'
    | created hmembers' hfree hparameters hfetch =>
      obtain ⟨-, rfl⟩ := members_unique hmembers hmembers'
      obtain ⟨u, hstore, hfetch'⟩ := hfetched _ rfl
      rw [hfetch] at hfetch'
      cases hfetch'
      exact ⟨_, hstore, rfl⟩

/-- If the members are not loaded, they are listed if a list is heard, and then they show it. -/
theorem step_members_of_hears (hfamily : Family.ofOwner? (w.resource r).kind = some family)
    (hitems : (w.resource r).members.cell.items? = none)
    (h : client.Hears (.members r) w (.members family) payload)
    {representations : List Representation}
    (hview : payload.listOf? family.recordKind = some representations) :
    ∃ refs w', client.step (.members r) w = (.ok (.resources refs), w') ∧
      List.Forall₂ (fun s representation => (w'.resource s).Shows r representation) refs
        (representations.filter family.admits) := by
  obtain ⟨i, hi, hpurpose, houtcome⟩ := h
  have hdata : client.data? i = some (.records (representations.filter family.admits)) := by
    rw [data?_of_outcome houtcome, hpurpose, Purpose.read?, hview]
    rfl
  have hlink : i ∈ client.linkInquiries ⟨(World.members r).loading w, r,
      .follow family.listRelation [] false (.members family)⟩ := by
    simp only [inquiries, asks, World.listing, hfamily, hitems, List.flatMap_singleton] at hi
    obtain hroot | hlink := List.mem_append.mp hi
    · obtain ⟨rfl, -⟩ := mem_catalogInquiries hroot
      cases hpurpose
    · exact hlink
  obtain ⟨refs, w', hmembers, -, refs', hrefs, hshows⟩ := holds_of_listed hfamily hitems hlink hdata
  have hsame : refs = refs' := by
    simpa using (items_of_members hfamily hmembers).symm.trans hrefs
  exact ⟨refs, w', exec_map_eq_ok.mpr ⟨refs, hmembers, rfl⟩, hsame ▸ hshows⟩

end Members

end Client

end BrokerClient.Hierarchy

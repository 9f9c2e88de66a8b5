import BrokerClient.Hierarchy.Operation
import BrokerClient.Proofs.Hierarchy.Filling

/-!
# Fetching only fills

Everything that is done to get the data of an answer does nothing to the resources but fill
places, whether it succeeds or not: looking up a link, following it, fetching the members of an
owner, and all operations that only read. A collection that is being loaded is marked as such in
the meantime; no request depends on that mark, and it is gone afterwards.
-/
namespace BrokerClient.Hierarchy

open Hierarchy.Action

variable {σ : Type} {client : Client σ}

theorem World.warn_logs (w : World σ) (kind : ResourceKind) (catalog : Catalog) :
    w.exchange.Logs (w.warn kind catalog).exchange := by
  obtain h | ⟨entry, h⟩ := w.exchange_warn kind catalog
  · exact h ▸ .refl _
  · exact h ▸ (Exchange.Logs.refl _).note entry

namespace Client

variable {w w' : World σ}

/-! ## The catalog of the root -/

theorem send_fills (client : Client σ) (link : Link) (parameters : Parameters)
    (deleteWithBody : Bool) :
    (client.send link parameters deleteWithBody).Within client.Fills := by
  intro w
  rw [exec_send]
  exact .of_exchange w (client.service.request_continues _ _ _ _ _)

theorem refuse_fills {α : Type} (client : Client σ) (link : Link) (reason : EndpointReason) :
    (client.refuse link reason : Action σ α).Within client.Fills := by
  intro w
  obtain ⟨e, he⟩ := client.exec_refuse (α := α) link reason w
  rw [he]
  exact .refl w

theorem send_ok_store {link : Link} {parameters : Parameters} {deleteWithBody : Bool}
    {payload : Payload}
    (h : (client.send link parameters deleteWithBody).exec w = (.ok payload, w')) :
    w'.store = w.store := by
  obtain ⟨response, y, -, -, rfl⟩ := send_eq_ok.mp h
  rfl

theorem fetched_of_send {link : Link} {payload : Payload}
    (h : (client.send link [] false).exec w = (.ok payload, w')) :
    client.Fetched w.exchange w'.exchange link payload := by
  obtain ⟨response, y, hrequest, rfl, rfl⟩ := send_eq_ok.mp h
  exact ⟨w.exchange, y, response, .refl _, hrequest, .refl _, rfl⟩

theorem fetchRoot_fills (client : Client σ) : client.fetchRoot.Within client.Fills := by
  refine Within.bind Fills.trans (client.send_fills _ _ _) fun payload => ?_
  cases rootCatalog? payload with
  | none => exact client.refuse_fills _ _
  | some catalog =>
    exact Within.bind Fills.trans (fun w => .note w _) fun _ w => .refl w

theorem fetchRoot_ok_store {catalog : Catalog}
    (h : client.fetchRoot.exec w = (.ok catalog, w')) :
    w'.store = w.store ∧ client.FetchesRoot w w' catalog := by
  obtain ⟨payload, w₁, hsend, hroot, rfl⟩ := fetchRoot_eq_ok.mp h
  exact ⟨by rw [World.store_note, send_ok_store hsend], payload,
    (fetched_of_send hsend).mono (.refl _) ((Exchange.Continues.refl _).note _), hroot⟩

/-- The catalog that was fetched for the root is put in its place. -/
theorem Fills.setCatalog (h : client.Fills w w') (hstore : w'.store = w.store) {r : Ref}
    (hnone : (w.resource r).catalog = none) (hkind : (w.resource r).kind = .connection)
    {catalog : Catalog} (hroot : client.FetchesRoot w w' catalog) :
    client.Fills w (w'.setCatalog r catalog) := by
  have hwarn : w'.exchange.Continues client.transport (w'.setCatalog r catalog).exchange :=
    (w'.warn_logs (w'.resource r).kind catalog).continues
  have hget : w'.resource = w.resource := by
    funext r'
    rw [World.resource, hstore, World.resource]
  have hkeep {α : Type} (view : Resource → α)
      (hview : ∀ x, view { x with catalog := some catalog } = view x) (r' : Ref) :
      view ((w'.setCatalog r catalog).resource r') = view (w.resource r') := by
    rw [World.setCatalog, World.resource_alter_congr view hview, World.resource_warn, hget]
  have hkeeps : client.Keeps w (w'.setCatalog r catalog) := by
    refine ⟨h.exchange.trans hwarn, by simpa using h.next, fun r' _ => hkeep (·.owner) ?_ r',
      fun r' _ => hkeep (·.attributes) ?_ r', fun r' _ => hkeep (·.creationLog) ?_ r', ?_,
      fun r' => .inl (hkeep (·.members.cell.items?) ?_ r'),
      fun r' => .inl (hkeep (·.gears.cell.items?) ?_ r'), fun r' hr' hle => ?_⟩
    case refine_7 => exact absurd (by simpa [hstore] using hr') (Nat.not_lt.mpr hle)
    case refine_4 =>
      intro r' hr'
      by_cases he : r = r'
      · subst he
        refine .inr ⟨hnone, hkind, catalog, ?_, hroot.mono (.refl _) hwarn⟩
        rw [World.setCatalog, World.resource_alter_self (by simpa [hstore] using hr')]
      · rw [World.setCatalog, World.resource_alter_of_ne he, World.resource_warn, hget]
        exact .inl rfl
    all_goals exact fun _ => rfl
  refine ⟨hkeeps, fun r' hr' => ?_, fun r' hr' => ?_⟩
  · exact (hkeep (·.members.cell) (fun _ => rfl) r').symm.trans hr'
  · exact (hkeep (·.gears.cell) (fun _ => rfl) r').symm.trans hr'

theorem links_fills (client : Client σ) (r : Ref) : (client.links r).Within client.Fills := by
  intro w
  rcases h : (client.links r).exec w with ⟨e | catalog, w'⟩
  · obtain ⟨-, ⟨-, hroot⟩ | ⟨-, rfl, -⟩⟩ := links_eq_error.mp h
    · exact client.fetchRoot_fills.of_eq hroot
    · exact .refl _
  · obtain ⟨-, rfl⟩ | ⟨hnone, hkind, w₁, hroot, rfl⟩ := links_eq_ok.mp h
    · exact .refl _
    · obtain ⟨hstore, hfetched⟩ := fetchRoot_ok_store hroot
      exact (client.fetchRoot_fills.of_eq hroot).setCatalog hstore hnone hkind hfetched

/-- No resource is made to get a catalog. -/
theorem next_of_links {r : Ref} {catalog : Catalog}
    (h : (client.links r).exec w = (.ok catalog, w')) : w'.store.next = w.store.next := by
  obtain ⟨-, rfl⟩ | ⟨-, -, w₁, hroot, rfl⟩ := links_eq_ok.mp h
  · rfl
  · rw [World.next_setCatalog, (fetchRoot_ok_store hroot).1]

/-- Afterwards a resource has the catalog that it answered with. -/
theorem catalog_of_links {r : Ref} {catalog : Catalog}
    (h : (client.links r).exec w = (.ok catalog, w')) :
    (w'.resource r).catalog = some catalog := by
  obtain ⟨hcatalog, rfl⟩ | ⟨hnone, hkind, w₁, hroot, rfl⟩ := links_eq_ok.mp h
  · exact hcatalog
  · have hr : r < w.store.next := World.lt_next_of_kind (by simp [hkind])
    rw [World.setCatalog, World.resource_alter_self]
    simpa [(fetchRoot_ok_store hroot).1] using hr

/-! ## Links and answers -/

theorem fills_spans (client : Client σ) : client.Spans client.Fills :=
  ⟨.refl, .trans, client.send_fills, client.links_fills⟩

theorem entry_fills (client : Client σ) (r : Ref) (relation : Value) :
    (client.entry r relation).Within client.Fills :=
  client.fills_spans.entry r relation

theorem link_fills (client : Client σ) (r : Ref) (relation : String) :
    (client.link r relation).Within client.Fills :=
  client.fills_spans.link r relation

theorem hasLink_fills (client : Client σ) (r : Ref) (relation : Value) :
    (client.hasLink r relation).Within client.Fills :=
  client.fills_spans.hasLink r relation

theorem follow_fills (client : Client σ) (r : Ref) (relation : String) (parameters : Parameters)
    (deleteWithBody : Bool) :
    (client.follow r relation parameters deleteWithBody).Within client.Fills :=
  client.fills_spans.follow r relation parameters deleteWithBody

theorem fetchOne_fills (client : Client σ) (r : Ref) (relation : String) (kind : RecordKind)
    (parameters : Parameters) :
    (client.fetchOne r relation kind parameters).Within client.Fills :=
  client.fills_spans.fetchOne r relation kind parameters

theorem fetchList_fills (client : Client σ) (r : Ref) (relation : String) (kind : RecordKind) :
    (client.fetchList r relation kind).Within client.Fills :=
  client.fills_spans.fetchList r relation kind

theorem fetchGears_fills (client : Client σ) (r : Ref) :
    (client.fetchGears r).Within client.Fills :=
  client.fills_spans.fetchGears r

/-- What a link answered without parameters was fetched under a link of the resource. -/
theorem fetched_of_expect {α : Type} {r : Ref} {relation : String} {view : Payload → Option α}
    {reason : Payload → EndpointReason} {a : α}
    (h : (client.expect r relation [] view reason).exec w = (.ok a, w')) :
    ∃ catalog link payload, (w'.resource r).catalog = some catalog ∧
      catalog.find? relation = some (.link link) ∧
      client.Fetched w.exchange w'.exchange link payload ∧ view payload = some a := by
  obtain ⟨link, w₁, payload, hlink, hsend, hview⟩ := expect_eq_ok.mp h
  obtain ⟨catalog, hlinks, hfind⟩ := link_eq_ok.mp hlink
  have hexchange := ((client.links_fills r).of_eq hlinks).exchange
  refine ⟨catalog, link, payload, ?_, hfind, (fetched_of_send hsend).mono hexchange (.refl _),
    hview⟩
  rw [World.resource, send_ok_store hsend]
  exact catalog_of_links hlinks

theorem next_of_fetchOne {r : Ref} {relation : String} {kind : RecordKind}
    {parameters : Parameters} {representation : Representation}
    (h : (client.fetchOne r relation kind parameters).exec w = (.ok representation, w')) :
    w'.store.next = w.store.next := by
  rw [fetchOne_eq] at h
  obtain ⟨link, w₁, payload, hlink, hsend, -⟩ := expect_eq_ok.mp h
  obtain ⟨catalog, hlinks, -⟩ := link_eq_ok.mp hlink
  rw [send_ok_store hsend, next_of_links hlinks]

end Client

end BrokerClient.Hierarchy

import BrokerClient.Hierarchy.Operation
import BrokerClient.Proofs.Exchange
import BrokerClient.Proofs.Hierarchy.Action

/-!
# What following a link comes to

One statement for each step on the way from a relation to the data of an answer: which
catalog a resource has, what the catalog holds under the relation, what comes back when the
link is followed. Each says exactly when the step succeeds and what the state is then, so that
nothing below has to be looked at again.
-/
namespace BrokerClient.Hierarchy.Client

open Hierarchy.Action

variable {σ : Type} {client : Client σ} {r : Ref} {relation : String} {w w' : World σ}

theorem exec_send (client : Client σ) (link : Link) (parameters : Parameters)
    (deleteWithBody : Bool) (w : World σ) :
    (client.send link parameters deleteWithBody).exec w =
      let request := client.service.request client.transport link parameters deleteWithBody
        w.exchange
      (request.1.map Response.payload, { w with exchange := request.2 }) := by
  simp only [exec, send]
  rcases client.service.request client.transport link parameters deleteWithBody w.exchange with
    ⟨_ | _, _⟩ <;> rfl

theorem send_eq_ok {link : Link} {parameters : Parameters} {deleteWithBody : Bool}
    {payload : Payload} :
    (client.send link parameters deleteWithBody).exec w = (.ok payload, w') ↔
      ∃ response y,
        client.service.request client.transport link parameters deleteWithBody w.exchange =
          (.ok response, y) ∧
        payload = Response.payload response ∧ w' = { w with exchange := y } := by
  rw [exec_send]
  rcases client.service.request client.transport link parameters deleteWithBody w.exchange with
    ⟨e | response, y⟩
  · simp [Except.map]
  · simp [Except.map, eq_comm, and_assoc]

theorem send_eq_error {link : Link} {parameters : Parameters} {deleteWithBody : Bool}
    {e : Raised} :
    (client.send link parameters deleteWithBody).exec w = (.error e, w') ↔
      ∃ y,
        client.service.request client.transport link parameters deleteWithBody w.exchange =
          (.error e, y) ∧
        w' = { w with exchange := y } := by
  rw [exec_send]
  rcases client.service.request client.transport link parameters deleteWithBody w.exchange with
    ⟨e' | response, y⟩
  · simp [Except.map, eq_comm]
  · simp [Except.map]

/-- To refuse an answer changes nothing and always fails with an error of the client. -/
theorem exec_refuse {α : Type} (client : Client σ) (link : Link) (reason : EndpointReason)
    (w : World σ) :
    ∃ e, (client.refuse link reason : Action σ α).exec w = (.error (.client e), w) := by
  unfold refuse
  split
  · exact ⟨_, rfl⟩
  · exact ⟨_, rfl⟩

theorem refuse_ne_ok {α : Type} {link : Link} {reason : EndpointReason} {a : α} :
    (client.refuse link reason : Action σ α).exec w ≠ (.ok a, w') := by
  obtain ⟨e, he⟩ := client.exec_refuse (α := α) link reason w
  simp [he]

/-! ## Catalogs -/

theorem fetchRoot_eq_ok {catalog : Catalog} :
    client.fetchRoot.exec w = (.ok catalog, w') ↔
      ∃ payload w₁, (client.send rootLink [] false).exec w = (.ok payload, w₁) ∧
        rootCatalog? payload = some catalog ∧
        w' = w₁.note (.debug ("Resolved " ++ toString catalog.length ++ " root links")) := by
  rw [fetchRoot, exec_bind_eq_ok]
  refine exists_congr fun payload => exists_congr fun w₁ => and_congr_right fun _ => ?_
  cases hroot : rootCatalog? payload with
  | none => simp [refuse_ne_ok]
  | some found =>
    simp only [exec_bind_of_ok (exec_modify _ _), exec_pure, Prod.mk.injEq, Except.ok.injEq,
      Option.some.injEq]
    constructor
    · rintro ⟨rfl, rfl⟩
      exact ⟨rfl, rfl⟩
    · rintro ⟨rfl, rfl⟩
      exact ⟨rfl, rfl⟩

theorem links_of_some {catalog : Catalog} (h : (w.resource r).catalog = some catalog) :
    (client.links r).exec w = (.ok catalog, w) := by
  rw [links, exec_bind_of_ok (exec_get w)]
  simp only [h, exec_pure]

theorem links_of_root (h : (w.resource r).catalog = none)
    (hkind : (w.resource r).kind = .connection) :
    (client.links r).exec w =
      exec (client.fetchRoot >>= fun catalog => do
        modify (·.setCatalog r catalog)
        pure catalog) w := by
  rw [links, exec_bind_of_ok (exec_get w)]
  simp only [h, hkind]

theorem links_of_none (h : (w.resource r).catalog = none)
    (hkind : (w.resource r).kind ≠ .connection) :
    (client.links r).exec w =
      (.error (.client (.invalidRequest (.linksUnavailable (w.resource r).kind))), w) := by
  rw [links, exec_bind_of_ok (exec_get w)]
  cases hx : (w.resource r).kind <;> simp_all

/-- A resource answers with the catalog that it has, or the root with the one that was
fetched for it now. -/
theorem links_eq_ok {catalog : Catalog} :
    (client.links r).exec w = (.ok catalog, w') ↔
      ((w.resource r).catalog = some catalog ∧ w' = w) ∨
        ((w.resource r).catalog = none ∧ (w.resource r).kind = .connection ∧
          ∃ w₁, client.fetchRoot.exec w = (.ok catalog, w₁) ∧ w' = w₁.setCatalog r catalog) := by
  cases hcatalog : (w.resource r).catalog with
  | some found => simp [links_of_some hcatalog, eq_comm]
  | none =>
    by_cases hkind : (w.resource r).kind = .connection
    · rw [links_of_root hcatalog hkind]
      rcases hroot : client.fetchRoot.exec w with ⟨e | found, w₁⟩
      · simp [exec_bind_of_error hroot]
      · rw [exec_bind_of_ok hroot, exec_bind_of_ok (exec_modify _ _), exec_pure]
        simp only [Prod.mk.injEq, Except.ok.injEq, reduceCtorEq, false_and, hkind, true_and,
          false_or]
        constructor
        · rintro ⟨rfl, rfl⟩
          exact ⟨w₁, ⟨rfl, rfl⟩, rfl⟩
        · rintro ⟨_, ⟨rfl, rfl⟩, rfl⟩
          exact ⟨rfl, rfl⟩
    · simp [links_of_none hcatalog hkind, hkind]

/-- Without a catalog of its own a resource answers with an error; for the root that is the
error of the request for its catalog. -/
theorem links_eq_error {e : Raised} :
    (client.links r).exec w = (.error e, w') ↔
      (w.resource r).catalog = none ∧
        (((w.resource r).kind = .connection ∧ client.fetchRoot.exec w = (.error e, w')) ∨
          ((w.resource r).kind ≠ .connection ∧ w' = w ∧
            e = .client (.invalidRequest (.linksUnavailable (w.resource r).kind)))) := by
  cases hcatalog : (w.resource r).catalog with
  | some found => simp [links_of_some hcatalog]
  | none =>
    by_cases hkind : (w.resource r).kind = .connection
    · rw [links_of_root hcatalog hkind]
      rcases hroot : client.fetchRoot.exec w with ⟨e' | found, w₁⟩
      · simp [exec_bind_of_error hroot, hkind]
      · rw [exec_bind_of_ok hroot, exec_bind_of_ok (exec_modify _ _), exec_pure]
        simp [hkind]
    · simp [links_of_none hcatalog hkind, hkind, eq_comm, and_comm]

/-! ## Links -/

theorem entry_eq_ok {relation : Value} {entry : CatalogEntry} :
    (client.entry r relation).exec w = (.ok entry, w') ↔
      ∃ catalog, (client.links r).exec w = (.ok catalog, w') ∧
        catalog.demand relation (w'.resource r).kind.name = .ok entry := by
  rw [Client.entry, exec_bind_eq_ok]
  constructor
  · rintro ⟨catalog, w₁, hlinks, h⟩
    rw [exec_bind_of_ok (exec_get w₁)] at h
    cases hdemand : catalog.demand relation (w₁.resource r).kind.name with
    | error e => simp [hdemand] at h
    | ok found =>
      simp only [hdemand, exec_pure, Prod.mk.injEq, Except.ok.injEq] at h
      obtain ⟨rfl, rfl⟩ := h
      exact ⟨catalog, hlinks, hdemand⟩
  · rintro ⟨catalog, hlinks, hdemand⟩
    refine ⟨catalog, w', hlinks, ?_⟩
    simp [exec_bind_of_ok (exec_get w'), hdemand]

theorem entry_eq_error {relation : Value} {e : Raised} :
    (client.entry r relation).exec w = (.error e, w') ↔
      (client.links r).exec w = (.error e, w') ∨
        ∃ catalog, (client.links r).exec w = (.ok catalog, w') ∧
          catalog.demand relation (w'.resource r).kind.name = .error e := by
  rw [Client.entry, exec_bind_eq_error]
  refine or_congr_right ⟨?_, ?_⟩
  · rintro ⟨catalog, w₁, hlinks, h⟩
    rw [exec_bind_of_ok (exec_get w₁)] at h
    cases hdemand : catalog.demand relation (w₁.resource r).kind.name with
    | ok found => simp [hdemand] at h
    | error e =>
      simp only [hdemand, exec_throw, Prod.mk.injEq, Except.error.injEq] at h
      obtain ⟨rfl, rfl⟩ := h
      exact ⟨catalog, hlinks, hdemand⟩
  · rintro ⟨catalog, hlinks, hdemand⟩
    refine ⟨catalog, w', hlinks, ?_⟩
    simp [exec_bind_of_ok (exec_get w'), hdemand]

/-- A link is found if the catalog holds one under the relation. -/
theorem link_eq_ok {link : Link} :
    (client.link r relation).exec w = (.ok link, w') ↔
      ∃ catalog, (client.links r).exec w = (.ok catalog, w') ∧
        catalog.find? relation = some (.link link) := by
  rw [Client.link, exec_bind_eq_ok]
  constructor
  · rintro ⟨entry, w₁, hentry, h⟩
    obtain ⟨catalog, hlinks, hdemand⟩ := entry_eq_ok.mp hentry
    cases entry with
    | plain v => simp at h
    | link found =>
      simp only [exec_pure, Prod.mk.injEq, Except.ok.injEq] at h
      obtain ⟨rfl, rfl⟩ := h
      exact ⟨catalog, hlinks, (Catalog.demand_eq_ok.mp hdemand).1⟩
  · rintro ⟨catalog, hlinks, hfind⟩
    exact ⟨.link link, w', entry_eq_ok.mpr ⟨catalog, hlinks, Catalog.demand_of_find?_link hfind _⟩,
      rfl⟩

/-- No link is found if there is no catalog, if the catalog has nothing under the relation,
or if it has a plain value there; only the last is a fault. -/
theorem link_eq_error {e : Raised} :
    (client.link r relation).exec w = (.error e, w') ↔
      (client.links r).exec w = (.error e, w') ∨
        ∃ catalog, (client.links r).exec w = (.ok catalog, w') ∧
          (((catalog.find? relation = none ∨ catalog.find? relation = some (.plain .null)) ∧
              e = .client (.linkNotFound (.str relation) (w'.resource r).kind.name)) ∨
            ∃ v, catalog.find? relation = some (.plain v) ∧ v ≠ .null ∧
              e = .fault (.noAttribute v.kindName "required_params")) := by
  rw [Client.link, exec_bind_eq_error, entry_eq_error, or_assoc]
  refine or_congr_right ?_
  constructor
  · rintro (⟨catalog, hlinks, hdemand⟩ | ⟨entry, w₁, hentry, h⟩)
    · exact ⟨catalog, hlinks, .inl (Catalog.demand_eq_error.mp hdemand)⟩
    · obtain ⟨catalog, hlinks, hdemand⟩ := entry_eq_ok.mp hentry
      obtain ⟨hfind, hnull⟩ := Catalog.demand_eq_ok.mp hdemand
      cases entry with
      | link found => simp at h
      | plain v =>
        simp only [exec_throw, Prod.mk.injEq, Except.error.injEq] at h
        obtain ⟨rfl, rfl⟩ := h
        exact ⟨catalog, hlinks, .inr ⟨v, hfind, fun hv => hnull (hv ▸ rfl), rfl⟩⟩
  · rintro ⟨catalog, hlinks, hfound | ⟨v, hfind, hv, rfl⟩⟩
    · exact .inl ⟨catalog, hlinks, Catalog.demand_eq_error.mpr hfound⟩
    · have hdemand : catalog.demand (.str relation) (w'.resource r).kind.name = .ok (.plain v) :=
        Catalog.demand_eq_ok.mpr ⟨hfind, fun h => hv (CatalogEntry.plain.inj h)⟩
      exact .inr ⟨.plain v, w', entry_eq_ok.mpr ⟨catalog, hlinks, hdemand⟩, rfl⟩

/-! ## Answers -/

theorem follow_eq_ok {parameters : Parameters} {deleteWithBody : Bool} {payload : Payload} :
    (client.follow r relation parameters deleteWithBody).exec w = (.ok payload, w') ↔
      ∃ link w₁, (client.link r relation).exec w = (.ok link, w₁) ∧
        (client.send link parameters deleteWithBody).exec w₁ = (.ok payload, w') := by
  rw [follow, exec_bind_eq_ok]

/-- Follows a link and takes from the answer what is asked for. -/
def expect {α : Type} (client : Client σ) (r : Ref) (relation : String)
    (parameters : Parameters) (view : Payload → Option α) (reason : Payload → EndpointReason) :
    Action σ α := do
  let link ← client.link r relation
  let payload ← client.send link parameters false
  match view payload with
  | some a => pure a
  | none => client.refuse link (reason payload)

theorem expect_eq_ok {α : Type} {parameters : Parameters} {view : Payload → Option α}
    {reason : Payload → EndpointReason} {a : α} :
    (client.expect r relation parameters view reason).exec w = (.ok a, w') ↔
      ∃ link w₁ payload, (client.link r relation).exec w = (.ok link, w₁) ∧
        (client.send link parameters false).exec w₁ = (.ok payload, w') ∧
        view payload = some a := by
  simp only [expect, exec_bind_eq_ok]
  constructor
  · rintro ⟨link, w₁, hlink, payload, w₂, hsend, h⟩
    cases hview : view payload with
    | none => simp [hview, refuse_ne_ok] at h
    | some found =>
      simp only [hview, exec_pure, Prod.mk.injEq, Except.ok.injEq] at h
      obtain ⟨rfl, rfl⟩ := h
      exact ⟨link, w₁, payload, hlink, hsend, hview⟩
  · rintro ⟨link, w₁, payload, hlink, hsend, hview⟩
    exact ⟨link, w₁, hlink, payload, w', hsend, by simp [hview]⟩

theorem fetchOne_eq (client : Client σ) (r : Ref) (relation : String) (kind : RecordKind)
    (parameters : Parameters) :
    client.fetchOne r relation kind parameters =
      client.expect r relation parameters (·.singleOf? kind)
        (fun payload => .expectedRecord kind payload.kindName) := by
  simp only [fetchOne, expect]
  refine bind_congr fun link => bind_congr fun payload => ?_
  cases payload.singleOf? kind <;> rfl

theorem fetchList_eq (client : Client σ) (r : Ref) (relation : String) (kind : RecordKind) :
    client.fetchList r relation kind =
      client.expect r relation [] (·.listOf? kind) (fun _ => .expectedList kind) := by
  simp only [fetchList, expect]
  refine bind_congr fun link => bind_congr fun payload => ?_
  cases payload.listOf? kind <;> rfl

theorem fetchGears_eq (client : Client σ) (r : Ref) :
    client.fetchGears r =
      client.expect r Relation.getGears [] (·.gears?) (fun _ => .expectedList .gear) := by
  simp only [fetchGears, expect]
  refine bind_congr fun link => bind_congr fun payload => ?_
  cases payload.gears? <;> rfl

/-! ## From one state to another -/

/-- A relation between states that holds across whatever is done to get at data: across nothing,
across one thing after the other, across a request, and across a look at a catalog. -/
structure Spans (client : Client σ) (R : World σ → World σ → Prop) : Prop where
  refl : ∀ w, R w w
  trans : ∀ {u v w}, R u v → R v w → R u w
  send : ∀ link parameters deleteWithBody,
    (client.send link parameters deleteWithBody).Within R
  links : ∀ r, (client.links r).Within R

namespace Spans

variable {R : World σ → World σ → Prop}

theorem refuse {α : Type} (h : client.Spans R) (link : Link) (reason : EndpointReason) :
    (client.refuse link reason : Action σ α).Within R := by
  intro w
  obtain ⟨e, he⟩ := client.exec_refuse (α := α) link reason w
  rw [he]
  exact h.refl w

theorem entry (h : client.Spans R) (r : Ref) (relation : Value) :
    (client.entry r relation).Within R := by
  refine Within.bind h.trans (h.links r) fun catalog w => ?_
  rw [exec_bind_of_ok (exec_get w)]
  split <;> exact h.refl w

theorem link (h : client.Spans R) (r : Ref) (relation : String) :
    (client.link r relation).Within R := by
  refine Within.bind h.trans (h.entry r _) fun entry w => ?_
  cases entry <;> exact h.refl w

theorem hasLink (h : client.Spans R) (r : Ref) (relation : Value) :
    (client.hasLink r relation).Within R := by
  refine Within.bind h.trans (h.links r) fun catalog w => ?_
  cases catalog.entry? relation <;> exact h.refl w

theorem follow (h : client.Spans R) (r : Ref) (relation : String) (parameters : Parameters)
    (deleteWithBody : Bool) : (client.follow r relation parameters deleteWithBody).Within R :=
  Within.bind h.trans (h.link r relation) fun _ => h.send _ _ _

theorem expect {α : Type} (h : client.Spans R) (r : Ref) (relation : String)
    (parameters : Parameters) (view : Payload → Option α) (reason : Payload → EndpointReason) :
    (client.expect r relation parameters view reason).Within R := by
  refine Within.bind h.trans (h.link r relation) fun link => ?_
  refine Within.bind h.trans (h.send _ _ _) fun payload => ?_
  cases view payload with
  | none => exact h.refuse _ _
  | some a => exact fun w => h.refl w

theorem fetchOne (h : client.Spans R) (r : Ref) (relation : String) (kind : RecordKind)
    (parameters : Parameters) : (client.fetchOne r relation kind parameters).Within R :=
  client.fetchOne_eq r relation kind parameters ▸ h.expect _ _ _ _ _

theorem fetchList (h : client.Spans R) (r : Ref) (relation : String) (kind : RecordKind) :
    (client.fetchList r relation kind).Within R :=
  client.fetchList_eq r relation kind ▸ h.expect _ _ _ _ _

theorem fetchGears (h : client.Spans R) (r : Ref) : (client.fetchGears r).Within R :=
  client.fetchGears_eq r ▸ h.expect _ _ _ _ _

theorem demand (h : client.Spans R) (lacks : Option Argument) :
    (demand lacks : Action σ Unit).Within R := by
  intro w
  cases lacks <;> exact h.refl w

theorem parametersOf (h : client.Spans R) (creation : Creation) :
    (parametersOf creation : Action σ Parameters).Within R := by
  intro w
  unfold Client.parametersOf
  split <;> exact h.refl w

theorem member? (h : client.Spans R) {owner : Ref} (hmembers : (client.members owner).Within R)
    (name : Value) : (client.member? owner name).Within R :=
  Within.bind h.trans hmembers fun _ w => h.refl w

theorem applicationsOf (h : client.Spans R) {domain : Ref}
    (hmembers : (client.members domain).Within R) (cartridge : Value) :
    (client.applicationsOf domain cartridge).Within R :=
  Within.bind h.trans hmembers fun _ w => h.refl w

theorem availableCartridges (h : client.Spans R) (connection : Ref) :
    (client.availableCartridges connection).Within R :=
  Within.bind h.trans (h.fetchList _ _ _) fun _ w => h.refl w

theorem creationOptions (h : client.Spans R) (domain : Ref) (parameter : String) :
    (client.creationOptions domain parameter).Within R :=
  Within.bind h.trans (h.link _ _) fun _ w => h.refl w

end Spans

end BrokerClient.Hierarchy.Client

import BrokerClient.Proofs.Hierarchy.Asking

/-!
# Requests follow the latest links

The catalog of a resource is that of the last representation that the resource took over, and the
root has the one that was fetched last, if it has not forgotten that since. Every request but the
one for the root itself is made under a link that such a catalog holds under the relation that is
asked for. If there is none, nothing is sent.
-/
namespace BrokerClient.Hierarchy.Client

open Hierarchy.Action

variable {σ : Type} {client : Client σ} {w w' w₁ : World σ} {r : Ref}

/-! ## The history of catalogs -/

/-- The catalogs that resources take over in an operation. A connection that is refreshed loses
its own. -/
def stepHistory (client : Client σ) (op : Op) (w : World σ) : History :=
  (client.inquiries op w).flatMap client.news ++
    match op with
    | .refresh r => if (w.resource r).kind = .connection then [(r, none)] else []
    | _ => []

/-- The catalogs that resources take over in operations one after the other. -/
def history (client : Client σ) : List Op → World σ → History
  | [], _ => []
  | op :: rest, w => client.stepHistory op w ++ client.history rest (client.step op w).2

/-- The inquiries of operations one after the other. -/
def runInquiries (client : Client σ) : List Op → World σ → List (Inquiry σ)
  | [], _ => []
  | op :: rest, w => client.inquiries op w ++ client.runInquiries rest (client.step op w).2

theorem run_cons (client : Client σ) (op : Op) (rest : List Op) (w : World σ) :
    (client.run (op :: rest) w).2 = (client.run rest (client.step op w).2).2 := rfl

theorem catalog_cleared (x : Resource) :
    (cleared x).catalog = if x.kind = .connection then none else x.catalog := by
  unfold cleared discard
  cases h : x.kind <;> simp [Resource.withMembers, Resource.withGears]

/-- A refresh either is done, and something was forgotten, or it fails. -/
theorem step_refresh_cases (client : Client σ) (r : Ref) (w : World σ) :
    ∃ w₁, client.AccountsFor w (client.inquiries (.refresh r) w) w₁ ∧
      (w₁.resource r).kind = (w.resource r).kind ∧
      (((w.resource r).kind ≠ .connection ∧ ∃ e, client.step (.refresh r) w = (.error e, w₁)) ∨
        ∃ w', client.step (.refresh r) w = (.ok .done, w') ∧ Clears w₁ r w') := by
  have hstep : client.step (.refresh r) w =
      exec ((fun _ => Answer.done) <$> client.refresh r) w := rfl
  rw [hstep, exec_map]
  obtain ⟨w₁, haccounts, hkinds, ⟨hkind, e, h⟩ | ⟨w', h, hclears⟩⟩ := client.refresh_accounts w r
  · exact ⟨w₁, haccounts, hkinds, .inl ⟨hkind, e, by rw [h]; rfl⟩⟩
  · exact ⟨w₁, haccounts, hkinds, .inr ⟨w', by rw [h]; rfl, hclears⟩⟩

/-- A step passes through its inquiries and does not send anything else. -/
theorem step_conducts (client : Client σ) (op : Op) (w : World σ) :
    client.Conducts w.exchange (client.inquiries op w) (client.step op w).2.exchange := by
  by_cases hop : ∃ r, op = .refresh r
  · obtain ⟨r, rfl⟩ := hop
    obtain ⟨w₁, haccounts, -, ⟨-, e, h⟩ | ⟨w', h, hclears⟩⟩ := client.step_refresh_cases r w
    · rw [h]
      exact haccounts.conducts
    · rw [h]
      exact haccounts.conducts.logs hclears.logs
  · exact (client.step_accounts (fun r hr => hop ⟨r, hr⟩) w).conducts

theorem step_catalogs (client : Client σ) (op : Op) (w : World σ) (r : Ref) :
    ((client.step op w).2.resource r).catalog =
      (client.stepHistory op w).latest r (w.resource r).catalog := by
  by_cases hop : ∃ r, op = .refresh r
  · obtain ⟨r', rfl⟩ := hop
    obtain ⟨w₁, haccounts, hkinds, ⟨hkind, e, h⟩ | ⟨w', h, hclears⟩⟩ :=
      client.step_refresh_cases r' w
    · rw [h]
      simp [stepHistory, hkind, haccounts.catalogs]
    · rw [h]
      simp only [stepHistory, History.latest_append, ← haccounts.catalogs, hclears.resource]
      by_cases he : r = r'
      · subst he
        rw [if_pos rfl, catalog_cleared, hkinds]
        split <;> simp
      · rw [if_neg he]
        split <;> simp [Ne.symm he]
  · have hhistory : client.stepHistory op w = (client.inquiries op w).flatMap client.news := by
      unfold stepHistory
      split
      · exact absurd ⟨_, rfl⟩ hop
      · exact List.append_nil _
    rw [hhistory]
    exact (client.step_accounts (fun r hr => hop ⟨r, hr⟩) w).catalogs r

/-- The calls of a run are those of its inquiries, one after the other. -/
theorem run_conducts (client : Client σ) (ops : List Op) (w : World σ) :
    client.Conducts w.exchange (client.runInquiries ops w) (client.run ops w).2.exchange := by
  induction ops generalizing w with
  | nil => exact Exchange.Logs.refl _
  | cons op rest ih => exact (client.step_conducts op w).append (ih _)

/-- The catalog of a resource is the last one that it took over. -/
theorem run_catalogs (client : Client σ) (ops : List Op) (w : World σ) (r : Ref) :
    ((client.run ops w).2.resource r).catalog =
      (client.history ops w).latest r (w.resource r).catalog := by
  induction ops generalizing w with
  | nil => rfl
  | cons op rest ih =>
    rw [run_cons, ih, step_catalogs, history, History.latest_append]

/-! ## Relations that are not there -/

section Absent

variable {e : Raised} {relation : String} {parameters : Parameters} {deleteWithBody : Bool}

theorem link_of_entry_error (h : (client.entry r (.str relation)).exec w = (.error e, w')) :
    (client.link r relation).exec w = (.error e, w') :=
  exec_bind_of_error h _

theorem follow_of_entry_error (h : (client.entry r (.str relation)).exec w = (.error e, w')) :
    (client.follow r relation parameters deleteWithBody).exec w = (.error e, w') :=
  exec_bind_of_error (link_of_entry_error h) _

theorem expect_of_entry_error {α : Type} {view : Payload → Option α}
    {reason : Payload → EndpointReason}
    (h : (client.entry r (.str relation)).exec w = (.error e, w')) :
    (client.expect r relation parameters view reason).exec w = (.error e, w') :=
  exec_bind_of_error (link_of_entry_error h) _

theorem fetchOne_of_entry_error {kind : RecordKind}
    (h : (client.entry r (.str relation)).exec w = (.error e, w')) :
    (client.fetchOne r relation kind parameters).exec w = (.error e, w') := by
  rw [fetchOne_eq]
  exact expect_of_entry_error h

theorem step_of_error {α : Type} {op : Op} {g : α → Answer} {x : Action σ α}
    (hop : client.perform op = g <$> x) (h : x.exec w = (.error e, w')) :
    client.step op w = (.error e, w') := by
  have hstep : client.step op w = exec (client.perform op) w := rfl
  rw [hstep, hop, exec_map, h]
  rfl

/-- An owner without a link to its members has none, and nothing more is sent. -/
theorem members_of_entry_error {owner : Ref} {ask : Ask σ} (hask : ask ∈ w.listing owner)
    {relation : Value} (hrelation : ask.aim.relation? = some relation)
    (h : (client.entry ask.asked relation).exec ask.state = (.error e, w₁)) :
    ∃ w', (client.members owner).exec w = (.error e, w') ∧ w'.exchange = w₁.exchange := by
  unfold World.listing at hask
  split at hask
  · rename_i family hfamily hitems
    obtain rfl := List.mem_singleton.mp hask
    obtain rfl := Option.some.inj hrelation
    have hfetch : (client.fetchMembers family owner).exec ((World.members owner).loading w) =
        (.error e, w₁) := by
      refine exec_bind_of_error ?_ _
      rw [fetchList_eq]
      exact expect_of_entry_error h
    exact ⟨_, (members_eq_error hfamily).mpr ⟨hitems, w₁, hfetch, rfl⟩, rfl⟩
  · cases hask

theorem create_of_entry_error {owner : Ref} {creation : Creation} {ask : Ask σ}
    (hask : ask ∈ client.creationAsks owner creation w) {relation : Value}
    (hrelation : ask.aim.relation? = some relation)
    (h : (client.entry ask.asked relation).exec ask.state = (.error e, w₁)) :
    ∃ w', (client.create owner creation).exec w = (.error e, w') ∧ w'.exchange = w₁.exchange := by
  unfold creationAsks at hask
  split at hask
  · cases hask
  · rename_i hlacks
    rw [create, demand_bind_of_none hlacks, exec_bind_of_ok (exec_get w)]
    obtain hask | hask := List.mem_append.mp hask
    · obtain ⟨w', hmembers, hw'⟩ := members_of_entry_error hask hrelation h
      cases hfamily : Family.ofOwner? (w.resource owner).kind with
      | none =>
        rw [members_of_not_owner hfamily] at hmembers
        cases hmembers
      | some family =>
        have hmember : (client.member? owner creation.name).exec w = (.error e, w') :=
          exec_bind_of_error hmembers _
        simp only [hfamily]
        exact ⟨w', exec_bind_of_error hmember _, hw'⟩
    · split at hask
      · rename_i family parameters w₂ hfamily hparameters hmember
        obtain rfl := List.mem_singleton.mp hask
        obtain rfl := Option.some.inj hrelation
        simp only [hfamily]
        refine ⟨w₁, ?_, rfl⟩
        rw [createIn, exec_bind_of_ok hmember]
        refine (exec_bind_of_ok (parametersOf_eq_ok.mpr ⟨hparameters, rfl⟩) _).trans ?_
        exact exec_bind_of_error (fetchOne_of_entry_error h) _
      · cases hask

theorem updateKey_of_entry_error {key : Ref} {type publicKey : Value} {ask : Ask σ}
    (hask : ask ∈ asks.updateAsks key type publicKey w) {relation : Value}
    (hrelation : ask.aim.relation? = some relation)
    (h : (client.entry ask.asked relation).exec ask.state = (.error e, w₁)) :
    (client.updateKey key type publicKey).exec w = (.error e, w₁) := by
  unfold asks.updateAsks at hask
  split at hask
  · cases hask
  · rename_i hlacks
    obtain rfl := List.mem_singleton.mp hask
    obtain rfl := Option.some.inj hrelation
    rw [updateKey, demand_bind_of_none (by rw [if_neg hlacks])]
    exact exec_bind_of_error (fetchOne_of_entry_error h) _

/-- If what an operation asks for is not there, the operation fails for that, and nothing more is
sent. -/
theorem step_of_entry_error {op : Op} {ask : Ask σ} (hask : ask ∈ client.asks op w)
    {relation : Value} (hrelation : ask.aim.relation? = some relation)
    (h : (client.entry ask.asked relation).exec ask.state = (.error e, w₁)) :
    ∃ w', client.step op w = (.error e, w') ∧ w'.exchange = w₁.exchange := by
  cases op with
  | links r =>
    obtain rfl := List.mem_singleton.mp hask
    cases hrelation
  | hasLink r relation =>
    obtain rfl := List.mem_singleton.mp hask
    cases hrelation
  | link r relation =>
    obtain rfl := List.mem_singleton.mp hask
    obtain rfl := Option.some.inj hrelation
    exact ⟨w₁, step_of_error rfl h, rfl⟩
  | members owner =>
    obtain ⟨w', hmembers, hw'⟩ := members_of_entry_error hask hrelation h
    exact ⟨w', step_of_error rfl hmembers, hw'⟩
  | member owner name =>
    obtain ⟨w', hmembers, hw'⟩ := members_of_entry_error hask hrelation h
    exact ⟨w', step_of_error rfl (exec_bind_of_error hmembers _), hw'⟩
  | hasMember owner name =>
    obtain ⟨w', hmembers, hw'⟩ := members_of_entry_error hask hrelation h
    exact ⟨w', step_of_error rfl (exec_bind_of_error hmembers _), hw'⟩
  | applicationsOf domain cartridge =>
    obtain ⟨w', hmembers, hw'⟩ := members_of_entry_error hask hrelation h
    exact ⟨w', step_of_error rfl (exec_bind_of_error hmembers _), hw'⟩
  | hasApplicationsOf domain cartridge =>
    obtain ⟨w', hmembers, hw'⟩ := members_of_entry_error hask hrelation h
    exact ⟨w', step_of_error rfl (exec_bind_of_error hmembers _), hw'⟩
  | destroy r force =>
    obtain rfl := List.mem_singleton.mp hask
    obtain rfl := Option.some.inj hrelation
    have hdestroy : (client.destroy r force).exec w = (.error e, w₁) := by
      rw [destroy, exec_bind_of_ok (exec_get w)]
      exact exec_bind_of_error (follow_of_entry_error h) _
    exact ⟨w₁, step_of_error rfl hdestroy, rfl⟩
  | availableCartridges connection =>
    obtain rfl := List.mem_singleton.mp hask
    obtain rfl := Option.some.inj hrelation
    have hcartridges : (client.availableCartridges connection).exec w = (.error e, w₁) := by
      rw [availableCartridges, fetchList_eq]
      exact exec_bind_of_error (expect_of_entry_error h) _
    exact ⟨w₁, step_of_error rfl hcartridges, rfl⟩
  | cartridgeNames domain =>
    obtain rfl := List.mem_singleton.mp hask
    obtain rfl := Option.some.inj hrelation
    exact ⟨w₁, step_of_error rfl (exec_bind_of_error (link_of_entry_error h) _), rfl⟩
  | gearProfiles domain =>
    obtain rfl := List.mem_singleton.mp hask
    obtain rfl := Option.some.inj hrelation
    exact ⟨w₁, step_of_error rfl (exec_bind_of_error (link_of_entry_error h) _), rfl⟩
  | create owner creation =>
    obtain ⟨w', hcreate, hw'⟩ := create_of_entry_error hask hrelation h
    exact ⟨w', step_of_error rfl hcreate, hw'⟩
  | refresh r =>
    simp only [asks] at hask
    split at hask
    · rename_i hsource
      obtain rfl := List.mem_singleton.mp hask
      obtain rfl := Option.some.inj hrelation
      have hrefresh : (client.refresh r).exec w = (.error e, w₁) := by
        rw [refresh, exec_bind_of_ok (exec_get w)]
        simp only [hsource]
        exact exec_bind_of_error (fetchOne_of_entry_error h) _
      exact ⟨w₁, step_of_error rfl hrefresh, rfl⟩
    · cases hask
  | user connection =>
    simp only [asks] at hask
    split at hask
    · cases hask
    · rename_i huser
      obtain rfl := List.mem_singleton.mp hask
      obtain rfl := Option.some.inj hrelation
      have huser : (client.user connection).exec w = (.error e, w₁) := by
        rw [user, exec_bind_of_ok (exec_get w)]
        simp only [huser]
        exact exec_bind_of_error (fetchOne_of_entry_error h) _
      exact ⟨w₁, step_of_error rfl huser, rfl⟩
  | rename domain id =>
    simp only [asks] at hask
    split at hask
    · cases hask
    · rename_i hlacks
      obtain rfl := List.mem_singleton.mp hask
      obtain rfl := Option.some.inj hrelation
      have hrename : (client.rename domain id).exec w = (.error e, w₁) := by
        rw [rename, demand_bind_of_none (by rw [if_neg hlacks])]
        exact exec_bind_of_error (fetchOne_of_entry_error h) _
      exact ⟨w₁, step_of_error rfl hrename, rfl⟩
  | post application event =>
    simp only [asks] at hask
    split at hask
    · cases hask
    · rename_i hlacks
      obtain rfl := List.mem_singleton.mp hask
      obtain rfl := Option.some.inj hrelation
      have hpost : (client.post application event).exec w = (.error e, w₁) := by
        rw [post, demand_bind_of_none hlacks]
        exact exec_bind_of_error (follow_of_entry_error h) _
      exact ⟨w₁, step_of_error rfl hpost, rfl⟩
  | gears application =>
    simp only [asks] at hask
    split at hask
    · cases hask
    · rename_i hitems
      obtain rfl := List.mem_singleton.mp hask
      obtain rfl := Option.some.inj hrelation
      have hfetch : (client.fetchGears application).exec ((World.gears application).loading w) =
          (.error e, w₁) := by
        rw [fetchGears_eq]
        exact expect_of_entry_error h
      exact ⟨_, step_of_error rfl (Lazy.load_eq_error.mpr ⟨hitems, w₁, hfetch, rfl⟩), rfl⟩
  | updateKey key type publicKey =>
    exact ⟨w₁, step_of_error rfl (updateKey_of_entry_error hask hrelation h), rfl⟩
  | setPublicKey key publicKey =>
    have hset := updateKey_of_entry_error hask hrelation h
    rw [← exec_setPublicKey] at hset
    exact ⟨w₁, step_of_error rfl hset, rfl⟩

end Absent

/-! ## Following the latest links -/

/-- A call is one for the root, or has the method and the address of the link that the resource that
was asked holds under the relation that it was asked for. -/
inductive Justifies (client : Client σ) (i : Inquiry σ) (call : Call) : Prop
  | root (hrelation : i.relation = none)
      (hcall : call = ⟨.get, client.service.url ++ Service.rootPath, none⟩)
  | link {relation : String} {catalog : Catalog} {link : Link}
      (hrelation : i.relation = some relation)
      (hcatalog : (i.state.resource i.asked).catalog = some catalog)
      (hfind : catalog.find? relation = some (.link link)) (hmethod : call.method = link.method)
      (hurl : client.service.resolveUrl link.href = .ok call.url)

theorem Justifies.of_isGrounded {i : Inquiry σ} (h : i.IsGrounded) {call : Call}
    (hcall : client.call? i = some call) : client.Justifies i call := by
  obtain ⟨url, hchecked, hresolved, hformed⟩ := Service.call?_eq_some.mp hcall
  obtain ⟨hmethod, hurl⟩ := Service.eq_of_callFor hformed
  cases h with
  | root hrelation hlink =>
    refine .root hrelation ?_
    rw [hlink] at hresolved hformed
    have hroot : client.service.resolveUrl rootLink.href =
        .ok (client.service.url ++ Service.rootPath) := rfl
    obtain rfl := Except.ok.inj (hresolved.symm.trans hroot)
    exact (Option.some.inj hformed).symm
  | link hrelation hcatalog hfind => exact .link hrelation hcatalog hfind hmethod (hurl ▸ hresolved)

/-- An operation in a state follows the latest links, after a history of catalogs. -/
structure FollowsLatest (client : Client σ) (history : History) (op : Op) (w : World σ) : Prop where
  /-- Each resource has the last catalog that it took over. -/
  catalogs : ∀ r, (w.resource r).catalog = history.latest r none
  /-- What is sent are the calls of the inquiries, each made where the one before it left off. -/
  conducts : client.Conducts w.exchange (client.inquiries op w) (client.step op w).2.exchange
  calls : (client.step op w).2.exchange.calls =
    w.exchange.calls ++ (client.inquiries op w).filterMap client.call?
  /-- At the time of an inquiry each resource has the last catalog as well, and the call is that of
  a link in it. -/
  justified : ∀ before i after, client.inquiries op w = before ++ i :: after →
    (∀ r, (i.state.resource r).catalog = (history ++ before.flatMap client.news).latest r none) ∧
      ∀ call, client.call? i = some call → client.Justifies i call
  /-- Only the answer for the root brings a catalog to a connection. -/
  root : op.Suits w → ∀ i ∈ client.inquiries op w, ∀ entry ∈ client.news i,
    (w.resource entry.1).kind = .connection → i.purpose = .root
  /-- If the relation is not there, the operation fails for that, and nothing more is sent. Only a
  relation that cannot be written is not named by the error. -/
  absent : ∀ ask ∈ client.asks op w, ∀ relation, ask.aim.relation? = some relation →
    ∀ catalog w₁, (client.links ask.asked).exec ask.state = (.ok catalog, w₁) →
      catalog.entry? relation = .ok none →
      ∃ w', client.step op w =
          (.error (Catalog.absence relation (w₁.resource ask.asked).kind.name), w') ∧
        w'.exchange = w₁.exchange

theorem entry_of_absent {relation : Value} {catalog : Catalog}
    (hlinks : (client.links r).exec w = (.ok catalog, w₁))
    (h : catalog.entry? relation = .ok none) :
    (client.entry r relation).exec w =
      (.error (Catalog.absence relation (w₁.resource r).kind.name), w₁) := by
  refine entry_eq_error.mpr (.inr ⟨catalog, hlinks, ?_⟩)
  rw [Catalog.demand, h]

theorem catalog_start (server : σ) (r : Ref) :
    ((World.start server).resource r).catalog = none := by
  cases r with
  | zero => rfl
  | succ r => rw [World.resource_of_next_le (Nat.succ_le_succ (Nat.zero_le r))]; rfl

/-- Whatever was done before, every operation follows the latest links. -/
theorem requests_follow_latest (client : Client σ) (server : σ) (ops : List Op) (op : Op) :
    client.FollowsLatest (client.history ops (.start server)) op
      (client.run ops (.start server)).2 := by
  have hcatalogs (r : Ref) : ((client.run ops (.start server)).2.resource r).catalog =
      (client.history ops (.start server)).latest r none := by
    rw [run_catalogs, catalog_start]
  have hconducts := client.step_conducts op (client.run ops (.start server)).2
  refine ⟨hcatalogs, hconducts, hconducts.calls, fun before i after hsplit => ?_,
    fun hop i hi entry hentry hkind => ?_,
    fun ask hask relation hrelation catalog w₁ hlinks h => ?_⟩
  · obtain ⟨haccounts, hgrounded⟩ := inquiries_split hsplit
    refine ⟨fun r => ?_, fun call hcall => .of_isGrounded hgrounded hcall⟩
    rw [haccounts.catalogs, hcatalogs, History.latest_append]
  · obtain ⟨before, after, hsplit⟩ := List.append_of_mem hi
    exact root_of_news hop hsplit hentry hkind
  · exact step_of_entry_error hask hrelation (entry_of_absent hlinks h)

end BrokerClient.Hierarchy.Client

import BrokerClient.Proofs.Hierarchy.Loading

/-!
# Failing changes nothing

Every operation that changes something fetches all that it needs first. What it does afterwards
cannot fail. So an operation that fails has only filled places that had not been fetched: nothing
was added or removed, no attribute, alias or link was replaced, and nothing was forgotten.
-/
namespace BrokerClient.Hierarchy.Client

open Hierarchy.Action

variable {σ : Type}

theorem demand_fills (client : Client σ) (lacks : Option Argument) :
    (demand lacks : Action σ Unit).Within client.Fills :=
  client.fills_spans.demand lacks

theorem parametersOf_fills (client : Client σ) (creation : Creation) :
    (parametersOf creation : Action σ Parameters).Within client.Fills :=
  client.fills_spans.parametersOf creation

/-- Once the members of an owner were looked through, a member that is not created changes nothing
more. -/
theorem createIn_fails_after {client : Client σ} {family : Family} {owner : Ref}
    {creation : Creation} {w w₁ w' : World σ} {found : Option Ref} {e : Raised}
    (hmember : (client.member? owner creation.name).exec w = (.ok found, w₁))
    (h : (client.createIn family owner creation).exec w = (.error e, w')) :
    client.Fills w₁ w' := by
  have hcommit : (do
      let parameters ← parametersOf creation
      let representation ← client.fetchOne owner family.addRelation family.recordKind parameters
      let r ← modifyGet (·.adopt owner representation)
      modify (Lazy.edit (World.members owner) (· ++ [r]))
      let name := ((← get).resource owner).name
      modify (·.note (.info (family.createdText name representation.name)))
      pure r : Action σ Ref).FailsWithin client.Fills := by
    refine FailsWithin.bind Fills.trans (client.parametersOf_fills _) fun parameters => ?_
    refine FailsWithin.bind Fills.trans (client.fetchOne_fills _ _ _ _) fun representation => ?_
    exact Succeeds.failsWithin fun w => ⟨_, _, rfl⟩
  rw [createIn, exec_bind_of_ok hmember] at h
  cases found with
  | some r =>
    obtain ⟨-, rfl⟩ := Prod.mk.inj h
    exact .refl w₁
  | none => exact hcommit w₁ e w' h

/-- An owner refuses a member before it is asked to add it, or it gets it. -/
theorem createIn_fails (client : Client σ) (family : Family) (owner : Ref)
    (creation : Creation) : (client.createIn family owner creation).FailsWithin client.Fills := by
  intro w e w' h
  rcases hmember : (client.member? owner creation.name).exec w with ⟨e' | found, w₁⟩
  · rw [createIn, exec_bind_of_error hmember] at h
    obtain ⟨-, rfl⟩ := Prod.mk.inj h
    exact (client.member?_fills owner creation.name).of_eq hmember
  · exact ((client.member?_fills owner creation.name).of_eq hmember).trans
      (createIn_fails_after hmember h)

theorem create_fails (client : Client σ) (owner : Ref) (creation : Creation) :
    (client.create owner creation).FailsWithin client.Fills := by
  refine FailsWithin.bind Fills.trans (client.demand_fills _) fun _ w e w' h => ?_
  rw [exec_bind_of_ok (exec_get w)] at h
  cases hfamily : Family.ofOwner? (w.resource owner).kind with
  | some family =>
    simp only [hfamily] at h
    exact client.createIn_fails family owner creation w e w' h
  | none =>
    simp only [hfamily, exec_throw, Prod.mk.injEq] at h
    exact h.2 ▸ .refl w

theorem destroy_fails (client : Client σ) (r : Ref) (force : Value) :
    (client.destroy r force).FailsWithin client.Fills := by
  intro w e w' h
  rw [destroy, exec_bind_of_ok (exec_get w)] at h
  revert h
  refine FailsWithin.bind Fills.trans (client.follow_fills _ _ _ _) (fun payload => ?_) w e w'
  exact Succeeds.failsWithin fun w => ⟨_, _, rfl⟩

theorem user_fails (client : Client σ) (connection : Ref) :
    (client.user connection).FailsWithin client.Fills := by
  intro w e w' h
  rw [user, exec_bind_of_ok (exec_get w)] at h
  cases huser : (w.resource connection).attributes.user? with
  | some r => simp [huser] at h
  | none =>
    simp only [huser] at h
    revert h
    refine FailsWithin.bind Fills.trans (client.fetchOne_fills _ _ _ _) (fun _ => ?_) w e w'
    exact Succeeds.failsWithin fun w => ⟨_, _, rfl⟩

theorem refresh_fails (client : Client σ) (r : Ref) :
    (client.refresh r).FailsWithin client.Fills := by
  intro w e w' h
  rw [refresh, exec_bind_of_ok (exec_get w)] at h
  cases hsource : source? r (w.resource r) with
  | some source =>
    obtain ⟨asked, relation, kind⟩ := source
    simp only [hsource] at h
    revert h
    refine FailsWithin.bind Fills.trans (client.fetchOne_fills _ _ _ _) (fun _ => ?_) w e w'
    exact Succeeds.failsWithin fun w => ⟨_, _, rfl⟩
  | none =>
    simp only [hsource] at h
    cases h

theorem rename_fails (client : Client σ) (domain : Ref) (id : Value) :
    (client.rename domain id).FailsWithin client.Fills := by
  refine FailsWithin.bind Fills.trans (client.demand_fills _) fun _ => ?_
  refine FailsWithin.bind Fills.trans (client.fetchOne_fills _ _ _ _) fun _ => ?_
  exact Succeeds.failsWithin fun w => ⟨_, _, rfl⟩

theorem post_fails (client : Client σ) (application : Ref) (event : Event) :
    (client.post application event).FailsWithin client.Fills := by
  refine FailsWithin.bind Fills.trans (client.demand_fills _) fun _ => ?_
  refine FailsWithin.bind Fills.trans (client.follow_fills _ _ _ _) fun _ => ?_
  exact Succeeds.failsWithin fun w => ⟨_, _, rfl⟩

theorem updateKey_fails (client : Client σ) (key : Ref) (type publicKey : Value) :
    (client.updateKey key type publicKey).FailsWithin client.Fills := by
  refine FailsWithin.bind Fills.trans (client.demand_fills _) fun _ => ?_
  refine FailsWithin.bind Fills.trans (client.fetchOne_fills _ _ _ _) fun _ => ?_
  exact Succeeds.failsWithin fun w => ⟨_, _, rfl⟩

theorem setPublicKey_fails (client : Client σ) (key : Ref) (publicKey : Value) :
    (client.setPublicKey key publicKey).FailsWithin client.Fills := by
  intro w e w' h
  rw [setPublicKey, exec_bind_of_ok (exec_get w)] at h
  exact client.updateKey_fails key _ publicKey w e w' h

/-- Whatever the operation and the answers of the server, one that fails has only filled places
that had not been fetched. -/
theorem perform_fails (client : Client σ) (op : Op) :
    (client.perform op).FailsWithin client.Fills := by
  cases op with
  | links r => exact ((client.links_fills r).map _).failsWithin
  | link r relation => exact ((client.entry_fills r relation).map _).failsWithin
  | hasLink r relation => exact ((client.hasLink_fills r relation).map _).failsWithin
  | members owner => exact ((client.members_fills owner).map _).failsWithin
  | member owner name => exact ((client.member?_fills owner name).map _).failsWithin
  | hasMember owner name => exact ((client.member?_fills owner name).map _).failsWithin
  | create owner creation => exact (client.create_fails owner creation).map _
  | destroy r force => exact (client.destroy_fails r force).map _
  | refresh r => exact (client.refresh_fails r).map _
  | user connection => exact (client.user_fails connection).map _
  | availableCartridges connection =>
    exact ((client.availableCartridges_fills connection).map _).failsWithin
  | rename domain id => exact (client.rename_fails domain id).map _
  | applicationsOf domain cartridge =>
    exact ((client.applicationsOf_fills domain cartridge).map _).failsWithin
  | hasApplicationsOf domain cartridge =>
    exact ((client.applicationsOf_fills domain cartridge).map _).failsWithin
  | cartridgeNames domain => exact ((client.creationOptions_fills domain _).map _).failsWithin
  | gearProfiles domain => exact ((client.creationOptions_fills domain _).map _).failsWithin
  | post application event => exact (client.post_fails application event).map _
  | gears application => exact ((client.gears_fills application).map _).failsWithin
  | updateKey key type publicKey => exact (client.updateKey_fails key type publicKey).map _
  | setPublicKey key publicKey => exact (client.setPublicKey_fails key publicKey).map _

/-- Whatever the state, the operation and the answers of the server: an operation that fails has
done nothing to the resources but fill places that had not been fetched, each with the whole answer
to a request of its own. -/
theorem fills_of_step_error {client : Client σ} {op : Op} {w w' : World σ} {e : Raised}
    (h : client.step op w = (.error e, w')) : client.Fills w w' :=
  client.perform_fails op w e w' h

/-- What a server answers that always lists the one domain "a". -/
def unchangingReply (call : Call) : Body :=
  match call.method, call.url with
  | .delete, _ => .absent
  | _, "b/broker/rest/api" =>
    .text "\x7b\"type\":\"links\",\"data\":\x7b\"LIST_DOMAINS\":\x7b\"href\":\"domains\"\x7d\x7d\x7d"
  | _, _ =>
    .text ("\x7b\"type\":\"domains\",\"data\":[\x7b\"id\":\"a\",\"suffix\":\"s\"," ++
      "\"links\":\x7b\"DELETE\":\x7b\"href\":\"a\",\"method\":\"DELETE\"\x7d\x7d\x7d]\x7d")

/-- A client of that server. -/
def unchanging : Client Unit where
  service := ⟨"b", "c", 990⟩
  transport := ⟨fun call s => (.ok (unchangingReply call), s)⟩

theorem step_of_isError {client : Client σ} {op : Op} {w : World σ}
    (h : (client.step op w).1.isOk = false) :
    ∃ e, client.step op w = (.error e, (client.step op w).2) := by
  rcases hstep : client.step op w with ⟨e | answer, w'⟩
  · exact ⟨e, rfl⟩
  · rw [hstep] at h
    cases h

/-- An answer that something was done. -/
def isDone : Except Raised Answer → Bool
  | .ok .done => true
  | _ => false

theorem step_of_isDone {client : Client σ} {op : Op} {w : World σ}
    (h : isDone (client.step op w).1 = true) :
    client.step op w = (.ok .done, (client.step op w).2) := by
  refine Prod.ext ?_ rfl
  unfold isDone at h
  split at h
  · assumption
  · cases h

/-- The domain "a" cannot be created, and the domains are listed to find that out. -/
theorem fills_unchanging :
    ∃ e w', unchanging.step (.create 0 (.domain (.str "a"))) (.start ()) = (.error e, w') ∧
      unchanging.Fills (.start ()) w' ∧ (w'.resource 0).members.cell.items? = some [1] := by
  have hrun : (unchanging.step (.create 0 (.domain (.str "a"))) (.start ())).1.isOk = false ∧
      ((unchanging.step (.create 0 (.domain (.str "a"))) (.start ())).2.resource
        0).members.cell.items? = some [1] := by
    decide +kernel
  obtain ⟨e, hstep⟩ := step_of_isError hrun.1
  exact ⟨e, _, hstep, fills_of_step_error hstep, hrun.2⟩

end BrokerClient.Hierarchy.Client

import BrokerClient.Proofs.Hierarchy.Change
import BrokerClient.Proofs.Service.Handover

/-!
# Faults of single operations

Every fault below a request becomes an error of the client, so an operation can only end in a
fault that is raised above: for an argument that does not fit or cannot be written, or for a
relation under which the catalog holds a plain value in the place of a link. Here is, for each
operation on arguments that can be written, exactly when that happens.
-/
namespace BrokerClient

/-- All values of parameters can be written. -/
def Parameters.Writable (parameters : Parameters) : Prop :=
  ∀ pair ∈ parameters, pair.2.isWritable = true

theorem Parameters.writable_nil : Parameters.Writable [] := nofun

/-- Where all values can be written, a request is refused by an error of the client. -/
theorem Service.Refuses.ne_fault {service : Service} {link : Link} {parameters : Parameters}
    {r : Raised} (h : service.Refuses link parameters r) (hwritable : parameters.Writable)
    (fault : Fault) : r ≠ .fault fault := by
  rintro rfl
  obtain ⟨e, he, -⟩ | ⟨-, hcheck⟩ := h.cases_isRefusal
  · cases he
  · obtain ⟨_, _, _, -, -, hoffends⟩ := Request.check_eq_error_iff.mp hcheck
    obtain ⟨e, he⟩ := hoffends.exists_client fun v hv => hwritable _ (Mapping.mem_of_find? hv)
    cases he

end BrokerClient

namespace BrokerClient.Hierarchy

open Hierarchy.Action

variable {σ α β : Type}

/-! ## Actions without faults -/

namespace Action

/-- A run of an action ends in a fault. -/
def Faults (x : Action σ α) (w : World σ) (fault : Fault) : Prop :=
  (x.exec w).1 = .error (.fault fault)

/-- No run of an action ends in a fault. -/
def Safe (x : Action σ α) : Prop := ∀ w fault, ¬ x.Faults w fault

variable {x : Action σ α} {f : α → Action σ β} {w : World σ} {fault : Fault}

theorem faults_iff_exists : x.Faults w fault ↔ ∃ w', x.exec w = (.error (.fault fault), w') :=
  ⟨fun h => ⟨_, Prod.ext h rfl⟩, fun ⟨_, h⟩ => congrArg Prod.fst h⟩

theorem faults_bind :
    Faults (x >>= f) w fault ↔
      x.Faults w fault ∨ ∃ a w₁, x.exec w = (.ok a, w₁) ∧ (f a).Faults w₁ fault := by
  unfold Faults
  rcases h : x.exec w with ⟨e | a, w₁⟩
  · simp [exec_bind_of_error h]
  · simp only [exec_bind_of_ok h, reduceCtorEq, false_or, Prod.mk.injEq, Except.ok.injEq]
    constructor
    · exact fun hf => ⟨a, w₁, ⟨rfl, rfl⟩, hf⟩
    · rintro ⟨_, _, ⟨rfl, rfl⟩, hf⟩
      exact hf

/-- Only the first of two actions can end in a fault. -/
theorem faults_bind_of_safe (hf : ∀ a, (f a).Safe) :
    Faults (x >>= f) w fault ↔ x.Faults w fault := by
  rw [faults_bind]
  exact ⟨fun h => h.resolve_right fun ⟨a, w₁, _, ha⟩ => hf a w₁ fault ha, .inl⟩

theorem faults_get_bind {f : World σ → Action σ β} :
    Faults (get >>= f) w fault ↔ (f w).Faults w fault := by
  rw [Faults, exec_bind_of_ok (exec_get w), Faults]

theorem faults_map (g : α → β) : Faults (g <$> x) w fault ↔ x.Faults w fault := by
  rw [Faults, exec_map, Faults]
  cases (x.exec w).1 <;> simp [Except.map]

theorem Succeeds.safe (hx : x.Succeeds) : x.Safe := by
  intro w fault h
  obtain ⟨a, w', ha⟩ := hx w
  rw [Faults, ha] at h
  cases h

theorem Safe.bind (hx : x.Safe) (hf : ∀ a, (f a).Safe) : Safe (x >>= f) := fun w fault h =>
  hx w fault ((faults_bind_of_safe hf).mp h)

end Action

namespace Client

variable {client : Client σ} {w w' : World σ} {fault : Fault}

theorem send_safe (client : Client σ) (link : Link) {parameters : Parameters}
    (hwritable : parameters.Writable) (deleteWithBody : Bool) :
    (client.send link parameters deleteWithBody).Safe := by
  intro w fault h
  obtain ⟨w', hsend⟩ := faults_iff_exists.mp h
  obtain ⟨y, hrequest, -⟩ := send_eq_error.mp hsend
  obtain ⟨url, call, hsends⟩ | ⟨r, z, hr, hrefuses, -⟩ := client.service.request_cases
    client.transport link parameters deleteWithBody w.exchange
  · rw [Service.request_of_sends hsends] at hrequest
    obtain ⟨e, -, he⟩ := Except.mapError_eq_error.mp (congrArg Prod.fst hrequest)
    cases he
  · rw [hr] at hrequest
    exact hrefuses.ne_fault hwritable fault (Except.error.inj (congrArg Prod.fst hrequest))

theorem refuse_safe (client : Client σ) (link : Link) (reason : EndpointReason) :
    (client.refuse link reason : Action σ α).Safe := by
  intro w fault h
  obtain ⟨e, he⟩ := client.exec_refuse (α := α) link reason w
  rw [Faults, he] at h
  cases h

theorem fetchRoot_safe (client : Client σ) : client.fetchRoot.Safe := by
  refine (client.send_safe _ Parameters.writable_nil _).bind fun payload => ?_
  cases rootCatalog? payload with
  | none => exact client.refuse_safe _ _
  | some catalog => exact Succeeds.safe fun w => ⟨_, _, rfl⟩

theorem links_safe (client : Client σ) (r : Ref) : (client.links r).Safe := by
  intro w fault h
  rcases hlinks : (client.links r).exec w with ⟨e | catalog, w'⟩ <;> rw [Faults, hlinks] at h
  · obtain ⟨-, ⟨-, hroot⟩ | ⟨-, -, rfl⟩⟩ := links_eq_error.mp hlinks
    · exact client.fetchRoot_safe w fault (by rw [Faults, hroot]; exact h)
    · cases h
  · cases h

/-! ## Plain values in the place of links -/

/-- A resource has a plain value that is not null under a relation: its catalog holds one, or the
catalog that the root would answer with now. -/
def Tainted (client : Client σ) (w : World σ) (r : Ref) (relation : String) (v : Value) : Prop :=
  v ≠ .null ∧ ∃ catalog, ((client.links r).exec w).1 = .ok catalog ∧
    catalog.find? relation = some (.plain v)

/-- The fault of following a plain value as if it was a link. -/
def plainFault (v : Value) : Fault := .noAttribute v.kindName "required_params"

theorem link_faults_iff {r : Ref} {relation : String} :
    (client.link r relation).Faults w fault ↔
      ∃ v, client.Tainted w r relation v ∧ fault = plainFault v := by
  constructor
  · intro h
    obtain ⟨w', hlink⟩ := faults_iff_exists.mp h
    obtain hlinks | ⟨catalog, hlinks, ⟨-, he⟩ | ⟨v, hfind, hv, he⟩⟩ := link_eq_error.mp hlink
    · exact absurd (by rw [Faults, hlinks]) (client.links_safe r w fault)
    · cases he
    · exact ⟨v, ⟨hv, catalog, by rw [hlinks], hfind⟩, (Raised.fault.inj he)⟩
  · rintro ⟨v, ⟨hv, catalog, hlinks, hfind⟩, rfl⟩
    have hlink := link_eq_error.mpr (.inr ⟨catalog, Prod.ext hlinks rfl, .inr ⟨v, hfind, hv, rfl⟩⟩)
    rw [Faults, hlink, plainFault]

theorem follow_faults_iff {r : Ref} {relation : String} {parameters : Parameters}
    (hwritable : parameters.Writable) {deleteWithBody : Bool} :
    (client.follow r relation parameters deleteWithBody).Faults w fault ↔
      ∃ v, client.Tainted w r relation v ∧ fault = plainFault v := by
  rw [follow, faults_bind_of_safe fun _ => client.send_safe _ hwritable _, link_faults_iff]

theorem expect_faults_iff {r : Ref} {relation : String} {parameters : Parameters}
    (hwritable : parameters.Writable) {view : Payload → Option α}
    {reason : Payload → EndpointReason} :
    (client.expect r relation parameters view reason).Faults w fault ↔
      ∃ v, client.Tainted w r relation v ∧ fault = plainFault v := by
  rw [expect, faults_bind_of_safe, link_faults_iff]
  refine fun link => (client.send_safe _ hwritable _).bind fun payload => ?_
  cases view payload with
  | none => exact client.refuse_safe _ _
  | some a => exact Succeeds.safe fun w => ⟨_, _, rfl⟩

/-! ## The same catalog in another state -/

theorem fetchRoot_outcome_congr (client : Client σ)
    (hserver : w'.exchange.server = w.exchange.server) :
    (client.fetchRoot.exec w').1 = (client.fetchRoot.exec w).1 := by
  have hsend : ((client.send rootLink [] false).exec w').1 =
      ((client.send rootLink [] false).exec w).1 := by
    simp only [exec_send]
    rw [client.service.request_outcome_congr rootLink [] false hserver]
  rw [fetchRoot]
  rcases h : (client.send rootLink [] false).exec w with ⟨e | payload, w₁⟩ <;>
    rcases h' : (client.send rootLink [] false).exec w' with ⟨e' | payload', w₁'⟩ <;>
    rw [h, h'] at hsend <;> cases hsend
  · rw [exec_bind_of_error h, exec_bind_of_error h']
  · rw [exec_bind_of_ok h, exec_bind_of_ok h']
    cases rootCatalog? payload with
    | some catalog => rfl
    | none =>
      simp only [refuse]
      split <;> rfl

/-- The catalog of a resource depends on the resource and on the server alone. -/
theorem links_outcome_congr {r : Ref} (hserver : w'.exchange.server = w.exchange.server)
    (hcatalog : (w'.resource r).catalog = (w.resource r).catalog)
    (hkind : (w'.resource r).kind = (w.resource r).kind) :
    ((client.links r).exec w').1 = ((client.links r).exec w).1 := by
  cases hc : (w.resource r).catalog with
  | some catalog => rw [links_of_some hc, links_of_some (hcatalog.trans hc)]
  | none =>
    have hc' := hcatalog.trans hc
    by_cases hroot : (w.resource r).kind = .connection
    · have hfetch := client.fetchRoot_outcome_congr hserver
      rw [links_of_root hc hroot, links_of_root hc' (hkind.trans hroot)]
      rcases h : client.fetchRoot.exec w with ⟨e | catalog, w₁⟩ <;>
        rcases h' : client.fetchRoot.exec w' with ⟨e' | catalog', w₁'⟩ <;>
        rw [h, h'] at hfetch <;> cases hfetch
      · rw [exec_bind_of_error h, exec_bind_of_error h']
      · rw [exec_bind_of_ok h, exec_bind_of_ok h']
        rfl
    · rw [links_of_none hc hroot, links_of_none hc' (by rwa [hkind]), hkind]

theorem tainted_congr {r : Ref} {relation : String} {v : Value}
    (hserver : w'.exchange.server = w.exchange.server)
    (hcatalog : (w'.resource r).catalog = (w.resource r).catalog)
    (hkind : (w'.resource r).kind = (w.resource r).kind) :
    client.Tainted w' r relation v ↔ client.Tainted w r relation v := by
  rw [Tainted, links_outcome_congr hserver hcatalog hkind, Tainted]

/-! ## Members -/

/-- The members of an owner are to be fetched. -/
def Unlisted (w : World σ) (owner : Ref) (family : Family) : Prop :=
  Family.ofOwner? (w.resource owner).kind = some family ∧
    (w.resource owner).members.cell.items? = none

theorem fetchMembers_faults_iff {family : Family} {owner : Ref} :
    (client.fetchMembers family owner).Faults w fault ↔
      ∃ v, client.Tainted w owner family.listRelation v ∧ fault = plainFault v := by
  rw [fetchMembers, faults_bind_of_safe, fetchList_eq, expect_faults_iff Parameters.writable_nil]
  exact fun _ => Succeeds.safe fun w => ⟨_, _, rfl⟩

/-- The mark of loading members does not matter to what is fetched. -/
theorem members_faults_iff {owner : Ref} :
    (client.members owner).Faults w fault ↔
      ∃ family, Unlisted w owner family ∧
        ∃ v, client.Tainted w owner family.listRelation v ∧ fault = plainFault v := by
  cases hfamily : Family.ofOwner? (w.resource owner).kind with
  | none =>
    rw [Faults, members_of_not_owner hfamily]
    simp [Unlisted, hfamily]
  | some family =>
    have hloading (v : Value) : client.Tainted ((World.members owner).loading w) owner
        family.listRelation v ↔ client.Tainted w owner family.listRelation v := by
      have hkeep := World.resource_alter_congr Resource.core
        (Resource.core_withMembers .loading) w owner owner
      exact tainted_congr rfl (congrArg (·.2.2.2) hkeep) (congrArg (·.2.1.kind) hkeep)
    rw [faults_iff_exists]
    constructor
    · rintro ⟨w', h⟩
      obtain ⟨hnone, w₁, hfetch, -⟩ := (members_eq_error hfamily).mp h
      obtain ⟨v, hv, hfault⟩ := fetchMembers_faults_iff.mp (faults_iff_exists.mpr ⟨w₁, hfetch⟩)
      exact ⟨family, ⟨hfamily, hnone⟩, v, (hloading v).mp hv, hfault⟩
    · rintro ⟨family', ⟨hfamily', hnone⟩, v, hv, hfault⟩
      obtain rfl := Option.some.inj (hfamily.symm.trans hfamily')
      have hfaults := fetchMembers_faults_iff.mpr ⟨v, (hloading v).mpr hv, hfault⟩
      obtain ⟨w₁, hfetch⟩ := faults_iff_exists.mp hfaults
      exact ⟨_, (members_eq_error hfamily).mpr ⟨hnone, w₁, hfetch, rfl⟩⟩

theorem member?_faults_iff {owner : Ref} {name : Value} :
    (client.member? owner name).Faults w fault ↔
      ∃ family, Unlisted w owner family ∧
        ∃ v, client.Tainted w owner family.listRelation v ∧ fault = plainFault v := by
  rw [member?, faults_bind_of_safe, members_faults_iff]
  exact fun _ => Succeeds.safe fun w => ⟨_, _, rfl⟩

/-! ## Operations -/

theorem faults_demand_bind {lacks : Option Argument} {f : Unit → Action σ α} :
    Faults (demand lacks >>= f) w fault ↔ lacks = none ∧ (f ()).Faults w fault := by
  cases lacks with
  | some argument =>
    have hdemand : (demand (some argument) : Action σ Unit).exec w =
        (.error (.client (.invalidRequest (.notGiven argument))), w) := rfl
    rw [Faults, exec_bind_of_error hdemand]
    simp
  | none =>
    have hdemand : (demand none : Action σ Unit).exec w = (.ok (), w) := rfl
    rw [Faults, exec_bind_of_ok hdemand, Faults]
    simp

theorem entry_safe_of_isKey {r : Ref} {relation : Value} (h : relation.isKey = true)
    (hwritable : relation.isWritable = true) : ¬ (client.entry r relation).Faults w fault := by
  intro hfaults
  obtain ⟨w', hentry⟩ := faults_iff_exists.mp hfaults
  obtain hlinks | ⟨catalog, -, hdemand⟩ := entry_eq_error.mp hentry
  · exact client.links_safe r w fault (faults_iff_exists.mpr ⟨w', hlinks⟩)
  · exact Catalog.demand_ne_fault h hwritable catalog _ fault hdemand

theorem hasLink_safe_of_isKey {r : Ref} {relation : Value} (h : relation.isKey = true) :
    ¬ (client.hasLink r relation).Faults w fault := by
  rw [hasLink, faults_bind_of_safe]
  · exact client.links_safe r w fault
  · intro catalog
    simp only [Catalog.entry?, h, if_true]
    exact Succeeds.safe fun w => ⟨_, _, rfl⟩

theorem createIn_faults_iff {family : Family} {owner : Ref} {creation : Creation}
    {parameters : Parameters} (hparameters : creation.parameters = .ok parameters)
    (hwritable : parameters.Writable) :
    (client.createIn family owner creation).Faults w fault ↔
      (client.member? owner creation.name).Faults w fault ∨
        ∃ w₁, (client.member? owner creation.name).exec w = (.ok none, w₁) ∧
          ∃ v, client.Tainted w₁ owner family.addRelation v ∧ fault = plainFault v := by
  have hcommit {f : Representation → Action σ Ref} (hf : ∀ representation, (f representation).Safe)
      (w₁ : World σ) : Faults (do
        let parameters ← parametersOf creation
        let representation ← client.fetchOne owner family.addRelation family.recordKind parameters
        f representation) w₁ fault ↔
          ∃ v, client.Tainted w₁ owner family.addRelation v ∧ fault = plainFault v := by
    have hparametersOf : (parametersOf creation : Action σ Parameters).exec w₁ =
        (.ok parameters, w₁) := parametersOf_eq_ok.mpr ⟨hparameters, rfl⟩
    rw [Faults, exec_bind_of_ok hparametersOf]
    exact (faults_bind_of_safe hf).trans (by rw [fetchOne_eq, expect_faults_iff hwritable])
  rw [createIn, faults_bind]
  refine or_congr_right ?_
  constructor
  · rintro ⟨found, w₁, hmember, h⟩
    cases found with
    | some r => cases h
    | none =>
      refine ⟨w₁, hmember, (hcommit (fun _ => ?_) w₁).mp h⟩
      exact Succeeds.safe fun w => ⟨_, _, rfl⟩
  · rintro ⟨w₁, hmember, h⟩
    refine ⟨none, w₁, hmember, (hcommit (fun _ => ?_) w₁).mpr h⟩
    exact Succeeds.safe fun w => ⟨_, _, rfl⟩

theorem create_faults_iff {owner : Ref} {creation : Creation} :
    (client.create owner creation).Faults w fault ↔
      creation.lacks? = none ∧ ∃ family, Family.ofOwner? (w.resource owner).kind = some family ∧
        (client.createIn family owner creation).Faults w fault := by
  rw [create, faults_demand_bind, faults_get_bind]
  refine and_congr_right fun _ => ?_
  cases hfamily : Family.ofOwner? (w.resource owner).kind with
  | none => simp [hfamily, Faults]
  | some family => simp [hfamily]

theorem writable_destruction {force : Value} (hforce : force.isWritable = true)
    (attributes : Attributes) : (destruction force attributes).1.Writable := by
  cases attributes with
  | domain => simpa [destruction, Parameters.Writable] using hforce
  | _ => exact Parameters.writable_nil

theorem destroy_faults_iff {r : Ref} {force : Value} (hforce : force.isWritable = true) :
    (client.destroy r force).Faults w fault ↔
      ∃ v, client.Tainted w r Relation.delete v ∧ fault = plainFault v := by
  rw [destroy, faults_get_bind, faults_bind_of_safe,
    follow_faults_iff (writable_destruction hforce _)]
  exact fun _ => Succeeds.safe fun w => ⟨_, _, rfl⟩

theorem user_faults_iff {connection : Ref} :
    (client.user connection).Faults w fault ↔
      (w.resource connection).attributes.user? = none ∧
        ∃ v, client.Tainted w connection Relation.getUser v ∧ fault = plainFault v := by
  rw [user, faults_get_bind]
  cases (w.resource connection).attributes.user? with
  | some r => simp [Faults]
  | none =>
    simp only [true_and]
    rw [faults_bind_of_safe, fetchOne_eq, expect_faults_iff Parameters.writable_nil]
    exact fun _ => Succeeds.safe fun w => ⟨_, _, rfl⟩

theorem refresh_faults_iff {r : Ref} :
    (client.refresh r).Faults w fault ↔
      ∃ asked relation kind, source? r (w.resource r) = some (asked, relation, kind) ∧
        ∃ v, client.Tainted w asked relation v ∧ fault = plainFault v := by
  rw [refresh, faults_get_bind]
  cases hsource : source? r (w.resource r) with
  | none =>
    simp only [reduceCtorEq, false_and, exists_false, iff_false]
    exact fun h => by cases h
  | some source =>
    obtain ⟨asked, relation, kind⟩ := source
    simp only [Option.some.injEq, Prod.mk.injEq]
    rw [faults_bind_of_safe, fetchOne_eq, expect_faults_iff Parameters.writable_nil]
    · constructor
      · exact fun h => ⟨asked, relation, kind, ⟨rfl, rfl, rfl⟩, h⟩
      · rintro ⟨_, _, _, ⟨rfl, rfl, rfl⟩, h⟩
        exact h
    · exact fun _ => Succeeds.safe fun w => ⟨_, _, rfl⟩

theorem rename_faults_iff {domain : Ref} {id : Value} (hid : id.isWritable = true) :
    (client.rename domain id).Faults w fault ↔
      isLacking id = false ∧
        ∃ v, client.Tainted w domain Relation.update v ∧ fault = plainFault v := by
  rw [rename, faults_demand_bind, faults_bind_of_safe, fetchOne_eq, expect_faults_iff]
  · simp
  · simpa [Parameters.Writable] using hid
  · exact fun _ => Succeeds.safe fun w => ⟨_, _, rfl⟩

theorem applicationsOf_faults_iff {domain : Ref} {cartridge : Value} :
    (client.applicationsOf domain cartridge).Faults w fault ↔
      ∃ family, Unlisted w domain family ∧
        ∃ v, client.Tainted w domain family.listRelation v ∧ fault = plainFault v := by
  rw [applicationsOf, faults_bind_of_safe, members_faults_iff]
  exact fun _ => Succeeds.safe fun w => ⟨_, _, rfl⟩

theorem creationOptions_faults_iff {domain : Ref} {parameter : String} :
    (client.creationOptions domain parameter).Faults w fault ↔
      ∃ v, client.Tainted w domain Relation.addApplication v ∧ fault = plainFault v := by
  rw [creationOptions, faults_bind_of_safe, link_faults_iff]
  exact fun _ => Succeeds.safe fun w => ⟨_, _, rfl⟩

theorem post_faults_iff {application : Ref} {event : Event} (hevent : event.parameters.Writable) :
    (client.post application event).Faults w fault ↔
      event.lacks? = none ∧
        ∃ v, client.Tainted w application event.relation v ∧ fault = plainFault v := by
  rw [post, faults_demand_bind, faults_bind_of_safe, follow_faults_iff hevent]
  exact fun _ => Succeeds.safe fun w => ⟨_, _, rfl⟩

theorem updateKey_faults_iff {key : Ref} {type publicKey : Value}
    (htype : type.isWritable = true) (hkey : publicKey.isWritable = true) :
    (client.updateKey key type publicKey).Faults w fault ↔
      isLacking publicKey = false ∧
        ∃ v, client.Tainted w key Relation.update v ∧ fault = plainFault v := by
  rw [updateKey, faults_demand_bind, faults_bind_of_safe, fetchOne_eq, expect_faults_iff]
  · simp
  · simpa [Parameters.Writable] using ⟨htype, hkey⟩
  · exact fun _ => Succeeds.safe fun w => ⟨_, _, rfl⟩

theorem gears_faults_iff {application : Ref} :
    (client.gears application).Faults w fault ↔
      (w.resource application).gears.cell.items? = none ∧
        ∃ v, client.Tainted w application Relation.getGears v ∧ fault = plainFault v := by
  have hloading (v : Value) : client.Tainted ((World.gears application).loading w) application
      Relation.getGears v ↔ client.Tainted w application Relation.getGears v := by
    have hkeep := World.resource_alter_congr Resource.core
      (Resource.core_withGears .loading) w application application
    exact tainted_congr rfl (congrArg (·.2.2.2) hkeep) (congrArg (·.2.1.kind) hkeep)
  rw [faults_iff_exists]
  constructor
  · rintro ⟨w', h⟩
    obtain ⟨hnone, w₁, hfetch, -⟩ := Lazy.load_eq_error.mp h
    have hfaults : (client.fetchGears application).Faults
        ((World.gears application).loading w) fault := faults_iff_exists.mpr ⟨w₁, hfetch⟩
    rw [fetchGears_eq, expect_faults_iff Parameters.writable_nil] at hfaults
    obtain ⟨v, hv, hfault⟩ := hfaults
    exact ⟨hnone, v, (hloading v).mp hv, hfault⟩
  · rintro ⟨hnone, v, hv, hfault⟩
    have hfaults : (client.fetchGears application).Faults
        ((World.gears application).loading w) fault := by
      rw [fetchGears_eq, expect_faults_iff Parameters.writable_nil]
      exact ⟨v, (hloading v).mpr hv, hfault⟩
    obtain ⟨w₁, hfetch⟩ := faults_iff_exists.mp hfaults
    exact ⟨_, Lazy.load_eq_error.mpr ⟨hnone, w₁, hfetch, rfl⟩⟩

end Client

end BrokerClient.Hierarchy

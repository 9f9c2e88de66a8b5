import BrokerClient.Proofs.Hierarchy.Asking

/-!
# Whose members are loaded

An operation loads the members of the owner that it is about, or those of none. So a resource that
an operation makes has no members yet, and the members of every other owner are loaded after it
only if they were before.
-/
namespace BrokerClient.Hierarchy

open Hierarchy.Action

variable {σ : Type} {client : Client σ} {P : Ref → Prop}

/-- Members that are loaded in the second state were loaded in the first one, or the owner is one
that a property holds of. -/
def World.LoadsOnly (P : Ref → Prop) (w w' : World σ) : Prop :=
  ∀ r, (w'.resource r).members.cell.isLoaded = true →
    (w.resource r).members.cell.isLoaded = true ∨ P r

namespace World.LoadsOnly

variable {w w₁ w₂ : World σ} {r : Ref}

theorem trans (h : LoadsOnly P w w₁) (h' : LoadsOnly P w₁ w₂) : LoadsOnly P w w₂ :=
  fun r hr => (h' r hr).elim (h r) .inr

theorem of_members (h : ∀ r, (w₁.resource r).members.cell = (w.resource r).members.cell) :
    LoadsOnly P w w₁ := by
  intro r hr
  rw [h] at hr
  exact .inl hr

theorem of_store (h : w₁.store = w.store) : LoadsOnly P w w₁ :=
  of_members fun r => by rw [resource, h, resource]

theorem refl (w : World σ) : LoadsOnly P w w := of_store rfl

/-- A change of something else leaves members as they are. -/
theorem alter {f : Resource → Resource} (h : ∀ x, (f x).members = x.members) (w : World σ)
    (r : Ref) : LoadsOnly P w (w.alter r f) := by
  refine of_members fun r' => ?_
  have hsame := resource_alter_congr (·.members) h w r r'
  exact congrArg (·.cell) hsame

/-- The members of an owner may be filled in if the property holds of it. -/
theorem fill (hr : P r) (cell : Lazy.Cell Ref) (w : World σ) :
    LoadsOnly P w ((World.members r).fill cell w) := by
  intro r' h
  by_cases he : r = r'
  · exact .inr (he ▸ hr)
  · rw [fill_members, resource_alter_of_ne he] at h
    exact .inl h

theorem accept (w : World σ) (r : Ref) (representation : Representation) :
    LoadsOnly P w (w.accept r representation) := by
  refine (of_store (store_warn w _ _)).trans (alter ?_ _ r)
  exact fun _ => rfl

theorem setCatalog (w : World σ) (r : Ref) (catalog : Catalog) :
    LoadsOnly P w (w.setCatalog r catalog) := by
  refine (of_store (store_warn w _ _)).trans (alter ?_ _ r)
  exact fun _ => rfl

theorem adopt (w : World σ) (owner : Ref) (representation : Representation) :
    LoadsOnly P w (w.adopt owner representation).2 := by
  intro r h
  rw [resource_adopt] at h
  split at h
  · cases h
  · exact .inl h

theorem adoptAll (w : World σ) (owner : Ref) (representations : List Representation) :
    LoadsOnly P w (w.adoptAll owner representations).2 := by
  induction representations generalizing w with
  | nil => exact refl w
  | cons representation rest ih =>
    rw [adoptAll_cons]
    exact (adopt w owner representation).trans (ih _)

theorem forget (w : World σ) (r : Ref) : LoadsOnly P w (w.forget r) := by
  intro r' h
  rw [resource_forget] at h
  split at h
  · cases h
  · exact .inl h

theorem strike (w : World σ) (r : Ref) : LoadsOnly P w (w.strike r) := by
  intro r' h
  rw [resource_strike] at h
  split at h
  · rw [Resource.withMembers, Lazy.Cell.isLoaded, Lazy.Cell.remove, Lazy.Cell.items?_edit,
      Option.isSome_map] at h
    exact .inl h
  · exact .inl h

theorem enroll (hr : P r) (w : World σ) (family : Family) (representation : Representation) :
    LoadsOnly P w (w.enroll family r representation) :=
  (adopt w r representation).trans (fill hr _ _)

theorem welcome (w : World σ) (connection : Ref) (representation : Representation) :
    LoadsOnly P w (w.welcome connection representation) := by
  refine (adopt w connection representation).trans (alter ?_ _ connection)
  exact fun _ => rfl

end World.LoadsOnly

open World (LoadsOnly)

namespace Client

/-! ## Following links -/

theorem send_loads (client : Client σ) (link : Link) (parameters : Parameters)
    (deleteWithBody : Bool) :
    (client.send link parameters deleteWithBody).Within (LoadsOnly P) := by
  intro w
  rw [exec_send]
  exact .of_store rfl

theorem fetchRoot_loads (client : Client σ) : client.fetchRoot.Within (LoadsOnly P) := by
  refine Within.bind LoadsOnly.trans (client.send_loads _ _ _) fun payload => ?_
  cases rootCatalog? payload with
  | none =>
    intro w
    obtain ⟨e, he⟩ := client.exec_refuse (α := Catalog) rootLink .noRootLinks w
    rw [he]
    exact .refl w
  | some catalog => exact fun w => .of_store rfl

theorem links_loads (client : Client σ) (r : Ref) :
    (client.links r).Within (LoadsOnly P) := by
  intro w
  rcases h : (client.links r).exec w with ⟨e | catalog, w'⟩
  · obtain ⟨-, ⟨-, hroot⟩ | ⟨-, rfl, -⟩⟩ := links_eq_error.mp h
    · exact client.fetchRoot_loads.of_eq hroot
    · exact .refl _
  · obtain ⟨-, rfl⟩ | ⟨-, -, w₁, hroot, rfl⟩ := links_eq_ok.mp h
    · exact .refl _
    · exact (client.fetchRoot_loads.of_eq hroot).trans (.setCatalog w₁ r catalog)

/-- No members are loaded on the way to an answer. -/
theorem loads_spans (client : Client σ) : client.Spans (LoadsOnly P) :=
  ⟨.refl, .trans, client.send_loads, client.links_loads⟩

/-! ## Operations -/

theorem fetchMembers_loads (client : Client σ) (family : Family) (owner : Ref) :
    (client.fetchMembers family owner).Within (LoadsOnly P) :=
  Within.bind LoadsOnly.trans (client.loads_spans.fetchList _ _ _) fun _ w => .adoptAll w owner _

theorem members_loads (client : Client σ) {owner : Ref} (howner : P owner) :
    (client.members owner).Within (LoadsOnly P) := by
  intro w
  cases hfamily : Family.ofOwner? (w.resource owner).kind with
  | none =>
    rw [members_of_not_owner hfamily]
    exact .refl w
  | some family =>
    have hloading : LoadsOnly P w ((World.members owner).loading w) := .fill howner _ _
    rcases h : (client.members owner).exec w with ⟨e | refs, w'⟩
    · obtain ⟨-, w₁, hfetch, rfl⟩ := (members_eq_error hfamily).mp h
      exact hloading.trans (((client.fetchMembers_loads _ _).of_eq hfetch).trans (.fill howner _ _))
    · obtain ⟨-, rfl⟩ | ⟨-, w₁, hfetch, rfl⟩ := (members_eq_ok hfamily).mp h
      · exact .refl _
      · exact hloading.trans
          (((client.fetchMembers_loads _ _).of_eq hfetch).trans (.fill howner _ _))

theorem gears_loads (client : Client σ) (application : Ref) :
    (client.gears application).Within (LoadsOnly P) := by
  intro w
  have hfill (cell : Lazy.Cell Representation.Gear) (w : World σ) :
      LoadsOnly P w ((World.gears application).fill cell w) := by
    refine .alter ?_ w application
    exact fun _ => rfl
  have hloading : LoadsOnly P w ((World.gears application).loading w) := hfill _ _
  rcases h : (client.gears application).exec w with ⟨e | gears, w'⟩
  · obtain ⟨-, w₁, hfetch, rfl⟩ := Lazy.load_eq_error.mp h
    exact hloading.trans (((client.loads_spans.fetchGears _).of_eq hfetch).trans (hfill _ _))
  · obtain ⟨-, rfl⟩ | ⟨-, w₁, hfetch, rfl⟩ := Lazy.load_eq_ok.mp h
    · exact .refl _
    · exact hloading.trans (((client.loads_spans.fetchGears _).of_eq hfetch).trans (hfill _ _))

theorem createIn_loads (client : Client σ) (family : Family) {owner : Ref} (howner : P owner)
    (creation : Creation) : (client.createIn family owner creation).Within (LoadsOnly P) := by
  refine Within.bind LoadsOnly.trans
    (client.loads_spans.member? (client.members_loads howner) _) fun found => ?_
  split
  · exact fun w => .refl w
  · refine Within.bind LoadsOnly.trans (client.loads_spans.parametersOf _) fun parameters => ?_
    refine Within.bind LoadsOnly.trans (client.loads_spans.fetchOne _ _ _ _) fun made w => ?_
    exact .enroll howner w family made

theorem create_loads (client : Client σ) {owner : Ref} (howner : P owner) (creation : Creation) :
    (client.create owner creation).Within (LoadsOnly P) := by
  refine Within.bind LoadsOnly.trans (client.loads_spans.demand _) fun _ w => ?_
  rw [exec_bind_of_ok (exec_get w)]
  cases hfamily : Family.ofOwner? (w.resource owner).kind with
  | none =>
    simp only [hfamily]
    exact .refl w
  | some family =>
    simp only [hfamily]
    exact client.createIn_loads family howner creation w

theorem destroy_loads (client : Client σ) (r : Ref) (force : Value) :
    (client.destroy r force).Within (LoadsOnly P) := by
  refine Within.get_bind fun w₀ => ?_
  exact Within.bind LoadsOnly.trans (client.loads_spans.follow _ _ _ _) fun _ w => .strike w r

theorem refresh_loads (client : Client σ) (r : Ref) :
    (client.refresh r).Within (LoadsOnly P) := by
  refine Within.get_bind fun w₀ => ?_
  cases hsource : source? r (w₀.resource r) with
  | none =>
    intro w
    have hdiscard : LoadsOnly P w (w.alter r discard) := by
      refine .alter (fun x => ?_) w r
      unfold discard
      split <;> rfl
    exact hdiscard.trans (.forget _ r)
  | some source =>
    exact Within.bind LoadsOnly.trans (client.loads_spans.fetchOne _ _ _ _) fun representation w =>
      (LoadsOnly.accept w r representation).trans (.forget _ r)

theorem user_loads (client : Client σ) (connection : Ref) :
    (client.user connection).Within (LoadsOnly P) := by
  refine Within.get_bind fun w₀ => ?_
  cases (w₀.resource connection).attributes.user? with
  | some r => exact fun w => .refl w
  | none =>
    exact Within.bind LoadsOnly.trans (client.loads_spans.fetchOne _ _ _ _) fun representation w =>
      .welcome w connection representation

theorem rename_loads (client : Client σ) (domain : Ref) (id : Value) :
    (client.rename domain id).Within (LoadsOnly P) := by
  refine Within.bind LoadsOnly.trans (client.loads_spans.demand _) fun _ => ?_
  exact Within.bind LoadsOnly.trans (client.loads_spans.fetchOne _ _ _ _) fun representation w =>
    .accept w domain representation

theorem post_loads (client : Client σ) (application : Ref) (event : Event) :
    (client.post application event).Within (LoadsOnly P) := by
  have hsettle (payload : Payload) (w : World σ) :
      LoadsOnly P w (settle application event payload w) := by
    unfold settle
    split
    · exact .accept w application _
    · refine .alter ?_ w application
      exact fun _ => rfl
  refine Within.bind LoadsOnly.trans (client.loads_spans.demand _) fun _ => ?_
  refine Within.bind LoadsOnly.trans (client.loads_spans.follow _ _ _ _) fun payload w => ?_
  exact (LoadsOnly.of_store rfl).trans (hsettle payload _)

theorem updateKey_loads (client : Client σ) (key : Ref) (type publicKey : Value) :
    (client.updateKey key type publicKey).Within (LoadsOnly P) := by
  refine Within.bind LoadsOnly.trans (client.loads_spans.demand _) fun _ => ?_
  exact Within.bind LoadsOnly.trans (client.loads_spans.fetchOne _ _ _ _) fun representation w =>
    .accept w key representation

/-- An operation loads no members but those of the owner that it is about. -/
theorem perform_loads (client : Client σ) (op : Op)
    (hP : ∀ r, op.slot? = some ⟨r, .members⟩ → P r) : (client.perform op).Within (LoadsOnly P) := by
  have hmembers (owner : Ref) (howner : op.slot? = some ⟨owner, .members⟩) :
      (client.members owner).Within (LoadsOnly P) := client.members_loads (hP owner howner)
  cases op with
  | links r => exact (client.links_loads r).map _
  | link r relation => exact (client.loads_spans.entry r relation).map _
  | hasLink r relation => exact (client.loads_spans.hasLink r relation).map _
  | members owner => exact (hmembers owner rfl).map _
  | member owner name => exact (client.loads_spans.member? (hmembers owner rfl) name).map _
  | hasMember owner name => exact (client.loads_spans.member? (hmembers owner rfl) name).map _
  | create owner creation => exact (client.create_loads (hP owner rfl) creation).map _
  | destroy r force => exact (client.destroy_loads r force).map _
  | refresh r => exact (client.refresh_loads r).map _
  | user connection => exact (client.user_loads connection).map _
  | availableCartridges connection =>
    exact (client.loads_spans.availableCartridges connection).map _
  | rename domain id => exact (client.rename_loads domain id).map _
  | applicationsOf domain cartridge =>
    exact (client.loads_spans.applicationsOf (hmembers domain rfl) cartridge).map _
  | hasApplicationsOf domain cartridge =>
    exact (client.loads_spans.applicationsOf (hmembers domain rfl) cartridge).map _
  | cartridgeNames domain => exact (client.loads_spans.creationOptions domain _).map _
  | gearProfiles domain => exact (client.loads_spans.creationOptions domain _).map _
  | post application event => exact (client.post_loads application event).map _
  | gears application => exact (client.gears_loads application).map _
  | updateKey key type publicKey => exact (client.updateKey_loads key type publicKey).map _
  | setPublicKey key publicKey =>
    refine Within.map (fun w => ?_) _
    rw [exec_setPublicKey]
    exact client.updateKey_loads key _ publicKey w

theorem step_loads (client : Client σ) (op : Op) (w : World σ) :
    LoadsOnly (fun r => op.slot? = some ⟨r, .members⟩) w (client.step op w).2 :=
  client.perform_loads op (fun _ h => h) w

end Client

end BrokerClient.Hierarchy

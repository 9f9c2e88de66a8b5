import BrokerClient.Proofs.Hierarchy.Change
import BrokerClient.Proofs.Hierarchy.Failure

/-!
# What a step does

Every operation first fills places that had not been fetched and then ends in at most one change.
An operation that only reads or that fails ends in none. So whatever filling keeps and every
change keeps holds in each state that a client can come to.
-/
namespace BrokerClient.Hierarchy

open Hierarchy.Action

variable {σ : Type}

/-! ## What becomes of one resource -/

/-- What a resource can turn into when an operation changes it. -/
inductive Resource.Turns (x : Resource) : Resource → Prop
  | refl : Turns x x
  | withMembers {y : Resource} (h : Turns x y) (cell : Lazy.Cell Ref) : Turns x (y.withMembers cell)
  | withGears {y : Resource} (h : Turns x y) (cell : Lazy.Cell Representation.Gear) :
      Turns x (y.withGears cell)
  | accept {y : Resource} (h : Turns x y) (representation : Representation) :
      Turns x (y.accept representation)
  | discard {y : Resource} (h : Turns x y) : Turns x (Client.discard y)
  | editAliases {y : Resource} (h : Turns x y) (f : List Value → List Value) :
      Turns x { y with attributes := y.attributes.editAliases f }
  | withUser {y : Resource} (h : Turns x y) (current : Option Ref) :
      Turns x { y with attributes := y.attributes.withUser current }

theorem Attributes.kind_editAliases (f : List Value → List Value) (attributes : Attributes) :
    (attributes.editAliases f).kind = attributes.kind := by
  cases attributes <;> rfl

theorem Attributes.kind_withUser (current : Option Ref) (attributes : Attributes) :
    (attributes.withUser current).kind = attributes.kind := by
  cases attributes <;> rfl

theorem Attributes.name_editAliases (f : List Value → List Value) (attributes : Attributes) :
    (attributes.editAliases f).name = attributes.name := by
  cases attributes <;> rfl

theorem Attributes.name_withUser (current : Option Ref) (attributes : Attributes) :
    (attributes.withUser current).name = attributes.name := by
  cases attributes <;> rfl

/-- Only users and domains take over the name in a later representation. -/
theorem Attributes.name_accept {attributes : Attributes} (huser : attributes.kind ≠ .user)
    (hdomain : attributes.kind ≠ .domain) (representation : Representation) :
    (attributes.accept representation).name = attributes.name := by
  cases attributes <;> cases representation <;>
    first | rfl | simp [Attributes.kind] at huser hdomain

namespace Resource.Turns

variable {x y : Resource}

theorem owner (h : x.Turns y) : y.owner = x.owner := by
  induction h with
  | refl => rfl
  | withMembers _ _ ih => exact ih
  | withGears _ _ ih => exact ih
  | accept _ _ ih => exact ih
  | @discard y _ ih =>
    unfold Client.discard
    split <;> exact ih
  | editAliases _ _ ih => exact ih
  | withUser _ _ ih => exact ih

theorem kind (h : x.Turns y) : y.kind = x.kind := by
  induction h with
  | refl => rfl
  | withMembers _ _ ih => exact ih
  | withGears _ _ ih => exact ih
  | accept _ representation ih => exact (kind_accept _ representation).trans ih
  | @discard y _ ih =>
    unfold Client.discard
    split
    · exact (Attributes.kind_withUser none y.attributes).trans ih
    · exact ih
  | @editAliases y _ f ih => exact (Attributes.kind_editAliases f y.attributes).trans ih
  | @withUser y _ current ih => exact (Attributes.kind_withUser current y.attributes).trans ih

theorem name (h : x.Turns y) (huser : x.kind ≠ .user) (hdomain : x.kind ≠ .domain) :
    y.name = x.name := by
  induction h with
  | refl => rfl
  | withMembers _ _ ih => exact ih
  | withGears _ _ ih => exact ih
  | accept h representation ih =>
    rw [← h.kind] at huser hdomain
    exact (Attributes.name_accept huser hdomain representation).trans ih
  | @discard y _ ih =>
    unfold Client.discard
    split
    · exact (Attributes.name_withUser none y.attributes).trans ih
    · exact ih
  | @editAliases y _ f ih => exact (Attributes.name_editAliases f y.attributes).trans ih
  | @withUser y _ current ih => exact (Attributes.name_withUser current y.attributes).trans ih

/-- A catalog stays, or makes place for the links of a representation. A connection can lose it. -/
theorem catalog (h : x.Turns y) :
    y.catalog = x.catalog ∨ (∃ links, y.catalog = some (.ofLinks links)) ∨
      (x.kind = .connection ∧ y.catalog = none) := by
  induction h with
  | refl => exact .inl rfl
  | withMembers _ _ ih => exact ih
  | withGears _ _ ih => exact ih
  | accept _ representation _ => exact .inr (.inl ⟨representation.common.links, rfl⟩)
  | @discard y h ih =>
    unfold Client.discard
    split
    · rename_i hkind
      exact .inr (.inr ⟨h.kind ▸ hkind, rfl⟩)
    · exact ih
  | editAliases _ _ ih => exact ih
  | withUser _ _ ih => exact ih

end Resource.Turns

/-- What the attributes of a resource can become when an operation on it succeeds. -/
inductive Attributes.Becomes (attributes : Attributes) : Attributes → Prop
  | accept (representation : Representation) : Becomes attributes (attributes.accept representation)
  | withUser (current : Option Ref) : Becomes attributes (attributes.withUser current)
  | editAliases (event : Event) :
      Becomes attributes (attributes.editAliases fun aliases => event.editAliases aliases)

/-! ## What becomes of a state -/

/-- The resource on which an operation is called. -/
def Op.callee : Op → Ref
  | .links r | .link r _ | .hasLink r _ | .members r | .member r _ | .hasMember r _ | .create r _
  | .destroy r _ | .refresh r | .user r | .availableCartridges r | .rename r _
  | .applicationsOf r _ | .hasApplicationsOf r _ | .cartridgeNames r | .gearProfiles r | .post r _
  | .gears r | .updateKey r _ _ | .setPublicKey r _ => r

namespace Client

variable {client : Client σ} {w w' : World σ}

/-- The change that an operation ends in, with its answer. -/
inductive Commits : Op → Except Raised Answer → World σ → World σ → Prop
  | nothing (op : Op) (answer : Except Raised Answer) (w : World σ) : Commits op answer w w
  | created {w : World σ} {family : Family} {owner : Ref} {creation : Creation}
      {representation : Representation} {refs : List Ref}
      (howner : Family.ofOwner? (w.resource owner).kind = some family)
      (hrefs : (w.resource owner).members.cell.items? = some refs)
      (hnew : ∀ r ∈ refs, creation.name.asText? ≠ some (w.resource r).name)
      (hkind : representation.kind = family.recordKind) :
      Commits (.create owner creation) (.ok (.resource w.store.next)) w
        (w.enroll family owner representation)
  | destroyed (r : Ref) (force : Value) (w : World σ) :
      Commits (.destroy r force) (.ok .done) w (w.strike r)
  | refreshed {w : World σ} {r : Ref} (hr : r < w.store.next) (representation : Representation) :
      Commits (.refresh r) (.ok .done) w ((w.accept r representation).forget r)
  | discarded (r : Ref) (w : World σ) :
      Commits (.refresh r) (.ok .done) w ((w.alter r discard).forget r)
  | welcomed {w : World σ} {connection : Ref} {representation : Representation}
      (hconnection : connection < w.store.next) (hkind : representation.kind = .user) :
      Commits (.user connection) (.ok (.resource w.store.next)) w
        (w.welcome connection representation)
  | accepted {w : World σ} {op : Op} {r : Ref} (hr : r < w.store.next)
      (representation : Representation) (hop : op.callee = r) :
      Commits op (.ok .done) w (w.accept r representation)
  | edited {w : World σ} (application : Ref) (event : Event) :
      Commits (.post application event) (.ok .done) w (w.alter application fun x =>
        { x with attributes := x.attributes.editAliases fun aliases => event.editAliases aliases })
  | noted {op : Op} {answer : Except Raised Answer} {w w' : World σ} (h : Commits op answer w w')
      (entry : LogEntry) : Commits op answer w (w'.note entry)

namespace Commits

variable {op : Op} {answer : Except Raised Answer}

theorem logs (h : Commits op answer w w') : w.exchange.Logs w'.exchange := by
  induction h with
  | nothing => exact .refl _
  | created => exact World.enroll_logs _ _ _ _
  | destroyed => exact World.strike_logs _ _
  | refreshed _ _ => exact (World.accept_logs _ _ _).trans (World.forget_logs _ _)
  | discarded r w => exact World.forget_logs (w.alter r discard) r
  | welcomed => exact World.welcome_logs _ _ _
  | accepted => exact World.accept_logs _ _ _
  | edited => exact .refl _
  | noted _ entry ih => exact ih.note entry

theorem next (h : Commits op answer w w') : w.store.next ≤ w'.store.next := by
  induction h with
  | noted _ entry ih => exact ih
  | _ => simp

theorem turns (h : Commits op answer w w') {r : Ref} (hr : r < w.store.next) :
    (w.resource r).Turns (w'.resource r) := by
  induction h with
  | nothing => exact .refl
  | created howner =>
    rw [World.resource_enroll (World.lt_next_of_owner howner), if_neg (Nat.ne_of_lt hr)]
    split
    · exact .withMembers .refl _
    · exact .refl
  | destroyed =>
    rw [World.resource_strike]
    split
    · exact .withMembers .refl _
    · exact .refl
  | refreshed hlt =>
    rw [World.resource_forget, World.resource_accept hlt]
    split
    · exact .withGears (.withMembers (.accept .refl _) _) _
    · exact .refl
  | discarded =>
    rw [World.resource_forget, World.resource_alter_eq rfl]
    split
    · exact .withGears (.withMembers (.discard .refl) _) _
    · exact .refl
  | welcomed hlt =>
    rw [World.resource_welcome hlt, if_neg (Nat.ne_of_lt hr)]
    split
    · exact .withUser .refl _
    · exact .refl
  | accepted hlt =>
    rw [World.resource_accept hlt]
    split
    · exact .accept .refl _
    · exact .refl
  | edited =>
    rw [World.resource_alter_eq rfl]
    split
    · exact .editAliases .refl _
    · exact .refl
  | noted _ entry ih => exact ih hr

/-- The attributes of a resource that was there change only if the operation is one on it, and
succeeds. -/
theorem attributes (h : Commits op answer w w') {r : Ref} (hr : r < w.store.next) :
    (w'.resource r).attributes = (w.resource r).attributes ∨
      (op.callee = r ∧ ∃ a, answer = .ok a) ∧
        (w.resource r).attributes.Becomes (w'.resource r).attributes := by
  induction h with
  | nothing => exact .inl rfl
  | noted _ _ ih => exact ih hr
  | created howner =>
    rw [World.resource_enroll (World.lt_next_of_owner howner), if_neg (Nat.ne_of_lt hr)]
    split <;> exact .inl rfl
  | destroyed =>
    rw [World.resource_strike]
    split <;> exact .inl rfl
  | @refreshed w r' hlt representation =>
    rw [World.resource_forget, World.resource_accept hlt]
    by_cases he : r = r'
    · rw [if_pos he, if_pos he]
      exact .inr ⟨⟨he.symm, _, rfl⟩, .accept representation⟩
    · rw [if_neg he, if_neg he]
      exact .inl rfl
  | discarded r' =>
    rw [World.resource_forget, World.resource_alter_eq rfl]
    by_cases he : r = r'
    · rw [if_pos he, if_pos he]
      unfold Client.discard
      split
      · exact .inr ⟨⟨he.symm, _, rfl⟩, .withUser none⟩
      · exact .inl rfl
    · rw [if_neg he, if_neg he]
      exact .inl rfl
  | @welcomed w connection representation hlt =>
    rw [World.resource_welcome hlt, if_neg (Nat.ne_of_lt hr)]
    by_cases he : r = connection
    · rw [if_pos he]
      exact .inr ⟨⟨he.symm, _, rfl⟩, .withUser _⟩
    · rw [if_neg he]
      exact .inl rfl
  | @accepted w op r' hlt representation hop =>
    rw [World.resource_accept hlt]
    by_cases he : r = r'
    · rw [if_pos he]
      exact .inr ⟨⟨hop.trans he.symm, _, rfl⟩, .accept representation⟩
    · rw [if_neg he]
      exact .inl rfl
  | edited application event =>
    rw [World.resource_alter_eq rfl]
    by_cases he : r = application
    · rw [if_pos he]
      exact .inr ⟨⟨he.symm, _, rfl⟩, .editAliases event⟩
    · rw [if_neg he]
      exact .inl rfl

/-- A resource that was not there before was just made of a representation. -/
theorem made (h : Commits op answer w w') {r : Ref} (hr : w.store.next ≤ r)
    (hr' : r < w'.store.next) :
    ∃ owner representation, w'.resource r = .ofRepresentation owner representation := by
  induction h with
  | nothing => exact absurd hr' (Nat.not_lt.mpr hr)
  | noted _ entry ih => exact ih hr hr'
  | @created w family owner creation representation refs howner hrefs hnew hkind =>
    rw [World.next_enroll] at hr'
    obtain rfl := Nat.le_antisymm (Nat.le_of_lt_succ hr') hr
    exact ⟨owner, representation, by
      rw [World.resource_enroll (World.lt_next_of_owner howner), if_pos rfl]⟩
  | @welcomed w connection representation hlt hkind =>
    rw [World.next_welcome] at hr'
    obtain rfl := Nat.le_antisymm (Nat.le_of_lt_succ hr') hr
    exact ⟨connection, representation, by rw [World.resource_welcome hlt, if_pos rfl]⟩
  | _ =>
    simp only [World.next_strike, World.next_forget, World.next_accept, World.next_alter] at hr'
    exact absurd hr' (Nat.not_lt.mpr hr)

end Commits

/-- A resource that a link was followed of was there before. -/
theorem lt_next_of_link {r : Ref} {relation : String} {link : Link}
    (h : (client.link r relation).exec w = (.ok link, w')) : r < w'.store.next := by
  obtain ⟨catalog, hlinks, -⟩ := link_eq_ok.mp h
  exact World.lt_next_of_catalog (catalog_of_links hlinks)

theorem lt_next_of_fetchOne {r : Ref} {relation : String} {kind : RecordKind}
    {parameters : Parameters} {representation : Representation}
    (h : (client.fetchOne r relation kind parameters).exec w = (.ok representation, w')) :
    r < w'.store.next ∧ representation.kind = kind := by
  rw [fetchOne_eq] at h
  obtain ⟨link, w₁, payload, hlink, hsend, hview⟩ := expect_eq_ok.mp h
  refine ⟨?_, Payload.kind_of_singleOf? hview⟩
  rw [send_ok_store hsend]
  exact lt_next_of_link hlink

theorem create_commits {owner r : Ref} {creation : Creation}
    (h : (client.create owner creation).exec w = (.ok r, w')) :
    ∃ w₁, client.Fills w w₁ ∧ Commits (.create owner creation) (.ok (.resource r)) w₁ w' := by
  obtain ⟨-, family, hfamily, hcreate⟩ := create_eq_ok.mp h
  obtain ⟨w₁, parameters, representation, w₂, hmember, -, hfetch, rfl, rfl⟩ :=
    createIn_eq_ok.mp hcreate
  obtain ⟨refs, hmembers, hfind⟩ := member?_eq_ok.mp hmember
  have hfills₁ := (client.members_fills owner).of_eq hmembers
  have hfills₂ := (client.fetchOne_fills _ _ _ _).of_eq hfetch
  have hfills := hfills₁.trans hfills₂
  have hitems := items_of_members hfamily hmembers
  refine ⟨w₂, hfills, .created ?_ (hfills₂.items_of_some hitems) ?_
    (lt_next_of_fetchOne hfetch).2⟩
  · rw [hfills.kind (World.lt_next_of_owner hfamily), hfamily]
  · intro r hr hname
    have hattributes := hfills₂.attributes_of_next_eq (next_of_fetchOne hfetch) r
    rw [Resource.name, hattributes] at hname
    exact List.find?_eq_none.mp hfind.symm r hr (by simpa [Resource.name] using hname)

/-- A refresh asks a resource that is there. -/
theorem kind_of_source {r : Ref} {x : Resource} {source : Ref × String × RecordKind}
    (h : source? r x = some source) : x.kind ≠ .bare := by
  intro hbare
  simp [source?, hbare] at h

theorem refresh_commits {r : Ref} {a : Unit} (h : (client.refresh r).exec w = (.ok a, w')) :
    ∃ w₁, client.Fills w w₁ ∧ Commits (.refresh r) (.ok .done) w₁ w' := by
  obtain ⟨asked, relation, kind, representation, w₁, hsource, hfetch, rfl⟩ | ⟨-, rfl⟩ :=
    refresh_eq_ok.mp h
  · have hfills := (client.fetchOne_fills _ _ _ _).of_eq hfetch
    have hr := World.lt_next_of_kind (kind_of_source hsource)
    exact ⟨w₁, hfills, .refreshed (hr.trans_le hfills.next) representation⟩
  · exact ⟨w, .refl w, .discarded r w⟩

theorem destroy_commits {r : Ref} {force : Value} {a : Unit}
    (h : (client.destroy r force).exec w = (.ok a, w')) :
    ∃ w₁, client.Fills w w₁ ∧ Commits (.destroy r force) (.ok .done) w₁ w' := by
  obtain ⟨payload, w₁, hfollow, rfl⟩ := destroy_eq_ok.mp h
  exact ⟨w₁, (client.follow_fills _ _ _ _).of_eq hfollow, .destroyed r force w₁⟩

theorem user_commits {connection r : Ref} (h : (client.user connection).exec w = (.ok r, w')) :
    ∃ w₁, client.Fills w w₁ ∧ Commits (.user connection) (.ok (.resource r)) w₁ w' := by
  obtain ⟨-, rfl⟩ | ⟨-, representation, w₁, hfetch, rfl, rfl⟩ := user_eq_ok.mp h
  · exact ⟨_, .refl _, .nothing _ _ _⟩
  · obtain ⟨hlt, hkind⟩ := lt_next_of_fetchOne hfetch
    exact ⟨w₁, (client.fetchOne_fills _ _ _ _).of_eq hfetch, .welcomed hlt hkind⟩

theorem rename_commits {domain : Ref} {id : Value} {a : Unit}
    (h : (client.rename domain id).exec w = (.ok a, w')) :
    ∃ w₁, client.Fills w w₁ ∧ Commits (.rename domain id) (.ok .done) w₁ w' := by
  obtain ⟨-, representation, w₁, hfetch, rfl⟩ := rename_eq_ok.mp h
  exact ⟨w₁, (client.fetchOne_fills _ _ _ _).of_eq hfetch,
    (Commits.accepted (lt_next_of_fetchOne hfetch).1 representation rfl).noted _⟩

theorem updateKey_commits {op : Op} {key : Ref} {type publicKey : Value} {a : Unit}
    (hop : op.callee = key)
    (h : (client.updateKey key type publicKey).exec w = (.ok a, w')) :
    ∃ w₁, client.Fills w w₁ ∧ Commits op (.ok .done) w₁ w' := by
  obtain ⟨-, representation, w₁, hfetch, rfl⟩ := updateKey_eq_ok.mp h
  exact ⟨w₁, (client.fetchOne_fills _ _ _ _).of_eq hfetch,
    .accepted (lt_next_of_fetchOne hfetch).1 representation hop⟩

theorem post_commits {application : Ref} {event : Event} {a : Unit}
    (h : (client.post application event).exec w = (.ok a, w')) :
    ∃ w₁, client.Fills w w₁ ∧ Commits (.post application event) (.ok .done) w₁ w' := by
  obtain ⟨-, payload, w₁, hfollow, rfl⟩ := post_eq_ok.mp h
  obtain ⟨link, w₂, hlink, hsend⟩ := follow_eq_ok.mp hfollow
  have happlication : application < w₁.store.next := by
    rw [send_ok_store hsend]
    exact lt_next_of_link hlink
  have hsettles (u : World σ) (hu : application < u.store.next) :
      Commits (.post application event) (.ok .done) u (settle application event payload u) := by
    unfold settle
    split
    · exact .accepted hu _ rfl
    · exact .edited application event
  exact ⟨_, ((client.follow_fills _ _ _ _).of_eq hfollow).trans (.note w₁ _),
    hsettles _ happlication⟩

/-- An action that fails only fills, so its answer does not matter to the state. -/
theorem commits_of_map {α : Type} {op : Op} {x : Action σ α} (g : α → Answer)
    (hfails : x.FailsWithin client.Fills)
    (hok : ∀ a w', x.exec w = (.ok a, w') →
      ∃ w₁, client.Fills w w₁ ∧ Commits op (.ok (g a)) w₁ w') :
    ∃ w₁, client.Fills w w₁ ∧ Commits op (exec (g <$> x) w).1 w₁ (exec (g <$> x) w).2 := by
  rw [exec_map]
  rcases h : x.exec w with ⟨e | a, w'⟩
  · exact ⟨w', hfails w e w' h, .nothing op _ w'⟩
  · exact hok a w' h

theorem commits_of_within {α : Type} (op : Op) {x : Action σ α} (g : α → Answer)
    (h : x.Within client.Fills) :
    ∃ w₁, client.Fills w w₁ ∧ Commits op (exec (g <$> x) w).1 w₁ (exec (g <$> x) w).2 :=
  commits_of_map g h.failsWithin fun _ w' hx => ⟨w', h.of_eq hx, .nothing op _ w'⟩

/-- Every step fills places and then ends in a change, whatever its answer. -/
theorem step_commits (client : Client σ) (op : Op) (w : World σ) :
    ∃ w₁, client.Fills w w₁ ∧ Commits op (client.step op w).1 w₁ (client.step op w).2 := by
  cases op with
  | links r => exact commits_of_within _ _ (client.links_fills r)
  | link r relation => exact commits_of_within _ _ (client.entry_fills r relation)
  | hasLink r relation => exact commits_of_within _ _ (client.hasLink_fills r relation)
  | members owner => exact commits_of_within _ _ (client.members_fills owner)
  | member owner name => exact commits_of_within _ _ (client.member?_fills owner name)
  | hasMember owner name => exact commits_of_within _ _ (client.member?_fills owner name)
  | create owner creation =>
    exact commits_of_map _ (client.create_fails owner creation) fun _ _ => create_commits
  | destroy r force =>
    exact commits_of_map _ (client.destroy_fails r force) fun _ _ => destroy_commits
  | refresh r => exact commits_of_map _ (client.refresh_fails r) fun _ _ => refresh_commits
  | user connection =>
    exact commits_of_map _ (client.user_fails connection) fun _ _ => user_commits
  | availableCartridges connection =>
    exact commits_of_within _ _ (client.availableCartridges_fills connection)
  | rename domain id =>
    exact commits_of_map _ (client.rename_fails domain id) fun _ _ => rename_commits
  | applicationsOf domain cartridge =>
    exact commits_of_within _ _ (client.applicationsOf_fills domain cartridge)
  | hasApplicationsOf domain cartridge =>
    exact commits_of_within _ _ (client.applicationsOf_fills domain cartridge)
  | cartridgeNames domain => exact commits_of_within _ _ (client.creationOptions_fills domain _)
  | gearProfiles domain => exact commits_of_within _ _ (client.creationOptions_fills domain _)
  | post application event =>
    exact commits_of_map _ (client.post_fails application event) fun _ _ => post_commits
  | gears application => exact commits_of_within _ _ (client.gears_fills application)
  | updateKey key type publicKey =>
    exact commits_of_map _ (client.updateKey_fails key type publicKey) fun _ _ =>
      updateKey_commits rfl
  | setPublicKey key publicKey =>
    refine commits_of_map _ (client.setPublicKey_fails key publicKey) fun a w' h => ?_
    rw [exec_setPublicKey] at h
    exact updateKey_commits rfl h

/-- No resource gets lost. -/
theorem next_step (client : Client σ) (op : Op) (w : World σ) :
    w.store.next ≤ (client.step op w).2.store.next := by
  obtain ⟨w₁, hfills, hcommits⟩ := client.step_commits op w
  exact hfills.next.trans hcommits.next

/-- No operation changes what kind of resource a resource is. -/
theorem kind_step (client : Client σ) (op : Op) {r : Ref} (hr : r < w.store.next) :
    ((client.step op w).2.resource r).kind = (w.resource r).kind := by
  obtain ⟨w₁, hfills, hcommits⟩ := client.step_commits op w
  rw [(hcommits.turns (hr.trans_le hfills.next)).kind, hfills.kind hr]

theorem kind_run (client : Client σ) (ops : List Op) {r : Ref} (hr : r < w.store.next) :
    ((client.run ops w).2.resource r).kind = (w.resource r).kind := by
  induction ops generalizing w with
  | nil => rfl
  | cons op rest ih =>
    exact (ih (hr.trans_le (client.next_step op w))).trans (client.kind_step op hr)

/-- The states that a client comes to from one state, step by step, if each operation is allowed in
the state in which it is carried out. -/
inductive Reaches (client : Client σ) (allowed : Op → World σ → Prop) (w₀ : World σ) :
    World σ → Prop
  | refl : Reaches client allowed w₀ w₀
  | step {w : World σ} (h : Reaches client allowed w₀ w) {op : Op} (hop : allowed op w) :
      Reaches client allowed w₀ (client.step op w).2

/-- Operations one after the other lead from a state that a client comes to to another one. -/
theorem Reaches.run {w₀ w : World σ} (h : client.Reaches (fun _ _ => True) w₀ w) (ops : List Op) :
    client.Reaches (fun _ _ => True) w₀ (client.run ops w).2 := by
  induction ops generalizing w with
  | nil => exact h
  | cons op rest ih => exact ih (h.step trivial)

end Client

end BrokerClient.Hierarchy

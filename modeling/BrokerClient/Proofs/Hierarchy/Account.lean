import BrokerClient.Proofs.Hierarchy.Answering

/-!
# Accounting for operations

The inquiries of an operation account for everything that it does, but for what a refresh forgets in
the end. It is one short lemma for each operation.
-/
namespace BrokerClient.Hierarchy

open Hierarchy.Action

variable {σ : Type} {client : Client σ} {w w' w₁ : World σ} {r : Ref}

namespace Client

/-! ## Members and gears -/

theorem resembles_loading_members (h : (w.resource r).members.cell.items? = none) :
    w.Resembles ((World.members r).loading w) := by
  have hquiet : w.Resembles (w.alter r (·.withMembers .loading)) :=
    .alter (.of_core rfl) rfl rfl (by rw [Lazy.Cell.isLoaded, Lazy.Cell.isLoaded, h]; rfl) rfl
  exact hquiet.trans (.of_store rfl)

theorem fetchMembers_accounts (client : Client σ) (w : World σ) (family : Family) (owner : Ref) :
    client.AccountsFor w
      (client.inquiriesOf ⟨w, owner, .follow family.listRelation [] false (.members family)⟩)
      (exec (client.fetchMembers family owner >>= fun refs =>
        modify ((World.members owner).fill (.loaded refs))) w).2 := by
  rw [fetchMembers, bind_assoc, fetchList_eq]
  refine expect_accounts (fun payload hview => by simp [Purpose.read?, hview])
    fun i payload representations hcomes houtcome hview => ?_
  have hdata : client.data? i = some (.records (representations.filter family.admits)) := by
    rw [data?_of_outcome houtcome, hcomes.purpose]
    simp [Purpose.read?, hview]
  obtain rfl := hcomes.asked
  exact adoptAll_accounts hcomes.purpose hdata hcomes.asked_lt rfl

/-- A failure to fetch the members of an owner leaves its place for them as it is. -/
theorem fetchMembers_error {family : Family} {owner : Ref} {e : Raised}
    (h : (client.fetchMembers family owner).exec w = (.error e, w')) :
    (w'.resource owner).members = (w.resource owner).members := by
  have hlist : (client.fetchList owner family.listRelation family.recordKind).exec w =
      (.error e, w') := by
    obtain hlist | ⟨representations, w₁, -, hadopt⟩ := exec_bind_eq_error.mp h
    · exact hlist
    · cases hadopt
  rw [fetchList_eq] at hlist
  obtain ⟨catalog, hresource⟩ := resource_expect hlist owner
  rw [hresource]

theorem members_accounts (client : Client σ) (w : World σ) (owner : Ref) :
    client.AccountsFor w ((w.listing owner).flatMap client.inquiriesOf)
      ((client.members owner).exec w).2 := by
  cases hfamily : Family.ofOwner? (w.resource owner).kind with
  | none =>
    rw [members_of_not_owner hfamily]
    simpa [World.listing, hfamily] using AccountsFor.refl w
  | some family =>
    cases hitems : (w.resource owner).members.cell.items? with
    | some refs =>
      rw [(members_eq_ok hfamily).mpr (.inl ⟨hitems, rfl⟩)]
      simpa [World.listing, hfamily, hitems] using AccountsFor.refl w
    | none =>
      have hlisting : (w.listing owner).flatMap client.inquiriesOf =
          client.inquiriesOf ⟨(World.members owner).loading w, owner,
            .follow family.listRelation [] false (.members family)⟩ := by
        simp [World.listing, hfamily, hitems]
      have hfetch := client.fetchMembers_accounts ((World.members owner).loading w) family owner
      rw [hlisting]
      refine .after (resembles_loading_members hitems) ((Exchange.Logs.refl _).note _) ?_
      rcases h : (client.members owner).exec w with ⟨e | refs, w'⟩
      · obtain ⟨-, w₁, hfailed, rfl⟩ := (members_eq_error hfamily).mp h
        rw [exec_bind_of_error hfailed] at hfetch
        have hunloaded : (w₁.resource owner).members.cell.isLoaded = false := by
          rw [fetchMembers_error hfailed, (resembles_loading_members hitems).members,
            Lazy.Cell.isLoaded, hitems]
          rfl
        exact hfetch.before (.alter (.of_core rfl) rfl rfl hunloaded.symm rfl) (.refl _)
      · obtain ⟨hsome, -⟩ | ⟨-, w₁, hfetched, rfl⟩ := (members_eq_ok hfamily).mp h
        · rw [hitems] at hsome
          cases hsome
        · rw [exec_bind_of_ok hfetched] at hfetch
          exact hfetch

theorem resembles_loading_gears (h : (w.resource r).gears.cell.items? = none) :
    w.Resembles ((World.gears r).loading w) := by
  have hquiet : w.Resembles (w.alter r (·.withGears .loading)) :=
    .alter (.of_core rfl) rfl rfl rfl (by rw [Lazy.Cell.isLoaded, Lazy.Cell.isLoaded, h]; rfl)
  exact hquiet.trans (.of_store rfl)

theorem fetchGears_accounts (client : Client σ) (w : World σ) (r : Ref) :
    client.AccountsFor w
      (client.inquiriesOf ⟨w, r, .follow Relation.getGears [] false .gears⟩)
      (exec (client.fetchGears r >>= fun gears =>
        modify ((World.gears r).fill (.loaded gears))) w).2 := by
  rw [fetchGears_eq]
  refine expect_accounts (fun payload hview => by simp [Purpose.read?, hview])
    fun i payload gears hcomes houtcome hview => ?_
  have hdata : client.data? i = some (.gears gears) := by
    rw [data?_of_outcome houtcome, hcomes.purpose]
    simp [Purpose.read?, hview]
  obtain rfl := hcomes.asked
  exact fillGears_accounts hcomes.purpose hdata hcomes.asked_lt

theorem gears_accounts (client : Client σ) (w : World σ) (r : Ref) :
    client.AccountsFor w (client.inquiries (.gears r) w) ((client.gears r).exec w).2 := by
  cases hitems : (w.resource r).gears.cell.items? with
  | some gears =>
    have hgears : (client.gears r).exec w = (.ok gears, w) :=
      Lazy.load_eq_ok.mpr (.inl ⟨hitems, rfl⟩)
    rw [hgears]
    simpa [inquiries, asks, hitems] using AccountsFor.refl w
  | none =>
    have hinquiries : client.inquiries (.gears r) w =
        client.inquiriesOf ⟨(World.gears r).loading w, r,
          .follow Relation.getGears [] false .gears⟩ := by
      simp [inquiries, asks, hitems]
    have hfetch := client.fetchGears_accounts ((World.gears r).loading w) r
    rw [hinquiries]
    refine .after (resembles_loading_gears hitems) ((Exchange.Logs.refl _).note _) ?_
    rcases h : (client.gears r).exec w with ⟨e | gears, w'⟩
    · obtain ⟨-, w₁, hfailed, rfl⟩ := Lazy.load_eq_error.mp h
      have hfailed : (client.fetchGears r).exec ((World.gears r).loading w) = (.error e, w₁) :=
        hfailed
      rw [exec_bind_of_error hfailed] at hfetch
      have hunloaded : (w₁.resource r).gears.cell.isLoaded = false := by
        rw [fetchGears_eq] at hfailed
        obtain ⟨catalog, hresource⟩ := resource_expect hfailed r
        rw [hresource, (resembles_loading_gears hitems).gears, Lazy.Cell.isLoaded, hitems]
        rfl
      exact hfetch.before (.alter (.of_core rfl) rfl rfl rfl hunloaded.symm) (.refl _)
    · obtain ⟨hsome, -⟩ | ⟨-, w₁, hfetched, rfl⟩ := Lazy.load_eq_ok.mp h
      · exact absurd (hitems.symm.trans hsome) (by simp)
      · have hfetched : (client.fetchGears r).exec ((World.gears r).loading w) = (.ok gears, w₁) :=
          hfetched
        rw [exec_bind_of_ok hfetched] at hfetch
        exact hfetch

/-! ## Changes -/

theorem user_accounts (client : Client σ) (w : World σ) (connection : Ref) :
    client.AccountsFor w (client.inquiries (.user connection) w)
      ((client.user connection).exec w).2 := by
  cases huser : (w.resource connection).attributes.user? with
  | some r =>
    rw [user_eq_ok.mpr (.inl ⟨huser, rfl⟩)]
    simpa [inquiries, asks, huser] using AccountsFor.refl w
  | none =>
    have hinquiries : client.inquiries (.user connection) w =
        client.inquiriesOf ⟨w, connection, .follow Relation.getUser [] false .user⟩ := by
      simp [inquiries, asks, huser]
    rw [hinquiries, user, exec_bind_of_ok (exec_get w)]
    simp only [huser]
    refine fetchOne_accounts (fun _ => rfl) fun i representation hcomes hdata _ => ?_
    obtain rfl := hcomes.asked
    exact welcome_accounts hcomes.purpose hdata hcomes.asked_lt

theorem demand_bind_of_none {β : Type} {lacks : Option Argument} {f : Unit → Action σ β}
    (h : lacks = none) (w : World σ) : exec (demand lacks >>= f) w = (f ()).exec w := by
  subst h
  rfl

theorem demand_bind_of_some {β : Type} {lacks : Option Argument} {argument : Argument}
    {f : Unit → Action σ β} (h : lacks = some argument) (w : World σ) :
    exec (demand lacks >>= f) w =
      (.error (.client (.invalidRequest (.notGiven argument))), w) := by
  subst h
  rfl

theorem rename_accounts (client : Client σ) (w : World σ) (domain : Ref) (id : Value) :
    client.AccountsFor w (client.inquiries (.rename domain id) w)
      ((client.rename domain id).exec w).2 := by
  cases hlacks : isLacking id with
  | true =>
    rw [rename, demand_bind_of_some (by rw [hlacks]; rfl)]
    simpa [inquiries, asks, hlacks] using AccountsFor.refl w
  | false =>
    have hinquiries : client.inquiries (.rename domain id) w =
        client.inquiriesOf ⟨w, domain,
          .follow Relation.update [("id", id)] false (.update domain .domain)⟩ := by
      simp [inquiries, asks, hlacks]
    rw [hinquiries, rename, demand_bind_of_none (by rw [hlacks]; rfl)]
    refine fetchOne_accounts (fun _ => rfl) fun i representation hcomes hdata _ => ?_
    exact (update_accounts hcomes hdata).before (.of_store rfl) ((Exchange.Logs.refl _).note _)

theorem updateKey_accounts (client : Client σ) (w : World σ) (key : Ref) (type publicKey : Value) :
    client.AccountsFor w ((asks.updateAsks key type publicKey w).flatMap client.inquiriesOf)
      ((client.updateKey key type publicKey).exec w).2 := by
  cases hlacks : isLacking publicKey with
  | true =>
    rw [updateKey, demand_bind_of_some (by rw [hlacks]; rfl)]
    simpa [asks.updateAsks, hlacks] using AccountsFor.refl w
  | false =>
    have hinquiries : (asks.updateAsks key type publicKey w).flatMap client.inquiriesOf =
        client.inquiriesOf ⟨w, key, .follow Relation.update
          [("type", type), ("content", publicKey)] false (.update key .key)⟩ := by
      simp [asks.updateAsks, hlacks]
    rw [hinquiries, updateKey, demand_bind_of_none (by rw [hlacks]; rfl)]
    refine fetchOne_accounts (fun _ => rfl) fun i representation hcomes hdata _ => ?_
    exact update_accounts hcomes hdata

theorem availableCartridges_accounts (client : Client σ) (w : World σ) (connection : Ref) :
    client.AccountsFor w (client.inquiries (.availableCartridges connection) w)
      ((client.availableCartridges connection).exec w).2 := by
  have hinquiries : client.inquiries (.availableCartridges connection) w =
      client.inquiriesOf ⟨w, connection, .follow Relation.listCartridges [] false .errand⟩ := by
    simp [inquiries, asks]
  rw [hinquiries, availableCartridges, fetchList_eq]
  refine expect_accounts (fun _ _ => rfl) fun i payload representations hcomes houtcome _ => ?_
  refine .of_unanswered ?_
  rw [data?_of_outcome houtcome, hcomes.purpose]
  rfl

theorem isLoaded_edit {α : Type} (f : List α → List α) (cell : Lazy.Cell α) :
    (cell.edit f).isLoaded = cell.isLoaded := by
  cases cell <;> rfl

/-- To drop a resource from the members of its owner leaves them loaded, if they are. -/
theorem resembles_strike (w : World σ) (r : Ref) : w.Resembles (w.strike r) := by
  have hresource (r' : Ref) : ∃ cell, cell.isLoaded = (w.resource r').members.cell.isLoaded ∧
      (w.strike r).resource r' = (w.resource r').withMembers cell := by
    rw [World.resource_strike]
    split
    · exact ⟨_, isLoaded_edit _ _, rfl⟩
    · exact ⟨_, rfl, rfl⟩
  constructor
  case next => exact World.next_strike
  all_goals
    intro r'
    obtain ⟨cell, hloaded, hstrike⟩ := hresource r'
    rw [hstrike]
  case develops => exact .of_core rfl
  case members => exact hloaded
  case catalog | user | gears => rfl

theorem destroy_accounts (client : Client σ) (w : World σ) (r : Ref) (force : Value) :
    client.AccountsFor w (client.inquiries (.destroy r force) w)
      ((client.destroy r force).exec w).2 := by
  have hinquiries : client.inquiries (.destroy r force) w =
      client.inquiriesOf ⟨w, r, .follow Relation.delete
        (destruction force (w.resource r).attributes).1
        (destruction force (w.resource r).attributes).2 .errand⟩ := by
    simp [inquiries, asks]
  rw [hinquiries, destroy, exec_bind_of_ok (exec_get w)]
  refine follow_accounts fun i payload hcomes houtcome => ?_
  have hdata : client.data? i = none := by
    rw [data?_of_outcome houtcome, hcomes.purpose]
    rfl
  exact (AccountsFor.of_unanswered hdata).before (resembles_strike _ r) (World.strike_logs _ r)

theorem user?_editAliases (f : List Value → List Value) (attributes : Attributes) :
    (attributes.editAliases f).user? = attributes.user? := by
  cases attributes <;> rfl

theorem post_accounts (client : Client σ) (w : World σ) (application : Ref) (event : Event) :
    client.AccountsFor w (client.inquiries (.post application event) w)
      ((client.post application event).exec w).2 := by
  cases hlacks : event.lacks? with
  | some argument =>
    rw [post, demand_bind_of_some hlacks]
    simpa [inquiries, asks, hlacks] using AccountsFor.refl w
  | none =>
    have hinquiries : client.inquiries (.post application event) w =
        client.inquiriesOf ⟨w, application,
          .follow event.relation event.parameters false .event⟩ := by
      simp [inquiries, asks, hlacks]
    rw [hinquiries, post, demand_bind_of_none hlacks]
    refine follow_accounts fun i payload hcomes houtcome => ?_
    have hdata : client.data? i = (payload.singleOf? .application).map .record := by
      rw [data?_of_outcome houtcome, hcomes.purpose]
      rfl
    let noted := (client.outcome i).2.note (.debug ("Application " ++
      ((client.outcome i).2.resource application).name ++ ": " ++ event.word))
    have hnoted : (client.outcome i).2.exchange.Logs noted.exchange := (Exchange.Logs.refl _).note _
    have hsettled : client.AccountsFor i.state [i] (settle application event payload noted) := by
      unfold settle
      cases hsingle : payload.singleOf? .application with
      | some representation =>
        rw [hsingle] at hdata
        exact accept_accounts (.inr ⟨hcomes.purpose, hcomes.asked⟩) hdata
          (hcomes.asked ▸ hcomes.asked_lt) (fun _ => hcomes.catalog) (client.store_outcome i) hnoted
      | none =>
        rw [hsingle] at hdata
        have hunanswered : client.AccountsFor i.state [i] noted :=
          (AccountsFor.of_unanswered hdata).before (.of_store rfl) hnoted
        refine hunanswered.before (.alter ?_ rfl ?_ rfl rfl) (.refl _)
        · exact ⟨rfl, rfl, Attributes.settled_editAliases (noted.resource application).attributes
            (event.editAliases ·)⟩
        · exact congrArg Option.isSome
            (user?_editAliases (event.editAliases ·) (noted.resource application).attributes)
    exact hsettled

theorem createIn_accounts (client : Client σ) (w : World σ) {family : Family} {owner : Ref}
    {creation : Creation} (hfamily : Family.ofOwner? (w.resource owner).kind = some family)
    (hlacks : creation.lacks? = none) :
    client.AccountsFor w ((client.creationAsks owner creation w).flatMap client.inquiriesOf)
      ((client.createIn family owner creation).exec w).2 := by
  have hlisted := client.members_accounts w owner
  rw [← member?_snd client owner creation.name] at hlisted
  simp only [creationAsks, hlacks, hfamily, List.flatMap_append]
  rcases hmember : (client.member? owner creation.name).exec w with ⟨e | found, w₁⟩
  · rw [hmember] at hlisted
    rw [createIn, exec_bind_of_error hmember]
    cases creation.parameters <;> simpa using hlisted
  · rw [hmember] at hlisted
    rw [createIn, exec_bind_of_ok hmember]
    cases found with
    | some r => cases creation.parameters <;> simpa using hlisted
    | none =>
      cases hparameters : creation.parameters with
      | error fault =>
        have hfault : (parametersOf creation : Action σ Parameters).exec w₁ =
            (.error (.fault fault), w₁) := by
          rw [parametersOf, hparameters]
          rfl
        simpa [exec_bind_of_error hfault] using hlisted
      | ok parameters =>
        refine hlisted.trans ?_
        simp only [Option.isSome_none, Bool.false_eq_true, if_false]
        rw [exec_bind_of_ok (parametersOf_eq_ok.mpr ⟨hparameters, rfl⟩), List.flatMap_singleton]
        refine fetchOne_accounts (fun _ => rfl) fun i representation hcomes hdata _ => ?_
        obtain rfl := hcomes.asked
        exact enroll_accounts hcomes.purpose hdata hcomes.asked_lt

theorem create_accounts (client : Client σ) (w : World σ) (owner : Ref) (creation : Creation) :
    client.AccountsFor w (client.inquiries (.create owner creation) w)
      ((client.create owner creation).exec w).2 := by
  cases hlacks : creation.lacks? with
  | some argument =>
    rw [create, demand_bind_of_some hlacks]
    simpa [inquiries, asks, creationAsks, hlacks] using AccountsFor.refl w
  | none =>
    rw [create, demand_bind_of_none hlacks, exec_bind_of_ok (exec_get w)]
    cases hfamily : Family.ofOwner? (w.resource owner).kind with
    | none => simpa [inquiries, asks, creationAsks, hlacks, World.listing, hfamily] using
        AccountsFor.refl w
    | some family =>
      simp only [hfamily]
      exact client.createIn_accounts w hfamily hlacks

/-! ## Operations -/

theorem inquiriesOf_catalog (client : Client σ) (w : World σ) (r : Ref) :
    client.inquiriesOf ⟨w, r, .catalog⟩ = w.catalogInquiries r :=
  List.append_nil _

theorem inquiriesOf_link (client : Client σ) (w : World σ) (r : Ref) (relation : Value) :
    client.inquiriesOf ⟨w, r, .link relation⟩ = w.catalogInquiries r :=
  List.append_nil _

/-- A resource after it forgot what was fetched for it. -/
def cleared (x : Resource) : Resource := ((discard x).withMembers .unloaded).withGears .unloaded

/-- One resource of a state forgets what was fetched for it, and nothing else changes. -/
structure Clears (w : World σ) (r : Ref) (w' : World σ) : Prop where
  next : w'.store.next = w.store.next
  logs : w.exchange.Logs w'.exchange
  resource : ∀ r', w'.resource r' = if r' = r then cleared (w.resource r') else w.resource r'

theorem discard_of_ne {x : Resource} (h : x.kind ≠ .connection) : discard x = x := by
  unfold discard
  split
  · exact absurd ‹_› h
  · rfl

theorem clears_discard (w : World σ) (r : Ref) : Clears w r ((w.alter r discard).forget r) where
  next := by simp
  logs := World.forget_logs _ r
  resource r' := by
    rw [World.resource_forget, World.resource_alter_eq rfl]
    split <;> rfl

theorem clears_forget (h : (w.resource r).kind ≠ .connection) : Clears w r (w.forget r) where
  next := World.next_forget
  logs := World.forget_logs w r
  resource r' := by
    rw [World.resource_forget]
    split
    · rename_i he
      rw [cleared, he, discard_of_ne h]
    · rfl

/-- A refresh takes over the representation in the answer, and if there was something to take over
or nothing to ask for, the resource forgets the rest. -/
theorem refresh_accounts (client : Client σ) (w : World σ) (r : Ref) :
    ∃ w₁, client.AccountsFor w (client.inquiries (.refresh r) w) w₁ ∧
      (w₁.resource r).kind = (w.resource r).kind ∧
      (((w.resource r).kind ≠ .connection ∧ ∃ e, (client.refresh r).exec w = (.error e, w₁)) ∨
        ∃ w', (client.refresh r).exec w = (.ok (), w') ∧ Clears w₁ r w') := by
  cases hsource : source? r (w.resource r) with
  | none =>
    refine ⟨w, ?_, rfl, .inr ⟨_, refresh_eq_ok.mpr (.inr ⟨hsource, rfl⟩), clears_discard w r⟩⟩
    simpa [inquiries, asks, hsource] using AccountsFor.refl w
  | some source =>
    obtain ⟨asked, relation, kind⟩ := source
    have hkind : (w.resource r).kind ≠ .connection := by
      intro hkind
      simp [source?, hkind] at hsource
    have hr : r < w.store.next := World.lt_next_of_kind (kind_of_source hsource)
    have hinquiries : client.inquiries (.refresh r) w =
        client.inquiriesOf ⟨w, asked, .follow relation [] false (.update r kind)⟩ := by
      simp [inquiries, asks, hsource]
    have haccept : client.AccountsFor w
        (client.inquiriesOf ⟨w, asked, .follow relation [] false (.update r kind)⟩)
        (exec (client.fetchOne asked relation kind [] >>= fun representation =>
          modify (·.accept r representation)) w).2 := by
      refine fetchOne_accounts (fun _ => rfl) fun i representation hcomes hdata _ => ?_
      refine accept_accounts (.inl ⟨kind, hcomes.purpose⟩) hdata (hcomes.next ▸ hr)
        (fun hroot => ?_) (client.store_outcome i) (.refl _)
      exact absurd ((hcomes.accounts.kinds r hr).symm.trans hroot) hkind
    rw [hinquiries]
    refine ⟨_, haccept, haccept.kinds r hr, ?_⟩
    rcases hfetch : (client.fetchOne asked relation kind []).exec w with ⟨e | representation, w₁⟩
    · refine .inl ⟨hkind, e, ?_⟩
      rw [exec_bind_of_error hfetch, refresh, exec_bind_of_ok (exec_get w)]
      simp only [hsource]
      rw [exec_bind_of_error hfetch]
    · refine .inr ⟨_, refresh_eq_ok.mpr
        (.inl ⟨asked, relation, kind, representation, w₁, hsource, hfetch, rfl⟩), ?_⟩
      have hkinds := haccept.kinds r hr
      rw [exec_bind_of_ok hfetch] at hkinds ⊢
      exact clears_forget (hkinds ▸ hkind)

/-- The inquiries of an operation that is no refresh account for all that it does. -/
theorem step_accounts (client : Client σ) {op : Op} (hop : ∀ r, op ≠ .refresh r) (w : World σ) :
    client.AccountsFor w (client.inquiries op w) (client.step op w).2 := by
  have hstep : (client.step op w).2 = (exec (client.perform op) w).2 := rfl
  rw [hstep]
  cases op with
  | links r =>
    rw [perform, exec_map, inquiries, asks, List.flatMap_singleton, inquiriesOf_catalog]
    exact client.links_accounts w r
  | link r relation =>
    rw [perform, exec_map, entry_snd, inquiries, asks, List.flatMap_singleton, inquiriesOf_link]
    exact client.links_accounts w r
  | hasLink r relation =>
    rw [perform, exec_map, hasLink_snd, inquiries, asks, List.flatMap_singleton,
      inquiriesOf_catalog]
    exact client.links_accounts w r
  | members owner =>
    rw [perform, exec_map]
    exact client.members_accounts w owner
  | member owner name =>
    rw [perform, exec_map, member?_snd]
    exact client.members_accounts w owner
  | hasMember owner name =>
    rw [perform, exec_map, member?_snd]
    exact client.members_accounts w owner
  | create owner creation =>
    rw [perform, exec_map]
    exact client.create_accounts w owner creation
  | destroy r force =>
    rw [perform, exec_map]
    exact client.destroy_accounts w r force
  | refresh r => exact absurd rfl (hop r)
  | user connection =>
    rw [perform, exec_map]
    exact client.user_accounts w connection
  | availableCartridges connection =>
    rw [perform, exec_map]
    exact client.availableCartridges_accounts w connection
  | rename domain id =>
    rw [perform, exec_map]
    exact client.rename_accounts w domain id
  | applicationsOf domain cartridge =>
    rw [perform, exec_map, applicationsOf_snd]
    exact client.members_accounts w domain
  | hasApplicationsOf domain cartridge =>
    rw [perform, exec_map, applicationsOf_snd]
    exact client.members_accounts w domain
  | cartridgeNames domain =>
    rw [perform, exec_map, creationOptions_snd, inquiries, asks, List.flatMap_singleton,
      inquiriesOf_link]
    exact client.links_accounts w domain
  | gearProfiles domain =>
    rw [perform, exec_map, creationOptions_snd, inquiries, asks, List.flatMap_singleton,
      inquiriesOf_link]
    exact client.links_accounts w domain
  | post application event =>
    rw [perform, exec_map]
    exact client.post_accounts w application event
  | gears application =>
    rw [perform, exec_map]
    exact client.gears_accounts w application
  | updateKey key type publicKey =>
    rw [perform, exec_map]
    exact client.updateKey_accounts w key type publicKey
  | setPublicKey key publicKey =>
    rw [perform, exec_map, exec_setPublicKey]
    exact client.updateKey_accounts w key _ publicKey

end Client

end BrokerClient.Hierarchy

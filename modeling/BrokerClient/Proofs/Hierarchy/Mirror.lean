import BrokerClient.Proofs.Hierarchy.Honesty
import BrokerClient.Proofs.Hierarchy.Membership

/-!
# Members that mirror a server

If an honest server keeps the members of an owner, then the members that the owner has loaded are
those that the server holds, in their order. Here is what that means of a state, and how it is kept:
by everything that is only read, by the listing of members, by a member that is enrolled or struck
off just when the server adds or drops its name, and by a refresh of the owner.
-/
namespace BrokerClient.Hierarchy.Client

open Hierarchy.Action

variable {σ : Type}

section Mirrors

variable (client : Client σ) (ledger : Ledger σ) (family : Family)

/-- A resource is the member of a name, and has the link to be destroyed under that name. -/
structure Bears (w : World σ) (name : String) (r : Ref) : Prop where
  name_eq : (w.resource r).name = name
  removable : ∃ catalog, (w.resource r).catalog = some catalog ∧
    client.Removable ledger family name catalog

/-- An owner, and the resource that is asked for its representation, have the links that they need,
and the server holds distinct names. -/
structure Ready (owner : Ref) (w : World σ) : Prop where
  kind : (w.resource owner).kind = family.ownerKind
  stands : client.Stands ledger family w owner
  asks : ∀ asked relation record,
    source? owner (w.resource owner) = some (asked, relation, record) →
    family.ownerSource? = some ((w.resource asked).kind, relation, record) ∧
      client.Stands ledger family w asked
  nodup : (ledger.held w.exchange.server).Nodup

/-- If the members of an owner are loaded, then they are those that the server holds, in order. -/
structure Mirrors (owner : Ref) (w : World σ) : Prop
    extends client.Ready ledger family owner w where
  sound : w.Sound
  items : ∀ refs, (w.resource owner).members.cell.items? = some refs →
    List.Forall₂ (client.Bears ledger family w) (ledger.held w.exchange.server) refs

end Mirrors

variable {client : Client σ} {ledger : Ledger σ} {family : Family} {w w₁ w₂ w' : World σ}
  {owner r : Ref} {name : String}

/-! ## Resources that stay what they are -/

theorem Bears.of_core (h : client.Bears ledger family w name r)
    (hcore : (w'.resource r).core = (w.resource r).core) :
    client.Bears ledger family w' name r where
  name_eq := (congrArg (·.2.1.name) hcore).trans h.name_eq
  removable := by
    obtain ⟨catalog, hcatalog, hremovable⟩ := h.removable
    exact ⟨catalog, (congrArg (·.2.2.2) hcore).trans hcatalog, hremovable⟩

theorem Bears.lt_next (h : client.Bears ledger family w name r) : r < w.store.next := by
  obtain ⟨catalog, hcatalog, -⟩ := h.removable
  exact World.lt_next_of_catalog hcatalog

theorem Bears.fills (h : client.Bears ledger family w name r) (hfills : client.Fills w w') :
    client.Bears ledger family w' name r where
  name_eq := (congrArg Attributes.name (hfills.attributes r h.lt_next)).trans h.name_eq
  removable := by
    obtain ⟨catalog, hcatalog, hremovable⟩ := h.removable
    exact ⟨catalog, hfills.catalog_of_some h.lt_next hcatalog, hremovable⟩

/-- What is made of a record for a name is the member of that name. -/
theorem Bears.of_shows {representation : Representation}
    (h : client.Represents ledger family name representation)
    (hshows : (w.resource r).Shows owner representation) : client.Bears ledger family w name r where
  name_eq := by
    have hname : (w.resource r).name = (Attributes.ofRepresentation representation).name :=
      congrArg (·.2.1.name) hshows
    rw [hname, Attributes.name_ofRepresentation, h.name_eq]
  removable := ⟨_, congrArg (·.2.2.2) hshows, h.removable⟩

theorem Stands.lt_next (h : client.Stands ledger family w r) : r < w.store.next := by
  obtain ⟨-, hkind⟩ | ⟨catalog, hcatalog, -⟩ := h
  · exact World.lt_next_of_kind (by simp [hkind])
  · exact World.lt_next_of_catalog hcatalog

theorem Stands.of_core (h : client.Stands ledger family w r)
    (hcore : (w'.resource r).core = (w.resource r).core) : client.Stands ledger family w' r := by
  have hkind : (w'.resource r).kind = (w.resource r).kind := congrArg (·.2.1.kind) hcore
  have hcatalog : (w'.resource r).catalog = (w.resource r).catalog := congrArg (·.2.2.2) hcore
  rwa [Stands, hkind, hcatalog]

/-- The catalog that is fetched for the root has the links that are asked of it. -/
theorem offers_of_fetchesRoot (hhonest : client.Honest ledger family) {catalog : Catalog}
    (h : client.FetchesRoot w w' catalog) : client.Offers ledger family .connection catalog := by
  obtain ⟨payload, ⟨x, y, response, -, hrequest, -, rfl⟩, hroot⟩ := h
  have hsend : (client.send rootLink [] false).exec { w with exchange := x } =
      (.ok (Response.payload response), { w with exchange := y }) :=
    send_eq_ok.mpr ⟨response, y, hrequest, rfl, rfl⟩
  obtain ⟨-, hanswers⟩ := (ends_of_ok hsend).mp (send_ends hhonest hhonest.root.means _)
  generalize ledger.held _ = names at hanswers
  generalize ledger.held _ = names' at hanswers
  cases hanswers with
  | root hroot' hoffers =>
    obtain rfl := Option.some.inj (hroot.symm.trans hroot')
    exact hoffers

theorem Stands.fills (hhonest : client.Honest ledger family)
    (h : client.Stands ledger family w r) (hfills : client.Fills w w') :
    client.Stands ledger family w' r := by
  have hkind := hfills.kind h.lt_next
  obtain heq | ⟨-, hroot, catalog, hcatalog, hfetches⟩ := hfills.catalog r h.lt_next
  · rwa [Stands, hkind, heq]
  · exact .inr ⟨catalog, hcatalog, by
      rw [hkind, hroot]
      exact offers_of_fetchesRoot hhonest hfetches⟩

/-- Where a resource is represented depends on its kind and its owner alone. -/
theorem source?_congr {x y : Resource} (hkind : y.kind = x.kind) (howner : y.owner = x.owner)
    (r : Ref) : source? r y = source? r x := by
  rw [source?, hkind, howner, source?]

namespace Ready

theorem lt_next (h : client.Ready ledger family owner w) : owner < w.store.next := h.stands.lt_next

theorem ofOwner? (h : client.Ready ledger family owner w) :
    Family.ofOwner? (w.resource owner).kind = some family := by
  rw [h.kind, Family.ofOwner?_ownerKind]

/-- Nothing that an owner needs is lost if only the owner itself gets other links. -/
theorem of_stands (h : client.Ready ledger family owner w)
    (hstands : client.Stands ledger family w' owner)
    (hkind : (w'.resource owner).kind = (w.resource owner).kind)
    (howner : (w'.resource owner).owner = (w.resource owner).owner)
    (hcore : ∀ r < w.store.next, r ≠ owner → (w'.resource r).core = (w.resource r).core)
    (hnodup : (ledger.held w'.exchange.server).Nodup) : client.Ready ledger family owner w' where
  kind := hkind.trans h.kind
  stands := hstands
  asks asked relation record hsource := by
    rw [source?_congr hkind howner] at hsource
    obtain ⟨hfamily, hasked⟩ := h.asks asked relation record hsource
    by_cases he : asked = owner
    · subst he
      exact ⟨hkind ▸ hfamily, hstands⟩
    · have hsame := hcore asked hasked.lt_next he
      have hkind' : (w'.resource asked).kind = (w.resource asked).kind :=
        congrArg (·.2.1.kind) hsame
      exact ⟨hkind' ▸ hfamily, hasked.of_core hsame⟩
  nodup := hnodup

theorem of_core (h : client.Ready ledger family owner w)
    (hcore : ∀ r < w.store.next, (w'.resource r).core = (w.resource r).core)
    (hnodup : (ledger.held w'.exchange.server).Nodup) : client.Ready ledger family owner w' :=
  h.of_stands (h.stands.of_core (hcore owner h.lt_next))
    (congrArg (·.2.1.kind) (hcore owner h.lt_next)) (congrArg (·.1) (hcore owner h.lt_next))
    (fun r hr _ => hcore r hr) hnodup

theorem fills (hhonest : client.Honest ledger family) (h : client.Ready ledger family owner w)
    (hfills : client.Fills w w') (hnodup : (ledger.held w'.exchange.server).Nodup) :
    client.Ready ledger family owner w' where
  kind := (hfills.kind h.lt_next).trans h.kind
  stands := h.stands.fills hhonest hfills
  asks asked relation record hsource := by
    rw [source?_congr (hfills.kind h.lt_next) (hfills.owner owner h.lt_next)] at hsource
    obtain ⟨hfamily, hstands⟩ := h.asks asked relation record hsource
    rw [hfills.kind hstands.lt_next]
    exact ⟨hfamily, hstands.fills hhonest hfills⟩
  nodup := hnodup

end Ready

/-- What was loaded is still mirrored if nothing was listed and the names are the same. -/
theorem Mirrors.rests (hhonest : client.Honest ledger family)
    (h : client.Mirrors ledger family owner w) (hrests : client.Rests ledger w w') :
    client.Mirrors ledger family owner w' where
  toReady := h.toReady.fills hhonest hrests.fills (hrests.held ▸ h.nodup)
  sound := h.sound.fills hrests.fills
  items refs hrefs := by
    rw [hrests.members] at hrefs
    rw [hrests.held]
    exact (h.items refs hrefs).imp fun _ _ hbears => hbears.fills hrests.fills

/-! ## Members are listed -/

theorem core_loading (w : World σ) (owner r : Ref) :
    (((World.members owner).loading w).resource r).core = (w.resource r).core :=
  World.resource_alter_congr Resource.core (Resource.core_withMembers .loading) w owner r

/-- What is listed for an owner are the names that the server holds. -/
theorem fetchList_ends (hhonest : client.Honest ledger family)
    (h : client.Ready ledger family owner w) :
    (client.fetchList owner family.listRelation family.recordKind).Ends w
      (fun representations w' => client.Reads w w' ∧
        ledger.held w'.exchange.server = ledger.held w.exchange.server ∧
        List.Forall₂ (client.Represents ledger family) (ledger.held w.exchange.server)
          (representations.filter family.admits))
      (fun e w' => client.Rests ledger w w' ∧ client.Refused w w' e) := by
  rw [fetchList_eq]
  refine (expect_ends hhonest h.stands (fun catalog hoffers => hoffers.list h.kind)
    (fun link hleads => hleads.means) fun hanswers => ?_).mono ?_ ?_
  · cases hanswers with
    | list hlist => exact ⟨_, hlist⟩
  · rintro representations w' ⟨hreads, payload, hpayload, hanswers⟩
    generalize ledger.held w'.exchange.server = names at hanswers
    cases hanswers with
    | list hlist hnames =>
      obtain rfl := Option.some.inj (hpayload.symm.trans hlist)
      exact ⟨hreads, rfl, hnames⟩
  · rintro e w' ⟨hrests, hrefused | ⟨link, -, hleads, hcheck⟩⟩
    · exact ⟨hrests, hrefused⟩
    · rw [hleads.passes] at hcheck
      cases hcheck

theorem bears_of_shows {names : List String} {shown : List Representation} {refs : List Ref}
    (hnames : List.Forall₂ (client.Represents ledger family) names shown)
    (hrefs : List.Forall₂ (fun r representation => (w.resource r).Shows owner representation) refs
      shown) : List.Forall₂ (client.Bears ledger family w) names refs := by
  induction hnames generalizing refs with
  | nil =>
    cases hrefs
    exact .nil
  | cons hname _ ih =>
    cases hrefs with
    | cons hr hrest => exact .cons (.of_shows hname hr) (ih hrest)

/-- What is fetched for an owner are the members that the server holds. -/
theorem fetchMembers_ends (hhonest : client.Honest ledger family)
    (h : client.Ready ledger family owner w) :
    (client.fetchMembers family owner).Ends w
      (fun refs w' => client.Fills w w' ∧
        ledger.held w'.exchange.server = ledger.held w.exchange.server ∧
        List.Forall₂ (client.Bears ledger family w') (ledger.held w.exchange.server) refs)
      (fun e w' => client.Rests ledger w w' ∧ client.Refused w w' e) := by
  rw [fetchMembers, ends_bind]
  refine (fetchList_ends hhonest h).mono ?_ fun _ _ => id
  rintro representations w₁ ⟨hreads, hheld, hnames⟩
  refine (ends_of_ok (exec_modifyGet _ w₁)).mpr ⟨?_, ?_, ?_⟩
  · exact hreads.fills.trans (client.adoptAll_fills w₁ owner _)
  · exact (congrArg ledger.held (w₁.adoptAll_logs owner _).server).trans hheld
  · exact bears_of_shows hnames
      ((w₁.resource_adoptAll owner _).imp fun _ _ hr => congrArg Resource.core hr)

/-- An owner answers with the members that the server holds, and mirrors them from then on. -/
theorem members_ends (hhonest : client.Honest ledger family)
    (h : client.Mirrors ledger family owner w) :
    (client.members owner).Ends w
      (fun refs w' => client.Mirrors ledger family owner w' ∧
        ledger.held w'.exchange.server = ledger.held w.exchange.server ∧
        (w'.resource owner).members.cell.items? = some refs)
      (fun e w' => client.Mirrors ledger family owner w' ∧
        ledger.held w'.exchange.server = ledger.held w.exchange.server ∧
        client.Refused w w' e) := by
  have hfamily := h.ofOwner?
  have hready : client.Ready ledger family owner ((World.members owner).loading w) :=
    h.toReady.of_core (fun r _ => core_loading w owner r) h.nodup
  have hfetch := fetchMembers_ends hhonest hready
  rcases hmembers : (client.members owner).exec w with ⟨e | refs, w'⟩
  · rw [ends_of_error hmembers]
    have hfills := (client.members_fills owner).of_eq hmembers
    obtain ⟨hnone, w₁, herror, rfl⟩ := (members_eq_error hfamily).mp hmembers
    obtain ⟨hrests, hrefused⟩ := (ends_of_error herror).mp hfetch
    have hheld : ledger.held ((World.members owner).fill .unloaded w₁).exchange.server =
        ledger.held w.exchange.server := hrests.held
    refine ⟨⟨h.toReady.fills hhonest hfills (hheld ▸ h.nodup), h.sound.fills hfills,
      fun refs hrefs => ?_⟩, hheld, hrefused.mono ((Exchange.Continues.refl _).note _) (.refl _)⟩
    rw [World.fill_members,
      World.resource_alter_self (hready.lt_next.trans_le hrests.fills.next)] at hrefs
    cases hrefs
  · rw [ends_of_ok hmembers]
    have hitems := items_of_members hfamily hmembers
    have hfills := (client.members_fills owner).of_eq hmembers
    obtain ⟨hsome, rfl⟩ | ⟨hnone, w₁, hok, rfl⟩ := (members_eq_ok hfamily).mp hmembers
    · exact ⟨h, rfl, hitems⟩
    · obtain ⟨-, hheld, hbears⟩ := (ends_of_ok hok).mp hfetch
      have hheld' : ledger.held ((World.members owner).fill (.loaded refs) w₁).exchange.server =
          ledger.held w.exchange.server := hheld
      have hcore := World.resource_alter_congr Resource.core
        (Resource.core_withMembers (.loaded refs)) w₁ owner
      refine ⟨⟨h.toReady.fills hhonest hfills (hheld' ▸ h.nodup), h.sound.fills hfills,
        fun refs' hrefs => ?_⟩, hheld', hitems⟩
      obtain rfl := Option.some.inj (hitems.symm.trans hrefs)
      rw [hheld']
      exact hbears.imp fun name r hr => hr.of_core (hcore r)

/-! ## Members are looked up -/

theorem map_name_of_bears {names : List String} {refs : List Ref}
    (h : List.Forall₂ (client.Bears ledger family w) names refs) :
    refs.map (fun r => (w.resource r).name) = names := by
  induction h with
  | nil => rfl
  | cons hr _ ih => rw [List.map_cons, hr.name_eq, ih]

/-- A member is found if and only if the server holds its name. -/
theorem member?_ends (hhonest : client.Honest ledger family)
    (h : client.Mirrors ledger family owner w) (v : Value) :
    (client.member? owner v).Ends w
      (fun found w' => client.Mirrors ledger family owner w' ∧
        ledger.held w'.exchange.server = ledger.held w.exchange.server ∧
        (∃ refs, (w'.resource owner).members.cell.items? = some refs) ∧
        found.map (fun r => (w'.resource r).name) =
          (ledger.held w.exchange.server).find? fun name => v.asText? == some name)
      (fun e w' => client.Mirrors ledger family owner w' ∧
        ledger.held w'.exchange.server = ledger.held w.exchange.server ∧
        client.Refused w w' e) := by
  rw [member?, ends_bind]
  refine (members_ends hhonest h).mono ?_ fun _ _ => id
  rintro refs w₁ ⟨hmirrors, hheld, hitems⟩
  rw [ends_get_bind]
  refine (ends_of_ok (exec_pure _ w₁)).mpr ⟨hmirrors, hheld, ⟨refs, hitems⟩, ?_⟩
  rw [← hheld, ← map_name_of_bears (hmirrors.items refs hitems), List.find?_map]
  rfl

/-! ## A member is created -/

/-- What is added for an owner is the name that was asked for, which was not held before. -/
theorem fetchAdded_ends (hhonest : client.Honest ledger family)
    (h : client.Ready ledger family owner w) {creation : Creation} {parameters : Parameters}
    (hfamily : creation.family = family) (hname : creation.name.asText? = some name)
    (hparameters : creation.parameters = .ok parameters) :
    (client.fetchOne owner family.addRelation family.recordKind parameters).Ends w
      (fun representation w' => client.Reads w w' ∧ name ∉ ledger.held w.exchange.server ∧
        ledger.held w'.exchange.server = ledger.held w.exchange.server ++ [name] ∧
        client.Represents ledger family name representation)
      (fun e w' => client.Rests ledger w w' ∧
        (client.Refused w w' e ∨ ∃ link, HasLink w' owner family.addRelation link ∧
          Request.check link parameters = .error e)) := by
  rw [fetchOne_eq]
  refine (expect_ends hhonest h.stands (fun catalog hoffers => hoffers.add h.kind)
    (fun link hadds => hadds creation name parameters hfamily hname hparameters)
    fun hanswers => ?_).mono ?_ ?_
  · cases hanswers with
    | add _ hrecord => exact ⟨_, hrecord⟩
  · rintro representation w' ⟨hreads, payload, hpayload, hanswers⟩
    generalize ledger.held w'.exchange.server = names at hanswers
    cases hanswers with
    | add hnew hrecord hrepresents =>
      obtain rfl := Option.some.inj (hpayload.symm.trans hrecord)
      exact ⟨hreads, hnew, rfl, hrepresents⟩
  · rintro e w' ⟨hrests, hrefused | ⟨link, hlink, -, hcheck⟩⟩
    · exact ⟨hrests, .inl hrefused⟩
    · exact ⟨hrests, .inr ⟨link, hlink, hcheck⟩⟩

/-- The member that was added is enrolled where the server has put its name. -/
theorem Mirrors.enroll (hhonest : client.Honest ledger family)
    (h : client.Mirrors ledger family owner w) {refs : List Ref}
    (hrefs : (w.resource owner).members.cell.items? = some refs) (hreads : client.Reads w w₁)
    {creation : Creation} (hname : creation.name.asText? = some name)
    (hnew : name ∉ ledger.held w.exchange.server)
    (hheld : ledger.held w₁.exchange.server = ledger.held w.exchange.server ++ [name])
    {representation : Representation} (hkind : representation.kind = family.recordKind)
    (hrepresents : client.Represents ledger family name representation) :
    client.Mirrors ledger family owner (w₁.enroll family owner representation) ∧
      (w₁.enroll family owner representation).Member owner w₁.store.next ∧
      ((w₁.enroll family owner representation).resource w₁.store.next).name = name := by
  have hready₁ : client.Ready ledger family owner w₁ := by
    refine h.toReady.fills hhonest hreads.fills (hheld ▸ ?_)
    refine h.nodup.append (List.nodup_singleton _) ?_
    rwa [List.disjoint_singleton]
  have hbears := (h.items refs hrefs).imp fun _ _ hr => hr.fills hreads.fills
  have hrefs₁ : (w₁.resource owner).members.cell.items? = some refs := by
    rw [hreads.members, hrefs]
  have hcommits : Commits (.create owner creation) (.ok (.resource w₁.store.next)) w₁
      (w₁.enroll family owner representation) := by
    refine .created hready₁.ofOwner? hrefs₁ (fun r hr hsame => hnew ?_) hkind
    have hr' := List.mem_map_of_mem (f := fun r => (w₁.resource r).name) hr
    rw [map_name_of_bears hbears] at hr'
    rwa [← Option.some.inj (hsame.symm.trans hname)]
  have hsound := (h.sound.fills hreads.fills).commits hcommits
  have hserver := congrArg ledger.held hcommits.logs.server
  have hcore (r : Ref) (hr : r < w₁.store.next) :
      ((w₁.enroll family owner representation).resource r).core = (w₁.resource r).core := by
    rw [World.resource_enroll hready₁.lt_next, if_neg (Nat.ne_of_lt hr)]
    split <;> rfl
  have hmade : (w₁.enroll family owner representation).resource w₁.store.next =
      .ofRepresentation owner representation := by
    rw [World.resource_enroll hready₁.lt_next, if_pos rfl]
  have hitems : ((w₁.enroll family owner representation).resource owner).members.cell.items? =
      some (refs ++ [w₁.store.next]) := by
    rw [World.resource_enroll hready₁.lt_next, if_neg (Nat.ne_of_lt hready₁.lt_next), if_pos rfl,
      Resource.withMembers, Lazy.Cell.items?_edit, hrefs₁]
    rfl
  have hlast := Bears.of_shows hrepresents (congrArg Resource.core hmade)
  refine ⟨⟨hready₁.of_core hcore (hserver ▸ hready₁.nodup), hsound, fun refs' hrefs' => ?_⟩,
    ⟨_, hitems, List.mem_append_right _ (List.mem_singleton_self _)⟩, hlast.name_eq⟩
  obtain rfl := Option.some.inj (hitems.symm.trans hrefs')
  rw [hserver, hheld]
  exact List.rel_append (hbears.imp fun _ _ hr => hr.of_core (hcore _ hr.lt_next))
    (.cons hlast .nil)

/-! ## A member is destroyed -/

theorem erase_bears {names : List String} {refs : List Ref}
    (h : List.Forall₂ (client.Bears ledger family w) names refs) (hnodup : names.Nodup)
    (hr : r ∈ refs) :
    List.Forall₂ (client.Bears ledger family w) (names.erase (w.resource r).name)
      (refs.erase r) := by
  induction h with
  | nil => cases hr
  | @cons name s names refs hs hrest ih =>
    by_cases he : s = r
    · subst he
      rw [hs.name_eq, List.erase_cons_head, List.erase_cons_head]
      exact hrest
    · have hr' : r ∈ refs := (List.mem_cons.mp hr).resolve_left (Ne.symm he)
      have hmem : (w.resource r).name ∈ names := by
        rw [← map_name_of_bears hrest]
        exact List.mem_map_of_mem hr'
      have hne : name ≠ (w.resource r).name := fun hsame =>
        (List.nodup_cons.mp hnodup).1 (hsame ▸ hmem)
      rw [List.erase_cons_tail (by simpa using hne), List.erase_cons_tail (by simpa using he)]
      exact .cons hs (ih (List.nodup_cons.mp hnodup).2 hr')

/-- A destroyed member is struck off where the server has dropped its name. -/
theorem Mirrors.strike (hhonest : client.Honest ledger family)
    (h : client.Mirrors ledger family owner w) {refs : List Ref}
    (hrefs : (w.resource owner).members.cell.items? = some refs) (hr : r ∈ refs)
    (hreads : client.Reads w w₁)
    (hheld : ledger.held w₁.exchange.server =
      (ledger.held w.exchange.server).erase (w.resource r).name) :
    client.Mirrors ledger family owner (w₁.strike r) ∧
      ledger.held (w₁.strike r).exchange.server = ledger.held w₁.exchange.server ∧
      ((w₁.strike r).resource owner).members.cell.items? = some (refs.erase r) := by
  have hready₁ : client.Ready ledger family owner w₁ :=
    h.toReady.fills hhonest hreads.fills (hheld ▸ h.nodup.erase _)
  have hbears := (h.items refs hrefs).imp fun _ _ hr => hr.fills hreads.fills
  have hlt := (h.sound owner refs hrefs).lt_next r hr
  have howner : (w₁.resource r).owner = owner :=
    (hreads.fills.owner r hlt).trans ((h.sound owner refs hrefs).owner_eq r hr)
  have hname : (w₁.resource r).name = (w.resource r).name :=
    congrArg Attributes.name (hreads.fills.attributes r hlt)
  have hcommits := Commits.destroyed r .null w₁
  have hserver := congrArg ledger.held hcommits.logs.server
  have hcore (s : Ref) : ((w₁.strike r).resource s).core = (w₁.resource s).core := by
    rw [World.resource_strike]
    split <;> rfl
  have hitems : ((w₁.strike r).resource owner).members.cell.items? = some (refs.erase r) := by
    rw [World.resource_strike, howner, if_pos rfl, Resource.withMembers, Lazy.Cell.remove,
      Lazy.Cell.items?_edit, hreads.members, hrefs]
    rfl
  refine ⟨⟨hready₁.of_core (fun s _ => hcore s) (hserver ▸ hready₁.nodup),
    (h.sound.fills hreads.fills).commits hcommits, fun refs' hrefs' => ?_⟩, hserver, hitems⟩
  obtain rfl := Option.some.inj (hitems.symm.trans hrefs')
  rw [hserver, hheld, ← hname]
  exact (erase_bears hbears h.nodup hr).imp fun _ _ hs => hs.of_core (hcore _)

/-- A member bears its own name, which is one of those that are held. -/
theorem bears_of_mem {names : List String} {refs : List Ref}
    (h : List.Forall₂ (client.Bears ledger family w) names refs) (hr : r ∈ refs) :
    client.Bears ledger family w (w.resource r).name r := by
  induction h with
  | nil => cases hr
  | cons hs _ ih =>
    obtain rfl | hr := List.mem_cons.mp hr
    · rwa [hs.name_eq]
    · exact ih hr

/-- The call that destroys a member has the server drop its name. -/
theorem fetchRemoved_ends (hhonest : client.Honest ledger family)
    (hbears : client.Bears ledger family w name r)
    (hkind : (w.resource r).kind = family.memberKind) (force : Value) :
    (client.follow r Relation.delete (destruction force (w.resource r).attributes).1
      (destruction force (w.resource r).attributes).2).Ends w
      (fun _ w' => client.Reads w w' ∧ name ∈ ledger.held w.exchange.server ∧
        ledger.held w'.exchange.server = (ledger.held w.exchange.server).erase name)
      (fun e w' => client.Rests ledger w w' ∧
        (client.Refused w w' e ∨ ∃ link, HasLink w r Relation.delete link ∧
          Request.check link (destruction force (w.resource r).attributes).1 = .error e)) := by
  obtain ⟨catalog, hcatalog, link, hfind, hmeans⟩ := hbears.removable
  have hlink : (client.link r Relation.delete).exec w = (.ok link, w) :=
    link_eq_ok.mpr ⟨catalog, links_of_some hcatalog, hfind⟩
  rw [follow, ends_bind, ends_of_ok hlink]
  refine (send_ends hhonest (hmeans force _ hkind) w).within (client.send_fills _ _ _) ?_ ?_
  · rintro payload w' hfills ⟨hstore, hanswers⟩
    generalize ledger.held w'.exchange.server = names at hanswers
    cases hanswers with
    | remove hmem => exact ⟨.of_store hfills hstore, hmem, rfl⟩
  · rintro e w' - ⟨hrests, hrefused | hcheck⟩
    · exact ⟨hrests, .inl hrefused⟩
    · exact ⟨hrests, .inr ⟨link, ⟨catalog, hcatalog, hfind⟩, hcheck⟩⟩

/-! ## The owner is refreshed -/

/-- Where nothing is loaded, there is nothing to mirror. -/
theorem Mirrors.of_unlisted (h : client.Ready ledger family owner w) (hsound : w.Sound)
    (hnone : (w.resource owner).members.cell.items? = none) :
    client.Mirrors ledger family owner w where
  toReady := h
  sound := hsound
  items refs hrefs := by
    rw [hnone] at hrefs
    cases hrefs

/-- What represents an owner has the links that it needs. -/
theorem fetchOwner_ends (hhonest : client.Honest ledger family)
    (h : client.Ready ledger family owner w) {asked : Ref} {relation : String} {record : RecordKind}
    (hsource : source? owner (w.resource owner) = some (asked, relation, record)) :
    (client.fetchOne asked relation record []).Ends w
      (fun representation w' => client.Rests ledger w w' ∧
        client.Offers ledger family family.ownerKind (.ofLinks representation.common.links))
      (fun e w' => client.Rests ledger w w' ∧ client.Refused w w' e) := by
  obtain ⟨hfamily, hstands⟩ := h.asks asked relation record hsource
  rw [fetchOne_eq]
  refine (expect_ends hhonest hstands (fun catalog hoffers => hoffers.owner relation record hfamily)
    (fun link hleads => hleads.means) fun hanswers => ?_).mono ?_ ?_
  · cases hanswers with
    | owner hsource' hrecord =>
      obtain rfl := congrArg (·.2.2) (Option.some.inj (hfamily.symm.trans hsource'))
      exact ⟨_, hrecord⟩
  · rintro representation w' ⟨hreads, payload, hpayload, hanswers⟩
    generalize hheld : ledger.held w'.exchange.server = names at hanswers
    cases hanswers with
    | owner hsource' hrecord hoffers =>
      obtain rfl := congrArg (·.2.2) (Option.some.inj (hfamily.symm.trans hsource'))
      obtain rfl := Option.some.inj (hpayload.symm.trans hrecord)
      exact ⟨⟨hreads, hheld⟩, hoffers⟩
  · rintro e w' ⟨hrests, hrefused | ⟨link, -, hleads, hcheck⟩⟩
    · exact ⟨hrests, hrefused⟩
    · rw [hleads.passes] at hcheck
      cases hcheck

theorem items_forget : ((w.forget owner).resource owner).members.cell.items? = none := by
  rw [World.resource_forget, if_pos rfl]
  rfl

/-- An owner takes over its representation and the links in it. -/
theorem Mirrors.accepted (hhonest : client.Honest ledger family)
    (h : client.Mirrors ledger family owner w) (hrests : client.Rests ledger w w₁)
    {representation : Representation}
    (hoffers : client.Offers ledger family family.ownerKind
      (.ofLinks representation.common.links)) :
    client.Mirrors ledger family owner ((w₁.accept owner representation).forget owner) := by
  have hmirrors := h.rests hhonest hrests
  have hlt := hmirrors.lt_next
  have hcommits := Commits.refreshed hlt representation
  have hserver := congrArg ledger.held hcommits.logs.server
  have hself : ((w₁.accept owner representation).forget owner).resource owner =
      (((w₁.resource owner).accept representation).withMembers .unloaded).withGears .unloaded := by
    rw [World.resource_forget, if_pos rfl, World.resource_accept hlt, if_pos rfl]
  have hkind : (((w₁.accept owner representation).forget owner).resource owner).kind =
      (w₁.resource owner).kind := by
    rw [hself]
    exact kind_accept _ _
  have hstands : client.Stands ledger family ((w₁.accept owner representation).forget owner)
      owner := by
    refine .inr ⟨.ofLinks representation.common.links, by rw [hself]; rfl, ?_⟩
    rw [hkind, hmirrors.kind]
    exact hoffers
  refine .of_unlisted (hmirrors.of_stands hstands hkind (by rw [hself]; rfl) (fun r _ hne => ?_)
    (hserver ▸ hmirrors.nodup)) (hmirrors.sound.commits hcommits) items_forget
  rw [World.resource_forget, if_neg hne, World.resource_accept hlt, if_neg hne]

/-- A connection has no representation; it forgets its links. -/
theorem Mirrors.discarded (h : client.Mirrors ledger family owner w)
    (hsource : source? owner (w.resource owner) = none) :
    client.Mirrors ledger family owner ((w.alter owner discard).forget owner) := by
  have hroot : (w.resource owner).kind = .connection := by
    have hkind := h.kind
    cases family <;> simp_all [source?, Family.ownerKind]
  have hcommits := Commits.discarded owner w
  have hserver := congrArg ledger.held hcommits.logs.server
  have hself : ((w.alter owner discard).forget owner).resource owner =
      ((discard (w.resource owner)).withMembers .unloaded).withGears .unloaded := by
    rw [World.resource_forget, if_pos rfl, World.resource_alter_self h.lt_next]
  have hdiscard : discard (w.resource owner) =
      { w.resource owner with
        catalog := none, attributes := (w.resource owner).attributes.withUser none } := by
    simp only [discard, hroot]
  have hkind : (((w.alter owner discard).forget owner).resource owner).kind =
      (w.resource owner).kind := by
    rw [hself, hdiscard]
    exact Attributes.kind_withUser _ _
  refine .of_unlisted (h.of_stands (.inl ⟨by rw [hself, hdiscard]; rfl, hkind.trans hroot⟩) hkind
    (by rw [hself, hdiscard]; rfl) (fun r _ hne => ?_) (hserver ▸ h.nodup))
    (h.sound.commits hcommits) items_forget
  rw [World.resource_forget, if_neg hne, World.resource_alter_of_ne (Ne.symm hne)]

end BrokerClient.Hierarchy.Client

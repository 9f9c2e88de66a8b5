import BrokerClient.Proofs.Hierarchy.Fetching
import Mathlib.Data.List.Basic

/-!
# Loading only fills

The members of an owner are made of the records in the answer to one request, with numbers that
follow each other. While they are fetched the owner is marked as loading; no request depends on
that mark, and it is gone afterwards, whether the members came or not. So an owner either has its
members from then on, or is as it was.
-/
namespace BrokerClient.Hierarchy

open Hierarchy.Action

variable {σ : Type} {client : Client σ} {w w' : World σ} {owner : Ref} {family : Family}

namespace World

theorem lt_next_of_owner (hfamily : Family.ofOwner? (w.resource owner).kind = some family) :
    owner < w.store.next := by
  refine lt_next_of_kind fun hbare => ?_
  rw [hbare] at hfamily
  cases hfamily

theorem adoptAll_cons (w : World σ) (owner : Ref) (representation : Representation)
    (rest : List Representation) :
    w.adoptAll owner (representation :: rest) =
      (w.store.next :: ((w.adopt owner representation).2.adoptAll owner rest).1,
        ((w.adopt owner representation).2.adoptAll owner rest).2) := by
  simp [adoptAll]

/-- The resources that are made of representations have numbers that follow each other. -/
theorem adoptAll_refs (w : World σ) (owner : Ref) (representations : List Representation) :
    (w.adoptAll owner representations).1 = List.range' w.store.next representations.length := by
  induction representations generalizing w with
  | nil => rfl
  | cons representation rest ih =>
    rw [adoptAll_cons, ih, next_adopt, List.length_cons, List.range'_succ]

theorem next_adoptAll (w : World σ) (owner : Ref) (representations : List Representation) :
    (w.adoptAll owner representations).2.store.next =
      w.store.next + representations.length := by
  induction representations generalizing w with
  | nil => rfl
  | cons representation rest ih =>
    rw [adoptAll_cons, ih, next_adopt, List.length_cons, Nat.add_assoc, Nat.add_comm 1]

theorem resource_adoptAll_of_lt {r : Ref} (h : r < w.store.next)
    (representations : List Representation) :
    (w.adoptAll owner representations).2.resource r = w.resource r := by
  induction representations generalizing w with
  | nil => rfl
  | cons representation rest ih =>
    rw [adoptAll_cons, ih (by rw [next_adopt]; exact Nat.lt_succ_of_lt h),
      resource_adopt_of_lt h]

/-- Each of them is made of its own representation. -/
theorem resource_adoptAll (w : World σ) (owner : Ref) (representations : List Representation) :
    List.Forall₂ (fun r representation =>
        (w.adoptAll owner representations).2.resource r = .ofRepresentation owner representation)
      (w.adoptAll owner representations).1 representations := by
  induction representations generalizing w with
  | nil => exact .nil
  | cons representation rest ih =>
    simp only [adoptAll_cons]
    refine .cons ?_ (ih _)
    rw [resource_adoptAll_of_lt (by rw [next_adopt]; exact Nat.lt_succ_self _),
      resource_adopt_next]

theorem adoptAll_logs (w : World σ) (owner : Ref) (representations : List Representation) :
    w.exchange.Logs (w.adoptAll owner representations).2.exchange := by
  induction representations generalizing w with
  | nil => exact .refl _
  | cons representation rest ih =>
    rw [adoptAll_cons]
    exact (w.warn_logs _ _).trans (ih (w.adopt owner representation).2)

end World

namespace Client

theorem adopt_fills (client : Client σ) (w : World σ) (owner : Ref)
    (representation : Representation) : client.Fills w (w.adopt owner representation).2 := by
  refine .of_resource (w.warn_logs _ _).continues (by simp) (fun r hr => ?_)
    fun r hr hle => ⟨owner, representation, ?_⟩
  · exact World.resource_adopt_of_lt hr owner representation
  · rw [World.next_adopt] at hr
    obtain rfl := Nat.le_antisymm (Nat.le_of_lt_succ hr) hle
    exact w.resource_adopt_next owner representation

theorem adoptAll_fills (client : Client σ) (w : World σ) (owner : Ref)
    (representations : List Representation) :
    client.Fills w (w.adoptAll owner representations).2 := by
  induction representations generalizing w with
  | nil => exact .refl w
  | cons representation rest ih =>
    rw [World.adoptAll_cons]
    exact (client.adopt_fills w owner representation).trans (ih _)

/-! ## Members -/

theorem fetchMembers_fills (client : Client σ) (family : Family) (owner : Ref) :
    (client.fetchMembers family owner).Within client.Fills := by
  refine Within.bind Fills.trans (client.fetchList_fills _ _ _) fun representations w => ?_
  exact client.adoptAll_fills w owner _

theorem fetchMembers_eq_ok {refs : List Ref} :
    (client.fetchMembers family owner).exec w = (.ok refs, w') ↔
      ∃ representations w₁,
        (client.fetchList owner family.listRelation family.recordKind).exec w =
          (.ok representations, w₁) ∧
        w₁.adoptAll owner (representations.filter family.admits) = (refs, w') := by
  rw [fetchMembers, exec_bind_eq_ok]
  simp [Prod.ext_iff]

/-- The resources that are made of the records in an answer are what it lists. -/
theorem lists_of_adoptAll {representations : List Representation} {w₁ : World σ} {refs : List Ref}
    (hfamily : Family.ofOwner? (w.resource owner).kind = some family)
    (hlist : (client.fetchList owner family.listRelation family.recordKind).exec w =
      (.ok representations, w₁))
    (hadopt : w₁.adoptAll owner (representations.filter family.admits) = (refs, w')) :
    client.Lists w w' owner family representations refs := by
  have hfills := (client.fetchList_fills owner family.listRelation family.recordKind).of_eq hlist
  rw [fetchList_eq] at hlist
  obtain ⟨catalog, link, payload, hcatalog, hfind, hfetched, hview⟩ := fetched_of_expect hlist
  have hadopts := client.adoptAll_fills w₁ owner (representations.filter family.admits)
  have hrefs := w₁.adoptAll_refs owner (representations.filter family.admits)
  have hnext := w₁.next_adoptAll owner (representations.filter family.admits)
  have hshows := w₁.resource_adoptAll owner (representations.filter family.admits)
  rw [hadopt] at hadopts hrefs hnext hshows
  subst hrefs
  have hkind := (hfills.trans hadopts).kind (World.lt_next_of_owner hfamily)
  refine ⟨by rw [hkind, hfamily], ⟨catalog, link, payload, ?_, hfind,
    hfetched.mono (.refl _) hadopts.exchange, hview⟩, fun r hr => ?_, ?_, ?_⟩
  · exact hadopts.catalog_of_some (World.lt_next_of_catalog hcatalog) hcatalog
  · obtain ⟨hle, hlt⟩ := List.mem_range'_1.mp hr
    exact ⟨hfills.next.trans hle, hnext ▸ hlt⟩
  · exact List.nodup_range'
  · exact hshows.imp fun r representation hr => congrArg Resource.core hr

/-- The members that were fetched are those that the answer to the request lists. -/
theorem lists_of_fetchMembers {refs : List Ref}
    (hfamily : Family.ofOwner? (w.resource owner).kind = some family)
    (h : (client.fetchMembers family owner).exec w = (.ok refs, w')) :
    ∃ representations, client.Lists w w' owner family representations refs := by
  obtain ⟨representations, w₁, hlist, hadopt⟩ := fetchMembers_eq_ok.mp h
  exact ⟨representations, lists_of_adoptAll hfamily hlist hadopt⟩

theorem loading_members_keeps (client : Client σ)
    (hnone : (w.resource owner).members.cell.items? = none) :
    client.Keeps w ((World.members owner).loading w) :=
  ((Keeps.refl w).fill_members hnone (by simp [Lazy.Cell.items?])).trans (.note _ _)

/-- Once their place is filled or emptied, no mark of the loading of members is left. -/
theorem Keeps.fills_of_loading_members {cell : Lazy.Cell Ref}
    (h : client.Keeps w ((World.members owner).fill cell w')) (hcell : cell ≠ .loading)
    (h' : client.Fills ((World.members owner).loading w) w') :
    client.Fills w ((World.members owner).fill cell w') where
  toKeeps := h
  idle_members r hr := by
    rw [World.fill_members] at hr
    by_cases he : owner = r
    · subst he
      obtain hlt | hle := Nat.lt_or_ge owner w'.store.next
      · rw [World.resource_alter_self hlt] at hr
        exact absurd hr hcell
      · rw [World.resource_of_next_le (by rwa [World.next_alter])] at hr
        cases hr
    · rw [World.resource_alter_of_ne he] at hr
      rw [← World.resource_alter_of_ne he w (·.withMembers .loading)]
      exact h'.idle_members r hr
  idle_gears r hr := by
    have hgears (w : World σ) (cell : Lazy.Cell Ref) :=
      World.resource_alter_congr (·.gears.cell) (f := (·.withMembers cell)) (fun _ => rfl) w owner r
    exact (hgears w .loading).symm.trans (h'.idle_gears r ((hgears w' cell).symm.trans hr))

theorem members_of_not_owner (hfamily : Family.ofOwner? (w.resource owner).kind = none) :
    (client.members owner).exec w = (.ok [], w) := by
  rw [members, exec_bind_of_ok (exec_get w)]
  simp only [hfamily, exec_pure]

theorem members_of_owner (hfamily : Family.ofOwner? (w.resource owner).kind = some family) :
    (client.members owner).exec w =
      Lazy.load (World.members owner) (client.fetchMembers family owner).exec w := by
  rw [members, exec_bind_of_ok (exec_get w)]
  simp only [hfamily]
  rfl

/-- An owner answers with the members that it has, or with those that were fetched now. -/
theorem members_eq_ok (hfamily : Family.ofOwner? (w.resource owner).kind = some family)
    {refs : List Ref} :
    (client.members owner).exec w = (.ok refs, w') ↔
      ((w.resource owner).members.cell.items? = some refs ∧ w' = w) ∨
        ((w.resource owner).members.cell.items? = none ∧
          ∃ w₁, (client.fetchMembers family owner).exec ((World.members owner).loading w) =
              (.ok refs, w₁) ∧
            w' = (World.members owner).fill (.loaded refs) w₁) := by
  rw [members_of_owner hfamily]
  exact Lazy.load_eq_ok

/-- If its members cannot be fetched, an owner has none as before. -/
theorem members_eq_error (hfamily : Family.ofOwner? (w.resource owner).kind = some family)
    {e : Raised} :
    (client.members owner).exec w = (.error e, w') ↔
      (w.resource owner).members.cell.items? = none ∧
        ∃ w₁, (client.fetchMembers family owner).exec ((World.members owner).loading w) =
            (.error e, w₁) ∧
          w' = (World.members owner).fill .unloaded w₁ := by
  rw [members_of_owner hfamily]
  exact Lazy.load_eq_error

theorem members_fills (client : Client σ) (owner : Ref) :
    (client.members owner).Within client.Fills := by
  intro w
  cases hfamily : Family.ofOwner? (w.resource owner).kind with
  | none =>
    rw [members_of_not_owner hfamily]
    exact .refl w
  | some family =>
    have howner := World.lt_next_of_owner hfamily
    rcases h : (client.members owner).exec w with ⟨e | refs, w'⟩
    · obtain ⟨hnone, w₁, hfetch, rfl⟩ := (members_eq_error hfamily).mp h
      have hloading := client.loading_members_keeps hnone
      have hfetched := (client.fetchMembers_fills family owner).of_eq hfetch
      have hkeeps : client.Keeps w ((World.members owner).fill .unloaded w₁) :=
        (hloading.trans hfetched.toKeeps).fill_members hnone (by simp [Lazy.Cell.items?])
      exact hkeeps.fills_of_loading_members (by simp) hfetched
    · obtain ⟨-, rfl⟩ | ⟨hnone, w₁, hfetch, rfl⟩ := (members_eq_ok hfamily).mp h
      · exact .refl _
      · have hloading := client.loading_members_keeps hnone
        have hfetched := (client.fetchMembers_fills family owner).of_eq hfetch
        have hkind := hloading.kind howner
        obtain ⟨representations, hlists⟩ := lists_of_fetchMembers (by rw [hkind, hfamily]) hfetch
        have hkeeps : client.Keeps w ((World.members owner).fill (.loaded refs) w₁) := by
          refine (hloading.trans hfetched.toKeeps).fill_members hnone fun refs' hrefs => ?_
          obtain rfl := Option.some.inj hrefs
          exact ⟨family, representations, hlists.earlier hloading⟩
        exact hkeeps.fills_of_loading_members (by simp) hfetched

/-- Afterwards an owner has the members that it answered with. -/
theorem items_of_members (hfamily : Family.ofOwner? (w.resource owner).kind = some family)
    {refs : List Ref} (h : (client.members owner).exec w = (.ok refs, w')) :
    (w'.resource owner).members.cell.items? = some refs := by
  obtain ⟨hitems, rfl⟩ | ⟨hnone, w₁, hfetch, rfl⟩ := (members_eq_ok hfamily).mp h
  · exact hitems
  · have hloading := client.loading_members_keeps hnone
    have hfetched := (client.fetchMembers_fills family owner).of_eq hfetch
    have hlt : owner < w₁.store.next :=
      (World.lt_next_of_owner hfamily).trans_le (hloading.next.trans hfetched.next)
    rw [World.fill_members, World.resource_alter_self hlt]
    rfl

theorem member?_fills (client : Client σ) (owner : Ref) (name : Value) :
    (client.member? owner name).Within client.Fills :=
  client.fills_spans.member? (client.members_fills owner) name

/-! ## Gears -/

theorem loading_gears_keeps (client : Client σ) {application : Ref}
    (hnone : (w.resource application).gears.cell.items? = none) :
    client.Keeps w ((World.gears application).loading w) :=
  ((Keeps.refl w).fill_gears hnone (by simp [Lazy.Cell.items?])).trans (.note _ _)

/-- Once their place is filled or emptied, no mark of the loading of gears is left. -/
theorem Keeps.fills_of_loading_gears {application : Ref} {cell : Lazy.Cell Representation.Gear}
    (h : client.Keeps w ((World.gears application).fill cell w')) (hcell : cell ≠ .loading)
    (h' : client.Fills ((World.gears application).loading w) w') :
    client.Fills w ((World.gears application).fill cell w') where
  toKeeps := h
  idle_members r hr := by
    have hmembers (w : World σ) (cell : Lazy.Cell Representation.Gear) :=
      World.resource_alter_congr (·.members.cell) (f := (·.withGears cell)) (fun _ => rfl) w
        application r
    exact (hmembers w .loading).symm.trans (h'.idle_members r ((hmembers w' cell).symm.trans hr))
  idle_gears r hr := by
    rw [World.fill_gears] at hr
    by_cases he : application = r
    · subst he
      obtain hlt | hle := Nat.lt_or_ge application w'.store.next
      · rw [World.resource_alter_self hlt] at hr
        exact absurd hr hcell
      · rw [World.resource_of_next_le (by rwa [World.next_alter])] at hr
        cases hr
    · rw [World.resource_alter_of_ne he] at hr
      rw [← World.resource_alter_of_ne he w (·.withGears .loading)]
      exact h'.idle_gears r hr

theorem gears_fills (client : Client σ) (application : Ref) :
    (client.gears application).Within client.Fills := by
  intro w
  rcases h : (client.gears application).exec w with ⟨e | gears, w'⟩
  · obtain ⟨hnone, w₁, hfetch, rfl⟩ := Lazy.load_eq_error.mp h
    have hloading := client.loading_gears_keeps hnone
    have hfetched := (client.fetchGears_fills application).of_eq hfetch
    have hkeeps : client.Keeps w ((World.gears application).fill .unloaded w₁) :=
      (hloading.trans hfetched.toKeeps).fill_gears hnone (by simp [Lazy.Cell.items?])
    exact hkeeps.fills_of_loading_gears (by simp) hfetched
  · obtain ⟨-, rfl⟩ | ⟨hnone, w₁, hfetch, rfl⟩ := Lazy.load_eq_ok.mp h
    · exact .refl _
    · have hloading := client.loading_gears_keeps hnone
      have hfetched := (client.fetchGears_fills application).of_eq hfetch
      have hexpect := hfetch
      rw [fetchGears_eq] at hexpect
      have hlists : client.ListsGears _ _ application gears := fetched_of_expect hexpect
      have hkeeps : client.Keeps w ((World.gears application).fill (.loaded gears) w₁) := by
        refine (hloading.trans hfetched.toKeeps).fill_gears hnone fun gears' hgears' => ?_
        obtain rfl := Option.some.inj hgears'
        exact hlists.mono hloading.exchange id (.refl _)
      exact hkeeps.fills_of_loading_gears (by simp) hfetched

/-! ## Operations that only read -/

theorem availableCartridges_fills (client : Client σ) (connection : Ref) :
    (client.availableCartridges connection).Within client.Fills :=
  client.fills_spans.availableCartridges connection

theorem applicationsOf_fills (client : Client σ) (domain : Ref) (cartridge : Value) :
    (client.applicationsOf domain cartridge).Within client.Fills :=
  client.fills_spans.applicationsOf (client.members_fills domain) cartridge

theorem creationOptions_fills (client : Client σ) (domain : Ref) (parameter : String) :
    (client.creationOptions domain parameter).Within client.Fills :=
  client.fills_spans.creationOptions domain parameter

end Client

end BrokerClient.Hierarchy

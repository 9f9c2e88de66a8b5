import BrokerClient.Proofs.Hierarchy.Step
import Mathlib.Data.List.Nodup

/-!
# The members of an owner

In every state that a client can come to, the loaded members of an owner are resources of its own,
of the kind that fits, and each is there once. If the server lists no name twice and adds what it
was asked to, then their names are distinct as well, except for those of domains, which can be
given the name of another one. A member stays one until its owner is refreshed or it is destroyed.
-/
namespace BrokerClient.Hierarchy

open Hierarchy.Action

variable {σ : Type} {client : Client σ} {w w' : World σ}

/-- A resource is a loaded member of an owner. -/
def World.Member (w : World σ) (owner r : Ref) : Prop :=
  ∃ items, (w.resource owner).members.cell.items? = some items ∧ r ∈ items

/-- Some loaded member of an owner has a name. -/
def World.Holds (w : World σ) (owner : Ref) (name : String) : Prop :=
  ∃ r, w.Member owner r ∧ (w.resource r).name = name

/-- The members of an owner are resources of its own, and each is there once. -/
structure World.Owns (w : World σ) (owner : Ref) (items : List Ref) : Prop where
  nodup : items.Nodup
  lt_next : ∀ r ∈ items, r < w.store.next
  owner_eq : ∀ r ∈ items, (w.resource r).owner = owner
  kind_eq : ∃ family, Family.ofOwner? (w.resource owner).kind = some family ∧
    ∀ r ∈ items, (w.resource r).kind = family.memberKind

/-- All loaded members are owned. -/
def World.Sound (w : World σ) : Prop :=
  ∀ owner items, (w.resource owner).members.cell.items? = some items → w.Owns owner items

/-- The names of loaded members are distinct, except for those of domains. -/
def World.Distinct (w : World σ) : Prop :=
  ∀ owner items, (w.resource owner).kind ≠ .connection →
    (w.resource owner).members.cell.items? = some items →
    (items.map fun r => (w.resource r).name).Nodup

/-- The loaded members of an owner have distinct names. -/
def World.DistinctAt (w : World σ) (owner : Ref) : Prop :=
  ∀ items, (w.resource owner).members.cell.items? = some items →
    (items.map fun r => (w.resource r).name).Nodup

theorem Attributes.kind_ofRepresentation (family : Family) {representation : Representation}
    (h : representation.kind = family.recordKind) :
    (Attributes.ofRepresentation representation).kind = family.memberKind := by
  cases family <;> cases representation <;> first | rfl | cases h

theorem Attributes.name_ofRepresentation (representation : Representation) :
    (Attributes.ofRepresentation representation).name = representation.name := by
  cases representation <;> rfl

theorem Family.memberKind_ne_user (family : Family) : family.memberKind ≠ .user := by
  cases family <;> simp [memberKind]

theorem Family.memberKind_ne_domain {family : Family} {kind : ResourceKind}
    (h : Family.ofOwner? kind = some family) (hkind : kind ≠ .connection) :
    family.memberKind ≠ .domain := by
  cases kind <;> simp [ofOwner?] at h hkind <;> subst h <;> simp [memberKind]

/-- What is made of representations has their names. -/
theorem World.names_of_shows {owner : Ref} {refs : List Ref}
    {representations : List Representation}
    (h : List.Forall₂ (fun r representation => (w.resource r).Shows owner representation) refs
      representations) :
    refs.map (fun r => (w.resource r).name) = representations.map (·.name) := by
  induction h with
  | nil => rfl
  | @cons r representation _ _ hs _ ih =>
    have hname : (w.resource r).name = representation.name :=
      (congrArg (·.2.1.name) hs).trans (Attributes.name_ofRepresentation representation)
    simp only [List.map_cons, hname, ih]

namespace Client.Lists

variable {owner : Ref} {family : Family} {representations : List Representation} {refs : List Ref}

theorem shows_of_mem (h : client.Lists w w' owner family representations refs) {r : Ref}
    (hr : r ∈ refs) :
    ∃ representation ∈ representations, (w'.resource r).Shows owner representation ∧
      representation.kind = family.recordKind := by
  obtain ⟨i, hi, rfl⟩ := List.getElem_of_mem hr
  obtain ⟨catalog, link, payload, -, -, -, hlist⟩ := h.fetched
  have hi' : i < (representations.filter family.admits).length := h.shows.length_eq ▸ hi
  have hmem := (List.mem_filter.mp (List.getElem_mem hi')).1
  exact ⟨_, hmem, h.shows.get hi hi', Payload.kind_of_listOf? hlist hmem⟩

theorem names_eq (h : client.Lists w w' owner family representations refs) :
    refs.map (fun r => (w'.resource r).name) =
      (representations.filter family.admits).map (·.name) :=
  World.names_of_shows h.shows

end Client.Lists

/-- What a change makes of the loaded members of an owner: at most one is dropped, or one is
enrolled at the end whose name was not there. -/
theorem Client.Commits.items_cases {op : Op} {answer : Except Raised Answer}
    (h : Commits op answer w w') {owner : Ref} {items' : List Ref}
    (h' : (w'.resource owner).members.cell.items? = some items') :
    ∃ items, (w.resource owner).members.cell.items? = some items ∧
      (items'.Sublist items ∨
        ∃ family creation representation,
          op = .create owner creation ∧ answer = .ok (.resource w.store.next) ∧
          items' = items ++ [w.store.next] ∧
          Family.ofOwner? (w.resource owner).kind = some family ∧
          representation.kind = family.recordKind ∧
          w'.resource w.store.next = .ofRepresentation owner representation ∧
          ∀ r ∈ items, creation.name.asText? ≠ some (w.resource r).name) := by
  induction h with
  | nothing => exact ⟨items', h', .inl (List.Sublist.refl _)⟩
  | noted _ entry ih => exact ih h'
  | @created w family owner' creation representation refs howner hrefs hnew hkind =>
    have hlt := World.lt_next_of_owner howner
    rw [World.resource_enroll hlt] at h'
    split at h'
    · cases h'
    · split at h'
      · rename_i hne he
        subst he
        simp only [Resource.withMembers, Lazy.Cell.items?_edit, hrefs, Option.map_some,
          Option.some.injEq] at h'
        refine ⟨refs, hrefs, .inr ⟨family, creation, representation, rfl, rfl, h'.symm, howner,
          hkind, ?_, hnew⟩⟩
        rw [World.resource_enroll hlt, if_pos rfl]
      · exact ⟨items', h', .inl (List.Sublist.refl _)⟩
  | destroyed r =>
    rw [World.resource_strike] at h'
    split at h'
    · simp only [Resource.withMembers, Lazy.Cell.remove, Lazy.Cell.items?_edit,
        Option.map_eq_some_iff] at h'
      obtain ⟨items, hitems, rfl⟩ := h'
      exact ⟨items, hitems, .inl (List.erase_sublist)⟩
    · exact ⟨items', h', .inl (List.Sublist.refl _)⟩
  | refreshed hlt =>
    rw [World.resource_forget, World.resource_accept hlt] at h'
    split at h'
    · cases h'
    · exact ⟨items', h', .inl (List.Sublist.refl _)⟩
  | discarded =>
    rw [World.resource_forget, World.resource_alter_eq rfl] at h'
    split at h'
    · cases h'
    · exact ⟨items', h', .inl (List.Sublist.refl _)⟩
  | welcomed hlt =>
    rw [World.resource_welcome hlt] at h'
    split at h'
    · cases h'
    · split at h' <;> exact ⟨items', h', .inl (List.Sublist.refl _)⟩
  | accepted hlt =>
    rw [World.resource_accept hlt] at h'
    split at h' <;> exact ⟨items', h', .inl (List.Sublist.refl _)⟩
  | edited =>
    rw [World.resource_alter_eq rfl] at h'
    split at h' <;> exact ⟨items', h', .inl (List.Sublist.refl _)⟩

namespace World

theorem items_start (server : σ) (r : Ref) :
    ((World.start server).resource r).members.cell.items? = none := by
  cases r <;> rfl

/-- A part of the members is owned as well. -/
theorem Owns.sublist {owner : Ref} {items items' : List Ref} (h : w.Owns owner items)
    (hsub : items'.Sublist items) : w.Owns owner items' where
  nodup := hsub.nodup h.nodup
  lt_next r hr := h.lt_next r (hsub.subset hr)
  owner_eq r hr := h.owner_eq r (hsub.subset hr)
  kind_eq := by
    obtain ⟨family, hfamily, hkind⟩ := h.kind_eq
    exact ⟨family, hfamily, fun r hr => hkind r (hsub.subset hr)⟩

theorem Owns.owner_lt {owner : Ref} {items : List Ref} (h : w.Owns owner items) :
    owner < w.store.next := by
  obtain ⟨family, hfamily, -⟩ := h.kind_eq
  exact lt_next_of_owner hfamily

/-- Members stay owned as long as resources keep their owners and their kinds. -/
theorem Owns.mono {owner : Ref} {items : List Ref} (h : w.Owns owner items)
    (hnext : w.store.next ≤ w'.store.next)
    (howner : ∀ r < w.store.next, (w'.resource r).owner = (w.resource r).owner)
    (hkind : ∀ r < w.store.next, (w'.resource r).kind = (w.resource r).kind) :
    w'.Owns owner items where
  nodup := h.nodup
  lt_next r hr := (h.lt_next r hr).trans_le hnext
  owner_eq r hr := by rw [howner r (h.lt_next r hr), h.owner_eq r hr]
  kind_eq := by
    obtain ⟨family, hfamily, hmember⟩ := h.kind_eq
    refine ⟨family, by rw [hkind owner h.owner_lt, hfamily], fun r hr => ?_⟩
    rw [hkind r (h.lt_next r hr), hmember r hr]

namespace Sound

/-- Filling places keeps members owned. -/
theorem fills (hw : w.Sound) (h : client.Fills w w') : w'.Sound := by
  intro owner items hitems
  obtain heq | ⟨-, family, representations, refs, hrefs, hlists⟩ := h.members owner
  · have howns := hw owner items (by rw [← heq, hitems])
    exact howns.mono h.next h.owner fun r hr => h.kind hr
  · obtain rfl : refs = items := Option.some.inj (hrefs.symm.trans hitems)
    refine ⟨hlists.nodup, fun r hr => (hlists.fresh r hr).2, fun r hr => ?_, family, hlists.owns,
      fun r hr => ?_⟩
    · obtain ⟨representation, -, hs, -⟩ := hlists.shows_of_mem hr
      exact congrArg (·.1) hs
    · obtain ⟨representation, -, hs, hkind⟩ := hlists.shows_of_mem hr
      exact (congrArg (·.2.1.kind) hs).trans (Attributes.kind_ofRepresentation family hkind)

/-- So does every change. -/
theorem commits (hw : w.Sound) {op : Op} {answer : Except Raised Answer}
    (h : Client.Commits op answer w w') : w'.Sound := by
  intro owner items' hitems'
  obtain ⟨items, hitems, hsub | ⟨family, creation, representation, -, -, rfl, hfamily, hkind,
    hmade, -⟩⟩ := h.items_cases hitems' <;>
    have howns := (hw owner items hitems).mono h.next (fun r hr => (h.turns hr).owner)
      fun r hr => (h.turns hr).kind
  · exact howns.sublist hsub
  · have hnew : w.store.next ∉ items := fun hmem =>
      Nat.lt_irrefl _ ((hw owner items hitems).lt_next _ hmem)
    refine ⟨howns.nodup.append (List.nodup_singleton _) (by simpa using hnew), fun r hr => ?_,
      fun r hr => ?_, family, ?_, fun r hr => ?_⟩
    · obtain hr | hr := List.mem_append.mp hr
      · exact howns.lt_next r hr
      · obtain rfl := List.mem_singleton.mp hr
        exact lt_next_of_catalog (congrArg (·.catalog) hmade)
    · obtain hr | hr := List.mem_append.mp hr
      · exact howns.owner_eq r hr
      · obtain rfl := List.mem_singleton.mp hr
        exact congrArg (·.owner) hmade
    · rw [(h.turns (lt_next_of_owner hfamily)).kind, hfamily]
    · obtain ⟨family', hfamily', hmember⟩ := howns.kind_eq
      rw [(h.turns (lt_next_of_owner hfamily)).kind, hfamily] at hfamily'
      obtain rfl := Option.some.inj hfamily'
      obtain hr | hr := List.mem_append.mp hr
      · exact hmember r hr
      · obtain rfl := List.mem_singleton.mp hr
        exact (congrArg (·.kind) hmade).trans (Attributes.kind_ofRepresentation family hkind)

end Sound

/-- Filling places does not change the names of members. -/
theorem Owns.names_fills {owner : Ref} {items : List Ref} (h : w.Owns owner items)
    (hfills : client.Fills w w') :
    (items.map fun r => (w'.resource r).name) = items.map fun r => (w.resource r).name := by
  refine List.map_congr_left fun r hr => ?_
  exact congrArg Attributes.name (hfills.attributes r (h.lt_next r hr))

/-- No change does, unless they are domains. -/
theorem Owns.names_commits {owner : Ref} {items : List Ref} (h : w.Owns owner items) {op : Op}
    {answer : Except Raised Answer} (hcommits : Client.Commits op answer w w')
    (hroot : (w.resource owner).kind ≠ .connection) :
    (items.map fun r => (w'.resource r).name) = items.map fun r => (w.resource r).name := by
  obtain ⟨family, hfamily, hmember⟩ := h.kind_eq
  refine List.map_congr_left fun r hr => (hcommits.turns (h.lt_next r hr)).name ?_ ?_
  · rw [hmember r hr]
    exact family.memberKind_ne_user
  · rw [hmember r hr]
    exact Family.memberKind_ne_domain hfamily hroot

namespace DistinctAt

/-- Filling places keeps the names of loaded members distinct. -/
theorem fills (hsound : w.Sound) {owner : Ref} (hw : w.DistinctAt owner) {items : List Ref}
    (hitems : (w.resource owner).members.cell.items? = some items) (h : client.Fills w w') :
    w'.DistinctAt owner := by
  intro items' hitems'
  obtain rfl := Option.some.inj ((h.items_of_some hitems).symm.trans hitems')
  rw [(hsound owner items hitems).names_fills h]
  exact hw items hitems

/-- So does every change if what was created has the name that was asked for. -/
theorem commits (hsound : w.Sound) {op : Op} {answer : Except Raised Answer}
    (h : Client.Commits op answer w w') {owner : Ref}
    (hroot : (w'.resource owner).kind ≠ .connection) (hw : w.DistinctAt owner)
    (hcreates : ∀ {creation r}, op = .create owner creation → answer = .ok (.resource r) →
      creation.name.asText? = some (w'.resource r).name) :
    w'.DistinctAt owner := by
  intro items' hitems'
  obtain ⟨items, hitems, hcase⟩ := h.items_cases hitems'
  have howns := hsound owner items hitems
  rw [(h.turns howns.owner_lt).kind] at hroot
  have hnames := howns.names_commits h hroot
  have hdistinct := hw items hitems
  obtain hsub | ⟨family, creation, representation, hop, hanswer, rfl, -, -, -, hnew⟩ := hcase
  · exact (hsub.map _).nodup (hnames ▸ hdistinct)
  · rw [List.map_append, hnames]
    refine hdistinct.append (List.nodup_singleton _) ?_
    rw [List.map_singleton, List.disjoint_singleton]
    intro hmem
    obtain ⟨r, hr, hname⟩ := List.mem_map.mp hmem
    exact hnew r hr ((hcreates hop hanswer).trans (congrArg some hname.symm))

end DistinctAt

namespace Distinct

/-- Filling places keeps names distinct if no list has a name twice. -/
theorem fills (hsound : w.Sound) (hw : w.Distinct) (h : client.Fills w w')
    (hlists : ∀ {owner family representations refs},
      client.Lists w w' owner family representations refs →
      ((representations.filter family.admits).map (·.name)).Nodup) : w'.Distinct := by
  intro owner items hroot hitems
  obtain heq | ⟨-, family, representations, refs, hrefs, hl⟩ := h.members owner
  · have howns := hsound owner items (by rw [← heq, hitems])
    rw [howns.names_fills h]
    refine hw owner items ?_ (by rw [← heq, hitems])
    rwa [← h.kind howns.owner_lt]
  · obtain rfl : refs = items := Option.some.inj (hrefs.symm.trans hitems)
    rw [hl.names_eq]
    exact hlists hl

/-- So does every change if what was created has the name that was asked for. -/
theorem commits (hsound : w.Sound) (hw : w.Distinct) {op : Op} {answer : Except Raised Answer}
    (h : Client.Commits op answer w w')
    (hcreates : ∀ {owner creation r}, op = .create owner creation →
      answer = .ok (.resource r) → creation.name.asText? = some (w'.resource r).name) :
    w'.Distinct := by
  intro owner items' hroot hitems'
  refine DistinctAt.commits hsound h hroot (fun items hitems => ?_) hcreates items' hitems'
  refine hw owner items ?_ hitems
  rwa [← (h.turns (hsound owner items hitems).owner_lt).kind]

end Distinct

end World

/-! ## How long a member stays -/

/-- A change keeps the members of an owner but for one that is destroyed, unless the owner is
refreshed. -/
theorem Client.Commits.member {op : Op} {answer : Except Raised Answer}
    (h : Client.Commits op answer w w') {owner r : Ref} (howner : owner < w.store.next)
    (hr : w.Member owner r) (hrefresh : op ≠ .refresh owner)
    (hdestroy : ∀ force, op ≠ .destroy r force) : w'.Member owner r := by
  obtain ⟨items, hitems, hr⟩ := hr
  induction h with
  | nothing => exact ⟨items, hitems, hr⟩
  | noted _ entry ih => exact ih howner hrefresh hdestroy hitems
  | @created w _ _ _ _ _ hfamily =>
    rw [World.Member, World.resource_enroll (World.lt_next_of_owner hfamily),
      if_neg (Nat.ne_of_lt howner)]
    split
    · refine ⟨items ++ [w.store.next], ?_, List.mem_append_left _ hr⟩
      rw [Resource.withMembers, Lazy.Cell.items?_edit, hitems]
      rfl
    · exact ⟨items, hitems, hr⟩
  | destroyed r' force =>
    have hne : r ≠ r' := fun he => hdestroy force (he ▸ rfl)
    rw [World.Member, World.resource_strike]
    split
    · refine ⟨items.erase r', ?_, (List.mem_erase_of_ne hne).mpr hr⟩
      rw [Resource.withMembers, Lazy.Cell.remove, Lazy.Cell.items?_edit, hitems]
      rfl
    · exact ⟨items, hitems, hr⟩
  | @refreshed w r' hlt =>
    have hne : owner ≠ r' := fun he => hrefresh (he ▸ rfl)
    rw [World.Member, World.resource_forget, if_neg hne, World.resource_accept hlt, if_neg hne]
    exact ⟨items, hitems, hr⟩
  | discarded r' =>
    have hne : owner ≠ r' := fun he => hrefresh (he ▸ rfl)
    rw [World.Member, World.resource_forget, if_neg hne, World.resource_alter_eq rfl, if_neg hne]
    exact ⟨items, hitems, hr⟩
  | welcomed hlt =>
    rw [World.Member, World.resource_welcome hlt, if_neg (Nat.ne_of_lt howner)]
    split <;> exact ⟨items, hitems, hr⟩
  | accepted hlt =>
    rw [World.Member, World.resource_accept hlt]
    split <;> exact ⟨items, hitems, hr⟩
  | edited =>
    rw [World.Member, World.resource_alter_eq rfl]
    split <;> exact ⟨items, hitems, hr⟩

/-- A member stays one in every step but a refresh of its owner and its own destruction. -/
theorem World.Member.step (client : Client σ) (hw : w.Sound) {owner r : Ref}
    (hr : w.Member owner r) {op : Op} (hrefresh : op ≠ .refresh owner)
    (hdestroy : ∀ force, op ≠ .destroy r force) : (client.step op w).2.Member owner r := by
  obtain ⟨w₁, hfills, hcommits⟩ := client.step_commits op w
  obtain ⟨items, hitems, hmem⟩ := hr
  have howner := (hw owner items hitems).owner_lt.trans_le hfills.next
  exact hcommits.member howner ⟨items, hfills.items_of_some hitems, hmem⟩ hrefresh hdestroy

/-- So it stays one in every session in which neither happens. -/
theorem World.Member.run (client : Client σ) {owner r : Ref} (ops : List Op)
    (hops : ∀ op ∈ ops, op ≠ .refresh owner ∧ ∀ force, op ≠ .destroy r force) (hw : w.Sound)
    (hr : w.Member owner r) : (client.run ops w).2.Member owner r := by
  induction ops generalizing w with
  | nil => exact hr
  | cons op rest ih =>
    obtain ⟨⟨hrefresh, hdestroy⟩, hrest⟩ := List.forall_mem_cons.mp hops
    obtain ⟨w₁, hfills, hcommits⟩ := client.step_commits op w
    exact ih hrest ((hw.fills hfills).commits hcommits) (hr.step client hw hrefresh hdestroy)

namespace World

variable {r s : Ref}

/-- Two members of one name are the same, unless they are domains. -/
theorem Distinct.member_inj (hw : w.Distinct) {owner : Ref}
    (hroot : (w.resource owner).kind ≠ .connection) (hr : w.Member owner r)
    (hs : w.Member owner s) (hname : (w.resource r).name = (w.resource s).name) : r = s := by
  obtain ⟨items, hitems, hr⟩ := hr
  obtain ⟨items', hitems', hs⟩ := hs
  obtain rfl := Option.some.inj (hitems.symm.trans hitems')
  exact List.inj_on_of_nodup_map (hw owner items hroot hitems) hr hs hname

/-- The kind of a member tells the kind of its owner. -/
theorem Sound.owner_of_member (hw : w.Sound) {owner : Ref} {family : Family}
    (hr : w.Member owner r) (hkind : (w.resource r).kind = family.memberKind) :
    Family.ofOwner? (w.resource owner).kind = some family := by
  obtain ⟨items, hitems, hr⟩ := hr
  obtain ⟨family', hfamily, hmember⟩ := (hw owner items hitems).kind_eq
  have hsame : family'.memberKind = family.memberKind := (hmember r hr).symm.trans hkind
  rw [hfamily]
  cases family <;> cases family' <;> first | rfl | cases hsame

end World

/-! ## Runs with a faithful server -/

namespace Client

/-- In a step the server lists no name twice and creates what it was asked to. -/
structure Faithful (client : Client σ) (op : Op) (w : World σ) : Prop where
  lists : ∀ {link payload family representations},
    client.Fetched w.exchange (client.step op w).2.exchange link payload →
    payload.listOf? (Family.recordKind family) = some representations →
    ((representations.filter family.admits).map (·.name)).Nodup
  creates : ∀ {owner creation r}, op = .create owner creation →
    (client.step op w).1 = .ok (.resource r) →
    creation.name.asText? = some ((client.step op w).2.resource r).name

theorem sound_of_reaches {server : σ} {allowed : Op → World σ → Prop}
    (hw : client.Reaches allowed (.start server) w) : w.Sound := by
  induction hw with
  | refl =>
    intro owner items h
    rw [World.items_start] at h
    cases h
  | @step w _ op _ ih =>
    obtain ⟨w₁, hfills, hcommits⟩ := client.step_commits op w
    exact (ih.fills hfills).commits hcommits

theorem distinct_of_reaches {server : σ} (hw : client.Reaches client.Faithful (.start server) w) :
    w.Distinct := by
  induction hw with
  | refl =>
    intro owner items _ h
    rw [World.items_start] at h
    cases h
  | @step w hreaches op hop ih =>
    obtain ⟨w₁, hfills, hcommits⟩ := client.step_commits op w
    have hsound := sound_of_reaches hreaches
    refine World.Distinct.commits (hsound.fills hfills) ?_ hcommits hop.creates
    refine ih.fills hsound hfills fun hlists => ?_
    obtain ⟨catalog, link, payload, -, -, hfetched, hlist⟩ := hlists.fetched
    exact hop.lists (hfetched.mono (.refl _) hcommits.logs.continues) hlist

end Client

end BrokerClient.Hierarchy

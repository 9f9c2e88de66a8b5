import BrokerClient.Proofs.Hierarchy.Contents
import BrokerClient.Proofs.Hierarchy.Creating
import BrokerClient.Proofs.Hierarchy.Loaded
import BrokerClient.Proofs.Hierarchy.Membership

/-!
# Names stay distinct

The names of loaded members are distinct, except for those of domains, as long as the server lists
no name twice and gives a new member the name that it was asked to. Whatever else the server
answers does not matter: members keep the names under which they were made, and the list that is
searched for a name is the one to which the new member is appended.
-/
namespace BrokerClient.Hierarchy

open Hierarchy.Action

variable {σ : Type} {client : Client σ} {w w' w₁ : World σ} {owner : Ref} {op : Op}
  {family : Family}

/-- In a step the server lists no name twice among the members of an owner, and what it creates has
the name that was asked for. Of domains nothing is demanded. -/
structure Client.Truthful (client : Client σ) (op : Op) (w : World σ) : Prop where
  lists : ∀ i ∈ client.inquiries op w, ∀ family representations,
    i.purpose = .members family → family ≠ .domains →
    client.data? i = some (.records representations) → (representations.map (·.name)).Nodup
  creates : ∀ owner creation, op = .create owner creation →
    ∀ i ∈ client.inquiries op w, ∀ family representation,
    i.purpose = .creation family → family ≠ .domains →
    client.data? i = some (.record representation) →
    creation.name.asText? = some representation.name

namespace Client

/-! ## Members that are looked up -/

theorem family_ne_domains (hfamily : Family.ofOwner? (w.resource owner).kind = some family)
    (hroot : (w.resource owner).kind ≠ .connection) : family ≠ .domains := by
  rintro rfl
  cases hkind : (w.resource owner).kind <;> rw [hkind] at hfamily hroot <;>
    simp [Family.ofOwner?] at hfamily hroot

theorem step_create_of_not_owner (client : Client σ) (creation : Creation)
    (hfamily : Family.ofOwner? (w.resource owner).kind = none) :
    (client.step (.create owner creation) w).2 = w := by
  have hstep : client.step (.create owner creation) w =
      exec (Answer.resource <$> client.create owner creation) w := rfl
  cases hlacks : creation.lacks? with
  | some argument => rw [(client.step_create_of_lacks owner w hlacks).1]
  | none =>
    rw [hstep, exec_map, create, demand_bind_of_none hlacks, exec_bind_of_ok (exec_get w)]
    simp only [hfamily]
    rfl

/-- What is no owner has no members to look up. -/
theorem step_of_not_owner (client : Client σ) (hslot : op.slot? = some ⟨owner, .members⟩)
    (hfamily : Family.ofOwner? (w.resource owner).kind = none) : (client.step op w).2 = w := by
  by_cases hop : ∃ creation, op = .create owner creation
  · obtain ⟨creation, rfl⟩ := hop
    exact client.step_create_of_not_owner creation hfamily
  · rw [(client.step_of_slot? w hslot fun creation h => hop ⟨creation, h⟩).2,
      members_of_not_owner hfamily]

/-- If their list has no name twice, members that are looked up have distinct names. -/
theorem distinctAt_members (hfamily : Family.ofOwner? (w.resource owner).kind = some family)
    (hdomains : family ≠ .domains) (hw : w.DistinctAt owner) (hop : client.Truthful op w)
    (hasks : ∀ i ∈ (w.listing owner).flatMap client.inquiriesOf, i ∈ client.inquiries op w)
    {outcome : Except Raised (List Ref)} (h : (client.members owner).exec w = (outcome, w₁)) :
    w₁.DistinctAt owner := by
  intro items hitems
  cases outcome with
  | error e =>
    obtain ⟨-, w₂, -, rfl⟩ := (members_eq_error hfamily).mp h
    rw [World.fill_members, World.resource_alter_eq rfl, if_pos rfl] at hitems
    cases hitems
  | ok refs =>
    obtain rfl := Option.some.inj ((items_of_members hfamily h).symm.trans hitems)
    obtain ⟨hloaded, rfl⟩ | ⟨hnone, -⟩ := (members_eq_ok hfamily).mp h
    · exact hw refs hloaded
    · obtain ⟨i, hi, hpurpose, representations, hdata⟩ := inquiry_of_members hfamily hnone h
      obtain ⟨refs, w₂, hmembers, -, refs', hrefs, hshows⟩ :=
        holds_of_listed hfamily hnone hi hdata
      obtain ⟨-, rfl⟩ := members_unique h hmembers
      rw [List.append_nil] at hrefs
      obtain rfl := Option.some.inj (hitems.symm.trans hrefs)
      rw [World.names_of_shows hshows]
      exact hop.lists i (hasks i (mem_listing hfamily hnone hi)) family representations hpurpose
        hdomains hdata

/-- So they are after a creation if the new member has the name that was asked for. -/
theorem Course.distinctAt {creation : Creation} {later : List (Ask σ)}
    {answer : Except Raised Ref} (hsound : w.Sound)
    (hfamily : Family.ofOwner? (w.resource owner).kind = some family)
    (hlisted : ∀ {outcome w₁}, (client.members owner).exec w = (outcome, w₁) →
      w₁.DistinctAt owner)
    (hcreates : ∀ i ∈ (w.listing owner ++ later).flatMap client.inquiriesOf, ∀ representation,
      i.purpose = .creation family → client.data? i = some (.record representation) →
      creation.name.asText? = some representation.name)
    (h : client.Course family owner creation w later answer w') : w'.DistinctAt owner := by
  cases answer with
  | error e =>
    rcases hmembers : (client.members owner).exec w with ⟨e' | refs, w₁⟩
    · cases h with
      | unlisted hmembers' => exact hlisted hmembers'
      | taken hmembers' | unfit hmembers' | refused hmembers' =>
        rw [hmembers] at hmembers'
        cases hmembers'
    · have hsound₁ := hsound.fills ((client.members_fills owner).of_eq hmembers)
      exact (hlisted hmembers).fills hsound₁ (items_of_members hfamily hmembers)
        (h.fills_of_error hmembers)
  | ok r =>
    obtain ⟨refs, w₁, hmembers, hfree, rfl, hitems', hattributes, i, hi, hpurpose,
      representation, hdata, hmade⟩ := h.created_eq hfamily
    have hsound₁ := hsound.fills ((client.members_fills owner).of_eq hmembers)
    have hitems := items_of_members hfamily hmembers
    have hnames : (refs.map fun r => (w'.resource r).name) =
        refs.map fun r => (w₁.resource r).name :=
      List.map_congr_left fun r hr => congrArg Attributes.name
        (hattributes r ((hsound₁ owner refs hitems).lt_next r hr))
    have hname : (w'.resource w₁.store.next).name = representation.name := by
      rw [hmade]
      exact Attributes.name_ofRepresentation representation
    intro items hitems''
    obtain rfl := Option.some.inj (hitems'.symm.trans hitems'')
    rw [List.map_append, hnames, List.map_singleton, hname]
    refine ((hlisted hmembers) refs hitems).append (List.nodup_singleton _) ?_
    rw [List.disjoint_singleton]
    intro hmem
    obtain ⟨r, hr, hsame⟩ := List.mem_map.mp hmem
    exact hfree ⟨r, hr, (hcreates i hi representation hpurpose hdata).trans
      (congrArg some hsame.symm)⟩

end Client

/-! ## Steps and runs -/

namespace World.Distinct

open Client

/-- An operation that is not about the members of an owner leaves their names distinct. -/
theorem step_of_ne (hsound : w.Sound) (hw : w.Distinct)
    (hslot : op.slot? ≠ some ⟨owner, .members⟩)
    (hroot : ((client.step op w).2.resource owner).kind ≠ .connection) :
    (client.step op w).2.DistinctAt owner := by
  intro items' hitems'
  have hloaded : (w.resource owner).members.cell.isLoaded = true := by
    refine (client.step_loads op w owner ?_).resolve_right hslot
    rw [Lazy.Cell.isLoaded, hitems']
    rfl
  obtain ⟨items, hitems⟩ := Option.isSome_iff_exists.mp hloaded
  obtain ⟨w₁, hfills, hcommits⟩ := client.step_commits op w
  have howner := (hsound owner items hitems).owner_lt
  have hkind : (w.resource owner).kind ≠ .connection := by
    rwa [← hfills.kind howner, ← (hcommits.turns (howner.trans_le hfills.next)).kind]
  have hfilled : w₁.DistinctAt owner :=
    .fills hsound (fun items hitems => hw owner items hkind hitems) hitems hfills
  refine DistinctAt.commits (hsound.fills hfills) hcommits hroot hfilled (fun hop => ?_) items'
    hitems'
  rw [hop] at hslot
  exact absurd rfl hslot

/-- So does one that creates a member. -/
theorem step_create {creation : Creation} (hsound : w.Sound) (hw : w.DistinctAt owner)
    (hop : client.Truthful (.create owner creation) w)
    (hfamily : Family.ofOwner? (w.resource owner).kind = some family)
    (hdomains : family ≠ .domains) :
    (client.step (.create owner creation) w).2.DistinctAt owner := by
  by_cases hcomplete : creation.IsComplete
  · obtain ⟨later, answer, w', hinquiries, hcourse, hstep⟩ :=
      client.step_course hfamily hcomplete
    have hlisted (i : Inquiry σ) (hi : i ∈ (w.listing owner).flatMap client.inquiriesOf) :
        i ∈ client.inquiries (.create owner creation) w := by
      rw [hinquiries, List.flatMap_append]
      exact List.mem_append_left _ hi
    rw [hstep]
    refine hcourse.distinctAt hsound hfamily (distinctAt_members hfamily hdomains hw hop hlisted)
      fun i hi representation hpurpose hdata => ?_
    rw [← hinquiries] at hi
    exact hop.creates owner creation rfl i hi family representation hpurpose hdomains hdata
  · obtain ⟨argument, hlacks⟩ := Creation.lacks?_of_not_complete hcomplete
    rw [(client.step_create_of_lacks owner w hlacks).1]
    exact hw

/-- And so does every other one that is about them. -/
theorem step_of_slot? (hsound : w.Sound) (hw : w.Distinct) (hop : client.Truthful op w)
    (hslot : op.slot? = some ⟨owner, .members⟩)
    (hroot : ((client.step op w).2.resource owner).kind ≠ .connection) :
    (client.step op w).2.DistinctAt owner := by
  cases hfamily : Family.ofOwner? (w.resource owner).kind with
  | none =>
    rw [client.step_of_not_owner hslot hfamily] at hroot ⊢
    exact fun items => hw owner items hroot
  | some family =>
    obtain ⟨w₁, hfills, hcommits⟩ := client.step_commits op w
    have howner := lt_next_of_owner hfamily
    rw [(hcommits.turns (howner.trans_le hfills.next)).kind, hfills.kind howner] at hroot
    have hdomains := family_ne_domains hfamily hroot
    have hdistinct : w.DistinctAt owner := fun items => hw owner items hroot
    by_cases hcreate : ∃ creation, op = .create owner creation
    · obtain ⟨creation, rfl⟩ := hcreate
      exact step_create hsound hdistinct hop hfamily hdomains
    · obtain ⟨hasks, hstep⟩ :=
        client.step_of_slot? w hslot fun creation h => hcreate ⟨creation, h⟩
      rw [hstep]
      refine distinctAt_members hfamily hdomains hdistinct hop (fun i hi => ?_) rfl
      rwa [inquiries, hasks]

theorem step (hsound : w.Sound) (hw : w.Distinct) (hop : client.Truthful op w) :
    (client.step op w).2.Distinct := by
  intro owner items hroot hitems
  by_cases hslot : op.slot? = some ⟨owner, .members⟩
  · exact World.Distinct.step_of_slot? hsound hw hop hslot hroot items hitems
  · exact hw.step_of_ne hsound hslot hroot items hitems

end World.Distinct

/-- Whatever is done, and on whatever resources: if the server is truthful in every step, the names
of loaded members are distinct. -/
theorem Client.names_stay_distinct {server : σ}
    (hw : client.Reaches client.Truthful (.start server) w) : w.Distinct := by
  induction hw with
  | refl =>
    intro owner items _ h
    rw [World.items_start] at h
    cases h
  | step hreaches hop ih => exact ih.step (sound_of_reaches hreaches) hop

/-! ## A server with two applications -/

namespace Client

/-- What a server answers on which the domain "d" has the applications "a" and "b", and which
creates the application "c". -/
def furnishedReply (call : Call) : Body :=
  match call.method, call.url with
  | .get, "b/broker/rest/api" =>
    .text ("\x7b\"type\":\"links\",\"data\":" ++
      "\x7b\"LIST_DOMAINS\":\x7b\"href\":\"domains\"\x7d\x7d\x7d")
  | .get, "b/broker/rest/domains" =>
    .text ("\x7b\"type\":\"domains\",\"data\":[\x7b\"id\":\"d\",\"links\":\x7b" ++
      "\"LIST_APPLICATIONS\":\x7b\"href\":\"d\"\x7d," ++
      "\"ADD_APPLICATION\":\x7b\"href\":\"d\",\"method\":\"POST\"\x7d\x7d\x7d]\x7d")
  | .get, _ =>
    .text ("\x7b\"type\":\"applications\",\"data\":" ++
      "[\x7b\"name\":\"a\"\x7d,\x7b\"name\":\"b\"\x7d]\x7d")
  | _, _ => .text "\x7b\"type\":\"application\",\"data\":\x7b\"name\":\"c\"\x7d\x7d"

/-- A client of that server. -/
def furnished : Client Unit where
  service := ⟨"b", "c", 990⟩
  transport := ⟨fun call s => (.ok (furnishedReply call), s)⟩

/-- To create the application "c" in the domain. -/
def furnishing : Op :=
  .create 1 (.application (.str "c") (.thing .cartridge "php") .null .null)

/-- The domain was listed, and then the application was created. -/
def furnishedWorld : World Unit :=
  (furnished.step furnishing (furnished.step (.members 0) (.start ())).2).2

/-- The answer to an inquiry does not list a name twice, and what it creates has a name. -/
def answersTruly (client : Client σ) (name : Option String) (i : Inquiry σ) : Bool :=
  match i.purpose, client.data? i with
  | .members family, some (.records representations) =>
    family == .domains || decide (representations.map (·.name)).Nodup
  | .creation family, some (.record representation) =>
    family == .domains || name == some representation.name
  | _, _ => true

theorem truthful_of_all (name : Option String)
    (hname : ∀ owner creation, op = .create owner creation → creation.name.asText? = name)
    (h : (client.inquiries op w).all (client.answersTruly name) = true) :
    client.Truthful op w where
  lists i hi family representations hpurpose hdomains hdata := by
    have hi := List.all_eq_true.mp h i hi
    simp only [answersTruly, hpurpose, hdata] at hi
    simpa [hdomains] using hi
  creates owner creation hop i hi family representation hpurpose hdomains hdata := by
    have hi := List.all_eq_true.mp h i hi
    simp only [answersTruly, hpurpose, hdata] at hi
    rw [hname owner creation hop]
    simpa [hdomains] using hi

theorem furnished_reaches :
    furnished.Reaches furnished.Truthful (.start ()) furnishedWorld := by
  have hmembers : furnished.Truthful (.members 0) (.start ()) :=
    truthful_of_all none nofun (by decide +kernel)
  have hcreate : furnished.Truthful furnishing (furnished.step (.members 0) (.start ())).2 := by
    refine truthful_of_all (some "c") ?_ (by decide +kernel)
    rintro _ _ ⟨⟩
    rfl
  exact .step (.step .refl hmembers) hcreate

/-- The applications of the domain are the two that were listed and the one that was created. -/
theorem names_furnished :
    (furnishedWorld.resource 1).members.cell.items? = some [2, 3, 4] ∧
      ([2, 3, 4].map fun r => (furnishedWorld.resource r).name) = ["a", "b", "c"] ∧
      ([2, 3, 4].map fun r => (furnishedWorld.resource r).name).Nodup := by
  have hrun : (furnishedWorld.resource 1).kind = .domain ∧
      (furnishedWorld.resource 1).members.cell.items? = some [2, 3, 4] ∧
      ([2, 3, 4].map fun r => (furnishedWorld.resource r).name) = ["a", "b", "c"] := by
    decide +kernel
  obtain ⟨hkind, hitems, hnames⟩ := hrun
  exact ⟨hitems, hnames, names_stay_distinct furnished_reaches 1 _ (by simp [hkind]) hitems⟩

end Client

end BrokerClient.Hierarchy

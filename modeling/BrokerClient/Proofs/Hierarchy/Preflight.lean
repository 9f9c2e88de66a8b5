import BrokerClient.Proofs.Hierarchy.Coherence
import BrokerClient.Proofs.Hierarchy.Creating
import BrokerClient.Proofs.Hierarchy.Latest
import BrokerClient.Proofs.Service.Conflict

/-!
# Looking before asking

A name is looked for among the members of the owner before the server is asked for a new one. From
a conflict that is reported it can be told who found it: if it names the name, the owner did, and
the server was not asked; if it names a URL, the server did, in its reply to a call of the creation.
-/
namespace BrokerClient.Hierarchy

open Hierarchy.Action

variable {σ : Type}

/-- What ended an operation reports a conflict. -/
def Raised.isConflict : Raised → Bool
  | .client e => e.isConflict
  | .fault _ => false

namespace Client

variable {client : Client σ} {w w' w₁ : World σ} {family : Family} {owner r : Ref}
  {creation : Creation} {e : Raised} {l l' : List (Inquiry σ)} {i : Inquiry σ}

/-! ## Where conflicts come from -/

/-- If an error reports a conflict, then one of the inquiries has come to it. -/
def Blames (client : Client σ) (l : List (Inquiry σ)) (e : Raised) : Prop :=
  Raised.isConflict e = true → ∃ i ∈ l, (client.outcome i).1 = .error e

namespace Blames

theorem of_false (h : Raised.isConflict e = false) : client.Blames l e := by
  intro he
  rw [h] at he
  cases he

theorem of_mem (hi : i ∈ l) (h : (client.outcome i).1 = .error e) : client.Blames l e :=
  fun _ => ⟨i, hi, h⟩

theorem mono (h : client.Blames l e) (hsub : ∀ i ∈ l, i ∈ l') : client.Blames l' e := by
  intro he
  obtain ⟨i, hi, houtcome⟩ := h he
  exact ⟨i, hsub i hi, houtcome⟩

end Blames

theorem isConflict_refuse {α : Type} {link : Link} {reason : EndpointReason}
    (h : (client.refuse link reason : Action σ α).exec w = (.error e, w')) :
    Raised.isConflict e = false := by
  unfold refuse at h
  split at h
  · cases h
    rfl
  · rename_i e' hurl
    cases h
    exact Service.noConflict_resolveUrl hurl

theorem blames_links (h : (client.links r).exec w = (.error e, w')) :
    client.Blames (w.catalogInquiries r) e := by
  obtain ⟨hnone, ⟨hkind, hroot⟩ | ⟨-, -, rfl⟩⟩ := links_eq_error.mp h
  · rw [catalogInquiries_of_root hnone hkind]
    rw [fetchRoot] at hroot
    obtain hsend | ⟨payload, w₁, -, hrefuse⟩ := exec_bind_eq_error.mp hroot
    · exact .of_mem (List.mem_singleton_self _) (congrArg Prod.fst hsend)
    · split at hrefuse
      · cases hrefuse
      · exact .of_false (isConflict_refuse hrefuse)
  · exact .of_false rfl

theorem blames_link {relation : String}
    (h : (client.link r relation).exec w = (.error e, w')) :
    client.Blames (w.catalogInquiries r) e := by
  obtain hlinks | ⟨catalog, -, ⟨-, rfl⟩ | ⟨v, -, -, rfl⟩⟩ := link_eq_error.mp h
  · exact blames_links hlinks
  · exact .of_false rfl
  · exact .of_false rfl

theorem blames_expect {α : Type} {relation : String} {parameters : Parameters}
    {view : Payload → Option α} {reason : Payload → EndpointReason} (purpose : Purpose)
    (h : (client.expect r relation parameters view reason).exec w = (.error e, w')) :
    client.Blames (client.inquiriesOf ⟨w, r, .follow relation parameters false purpose⟩) e := by
  rw [expect] at h
  obtain hlink | ⟨link, w₁, hlink, h⟩ := exec_bind_eq_error.mp h
  · exact (blames_link hlink).mono fun _ => List.mem_append_left _
  · obtain hsend | ⟨payload, w₂, -, h⟩ := exec_bind_eq_error.mp h
    · let i : Inquiry σ := ⟨w₁, r, some relation, purpose, link, parameters, false⟩
      have hi : i ∈ client.linkInquiries ⟨w, r, .follow relation parameters false purpose⟩ := by
        simp only [linkInquiries, hlink, List.mem_singleton, i]
      exact .of_mem (List.mem_append_right _ hi) (congrArg Prod.fst hsend)
    · split at h
      · cases h
      · exact .of_false (isConflict_refuse h)

theorem blames_members (hfamily : Family.ofOwner? (w.resource owner).kind = some family)
    (h : (client.members owner).exec w = (.error e, w')) :
    client.Blames ((w.listing owner).flatMap client.inquiriesOf) e := by
  obtain ⟨hnone, w₁, hfetch, -⟩ := (members_eq_error hfamily).mp h
  obtain hlist | ⟨representations, w₂, -, hadopt⟩ := exec_bind_eq_error.mp hfetch
  · rw [fetchList_eq] at hlist
    simpa [World.listing, hfamily, hnone] using blames_expect (.members family) hlist
  · cases hadopt

/-- What an inquiry reports as a conflict is the reply to its call. -/
theorem isConflict_outcome (htransport : client.transport.OnlyRefuses)
    (h : (client.outcome i).1 = .error e) (he : Raised.isConflict e = true) :
    ∃ call r, client.call? i = some call ∧
      (client.transport.send call i.state.exchange.server).1 = .error r ∧
      r.isA .conflict = true ∧ e = .client (.rejected call.url r) := by
  obtain ⟨y, hrequest, -⟩ := send_eq_error.mp (Prod.ext h rfl)
  cases e with
  | fault => cases he
  | client e =>
    obtain ⟨url, call, r, hsends, hreply, hconflict, rfl⟩ :=
      Service.isConflict_request htransport (congrArg Prod.fst hrequest) he
    obtain ⟨-, rfl⟩ := Service.eq_of_callFor hsends.formed
    exact ⟨call, r, Service.call?_eq_some.mpr ⟨_, hsends⟩, hreply, hconflict, rfl⟩

theorem Course.blames (hfamily : Family.ofOwner? (w.resource owner).kind = some family)
    {later : List (Ask σ)} (h : client.Course family owner creation w later (.error e) w') :
    (∃ refs, (client.members owner).exec w = (.ok refs, w') ∧ w'.Taken refs creation ∧
        e = .client (.duplicate family.memberKind creation.name.text)) ∨
      client.Blames ((w.listing owner ++ later).flatMap client.inquiriesOf) e := by
  rw [List.flatMap_append]
  cases h with
  | unlisted hmembers =>
    exact .inr ((blames_members hfamily hmembers).mono fun _ => List.mem_append_left _)
  | taken hmembers htaken => exact .inl ⟨_, hmembers, htaken, rfl⟩
  | unfit => exact .inr (.of_false rfl)
  | refused hmembers hfree hparameters hfetch =>
    rw [fetchOne_eq] at hfetch
    refine .inr ((blames_expect (.creation family) hfetch).mono fun i hi => ?_)
    rw [List.flatMap_singleton]
    exact List.mem_append_right _ hi

/-! ## What a creation asks for -/

section Asked

variable {later : List (Ask σ)} {answer : Except Raised Ref}

/-- What the inquiries of a creation are for. -/
theorem asked_of_mem (hfamily : Family.ofOwner? (w.resource owner).kind = some family)
    (h : client.Course family owner creation w later answer w')
    (hi : i ∈ (w.listing owner ++ later).flatMap client.inquiriesOf) :
    i.asked = owner ∧
      (i.purpose = .root ∧ i.relation = none ∨
        i.purpose = .members family ∧ i.relation = some family.listRelation ∨
        i.purpose = .creation family ∧ i.relation = some family.addRelation) := by
  rw [List.flatMap_append] at hi
  obtain hi | hi := List.mem_append.mp hi
  · exact (inquiry_cases_listing hfamily hi).imp_right (.imp_right .inl)
  · obtain rfl | ⟨refs, w₁, parameters, -, -, rfl⟩ := h.later_cases
    · cases hi
    · rw [List.flatMap_singleton] at hi
      exact (inquiry_cases hi).imp_right (.imp_right .inr)

theorem purpose_of_listing (hfamily : Family.ofOwner? (w.resource owner).kind = some family)
    (hi : i ∈ (w.listing owner).flatMap client.inquiriesOf) : i.purpose ≠ .creation family := by
  intro hpurpose
  obtain ⟨-, ⟨hroot, -⟩ | ⟨hmembers, -⟩⟩ := inquiry_cases_listing hfamily hi
  · rw [hroot] at hpurpose
    cases hpurpose
  · rw [hmembers] at hpurpose
    cases hpurpose

theorem purpose_of_catalogInquiries (hi : i ∈ w.catalogInquiries r) :
    i.purpose ≠ .creation family := by
  obtain ⟨rfl, -⟩ := mem_catalogInquiries hi
  nofun

/-- The inquiry for the new member is the last one, after those for the members. -/
theorem Course.once (hfamily : Family.ofOwner? (w.resource owner).kind = some family)
    (h : client.Course family owner creation w later answer w') {before after : List (Inquiry σ)}
    (hsplit : (w.listing owner ++ later).flatMap client.inquiriesOf = before ++ i :: after)
    (hi : i.purpose = .creation family) :
    after = [] ∧ (∀ j ∈ before, j.purpose ≠ .creation family) ∧
      ∃ refs w₁, (client.members owner).exec w = (.ok refs, w₁) ∧ ¬w₁.Taken refs creation ∧
        ∀ j ∈ (w.listing owner).flatMap client.inquiriesOf, j ∈ before := by
  rw [List.flatMap_append] at hsplit
  obtain ⟨rest, hlisting⟩ | ⟨front, rfl, hlater⟩ := append_eq_append_cons hsplit
  · have hmem : i ∈ (w.listing owner).flatMap client.inquiriesOf := by simp [hlisting]
    exact absurd hi (purpose_of_listing hfamily hmem)
  · obtain rfl | ⟨refs, w₁, parameters, hmembers, hfree, rfl⟩ := h.later_cases
    · simp at hlater
    · rw [List.flatMap_singleton] at hlater
      obtain ⟨rest, hcatalog⟩ | ⟨front', rfl, hlink⟩ := append_eq_append_cons hlater
      · have hmem : i ∈ w₁.catalogInquiries owner := hcatalog ▸ by simp
        exact absurd hi (purpose_of_catalogInquiries hmem)
      · obtain ⟨rfl, rfl⟩ := linkInquiries_split hlink
        refine ⟨rfl, fun j hj => ?_, refs, w₁, hmembers, hfree, fun j => List.mem_append_left _⟩
        rw [List.append_nil] at hj
        obtain hj | hj := List.mem_append.mp hj
        · exact purpose_of_listing hfamily hj
        · exact purpose_of_catalogInquiries hj

end Asked

/-! ## The law -/

/-- How the members of an owner, the request for a new one and conflicts belong together when a
member is created. -/
structure Preflight (client : Client σ) (family : Family) (owner : Ref) (creation : Creation)
    (w : World σ) : Prop where
  /-- What is sent are the calls of the inquiries, in order. -/
  calls : (client.step (.create owner creation) w).2.exchange.calls =
    w.exchange.calls ++ (client.inquiries (.create owner creation) w).filterMap client.call?
  /-- They follow links of the owner: to the root, to its members, and to the new one. -/
  asked : ∀ i ∈ client.inquiries (.create owner creation) w, i.IsGrounded ∧ i.asked = owner ∧
    (i.purpose = .root ∧ i.relation = none ∨
      i.purpose = .members family ∧ i.relation = some family.listRelation ∨
      i.purpose = .creation family ∧ i.relation = some family.addRelation)
  /-- If an argument lacks, the request is refused, and nothing happens. -/
  incomplete : ¬creation.IsComplete → ∃ argument, client.step (.create owner creation) w =
    (.error (.client (.invalidRequest (.notGiven argument))), w)
  /-- The members that are looked through are loaded then. If they were before, nothing is done
  for it. -/
  looked : ∀ refs w₁, (client.members owner).exec w = (.ok refs, w₁) →
    (w₁.resource owner).members.cell.items? = some refs ∧
      ((w.resource owner).members.cell.items? ≠ none → w₁ = w)
  /-- If one of them has the name, that is a conflict, and nothing more is done. -/
  taken : creation.IsComplete → ∀ refs w₁, (client.members owner).exec w = (.ok refs, w₁) →
    w₁.Taken refs creation →
    (∃ name, creation.name.asText? = some name ∧ client.step (.create owner creation) w =
        (.error (.client (.duplicate family.memberKind name)), w₁)) ∧
      ∀ i ∈ client.inquiries (.create owner creation) w, i.purpose ≠ .creation family
  /-- The new one is asked for once at most, after all else, and only if none has the name. If the
  members were not loaded, they were listed before. -/
  once : ∀ before i after, client.inquiries (.create owner creation) w = before ++ i :: after →
    i.purpose = .creation family →
    after = [] ∧ (∀ j ∈ before, j.purpose ≠ .creation family) ∧
      (∃ refs w₁, (client.members owner).exec w = (.ok refs, w₁) ∧ ¬w₁.Taken refs creation) ∧
      ((w.resource owner).members.cell.items? = none →
        ∃ j ∈ before, j.purpose = .members family ∧ (client.data? j).isSome)
  /-- A conflict names the name if one of the members has it. Otherwise it names the URL of a call
  that the server refused as a conflict. -/
  conflict : ∀ e, (client.step (.create owner creation) w).1 = .error (.client e) →
    e.isConflict = true →
    (∃ refs w₁ name, (client.members owner).exec w = (.ok refs, w₁) ∧ w₁.Taken refs creation ∧
        creation.name.asText? = some name ∧ e.takenName? = some name ∧ e.url? = none) ∨
      ∃ i ∈ client.inquiries (.create owner creation) w, ∃ call r, client.call? i = some call ∧
        (client.transport.send call i.state.exchange.server).1 = .error r ∧
        r.isA .conflict = true ∧ e.takenName? = none ∧ e.url? = some call.url
  /-- If a creation fails, the members are those that were looked through. -/
  failed : creation.IsComplete → ∀ refs w₁, (client.members owner).exec w = (.ok refs, w₁) →
    ∀ e, (client.step (.create owner creation) w).1 = .error e →
    ((client.step (.create owner creation) w).2.resource owner).members.cell.items? = some refs
  /-- If it succeeds, they are those with the new one at the end, which is made of the answer. -/
  created : ∀ answer, (client.step (.create owner creation) w).1 = .ok answer → ∃ refs w₁,
    (client.members owner).exec w = (.ok refs, w₁) ∧ ¬w₁.Taken refs creation ∧
      answer = .resource w₁.store.next ∧
      ((client.step (.create owner creation) w).2.resource owner).members.cell.items? =
        some (refs ++ [w₁.store.next]) ∧
      (∀ r < w₁.store.next, ((client.step (.create owner creation) w).2.resource r).attributes =
        (w₁.resource r).attributes) ∧
      ∃ i ∈ client.inquiries (.create owner creation) w, i.purpose = .creation family ∧
        ∃ representation, client.data? i = some (.record representation) ∧
          (client.step (.create owner creation) w).2.resource w₁.store.next =
            .ofRepresentation owner representation

theorem looked_through (hfamily : Family.ofOwner? (w.resource owner).kind = some family)
    {refs : List Ref} (hmembers : (client.members owner).exec w = (.ok refs, w₁)) :
    (w₁.resource owner).members.cell.items? = some refs ∧
      ((w.resource owner).members.cell.items? ≠ none → w₁ = w) := by
  refine ⟨items_of_members hfamily hmembers, fun hitems => ?_⟩
  obtain ⟨-, rfl⟩ | ⟨hnone, -⟩ := (members_eq_ok hfamily).mp hmembers
  · rfl
  · exact absurd hnone hitems

theorem preflight_of_incomplete (hfamily : Family.ofOwner? (w.resource owner).kind = some family)
    (hcomplete : ¬creation.IsComplete) : client.Preflight family owner creation w := by
  obtain ⟨argument, hlacks⟩ := Creation.lacks?_of_not_complete hcomplete
  obtain ⟨hstep, hasks⟩ := client.step_create_of_lacks owner w hlacks
  have hinquiries : client.inquiries (.create owner creation) w = [] := by
    rw [inquiries, hasks]
    rfl
  exact {
    calls := by simp [hstep, hinquiries]
    asked := by simp [hinquiries]
    incomplete := fun _ => ⟨argument, hstep⟩
    looked := fun _ _ hmembers => looked_through hfamily hmembers
    taken := fun h => absurd h hcomplete
    once := by simp [hinquiries]
    conflict := fun e he hconflict => by
      rw [hstep] at he
      cases he
      cases hconflict
    failed := fun h => absurd h hcomplete
    created := by simp [hstep] }

/-- A creation looks among the members before it asks for the new one, whatever state it finds. -/
theorem conflict_before_request (htransport : client.transport.OnlyRefuses)
    (hfamily : Family.ofOwner? (w.resource owner).kind = some family) (creation : Creation) :
    client.Preflight family owner creation w := by
  by_cases hcomplete : ¬creation.IsComplete
  · exact preflight_of_incomplete hfamily hcomplete
  rw [not_not] at hcomplete
  obtain ⟨later, answer, w', hinquiries, hcourse, hstep⟩ := client.step_course hfamily hcomplete
  refine ⟨(client.step_conducts _ w).calls, fun i hi => ⟨?_, ?_⟩, fun h => absurd hcomplete h,
    fun _ _ hmembers => looked_through hfamily hmembers,
    fun _ refs w₁ hmembers htaken => ?_, fun before i after hsplit hi => ?_,
    fun e he hconflict => ?_, fun _ refs w₁ hmembers e he => ?_, fun found hfound => ?_⟩
  · obtain ⟨before, after, hsplit⟩ := List.append_of_mem hi
    exact (inquiries_split hsplit).2
  · exact asked_of_mem hfamily hcourse (hinquiries ▸ hi)
  · obtain ⟨rfl, rfl, rfl⟩ := hcourse.of_taken hmembers htaken
    refine ⟨⟨_, htaken.name, hstep⟩, fun i hi => ?_⟩
    rw [hinquiries, List.append_nil] at hi
    exact purpose_of_listing hfamily hi
  · rw [hinquiries] at hsplit
    obtain ⟨hafter, hbefore, refs, w₁, hmembers, hfree, hlisting⟩ :=
      hcourse.once hfamily hsplit hi
    refine ⟨hafter, hbefore, ⟨refs, w₁, hmembers, hfree⟩, fun hnone => ?_⟩
    obtain ⟨j, hj, hpurpose, representations, hdata⟩ :=
      inquiry_of_members hfamily hnone hmembers
    exact ⟨j, hlisting j (mem_listing hfamily hnone hj), hpurpose, by rw [hdata]; rfl⟩
  · rw [hstep] at he
    cases answer with
    | ok r => cases he
    | error raised =>
      obtain rfl := Except.error.inj he
      obtain ⟨refs, hmembers, htaken, he⟩ | hblames := hcourse.blames hfamily
      · cases he
        exact .inl ⟨refs, w', _, hmembers, htaken, htaken.name, rfl, rfl⟩
      · obtain ⟨i, hi, houtcome⟩ := hblames hconflict
        obtain ⟨call, r, hcall, hreply, hrefused, he⟩ :=
          isConflict_outcome htransport houtcome hconflict
        cases he
        exact .inr ⟨i, hinquiries ▸ hi, call, r, hcall, hreply, hrefused, rfl, rfl⟩
  · rw [hstep] at he ⊢
    cases answer with
    | ok r => cases he
    | error raised => exact hcourse.items_of_error hfamily hmembers
  · rw [hstep] at hfound ⊢
    rw [hinquiries]
    cases answer with
    | error raised => cases hfound
    | ok r =>
      obtain rfl := Except.ok.inj hfound
      obtain ⟨refs, w₁, hmembers, hfree, rfl, hrest⟩ := hcourse.created_eq hfamily
      exact ⟨refs, w₁, hmembers, hfree, rfl, hrest⟩

/-- A server with the domain "a", on which every other one conflicts with something. -/
def crowded : Client Unit where
  service := ⟨"b", "c", 990⟩
  transport := ⟨fun call s =>
    match call.method, call.url with
    | .get, "b/broker/rest/api" => (.ok rootBody, s)
    | .get, _ => (.ok (domainsBody true), s)
    | _, _ => (.error (.fault (.http ⟨.conflict, "refused", some 409, none, none⟩)), s)⟩

/-- The name and the URL that an outcome reports for a conflict. -/
def conflictOf : Except Raised Answer → Option (Option String × Option String)
  | .error (.client e) => if e.isConflict then some (e.takenName?, e.url?) else none
  | _ => none

theorem crowded_onlyRefuses : crowded.transport.OnlyRefuses := by
  intro call server r h
  simp only [crowded] at h
  split at h
  · cases h
  · cases h
  · cases h
    rfl

/-- The domain "a" is found among the members, and "b" is refused by the server. -/
theorem conflicts_crowded :
    crowded.Preflight .domains 0 (.domain (.str "a")) (.start ()) ∧
      crowded.Preflight .domains 0 (.domain (.str "b")) (.start ()) ∧
      conflictOf (crowded.step (.create 0 (.domain (.str "a"))) (.start ())).1 =
        some (some "a", none) ∧
      conflictOf (crowded.step (.create 0 (.domain (.str "b"))) (.start ())).1 =
        some (none, some "b/broker/rest/domains") :=
  ⟨conflict_before_request crowded_onlyRefuses rfl _,
    conflict_before_request crowded_onlyRefuses rfl _, by decide +kernel, by decide +kernel⟩

end Client

end BrokerClient.Hierarchy

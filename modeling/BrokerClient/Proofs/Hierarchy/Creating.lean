import BrokerClient.Proofs.Hierarchy.Seeking

/-!
# The course of a creation

To create a member, the members of the owner are looked through first, after they were listed if
they are not loaded. If one of them has the name the creation ends there. Otherwise the server is
asked for the new member, once, and what it answers is enrolled. Here are the five courses that
this can take, with what each asks for, and the answer of which a new member was made.
-/
namespace BrokerClient.Hierarchy

open Hierarchy.Action

variable {σ : Type} {client : Client σ} {w w' w₁ : World σ} {family : Family} {owner : Ref}
  {creation : Creation}

/-- Some resource of a list has the name that a new one is to have. -/
def World.Taken (w : World σ) (refs : List Ref) (creation : Creation) : Prop :=
  ∃ r ∈ refs, creation.name.asText? = some (w.resource r).name

theorem World.taken_iff_find? {refs : List Ref} :
    w.Taken refs creation ↔
      (refs.find? fun r => creation.name.asText? == some (w.resource r).name).isSome = true := by
  simp [Taken, List.find?_isSome]

/-- A name that is taken is a text. -/
theorem World.Taken.name {refs : List Ref} (h : w.Taken refs creation) :
    creation.name.asText? = some creation.name.text := by
  obtain ⟨r, -, hr⟩ := h
  cases hname : creation.name with
  | str | word => rfl
  | _ =>
    rw [hname] at hr
    cases hr

namespace Creation

/-- All arguments are there without which a resource is not created. -/
def IsComplete : Creation → Prop
  | domain id => id.isGiven = true
  | application name framework _ _ => name.isGiven = true ∧ framework.isNull = false
  | cartridge name => name.isGiven = true
  | key name _ publicKey => name.isGiven = true ∧ publicKey.isGiven = true

theorem lacks?_eq_none : creation.lacks? = none ↔ creation.IsComplete := by
  cases creation with
  | application name framework scale gearProfile =>
    cases framework <;> simp [lacks?, IsComplete, isLacking, Value.isNull]
  | key name type publicKey =>
    cases hname : name.isGiven <;> simp [lacks?, IsComplete, isLacking, hname]
  | _ => simp [lacks?, IsComplete, isLacking]

theorem lacks?_of_not_complete (h : ¬creation.IsComplete) :
    ∃ argument, creation.lacks? = some argument :=
  Option.ne_none_iff_exists'.mp (mt lacks?_eq_none.mp h)

end Creation

namespace Client

/-- What is asked for the new member itself. -/
def newcomer (family : Family) (owner : Ref) (parameters : Parameters) (w : World σ) : Ask σ :=
  ⟨w, owner, .follow family.addRelation parameters false (.creation family)⟩

/-- The courses that the creation of a member takes, each with what it asks for after the members,
with its outcome and with the state after it. -/
inductive Course (client : Client σ) (family : Family) (owner : Ref) (creation : Creation)
    (w : World σ) : List (Ask σ) → Except Raised Ref → World σ → Prop
  | unlisted {e : Raised} {w' : World σ}
      (hmembers : (client.members owner).exec w = (.error e, w')) :
      Course client family owner creation w [] (.error e) w'
  | taken {refs : List Ref} {w' : World σ}
      (hmembers : (client.members owner).exec w = (.ok refs, w'))
      (htaken : w'.Taken refs creation) :
      Course client family owner creation w []
        (.error (.client (.duplicate family.memberKind creation.name.text))) w'
  | unfit {refs : List Ref} {w' : World σ} {fault : Fault}
      (hmembers : (client.members owner).exec w = (.ok refs, w')) (hfree : ¬w'.Taken refs creation)
      (hparameters : creation.parameters = .error fault) :
      Course client family owner creation w [] (.error (.fault fault)) w'
  | refused {refs : List Ref} {w₁ w' : World σ} {parameters : Parameters} {e : Raised}
      (hmembers : (client.members owner).exec w = (.ok refs, w₁)) (hfree : ¬w₁.Taken refs creation)
      (hparameters : creation.parameters = .ok parameters)
      (hfetch : (client.fetchOne owner family.addRelation family.recordKind parameters).exec w₁ =
        (.error e, w')) :
      Course client family owner creation w [newcomer family owner parameters w₁] (.error e) w'
  | created {refs : List Ref} {w₁ w₂ : World σ} {parameters : Parameters}
      {representation : Representation}
      (hmembers : (client.members owner).exec w = (.ok refs, w₁)) (hfree : ¬w₁.Taken refs creation)
      (hparameters : creation.parameters = .ok parameters)
      (hfetch : (client.fetchOne owner family.addRelation family.recordKind parameters).exec w₁ =
        (.ok representation, w₂)) :
      Course client family owner creation w [newcomer family owner parameters w₁]
        (.ok w₂.store.next) (w₂.enroll family owner representation)

theorem member?_of_members {refs : List Ref} (name : Value)
    (hmembers : (client.members owner).exec w = (.ok refs, w')) :
    (client.member? owner name).exec w =
      (.ok (refs.find? fun r => name.asText? == some (w'.resource r).name), w') :=
  member?_eq_ok.mpr ⟨refs, hmembers, rfl⟩

/-- A creation with all arguments takes one of the courses. -/
theorem createIn_course (hfamily : Family.ofOwner? (w.resource owner).kind = some family)
    (hlacks : creation.lacks? = none) :
    ∃ later, client.asks (.create owner creation) w = w.listing owner ++ later ∧
      client.Course family owner creation w later
        ((client.createIn family owner creation).exec w).1
        ((client.createIn family owner creation).exec w).2 := by
  have hasks : client.asks (.create owner creation) w = client.creationAsks owner creation w := rfl
  simp only [hasks, creationAsks, hlacks, hfamily]
  refine ⟨_, rfl, ?_⟩
  rcases hmembers : (client.members owner).exec w with ⟨e | refs, w₁⟩
  · have hmember : (client.member? owner creation.name).exec w = (.error e, w₁) :=
      exec_bind_of_error hmembers _
    rw [createIn, exec_bind_of_error hmember, hmember]
    cases creation.parameters <;> exact .unlisted hmembers
  · have hmember := member?_of_members creation.name hmembers
    rw [hmember]
    cases hfound : refs.find? fun r => creation.name.asText? == some (w₁.resource r).name with
    | some r =>
      have htaken : w₁.Taken refs creation := World.taken_iff_find?.mpr (by rw [hfound]; rfl)
      rw [createIn, exec_bind_of_ok hmember, hfound]
      cases creation.parameters <;> exact .taken hmembers htaken
    | none =>
      have hfree : ¬w₁.Taken refs creation := by simp [World.taken_iff_find?, hfound]
      rw [hfound] at hmember
      cases hparameters : creation.parameters with
      | error fault =>
        have hfault : (parametersOf creation : Action σ Parameters).exec w₁ =
            (.error (.fault fault), w₁) := by
          rw [parametersOf, hparameters]
          rfl
        rw [createIn, exec_bind_of_ok hmember]
        simp only [Option.isSome_none, Bool.false_eq_true, if_false]
        rw [exec_bind_of_error hfault]
        exact .unfit hmembers hfree hparameters
      | ok parameters =>
        rcases hfetch : (client.fetchOne owner family.addRelation family.recordKind
          parameters).exec w₁ with ⟨e | representation, w₂⟩
        · rw [createIn, exec_bind_of_ok hmember]
          simp only [Option.isSome_none, Bool.false_eq_true, if_false]
          rw [exec_bind_of_ok (parametersOf_eq_ok.mpr ⟨hparameters, rfl⟩),
            exec_bind_of_error hfetch]
          exact .refused hmembers hfree hparameters hfetch
        · rw [createIn_eq_ok.mpr
            ⟨w₁, parameters, representation, w₂, hmember, hparameters, hfetch, rfl, rfl⟩]
          exact .created hmembers hfree hparameters hfetch

theorem step_create (hfamily : Family.ofOwner? (w.resource owner).kind = some family)
    (hlacks : creation.lacks? = none) :
    client.step (.create owner creation) w =
      ((client.createIn family owner creation).exec w).map (·.map .resource) id := by
  have hstep : client.step (.create owner creation) w =
      exec (Answer.resource <$> client.create owner creation) w := rfl
  rw [hstep, exec_map, create, demand_bind_of_none hlacks, exec_bind_of_ok (exec_get w)]
  simp only [hfamily]
  rfl

/-- A creation for which an argument lacks asks for nothing. -/
theorem step_create_of_lacks (client : Client σ) (owner : Ref) (w : World σ)
    {argument : Argument} (hlacks : creation.lacks? = some argument) :
    client.step (.create owner creation) w =
        (.error (.client (.invalidRequest (.notGiven argument))), w) ∧
      client.asks (.create owner creation) w = [] := by
  have hstep : client.step (.create owner creation) w =
      exec (Answer.resource <$> client.create owner creation) w := rfl
  have hasks : client.asks (.create owner creation) w = client.creationAsks owner creation w := rfl
  constructor
  · rw [hstep, exec_map, create, demand_bind_of_some hlacks]
    rfl
  · rw [hasks, creationAsks, hlacks]

/-- A creation with all arguments, with its inquiries and with what comes of it. -/
theorem step_course (hfamily : Family.ofOwner? (w.resource owner).kind = some family)
    (hcomplete : creation.IsComplete) :
    ∃ later answer w', client.inquiries (.create owner creation) w =
        (w.listing owner ++ later).flatMap client.inquiriesOf ∧
      client.Course family owner creation w later answer w' ∧
      client.step (.create owner creation) w = (answer.map .resource, w') := by
  have hlacks := Creation.lacks?_eq_none.mpr hcomplete
  obtain ⟨later, hasks, hcourse⟩ := client.createIn_course hfamily hlacks
  refine ⟨later, _, _, ?_, hcourse, step_create hfamily hlacks⟩
  rw [inquiries, hasks]

/-! ## The answer that a member is made of -/

/-- If what is expected of an answer is there, one inquiry has brought it. -/
theorem inquiry_of_expect {α : Type} {r : Ref} {relation : String} {parameters : Parameters}
    {view : Payload → Option α} {reason : Payload → EndpointReason} {a : α} (purpose : Purpose)
    (h : (client.expect r relation parameters view reason).exec w = (.ok a, w')) :
    ∃ i ∈ client.linkInquiries ⟨w, r, .follow relation parameters false purpose⟩,
      i.purpose = purpose ∧
        ∃ payload, (client.outcome i).1 = .ok payload ∧ view payload = some a := by
  obtain ⟨link, w₁, payload, hlink, hsend, hview⟩ := expect_eq_ok.mp h
  refine ⟨⟨w₁, r, some relation, purpose, link, parameters, false⟩, ?_, rfl, payload, ?_, hview⟩
  · simp only [linkInquiries, hlink, List.mem_singleton]
  · rw [outcome, hsend]

theorem newcomer_of_fetchOne {parameters : Parameters} {representation : Representation}
    (h : (client.fetchOne owner family.addRelation family.recordKind parameters).exec w =
      (.ok representation, w')) :
    ∃ i ∈ client.inquiriesOf (newcomer family owner parameters w),
      i.purpose = .creation family ∧ client.data? i = some (.record representation) := by
  rw [fetchOne_eq] at h
  obtain ⟨i, hi, hpurpose, payload, houtcome, hview⟩ := inquiry_of_expect (.creation family) h
  refine ⟨i, List.mem_append_right _ hi, hpurpose, ?_⟩
  rw [data?_of_outcome houtcome, hpurpose, Purpose.read?, hview]
  rfl

/-- How the members of an owner are listed that are not loaded. -/
theorem mem_listing (hfamily : Family.ofOwner? (w.resource owner).kind = some family)
    (hnone : (w.resource owner).members.cell.items? = none) {i : Inquiry σ}
    (hi : i ∈ client.linkInquiries ⟨(World.members owner).loading w, owner,
      .follow family.listRelation [] false (.members family)⟩) :
    i ∈ (w.listing owner).flatMap client.inquiriesOf := by
  simp only [World.listing, hfamily, hnone, List.flatMap_singleton]
  exact List.mem_append_right _ hi

/-- If the members had to be listed, one inquiry has brought the list. -/
theorem inquiry_of_members (hfamily : Family.ofOwner? (w.resource owner).kind = some family)
    {refs : List Ref} (hnone : (w.resource owner).members.cell.items? = none)
    (hmembers : (client.members owner).exec w = (.ok refs, w')) :
    ∃ i ∈ client.linkInquiries ⟨(World.members owner).loading w, owner,
        .follow family.listRelation [] false (.members family)⟩,
      i.purpose = .members family ∧
        ∃ representations, client.data? i = some (.records representations) := by
  obtain ⟨hitems, -⟩ | ⟨-, w₁, hfetch, -⟩ := (members_eq_ok hfamily).mp hmembers
  · rw [hnone] at hitems
    cases hitems
  · obtain ⟨representations, w₂, hlist, -⟩ := fetchMembers_eq_ok.mp hfetch
    rw [fetchList_eq] at hlist
    obtain ⟨i, hi, hpurpose, payload, houtcome, hview⟩ :=
      inquiry_of_expect (.members family) hlist
    refine ⟨i, hi, hpurpose, representations.filter family.admits, ?_⟩
    rw [data?_of_outcome houtcome, hpurpose, Purpose.read?, hview]
    rfl

/-! ## Courses in which the members were there -/

section Members

variable {later : List (Ask σ)} {answer : Except Raised Ref} {refs : List Ref}

theorem members_unique {refs' : List Ref} {w₂ : World σ}
    (h : (client.members owner).exec w = (.ok refs, w₁))
    (h' : (client.members owner).exec w = (.ok refs', w₂)) : refs' = refs ∧ w₂ = w₁ := by
  rw [h] at h'
  cases h'
  exact ⟨rfl, rfl⟩

theorem Course.of_taken (h : client.Course family owner creation w later answer w')
    (hmembers : (client.members owner).exec w = (.ok refs, w₁)) (htaken : w₁.Taken refs creation) :
    later = [] ∧ answer = .error (.client (.duplicate family.memberKind creation.name.text)) ∧
      w' = w₁ := by
  cases h with
  | unlisted hmembers' =>
    rw [hmembers] at hmembers'
    cases hmembers'
  | taken hmembers' =>
    obtain ⟨-, rfl⟩ := members_unique hmembers hmembers'
    exact ⟨rfl, rfl, rfl⟩
  | unfit hmembers' hfree | refused hmembers' hfree | created hmembers' hfree =>
    obtain ⟨rfl, rfl⟩ := members_unique hmembers hmembers'
    exact absurd htaken hfree

/-- A creation that fails after the members were looked through only fills. -/
theorem Course.fills_of_error {e : Raised}
    (h : client.Course family owner creation w later (.error e) w')
    (hmembers : (client.members owner).exec w = (.ok refs, w₁)) : client.Fills w₁ w' := by
  cases h with
  | unlisted hmembers' =>
    rw [hmembers] at hmembers'
    cases hmembers'
  | taken hmembers' | unfit hmembers' =>
    obtain ⟨-, rfl⟩ := members_unique hmembers hmembers'
    exact .refl _
  | refused hmembers' hfree hparameters hfetch =>
    obtain ⟨-, rfl⟩ := members_unique hmembers hmembers'
    exact (client.fetchOne_fills _ _ _ _).of_eq hfetch

theorem Course.items_of_error {e : Raised}
    (hfamily : Family.ofOwner? (w.resource owner).kind = some family)
    (h : client.Course family owner creation w later (.error e) w')
    (hmembers : (client.members owner).exec w = (.ok refs, w₁)) :
    (w'.resource owner).members.cell.items? = some refs :=
  (h.fills_of_error hmembers).items_of_some (items_of_members hfamily hmembers)

/-- The new member is put at the end of those that were looked through. -/
theorem Course.created_eq (hfamily : Family.ofOwner? (w.resource owner).kind = some family)
    (h : client.Course family owner creation w later (.ok r) w') :
    ∃ refs w₁, (client.members owner).exec w = (.ok refs, w₁) ∧ ¬w₁.Taken refs creation ∧
      r = w₁.store.next ∧
      (w'.resource owner).members.cell.items? = some (refs ++ [w₁.store.next]) ∧
      (∀ s < w₁.store.next, (w'.resource s).attributes = (w₁.resource s).attributes) ∧
      ∃ i ∈ (w.listing owner ++ later).flatMap client.inquiriesOf, i.purpose = .creation family ∧
        ∃ representation, client.data? i = some (.record representation) ∧
          w'.resource w₁.store.next = .ofRepresentation owner representation := by
  cases h with
  | @created refs w₁ w₂ parameters representation hmembers hfree hparameters hfetch =>
    have hfills := (client.fetchOne_fills _ _ _ _).of_eq hfetch
    have hnext := next_of_fetchOne hfetch
    have howner : owner < w₂.store.next :=
      (World.lt_next_of_owner hfamily).trans_le
        (((client.members_fills owner).of_eq hmembers).next.trans hfills.next)
    have hitems := hfills.items_of_some (items_of_members hfamily hmembers)
    obtain ⟨i, hi, hpurpose, hdata⟩ := newcomer_of_fetchOne hfetch
    rw [hnext] at howner ⊢
    refine ⟨refs, w₁, hmembers, hfree, rfl, ?_, fun s hs => ?_, i, ?_, hpurpose, representation,
      hdata, ?_⟩
    · rw [World.resource_enroll (hnext ▸ howner), hnext, if_neg howner.ne, if_pos rfl,
        Resource.withMembers, Lazy.Cell.items?_edit, hitems]
      rfl
    · rw [World.resource_enroll (hnext ▸ howner), hnext, if_neg hs.ne, ← hfills.attributes s hs]
      split <;> rfl
    · rw [List.flatMap_append, List.flatMap_singleton]
      exact List.mem_append_right _ hi
    · rw [World.resource_enroll (hnext ▸ howner), hnext, if_pos rfl]

end Members

/-! ## What is asked for in the course of a creation -/

/-- The new member is asked for when none of the members has its name, or not at all. -/
theorem Course.later_cases {later : List (Ask σ)} {answer : Except Raised Ref}
    (h : client.Course family owner creation w later answer w') :
    later = [] ∨ ∃ refs w₁ parameters, (client.members owner).exec w = (.ok refs, w₁) ∧
      ¬w₁.Taken refs creation ∧ later = [newcomer family owner parameters w₁] := by
  cases h with
  | refused hmembers hfree => exact .inr ⟨_, _, _, hmembers, hfree, rfl⟩
  | created hmembers hfree => exact .inr ⟨_, _, _, hmembers, hfree, rfl⟩
  | _ => exact .inl rfl

/-- An inquiry is for the catalog of the root, or for what the link leads to. -/
theorem inquiry_cases {relation : String} {parameters : Parameters} {deleteWithBody : Bool}
    {purpose : Purpose} {i : Inquiry σ}
    (hi : i ∈ client.inquiriesOf ⟨w, owner, .follow relation parameters deleteWithBody purpose⟩) :
    i.asked = owner ∧
      (i.purpose = .root ∧ i.relation = none ∨
        i.purpose = purpose ∧ i.relation = some relation) := by
  obtain hroot | hlink := List.mem_append.mp hi
  · obtain ⟨rfl, -⟩ := mem_catalogInquiries hroot
    exact ⟨rfl, .inl ⟨rfl, rfl⟩⟩
  · obtain ⟨hasked, hpurpose, relation', hrelation, hfollow⟩ := mem_linkInquiries hlink
    cases hpurpose
    cases hfollow
    exact ⟨hasked, .inr ⟨rfl, hrelation⟩⟩

theorem inquiry_cases_listing (hfamily : Family.ofOwner? (w.resource owner).kind = some family)
    {i : Inquiry σ} (hi : i ∈ (w.listing owner).flatMap client.inquiriesOf) :
    i.asked = owner ∧
      (i.purpose = .root ∧ i.relation = none ∨
        i.purpose = .members family ∧ i.relation = some family.listRelation) := by
  unfold World.listing at hi
  split at hi
  · rename_i family' hfamily' hitems
    obtain rfl := Option.some.inj (hfamily.symm.trans hfamily')
    rw [List.flatMap_singleton] at hi
    exact inquiry_cases hi
  · cases hi

/-- What a link leads to takes one inquiry at most. -/
theorem linkInquiries_split {ask : Ask σ} {before after : List (Inquiry σ)} {i : Inquiry σ}
    (h : client.linkInquiries ask = before ++ i :: after) : before = [] ∧ after = [] := by
  have hlength : (client.linkInquiries ask).length ≤ 1 := by
    unfold linkInquiries
    split
    · split <;> simp
    · simp
  rw [h, List.length_append, List.length_cons] at hlength
  constructor <;> (apply List.length_eq_zero_iff.mp; omega)

end Client

end BrokerClient.Hierarchy

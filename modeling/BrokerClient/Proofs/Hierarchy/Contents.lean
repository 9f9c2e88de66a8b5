import BrokerClient.Proofs.Hierarchy.Creating
import BrokerClient.Proofs.Hierarchy.Latest

/-!
# What is kept is what was fetched

An inquiry for a place brings data, and after the operation the place holds just these: the catalog
itself, a user or members made of the records, or the gears. An operation on a place answers what
can be read off it.
-/
namespace BrokerClient.Hierarchy

open Hierarchy.Action

variable {σ : Type}

/-- A place holds data that were fetched for it. What was made of records shows them, and members
that were made since come after those. -/
def Slot.Holds (slot : Slot) (w : World σ) (made : List Ref) : Data → Prop
  | .catalog catalog =>
    slot.part = .catalog ∧ (w.resource slot.owner).catalog = some catalog
  | .record representation =>
    slot.part = .user ∧ ∃ user, (w.resource slot.owner).attributes.user? = some user ∧
      (w.resource user).Shows slot.owner representation
  | .records representations =>
    slot.part = .members ∧ ∃ refs,
      (w.resource slot.owner).members.cell.items? = some (refs ++ made) ∧
      List.Forall₂ (fun r representation => (w.resource r).Shows slot.owner representation) refs
        representations
  | .gears gears =>
    slot.part = .gears ∧ (w.resource slot.owner).gears.cell.items? = some gears

/-- The member that an operation has made. -/
def Op.made (op : Op) (answer : Except Raised Answer) : List Ref :=
  match op, answer with
  | .create .., .ok (.resource r) => [r]
  | _, _ => []

namespace Client

variable {client : Client σ} {w w' w₁ : World σ} {r : Ref} {i : Inquiry σ}

/-! ## Data of an answer -/

theorem read?_of_data? {data : Data} (h : client.data? i = some data) :
    ∃ payload, i.purpose.read? payload = some data := by
  obtain ⟨payload, -, hread⟩ := Option.bind_eq_some_iff.mp h
  exact ⟨payload, hread⟩

/-- If the answer to an inquiry holds data, what is expected of it is there. -/
theorem expect_of_data? {relation : String} {parameters : Parameters} {purpose : Purpose}
    {α : Type} {data : Data} (view : Payload → Option α) (reason : Payload → EndpointReason)
    (hread : ∀ payload, view payload = none → purpose.read? payload = none)
    (hi : i ∈ client.linkInquiries ⟨w, r, .follow relation parameters false purpose⟩)
    (hdata : client.data? i = some data) :
    ∃ payload a w', (client.expect r relation parameters view reason).exec w = (.ok a, w') ∧
      view payload = some a ∧ purpose.read? payload = some data := by
  simp only [linkInquiries] at hi
  split at hi
  · rename_i link w₁ hlink
    obtain rfl := List.mem_singleton.mp hi
    obtain ⟨payload, houtcome, hpayload⟩ := Option.bind_eq_some_iff.mp hdata
    rcases hsend : (client.send link parameters false).exec w₁ with ⟨e | payload', w₂⟩
    · rw [outcome, hsend] at houtcome
      cases houtcome
    · rw [outcome, hsend] at houtcome
      obtain rfl := Option.some.inj houtcome
      cases hview : view payload' with
      | none =>
        rw [show purpose.read? payload' = none from hread payload' hview] at hpayload
        cases hpayload
      | some a =>
        exact ⟨payload', a, w₂, expect_eq_ok.mpr ⟨link, w₁, payload', hlink, hsend, hview⟩, hview,
          hpayload⟩
  · cases hi

/-! ## Members -/

/-- The members of an owner that had to be listed are those in the answer. -/
theorem holds_of_listed {owner : Ref} {family : Family} {data : Data}
    (hfamily : Family.ofOwner? (w.resource owner).kind = some family)
    (hitems : (w.resource owner).members.cell.items? = none)
    (hi : i ∈ client.linkInquiries ⟨(World.members owner).loading w, owner,
      .follow family.listRelation [] false (.members family)⟩)
    (hdata : client.data? i = some data) :
    ∃ refs w', (client.members owner).exec w = (.ok refs, w') ∧
      Slot.Holds ⟨owner, .members⟩ w' [] data := by
  obtain ⟨payload, representations, w₁, hexpect, hview, hread⟩ :=
    expect_of_data? (·.listOf? family.recordKind) (fun _ => .expectedList family.recordKind)
      (fun payload hview => by simp [Purpose.read?, hview]) hi hdata
  rw [← fetchList_eq] at hexpect
  have hdata' : data = .records (representations.filter family.admits) := by
    simpa [Purpose.read?, hview] using hread.symm
  let adopted := w₁.adoptAll owner (representations.filter family.admits)
  have hfetch : (client.fetchMembers family owner).exec ((World.members owner).loading w) =
      (.ok adopted.1, adopted.2) :=
    fetchMembers_eq_ok.mpr ⟨representations, w₁, hexpect, rfl⟩
  have hmembers : (client.members owner).exec w =
      (.ok adopted.1, (World.members owner).fill (.loaded adopted.1) adopted.2) :=
    (members_eq_ok hfamily).mpr (.inr ⟨hitems, adopted.2, hfetch, rfl⟩)
  have hkind : Family.ofOwner? (((World.members owner).loading w).resource owner).kind =
      some family := by
    rw [(resembles_loading_members hitems).kind, hfamily]
  have hlists := (lists_of_adoptAll hkind hexpect rfl).alter (r := owner)
    (Resource.core_withMembers (.loaded adopted.1))
  subst hdata'
  refine ⟨_, _, hmembers, rfl, adopted.1, ?_, hlists.shows⟩
  rw [List.append_nil]
  exact items_of_members hfamily hmembers

/-- An operation that looks up members, without creating one, does nothing else. -/
theorem step_of_slot? {op : Op} {owner : Ref} (client : Client σ) (w : World σ)
    (hslot : op.slot? = some ⟨owner, .members⟩) (hop : ∀ creation, op ≠ .create owner creation) :
    client.asks op w = w.listing owner ∧
      (client.step op w).2 = ((client.members owner).exec w).2 := by
  have hstep : (client.step op w).2 = (exec (client.perform op) w).2 := rfl
  cases op with
  | members owner' =>
    cases hslot
    exact ⟨rfl, by rw [hstep, perform, exec_map]⟩
  | member owner' name =>
    cases hslot
    exact ⟨rfl, by rw [hstep, perform, exec_map, member?_snd]⟩
  | hasMember owner' name =>
    cases hslot
    exact ⟨rfl, by rw [hstep, perform, exec_map, member?_snd]⟩
  | applicationsOf domain cartridge =>
    cases hslot
    exact ⟨rfl, by rw [hstep, perform, exec_map, applicationsOf_snd]⟩
  | hasApplicationsOf domain cartridge =>
    cases hslot
    exact ⟨rfl, by rw [hstep, perform, exec_map, applicationsOf_snd]⟩
  | create owner' creation =>
    cases hslot
    exact absurd rfl (hop creation)
  | _ => cases hslot

theorem step_eq_ok {α : Type} {op : Op} {g : α → Answer} {x : Action σ α} {answer : Answer}
    (hop : client.perform op = g <$> x) (h : client.step op w = (.ok answer, w')) :
    ∃ a, x.exec w = (.ok a, w') ∧ g a = answer := by
  have hstep : client.step op w = exec (client.perform op) w := rfl
  rw [hstep, hop] at h
  exact exec_map_eq_ok.mp h

end Client

end BrokerClient.Hierarchy

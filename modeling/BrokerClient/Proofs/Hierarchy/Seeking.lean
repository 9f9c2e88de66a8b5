import BrokerClient.Proofs.Hierarchy.Asking

/-!
# Inquiries for places

An operation makes at most one inquiry for each place. From an inquiry for a place it can be told
which operation it is and that the place is not filled. Whatever an owner is asked for under the
relation of one of its places is for that place, unless it is asked for a refresh.
-/
namespace BrokerClient.Hierarchy

open Hierarchy.Action

variable {σ : Type}

/-- The relation of the owner under which something for a place is fetched. The catalog of the root
is not found under any. -/
def Slot.relation? (slot : Slot) (w : World σ) : Option String :=
  match slot.part with
  | .catalog => none
  | .user => some Relation.getUser
  | .members => (Family.ofOwner? (w.resource slot.owner).kind).map Family.listRelation
  | .gears => some Relation.getGears

/-- Two inquiries are not for the same place. -/
def Inquiry.Apart (i j : Inquiry σ) : Prop := ∀ slot, i.slot? = some slot → j.slot? ≠ some slot

namespace Client

variable {client : Client σ} {w w₁ : World σ} {op : Op} {slot : Slot} {i j : Inquiry σ}

/-! ## One inquiry for each place -/

theorem Posed.purpose_ne_root {op : Op} {ask : Ask σ} (h : client.Posed op w ask) :
    ask.aim.purpose? ≠ some .root := by
  intro hpurpose
  cases h with
  | idle hidle => rw [hidle] at hpurpose; cases hpurpose
  | _ => cases hpurpose

theorem part_ne_catalog {purpose : Purpose} (h : purpose ≠ .root) :
    purpose.part? ≠ some .catalog := by
  cases purpose with
  | root => exact absurd rfl h
  | _ => nofun

/-- An inquiry for a place is for one of the resource that was asked. -/
theorem of_slot? {i : Inquiry σ} {slot : Slot} (h : i.slot? = some slot) :
    i.asked = slot.owner ∧ i.purpose.part? = some slot.part := by
  obtain ⟨part, hpart, rfl⟩ := Option.map_eq_some_iff.mp h
  exact ⟨rfl, hpart⟩

/-- To ask for something takes at most one inquiry for the root and one for the rest. -/
theorem apart_inquiriesOf {ask : Ask σ} (h : ask.aim.purpose? ≠ some .root) :
    (client.inquiriesOf ask).Pairwise Inquiry.Apart := by
  refine List.pairwise_append.mpr ⟨?_, ?_, fun i hi j hj slot hslot hslot' => ?_⟩
  · unfold World.catalogInquiries
    split <;> simp
  · unfold linkInquiries
    split
    · split <;> simp
    · simp
  · obtain ⟨rfl, -⟩ := mem_catalogInquiries hi
    obtain ⟨-, hpurpose, -⟩ := mem_linkInquiries hj
    obtain rfl := Option.some.inj hslot
    exact part_ne_catalog (fun hroot => h (hroot ▸ hpurpose)) (of_slot? hslot').2

theorem apart_flatMap {asks : List (Ask σ)} (hlength : asks.length ≤ 1)
    (h : ∀ ask ∈ asks, ask.aim.purpose? ≠ some .root) :
    (asks.flatMap client.inquiriesOf).Pairwise Inquiry.Apart := by
  match asks, hlength with
  | [], _ => exact .nil
  | [ask], _ => simpa using apart_inquiriesOf (h ask List.mem_cons_self)

theorem length_listing_le (w : World σ) (owner : Ref) : (w.listing owner).length ≤ 1 := by
  unfold World.listing
  split <;> simp

/-- Only to create a member may take more than one thing to ask for. -/
theorem length_asks_le {op : Op} (hop : ∀ owner creation, op ≠ .create owner creation)
    (w : World σ) : (client.asks op w).length ≤ 1 := by
  cases op with
  | members owner => exact length_listing_le w owner
  | member owner name => exact length_listing_le w owner
  | hasMember owner name => exact length_listing_le w owner
  | applicationsOf domain cartridge => exact length_listing_le w domain
  | hasApplicationsOf domain cartridge => exact length_listing_le w domain
  | create owner creation => exact absurd rfl (hop owner creation)
  | refresh r =>
    simp only [asks]
    split <;> simp
  | user connection =>
    simp only [asks]
    split <;> simp
  | rename domain id =>
    simp only [asks]
    split <;> simp
  | post application event =>
    simp only [asks]
    split <;> simp
  | gears application =>
    simp only [asks]
    split <;> simp
  | updateKey key type publicKey =>
    simp only [asks, asks.updateAsks]
    split <;> simp
  | setPublicKey key publicKey =>
    simp only [asks, asks.updateAsks]
    split <;> simp
  | _ => exact le_rfl

/-- An owner whose members had to be listed has its catalog afterwards. -/
theorem catalog_of_listed {owner : Ref} {refs : List Ref}
    (h : (client.members owner).exec w = (.ok refs, w₁)) (hlisting : w.listing owner ≠ []) :
    (w₁.resource owner).catalog ≠ none := by
  unfold World.listing at hlisting
  split at hlisting
  · rename_i family hfamily hitems
    obtain heq | ⟨-, family', representations, refs', -, hlists⟩ :=
      ((client.members_fills owner).of_eq h).members owner
    · rw [items_of_members hfamily h, hitems] at heq
      cases heq
    · obtain ⟨catalog, -, -, hcatalog, -⟩ := hlists.fetched
      simp [hcatalog]
  · exact absurd rfl hlisting

theorem apart_creationAsks (client : Client σ) (owner : Ref) (creation : Creation)
    (w : World σ) :
    ((client.creationAsks owner creation w).flatMap client.inquiriesOf).Pairwise
      Inquiry.Apart := by
  have hroot (ask : Ask σ) (hask : ask ∈ client.creationAsks owner creation w) :
      ask.aim.purpose? ≠ some .root :=
    (posed_of_mem_creationAsks hask).purpose_ne_root
  unfold creationAsks at hroot ⊢
  split at hroot
  · exact .nil
  · rw [List.flatMap_append]
    refine List.pairwise_append.mpr ⟨?_, ?_, fun i hi j hj slot hslot hslot' => ?_⟩
    · exact apart_flatMap (length_listing_le w owner) fun ask hask =>
        hroot ask (List.mem_append_left _ hask)
    · refine apart_flatMap ?_ fun ask hask => hroot ask (List.mem_append_right _ hask)
      split <;> simp
    · split at hj
      · rename_i w₁ hfamily hparameters hmember
        rw [List.flatMap_singleton] at hj
        obtain hcatalog | hlink := List.mem_append.mp hj
        · -- the catalog is there, since the members were listed
          obtain ⟨-, hnone⟩ := mem_catalogInquiries hcatalog
          obtain ⟨refs, hmembers, -⟩ := member?_eq_ok.mp hmember
          refine catalog_of_listed hmembers (fun hnil => ?_) hnone
          rw [hnil] at hi
          cases hi
        · obtain ⟨-, hpurpose, -⟩ := mem_linkInquiries hlink
          have hpart := (of_slot? hslot').2
          rw [← Option.some.inj hpurpose] at hpart
          cases hpart
      · cases hj

/-- An operation makes at most one inquiry for each place. -/
theorem apart_inquiries (client : Client σ) (op : Op) (w : World σ) :
    (client.inquiries op w).Pairwise Inquiry.Apart := by
  by_cases hop : ∃ owner creation, op = .create owner creation
  · obtain ⟨owner, creation, rfl⟩ := hop
    exact client.apart_creationAsks owner creation w
  · exact apart_flatMap (length_asks_le (fun owner creation h => hop ⟨owner, creation, h⟩) w)
      fun ask hask => (posed_of_mem_asks hask).purpose_ne_root

theorem length_filter_le (client : Client σ) (op : Op) (w : World σ) (slot : Slot) :
    ((client.inquiries op w).filter fun i => i.slot? = some slot).length ≤ 1 := by
  have hapart := (client.apart_inquiries op w).filter fun i => decide (i.slot? = some slot)
  have hfor (i : Inquiry σ)
      (hi : i ∈ (client.inquiries op w).filter fun i => i.slot? = some slot) :
      i.slot? = some slot := by
    simpa using (List.mem_filter.mp hi).2
  generalize (client.inquiries op w).filter _ = l at hapart hfor
  match l, hapart with
  | [], _ => exact Nat.zero_le 1
  | [i], _ => exact le_rfl
  | i :: j :: rest, hapart =>
    have hne := (List.pairwise_cons.mp hapart).1 j List.mem_cons_self
    exact absurd (hfor j (by simp)) (hne slot (hfor i (by simp)))

end Client

end BrokerClient.Hierarchy

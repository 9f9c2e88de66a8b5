import BrokerClient.Proofs.Hierarchy.Contents

/-!
# Identity is stable

What becomes of each resource in a run is told by the inquiries of the run. A resource is made of
the first representation that is brought to it, and from then on it is the same resource, whatever
else it is told. A domain, which can be renamed, is called what it was last told. All other
attributes change only if an operation on the resource itself succeeds.
-/
namespace BrokerClient.Hierarchy

open Hierarchy.Action

variable {σ : Type} {client : Client σ} {w w' : World σ} {r : Ref}

namespace Client

/-! ## What a run tells -/

theorem develops_discard (x : Resource) : x.Develops [] (discard x) := by
  unfold discard
  split
  · exact ⟨rfl, rfl, Attributes.settled_withUser _ _⟩
  · exact .refl x

/-- To forget what was fetched is nothing that a resource is told. -/
theorem develops_cleared (x : Resource) : x.Develops [] (cleared x) :=
  (develops_discard x).trans (.of_core rfl)

theorem Clears.retells (h : Clears w r w') : client.Retells w [] w' := by
  refine .of_develops h.next fun r' _ => ?_
  rw [h.resource]
  split
  · exact develops_cleared _
  · exact .refl _

/-- The inquiries of an operation tell what becomes of the resources. -/
theorem step_retells (client : Client σ) (op : Op) (w : World σ) :
    client.Retells w (client.inquiries op w) (client.step op w).2 := by
  by_cases hop : ∃ r, op = .refresh r
  · obtain ⟨r, rfl⟩ := hop
    obtain ⟨w₁, haccounts, -, ⟨-, e, h⟩ | ⟨w', h, hclears⟩⟩ := client.step_refresh_cases r w
    · rw [h]
      exact haccounts.toRetells
    · rw [h]
      simpa using haccounts.toRetells.trans hclears.retells
  · exact (client.step_accounts (fun r hr => hop ⟨r, hr⟩) w).toRetells

/-- And so do the inquiries of operations one after the other. -/
theorem run_retells (client : Client σ) (ops : List Op) (w : World σ) :
    client.Retells w (client.runInquiries ops w) (client.run ops w).2 := by
  induction ops generalizing w with
  | nil => exact .of_develops rfl fun _ _ => .refl _
  | cons op rest ih => exact (client.step_retells op w).trans (ih _)

/-- A resource other than the connection is made in the run. -/
theorem made_in_run (client : Client σ) (server : σ) (ops : List Op) (hne : r ≠ 0)
    (hr : r < (client.run ops (.start server)).2.store.next) :
    ∃ i ∈ client.runInquiries ops (.start server), ∃ representation later,
      (r, representation) ∈ client.takers i ∧
        client.told (client.runInquiries ops (.start server)) r = representation :: later ∧
        (Resource.ofRepresentation i.asked representation).Develops later
          ((client.run ops (.start server)).2.resource r) :=
  (client.run_retells ops (.start server)).made r (Nat.one_le_iff_ne_zero.mpr hne) hr

/-- Whatever the server answers, no domain comes to be where the connection is. -/
theorem ne_zero_of_domain {server : σ} {ops : List Op}
    (hkind : ((client.run ops (.start server)).2.resource r).kind = .domain) : r ≠ 0 := by
  rintro rfl
  rw [client.kind_run ops (w := .start server) Nat.one_pos] at hkind
  cases hkind

/-! ## Who is told -/

theorem kind_of_record {payload : Payload} {kind : RecordKind} {representation : Representation}
    (h : (payload.singleOf? kind).map .record = some (Data.record representation)) :
    representation.kind = kind := by
  obtain ⟨_, hview, hrecord⟩ := Option.map_eq_some_iff.mp h
  cases hrecord
  exact Payload.kind_of_singleOf? hview

/-- A representation is brought to a resource that is made of it, to the one that is updated, or to
the application that was asked. -/
theorem mem_takers {i : Inquiry σ} {representation : Representation}
    (h : (r, representation) ∈ client.takers i) :
    i.state.store.next ≤ r ∨ i.purpose = .update r representation.kind ∨
      i.purpose = .event ∧ representation.kind = .application := by
  unfold takers at h
  split at h
  case h_2 => cases h
  case h_1 data hdata =>
    obtain ⟨payload, hread⟩ := read?_of_data? hdata
    unfold Purpose.takers at h
    split at h
    · exact .inl (List.mem_range'_1.mp (List.of_mem_zip h).1).1
    · cases List.mem_singleton.mp h
      exact .inl le_rfl
    · cases List.mem_singleton.mp h
      exact .inl le_rfl
    · rename_i hpurpose
      cases List.mem_singleton.mp h
      rw [hpurpose] at hread
      exact .inr (.inl (kind_of_record hread ▸ hpurpose))
    · rename_i hpurpose
      cases List.mem_singleton.mp h
      rw [hpurpose] at hread
      exact .inr (.inr ⟨hpurpose, kind_of_record hread⟩)
    · cases h

/-- A representation of a domain is brought to one that is new, refreshed or renamed. -/
theorem occasion_of_domain {op : Op} {i : Inquiry σ} {d : Representation.Domain}
    (hi : i ∈ client.inquiries op w) (h : (r, .domain d) ∈ client.takers i) :
    w.store.next ≤ r ∨ op = .refresh r ∨ ∃ id, op = .rename r id := by
  obtain ⟨before, after, hsplit⟩ := List.append_of_mem hi
  obtain hle | hupdate | ⟨-, hkind⟩ := mem_takers h
  · exact .inl ((inquiries_split hsplit).1.next.trans hle)
  · obtain ⟨ask, hask, hinquiry⟩ := List.mem_flatMap.mp hi
    obtain ⟨-, hroot | hpurpose⟩ := purpose_of_mem_inquiriesOf hinquiry
    · rw [hroot] at hupdate
      cases hupdate
    · exact .inr ((posed_of_mem_asks hask).occasion (hupdate ▸ hpurpose))
  · cases hkind

/-! ## What an operation changes -/

/-- The attributes of a resource that was there change only if an operation on it succeeds. -/
theorem callee_of_attributes_ne {op : Op} (hr : r < w.store.next)
    (h : ((client.step op w).2.resource r).attributes ≠ (w.resource r).attributes) :
    op.callee = r ∧ ∃ answer, (client.step op w).1 = .ok answer := by
  obtain ⟨w₁, hfills, hcommits⟩ := client.step_commits op w
  rw [← hfills.attributes r hr] at h
  exact ((hcommits.attributes (hr.trans_le hfills.next)).resolve_left h).1

/-! ## Runs -/

/-- What lasts of the resources that a run of operations has made, and what can change of them. -/
structure KeepsIdentity (client : Client σ) (server : σ) (ops : List Op) : Prop where
  /-- Each resource but the connection was made of the first representation that an inquiry has
  brought to it, on behalf of the resource that was asked, and it still has that identity. -/
  made : ∀ r, r ≠ 0 → r < (client.run ops (.start server)).2.store.next →
    ∃ i ∈ client.runInquiries ops (.start server), ∃ representation later,
      (r, representation) ∈ client.takers i ∧
        client.told (client.runInquiries ops (.start server)) r = representation :: later ∧
        ((client.run ops (.start server)).2.resource r).identity =
          (Resource.ofRepresentation i.asked representation).identity
  /-- Whatever is done later, it keeps its identity. -/
  lasts : ∀ later r, r < (client.run ops (.start server)).2.store.next →
    ((client.run later (client.run ops (.start server)).2).2.resource r).identity =
      ((client.run ops (.start server)).2.resource r).identity
  /-- A domain has the name and the suffix in the last representation that was brought to it. -/
  domain : ∀ r, ((client.run ops (.start server)).2.resource r).kind = .domain →
    ∃ d, ((client.told (client.runInquiries ops (.start server)) r).filterMap
        Representation.domain?).getLast? = some d ∧
      ((client.run ops (.start server)).2.resource r).attributes = .domain d.id d.suffix
  /-- Such a representation is only brought to a domain that is made, refreshed or renamed. -/
  occasion : ∀ op, ∀ i ∈ client.inquiries op (client.run ops (.start server)).2, ∀ r d,
    (r, .domain d) ∈ client.takers i →
    (client.run ops (.start server)).2.store.next ≤ r ∨ op = .refresh r ∨ ∃ id, op = .rename r id
  /-- Attributes change only if an operation on the very resource succeeds. -/
  frame : ∀ op r, r < (client.run ops (.start server)).2.store.next →
    ((client.step op (client.run ops (.start server)).2).2.resource r).attributes ≠
      ((client.run ops (.start server)).2.resource r).attributes →
    op.callee = r ∧ ∃ answer, (client.step op (client.run ops (.start server)).2).1 = .ok answer

/-- Whatever was done and whatever the server has answered, resources keep their identity. -/
theorem identity_kept (client : Client σ) (server : σ) (ops : List Op) :
    client.KeepsIdentity server ops where
  made r hne hr := by
    obtain ⟨i, hi, representation, later, htaker, htold, hdevelops⟩ :=
      client.made_in_run server ops hne hr
    exact ⟨i, hi, representation, later, htaker, htold, hdevelops.identity⟩
  lasts later r hr := ((client.run_retells later _).develops r hr).identity
  domain r hkind := by
    have hr : r < (client.run ops (.start server)).2.store.next :=
      World.lt_next_of_kind (by simp [hkind])
    obtain ⟨i, -, representation, later, -, htold, hdevelops⟩ :=
      client.made_in_run server ops (ne_zero_of_domain hkind) hr
    rw [htold]
    exact hdevelops.domain hkind
  occasion _ _ hi _ _ h := occasion_of_domain hi h
  frame _ _ hr h := callee_of_attributes_ne hr h

end Client

end BrokerClient.Hierarchy

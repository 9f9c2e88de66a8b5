import BrokerClient.Proofs.Hierarchy.Membership

/-!
# What a destruction leaves

A resource that was destroyed is dropped from the loaded members of its owner. If the server is
faithful, a member leaves nothing of its name behind. A resource that is no member any more does:
it was made before its owner forgot its members and fetched them again, and only the resource
itself is dropped, not the one that was made in its place.
-/
namespace BrokerClient.Hierarchy

open Hierarchy.Action

variable {σ : Type} {client : Client σ} {w w' : World σ}

namespace World

variable {r s : Ref}

theorem attributes_strike : ((w.strike r).resource s).attributes = (w.resource s).attributes := by
  rw [resource_strike]
  split <;> rfl

theorem items_strike :
    ((w.strike r).resource (w.resource r).owner).members.cell.items? =
      (w.resource (w.resource r).owner).members.cell.items?.map (·.erase r) := by
  rw [resource_strike, if_pos rfl, Resource.withMembers, Lazy.Cell.remove, Lazy.Cell.items?_edit]

theorem member_strike_iff (hw : w.Sound) :
    (w.strike r).Member (w.resource r).owner s ↔ w.Member (w.resource r).owner s ∧ s ≠ r := by
  simp only [Member, items_strike, Option.map_eq_some_iff]
  constructor
  · rintro ⟨_, ⟨items, hitems, rfl⟩, hs⟩
    obtain ⟨hne, hmem⟩ := ((hw _ _ hitems).nodup.mem_erase_iff).mp hs
    exact ⟨⟨items, hitems, hmem⟩, hne⟩
  · rintro ⟨⟨items, hitems, hmem⟩, hne⟩
    exact ⟨_, ⟨items, hitems, rfl⟩, ((hw _ _ hitems).nodup.mem_erase_iff).mpr ⟨hne, hmem⟩⟩

end World

namespace Client

/-- To follow a link of a resource other than a connection takes one call, and nothing changes. -/
theorem follow_call {r : Ref} {relation : String} {parameters : Parameters}
    {deleteWithBody : Bool} {payload : Payload} (hkind : (w.resource r).kind ≠ .connection)
    (h : (client.follow r relation parameters deleteWithBody).exec w = (.ok payload, w')) :
    w'.store = w.store ∧ ∃ catalog link url call,
      (w.resource r).catalog = some catalog ∧ catalog.find? relation = some (.link link) ∧
      client.service.Sends link parameters deleteWithBody url call ∧
      w'.exchange.calls = w.exchange.calls ++ [call] := by
  obtain ⟨link, w₁, hlink, hsend⟩ := follow_eq_ok.mp h
  obtain ⟨catalog, hlinks, hfind⟩ := link_eq_ok.mp hlink
  obtain ⟨hcatalog, rfl⟩ | ⟨-, hroot, -⟩ := links_eq_ok.mp hlinks
  · obtain ⟨response, y, hrequest, -, rfl⟩ := send_eq_ok.mp hsend
    obtain ⟨url, call, hsends, reply, hreply, -⟩ := Service.request_eq_ok.mp hrequest
    obtain rfl := (Prod.mk.inj hreply).2
    exact ⟨rfl, catalog, link, url, call, hcatalog, hfind, hsends, rfl⟩
  · exact absurd hroot hkind

/-- What a destruction leaves of a name. Exactly one call is made, to destroy the resource, and the
resource itself is dropped from the loaded members of its owner. So the name is left if and only if
another member has it; and unless the resource is a domain, that is so if and only if the name is
that of a loaded member while the resource itself is none. -/
theorem holds_destroy_iff {server : σ} (hw : client.Reaches client.Faithful (.start server) w)
    {r : Ref} {family : Family} (hkind : (w.resource r).kind = family.memberKind) {force : Value}
    {answer : Answer} (h : client.step (.destroy r force) w = (.ok answer, w')) :
    (∃ catalog link url call,
        (w.resource r).catalog = some catalog ∧
        catalog.find? Relation.delete = some (.link link) ∧
        client.service.Sends link (destruction force (w.resource r).attributes).1
          (destruction force (w.resource r).attributes).2 url call ∧
        w'.exchange.calls = w.exchange.calls ++ [call]) ∧
      (w'.resource (w.resource r).owner).members.cell.items? =
        (w.resource (w.resource r).owner).members.cell.items?.map (·.erase r) ∧
      (w'.Holds (w.resource r).owner (w.resource r).name ↔
        ∃ s, w.Member (w.resource r).owner s ∧ s ≠ r ∧
          (w.resource s).name = (w.resource r).name) ∧
      (family ≠ .domains →
        (w'.Holds (w.resource r).owner (w.resource r).name ↔
          w.Holds (w.resource r).owner (w.resource r).name ∧
            ¬ w.Member (w.resource r).owner r)) := by
  obtain ⟨_, hdestroy, -⟩ := exec_map_eq_ok.mp h
  obtain ⟨payload, w₁, hfollow, rfl⟩ := destroy_eq_ok.mp hdestroy
  have hroot : (w.resource r).kind ≠ .connection := by
    rw [hkind]
    cases family <;> simp [Family.memberKind]
  obtain ⟨hstore, hcall⟩ := follow_call hroot hfollow
  have hsound := sound_of_reaches hw
  have hsound₁ := hsound.fills ((client.follow_fills _ _ _ _).of_eq hfollow)
  -- The request leaves the resources as they were, so all that happens is the striking off.
  obtain ⟨store, exchange⟩ := w₁
  obtain rfl : store = w.store := hstore
  have hmember (s : Ref) : (World.strike ⟨w.store, exchange⟩ r).Member (w.resource r).owner s ↔
      w.Member (w.resource r).owner s ∧ s ≠ r :=
    World.member_strike_iff hsound₁
  have hname (s : Ref) : ((World.strike ⟨w.store, exchange⟩ r).resource s).name =
      (w.resource s).name :=
    congrArg Attributes.name World.attributes_strike
  have hholds : (World.strike ⟨w.store, exchange⟩ r).Holds (w.resource r).owner
      (w.resource r).name ↔ ∃ s, w.Member (w.resource r).owner s ∧ s ≠ r ∧
        (w.resource s).name = (w.resource r).name := by
    simp only [World.Holds, hmember, hname, and_assoc]
  refine ⟨hcall, World.items_strike (w := ⟨w.store, exchange⟩), hholds, fun hdomains => ?_⟩
  rw [hholds]
  constructor
  · rintro ⟨s, hs, hne, hsame⟩
    refine ⟨⟨s, hs, hsame⟩, fun hr => hne ?_⟩
    refine (distinct_of_reaches hw).member_inj ?_ hs hr hsame
    intro hconnection
    have hfamily := hsound.owner_of_member hr hkind
    rw [hconnection] at hfamily
    exact hdomains (Option.some.inj hfamily).symm
  · rintro ⟨⟨s, hs, hsame⟩, hr⟩
    exact ⟨s, hs, fun he => hr (he ▸ hs), hsame⟩

/-! ## A member that was fetched again -/

/-- The domains were listed. -/
def listed : World Unit := (unchanging.step (.members 0) (.start ())).2

/-- The domains were forgotten and listed again. -/
def relisted : World Unit :=
  (unchanging.step (.members 0) (unchanging.step (.refresh 0) listed).2).2

/-- The lists in a body have no name twice. -/
def listsDistinct (body : Body) : Bool :=
  match Response.ofBody unchanging.service.depth body with
  | .ok response => [Family.domains, .applications, .cartridges, .keys].all fun family =>
    match (Response.payload response).listOf? family.recordKind with
    | some representations =>
      decide ((representations.filter family.admits).map (·.name)).Nodup
    | none => true
  | .error _ => true

theorem unchangingReply_distinct (call : Call) : listsDistinct (unchangingReply call) = true := by
  unfold unchangingReply
  split
  · decide +kernel
  · decide +kernel
  · decide +kernel

theorem unchanging_faithful {op : Op} (hop : ∀ owner creation, op ≠ .create owner creation)
    (w : World Unit) : unchanging.Faithful op w where
  lists {link payload family representations} h hlist := by
    obtain ⟨a, b, response, -, hrequest, -, rfl⟩ := h
    obtain ⟨url, call, -, reply, hreply, hinterpret⟩ := Service.request_eq_ok.mp hrequest
    obtain rfl := (Prod.mk.inj hreply).1
    have hdistinct := unchangingReply_distinct call
    have hbody := Except.mapError_eq_ok.mp (Except.mapError_eq_ok.mp hinterpret)
    simp only [listsDistinct, hbody, List.all_eq_true] at hdistinct
    have hfamily := hdistinct family (by cases family <;> simp)
    simpa [hlist] using hfamily
  creates h _ := absurd h (hop _ _)

theorem relisted_reaches : unchanging.Reaches unchanging.Faithful (.start ()) relisted :=
  .step (.step (.step .refl (unchanging_faithful (by simp) _))
    (unchanging_faithful (by simp) _)) (unchanging_faithful (by simp) _)

/-- What becomes of the domain that was listed first, and of the one that was listed later. -/
theorem run_relisted :
    (listed.resource 0).members.cell.items? = some [1] ∧
      ((relisted.resource 1).kind = .domain ∧ (relisted.resource 2).kind = .domain) ∧
      (relisted.resource (relisted.resource 2).owner).members.cell.items? = some [2] ∧
      isDone (unchanging.step (.destroy 1 .null) relisted).1 = true ∧
      isDone (unchanging.step (.destroy 2 .null) relisted).1 = true ∧
      ((unchanging.step (.destroy 1 .null) relisted).2.resource
        (relisted.resource 1).owner).members.cell.items? = some [2] ∧
      ((unchanging.step (.destroy 1 .null) relisted).2.resource 2).name =
        (relisted.resource 1).name := by
  decide +kernel

/-- The domain as it was listed first is destroyed, and as it was listed later it stays a member
under its name. -/
theorem name_stays_relisted :
    unchanging.Reaches unchanging.Faithful (.start ()) relisted ∧ listed.Member 0 1 ∧
      ∃ w', unchanging.step (.destroy 1 .null) relisted = (.ok .done, w') ∧
        w'.Holds (relisted.resource 1).owner (relisted.resource 1).name := by
  obtain ⟨hlisted, -, -, hdone, -, hitems, hname⟩ := run_relisted
  exact ⟨relisted_reaches, ⟨[1], hlisted, List.mem_singleton_self 1⟩, _, step_of_isDone hdone, 2,
    ⟨[2], hitems, List.mem_singleton_self 2⟩, hname⟩

/-- The domain as it was listed later is destroyed, and nothing of its name is left. -/
theorem holds_destroy_relisted :
    ∃ w', unchanging.step (.destroy 2 .null) relisted = (.ok .done, w') ∧
      ¬ w'.Holds (relisted.resource 2).owner (relisted.resource 2).name := by
  obtain ⟨-, ⟨-, hkind⟩, hitems, -, hdone, -⟩ := run_relisted
  have hstep := step_of_isDone hdone
  have hfamily : (relisted.resource 2).kind = Family.domains.memberKind := hkind
  obtain ⟨-, -, hholds, -⟩ := holds_destroy_iff relisted_reaches hfamily hstep
  refine ⟨_, hstep, fun h => ?_⟩
  obtain ⟨s, ⟨items, hs, hmem⟩, hne, -⟩ := hholds.mp h
  obtain rfl := Option.some.inj (hitems.symm.trans hs)
  exact hne (List.mem_singleton.mp hmem)

end Client

end BrokerClient.Hierarchy

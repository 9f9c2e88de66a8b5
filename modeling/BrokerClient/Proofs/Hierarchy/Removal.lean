import BrokerClient.Proofs.Hierarchy.Destruction

/-!
# A destruction is exact

A resource that is destroyed is dropped from the members of its owner, wherever it stands among
them and whatever names the others have. That is all that becomes of the resources, and one call
is all that is sent. It rests on two things: that a resource has its catalog since it was made, so
that no other catalog is fetched, and that no resource is among the members of its owner twice.
-/
namespace BrokerClient.Lazy.Cell

variable {α : Type} [DecidableEq α] {item : α}

theorem remove_append {before : List α} (h : item ∉ before) (after : List α) :
    (loaded (before ++ item :: after)).remove item = loaded (before ++ after) := by
  rw [remove, edit, List.erase_append_right _ h, List.erase_cons_head]

theorem remove_of_items?_eq_none {cell : Cell α} (h : cell.items? = none) :
    cell.remove item = cell := by
  cases cell with
  | loaded items => cases h
  | _ => rfl

end BrokerClient.Lazy.Cell

namespace BrokerClient.Hierarchy

open Hierarchy.Action

variable {σ : Type} {client : Client σ} {w w' : World σ}

namespace Client

/-- What a destruction has done when it succeeded. -/
structure Removes (client : Client σ) (r : Ref) (force : Value) (w w' : World σ) : Prop where
  /-- One call was made, for the link under which the resource is destroyed. -/
  call : ∃ catalog link url call, (w.resource r).catalog = some catalog ∧
    catalog.find? Relation.delete = some (.link link) ∧
    client.service.Sends link (destruction force (w.resource r).attributes).1
      (destruction force (w.resource r).attributes).2 url call ∧
    w'.exchange.calls = w.exchange.calls ++ [call]
  /-- The resource itself is dropped from the members of its owner; the others stay as they are. -/
  drops : ∀ before after,
    (w.resource (w.resource r).owner).members.cell = .loaded (before ++ r :: after) →
    (w'.resource (w.resource r).owner).members.cell = .loaded (before ++ after)
  /-- Members among whom the resource is not stay all of them. -/
  spares : ∀ items, (w.resource (w.resource r).owner).members.cell = .loaded items → r ∉ items →
    (w'.resource (w.resource r).owner).members.cell = .loaded items
  /-- Members that are not loaded stay so. -/
  rests : (w.resource (w.resource r).owner).members.cell.items? = none →
    (w'.resource (w.resource r).owner).members.cell =
      (w.resource (w.resource r).owner).members.cell
  /-- Nothing else of the owner changes. -/
  owner : w'.resource (w.resource r).owner =
    (w.resource (w.resource r).owner).withMembers
      (w'.resource (w.resource r).owner).members.cell
  /-- Nothing of another resource changes, and none is made. -/
  others : ∀ s, s ≠ (w.resource r).owner → w'.resource s = w.resource s
  next : w'.store.next = w.store.next

/-- To strike off a resource does just that, if no member of its owner is there twice. -/
theorem removes_of_strike {r : Ref} {force : Value} (hsound : w.Sound)
    (hcall : ∃ catalog link url call, (w.resource r).catalog = some catalog ∧
      catalog.find? Relation.delete = some (.link link) ∧
      client.service.Sends link (destruction force (w.resource r).attributes).1
        (destruction force (w.resource r).attributes).2 url call ∧
      w'.exchange.calls = w.exchange.calls ++ [call])
    (hresource : ∀ s, w'.resource s = (w.strike r).resource s)
    (hnext : w'.store.next = w.store.next) : client.Removes r force w w' := by
  have howner : w'.resource (w.resource r).owner =
      (w.resource (w.resource r).owner).withMembers
        ((w.resource (w.resource r).owner).members.cell.remove r) := by
    rw [hresource, World.resource_strike, if_pos rfl]
  have hcell : (w'.resource (w.resource r).owner).members.cell =
      (w.resource (w.resource r).owner).members.cell.remove r := by
    rw [howner, Resource.withMembers]
  constructor
  case call => exact hcall
  case next => exact hnext
  case drops =>
    intro before after hloaded
    have hnodup : (before ++ r :: after).Nodup := (hsound _ _ (by rw [hloaded]; rfl)).nodup
    have hbefore : r ∉ before := fun hmem =>
      (List.nodup_append'.mp hnodup).2.2 hmem List.mem_cons_self
    rw [hcell, hloaded, Lazy.Cell.remove_append hbefore]
  case spares =>
    intro items hloaded hmem
    rw [hcell, hloaded, Lazy.Cell.remove, Lazy.Cell.edit, List.erase_of_not_mem hmem]
  case rests => exact fun hnone => hcell.trans (Lazy.Cell.remove_of_items?_eq_none hnone)
  case owner => rw [hcell, howner]
  case others =>
    intro s hs
    rw [hresource, World.resource_strike, if_neg hs]

/-- Whatever was done before: to destroy a member of some family, if it succeeds, drops it from the
members of its owner and changes nothing else. -/
theorem destroy_removes (client : Client σ) (server : σ) (ops : List Op) {r : Ref}
    {family : Family}
    (hkind : ((client.run ops (.start server)).2.resource r).kind = family.memberKind)
    {force : Value} {answer : Answer}
    (h : client.step (.destroy r force) (client.run ops (.start server)).2 = (.ok answer, w')) :
    client.Removes r force (client.run ops (.start server)).2 w' := by
  have hsound : (client.run ops (.start server)).2.Sound :=
    sound_of_reaches (Reaches.run .refl ops)
  obtain ⟨_, hdestroy, -⟩ := exec_map_eq_ok.mp h
  obtain ⟨payload, w₁, hfollow, rfl⟩ := destroy_eq_ok.mp hdestroy
  have hroot : ((client.run ops (.start server)).2.resource r).kind ≠ .connection := by
    rw [hkind]
    cases family <;> simp [Family.memberKind]
  obtain ⟨hstore, hcall⟩ := follow_call hroot hfollow
  -- The request leaves the resources as they were.
  have hresource (s : Ref) : w₁.resource s = (client.run ops (.start server)).2.resource s := by
    rw [World.resource, hstore, World.resource]
  refine removes_of_strike hsound hcall (fun s => ?_) ?_
  · simp only [World.resource_strike, hresource]
  · rw [World.next_strike, hstore]

/-- A domain that can be destroyed. -/
def destructibleText (id : String) : String :=
  "\x7b\"id\":\"" ++ id ++ "\",\"links\":\x7b\"DELETE\":\x7b\"href\":\"" ++ id ++
    "\",\"method\":\"DELETE\"\x7d\x7d\x7d"

/-- What a server answers that lists three domains, of which two are called "a". -/
def namesakesReply (call : Call) : Body :=
  match call.method, call.url with
  | .delete, _ => .absent
  | _, "b/broker/rest/api" =>
    .text "\x7b\"type\":\"links\",\"data\":\x7b\"LIST_DOMAINS\":\x7b\"href\":\"domains\"\x7d\x7d\x7d"
  | _, _ =>
    .text ("\x7b\"type\":\"domains\",\"data\":[" ++ destructibleText "a" ++ "," ++
      destructibleText "a" ++ "," ++ destructibleText "c" ++ "]\x7d")

/-- A client of that server. -/
def namesakes : Client Unit where
  service := ⟨"b", "c", 990⟩
  transport := ⟨fun call s => (.ok (namesakesReply call), s)⟩

/-- The state after the domains were listed. -/
def namesakesListed : World Unit := (namesakes.run [.members 0] (.start ())).2

theorem run_namesakes :
    (namesakesListed.resource 2).kind = .domain ∧ (namesakesListed.resource 2).owner = 0 ∧
      (namesakesListed.resource 1).name = (namesakesListed.resource 2).name ∧
      (namesakesListed.resource 0).members.cell = .loaded [1, 2, 3] ∧
      isDone (namesakes.step (.destroy 2 .null) namesakesListed).1 = true := by
  decide +kernel

/-- The second of three domains is destroyed. The first one, of the same name, stays. -/
theorem destroy_removes_second :
    (namesakesListed.resource 1).name = (namesakesListed.resource 2).name ∧
      ∃ w', namesakes.step (.destroy 2 .null) namesakesListed = (.ok .done, w') ∧
        (w'.resource 0).members.cell = .loaded [1, 3] := by
  obtain ⟨hkind, howner, hname, hloaded, hdone⟩ := run_namesakes
  have hstep := step_of_isDone hdone
  have hfamily : (namesakesListed.resource 2).kind = Family.domains.memberKind := hkind
  have hremoves := destroy_removes namesakes () [.members 0] hfamily hstep
  have hdrops := hremoves.drops [1] [3]
  have howner' : ((namesakes.run [.members 0] (.start ())).2.resource 2).owner = 0 := howner
  rw [howner'] at hdrops
  exact ⟨hname, _, hstep, hdrops hloaded⟩

end Client

end BrokerClient.Hierarchy

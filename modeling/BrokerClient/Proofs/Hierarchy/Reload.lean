import BrokerClient.Proofs.Hierarchy.Epoch
import BrokerClient.Proofs.Hierarchy.Hearing
import BrokerClient.Proofs.Value.Decidable

/-!
# To add a cartridge and to reload

A cartridge that was added to an application is put at the end of those that are loaded, as the
server has answered it. When the application is refreshed the cartridges are listed again, and of
those that are listed only the embedded ones count. So if the server lists the new cartridge at the
end, both ways come to the same cartridges if it has answered an embedded one; one of another type
is there until the refresh and not any more after it.
-/
namespace BrokerClient.Hierarchy

open Hierarchy.Action

deriving instance DecidableEq for Application, Attributes

variable {σ : Type} {client : Client σ} {w w' : World σ} {r : Ref}

/-- What is known of resources by themselves, one after the other. Of a cartridge that is its name,
its type and its URL. -/
def World.portraits (w : World σ) (refs : List Ref) : List Attributes :=
  refs.map fun s => (w.resource s).attributes

theorem World.portraits_of_shows {owner : Ref} {refs : List Ref}
    {representations : List Representation}
    (h : List.Forall₂ (fun s representation => (w.resource s).Shows owner representation) refs
      representations) : w.portraits refs = representations.map .ofRepresentation := by
  induction h with
  | nil => rfl
  | cons hshows _ ih => exact congrArg₂ List.cons (congrArg (·.2.1) hshows) ih

/-- To enroll a new member does not touch those that are there. -/
theorem World.portraits_enroll {family : Family} {owner : Ref} {representation : Representation}
    (howner : owner < w.store.next) {refs : List Ref} (hrefs : ∀ s ∈ refs, s < w.store.next) :
    (w.enroll family owner representation).portraits (refs ++ [w.store.next]) =
      w.portraits refs ++ [.ofRepresentation representation] := by
  have hold : ∀ s ∈ refs, ((w.enroll family owner representation).resource s).attributes =
      (w.resource s).attributes := by
    intro s hs
    rw [World.resource_enroll howner, if_neg (Nat.ne_of_lt (hrefs s hs))]
    split <;> rfl
  rw [portraits, List.map_append, List.map_congr_left hold, List.map_singleton,
    World.resource_enroll howner, if_pos rfl]
  rfl

namespace Client

/-- A cartridge of some name is added to an application, of which the cartridges in a previous list
are loaded. Some operations later the application is refreshed, and then its cartridges are those
in the previous list followed by the one that was answered. -/
structure Reloads (client : Client σ) (w : World σ) (r : Ref) (name : Value) (later : List Op)
    (previous : List Representation) (d : Representation.Cartridge) : Prop where
  application : (w.resource r).kind = .application
  loaded : ∃ refs, (w.resource r).members.cell.items? = some refs ∧
    w.portraits refs = (previous.filter Family.cartridges.admits).map .ofRepresentation
  added : ∃ payload,
    client.Hears (.create r (.cartridge name)) w (.creation .cartridges) payload ∧
      payload.singleOf? .cartridge = some (.cartridge d)
  refreshed : ∃ payload representation,
    client.Hears (.refresh r) (client.run (.create r (.cartridge name) :: later) w).2
        (.update r .application) payload ∧
      payload.singleOf? .application = some representation
  listed : ∃ payload,
    client.Hears (.members r)
        (client.step (.refresh r) (client.run (.create r (.cartridge name) :: later) w).2).2
        (.members .cartridges) payload ∧
      payload.listOf? .cartridge = some (previous ++ [.cartridge d])

theorem step_members_of_items {family : Family} {refs : List Ref}
    (hfamily : Family.ofOwner? (w.resource r).kind = some family)
    (hitems : (w.resource r).members.cell.items? = some refs) :
    client.step (.members r) w = (.ok (.resources refs), w) :=
  exec_map_eq_ok.mpr ⟨refs, (members_eq_ok hfamily).mpr (.inl ⟨hitems, rfl⟩), rfl⟩

/-- Right after a member was enrolled the members are those before and the new one. -/
theorem step_members_enroll {family : Family} {refs : List Ref} {representation : Representation}
    (hfamily : Family.ofOwner? (w.resource r).kind = some family)
    (hitems : (w.resource r).members.cell.items? = some refs) :
    client.step (.members r) (w.enroll family r representation) =
      (.ok (.resources (refs ++ [w.store.next])), w.enroll family r representation) := by
  have hr : r < w.store.next := World.lt_next_of_owner hfamily
  have hresource : (w.enroll family r representation).resource r =
      (w.resource r).withMembers ((w.resource r).members.cell.edit (· ++ [w.store.next])) := by
    rw [World.resource_enroll hr, if_neg (Nat.ne_of_lt hr), if_pos rfl]
  have hfamily' : Family.ofOwner? ((w.enroll family r representation).resource r).kind =
      some family := by
    rw [hresource]
    exact hfamily
  refine step_members_of_items hfamily' ?_
  rw [hresource, Resource.withMembers, Lazy.Cell.items?_edit, hitems]
  rfl

/-- After a refresh with an answer the cartridges of an application have to be listed again, and
they are if a list is heard. -/
theorem step_members_refreshed (hkind : (w.resource r).kind = .application) {payload : Payload}
    {representation : Representation}
    (hrefresh : client.Hears (.refresh r) w (.update r .application) payload)
    (hview : payload.singleOf? .application = some representation) {payload' : Payload}
    {representations : List Representation}
    (hlist : client.Hears (.members r) (client.step (.refresh r) w).2 (.members .cartridges)
      payload')
    (hview' : payload'.listOf? .cartridge = some representations) :
    ∃ refs w', client.step (.members r) (client.step (.refresh r) w).2 =
        (.ok (.resources refs), w') ∧
      w'.portraits refs =
        (representations.filter Family.cartridges.admits).map .ofRepresentation := by
  have hr : r < w.store.next := World.lt_next_of_kind (by simp [hkind])
  have hsource : source? r (w.resource r) = some (r, Relation.get, .application) := by
    rw [source?, hkind]
  obtain ⟨u, -, hstep⟩ := step_refresh_of_hears hsource hrefresh hview
  have hkind' : ((client.step (.refresh r) w).2.resource r).kind = .application := by
    rw [client.kind_step _ hr, hkind]
  have hempty : ((client.step (.refresh r) w).2.resource r).members.cell.items? = none := by
    rw [hstep, World.resource_forget, if_pos rfl]
    rfl
  obtain ⟨refs, w', hmembers, hshows⟩ :=
    step_members_of_hears (by rw [hkind']; rfl) hempty hlist hview'
  exact ⟨refs, w', hmembers, World.portraits_of_shows hshows⟩

/-- What has to be heard for it, if the application is refreshed at once. -/
theorem reloads_of_heard? {name : Value} {refs : List Ref} {previous : List Representation}
    {d : Representation.Cartridge} (hkind : (w.resource r).kind = .application)
    (hitems : (w.resource r).members.cell.items? = some refs)
    (hportraits : w.portraits refs =
      (previous.filter Family.cartridges.admits).map .ofRepresentation)
    (hadd : client.heard? (.create r (.cartridge name)) w (.creation .cartridges)
      (·.singleOf? .cartridge) = some (.cartridge d))
    (hrefresh : (client.heard? (.refresh r) (client.step (.create r (.cartridge name)) w).2
      (.update r .application) (·.singleOf? .application)).isSome = true)
    (hlist : client.heard? (.members r)
      (client.step (.refresh r) (client.step (.create r (.cartridge name)) w).2).2
      (.members .cartridges) (·.listOf? .cartridge) = some (previous ++ [.cartridge d])) :
    client.Reloads w r name [] previous d := by
  obtain ⟨representation, hrefresh⟩ := Option.isSome_iff_exists.mp hrefresh
  obtain ⟨payload, hhears, hview⟩ := hears_of_heard? hrefresh
  exact ⟨hkind, ⟨refs, hitems, hportraits⟩, hears_of_heard? hadd,
    ⟨payload, representation, hhears, hview⟩, hears_of_heard? hlist⟩

/-- What the cartridges of an application are right after one was added and after a reload. The
first are those in the previous list that are embedded followed by the one that was answered, and
the others are those in the whole list that are embedded. -/
structure Compares (client : Client σ) (w : World σ) (r : Ref) (name : Value) (later : List Op)
    (previous : List Representation) (d : Representation.Cartridge) (w₁ w₂ : World σ)
    (added reloaded : List Ref) : Prop where
  create : ∃ new, client.step (.create r (.cartridge name)) w = (.ok (.resource new), w₁)
  members : client.step (.members r) w₁ = (.ok (.resources added), w₁)
  reload : client.step (.members r) (client.step (.refresh r) (client.run later w₁).2).2 =
    (.ok (.resources reloaded), w₂)
  added : w₁.portraits added =
    (previous.filter Family.cartridges.admits).map .ofRepresentation ++
      [.ofRepresentation (.cartridge d)]
  reloaded : w₂.portraits reloaded =
    ((previous ++ [Representation.cartridge d]).filter Family.cartridges.admits).map
      .ofRepresentation

theorem Reloads.compares {name : Value} {later : List Op} {previous : List Representation}
    {d : Representation.Cartridge} (h : client.Reloads w r name later previous d)
    (hsound : w.Sound) :
    ∃ w₁ w₂ added reloaded,
      client.Compares w r name later previous d w₁ w₂ added reloaded := by
  obtain ⟨hkind, ⟨refs, hitems, hportraits⟩, ⟨payload, hadd, hview⟩, ⟨_, _, hrefresh, hview₁⟩,
    ⟨_, hlist, hview₂⟩⟩ := h
  have hr : r < w.store.next := World.lt_next_of_kind (by simp [hkind])
  have hfamily : Family.ofOwner? (w.resource r).kind = some .cartridges := by rw [hkind]; rfl
  obtain ⟨u, hstore, hcreate⟩ :=
    step_create_of_hears hfamily (by simp [hkind]) hitems hadd hview
  have hresource (s : Ref) : u.resource s = w.resource s := by
    rw [World.resource, hstore, World.resource]
  have hrefs : ∀ s ∈ refs, s < u.store.next := fun s hs => hstore ▸ (hsound _ _ hitems).lt_next s hs
  have hkind' : ((client.run (.create r (.cartridge name) :: later) w).2.resource r).kind =
      .application := by
    rw [client.kind_run _ hr, hkind]
  obtain ⟨reloaded, w₂, hmembers, hreloaded⟩ :=
    step_members_refreshed hkind' hrefresh hview₁ hlist hview₂
  refine ⟨_, w₂, _, reloaded, ⟨_, hcreate⟩,
    step_members_enroll (by rw [hresource, hfamily]) (by rw [hresource, hitems]), ?_, ?_, hreloaded⟩
  · rw [← hmembers]
    simp only [run, hcreate]
  · have hsame : u.portraits refs = w.portraits refs :=
      List.map_congr_left fun s _ => by rw [hresource]
    rw [World.portraits_enroll (hstore ▸ hr) hrefs, hsame, hportraits]

/-- An embedded cartridge at the end of a list counts, and another one does not. -/
theorem append_eq_filter_append_iff (previous : List Representation)
    (d : Representation.Cartridge) :
    (previous.filter Family.cartridges.admits).map Attributes.ofRepresentation ++
          [.ofRepresentation (.cartridge d)] =
        ((previous ++ [Representation.cartridge d]).filter Family.cartridges.admits).map
          .ofRepresentation ↔
      d.type = "embedded" := by
  rw [List.filter_append, List.map_append, List.append_cancel_left_eq]
  by_cases htype : d.type = "embedded"
  · simp [Family.admits, htype]
  · simp [Family.admits, htype]

/-- Whatever was done before: the cartridges right after one was added and those after a reload are
the same in the same order if and only if the one that was answered is an embedded one. -/
theorem portraits_agree_iff (client : Client σ) (server : σ) (ops : List Op) {r : Ref}
    {name : Value} {later : List Op} {previous : List Representation}
    {d : Representation.Cartridge}
    (h : client.Reloads (client.run ops (.start server)).2 r name later previous d) :
    ∃ w₁ w₂ new added reloaded,
      client.step (.create r (.cartridge name)) (client.run ops (.start server)).2 =
        (.ok (.resource new), w₁) ∧
      client.step (.members r) w₁ = (.ok (.resources added), w₁) ∧
      client.step (.members r) (client.step (.refresh r) (client.run later w₁).2).2 =
        (.ok (.resources reloaded), w₂) ∧
      (w₁.portraits added = w₂.portraits reloaded ↔ d.type = "embedded") := by
  obtain ⟨w₁, w₂, added, reloaded, hcompares⟩ :=
    h.compares (sound_of_reaches (Reaches.run .refl ops))
  obtain ⟨new, hcreate⟩ := hcompares.create
  refine ⟨w₁, w₂, new, added, reloaded, hcreate, hcompares.members, hcompares.reload, ?_⟩
  rw [hcompares.added, hcompares.reloaded]
  exact append_eq_filter_append_iff previous d

/-! ## An application to which a cartridge is added -/

/-- The cartridges that an application has at first: a standalone and an embedded one. -/
def unattachedText : String :=
  "\x7b\"name\":\"p\",\"type\":\"standalone\"\x7d,\x7b\"name\":\"e\"\x7d"

/-- The cartridge that is added to it. -/
def attachedText (type : String) : String :=
  "\x7b\"name\":\"m\",\"type\":\"" ++ type ++ "\"\x7d"

/-- What a server answers, one after the other, while the cartridges of the application "a" are
listed, one of some type is added, the application is refreshed, and they are listed again. -/
def attachingScript (type : String) : List Body :=
  [.text "\x7b\"type\":\"links\",\"data\":\x7b\"LIST_DOMAINS\":\x7b\"href\":\"d\"\x7d\x7d\x7d",
    .text ("\x7b\"type\":\"domains\",\"data\":[\x7b\"id\":\"d\",\"links\":\x7b" ++
      "\"LIST_APPLICATIONS\":\x7b\"href\":\"d\"\x7d\x7d\x7d]\x7d"),
    .text ("\x7b\"type\":\"applications\",\"data\":[\x7b\"name\":\"a\",\"links\":\x7b" ++
      "\"GET\":\x7b\"href\":\"a\"\x7d,\"LIST_CARTRIDGES\":\x7b\"href\":\"c\"\x7d," ++
      "\"ADD_CARTRIDGE\":\x7b\"href\":\"c\",\"method\":\"POST\"\x7d\x7d\x7d]\x7d"),
    .text ("\x7b\"type\":\"cartridges\",\"data\":[" ++ unattachedText ++ "]\x7d"),
    .text ("\x7b\"type\":\"cartridge\",\"data\":" ++ attachedText type ++ "\x7d"),
    .text ("\x7b\"type\":\"application\",\"data\":\x7b\"name\":\"a\",\"links\":\x7b" ++
      "\"LIST_CARTRIDGES\":\x7b\"href\":\"c\"\x7d\x7d\x7d\x7d"),
    .text ("\x7b\"type\":\"cartridges\",\"data\":[" ++ unattachedText ++ "," ++
      attachedText type ++ "]\x7d")]

/-- A client of a server that keeps to a script. -/
def scripted : Client (List Body) where
  service := ⟨"b", "c", 990⟩
  transport := ⟨fun _ script => (.ok (script.headD .absent), script.tail)⟩

/-- To list the domains, the applications and the cartridges. -/
def unattaching : List Op := [.members 0, .members 1, .members 2]

/-- A cartridge without links. -/
def plainCartridge (name type : String) : Representation.Cartridge := ⟨⟨[], []⟩, name, type, none⟩

/-- The cartridges that are listed before one is added. -/
def unattachedList : List Representation :=
  [.cartridge (plainCartridge "p" "standalone"), .cartridge (plainCartridge "e" "embedded")]

theorem run_attaching :
    ∀ type ∈ ["embedded", "standalone"],
      ((scripted.run unattaching (.start (attachingScript type))).2.resource 2).kind =
        .application ∧
      ((scripted.run unattaching
        (.start (attachingScript type))).2.resource 2).members.cell.items? = some [3] ∧
      (scripted.run unattaching (.start (attachingScript type))).2.portraits [3] =
        (unattachedList.filter Family.cartridges.admits).map .ofRepresentation ∧
      scripted.heard? (.create 2 (.cartridge (.str "m")))
        (scripted.run unattaching (.start (attachingScript type))).2
        (.creation .cartridges) (·.singleOf? .cartridge) =
          some (.cartridge (plainCartridge "m" type)) ∧
      (scripted.heard? (.refresh 2)
        (scripted.step (.create 2 (.cartridge (.str "m")))
          (scripted.run unattaching (.start (attachingScript type))).2).2
        (.update 2 .application) (·.singleOf? .application)).isSome = true ∧
      scripted.heard? (.members 2)
        (scripted.step (.refresh 2) (scripted.step (.create 2 (.cartridge (.str "m")))
          (scripted.run unattaching (.start (attachingScript type))).2).2).2
        (.members .cartridges) (·.listOf? .cartridge) =
          some (unattachedList ++ [.cartridge (plainCartridge "m" type)]) := by
  decide +kernel

theorem reloads_attaching {type : String} (htype : type ∈ ["embedded", "standalone"]) :
    scripted.Reloads (scripted.run unattaching (.start (attachingScript type))).2 2 (.str "m") []
      unattachedList (plainCartridge "m" type) := by
  obtain ⟨hkind, hitems, hportraits, hadd, hrefresh, hlist⟩ := run_attaching type htype
  exact reloads_of_heard? hkind hitems hportraits hadd hrefresh hlist

/-- An embedded cartridge is the last one right after it was added and after a reload. -/
theorem portraits_agree_embedded :
    scripted.Reloads (scripted.run unattaching (.start (attachingScript "embedded"))).2 2
        (.str "m") [] unattachedList (plainCartridge "m" "embedded") ∧
      ∃ w₁ w₂ new added reloaded,
        scripted.step (.create 2 (.cartridge (.str "m")))
          (scripted.run unattaching (.start (attachingScript "embedded"))).2 =
          (.ok (.resource new), w₁) ∧
        scripted.step (.members 2) w₁ = (.ok (.resources added), w₁) ∧
        scripted.step (.members 2) (scripted.step (.refresh 2) (scripted.run [] w₁).2).2 =
          (.ok (.resources reloaded), w₂) ∧
        w₁.portraits added = w₂.portraits reloaded := by
  have htype : "embedded" ∈ ["embedded", "standalone"] := List.mem_cons_self
  have hreloads := reloads_attaching htype
  obtain ⟨w₁, w₂, new, added, reloaded, hcreate, hadded, hreloaded, hiff⟩ :=
    portraits_agree_iff scripted (attachingScript "embedded") unattaching hreloads
  exact ⟨hreloads, w₁, w₂, new, added, reloaded, hcreate, hadded, hreloaded, hiff.mpr rfl⟩

/-- A standalone cartridge is the last one right after it was added, and after a reload it is not
there any more. -/
theorem added_cartridge_lost :
    scripted.Reloads (scripted.run unattaching (.start (attachingScript "standalone"))).2 2
        (.str "m") [] unattachedList (plainCartridge "m" "standalone") ∧
      ∃ w₁ w₂ new added reloaded,
        scripted.step (.create 2 (.cartridge (.str "m")))
          (scripted.run unattaching (.start (attachingScript "standalone"))).2 =
          (.ok (.resource new), w₁) ∧
        scripted.step (.members 2) w₁ = (.ok (.resources added), w₁) ∧
        scripted.step (.members 2) (scripted.step (.refresh 2) (scripted.run [] w₁).2).2 =
          (.ok (.resources reloaded), w₂) ∧
        w₁.portraits added =
          [.cartridge "e" "embedded" none, .cartridge "m" "standalone" none] ∧
        w₂.portraits reloaded = [.cartridge "e" "embedded" none] := by
  have htype : "standalone" ∈ ["embedded", "standalone"] :=
    List.mem_cons_of_mem _ List.mem_cons_self
  have hreloads := reloads_attaching htype
  obtain ⟨w₁, w₂, added, reloaded, hcompares⟩ :=
    hreloads.compares (sound_of_reaches (Reaches.run .refl unattaching))
  obtain ⟨new, hcreate⟩ := hcompares.create
  exact ⟨hreloads, w₁, w₂, new, added, reloaded, hcreate, hcompares.members, hcompares.reload,
    hcompares.added.trans (by decide), hcompares.reloaded.trans (by decide)⟩

end Client

end BrokerClient.Hierarchy

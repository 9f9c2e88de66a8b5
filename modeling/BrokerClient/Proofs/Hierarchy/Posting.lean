import BrokerClient.Proofs.Hierarchy.Offering
import BrokerClient.Proofs.Service.Handover

/-!
# What goes out for a new application

A domain asks for a new application with its name and its cartridge, then with the scale and the
gear profile, as far as these are given. Where the link takes a post, all of that goes out with one
call, behind those that list the applications, unless the link cannot be followed with it.
-/
namespace BrokerClient

/-! ## The call of a link that takes a post -/

namespace Service

variable {service : Service} {link : Link} {parameters : Parameters} {deleteWithBody : Bool}

theorem call?_of_hinders (h : Hinders link parameters) :
    service.call? link parameters deleteWithBody = none := by
  cases hcall : service.call? link parameters deleteWithBody with
  | none => rfl
  | some call =>
    obtain ⟨url, hsends⟩ := call?_eq_some.mp hcall
    exact absurd h hsends.not_hinders

/-- A link that takes a post and can be followed is sent one, with all parameters. -/
theorem exists_post (service : Service) (deleteWithBody : Bool) (hpost : link.method = .post)
    (h : ¬Hinders link parameters) :
    ∃ url, service.resolveUrl link.href = .ok url ∧
      service.call? link parameters deleteWithBody = some ⟨.post, url, some parameters⟩ := by
  have hcheck : Request.check link parameters = .ok () := by
    cases hcheck : Request.check link parameters with
    | ok _ => rfl
    | error e => exact absurd (.parameters hcheck) h
  cases hresolve : service.resolveUrl link.href with
  | error e => exact absurd (.address (resolve_eq_error.mp hresolve).1) h
  | ok url => exact ⟨url, rfl, call?_eq_some.mpr ⟨url, hcheck, hresolve, by rw [hpost]; rfl⟩⟩

end Service

namespace Hierarchy

open Hierarchy.Action

variable {σ : Type} {client : Client σ} {w w' w₁ : World σ}

/-! ## The parameters for a new application -/

namespace Wish

/-- What is sent to have a wish fulfilled, in its order. -/
def listed (wish : Wish) : Parameters :=
  [("name", wish.name), ("cartridge", .str wish.cartridge)] ++
    ((if wish.scale.isNull then [] else [("scale", wish.scale)]) ++
      wish.gearProfile.toList.map fun profile => ("gear_profile", .str profile))

theorem parameters_eq_listed (wish : Wish) : wish.parameters = wish.listed := by
  obtain ⟨name, cartridge, scale, gearProfile⟩ := wish
  have hfresh : (Mapping.names ([("name", name), ("cartridge", .str cartridge)] ++
      [("scale", scale), ("gear_profile", gearProfile.elim .null .str)])).Nodup := by
    simp [Mapping.names]
  have hnull : Value.null.isNull = true := rfl
  have htext (s : String) : (Value.str s).isNull = false := rfl
  rw [parameters, Parameters.assemble_of_nodup hfresh, listed]
  cases hscale : scale.isNull <;> cases gearProfile <;>
    simp [Parameters.given, hscale, hnull, htext]

end Wish

namespace Client

variable {r domain : Ref} {relation : String} {parameters : Parameters} {link : Link} {wish : Wish}
  {refs : List Ref}

/-! ## The calls of a creation -/

theorem calls_fetchOne (kind : RecordKind) (parameters : Parameters)
    (hlink : (client.link r relation).exec w = (.ok link, w)) :
    ((client.fetchOne r relation kind parameters).exec w).2.exchange.calls =
      w.exchange.calls ++ (client.service.call? link parameters false).toList := by
  rw [fetchOne_snd kind parameters hlink, exec_send]
  exact client.service.calls_request _ _ _ _ _

/-- Behind the calls that list the applications there is the one of the request, unless the name is
taken. -/
theorem calls_create (h : w.Adds domain link) (hgiven : wish.name.isGiven = true)
    (hmembers : (client.members domain).exec w = (.ok refs, w₁))
    (hfree : ¬w₁.Taken refs wish.creation) :
    (client.step (.create domain wish.creation) w).2.exchange.calls =
      w₁.exchange.calls ++ (client.service.call? link wish.parameters false).toList := by
  have hcalls : ((client.fetchOne domain Family.applications.addRelation
      Family.applications.recordKind wish.parameters).exec w₁).2.exchange.calls =
        w₁.exchange.calls ++ (client.service.call? link wish.parameters false).toList :=
    calls_fetchOne _ _ ((h.of_members hmembers).link_eq client)
  obtain ⟨later, answer, w', hcourse, hstep⟩ := h.course client hgiven
  rw [hstep]
  -- Only the last two courses come to the request; the name is free and the parameters are there.
  cases hcourse with
  | unlisted hunlisted => cases hmembers.symm.trans hunlisted
  | taken hmembers' htaken =>
    obtain ⟨rfl, rfl⟩ := members_unique hmembers hmembers'
    exact absurd htaken hfree
  | unfit _ _ hparameters => cases wish.parameters_creation.symm.trans hparameters
  | refused hmembers' _ hparameters hfetch =>
    obtain ⟨rfl, rfl⟩ := members_unique hmembers hmembers'
    obtain rfl := Except.ok.inj (wish.parameters_creation.symm.trans hparameters)
    rwa [hfetch] at hcalls
  | created hmembers' _ hparameters hfetch =>
    obtain ⟨rfl, rfl⟩ := members_unique hmembers hmembers'
    obtain rfl := Except.ok.inj (wish.parameters_creation.symm.trans hparameters)
    rw [hfetch] at hcalls
    exact (World.enroll_logs _ _ _ _).calls.trans hcalls

/-- If the applications cannot be listed, the name is taken or the link cannot be followed, nothing
goes out behind the calls that list the applications. -/
theorem calls_create_of_withheld (h : w.Adds domain link) (hgiven : wish.name.isGiven = true)
    (hwithheld : ∀ refs w₁, (client.members domain).exec w = (.ok refs, w₁) →
      w₁.Taken refs wish.creation ∨ Service.Hinders link wish.parameters) :
    (client.step (.create domain wish.creation) w).2.exchange.calls =
      ((client.members domain).exec w).2.exchange.calls := by
  obtain ⟨later, answer, w', hcourse, hstep⟩ := h.course client hgiven
  rcases hmembers : (client.members domain).exec w with ⟨e | refs, w₁⟩
  · rw [hstep]
    cases hcourse with
    | unlisted hunlisted =>
      cases hmembers.symm.trans hunlisted
      rfl
    | taken hlisted | unfit hlisted | refused hlisted | created hlisted =>
      cases hmembers.symm.trans hlisted
  · by_cases htaken : w₁.Taken refs wish.creation
    · obtain ⟨-, -, rfl⟩ := hcourse.of_taken hmembers htaken
      rw [hstep]
    · have hhinders := (hwithheld refs w₁ hmembers).resolve_left htaken
      rw [calls_create h hgiven hmembers htaken, Service.call?_of_hinders hhinders,
        Option.toList_none, List.append_nil]

/-- What goes out for a wish to a link that takes a post. -/
structure Posts (client : Client σ) (domain : Ref) (link : Link) (wish : Wish) (w : World σ) :
    Prop where
  /-- The link is given the parameters in the order of the wish. -/
  passed : wish.creation.parameters = .ok wish.listed
  /-- Without scale and gear profile they are what is assembled from the other two alone. -/
  omitted : wish.scale = .null → wish.gearProfile = none →
    wish.creation = .application wish.name (.thing .cartridge wish.cartridge) .null .null ∧
      wish.listed =
        Parameters.assemble [("name", wish.name), ("cartridge", .str wish.cartridge)] []
  /-- All of them go out with the one call behind those that list the applications. -/
  sent : ∀ refs w₁, wish.name.isGiven = true → (client.members domain).exec w = (.ok refs, w₁) →
    ¬w₁.Taken refs wish.creation → ¬Service.Hinders link wish.listed →
    ∃ url, client.service.resolveUrl link.href = .ok url ∧
      (client.step (.create domain wish.creation) w).2.exchange.calls =
        w₁.exchange.calls ++ [⟨.post, url, some wish.listed⟩]
  /-- There is no such call if the applications cannot be listed, if one of them has the name, or
  if the link cannot be followed with the parameters. -/
  withheld : wish.name.isGiven = true →
    (∀ refs w₁, (client.members domain).exec w = (.ok refs, w₁) →
      w₁.Taken refs wish.creation ∨ Service.Hinders link wish.listed) →
    (client.step (.create domain wish.creation) w).2.exchange.calls =
      ((client.members domain).exec w).2.exchange.calls
  /-- Without a name nothing is asked for. -/
  nameless : wish.name.isGiven = false → (client.step (.create domain wish.creation) w).2 = w

/-- Parameters are put together in the order of the caller, without those that are null and without
a change to what the caller keeps; and a new application is asked for with such parameters. -/
theorem assembles_and_posts :
    (∀ (s : BrokerClient.Store) (mandatory : Address) (optional : Mapping Address),
      (s.parameters mandatory).names.Nodup → optional.names.Nodup →
        Parameters.Assembles s mandatory optional
          ((s.parameters mandatory).assemble (s.resolve optional))) ∧
      ∀ {σ : Type} (client : Client σ) (domain : Ref) (link : Link) (wish : Wish) (w : World σ),
        w.Adds domain link → link.method = .post → client.Posts domain link wish w := by
  refine ⟨fun _ _ _ => Parameters.assembles_assemble, fun client domain link wish w h hpost => ?_⟩
  have hlisted := wish.parameters_eq_listed
  refine ⟨by rw [wish.parameters_creation, hlisted], fun hscale hprofile => ?_,
    fun refs w₁ hgiven hmembers hfree hfollowed => ?_, fun hgiven hwithheld => ?_,
    fun hgiven => ?_⟩
  · obtain ⟨name, cartridge, scale, gearProfile⟩ := wish
    obtain rfl : scale = .null := hscale
    obtain rfl : gearProfile = none := hprofile
    exact ⟨rfl, rfl⟩
  · obtain ⟨url, hresolve, hcall⟩ := client.service.exists_post false hpost hfollowed
    refine ⟨url, hresolve, ?_⟩
    rw [calls_create h hgiven hmembers hfree, hlisted, hcall, Option.toList_some]
  · exact calls_create_of_withheld h hgiven (by rwa [hlisted])
  · cases hlacks : wish.creation.lacks? with
    | none => rw [wish.lacks?_eq_none.mp hlacks] at hgiven; cases hgiven
    | some argument => rw [(client.step_create_of_lacks domain w hlacks).1]

/-! ## A wish of which only the gear profile is left out -/

/-- A link that declares no parameters. -/
def undemanding : Link := ⟨Relation.addApplication, "a", .post, [], []⟩

/-- The domain "d" with that link, of which no applications were listed. -/
def hosting : World Unit :=
  (World.members 1).fill (.loaded [])
    ((World.start ()).adopt 0
      (.domain ⟨⟨[(Relation.addApplication, undemanding)], []⟩, "d", "s"⟩)).2

def scaledWish : Wish := ⟨.str "b", "php", .word .scaled, none⟩

/-- Two mappings of a caller, and the values for a third. -/
def keptByCaller : BrokerClient.Store where
  values := ⟨[.str "x", .str "a", .str "small", .str "", .null, .str "large"]⟩
  mappings := ⟨[[("note", 0)], [("id", 1), ("size", 2)]]⟩

/-- Of three optional parameters one is null and one has the name of a mandatory one. -/
def changes : Mapping Address := [("note", 3), ("scale", 4), ("size", 5)]

theorem assembles_and_posts_hosting :
    ((keptByCaller.parameters 1).names.Nodup ∧ changes.names.Nodup ∧
      Parameters.Assembles keptByCaller 1 changes
        [("id", .str "a"), ("size", .str "large"), ("note", .str "")]) ∧
      hosting.Adds 1 undemanding ∧ undemanding.method = .post ∧
      silent.Posts 1 undemanding scaledWish hosting ∧
      (silent.step (.create 1 scaledWish.creation) hosting).2.exchange.calls =
        [⟨.post, "b/broker/rest/a",
          some [("name", .str "b"), ("cartridge", .str "php"), ("scale", .word .scaled)]⟩] := by
  have hmandatory : (keptByCaller.parameters 1).names.Nodup := by decide
  have hoptional : changes.names.Nodup := by decide
  have hadds : hosting.Adds 1 undemanding :=
    ⟨rfl, [(Relation.addApplication, .link undemanding)], rfl, rfl⟩
  have hposts := assembles_and_posts.2 silent 1 undemanding scaledWish hosting hadds rfl
  have hmembers : (silent.members 1).exec hosting = (.ok [], hosting) :=
    (members_eq_ok hadds.family).mpr (.inl ⟨rfl, rfl⟩)
  have hfollowed : ¬Service.Hinders undemanding scaledWish.listed := by
    rintro (hcheck | haddress | hmethod)
    · cases hcheck
    · exact absurd haddress (by decide)
    · cases hmethod
  obtain ⟨url, hresolve, hcalls⟩ :=
    hposts.sent [] hosting rfl hmembers (by simp [World.Taken]) hfollowed
  obtain rfl : "b/broker/rest/a" = url := Except.ok.inj hresolve
  exact ⟨⟨hmandatory, hoptional,
    assembles_and_posts.1 keptByCaller 1 changes hmandatory hoptional⟩,
    hadds, rfl, hposts, hcalls⟩

end Client

end Hierarchy

end BrokerClient

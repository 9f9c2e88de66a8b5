import BrokerClient.Proofs.Hierarchy.Creating
import BrokerClient.Proofs.Request.Assembly
import BrokerClient.Proofs.Service.Address

/-!
# What is offered for a new application

A domain offers the cartridges and the gear profiles that the first declaration of the parameter
lists. The check of a request goes through all declarations. So nothing is sent for what is not
offered, and what is offered can still be refused: by a later declaration of the same parameter,
and by no other.
-/
namespace BrokerClient

/-! ## The first declaration of a parameter -/

/-- The options that a link offers for a parameter. -/
def Link.offered (link : Link) (name : String) : List String :=
  ((link.parameter? name).map (·.options)).getD []

section Declarations

variable {link : Link} {name : String} {before after : List Declaration} {declaration : Declaration}

theorem Link.parameter?_eq (link : Link) (name : String) :
    link.parameter? name =
      (link.declarations.find? fun declaration => declaration.parameter.name == name).map
        Declaration.parameter := by
  have hparameters : link.requiredParams ++ link.optionalParams =
      link.declarations.map Declaration.parameter := by
    simp only [Link.declarations, List.map_append, List.map_map, Function.comp_def,
      Declaration.parameter, List.map_id']
  rw [Link.parameter?, hparameters, List.find?_map]
  rfl

/-- What is offered stands in the first declaration of the parameter. -/
theorem Link.offered_of_first (hsplit : link.declarations = before ++ declaration :: after)
    (hname : declaration.parameter.name = name)
    (hbefore : ∀ other ∈ before, other.parameter.name ≠ name) :
    link.offered name = declaration.parameter.options := by
  have hfind : link.declarations.find? (fun declaration => declaration.parameter.name == name) =
      some declaration := by
    rw [List.find?_eq_some_iff_append]
    exact ⟨by simpa using hname, before, after, hsplit, by simpa using hbefore⟩
  rw [Link.offered, Link.parameter?_eq, hfind]
  rfl

/-- Where something is offered, there is a first declaration. -/
theorem Link.exists_first (h : link.offered name ≠ []) :
    ∃ before declaration after, link.declarations = before ++ declaration :: after ∧
      declaration.parameter.name = name ∧ ∀ other ∈ before, other.parameter.name ≠ name := by
  rw [Link.offered, Link.parameter?_eq] at h
  cases hfind : link.declarations.find? fun declaration => declaration.parameter.name == name with
  | none =>
    rw [hfind] at h
    exact absurd rfl h
  | some declaration =>
    obtain ⟨hname, before, after, hsplit, hbefore⟩ := List.find?_eq_some_iff_append.mp hfind
    exact ⟨before, declaration, after, hsplit, by simpa using hname, by simpa using hbefore⟩

end Declarations

namespace Request

variable {link : Link} {supplied : Parameters} {name value : String}
  {before after : List Declaration} {declaration : Declaration}

/-- A text that satisfies a declaration of its name is one of the options, if there are any. -/
theorem Satisfies.mem_options (h : Satisfies supplied declaration)
    (hvalue : supplied.find? declaration.parameter.name = some (.str value))
    (hoptions : declaration.parameter.options ≠ []) :
    value ∈ declaration.parameter.options := by
  have hlisted {parameter : LinkParameter} (hadmits : parameter.Admits (.str value))
      (hoptions : parameter.options ≠ []) : value ∈ parameter.options := by
    obtain ⟨text, hmem, htext⟩ := hadmits.resolve_left hoptions
    obtain rfl := Option.some.inj ((Value.wire?_str value).symm.trans htext)
    exact hmem
  cases h with
  | required hfind _ hadmits =>
    obtain rfl := Option.some.inj (hfind.symm.trans hvalue)
    exact hlisted hadmits hoptions
  | optional hadmits => exact hlisted (hadmits _ hvalue nofun) hoptions

/-- What is not offered does not pass the check. -/
theorem check_of_not_offered (hvalue : supplied.find? name = some (.str value))
    (hoffered : link.offered name ≠ []) (hmem : value ∉ link.offered name) :
    ∃ e, check link supplied = .error e := by
  obtain ⟨before, declaration, after, hsplit, rfl, hbefore⟩ := Link.exists_first hoffered
  rw [Link.offered_of_first hsplit rfl hbefore] at hoffered hmem
  cases hcheck : check link supplied with
  | error e => exact ⟨e, rfl⟩
  | ok _ =>
    have hsatisfies := check_eq_ok_iff.mp hcheck declaration (by simp [hsplit])
    exact absurd (hsatisfies.mem_options hvalue hoffered) hmem

/-- A value that a declaration rules out is not offered exactly if no declaration before that one
has its name. -/
theorem not_offered_iff_first (hvalue : supplied.find? name = some (.str value))
    (hsplit : link.declarations = before ++ declaration :: after)
    (hbefore : ∀ other ∈ before, Satisfies supplied other)
    (hname : declaration.parameter.name = name) (hoptions : declaration.parameter.options ≠ [])
    (hmem : value ∉ declaration.parameter.options) :
    (link.offered name ≠ [] ∧ value ∉ link.offered name) ↔
      ∀ other ∈ before, other.parameter.name ≠ name := by
  constructor
  · rintro ⟨hoffered, hnot⟩ other hother hotherName
    -- The first declaration of the name is one of those that are satisfied.
    obtain ⟨first, rest, hrest⟩ := List.append_of_mem hother
    cases hfind : before.find? fun declaration => declaration.parameter.name == name with
    | none => simpa [hotherName] using List.find?_eq_none.mp hfind other hother
    | some early =>
      obtain ⟨hearly, skipped, left, hleft, hskipped⟩ := List.find?_eq_some_iff_append.mp hfind
      have hearly : early.parameter.name = name := by simpa using hearly
      have hfirst : link.declarations = skipped ++ early :: (left ++ declaration :: after) := by
        rw [hsplit, hleft, List.append_assoc, List.cons_append]
      rw [Link.offered_of_first hfirst hearly (by simpa using hskipped)] at hoffered hnot
      exact hnot ((hbefore early (by simp [hleft])).mem_options (hearly ▸ hvalue) hoffered)
  · intro hfirst
    rw [Link.offered_of_first hsplit hname hfirst]
    exact ⟨hoptions, hmem⟩

/-- What is said when an option is refused. -/
theorem Offends.of_invalidOption {href wire : String} {options : List String}
    (h : Offends link supplied declaration (.client (.invalidOption href name wire options)))
    (hvalue : supplied.find? name = some (.str value)) :
    href = link.href ∧ wire = value ∧ declaration.parameter.name = name ∧
      declaration.parameter.options = options ∧ options ≠ [] ∧ value ∉ options := by
  cases h with
  | required hfind _ hstrays | optional hfind _ hstrays =>
    cases hstrays with
    | unlisted hoptions htext hunlisted =>
      obtain rfl := Option.some.inj (hfind.symm.trans hvalue)
      obtain rfl := Option.some.inj ((Value.wire?_str value).symm.trans htext)
      exact ⟨rfl, rfl, rfl, rfl, hoptions, hunlisted⟩

end Request

namespace Hierarchy

open Hierarchy.Action

variable {σ : Type} {client : Client σ} {w w' w₁ : World σ}

/-! ## Requests that end at the check -/

namespace Client

variable {r : Ref} {relation : String} {kind : RecordKind} {parameters : Parameters} {link : Link}

theorem fetchOne_of_check_error {e : Raised} (kind : RecordKind)
    (hlink : (client.link r relation).exec w = (.ok link, w))
    (hcheck : Request.check link parameters = .error e) :
    (client.fetchOne r relation kind parameters).exec w = (.error e, w) := by
  have hrequest : client.service.request client.transport link parameters false w.exchange =
      (.error e, w.exchange) := by
    simp only [Service.request, Service.requestWith, Service.prepare, hcheck]
  rw [fetchOne_eq, expect, exec_bind_of_ok hlink]
  exact exec_bind_of_error (send_eq_error.mpr ⟨w.exchange, hrequest, rfl⟩) _

/-- What is made of an answer does not change the state in which it came. -/
theorem fetchOne_snd (kind : RecordKind) (parameters : Parameters)
    (hlink : (client.link r relation).exec w = (.ok link, w)) :
    ((client.fetchOne r relation kind parameters).exec w).2 =
      ((client.send link parameters false).exec w).2 := by
  rw [fetchOne_eq, expect, exec_bind_of_ok hlink]
  refine exec_bind_snd (fun payload w' => ?_) _ _
  cases payload.singleOf? kind with
  | some representation => rfl
  | none =>
    obtain ⟨e, he⟩ := client.exec_refuse (α := Representation) link
      (.expectedRecord kind payload.kindName) w'
    exact congrArg Prod.snd he

/-- An option that is refused while nothing is sent was refused by the check. -/
theorem check_of_fetchOne {href name wire : String} {options : List String}
    (hlink : (client.link r relation).exec w = (.ok link, w))
    (h : (client.fetchOne r relation kind parameters).exec w =
      (.error (.client (.invalidOption href name wire options)), w)) :
    Request.check link parameters = .error (.client (.invalidOption href name wire options)) := by
  have hstate : ((client.send link parameters false).exec w).2 = w := by
    rw [← fetchOne_snd kind parameters hlink, h]
  rw [fetchOne_eq, expect, exec_bind_of_ok hlink] at h
  obtain ⟨url, call, hsends⟩ | ⟨e, y, hrequest, hrefuses, -⟩ :=
    client.service.request_cases client.transport link parameters false w.exchange
  · rw [exec_send, Service.request_of_sends hsends] at hstate
    have hcalls := congrArg (fun w : World σ => w.exchange.calls.length) hstate
    simp [Exchange.send, Exchange.note] at hcalls
  · rw [exec_bind_of_error (send_eq_error.mpr ⟨y, hrequest, rfl⟩)] at h
    obtain rfl := Except.error.inj (congrArg Prod.fst h)
    cases hrefuses with
    | unchecked hcheck => exact hcheck
    | unresolved hresolve => cases (Service.resolve_eq_error.mp hresolve).2

end Client

/-! ## What is wished for -/

/-- What a caller gives to create an application. The cartridge and the gear profile have names;
the profile can be left out, and so can the scale. -/
structure Wish where
  name : Value
  cartridge : String
  scale : Value
  gearProfile : Option String

namespace Wish

def creation (wish : Wish) : Creation :=
  .application wish.name (.thing .cartridge wish.cartridge) wish.scale
    (wish.gearProfile.elim .null (.thing .gearProfile))

def parameters (wish : Wish) : Parameters :=
  Parameters.assemble [("name", wish.name), ("cartridge", .str wish.cartridge)]
    [("scale", wish.scale), ("gear_profile", wish.gearProfile.elim .null .str)]

theorem parameters_creation (wish : Wish) : wish.creation.parameters = .ok wish.parameters := by
  obtain ⟨name, cartridge, scale, _ | gearProfile⟩ := wish <;> rfl

theorem lacks?_eq_none (wish : Wish) : wish.creation.lacks? = none ↔ wish.name.isGiven = true := by
  simp [creation, Creation.lacks?_eq_none, Creation.IsComplete, Value.isNull]

end Wish

/-- What is offered a choice of for a new application. -/
inductive Choice where
  | cartridge
  | gearProfile

namespace Choice

/-- The parameter in which a choice is sent. -/
def parameter : Choice → String
  | cartridge => "cartridge"
  | gearProfile => "gear_profile"

/-- The operation that tells what there is to choose from. -/
def inquiry (domain : Ref) : Choice → Op
  | cartridge => .cartridgeNames domain
  | gearProfile => .gearProfiles domain

/-- What is chosen, if anything is. -/
def chosen? (wish : Wish) : Choice → Option String
  | cartridge => some wish.cartridge
  | gearProfile => wish.gearProfile

theorem find?_parameters {wish : Wish} {choice : Choice} {value : String}
    (h : choice.chosen? wish = some value) :
    wish.parameters.find? choice.parameter = some (.str value) := by
  obtain ⟨name, cartridge, scale, gearProfile⟩ := wish
  cases choice with
  | cartridge =>
    obtain rfl := Option.some.inj h
    refine (Parameters.find?_assemble_of_forall_null _ fun v hmem => ?_).trans rfl
    simp [parameter] at hmem
  | gearProfile =>
    obtain rfl : gearProfile = some value := h
    refine Parameters.find?_assemble_of_mem _ ?_ (.tail _ (.head _)) nofun
    simp [Mapping.names]

end Choice

/-! ## Creating applications -/

variable {domain : Ref} {link : Link} {wish : Wish} {choice : Choice} {value : String}

/-- A domain has a link under which applications are added. -/
structure World.Adds (w : World σ) (domain : Ref) (link : Link) : Prop where
  kind : (w.resource domain).kind = .domain
  catalog : ∃ catalog, (w.resource domain).catalog = some catalog ∧
    catalog.find? Relation.addApplication = some (.link link)

namespace World.Adds

theorem link_eq (client : Client σ) (h : w.Adds domain link) :
    (client.link domain Relation.addApplication).exec w = (.ok link, w) := by
  obtain ⟨catalog, hcatalog, hlink⟩ := h.catalog
  exact Client.link_eq_ok.mpr ⟨catalog, Client.links_eq_ok.mpr (.inl ⟨hcatalog, rfl⟩), hlink⟩

theorem family (h : w.Adds domain link) :
    Family.ofOwner? (w.resource domain).kind = some .applications := by
  rw [h.kind]
  rfl

/-- The link stays while the applications are looked through. -/
theorem of_members {refs : List Ref} (h : w.Adds domain link)
    (hmembers : (client.members domain).exec w = (.ok refs, w₁)) : w₁.Adds domain link := by
  obtain ⟨catalog, hcatalog, hlink⟩ := h.catalog
  have hfills := (client.members_fills domain).of_eq hmembers
  have hdomain := World.lt_next_of_catalog hcatalog
  exact ⟨(hfills.kind hdomain).trans h.kind, catalog,
    hfills.catalog_of_some hdomain hcatalog, hlink⟩

/-- The course of the creation that a wish with a name asks for. -/
theorem course (client : Client σ) (h : w.Adds domain link) (hgiven : wish.name.isGiven = true) :
    ∃ later answer w', client.Course .applications domain wish.creation w later answer w' ∧
      client.step (.create domain wish.creation) w = (answer.map .resource, w') := by
  obtain ⟨later, answer, w', -, hcourse, hstep⟩ :=
    client.step_course h.family (Creation.lacks?_eq_none.mp (wish.lacks?_eq_none.mpr hgiven))
  exact ⟨later, answer, w', hcourse, hstep⟩

end World.Adds

namespace Client

/-- What there is to choose from is told without a request. -/
theorem step_inquiry (client : Client σ) (h : w.Adds domain link) (choice : Choice) :
    client.step (choice.inquiry domain) w = (.ok (.names (link.offered choice.parameter)), w) := by
  have hoptions (parameter : String) :
      (client.creationOptions domain parameter).exec w = (.ok (link.offered parameter), w) := by
    rw [creationOptions, exec_bind_of_ok (h.link_eq client)]
    rfl
  cases choice with
  | cartridge =>
    exact (exec_map Answer.names (client.creationOptions domain "cartridge") w).trans
      (by rw [hoptions]; rfl)
  | gearProfile =>
    exact (exec_map Answer.names (client.creationOptions domain "gear_profile") w).trans
      (by rw [hoptions]; rfl)

/-- A creation is rejected with an error of the client after the applications were looked through,
and nothing is sent besides. -/
def Rejects (client : Client σ) (domain : Ref) (wish : Wish) (w : World σ) (e : ClientError) :
    Prop :=
  ∃ refs w₁, (client.members domain).exec w = (.ok refs, w₁) ∧
    client.step (.create domain wish.creation) w = (.error (.client e), w₁)

/-- What does not pass the check is not sent once the applications were looked through. -/
theorem fetchOne_of_members {refs : List Ref} {parameters : Parameters} {e : Raised}
    (h : w.Adds domain link) (hcheck : Request.check link wish.parameters = .error e)
    (hmembers : (client.members domain).exec w = (.ok refs, w₁))
    (hparameters : wish.creation.parameters = .ok parameters) :
    (client.fetchOne domain Relation.addApplication .application parameters).exec w₁ =
      (.error e, w₁) := by
  obtain rfl := Except.ok.inj (wish.parameters_creation.symm.trans hparameters)
  exact fetchOne_of_check_error _ ((h.of_members hmembers).link_eq client) hcheck

/-- Whatever does not pass the check is not sent. -/
theorem step_create_of_check_error {e : Raised} (h : w.Adds domain link)
    (hgiven : wish.name.isGiven = true) (hcheck : Request.check link wish.parameters = .error e) :
    ∃ e', client.step (.create domain wish.creation) w =
      (.error e', ((client.members domain).exec w).2) := by
  obtain ⟨later, answer, w', hcourse, hstep⟩ := h.course client hgiven
  rw [hstep]
  cases hcourse with
  | unlisted hmembers | taken hmembers | unfit hmembers => rw [hmembers]; exact ⟨_, rfl⟩
  | refused hmembers _ hparameters hrefused =>
    cases (fetchOne_of_members h hcheck hmembers hparameters).symm.trans hrefused
    rw [hmembers]
    exact ⟨_, rfl⟩
  | created hmembers _ hparameters hcreated =>
    cases (fetchOne_of_members h hcheck hmembers hparameters).symm.trans hcreated

/-- An option is refused exactly if the creation comes as far as the check and the check refuses
it. -/
theorem rejects_iff {href name wire : String} {options : List String} (h : w.Adds domain link) :
    client.Rejects domain wish w (.invalidOption href name wire options) ↔
      wish.name.isGiven = true ∧
      (∃ refs w₁, (client.members domain).exec w = (.ok refs, w₁) ∧ ¬w₁.Taken refs wish.creation) ∧
      Request.check link wish.parameters =
        .error (.client (.invalidOption href name wire options)) := by
  cases hlacks : wish.creation.lacks? with
  | some argument =>
    have hgiven : ¬wish.name.isGiven = true := fun hgiven => by
      rw [wish.lacks?_eq_none.mpr hgiven] at hlacks
      cases hlacks
    refine ⟨?_, fun hrejects => absurd hrejects.1 hgiven⟩
    rintro ⟨refs, w₁, -, hstep⟩
    rw [(client.step_create_of_lacks domain w hlacks).1] at hstep
    cases hstep
  | none =>
    obtain ⟨later, answer, w', hcourse, hstep⟩ := h.course client (wish.lacks?_eq_none.mp hlacks)
    constructor
    · rintro ⟨refs, w₁, hmembers, hrejected⟩
      obtain ⟨hanswer, rfl⟩ := Prod.mk.inj (hstep.symm.trans hrejected)
      cases hcourse with
      | unlisted hunlisted =>
        rw [hmembers] at hunlisted
        cases hunlisted
      | taken | unfit | created => cases hanswer
      | refused hmembers' hfree hparameters hfetch =>
        obtain ⟨rfl, rfl⟩ := members_unique hmembers hmembers'
        obtain rfl := Except.ok.inj (wish.parameters_creation.symm.trans hparameters)
        cases hanswer
        exact ⟨wish.lacks?_eq_none.mp hlacks, ⟨_, _, hmembers, hfree⟩,
          check_of_fetchOne ((h.of_members hmembers).link_eq client) hfetch⟩
    · rintro ⟨-, ⟨refs, w₁, hmembers, hfree⟩, hcheck⟩
      refine ⟨refs, w₁, hmembers, ?_⟩
      rw [hstep]
      cases hcourse with
      | unlisted hunlisted =>
        rw [hmembers] at hunlisted
        cases hunlisted
      | taken hmembers' htaken =>
        obtain ⟨rfl, rfl⟩ := members_unique hmembers hmembers'
        exact absurd htaken hfree
      | unfit _ _ hparameters =>
        cases wish.parameters_creation.symm.trans hparameters
      | refused hmembers' _ hparameters hrefused =>
        obtain ⟨rfl, rfl⟩ := members_unique hmembers hmembers'
        cases (fetchOne_of_members h hcheck hmembers hparameters).symm.trans hrefused
        rfl
      | created hmembers' _ hparameters hcreated =>
        cases (fetchOne_of_members h hcheck hmembers' hparameters).symm.trans hcreated

/-- How what is offered of a choice goes with what is refused of it. -/
structure OffersChoice (client : Client σ) (domain : Ref) (link : Link) (wish : Wish)
    (choice : Choice) (value : String) (w : World σ) (offered : List String) : Prop where
  /-- It is told without a request. -/
  told : client.step (choice.inquiry domain) w = (.ok (.names offered), w)
  /-- For what is not offered no new application is asked for: the creation fails, at most after
  the applications were looked through. -/
  heeded : offered ≠ [] → value ∉ offered → ∃ e w',
    client.step (.create domain wish.creation) w = (.error e, w') ∧
      (w' = w ∨ w' = ((client.members domain).exec w).2)
  /-- A value is refused exactly by the first declaration that is not satisfied, where that lists
  options of the parameter and the value is not among them. -/
  refused : ∀ href wire options,
    client.Rejects domain wish w (.invalidOption href choice.parameter wire options) ↔
      wish.name.isGiven = true ∧
      (∃ refs w₁, (client.members domain).exec w = (.ok refs, w₁) ∧ ¬w₁.Taken refs wish.creation) ∧
      ∃ before declaration after, link.declarations = before ++ declaration :: after ∧
        (∀ other ∈ before, Request.Satisfies wish.parameters other) ∧
        Request.Offends link wish.parameters declaration
          (.client (.invalidOption href choice.parameter wire options))
  /-- It is one that is not offered exactly if no declaration before that is for the parameter. -/
  agrees : ∀ before declaration after href wire options,
    link.declarations = before ++ declaration :: after →
    (∀ other ∈ before, Request.Satisfies wish.parameters other) →
    Request.Offends link wish.parameters declaration
      (.client (.invalidOption href choice.parameter wire options)) →
    wire = value ∧ options ≠ [] ∧ value ∉ options ∧
      ((offered ≠ [] ∧ value ∉ offered) ↔
        ∀ other ∈ before, other.parameter.name ≠ choice.parameter)

/-- Whatever a link declares, nothing is sent for a choice that is not offered, and a choice is
refused for its options only by a declaration of the parameter. It is then not offered exactly if
that declaration is the first one of the parameter. -/
theorem offers_iff_declared_first (client : Client σ) (h : w.Adds domain link)
    (hchosen : choice.chosen? wish = some value) :
    client.OffersChoice domain link wish choice value w (link.offered choice.parameter) := by
  have hvalue := Choice.find?_parameters hchosen
  refine ⟨client.step_inquiry h choice, fun hoffered hmem => ?_, fun href wire options => ?_,
    fun before declaration after href wire options hsplit hbefore hoffends => ?_⟩
  · obtain ⟨e, hcheck⟩ := Request.check_of_not_offered hvalue hoffered hmem
    cases hlacks : wish.creation.lacks? with
    | some argument =>
      exact ⟨_, w, (client.step_create_of_lacks domain w hlacks).1, .inl rfl⟩
    | none =>
      obtain ⟨e', hstep⟩ := step_create_of_check_error h (wish.lacks?_eq_none.mp hlacks) hcheck
      exact ⟨e', _, hstep, .inr rfl⟩
  · rw [rejects_iff h, Request.check_eq_error_iff]
  · obtain ⟨-, rfl, hname, rfl, hoptions, hmem⟩ := hoffends.of_invalidOption hvalue
    exact ⟨rfl, hoptions, hmem,
      Request.not_offered_iff_first hvalue hsplit hbefore hname hoptions hmem⟩

/-! ## A parameter that is declared twice -/

/-- A link that takes "php" in one declaration of the cartridge and "ruby" in another. -/
def twiceDeclared : Link where
  relation := Relation.addApplication
  href := "a"
  method := .post
  requiredParams := [⟨"cartridge", "string", none, none, ["php"]⟩]
  optionalParams := [⟨"cartridge", "string", none, none, ["ruby"]⟩]

/-- A client of a server that answers nothing. -/
def silent : Client Unit := ⟨⟨"b", "c", 990⟩, ⟨fun _ s => (.ok .absent, s)⟩⟩

/-- The domain "d" with that link, of which no applications were listed. -/
def offering : World Unit :=
  (World.members 1).fill (.loaded [])
    ((World.start ()).adopt 0
      (.domain ⟨⟨[(Relation.addApplication, twiceDeclared)], []⟩, "d", "s"⟩)).2

/-- A wish for an application on a cartridge. -/
def wishFor (cartridge : String) : Wish := ⟨.str "b", cartridge, .null, none⟩

theorem adds_offering : offering.Adds 1 twiceDeclared :=
  ⟨rfl, [(Relation.addApplication, .link twiceDeclared)], rfl, rfl⟩

/-- "ruby" is not offered, and nothing is sent for it. -/
theorem offers_offering :
    offering.Adds 1 twiceDeclared ∧ Choice.cartridge.chosen? (wishFor "ruby") = some "ruby" ∧
      silent.OffersChoice 1 twiceDeclared (wishFor "ruby") .cartridge "ruby" offering ["php"] ∧
      ∃ e w', silent.step (.create 1 (wishFor "ruby").creation) offering = (.error e, w') ∧
        (w' = offering ∨ w' = ((silent.members 1).exec offering).2) := by
  have hchosen : Choice.cartridge.chosen? (wishFor "ruby") = some "ruby" := rfl
  have hoffers := offers_iff_declared_first silent adds_offering hchosen
  exact ⟨adds_offering, hchosen, hoffers, hoffers.heeded (by decide) (by decide)⟩

/-- "php" is offered and is refused for its options all the same. -/
theorem offered_option_refused :
    silent.step (.cartridgeNames 1) offering = (.ok (.names ["php"]), offering) ∧
      silent.Rejects 1 (wishFor "php") offering
        (.invalidOption "a" "cartridge" "php" ["ruby"]) := by
  have hmembers : (silent.members 1).exec offering = (.ok [], offering) :=
    (members_eq_ok adds_offering.family).mpr (.inl ⟨rfl, rfl⟩)
  have hfree : ¬offering.Taken [] (wishFor "php").creation := by simp [World.Taken]
  exact ⟨silent.step_inquiry adds_offering .cartridge,
    (rejects_iff adds_offering).mpr ⟨rfl, ⟨[], offering, hmembers, hfree⟩, rfl⟩⟩

end Client

end Hierarchy

end BrokerClient

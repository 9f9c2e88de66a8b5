import BrokerClient.Proofs.Hierarchy.Failure
import BrokerClient.Proofs.Hierarchy.Mirror

/-!
# Coherence with an honest server

If an honest server keeps the members of an owner, and nobody but the owner has it list, add or
remove them, then the loaded members of the owner are at all times those that the server holds,
however many operations have failed on the way. Every answer is what the names of the server say,
and an operation fails only if the server failed a call of it, if its arguments are refused, or if
the name of what is to be created is held already.
-/
namespace BrokerClient.Hierarchy.Client

open Hierarchy.Action

variable {σ : Type}

section Management

variable (client : Client σ) (ledger : Ledger σ) (family : Family)

/-- The operations with which the members of an owner are listed, looked up, created and destroyed
and the owner is refreshed. What is created is of the family and has a text for a name, and what is
destroyed is a loaded member. -/
inductive Manages (owner : Ref) : Op → World σ → Prop
  | members (w : World σ) : Manages owner (.members owner) w
  | member (v : Value) (w : World σ) : Manages owner (.member owner v) w
  | hasMember (v : Value) (w : World σ) : Manages owner (.hasMember owner v) w
  | create {creation : Creation} {name : String} (hfamily : creation.family = family)
      (hname : creation.name.asText? = some name) (w : World σ) :
      Manages owner (.create owner creation) w
  | destroy {w : World σ} {r : Ref} (hr : w.Member owner r) (force : Value) :
      Manages owner (.destroy r force) w
  | refresh (w : World σ) : Manages owner (.refresh owner) w

/-- An answer is what the names say that the server holds, and the server then holds those that
are left by the operation. All but a refresh leave the members loaded. -/
def Agrees (owner : Ref) (w w' : World σ) : Op → Answer → Prop
  | .members _, .resources refs =>
    ledger.held w'.exchange.server = ledger.held w.exchange.server ∧
      refs.map (fun r => (w'.resource r).name) = ledger.held w.exchange.server ∧
      (w'.resource owner).members.cell.items? = some refs
  | .member _ v, .found found =>
    ledger.held w'.exchange.server = ledger.held w.exchange.server ∧
      found.map (fun r => (w'.resource r).name) =
        ((ledger.held w.exchange.server).find? fun name => v.asText? == some name) ∧
      (w'.resource owner).members.cell.isLoaded = true
  | .hasMember _ v, .truth b =>
    ledger.held w'.exchange.server = ledger.held w.exchange.server ∧
      (b = true ↔ ∃ name ∈ ledger.held w.exchange.server, v.asText? = some name) ∧
      (w'.resource owner).members.cell.isLoaded = true
  | .create _ creation, .resource r =>
    (w'.resource r).name ∉ ledger.held w.exchange.server ∧
      ledger.held w'.exchange.server = ledger.held w.exchange.server ++ [(w'.resource r).name] ∧
      creation.name.asText? = some (w'.resource r).name ∧ w'.Member owner r
  | .destroy r _, .done =>
    (w.resource r).name ∈ ledger.held w.exchange.server ∧
      ledger.held w'.exchange.server = (ledger.held w.exchange.server).erase (w.resource r).name ∧
      (w'.resource owner).members.cell.isLoaded = true
  | .refresh _, .done => ledger.held w'.exchange.server = ledger.held w.exchange.server
  | _, _ => False

/-- Why an operation may fail: the server failed a call of it, a link declines its parameters, an
argument lacks or has no name that stands for it, or the name is held already. -/
inductive Excuse (owner : Ref) (w w' : World σ) : Op → Raised → Prop
  | refused {op : Op} {e : Raised} (h : client.Refused w w' e) : Excuse owner w w' op e
  | declinedCreation {creation : Creation} {link : Link} {parameters : Parameters}
      {e : Raised} (hlink : HasLink w' owner family.addRelation link)
      (hparameters : creation.parameters = .ok parameters)
      (h : Request.check link parameters = .error e) :
      Excuse owner w w' (.create owner creation) e
  | declinedDestruction {r : Ref} {force : Value} {link : Link} {e : Raised}
      (hlink : HasLink w r Relation.delete link)
      (h : Request.check link (destruction force (w.resource r).attributes).1 = .error e) :
      Excuse owner w w' (.destroy r force) e
  | lacks {creation : Creation} {argument : Argument} (h : creation.lacks? = some argument) :
      Excuse owner w w' (.create owner creation) (.client (.invalidRequest (.notGiven argument)))
  | unnamed {creation : Creation} {fault : Fault} (h : creation.parameters = .error fault) :
      Excuse owner w w' (.create owner creation) (.fault fault)
  | taken {creation : Creation} {name : String} (hname : creation.name.asText? = some name)
      (h : name ∈ ledger.held w.exchange.server) :
      Excuse owner w w' (.create owner creation)
        (.client (.duplicate family.memberKind creation.name.text))

end Management

variable {client : Client σ} {ledger : Ledger σ} {family : Family} {w w' : World σ}
  {owner r : Ref} {name : String}

/-! ## Operations -/

theorem createIn_ends (hhonest : client.Honest ledger family)
    (h : client.Mirrors ledger family owner w) {creation : Creation}
    (hfamily : creation.family = family) (hname : creation.name.asText? = some name) :
    (client.createIn family owner creation).Ends w
      (fun r w' => client.Mirrors ledger family owner w' ∧
        Agrees ledger owner w w' (.create owner creation) (.resource r))
      (fun e w' => client.Mirrors ledger family owner w' ∧
        ledger.held w'.exchange.server = ledger.held w.exchange.server ∧
        client.Excuse ledger family owner w w' (.create owner creation) e) := by
  rw [createIn, ends_bind]
  refine (member?_ends hhonest h creation.name).within (client.member?_fills _ _) ?_ ?_
  · rintro found w₁ hfills ⟨hmirrors, hheld, ⟨refs, hrefs⟩, hfound⟩
    cases found with
    | some r =>
      have htaken : name ∈ ledger.held w.exchange.server := by
        have hsame := List.find?_some hfound.symm
        rw [hname, beq_iff_eq] at hsame
        rw [Option.some.inj hsame]
        exact List.mem_of_find?_eq_some hfound.symm
      exact ⟨hmirrors, hheld, .taken hname htaken⟩
    | none =>
      simp only [Option.isSome_none, Bool.false_eq_true, if_false]
      rw [ends_bind]
      cases hparameters : creation.parameters with
      | error fault =>
        have hthrow : (parametersOf creation : Action σ Parameters).exec w₁ =
            (.error (.fault fault), w₁) := by
          simp only [parametersOf, hparameters, exec_throw]
        exact (ends_of_error hthrow).mpr ⟨hmirrors, hheld, .unnamed hparameters⟩
      | ok parameters =>
        rw [ends_of_ok (parametersOf_eq_ok.mpr ⟨hparameters, rfl⟩), ends_bind]
        have hadded := fetchAdded_ends hhonest hmirrors.toReady hfamily hname hparameters
        rcases hfetch : (client.fetchOne owner family.addRelation family.recordKind
          parameters).exec w₁ with ⟨e | representation, w₂⟩
        · rw [ends_of_error hfetch] at hadded ⊢
          obtain ⟨hrests, hexcuse⟩ := hadded
          refine ⟨hmirrors.rests hhonest hrests, hrests.held.trans hheld, ?_⟩
          obtain hrefused | ⟨link, hlink, hcheck⟩ := hexcuse
          · exact .refused (hrefused.mono hfills.exchange (.refl _))
          · exact .declinedCreation hlink hparameters hcheck
        · rw [ends_of_ok hfetch] at hadded ⊢
          obtain ⟨hreads, hnew, hadd, hrepresents⟩ := hadded
          obtain ⟨hmirrors', hmember, hbears⟩ := hmirrors.enroll hhonest hrefs hreads hname hnew
            hadd (lt_next_of_fetchOne hfetch).2 hrepresents
          have hserver := congrArg ledger.held
            (w₂.enroll_logs family owner representation).server
          have hagrees : Agrees ledger owner w (w₂.enroll family owner representation)
              (.create owner creation) (.resource w₂.store.next) := by
            rw [Agrees, hserver, hadd, hbears, hheld.symm]
            exact ⟨hnew, rfl, hname, hmember⟩
          rw [← w₂.adopt_fst owner representation] at hagrees
          exact ⟨hmirrors', hagrees⟩
  · rintro e w₁ - ⟨hmirrors, hheld, hrefused⟩
    exact ⟨hmirrors, hheld, .refused hrefused⟩

theorem create_ends (hhonest : client.Honest ledger family)
    (h : client.Mirrors ledger family owner w) {creation : Creation}
    (hfamily : creation.family = family) (hname : creation.name.asText? = some name) :
    (client.create owner creation).Ends w
      (fun r w' => client.Mirrors ledger family owner w' ∧
        Agrees ledger owner w w' (.create owner creation) (.resource r))
      (fun e w' => client.Mirrors ledger family owner w' ∧
        ledger.held w'.exchange.server = ledger.held w.exchange.server ∧
        client.Excuse ledger family owner w w' (.create owner creation) e) := by
  rw [create, ends_bind]
  cases hlacks : creation.lacks? with
  | some argument =>
    have hdemand : (demand (some argument) : Action σ Unit).exec w =
        (.error (.client (.invalidRequest (.notGiven argument))), w) := rfl
    exact (ends_of_error hdemand).mpr ⟨h, rfl, .lacks hlacks⟩
  | none =>
    have hdemand : (demand none : Action σ Unit).exec w = (.ok (), w) := rfl
    rw [ends_of_ok hdemand, ends_get_bind]
    simp only [h.ofOwner?]
    exact createIn_ends hhonest h hfamily hname

theorem destroy_ends (hhonest : client.Honest ledger family)
    (h : client.Mirrors ledger family owner w) (hr : w.Member owner r) (force : Value) :
    (client.destroy r force).Ends w
      (fun _ w' => client.Mirrors ledger family owner w' ∧
        Agrees ledger owner w w' (.destroy r force) .done)
      (fun e w' => client.Mirrors ledger family owner w' ∧
        ledger.held w'.exchange.server = ledger.held w.exchange.server ∧
        client.Excuse ledger family owner w w' (.destroy r force) e) := by
  obtain ⟨refs, hrefs, hmem⟩ := hr
  have hkind : (w.resource r).kind = family.memberKind := by
    obtain ⟨family', hfamily, hkind⟩ := (h.sound owner refs hrefs).kind_eq
    obtain rfl := Option.some.inj (h.ofOwner?.symm.trans hfamily)
    exact hkind r hmem
  rw [destroy, ends_get_bind, ends_bind]
  refine (fetchRemoved_ends hhonest (bears_of_mem (h.items refs hrefs) hmem) hkind force).mono ?_ ?_
  · rintro payload w₁ ⟨hreads, hheld, herase⟩
    obtain ⟨hmirrors, hserver, hitems⟩ := h.strike hhonest hrefs hmem hreads herase
    have hagrees : Agrees ledger owner w (w₁.strike r) (.destroy r force) .done :=
      ⟨hheld, hserver.trans herase, by rw [Lazy.Cell.isLoaded, hitems]; rfl⟩
    exact ⟨hmirrors, hagrees⟩
  · rintro e w' ⟨hrests, hrefused | ⟨link, hlink, hcheck⟩⟩
    · exact ⟨h.rests hhonest hrests, hrests.held, .refused hrefused⟩
    · exact ⟨h.rests hhonest hrests, hrests.held, .declinedDestruction hlink hcheck⟩

theorem refresh_ends (hhonest : client.Honest ledger family)
    (h : client.Mirrors ledger family owner w) :
    (client.refresh owner).Ends w
      (fun _ w' => client.Mirrors ledger family owner w' ∧
        Agrees ledger owner w w' (.refresh owner) .done)
      (fun e w' => client.Mirrors ledger family owner w' ∧
        ledger.held w'.exchange.server = ledger.held w.exchange.server ∧
        client.Refused w w' e) := by
  rw [refresh, ends_get_bind]
  cases hsource : source? owner (w.resource owner) with
  | none => exact ⟨h.discarded hsource, congrArg ledger.held (World.forget_logs _ owner).server⟩
  | some source =>
    obtain ⟨asked, relation, record⟩ := source
    simp only
    rw [ends_bind]
    refine (fetchOwner_ends hhonest h.toReady hsource).mono ?_ ?_
    · rintro representation w₁ ⟨hrests, hoffers⟩
      have hserver := ((w₁.accept_logs owner representation).trans
        (World.forget_logs _ owner)).server
      exact ⟨h.accepted hhonest hrests hoffers, (congrArg ledger.held hserver).trans hrests.held⟩
    · rintro e w' ⟨hrests, hrefused⟩
      exact ⟨h.rests hhonest hrests, hrests.held, hrefused⟩

/-! ## Runs -/

/-- Every operation on the members of an owner answers what the server holds, or it is excused;
either way the members mirror the server afterwards. -/
theorem step_ends (hhonest : client.Honest ledger family)
    (h : client.Mirrors ledger family owner w) {op : Op} (hop : Manages family owner op w) :
    (client.perform op).Ends w
      (fun answer w' => client.Mirrors ledger family owner w' ∧ Agrees ledger owner w w' op answer)
      (fun e w' => client.Mirrors ledger family owner w' ∧
        ledger.held w'.exchange.server = ledger.held w.exchange.server ∧
        client.Excuse ledger family owner w w' op e) := by
  have hloaded {w' : World σ}
      (hrefs : ∃ refs, (w'.resource owner).members.cell.items? = some refs) :
      (w'.resource owner).members.cell.isLoaded = true := by
    obtain ⟨refs, hrefs⟩ := hrefs
    rw [Lazy.Cell.isLoaded, hrefs]
    rfl
  cases hop with
  | members =>
    rw [perform, ends_map]
    refine (members_ends hhonest h).mono ?_ ?_
    · rintro refs w' ⟨hmirrors, hheld, hrefs⟩
      exact ⟨hmirrors, hheld, hheld ▸ map_name_of_bears (hmirrors.items refs hrefs), hrefs⟩
    · rintro e w' ⟨hmirrors, hheld, hrefused⟩
      exact ⟨hmirrors, hheld, .refused hrefused⟩
  | member v =>
    rw [perform, ends_map]
    refine (member?_ends hhonest h v).mono ?_ ?_
    · rintro found w' ⟨hmirrors, hheld, hrefs, hfound⟩
      exact ⟨hmirrors, hheld, hfound, hloaded hrefs⟩
    · rintro e w' ⟨hmirrors, hheld, hrefused⟩
      exact ⟨hmirrors, hheld, .refused hrefused⟩
  | hasMember v =>
    rw [perform, ends_map]
    refine (member?_ends hhonest h v).mono ?_ ?_
    · rintro found w' ⟨hmirrors, hheld, hrefs, hfound⟩
      refine ⟨hmirrors, hheld, ?_, hloaded hrefs⟩
      rw [← Option.isSome_map, hfound, List.find?_isSome]
      simp
    · rintro e w' ⟨hmirrors, hheld, hrefused⟩
      exact ⟨hmirrors, hheld, .refused hrefused⟩
  | create hfamily hname =>
    rw [perform, ends_map]
    exact create_ends hhonest h hfamily hname
  | destroy hr force =>
    rw [perform, ends_map]
    exact destroy_ends hhonest h hr force
  | refresh =>
    rw [perform, ends_map]
    refine (refresh_ends hhonest h).mono (fun _ _ => id) ?_
    rintro e w' ⟨hmirrors, hheld, hrefused⟩
    exact ⟨hmirrors, hheld, .refused hrefused⟩

/-- The mirror holds along every run. -/
theorem Mirrors.reaches (hhonest : client.Honest ledger family)
    (h : client.Mirrors ledger family owner w)
    (hw : client.Reaches (Manages family owner) w w') : client.Mirrors ledger family owner w' := by
  induction hw with
  | refl => exact h
  | @step w₁ _ op hop ih =>
    have hends := step_ends hhonest ih hop
    rcases hstep : client.step op w₁ with ⟨e | answer, w₂⟩
    · exact ((ends_of_error hstep).mp hends).1
    · exact ((ends_of_ok hstep).mp hends).1

/-- Members mirror the server. Take an owner in any state that a client has come to, whose members
were not listed yet or were forgotten, and a server that is honest about them. After any operations
on these members, failed or not, the names that the server holds are distinct, the loaded members
bear exactly these names, in the same order, and whatever operation comes next answers what the
server holds. If it fails, then it has an excuse, and the server holds what it held. -/
theorem members_mirror_server {server : σ} {allowed : Op → World σ → Prop}
    (hhonest : client.Honest ledger family) (hw : client.Reaches allowed (.start server) w)
    (hready : client.Ready ledger family owner w)
    (hunlisted : (w.resource owner).members.cell.items? = none)
    (hw' : client.Reaches (Manages family owner) w w') :
    (ledger.held w'.exchange.server).Nodup ∧
      (∀ refs, (w'.resource owner).members.cell.items? = some refs →
        refs.map (fun r => (w'.resource r).name) = ledger.held w'.exchange.server) ∧
      ∀ op, Manages family owner op w' →
        (∀ answer w'', client.step op w' = (.ok answer, w'') →
          Agrees ledger owner w' w'' op answer) ∧
        ∀ e w'', client.step op w' = (.error e, w'') →
          ledger.held w''.exchange.server = ledger.held w'.exchange.server ∧
            client.Excuse ledger family owner w' w'' op e := by
  have hmirrors := (Mirrors.of_unlisted hready (sound_of_reaches hw) hunlisted).reaches hhonest hw'
  refine ⟨hmirrors.nodup, fun refs hrefs => map_name_of_bears (hmirrors.items refs hrefs),
    fun op hop => ?_⟩
  have hends := step_ends hhonest hmirrors hop
  exact ⟨fun answer w'' hstep => ((ends_of_ok hstep).mp hends).2,
    fun e w'' hstep => ((ends_of_error hstep).mp hends).2⟩

/-! ## A server that knows of one domain -/

/-- The id that a call asks to be added. -/
def addedId? (call : Call) : Option String :=
  (call.parameters.bind fun parameters => Mapping.find? parameters "id").bind Value.asText?

def rootBody : Body :=
  .text ("\x7b\"type\":\"links\",\"data\":\x7b\"LIST_DOMAINS\":\x7b\"href\":\"domains\"\x7d," ++
    "\"ADD_DOMAIN\":\x7b\"href\":\"domains\",\"method\":\"POST\"\x7d\x7d\x7d")

def domainText : String :=
  "\x7b\"id\":\"a\",\"links\":\x7b\"DELETE\":\x7b\"href\":\"a\",\"method\":\"DELETE\"\x7d\x7d\x7d"

def domainBody : Body := .text ("\x7b\"type\":\"domain\",\"data\":" ++ domainText ++ "\x7d")

def domainsBody (held : Bool) : Body :=
  .text ("\x7b\"type\":\"domains\",\"data\":[" ++ (if held then domainText else "") ++ "]\x7d")

/-- A server on which the domain "a" may be or not. -/
def oneDomain : Transport Bool where
  send call held :=
    match call.method, call.url with
    | .get, "b/broker/rest/api" => (.ok rootBody, held)
    | .get, _ => (.ok (domainsBody held), held)
    | .post, _ =>
      if addedId? call = some "a" ∧ held = false then (.ok domainBody, true)
      else (.error (.fault (.badValue "refused")), held)
    | .delete, _ =>
      if held then (.ok .absent, false) else (.error (.fault (.badValue "refused")), held)
    | _, _ => (.error (.fault (.badValue "refused")), held)

/-- A client of that server. -/
def oneDomainClient : Client Bool := ⟨⟨"b", "c", 990⟩, oneDomain⟩

/-- How that server keeps its domain. -/
def oneDomainLedger : Ledger Bool where
  held held := if held then ["a"] else []
  intent? call :=
    match call.method, call.url with
    | .get, "b/broker/rest/api" => some .root
    | .get, "b/broker/rest/domains" => some .list
    | .post, "b/broker/rest/domains" => (addedId? call).map .add
    | .delete, "b/broker/rest/a" => some (.remove "a")
    | _, _ => none

def listLink : Link := ⟨"LIST_DOMAINS", "domains", .get, [], []⟩

def addLink : Link := ⟨"ADD_DOMAIN", "domains", .post, [], []⟩

def deleteLink : Link := ⟨"DELETE", "a", .delete, [], []⟩

/-- The link of a catalog under a relation. -/
def linkOf? (catalog : Catalog) (relation : String) : Option Link :=
  match catalog.find? relation with
  | some (.link link) => some link
  | _ => none

theorem find?_of_linkOf? {catalog : Catalog} {relation : String} {link : Link}
    (h : linkOf? catalog relation = some link) : catalog.find? relation = some (.link link) := by
  unfold linkOf? at h
  split at h
  · rwa [← Option.some.inj h]
  · cases h

/-- The name of a record and the link under which it is destroyed. -/
def recordOf (representation : Representation) : String × Option Link :=
  (representation.name, linkOf? (.ofLinks representation.common.links) Relation.delete)

/-- What a view shows of the data in a body. -/
def viewBody {α : Type} (view : Payload → Option α) (body : Body) : Option α :=
  match Response.ofBody oneDomainClient.service.depth body with
  | .ok response => view (Response.payload response)
  | .error _ => none

theorem ofBody_of_viewBody {α : Type} {view : Payload → Option α} {body : Body} {a : α}
    (h : viewBody view body = some a) :
    ∃ response, Response.ofBody oneDomainClient.service.depth body = .ok response ∧
      view (Response.payload response) = some a := by
  unfold viewBody at h
  split at h
  · exact ⟨_, ‹_›, h⟩
  · cases h

theorem view_rootBody :
    viewBody (fun payload => (rootCatalog? payload).map fun catalog =>
      (linkOf? catalog Relation.listDomains, linkOf? catalog Relation.addDomain)) rootBody =
      some (some listLink, some addLink) := by
  decide +kernel

theorem view_domainBody :
    viewBody (fun payload => (payload.singleOf? .domain).map recordOf) domainBody =
      some ("a", some deleteLink) := by
  decide +kernel

theorem view_domainsBody (held : Bool) :
    viewBody (fun payload => (payload.listOf? .domain).map (·.map recordOf)) (domainsBody held) =
      some (if held then [("a", some deleteLink)] else []) := by
  cases held <;> decide +kernel

theorem represents_of_recordOf {representation : Representation}
    (h : recordOf representation = ("a", some deleteLink)) :
    oneDomainClient.Represents oneDomainLedger .domains "a" representation := by
  obtain ⟨hname, hlink⟩ := Prod.mk.inj h
  refine ⟨hname, rfl, deleteLink, find?_of_linkOf? hlink, fun force attributes hkind hcheck => ?_⟩
  exact ⟨"b/broker/rest/a", _, ⟨hcheck, rfl, rfl⟩, rfl⟩

theorem offers_oneDomain {catalog : Catalog}
    (hlist : linkOf? catalog Relation.listDomains = some listLink)
    (hadd : linkOf? catalog Relation.addDomain = some addLink) :
    oneDomainClient.Offers oneDomainLedger .domains .connection catalog where
  list _ := ⟨listLink, find?_of_linkOf? hlist, rfl, fun hcheck =>
    ⟨"b/broker/rest/domains", _, ⟨hcheck, rfl, rfl⟩, rfl⟩⟩
  add _ := by
    refine ⟨addLink, find?_of_linkOf? hadd, fun creation name parameters hfamily hname
      hparameters hcheck => ?_⟩
    cases creation with
    | domain id =>
      cases hparameters
      refine ⟨"b/broker/rest/domains", _, ⟨hcheck, rfl, rfl⟩, ?_⟩
      have hid : id.asText? = some name := hname
      simp [oneDomainLedger, addedId?, Mapping.find?, hid]
    | _ => cases hfamily
  owner _ _ hsource := by cases hsource

theorem refused_oneDomain (intent : Intent) (names : List String) (message : String) :
    oneDomainClient.Replies oneDomainLedger .domains intent names
      (.error (.fault (.badValue message))) names :=
  .failed names fun _ _ h => by cases h

theorem oneDomain_honest : oneDomainClient.Honest oneDomainLedger .domains where
  root := ⟨rfl, fun hcheck => ⟨"b/broker/rest/api", _, ⟨hcheck, rfl, rfl⟩, rfl⟩⟩
  replies {call intent} held hintent := by
    obtain ⟨method, url, parameters⟩ := call
    unfold oneDomainLedger at hintent
    simp only at hintent
    split at hintent
    · cases hintent
      obtain ⟨response, hbody, hview⟩ := ofBody_of_viewBody view_rootBody
      obtain ⟨catalog, hroot, hlinks⟩ := Option.map_eq_some_iff.mp hview
      obtain ⟨hlist, hadd⟩ := Prod.mk.inj hlinks
      exact .answered hbody (.root hroot (offers_oneDomain hlist hadd))
    · cases hintent
      obtain ⟨response, hbody, hview⟩ := ofBody_of_viewBody (view_domainsBody held)
      obtain ⟨representations, hlist, hrecords⟩ := Option.map_eq_some_iff.mp hview
      refine .answered hbody (.list hlist ?_)
      have hall : representations.filter Family.domains.admits = representations :=
        List.filter_eq_self.mpr fun _ _ => rfl
      rw [hall]
      cases held with
      | false =>
        obtain rfl := List.map_eq_nil_iff.mp hrecords
        exact .nil
      | true =>
        obtain ⟨representation, rest, rfl, hrecord, hrest⟩ := List.map_eq_cons_iff.mp hrecords
        obtain rfl := List.map_eq_nil_iff.mp hrest
        exact .cons (represents_of_recordOf hrecord) .nil
    · obtain ⟨name, hid, rfl⟩ := Option.map_eq_some_iff.mp hintent
      by_cases hadded : name = "a" ∧ held = false
      · obtain ⟨rfl, rfl⟩ := hadded
        obtain ⟨response, hbody, hview⟩ := ofBody_of_viewBody view_domainBody
        obtain ⟨representation, hrecord, hview⟩ := Option.map_eq_some_iff.mp hview
        simp only [oneDomainClient, oneDomain, hid, and_self, if_true]
        exact .answered hbody (.add List.not_mem_nil hrecord (represents_of_recordOf hview))
      · have hrefused : ¬ (some name = some "a" ∧ held = false) := by simpa using hadded
        simp only [oneDomainClient, oneDomain, hid, if_neg hrefused]
        exact refused_oneDomain _ _ _
    · cases hintent
      cases held with
      | false => exact refused_oneDomain _ _ _
      | true => exact .answered rfl (.remove (List.mem_singleton_self "a"))
    · cases hintent

/-- The domain "a" was created. -/
def withDomain : World Bool :=
  (oneDomainClient.step (.create 0 (.domain (.str "a"))) (.start false)).2

theorem run_withDomain :
    (withDomain.resource 0).members.cell.items? = some [1] ∧
      oneDomainLedger.held withDomain.exchange.server = ["a"] ∧
      isDone (oneDomainClient.step (.destroy 1 .null) withDomain).1 = true := by
  decide +kernel

/-- The domain that was created mirrors that of the server, until both are destroyed. -/
theorem mirrors_withDomain :
    (withDomain.resource 0).members.cell.items? = some [1] ∧ (withDomain.resource 1).name = "a" ∧
      ∃ w', oneDomainClient.step (.destroy 1 .null) withDomain = (.ok .done, w') ∧
        oneDomainLedger.held w'.exchange.server = [] := by
  have hready : oneDomainClient.Ready oneDomainLedger .domains 0 (.start false) :=
    ⟨rfl, .inl ⟨rfl, rfl⟩, fun _ _ _ hsource => (by cases hsource), List.nodup_nil⟩
  have hreaches : oneDomainClient.Reaches (Manages .domains 0) (.start false) withDomain :=
    .step .refl (@Manages.create _ _ _ (.domain (.str "a")) "a" rfl rfl _)
  obtain ⟨hitems, hheld, hdone⟩ := run_withDomain
  have hstep := step_of_isDone hdone
  obtain ⟨-, hnames, hops⟩ := members_mirror_server oneDomain_honest
    (.refl : oneDomainClient.Reaches (Manages .domains 0) _ _) hready rfl hreaches
  obtain ⟨hanswers, -⟩ := hops _ (.destroy ⟨[1], hitems, List.mem_singleton_self 1⟩ .null)
  obtain ⟨-, herase, -⟩ := hanswers _ _ hstep
  have hname : (withDomain.resource 1).name = "a" := by
    have hsame := hnames [1] hitems
    rw [hheld] at hsame
    exact (List.cons.inj hsame).1
  refine ⟨hitems, hname, _, hstep, ?_⟩
  rw [herase, hheld, hname]
  rfl

end BrokerClient.Hierarchy.Client

import BrokerClient.Proofs.Hierarchy.Fault
import BrokerClient.Proofs.Hierarchy.Step
import BrokerClient.Proofs.Request.Assembly

/-!
# What escapes as a fault

An operation whose arguments fit ends in a fault only where it follows a relation under which a
catalog holds a plain value. Catalogs of decoded links hold none. But the answer for the API root
is taken over without decoding when it is of an unknown type, and then a connection tries to follow
whatever it finds there.
-/
namespace BrokerClient.Hierarchy.Client

open Hierarchy.Action

variable {σ : Type} {client : Client σ} {w w' : World σ} {fault : Fault}

/-! ## What an operation asks for -/

/-- A value has a name that stands for it in a request. -/
def IsNamed (v : Value) : Prop := ∀ fault, nameOf v ≠ .error fault

/-- The arguments of an operation can be looked up, or have names, where that is needed. -/
def Fits : Op → Prop
  | .link _ relation | .hasLink _ relation => relation.isKey = true
  | .create _ (.application _ cartridge _ gearProfile) => IsNamed cartridge ∧ IsNamed gearProfile
  | _ => True

/-- The arguments that an operation writes to a request or to a message as they are. -/
def written : Op → List Value
  | .link _ relation => [relation]
  | .create _ (.domain id) => [id]
  | .create _ (.application name _ scale _) => [name, scale]
  | .create _ (.cartridge name) => [name]
  | .create _ (.key name type publicKey) => [name, type, publicKey]
  | .destroy _ force => [force]
  | .rename _ id => [id]
  | .post _ (.addAlias name) | .post _ (.removeAlias name) => [name]
  | .updateKey _ type publicKey => [type, publicKey]
  | .setPublicKey _ publicKey => [publicKey]
  | _ => []

/-- The arguments of an operation fit, and those that it writes can be written. -/
structure WellTyped (op : Op) : Prop where
  fits : Fits op
  writable : ∀ v ∈ written op, v.isWritable = true

/-- In the course of an operation, in a state in between, a resource is asked to follow a
relation. -/
def Asks (client : Client σ) (op : Op) (w : World σ) (r : Ref) (relation : String)
    (w₁ : World σ) : Prop :=
  match op with
  | .links _ | .link .. | .hasLink .. => False
  | .members owner | .member owner _ | .hasMember owner _ | .applicationsOf owner _
  | .hasApplicationsOf owner _ =>
    r = owner ∧ w₁ = w ∧ ∃ family, Unlisted w owner family ∧ relation = family.listRelation
  | .create owner creation =>
    r = owner ∧ creation.lacks? = none ∧ ∃ family,
      (Unlisted w owner family ∧ relation = family.listRelation ∧ w₁ = w) ∨
        (Family.ofOwner? (w.resource owner).kind = some family ∧ relation = family.addRelation ∧
          (client.member? owner creation.name).exec w = (.ok none, w₁))
  | .destroy r' _ => r = r' ∧ relation = Relation.delete ∧ w₁ = w
  | .refresh r' => w₁ = w ∧ ∃ kind, source? r' (w.resource r') = some (r, relation, kind)
  | .user connection =>
    r = connection ∧ relation = Relation.getUser ∧ w₁ = w ∧
      (w.resource connection).attributes.user? = none
  | .availableCartridges connection =>
    r = connection ∧ relation = Relation.listCartridges ∧ w₁ = w
  | .rename domain id =>
    r = domain ∧ relation = Relation.update ∧ w₁ = w ∧ isLacking id = false
  | .cartridgeNames domain | .gearProfiles domain =>
    r = domain ∧ relation = Relation.addApplication ∧ w₁ = w
  | .post application event =>
    r = application ∧ relation = event.relation ∧ w₁ = w ∧ event.lacks? = none
  | .gears application =>
    r = application ∧ relation = Relation.getGears ∧ w₁ = w ∧
      (w.resource application).gears.cell.items? = none
  | .updateKey key _ publicKey | .setPublicKey key publicKey =>
    r = key ∧ relation = Relation.update ∧ w₁ = w ∧ isLacking publicKey = false

/-- A link is followed that is none. -/
def Trips (client : Client σ) (op : Op) (w : World σ) (fault : Fault) : Prop :=
  ∃ r relation w₁ v, client.Asks op w r relation w₁ ∧ client.Tainted w₁ r relation v ∧
    fault = plainFault v

/-- A thing that has a name is sent as a text or a null, and these can be written. -/
theorem nameOf_of_isNamed {v : Value} (h : IsNamed v) :
    ∃ name, nameOf v = .ok name ∧ name.isWritable = true := by
  cases hname : nameOf v with
  | error fault => exact absurd hname (h fault)
  | ok name =>
    refine ⟨name, rfl, ?_⟩
    unfold nameOf at hname
    split at hname <;> cases hname <;> rfl

theorem writable_assemble {mandatory optional : Parameters} (hmandatory : mandatory.Writable)
    (hoptional : optional.Writable) : (mandatory.assemble optional).Writable := by
  intro pair hpair
  obtain hmem | hmem := Mapping.mem_putAll hpair
  · exact hmandatory pair hmem
  · exact hoptional pair (List.mem_filter.mp hmem).1

theorem exists_parameters {owner : Ref} {creation : Creation}
    (h : WellTyped (.create owner creation)) :
    ∃ parameters, creation.parameters = .ok parameters ∧ parameters.Writable := by
  cases creation with
  | application name cartridge scale gearProfile =>
    obtain ⟨framework, hframework, hframework'⟩ := nameOf_of_isNamed h.fits.1
    obtain ⟨profile, hprofile, hprofile'⟩ := nameOf_of_isNamed h.fits.2
    refine ⟨_, by simp only [Creation.parameters, hframework, hprofile]; rfl, ?_⟩
    have hname := h.writable name (by simp [written])
    have hscale := h.writable scale (by simp [written])
    exact writable_assemble (by simp [Parameters.Writable, hname, hframework'])
      (by simp [Parameters.Writable, hscale, hprofile'])
  | _ => exact ⟨_, rfl, by simpa [Parameters.Writable, written] using h.writable⟩

theorem writable_event {application : Ref} {event : Event}
    (h : WellTyped (.post application event)) : event.parameters.Writable := by
  cases event with
  | addAlias name | removeAlias name =>
    have hname := h.writable name (by simp [written])
    simpa [Event.parameters, Parameters.Writable, Value.isWritable] using hname
  | _ => simp [Event.parameters, Parameters.Writable, Value.isWritable]

/-- A step ends in a fault if and only if a resource is asked to follow a relation under which it
has a plain value. -/
theorem perform_faults_iff {op : Op} (hop : WellTyped op) :
    (client.perform op).Faults w fault ↔ client.Trips op w fault := by
  unfold Trips
  cases op with
  | links r =>
    rw [perform, faults_map]
    simpa [Asks] using client.links_safe r w fault
  | link r relation =>
    rw [perform, faults_map]
    simpa [Asks] using entry_safe_of_isKey hop.fits (hop.writable relation (by simp [written]))
  | hasLink r relation =>
    rw [perform, faults_map]
    simpa [Asks] using hasLink_safe_of_isKey hop.fits
  | members owner =>
    rw [perform, faults_map, members_faults_iff]
    simp [Asks]
  | member owner name =>
    rw [perform, faults_map, member?_faults_iff]
    simp [Asks]
  | hasMember owner name =>
    rw [perform, faults_map, member?_faults_iff]
    simp [Asks]
  | create owner creation =>
    obtain ⟨parameters, hparameters, hwritable⟩ := exists_parameters hop
    rw [perform, faults_map, create_faults_iff]
    simp only [createIn_faults_iff hparameters hwritable, member?_faults_iff]
    constructor
    · rintro ⟨hlacks, family, hfamily, ⟨family', hunlisted, v, hv, hfault⟩ | ⟨w₁, hmember, v, hv,
        hfault⟩⟩
      · exact ⟨owner, _, w, v, ⟨rfl, hlacks, family', .inl ⟨hunlisted, rfl, rfl⟩⟩, hv, hfault⟩
      · exact ⟨owner, _, w₁, v, ⟨rfl, hlacks, family, .inr ⟨hfamily, rfl, hmember⟩⟩, hv, hfault⟩
    · rintro ⟨_, _, w₁, v, ⟨rfl, hlacks, family, ⟨hunlisted, rfl, rfl⟩ | ⟨hfamily, rfl, hmember⟩⟩,
        hv, hfault⟩
      · exact ⟨hlacks, family, hunlisted.1, .inl ⟨family, hunlisted, v, hv, hfault⟩⟩
      · exact ⟨hlacks, family, hfamily, .inr ⟨w₁, hmember, v, hv, hfault⟩⟩
  | destroy r force =>
    rw [perform, faults_map, destroy_faults_iff (hop.writable force (by simp [written]))]
    simp [Asks]
  | refresh r =>
    rw [perform, faults_map, refresh_faults_iff]
    simp [Asks]
  | user connection =>
    rw [perform, faults_map, user_faults_iff]
    simp [Asks, and_assoc]
  | availableCartridges connection =>
    rw [perform, faults_map, availableCartridges, faults_bind_of_safe, fetchList_eq,
      expect_faults_iff Parameters.writable_nil]
    · simp [Asks]
    · exact fun _ => Succeeds.safe fun w => ⟨_, _, rfl⟩
  | rename domain id =>
    rw [perform, faults_map, rename_faults_iff (hop.writable id (by simp [written]))]
    simp [Asks, and_assoc]
  | applicationsOf domain cartridge =>
    rw [perform, faults_map, applicationsOf_faults_iff]
    simp [Asks]
  | hasApplicationsOf domain cartridge =>
    rw [perform, faults_map, applicationsOf_faults_iff]
    simp [Asks]
  | cartridgeNames domain =>
    rw [perform, faults_map, creationOptions_faults_iff]
    simp [Asks]
  | gearProfiles domain =>
    rw [perform, faults_map, creationOptions_faults_iff]
    simp [Asks]
  | post application event =>
    rw [perform, faults_map, post_faults_iff (writable_event hop)]
    simp [Asks, and_assoc]
  | gears application =>
    rw [perform, faults_map, gears_faults_iff]
    simp [Asks, and_assoc]
  | updateKey key type publicKey =>
    rw [perform, faults_map, updateKey_faults_iff (hop.writable type (by simp [written]))
      (hop.writable publicKey (by simp [written]))]
    simp [Asks, and_assoc]
  | setPublicKey key publicKey =>
    have htype : (typeValue (w.resource key).attributes).isWritable = true := by
      unfold typeValue
      split <;> rfl
    rw [perform, faults_map, setPublicKey, faults_get_bind,
      updateKey_faults_iff htype (hop.writable publicKey (by simp [written]))]
    simp [Asks, and_assoc]

/-! ## Where plain values come from -/

/-- All catalogs but those of connections are made of decoded links. -/
def Decoded (w : World σ) : Prop :=
  ∀ r catalog, (w.resource r).catalog = some catalog → (w.resource r).kind ≠ .connection →
    ∃ links, catalog = .ofLinks links

theorem Decoded.fills (hw : Decoded w) (h : client.Fills w w') : Decoded w' := by
  intro r catalog hcatalog hkind
  obtain hlt | hle := Nat.lt_or_ge r w.store.next
  · rw [h.kind hlt] at hkind
    obtain heq | ⟨-, hroot, -⟩ := h.catalog r hlt
    · exact hw r catalog (heq ▸ hcatalog) hkind
    · exact absurd hroot hkind
  · obtain ⟨owner, representation, hs⟩ := h.made r (World.lt_next_of_catalog hcatalog) hle
    have hlinks : (w'.resource r).catalog = some (.ofLinks representation.common.links) :=
      congrArg (·.2.2.2) hs
    exact ⟨_, Option.some.inj (hcatalog.symm.trans hlinks)⟩

theorem Decoded.commits (hw : Decoded w) {op : Op} {answer : Except Raised Answer}
    (h : Commits op answer w w') : Decoded w' := by
  intro r catalog hcatalog hkind
  obtain hlt | hle := Nat.lt_or_ge r w.store.next
  · have hturns := h.turns hlt
    rw [hturns.kind] at hkind
    obtain heq | ⟨links, hlinks⟩ | ⟨hroot, -⟩ := hturns.catalog
    · exact hw r catalog (heq ▸ hcatalog) hkind
    · exact ⟨links, Option.some.inj (hcatalog.symm.trans hlinks)⟩
    · exact absurd hroot hkind
  · obtain ⟨owner, representation, hmade⟩ := h.made hle (World.lt_next_of_catalog hcatalog)
    exact ⟨_, Option.some.inj (hcatalog.symm.trans (congrArg (·.catalog) hmade))⟩

theorem decoded_of_reaches {server : σ} {allowed : Op → World σ → Prop}
    (hw : client.Reaches allowed (.start server) w) : Decoded w := by
  induction hw with
  | refl =>
    intro r catalog hcatalog
    cases r <;> cases hcatalog
  | @step w _ op _ ih =>
    obtain ⟨w₁, hfills, hcommits⟩ := client.step_commits op w
    exact (ih.fills hfills).commits hcommits

/-- Only connections have plain values in the place of links. -/
theorem kind_of_tainted (hw : Decoded w) {r : Ref} {relation : String} {v : Value}
    (h : client.Tainted w r relation v) : (w.resource r).kind = .connection := by
  obtain ⟨-, catalog, hlinks, hfind⟩ := h
  by_contra hkind
  obtain ⟨hcatalog, -⟩ | ⟨-, hroot, -⟩ := links_eq_ok.mp (Prod.ext hlinks rfl)
  · obtain ⟨links, rfl⟩ := hw r catalog hcatalog hkind
    rw [Catalog.find?_ofLinks] at hfind
    simp at hfind
  · exact hkind hroot

theorem Asks.fills {op : Op} {r : Ref} {relation : String} {w₁ : World σ}
    (h : client.Asks op w r relation w₁) : client.Fills w w₁ := by
  cases op with
  | links | link | hasLink => exact h.elim
  | create owner creation =>
    obtain ⟨-, -, family, ⟨-, -, rfl⟩ | ⟨-, -, hmember⟩⟩ := h
    · exact .refl w₁
    · exact (client.member?_fills _ _).of_eq hmember
  | members | member | hasMember | applicationsOf | hasApplicationsOf =>
    obtain ⟨-, rfl, -⟩ := h
    exact .refl w₁
  | refresh =>
    obtain ⟨rfl, -⟩ := h
    exact .refl w₁
  | destroy | availableCartridges | cartridgeNames | gearProfiles =>
    obtain ⟨-, -, rfl⟩ := h
    exact .refl w₁
  | user | rename | post | gears | updateKey | setPublicKey =>
    obtain ⟨-, -, rfl, -⟩ := h
    exact .refl w₁

/-- Which faults escape. In whatever state a client has come to, an operation whose arguments fit
ends in a fault if and only if it has to follow a relation of a connection under which the answer
for the API root gave a plain value, and the fault is that of taking that value for a link. Every
other operation answers, or fails with an error of the client. -/
theorem fault_escapes_iff {server : σ} {allowed : Op → World σ → Prop}
    (hw : client.Reaches allowed (.start server) w) {op : Op} (hop : WellTyped op) (fault : Fault) :
    (∃ w', client.step op w = (.error (.fault fault), w')) ↔
      ∃ r relation w₁ v, client.Asks op w r relation w₁ ∧
        (w₁.resource r).kind = .connection ∧ client.Tainted w₁ r relation v ∧
        fault = plainFault v := by
  have htrips : (∃ w', client.step op w = (.error (.fault fault), w')) ↔
      client.Trips op w fault := faults_iff_exists.symm.trans (perform_faults_iff hop)
  rw [htrips]
  constructor
  · rintro ⟨r, relation, w₁, v, hasks, htainted, hfault⟩
    have hdecoded := (decoded_of_reaches hw).fills hasks.fills
    exact ⟨r, relation, w₁, v, hasks, kind_of_tainted hdecoded htainted, htainted, hfault⟩
  · rintro ⟨r, relation, w₁, v, hasks, -, htainted, hfault⟩
    exact ⟨r, relation, w₁, v, hasks, htainted, hfault⟩

/-! ## An API root of an unknown type -/

/-- A client of a server whose API root is an object of an unknown type. -/
def oddRoot : Client Unit where
  service := ⟨"b", "c", 990⟩
  transport := ⟨fun _ s =>
    (.ok (.text ("\x7b\"type\":\"odd\",\"data\":" ++
      "\x7b\"LIST_DOMAINS\":\x7b\"href\":\"domains\"\x7d\x7d\x7d")), s)⟩

/-- An answer that is the fault of taking an object for a link. -/
def isPlainFault : Except Raised Answer → Bool
  | .error (.fault fault) => fault == plainFault (.obj [])
  | _ => false

theorem step_of_isPlainFault {op : Op} (h : isPlainFault (client.step op w).1 = true) :
    client.step op w = (.error (.fault (plainFault (.obj []))), (client.step op w).2) := by
  refine Prod.ext ?_ rfl
  unfold isPlainFault at h
  split at h
  · rename_i found hanswer
    rw [hanswer, eq_of_beq h]
  · cases h

theorem step_oddRoot :
    oddRoot.step (.members 0) (.start ()) =
      (.error (.fault (plainFault (.obj []))), (oddRoot.step (.members 0) (.start ())).2) :=
  step_of_isPlainFault (by decide +kernel)

/-- The first operation of all, whose arguments fit, ends in a fault. -/
theorem fault_escapes_oddRoot :
    WellTyped (.members 0) ∧
      ∃ fault w', oddRoot.step (.members 0) (.start ()) = (.error (.fault fault), w') :=
  ⟨⟨trivial, nofun⟩, _, _, step_oddRoot⟩

/-- The connection was asked for the list of its domains, and had an object in its place. -/
theorem asks_oddRoot :
    ∃ r relation w₁ v, oddRoot.Asks (.members 0) (.start ()) r relation w₁ ∧
      (w₁.resource r).kind = .connection ∧ oddRoot.Tainted w₁ r relation v ∧
      plainFault (.obj []) = plainFault v := by
  have hstart : oddRoot.Reaches (fun _ _ => True) (.start ()) (.start ()) := .refl
  have hop : WellTyped (.members 0) := ⟨trivial, nofun⟩
  exact (fault_escapes_iff hstart hop _).mp ⟨_, step_oddRoot⟩

end BrokerClient.Hierarchy.Client

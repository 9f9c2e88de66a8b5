import BrokerClient.Proofs.Hierarchy.Hearing
import BrokerClient.Proofs.Value.Decidable

/-!
# The aliases of an application

The server can send the aliases of an application with any answer, and it can send none, so that
they are edited on this side. Either way no alias is there twice: of those that are sent the later
repetitions are dropped, and one is added only if it is not there. That is why an alias is gone
once its first occurrence was removed, and why to add a new one and to remove it again leaves the
aliases as they were.
-/
namespace BrokerClient

namespace Value

/-- A value is a text: a whole one, a torn one or a word. -/
def IsText : Value → Prop
  | str _ | torn _ | word _ => True
  | _ => False

theorem same_self {a : Value} (ha : a.IsText) : a.same a = true := by
  cases a with
  | str | torn | word => simp [same, sameText, asText?]
  | _ => cases ha

/-- A text is no number. -/
theorem sameNumber_text {a : Value} (ha : a.IsText) (v : Value) : v.sameNumber a = false := by
  have hnumber : a.wholeNumber? = none := by
    cases a <;> first | rfl | cases ha
  unfold sameNumber
  rw [hnumber]
  cases v.wholeNumber? with
  | some n => rfl
  | none =>
    cases a with
    | str | torn | word => cases v <;> rfl
    | _ => cases ha

theorem isText_of_same {a v : Value} (ha : a.IsText) (hv : v.same a = true) : v.IsText := by
  have hnumber := sameNumber_text ha v
  cases a with
  | str | word | torn =>
    cases v <;> first | trivial | (simp [same, hnumber, sameText, asText?] at hv)
  | _ => cases ha

/-- Whatever is equal to one text is equal. -/
theorem same_of_same {a v w : Value} (ha : a.IsText) (hv : v.same a = true)
    (hw : w.same a = true) : v.same w = true := by
  have hv' := isText_of_same ha hv
  have hw' := isText_of_same ha hw
  cases a with
  | str | word | torn =>
    cases v with
    | str | word | torn =>
      cases w with
      | str | word | torn => simp_all [same, sameText, sameNumber, asText?, wholeNumber?]
      | _ => cases hw'
    | _ => cases hv'
  | _ => cases ha

end Value

namespace Hierarchy

/-! ## Lists in which no value is twice -/

/-- No two of the values are equal. -/
def Unlike (values : List Value) : Prop := values.Pairwise fun v w => v.same w = false

theorem distinct_filter (keep : String → Bool) (names : List String) :
    distinct (names.filter keep) = (distinct names).filter keep := by
  induction names with
  | nil => rfl
  | cons name rest ih =>
    cases hkeep : keep name with
    | true =>
      rw [List.filter_cons_of_pos hkeep, distinct, distinct, List.filter_cons_of_pos hkeep, ih,
        List.filter_filter, List.filter_filter]
      exact congrArg _ (List.filter_congr fun _ _ => Bool.and_comm _ _)
    | false =>
      have hsame (other : String) : (keep other && other != name) = keep other := by
        by_cases he : other = name
        · rw [he, hkeep, Bool.false_and]
        · simp [he]
      rw [List.filter_cons_of_neg (by simp [hkeep]), distinct,
        List.filter_cons_of_neg (by simp [hkeep]), ih, List.filter_filter]
      exact List.filter_congr fun other _ => (hsame other).symm

/-- Later repetitions are dropped; the first occurrences keep their order. -/
theorem distinct_eq_eraseDups (names : List String) : distinct names = names.eraseDups := by
  induction hlength : names.length using Nat.strong_induction_on generalizing names with
  | _ n ih =>
    cases names with
    | nil => rfl
    | cons name rest =>
      have hlt : (rest.filter (· != name)).length < n :=
        (List.length_filter_le _ _).trans_lt (hlength ▸ Nat.lt_succ_self _)
      rw [distinct, List.eraseDups_cons, ← distinct_filter]
      exact congrArg _ (ih _ hlt _ rfl)

theorem unlike_distinct (names : List String) : Unlike ((distinct names).map .str) := by
  refine List.pairwise_map.mpr ((nodup_distinct names).imp fun hne => ?_)
  rw [Value.same_str]
  exact beq_eq_false_iff_ne.mpr hne

namespace Event

theorem dropFirst_sublist (name : Value) (values : List Value) :
    (dropFirst name values).Sublist values := by
  induction values with
  | nil => exact List.Sublist.refl _
  | cons v rest ih =>
    unfold dropFirst
    split
    · exact List.sublist_cons_self v rest
    · exact ih.cons_cons v

/-- Where no two values are equal, the first one that is equal to a text is the only one. -/
theorem dropFirst_eq_filter {name : Value} (hname : name.IsText) {values : List Value}
    (h : Unlike values) : dropFirst name values = values.filter fun v => !v.same name := by
  induction values with
  | nil => rfl
  | cons v rest ih =>
    obtain ⟨hv, hrest⟩ := List.pairwise_cons.mp h
    cases hsame : v.same name with
    | false =>
      rw [dropFirst, if_neg (by simp [hsame]), ih hrest,
        List.filter_cons_of_pos (by simp [hsame])]
    | true =>
      rw [dropFirst, if_pos hsame, List.filter_cons_of_neg (by simp [hsame])]
      refine (List.filter_eq_self.mpr fun v' hv' => ?_).symm
      by_contra hsame'
      have hequal := Value.same_of_same hname hsame (by simpa using hsame')
      rw [hv v' hv'] at hequal
      cases hequal

theorem unlike_editAliases (event : Event) {values : List Value} (h : Unlike values) :
    Unlike (event.editAliases values) := by
  cases event with
  | addAlias name =>
    rw [editAliases]
    split
    · exact h
    · rename_i hnone
      refine List.pairwise_append.mpr ⟨h, List.pairwise_singleton _ _, fun v hv v' hv' => ?_⟩
      rw [List.mem_singleton.mp hv']
      exact Bool.eq_false_iff.mpr fun hsame => hnone (List.any_eq_true.mpr ⟨v, hv, hsame⟩)
  | removeAlias name => exact h.sublist (dropFirst_sublist name values)
  | _ => exact h

end Event

namespace Attributes

theorem unlike_ofRepresentation (representation : Representation) :
    Unlike (ofRepresentation representation).aliases := by
  cases representation with
  | application r => exact unlike_distinct r.aliases
  | _ => exact .nil

theorem unlike_accept {attributes : Attributes} (h : Unlike attributes.aliases)
    (representation : Representation) : Unlike (attributes.accept representation).aliases := by
  cases attributes with
  | application a =>
    cases representation with
    | application r => exact unlike_distinct r.aliases
    | _ => exact h
  | _ => cases representation <;> exact .nil

theorem aliases_withUser (current : Option Ref) (attributes : Attributes) :
    (attributes.withUser current).aliases = attributes.aliases := by
  cases attributes <;> rfl

theorem unlike_editAliases {attributes : Attributes} (h : Unlike attributes.aliases)
    (event : Event) :
    Unlike (attributes.editAliases fun aliases => event.editAliases aliases).aliases := by
  cases attributes with
  | application a => exact event.unlike_editAliases h
  | _ => exact .nil

/-- No operation puts an alias twice among those of an application. -/
theorem Becomes.unlike {attributes attributes' : Attributes} (h : attributes.Becomes attributes')
    (hunlike : Unlike attributes.aliases) : Unlike attributes'.aliases := by
  cases h with
  | accept representation => exact unlike_accept hunlike representation
  | withUser current =>
    rw [aliases_withUser]
    exact hunlike
  | editAliases event => exact unlike_editAliases hunlike event

theorem aliases_accept {attributes : Attributes}
    (hkind : attributes.kind = .application) (x : Representation.Application) :
    (attributes.accept (.application x)).aliases = x.aliases.eraseDups.map .str := by
  cases attributes with
  | application a => exact congrArg (List.map Value.str) (distinct_eq_eraseDups x.aliases)
  | _ => cases hkind

theorem aliases_editAliases {attributes : Attributes}
    (hkind : attributes.kind = .application) (f : List Value → List Value) :
    (attributes.editAliases f).aliases = f attributes.aliases := by
  cases attributes with
  | application a => rfl
  | _ => cases hkind

end Attributes

/-! ## Aliases in every state -/

open Hierarchy.Action

variable {σ : Type} {client : Client σ} {w w' : World σ} {r : Ref}

/-- No application has an alias twice. -/
def World.AliasesUnlike (w : World σ) : Prop :=
  ∀ r, Unlike (w.resource r).attributes.aliases

namespace World.AliasesUnlike

theorem fills (h : w.AliasesUnlike) (hfills : client.Fills w w') : w'.AliasesUnlike := by
  intro r
  obtain hlt | hle := Nat.lt_or_ge r w.store.next
  · rw [hfills.attributes r hlt]
    exact h r
  · obtain hlt' | hle' := Nat.lt_or_ge r w'.store.next
    · obtain ⟨owner, representation, hshows⟩ := hfills.made r hlt' hle
      have hattributes : (w'.resource r).attributes = .ofRepresentation representation :=
        congrArg (·.2.1) hshows
      rw [hattributes]
      exact Attributes.unlike_ofRepresentation representation
    · rw [World.resource_of_next_le hle']
      exact .nil

theorem commits {op : Op} {answer : Except Raised Answer} (h : w.AliasesUnlike)
    (hcommits : Client.Commits op answer w w') : w'.AliasesUnlike := by
  intro r
  obtain hlt | hle := Nat.lt_or_ge r w.store.next
  · obtain hsame | ⟨-, hbecomes⟩ := hcommits.attributes hlt
    · rw [hsame]
      exact h r
    · exact hbecomes.unlike (h r)
  · obtain hlt' | hle' := Nat.lt_or_ge r w'.store.next
    · obtain ⟨owner, representation, hmade⟩ := hcommits.made hle hlt'
      rw [hmade]
      exact Attributes.unlike_ofRepresentation representation
    · rw [World.resource_of_next_le hle']
      exact .nil

theorem step (client : Client σ) (h : w.AliasesUnlike) (op : Op) :
    (client.step op w).2.AliasesUnlike := by
  obtain ⟨w₁, hfills, hcommits⟩ := client.step_commits op w
  exact (h.fills hfills).commits hcommits

theorem run (client : Client σ) (h : w.AliasesUnlike) (ops : List Op) :
    (client.run ops w).2.AliasesUnlike := by
  induction ops generalizing w with
  | nil => exact h
  | cons op rest ih => exact ih (h.step client op)

theorem start (server : σ) : (World.start server).AliasesUnlike := by
  intro r
  cases r <;> exact .nil

end World.AliasesUnlike

namespace Client

/-! ## Events and refreshes -/

variable {event : Event} {payload : Payload}

/-- An application takes over the application in an answer, or else edits its aliases. -/
theorem attributes_settle (hr : r < w.store.next) :
    ((settle r event payload w).resource r).attributes =
      match payload.singleOf? .application with
      | some representation => (w.resource r).attributes.accept representation
      | none => (w.resource r).attributes.editAliases fun aliases => event.editAliases aliases := by
  unfold settle
  cases payload.singleOf? .application with
  | some representation =>
    simp only [World.resource_accept hr, if_pos]
    rfl
  | none => simp only [World.resource_alter_self hr]

/-- The aliases of an application after an operation. -/
def aliasesAfter (client : Client σ) (op : Op) (w : World σ) (r : Ref) : List Value :=
  ((client.step op w).2.resource r).attributes.aliases

/-- The aliases after an event of which an application was heard. -/
theorem aliases_of_answered (hkind : (w.resource r).kind = .application)
    (h : client.Hears (.post r event) w .event payload) {x : Representation.Application}
    (hview : payload.singleOf? .application = some (.application x)) :
    client.aliasesAfter (.post r event) w r = x.aliases.eraseDups.map .str := by
  have hr : r < w.store.next := World.lt_next_of_kind (by simp [hkind])
  obtain ⟨u, hstore, hstep⟩ := step_post_of_hears (by simp [hkind]) h
  have hkind' : (u.resource r).attributes.kind = .application := by
    rwa [World.resource, hstore]
  rw [aliasesAfter, hstep, attributes_settle (hstore ▸ hr), hview]
  exact Attributes.aliases_accept hkind' x

/-- The aliases after an event of which no application was heard. -/
theorem aliases_of_unanswered (hkind : (w.resource r).kind = .application)
    (h : client.Hears (.post r event) w .event payload)
    (hview : payload.singleOf? .application = none) :
    client.aliasesAfter (.post r event) w r =
      event.editAliases (w.resource r).attributes.aliases := by
  have hr : r < w.store.next := World.lt_next_of_kind (by simp [hkind])
  obtain ⟨u, hstore, hstep⟩ := step_post_of_hears (by simp [hkind]) h
  have hresource : u.resource r = w.resource r := by
    rw [World.resource, hstore, World.resource]
  rw [aliasesAfter, hstep, attributes_settle (hstore ▸ hr), hview, hresource]
  exact Attributes.aliases_editAliases hkind _

theorem source?_application (hkind : (w.resource r).kind = .application) :
    source? r (w.resource r) = some (r, Relation.get, .application) := by
  rw [source?, hkind]

/-- The aliases after a refresh of which an application was heard. -/
theorem aliases_of_refreshed (hkind : (w.resource r).kind = .application)
    (h : client.Hears (.refresh r) w (.update r .application) payload)
    {x : Representation.Application}
    (hview : payload.singleOf? .application = some (.application x)) :
    client.aliasesAfter (.refresh r) w r = x.aliases.eraseDups.map .str := by
  have hr : r < w.store.next := World.lt_next_of_kind (by simp [hkind])
  obtain ⟨u, hstore, hstep⟩ := step_refresh_of_hears (source?_application hkind) h hview
  have hkind' : (u.resource r).attributes.kind = .application := by
    rwa [World.resource, hstore]
  rw [aliasesAfter, hstep, World.resource_forget, if_pos rfl,
    World.resource_accept (hstore ▸ hr), if_pos rfl]
  exact Attributes.aliases_accept hkind' x

/-! ## The law of aliases -/

/-- What becomes of the aliases of an application in the operations that concern them. -/
structure KeepsAliases (client : Client σ) (w : World σ) (r : Ref) : Prop where
  /-- No alias is there twice. -/
  unlike : Unlike (w.resource r).attributes.aliases
  /-- An event succeeds if and only if the server answers anything to it. -/
  succeeds : ∀ event, (∃ answer w', client.step (.post r event) w = (.ok answer, w')) ↔
    ∃ payload, client.Hears (.post r event) w .event payload
  /-- Without an application in the answer an alias is added at the end if it is not there. -/
  adds : ∀ a payload, client.Hears (.post r (.addAlias a)) w .event payload →
    payload.singleOf? .application = none →
    client.aliasesAfter (.post r (.addAlias a)) w r =
      if (w.resource r).attributes.aliases.any (·.same a) then (w.resource r).attributes.aliases
      else (w.resource r).attributes.aliases ++ [a]
  /-- Without an application in the answer an alias is removed, and the others stay in order. -/
  removes : ∀ a payload, a.IsText → client.Hears (.post r (.removeAlias a)) w .event payload →
    payload.singleOf? .application = none →
    client.aliasesAfter (.post r (.removeAlias a)) w r =
      (w.resource r).attributes.aliases.filter fun v => !v.same a
  /-- To add an alias that is not there and to remove it again changes nothing. -/
  restores : ∀ a payload payload', a.IsText →
    (w.resource r).attributes.aliases.any (·.same a) = false →
    client.Hears (.post r (.addAlias a)) w .event payload →
    payload.singleOf? .application = none →
    client.Hears (.post r (.removeAlias a)) (client.step (.post r (.addAlias a)) w).2 .event
      payload' →
    payload'.singleOf? .application = none →
    client.aliasesAfter (.post r (.removeAlias a)) (client.step (.post r (.addAlias a)) w).2 r =
      (w.resource r).attributes.aliases
  /-- If an application is in the answer to an event, it has the aliases that are sent. -/
  answered : ∀ event payload x, client.Hears (.post r event) w .event payload →
    payload.singleOf? .application = some (.application x) →
    client.aliasesAfter (.post r event) w r = x.aliases.eraseDups.map .str
  /-- A refresh succeeds if and only if the server answers an application to it. -/
  refreshes : (∃ answer w', client.step (.refresh r) w = (.ok answer, w')) ↔
    ∃ payload representation, client.Hears (.refresh r) w (.update r .application) payload ∧
      payload.singleOf? .application = some representation
  /-- After a refresh an application has the aliases that are sent. -/
  refreshed : ∀ payload x, client.Hears (.refresh r) w (.update r .application) payload →
    payload.singleOf? .application = some (.application x) →
    client.aliasesAfter (.refresh r) w r = x.aliases.eraseDups.map .str

/-- An alias that was not there is removed as it was added. -/
theorem filter_append_self {a : Value} (ha : a.IsText) {values : List Value}
    (h : values.any (·.same a) = false) :
    (values ++ [a]).filter (fun v => !v.same a) = values := by
  have hkept : ∀ v ∈ values, (!v.same a) = true := by simpa using h
  rw [List.filter_append, List.filter_eq_self.mpr hkept,
    List.filter_cons_of_neg (by simp [Value.same_self ha]), List.filter_nil, List.append_nil]

theorem aliases_of_removed (hw : w.AliasesUnlike) (hkind : (w.resource r).kind = .application)
    {a : Value} (ha : a.IsText) (h : client.Hears (.post r (.removeAlias a)) w .event payload)
    (hview : payload.singleOf? .application = none) :
    client.aliasesAfter (.post r (.removeAlias a)) w r =
      (w.resource r).attributes.aliases.filter fun v => !v.same a := by
  rw [aliases_of_unanswered hkind h hview, Event.editAliases]
  exact Event.dropFirst_eq_filter ha (hw r)

theorem keepsAliases (client : Client σ) (hw : w.AliasesUnlike)
    (hkind : (w.resource r).kind = .application) : client.KeepsAliases w r where
  unlike := hw r
  succeeds event := by
    constructor
    · rintro ⟨answer, w', h⟩
      exact hears_of_step_post h
    · rintro ⟨payload, h⟩
      obtain ⟨u, -, hstep⟩ := step_post_of_hears (by simp [hkind]) h
      exact ⟨_, _, hstep⟩
  adds a payload h hview := aliases_of_unanswered hkind h hview
  removes a payload ha h hview := aliases_of_removed hw hkind ha h hview
  restores a payload payload' ha hnew h hview h' hview' := by
    have hr : r < w.store.next := World.lt_next_of_kind (by simp [hkind])
    have hkind' :
        ((client.step (.post r (.addAlias a)) w).2.resource r).kind = .application := by
      rw [client.kind_step _ hr, hkind]
    have hadded : ((client.step (.post r (.addAlias a)) w).2.resource r).attributes.aliases =
        (w.resource r).attributes.aliases ++ [a] := by
      have hafter := aliases_of_unanswered hkind h hview
      rwa [Event.editAliases, if_neg (by simp [hnew])] at hafter
    rw [aliases_of_removed (hw.step client _) hkind' ha h' hview', hadded]
    exact filter_append_self ha hnew
  answered event payload x h hview := aliases_of_answered hkind h hview
  refreshes := by
    constructor
    · rintro ⟨answer, w', h⟩
      exact hears_of_step_refresh (source?_application hkind) h
    · rintro ⟨payload, representation, h, hview⟩
      obtain ⟨u, -, hstep⟩ := step_refresh_of_hears (source?_application hkind) h hview
      exact ⟨_, _, hstep⟩
  refreshed payload x h hview := aliases_of_refreshed hkind h hview

/-- Whatever was done before: the aliases of an application obey the law. -/
theorem aliases_kept (client : Client σ) (server : σ) (ops : List Op) (r : Ref)
    (hkind : ((client.run ops (.start server)).2.resource r).kind = .application) :
    client.KeepsAliases (client.run ops (.start server)).2 r :=
  client.keepsAliases (World.AliasesUnlike.run client (.start server) ops) hkind

/-! ## An application with two aliases -/

/-- What a server answers on which the domain "d" has the application "a" with two aliases, one of
them given twice. It answers events with nothing. -/
def aliasedReply (call : Call) : Body :=
  match call.method, call.url with
  | .get, "b/broker/rest/api" =>
    .text "\x7b\"type\":\"links\",\"data\":\x7b\"LIST_DOMAINS\":\x7b\"href\":\"domains\"\x7d\x7d\x7d"
  | .get, "b/broker/rest/domains" =>
    .text ("\x7b\"type\":\"domains\",\"data\":[\x7b\"id\":\"d\",\"links\":\x7b" ++
      "\"LIST_APPLICATIONS\":\x7b\"href\":\"d\"\x7d\x7d\x7d]\x7d")
  | .get, _ =>
    .text ("\x7b\"type\":\"applications\",\"data\":[\x7b\"name\":\"a\"," ++
      "\"aliases\":[\"p\",\"q\",\"p\"],\"links\":\x7b" ++
      "\"ADD_ALIAS\":\x7b\"href\":\"e\",\"method\":\"POST\"\x7d," ++
      "\"REMOVE_ALIAS\":\x7b\"href\":\"e\",\"method\":\"POST\"\x7d\x7d\x7d]\x7d")
  | _, _ => .absent

/-- A client of that server. -/
def aliased : Client Unit where
  service := ⟨"b", "c", 990⟩
  transport := ⟨fun call s => (.ok (aliasedReply call), s)⟩

/-- The state after the application was listed. -/
def aliasedWorld : World Unit := (aliased.run [.members 0, .members 1] (.start ())).2

/-- To add a third alias. -/
def addition : Op := .post 2 (.addAlias (.str "r"))

/-- To remove it again. -/
def deletion : Op := .post 2 (.removeAlias (.str "r"))

/-- Tells whether a payload is no application. -/
def other? (payload : Payload) : Option Unit :=
  if payload.singleOf? .application = none then some () else none

theorem hears_of_other? {op : Op} {w : World Unit}
    (h : aliased.heard? op w .event other? = some ()) :
    ∃ payload, aliased.Hears op w .event payload ∧ payload.singleOf? .application = none := by
  obtain ⟨payload, hhears, hview⟩ := hears_of_heard? h
  exact ⟨payload, hhears, by simpa [other?] using hview⟩

theorem run_aliased :
    (aliasedWorld.resource 2).kind = .application ∧
      (aliasedWorld.resource 2).attributes.aliases = [.str "p", .str "q"] ∧
      aliased.heard? addition aliasedWorld .event other? = some () ∧
      aliased.heard? deletion (aliased.step addition aliasedWorld).2 .event other? = some () := by
  decide +kernel

/-- A third alias comes after the two, and when it is removed these are left. -/
theorem aliases_restored :
    aliased.aliasesAfter addition aliasedWorld 2 = [.str "p", .str "q", .str "r"] ∧
      aliased.aliasesAfter deletion (aliased.step addition aliasedWorld).2 2 =
        [.str "p", .str "q"] := by
  obtain ⟨hkind, haliases, hadd, hremove⟩ := run_aliased
  obtain ⟨payload, h, hview⟩ := hears_of_other? hadd
  obtain ⟨payload', h', hview'⟩ := hears_of_other? hremove
  have hkeeps : aliased.KeepsAliases aliasedWorld 2 :=
    aliases_kept aliased () [.members 0, .members 1] 2 hkind
  have hnew : (aliasedWorld.resource 2).attributes.aliases.any (·.same (.str "r")) = false := by
    rw [haliases]
    decide +kernel
  constructor
  · have hadds := hkeeps.adds (.str "r") payload h hview
    rwa [hnew, if_neg Bool.false_ne_true, haliases] at hadds
  · have hrestores := hkeeps.restores (.str "r") payload payload' trivial hnew h hview h' hview'
    rwa [haliases] at hrestores

end Client

end Hierarchy

end BrokerClient

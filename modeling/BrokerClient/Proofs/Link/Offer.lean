import BrokerClient.Proofs.Link.Declaration

/-!
# Offers of links

A mapping of links offers each of them by a JSON object under a name. The object says where the
link leads, by which method and with which parameters. The relation of the link is a text that the
object gives, or else the name. A link that was offered has one of the four methods.
-/
namespace BrokerClient

open Record Verdict

namespace Method

variable {method : Method} {s : String} {v : Value}

theorem word_ofWord (s : String) : (ofWord s).word = s := by
  unfold ofWord
  split_ifs <;> simp only [word, *]

theorem ofWord_eq_iff (hknown : method.isKnown = true) :
    ofWord s = method ↔ s = method.word := by
  constructor
  · rintro rfl
    exact (word_ofWord s).symm
  · rintro rfl
    cases method with
    | other w => cases hknown
    | _ => rfl

theorem recognize?_eq_some :
    recognize? s = some method ↔ method.isKnown = true ∧ Text.uppercase s = method.word := by
  constructor
  · intro h
    have hknown := isKnown_of_recognize? h
    refine ⟨hknown, (ofWord_eq_iff hknown).mp ?_⟩
    rw [recognize?] at h
    split at h
    · exact Option.some.inj h
    · cases h
  · rintro ⟨hknown, hword⟩
    rw [recognize?, (ofWord_eq_iff hknown).mpr hword, if_pos hknown]

theorem decodeMethod_eq_accepted (hjson : v.isJson = true) :
    Link.decodeMethod v = accepted method ↔
      ∃ s, v = .str s ∧ method.isKnown = true ∧ Text.uppercase s = method.word := by
  simp only [← recognize?_eq_some]
  cases v with
  | word _ | bytes _ => cases hjson
  | str s => cases hs : recognize? s <;> simp [Link.decodeMethod, Value.asText?, problem, hs]
  | _ => simp [Link.decodeMethod, Value.asText?, problem]

end Method

namespace Link

/-- The parameters that a JSON value declares: null declares none, a list declares one by each of
its items. -/
def Declares (v : Value) (parameters : List LinkParameter) : Prop :=
  v = .null ∧ parameters = [] ∨
    ∃ items, v = .arr items ∧ List.Forall₂
      (fun item parameter => ∃ fields, item = .obj fields ∧ parameter.DeclaredBy fields)
      items parameters

/-- A link is what is offered under a name. -/
structure OfferedBy (name : String) (fields : Mapping Value) (link : Link) : Prop where
  relation : (Value.given fields "rel").isGiven = true ∧
      (Value.given fields "rel").string? = some link.relation ∨
    (Value.given fields "rel").isGiven = false ∧ link.relation = name
  href : (fields.find? "href").bind Value.string? = some link.href
  method : fields.find? "method" = none ∧ link.method = .get ∨
    ∃ s, fields.find? "method" = some (.str s) ∧ link.method.isKnown = true ∧
      Text.uppercase s = link.method.word
  requiredParams : Declares (Value.given fields "required_params") link.requiredParams
  optionalParams : Declares (Value.given fields "optional_params") link.optionalParams

variable {fields : Mapping Value} {name : String} {link : Link} {v : Value}

theorem OfferedBy.isKnown (h : OfferedBy name fields link) : link.method.isKnown = true := by
  obtain ⟨-, hget⟩ | ⟨s, -, hknown, -⟩ := h.method
  · rw [hget]
    rfl
  · exact hknown

theorem decode_obj_eq_accepted :
    decode (.obj fields) = accepted link ↔
      decodeRelation fields = accepted link.relation ∧
        required "href" string fields = accepted link.href ∧
        defaulted "method" .get decodeMethod fields = accepted link.method ∧
        decodeParams (Value.given fields "required_params") = accepted link.requiredParams ∧
        decodeParams (Value.given fields "optional_params") = accepted link.optionalParams := by
  have hrequired (parameters : List LinkParameter) :
      defaulted "required_params" [] decodeParams fields = accepted parameters ↔ _ :=
    defaulted_eq_accepted_of_null rfl
  have hoptional (parameters : List LinkParameter) :
      defaulted "optional_params" [] decodeParams fields = accepted parameters ↔ _ :=
    defaulted_eq_accepted_of_null rfl
  rw [decode, object, seq₅_eq_accepted]
  simp only [hrequired, hoptional]
  constructor
  · rintro ⟨_, _, _, _, _, hrelation, hhref, hmethod, hrequired, hoptional, rfl⟩
    exact ⟨hrelation, hhref, hmethod, hrequired, hoptional⟩
  · rintro ⟨hrelation, hhref, hmethod, hrequired, hoptional⟩
    exact ⟨_, _, _, _, _, hrelation, hhref, hmethod, hrequired, hoptional, rfl⟩

theorem decodeParams_eq_accepted (hjson : v.isJson = true) {parameters : List LinkParameter} :
    decodeParams v = accepted parameters ↔ Declares v parameters := by
  cases v with
  | null => simp [decodeParams, Declares, eq_comm]
  | arr items =>
    have hitem (item : Value) (hitem : item ∈ items) (parameter : LinkParameter) :
        LinkParameter.decode item = accepted parameter ↔
          ∃ fields, item = .obj fields ∧ parameter.DeclaredBy fields := by
      cases item with
      | obj fields =>
        simp [LinkParameter.decode_eq_accepted (Value.areJson_iff.mp hjson _ hitem)]
      | _ => simp [LinkParameter.decode, object, problem]
    rw [decodeParams, Record.sequence, each_eq_accepted, forall₂_congr_of_mem hitem]
    · simp [Declares]
    · intro h
      cases h
  | _ => simp [decodeParams, Record.sequence, Declares, problem]

theorem decodeRelation_of_isGiven (hgiven : (Value.given fields "rel").isGiven = true)
    (s : String) :
    decodeRelation fields = accepted s ↔ string (Value.given fields "rel") = accepted s := by
  rw [Value.given] at hgiven ⊢
  cases hrel : fields.find? "rel" with
  | none =>
    rw [hrel] at hgiven
    cases hgiven
  | some v =>
    rw [decodeRelation, Mapping.has, hrel, Option.isSome_some, if_pos rfl, required_eq_accepted]
    simp [hrel]

theorem decodeRelation_put (name s : String) :
    decodeRelation (fields.put "rel" (.str name)) = accepted s ↔ s = name := by
  have hrel : (fields.put "rel" (.str name)).find? "rel" = some (.str name) := by
    rw [Mapping.find?_put, if_pos rfl]
  rw [decodeRelation, Mapping.has, hrel, Option.isSome_some, if_pos rfl, required_eq_accepted]
  simp [hrel, string, eq_comm]

/-- The name of a link takes the place of a relation that is not given. -/
theorem decodeNamed_obj_eq_accepted :
    decodeNamed name (.obj fields) = accepted link ↔
      ((Value.given fields "rel").isGiven = true ∧
          string (Value.given fields "rel") = accepted link.relation ∨
        (Value.given fields "rel").isGiven = false ∧ link.relation = name) ∧
        required "href" string fields = accepted link.href ∧
        defaulted "method" .get decodeMethod fields = accepted link.method ∧
        decodeParams (Value.given fields "required_params") = accepted link.requiredParams ∧
        decodeParams (Value.given fields "optional_params") = accepted link.optionalParams := by
  cases hgiven : (Value.given fields "rel").isGiven with
  | true =>
    have hnamed : named name (.obj fields) = .obj fields := if_pos hgiven
    rw [decodeNamed, hnamed, decode_obj_eq_accepted, decodeRelation_of_isGiven hgiven]
    simp
  | false =>
    have hnamed : named name (.obj fields) = .obj (fields.put "rel" (.str name)) :=
      if_neg (ne_true_of_eq_false hgiven)
    -- The name is written as the relation, so the other fields are what they were.
    have hhref : "href" ≠ "rel" := by decide
    have hmethod : "method" ≠ "rel" := by decide
    have hrequired : "required_params" ≠ "rel" := by decide
    have hoptional : "optional_params" ≠ "rel" := by decide
    rw [decodeNamed, hnamed, decode_obj_eq_accepted, decodeRelation_put, required_put hhref,
      defaulted_put hmethod, Value.given_put hrequired, Value.given_put hoptional]
    simp

theorem method_eq_accepted (hjson : (Value.obj fields).isJson = true) {method : Method} :
    defaulted "method" .get decodeMethod fields = accepted method ↔
      fields.find? "method" = none ∧ method = .get ∨
        ∃ s, fields.find? "method" = some (.str s) ∧ method.isKnown = true ∧
          Text.uppercase s = method.word := by
  rw [defaulted_eq_accepted, or_comm]
  refine or_congr_right ⟨?_, ?_⟩
  · rintro ⟨v, hfind, hv⟩
    obtain ⟨s, rfl, hs⟩ :=
      (Method.decodeMethod_eq_accepted (Value.isJson_of_find? hjson hfind)).mp hv
    exact ⟨s, hfind, hs⟩
  · rintro ⟨s, hfind, hs⟩
    exact ⟨.str s, hfind, (Method.decodeMethod_eq_accepted rfl).mpr ⟨s, rfl, hs⟩⟩

theorem decodeNamed_eq_accepted (hjson : v.isJson = true) :
    decodeNamed name v = accepted link ↔
      ∃ fields, v = .obj fields ∧ OfferedBy name fields link := by
  cases v
  case obj fields =>
    rw [decodeNamed_obj_eq_accepted, string_eq_accepted (Value.isJson_given hjson _),
      required_string_eq_accepted hjson, method_eq_accepted hjson,
      decodeParams_eq_accepted (Value.isJson_given hjson _),
      decodeParams_eq_accepted (Value.isJson_given hjson _)]
    constructor
    · rintro ⟨hrelation, hhref, hmethod, hrequired, hoptional⟩
      exact ⟨fields, rfl, hrelation, hhref, hmethod, hrequired, hoptional⟩
    · rintro ⟨_, ⟨⟩, hrelation, hhref, hmethod, hrequired, hoptional⟩
      exact ⟨hrelation, hhref, hmethod, hrequired, hoptional⟩
  all_goals simp [decodeNamed, named, decode, object, problem]

/-- A mapping of links is accepted exactly if it offers each of them, and it offers them in its own
order and under its own names. -/
theorem decodeMap_obj_eq_accepted {links : Mapping Value}
    (hjson : (Value.obj links).isJson = true) {decoded : Mapping Link} :
    decodeMap (.obj links) = accepted decoded ↔
      List.Forall₂ (fun pair entry => entry.1 = pair.1 ∧
        ∃ fields, pair.2 = .obj fields ∧ OfferedBy pair.1 fields entry.2) links decoded := by
  rw [decodeMap, eachPair_eq_accepted]
  refine forall₂_congr_of_mem fun pair hpair entry => and_congr_right fun _ => ?_
  exact decodeNamed_eq_accepted (Value.holdJson_iff.mp hjson pair hpair)

end Link

end BrokerClient

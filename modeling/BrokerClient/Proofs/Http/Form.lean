import BrokerClient.Http.Client
import BrokerClient.Proofs.Exchange
import BrokerClient.Proofs.Request.Check
import BrokerClient.Proofs.Traversal
import BrokerClient.Proofs.Value.Wire

/-!
# What is checked is what is sent

Three places look at the parameters of a request: the check against the link, the choice of what a
method sends, and the client that turns parameters into form data. Each has its own idea of a null
and of an empty text. Whatever comes to a session has passed all three, so the form data in it can
be held against the link once more.
-/
namespace BrokerClient

variable {σ : Type}

/-- A session that also keeps a record of the requests that it was asked to carry out. -/
def Session.recorded (session : Session σ) : Session (List HttpRequest × σ) where
  exchange request s :=
    let (outcome, rest) := session.exchange request s.2
    (outcome, s.1 ++ [request], rest)

/-- Form data holds the parameters that are not null, in their order and each as the text that it
is sent as. -/
structure Parameters.Fill (parameters : Parameters) (form : Mapping String) : Prop where
  names : form.names = Mapping.names (parameters.filter fun (_, v) => !v.isNull)
  texts : ∀ name text, form.find? name = some text ↔
    ∃ v, parameters.find? name = some v ∧ v.isNull = false ∧ v.wire? = some text

/-- Form data is what a link declares: what the link requires is there, and not empty where it is
a `string`, and whatever is there is one of the options that are declared for it. -/
structure Link.Takes (link : Link) (form : Mapping String) : Prop where
  required : ∀ parameter ∈ link.requiredParams, ∃ text, form.find? parameter.name = some text ∧
    (parameter.kind = "string" → text ≠ "")
  options : ∀ parameter ∈ link.requiredParams ++ link.optionalParams, parameter.options ≠ [] →
    ∀ text, form.find? parameter.name = some text → text ∈ parameter.options

namespace HttpClient

variable {parameters : Parameters} {data : Mapping String}

theorem formPair_eq_ok {pair : String × Value} {entry : String × String} :
    formPair pair = .ok entry ↔ pair.2.isWritable = true ∧ (pair.1, pair.2.wireText) = entry := by
  unfold formPair
  cases hwire : pair.2.wire? with
  | none => simp [Value.wire?_eq_none.mp hwire]
  | some text =>
    obtain ⟨hwritable, rfl⟩ := Value.wire?_eq_some.mp hwire
    simp [hwritable]

/-- There is form data if all parameters that are not null can be written. -/
theorem form_eq_ok : form parameters = .ok data ↔
    (∀ pair ∈ parameters, pair.2.isNull = false → pair.2.isWritable = true) ∧
      (parameters.filter fun (_, v) => !v.isNull).map (fun (name, v) => (name, v.wireText)) =
        data := by
  rw [form, mapM_eq_ok]
  simp only [formPair_eq_ok]
  rw [List.forall₂_and_left, ← List.forall₂_map_left_iff, List.forall₂_eq_eq_eq]
  simp

section FormData

variable (h : form parameters = .ok data)
include h

theorem names_form :
    data.names = Mapping.names (parameters.filter fun (_, v) => !v.isNull) := by
  rw [← (form_eq_ok.mp h).2]
  simp [Mapping.names, Function.comp_def]

theorem nodup_names_form (hnames : parameters.names.Nodup) : data.names.Nodup := by
  rw [names_form h]
  exact hnames.sublist (List.filter_sublist.map _)

theorem fill_form (hnames : parameters.names.Nodup) : parameters.Fill data where
  names := names_form h
  texts name text := by
    obtain ⟨hwritable, hdata⟩ := form_eq_ok.mp h
    rw [Mapping.find?_eq_some (nodup_names_form h hnames), ← hdata]
    simp only [Mapping.find?_eq_some hnames, List.mem_map, List.mem_filter, Prod.exists,
      Prod.mk.injEq, Bool.not_eq_true']
    constructor
    · rintro ⟨n, v, ⟨hmem, hnull⟩, rfl, rfl⟩
      exact ⟨v, hmem, hnull, Value.wire?_of_isWritable (hwritable _ hmem hnull)⟩
    · rintro ⟨v, hmem, hnull, htext⟩
      exact ⟨name, v, ⟨hmem, hnull⟩, rfl, (Value.wire?_eq_some.mp htext).2⟩

end FormData

end HttpClient

namespace Request

variable {link : Link} {parameters : Parameters} {form : Mapping String}

/-- A required parameter of the kind `string` is not sent as an empty text. -/
theorem ne_empty_of_isEmptyFor {parameter : LinkParameter} {v : Value} {text : String}
    (hkind : parameter.kind = "string") (hformed : v.isFormed = true)
    (h : isEmptyFor parameter v = false) (htext : v.wire? = some text) : text ≠ "" := by
  obtain ⟨-, rfl⟩ := Value.wire?_eq_some.mp htext
  refine Value.wireText_ne_empty hformed ?_
  rintro rfl
  simp [isEmptyFor, hkind] at h

/-- What is not null has a text in the form data. -/
theorem exists_text_of_fill (hfill : parameters.Fill form) {name : String} {v : Value}
    (hv : parameters.find? name = some v) (hnull : v.isNull = false) :
    ∃ text, form.find? name = some text ∧ v.wire? = some text := by
  have hname : name ∈ form.names := by
    rw [hfill.names]
    have hmem : (name, v) ∈ parameters.filter fun (_, v) => !v.isNull :=
      List.mem_filter.mpr ⟨Mapping.mem_of_find? hv, by simp [hnull]⟩
    exact List.mem_map.mpr ⟨_, hmem, rfl⟩
  obtain ⟨text, htext⟩ := Mapping.exists_find?_of_mem_names hname
  obtain ⟨v', hv', -, hwire⟩ := (hfill.texts name text).mp htext
  obtain rfl := Option.some.inj (hv.symm.trans hv')
  exact ⟨text, htext, hwire⟩

/-- What passes the check of a link is still what the link declares when it is form data. -/
theorem takes_of_check (hcheck : check link parameters = .ok ())
    (hformed : ∀ name v, parameters.find? name = some v → v.isFormed = true)
    (hfill : parameters.Fill form) : link.Takes form where
  required parameter hparameter := by
    obtain ⟨v, hv, hempty, -⟩ :=
      checkRequired_eq_ok.mp ((check_eq_ok.mp hcheck).1 parameter hparameter)
    obtain ⟨text, htext, hwire⟩ := exists_text_of_fill hfill hv (isNull_of_isEmptyFor hempty)
    exact ⟨text, htext, fun hkind => ne_empty_of_isEmptyFor hkind (hformed _ v hv) hempty hwire⟩
  options parameter hparameter hoptions text htext := by
    obtain ⟨v, hv, hnull, hwire⟩ := (hfill.texts _ _).mp htext
    have hrespects := respectsOptions_of_check hcheck hparameter hv hnull
    simpa [respectsOptions, hoptions, hwire] using hrespects

end Request

namespace Service

variable {service : Service} {link : Link} {parameters : Parameters} {deleteWithBody : Bool}

/-- A method that sends form data. -/
def sendsForm (method : Method) (deleteWithBody : Bool) : Bool :=
  match method with
  | .post | .put => true
  | .delete => deleteWithBody
  | _ => false

theorem parameters_of_callFor {method : Method} {url : String} {call : Call}
    (hbody : sendsForm method deleteWithBody = true)
    (h : callFor method url parameters deleteWithBody = some call) :
    call.parameters = some parameters := by
  cases method with
  | delete =>
    simp only [sendsForm] at hbody
    simp only [callFor, hbody, if_true, Option.some.injEq] at h
    exact h ▸ rfl
  | post => exact Option.some.inj h ▸ rfl
  | put => exact Option.some.inj h ▸ rfl
  | _ => cases hbody

/-- A session is asked for at most one request, and only if the link can be followed. -/
theorem recorded_of_request (service : Service) (http : HttpClient) (session : Session σ)
    (link : Link) (parameters : Parameters) (deleteWithBody : Bool)
    (x : Exchange (List HttpRequest × σ)) :
    let y := (service.request (http.transport session.recorded) link parameters deleteWithBody x).2
    y.server.1 = x.server.1 ∨
      ∃ url call request, service.Sends link parameters deleteWithBody url call ∧
        http.requestFor call = .ok request ∧ y.server.1 = x.server.1 ++ [request] := by
  obtain ⟨url, call, hsends⟩ | ⟨e, y, hrefuses, -, hy⟩ :=
    request_cases service (http.transport session.recorded) link parameters deleteWithBody x
  · rw [request_of_sends hsends]
    cases hrequest : http.requestFor call with
    | error r =>
      refine .inl ?_
      simp [Exchange.send, Exchange.note, HttpClient.transport, HttpClient.perform, hrequest]
    | ok request =>
      refine .inr ⟨url, call, request, hsends, hrequest, ?_⟩
      simp [Exchange.send, Exchange.note, HttpClient.transport, HttpClient.perform, hrequest,
        Session.recorded]
  · rw [hrefuses]
    obtain rfl | ⟨entry, rfl⟩ := hy <;> exact .inl rfl

/-- The form data of a request is that of the parameters of its call. -/
theorem form_of_requestFor {http : HttpClient} {call : Call} {request : HttpRequest}
    (h : http.requestFor call = .ok request) (hparameters : call.parameters = some parameters) :
    ∃ data, HttpClient.form parameters = .ok data ∧ request.form = some data := by
  rw [HttpClient.requestFor, hparameters, Option.mapM_some] at h
  cases hdata : HttpClient.form parameters with
  | error r =>
    rw [hdata] at h
    cases h
  | ok data =>
    rw [hdata] at h
    cases h
    exact ⟨data, rfl, rfl⟩

/-- Whatever request a session is asked for, its form data holds exactly the parameters that are
not null, and it is what the link declares. -/
theorem sends_what_is_checked (service : Service) (http : HttpClient) (session : Session σ)
    (link : Link) (parameters : Parameters) (deleteWithBody : Bool)
    (hbody : sendsForm link.method deleteWithBody = true) (hnames : parameters.names.Nodup)
    (hformed : ∀ pair ∈ parameters, pair.2.isFormed = true)
    (x : Exchange (List HttpRequest × σ)) :
    ∃ sent, (service.request (http.transport session.recorded) link parameters deleteWithBody
        x).2.server.1 = x.server.1 ++ sent ∧ sent.length ≤ 1 ∧
      ∀ request ∈ sent, ∃ form, request.form = some form ∧ parameters.Fill form ∧
        link.Takes form := by
  obtain hnone | ⟨url, call, request, hsends, hrequest, hsent⟩ :=
    recorded_of_request service http session link parameters deleteWithBody x
  · exact ⟨[], by simpa using hnone, by simp, by simp⟩
  · refine ⟨[request], hsent, by simp, fun other hother => ?_⟩
    obtain rfl := List.mem_singleton.mp hother
    obtain ⟨form, hform, hform'⟩ :=
      form_of_requestFor hrequest (parameters_of_callFor hbody hsends.formed)
    have hfill := HttpClient.fill_form hform hnames
    exact ⟨form, hform', hfill, Request.takes_of_check hsends.checked
      (fun name v hv => hformed (name, v) ((Mapping.find?_eq_some hnames).mp hv)) hfill⟩

/-! ## A request that is sent -/

/-- A link that adds something under a name and, on demand, with a scale. -/
def addLink : Link where
  relation := "ADD"
  href := "things"
  method := .post
  requiredParams := [⟨"name", "string", none, none, []⟩]
  optionalParams := [⟨"scale", "boolean", none, none, ["true", "false"]⟩]

/-- A name and a scale, and a comment that is null. -/
def addParameters : Parameters := [("name", .str "a"), ("scale", .bool true), ("comment", .null)]

/-- A session that answers every request with an empty text. -/
def emptySession : Session Unit := ⟨fun _ s => (.ok ⟨200, "", none⟩, s)⟩

/-- A client over that session, with nothing but a time to wait. -/
def plainHttp : HttpClient := .make none none HttpClient.defaultTimeout none true none 990

theorem sends_addLink : (Service.mk "https://b" "c" 990).Sends addLink addParameters false
    "https://b/broker/rest/things"
    ⟨.post, "https://b/broker/rest/things", some addParameters⟩ := by
  exact ⟨by rfl, by rfl, rfl⟩

theorem form_addLink : ∃ request form,
    ((Service.mk "https://b" "c" 990).request (plainHttp.transport emptySession.recorded) addLink
      addParameters false ⟨([], ()), [], []⟩).2.server.1 = [request] ∧
    request.form = some form ∧ addParameters.Fill form ∧ addLink.Takes form := by
  obtain ⟨sent, hsent, -, hall⟩ := sends_what_is_checked ⟨"https://b", "c", 990⟩ plainHttp
    emptySession addLink addParameters false rfl (by decide) (by decide) ⟨([], ()), [], []⟩
  rw [request_of_sends sends_addLink] at hsent ⊢
  obtain ⟨request, rfl⟩ : ∃ request, [request] = sent := ⟨_, hsent⟩
  obtain ⟨form, hform, hfill, htakes⟩ := hall _ (List.mem_singleton_self _)
  exact ⟨request, form, hsent, hform, hfill, htakes⟩

end Service

end BrokerClient

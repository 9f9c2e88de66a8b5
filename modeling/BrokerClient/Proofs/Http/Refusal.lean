import BrokerClient.Http.Client
import BrokerClient.Proofs.Exchange

/-!
# What becomes of a refusal

A response with a status of 400 or more becomes an error of the client in two steps: the HTTP client
makes a refusal of it, and the service makes an error of the refusal. The first step looks into the
body for what the server says. A body that does not let itself be looked into stops that step, and
the status is lost; for every other body, whatever is in it, the status alone decides the error.
-/
namespace BrokerClient

variable {σ : Type}

/-- The error that a refused response to a request to a URL stands for, by its status. -/
def ClientError.ofRefusal (url : String) (status : Int) (fault : HttpFault) : ClientError :=
  let cause := Raised.fault (.http fault)
  if status = 401 then .invalidCredentials url (some cause)
  else if status = 404 then .resourceNotFound url cause
  else if status = 409 then .rejected url cause
  else .endpoint url (.failed cause)

/-- A value that is neither a text nor made of other values. -/
def Value.isScalar : Value → Bool
  | .null | .bool _ | .int _ | .float _ => true
  | _ => false

theorem Value.field?_eq_some {v member : Value} {name : String} :
    v.field? name = some member ↔
      ∃ fields, v = .obj fields ∧ Mapping.find? fields name = some member := by
  cases v <;> simp [field?]

namespace HttpClient

/-- A body stops the search for what the server says: it is an object whose messages are a number
or a truth value other than zero and false, or it is nested too deeply. -/
inductive Obstructs (depth : Nat) (body : String) : Fault → Prop
  | scalar {fields : Mapping Value} {v : Value} (hread : Json.read depth body = .ok (.obj fields))
      (hfind : fields.find? "messages" = some v) (hgiven : v.isGiven = true)
      (hscalar : v.isScalar = true) : Obstructs depth body (.notIterable v.kindName)
  | deep {shape : Json.Shape} (hread : Json.read depth body = .error (.tooDeep shape)) :
      Obstructs depth body (.tooDeep shape)

/-- The refusal of a response. -/
def refusal (response : HttpResponse) (message : String) : HttpFault :=
  ⟨refusalKind response.status, message, some response.status, some response.body, none⟩

variable {depth : Nat} {response : HttpResponse}

theorem isA_http_refusal (response : HttpResponse) (message : String) :
    Raised.isA (.fault (.http (refusal response message))) .http = true := by
  have hkind (kind : HttpFault.Kind) : FaultClass.http.within kind.classes = true := by
    cases kind <;> rfl
  exact hkind _

theorem messageTexts_eq_error {v : Value} {fault : Fault} :
    messageTexts v = .error fault ↔ v.isScalar = true ∧ fault = .notIterable v.kindName := by
  cases v <;> simp [messageTexts, Value.isScalar, eq_comm]

theorem serverMessage_eq_error {fault : Fault} :
    serverMessage depth response = .error fault ↔ Obstructs depth response.body fault := by
  constructor
  · intro h
    simp only [serverMessage] at h
    split at h
    · rename_i shape hread
      cases h
      exact .deep hread
    · cases h
    · rename_i v hread
      split at h
      · cases h
      · rename_i messages hfield
        obtain ⟨fields, rfl, hfind⟩ := Value.field?_eq_some.mp hfield
        split at h
        · rename_i hgiven
          cases htexts : messageTexts messages with
          | ok texts => simp [htexts] at h
          | error e =>
            obtain ⟨hscalar, rfl⟩ := messageTexts_eq_error.mp htexts
            simp only [htexts, Except.map_error, Except.error.injEq] at h
            exact h ▸ .scalar hread hfind hgiven hscalar
        · cases h
  · rintro (⟨hread, hfind, hgiven, hscalar⟩ | hread)
    · have htexts := messageTexts_eq_error.mpr ⟨hscalar, rfl⟩
      simp [serverMessage, hread, Value.field?, hfind, hgiven, htexts]
    · simp [serverMessage, hread]

/-- A refused response is a refusal of the HTTP client, unless its body stops that. -/
theorem accept_of_refused (http : HttpClient) (call : Call) (hstatus : 400 ≤ response.status) :
    (∃ message, http.accept call response = .error (.http (refusal response message)) ∧
        ∀ fault, ¬Obstructs http.depth response.body fault) ∨
      ∃ fault, http.accept call response = .error fault ∧
        Obstructs http.depth response.body fault := by
  have hrefused : ¬response.status < 400 := by omega
  simp only [accept, if_neg hrefused]
  cases hsaid : serverMessage http.depth response with
  | error fault => exact .inr ⟨fault, rfl, serverMessage_eq_error.mp hsaid⟩
  | ok said =>
    refine .inl ⟨_, rfl, fun fault hobstructs => ?_⟩
    simp [serverMessage_eq_error.mpr hobstructs] at hsaid

theorem Obstructs.unique {body : String} {fault fault' : Fault} (h : Obstructs depth body fault)
    (h' : Obstructs depth body fault') : fault = fault' := by
  have hsaid : serverMessage depth ⟨400, body, none⟩ = .error fault :=
    serverMessage_eq_error.mpr h
  have hsaid' : serverMessage depth ⟨400, body, none⟩ = .error fault' :=
    serverMessage_eq_error.mpr h'
  exact Except.error.inj (hsaid.symm.trans hsaid')

/-- What stops the search is a fault that the service has no name for. -/
theorem Obstructs.ofRaised {body : String} {fault : Fault} (h : Obstructs depth body fault)
    (url : String) :
    ClientError.ofRaised url (.fault fault) = .endpoint url (.failed (.fault fault)) := by
  cases h <;> rfl

/-- The error that is left of the response does not carry its refusal. -/
theorem Obstructs.ne_ofRefusal {body : String} {fault : Fault} (h : Obstructs depth body fault)
    (url : String) (status : Int) (fault' : HttpFault) :
    ClientError.endpoint url (.failed (.fault fault)) ≠ .ofRefusal url status fault' := by
  unfold ClientError.ofRefusal
  split_ifs
  case neg => cases h <;> simp
  all_goals exact nofun

theorem ofRaised_refusal (url message : String) (response : HttpResponse) :
    ClientError.ofRaised url (.fault (.http (refusal response message))) =
      .ofRefusal url response.status (refusal response message) := by
  unfold ClientError.ofRefusal refusal refusalKind
  split_ifs <;> rfl

end HttpClient

namespace Service

variable {service : Service} {link : Link} {parameters : Parameters} {deleteWithBody : Bool}
  {url : String} {call : Call} {http : HttpClient} {session : Session σ} {request : HttpRequest}

theorem request_of_answered (hsends : service.Sends link parameters deleteWithBody url call)
    (hrequest : http.requestFor call = .ok request)
    {x : Exchange σ} {response : HttpResponse} {rest : σ} {fault : Fault}
    (hanswer : session.exchange request x.server = (.ok response, rest))
    (hfault : http.accept call response = .error fault) :
    (service.request (http.transport session) link parameters deleteWithBody x).1 =
      .error (.client (.ofRaised url (.fault fault))) := by
  rw [request_of_sends hsends]
  simp [Exchange.send, Exchange.note, HttpClient.transport, HttpClient.perform, hrequest, hanswer,
    HttpClient.read, hfault, interpret, interpretWith, Except.map, Except.mapError]

/-- A body that stops the search for what the server says is all that is left of a refusal. -/
theorem request_of_obstructs (hsends : service.Sends link parameters deleteWithBody url call)
    (hrequest : http.requestFor call = .ok request)
    {x : Exchange σ} {response : HttpResponse} {rest : σ} {fault : Fault}
    (hanswer : session.exchange request x.server = (.ok response, rest))
    (hstatus : 400 ≤ response.status)
    (hobstructs : HttpClient.Obstructs http.depth response.body fault) :
    (service.request (http.transport session) link parameters deleteWithBody x).1 =
      .error (.client (.endpoint url (.failed (.fault fault)))) := by
  obtain ⟨message, -, hfree⟩ | ⟨fault', haccept, hobstructs'⟩ :=
    http.accept_of_refused call hstatus
  · exact absurd hobstructs (hfree fault)
  · rw [request_of_answered hsends hrequest hanswer haccept, hobstructs'.ofRaised,
      hobstructs'.unique hobstructs]

/-- The status alone decides the error that a refused response becomes, exactly if the body of the
response does not stop the search for what the server says. If it does, the error names neither the
status nor the refusal, but what went wrong with the search. -/
theorem status_decides_iff (hsends : service.Sends link parameters deleteWithBody url call)
    (hrequest : http.requestFor call = .ok request)
    {x : Exchange σ} {response : HttpResponse} {rest : σ}
    (hanswer : session.exchange request x.server = (.ok response, rest))
    (hstatus : 400 ≤ response.status) :
    let outcome :=
      (service.request (http.transport session) link parameters deleteWithBody x).1
    ((∃ message, outcome = .error (.client (.ofRefusal url response.status
        (HttpClient.refusal response message)))) ↔
      ∀ fault, ¬HttpClient.Obstructs http.depth response.body fault) ∧
    ∀ fault, HttpClient.Obstructs http.depth response.body fault →
      outcome = .error (.client (.endpoint url (.failed (.fault fault)))) := by
  dsimp only
  refine ⟨⟨?_, fun hfree => ?_⟩, fun fault => request_of_obstructs hsends hrequest hanswer hstatus⟩
  · rintro ⟨message, houtcome⟩ fault hobstructs
    rw [request_of_obstructs hsends hrequest hanswer hstatus hobstructs] at houtcome
    exact hobstructs.ne_ofRefusal _ _ _ (Raised.client.inj (Except.error.inj houtcome))
  · obtain ⟨message, haccept, -⟩ | ⟨fault, -, hobstructs⟩ :=
      http.accept_of_refused call hstatus
    · refine ⟨message, ?_⟩
      rw [request_of_answered hsends hrequest hanswer haccept, HttpClient.ofRaised_refusal]
    · exact absurd hobstructs (hfree fault)

/-! ## A response whose status is lost -/

/-- The link to the root of a service. -/
def apiLink : Link := ⟨"Get API", rootPath, .get, [], []⟩

theorem sends_apiLink : (Service.mk "https://b" "c" 990).Sends apiLink [] false
    "https://b/broker/rest/api" ⟨.get, "https://b/broker/rest/api", none⟩ := by
  exact ⟨by rfl, by rfl, rfl⟩

/-- The refusal of somebody unknown, with a number in the place of messages. -/
def numberedResponse : HttpResponse := ⟨401, "\x7b\"messages\":5\x7d", none⟩

theorem obstructs_numbered :
    HttpClient.Obstructs 990 numberedResponse.body (.notIterable "int") :=
  HttpClient.serverMessage_eq_error.mp (by decide +kernel)

/-- A session that answers every request with the same response. -/
def constantSession (response : HttpResponse) : Session Unit := ⟨fun _ s => (.ok response, s)⟩

/-- What a request for the root comes to if every answer is the same. -/
def outcomeOf (response : HttpResponse) : Except Raised (Option Response) :=
  let http := HttpClient.make none none HttpClient.defaultTimeout none true none 990
  ((Service.mk "https://b" "c" 990).request (http.transport (constantSession response)) apiLink []
    false ⟨(), [], []⟩).1

/-- The status is 401, but the credentials are not what the error is about. -/
theorem status_lost_numbered : outcomeOf numberedResponse =
    .error (.client (.endpoint "https://b/broker/rest/api"
      (.failed (.fault (.notIterable "int"))))) :=
  request_of_obstructs sends_apiLink rfl rfl (by decide) obstructs_numbered

/-- The same refusal without a body. -/
def emptyResponse : HttpResponse := ⟨401, "", none⟩

theorem not_obstructs_empty (fault : Fault) :
    ¬HttpClient.Obstructs 990 emptyResponse.body fault := by
  intro hobstructs
  have hsaid : HttpClient.serverMessage 990 emptyResponse = .ok "" := by decide +kernel
  rw [HttpClient.serverMessage_eq_error.mpr hobstructs] at hsaid
  cases hsaid

/-- Without the number the error is about the credentials, with it it is not. -/
theorem status_decides_apiLink :
    400 ≤ emptyResponse.status ∧ 400 ≤ numberedResponse.status ∧
      (∃ message, outcomeOf emptyResponse =
        .error (.client (.invalidCredentials "https://b/broker/rest/api"
          (some (.fault (.http (HttpClient.refusal emptyResponse message))))))) ∧
      outcomeOf numberedResponse =
        .error (.client (.endpoint "https://b/broker/rest/api"
          (.failed (.fault (.notIterable "int"))))) := by
  have hempty : 400 ≤ emptyResponse.status := by decide
  have hnumbered : 400 ≤ numberedResponse.status := by decide
  refine ⟨hempty, hnumbered, ?_, ?_⟩
  · exact (status_decides_iff sends_apiLink rfl rfl hempty).1.mpr not_obstructs_empty
  · exact (status_decides_iff sends_apiLink rfl rfl hnumbered).2 _ obstructs_numbered

end Service

end BrokerClient

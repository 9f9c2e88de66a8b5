import BrokerClient.Decimal.Shortest
import BrokerClient.Service.Transport

/-!
# The HTTP client

The client turns calls into HTTP requests over a session: parameters become form data,
nulls left out, and each value is sent as its text, if it can be written. A response with a
status of 400 or more is refused; the status alone decides the kind of the refusal. What the
server says about it is taken from the messages in the body, else from the reason.
-/
namespace BrokerClient

/-- An HTTP request as it is handed to a session. -/
structure HttpRequest where
  method : Method
  url : String
  headers : Mapping String
  timeout : Float
  proxy : Option String
  verify : Bool
  form : Option (Mapping String)

/-- An HTTP response. -/
structure HttpResponse where
  status : Int
  body : String
  reason : Option String

/-- What carries out HTTP requests, with its own state `σ`. -/
structure Session (σ : Type) where
  exchange : HttpRequest → σ → Except Raised HttpResponse × σ

/-- The settings of the HTTP client. What a refusal says is read down to a depth of nested
arrays and objects. -/
structure HttpClient where
  /-- User name and password, if there is a user name. -/
  credentials : Option (String × String)
  timeout : Float
  proxy : Option String
  verify : Bool
  userAgent : Option String
  depth : Nat

namespace HttpClient

/-- How long an answer is waited for unless said otherwise, in seconds. -/
def defaultTimeout : Float := 60.0

/-- The client with the given settings. Without a user name there are no credentials;
a missing password is empty. -/
def make (username password : Option String) (timeout : Float) (proxy : Option String)
    (verify : Bool) (userAgent : Option String) (depth : Nat) : HttpClient :=
  ⟨username.map (·, password.getD ""), timeout, proxy.filter (· != ""), verify, userAgent, depth⟩

/-- A parameter as it is sent, if its value can be written. -/
def formPair (pair : String × Value) : Except Raised (String × String) :=
  match pair.2.wire? with
  | some text => .ok (pair.1, text)
  | none => .error (.fault .unwritable)

/-- The form data of parameters: those that are not null, as the texts that are sent. -/
def form (parameters : Parameters) : Except Raised (Mapping String) :=
  (parameters.filter fun (_, v) => !v.isNull).mapM formPair

/-- The headers of every request. -/
def headers (client : HttpClient) : Mapping String :=
  let accept := ("Accept", "application/json")
  match client.userAgent.filter (· != "") with
  | some agent => [accept, ("User-Agent", agent)]
  | none => [accept]

/-- The HTTP request of a call, if its parameters can be written. -/
def requestFor (client : HttpClient) (call : Call) : Except Raised HttpRequest := do
  let form ← call.parameters.mapM form
  pure ⟨call.method, call.url, client.headers, client.timeout, client.proxy, client.verify, form⟩

/-- The texts of the messages that a server sent along with a refusal. -/
def messageTexts : Value → Except Fault (List String)
  | .arr items =>
    .ok (items.filterMap fun item =>
      match item with
      | .obj fields => some (((Mapping.find? fields "text").getD (.str "")).text)
      | _ => none)
  | .str _ | .torn _ | .bytes _ | .word _ | .thing .. | .obj _ => .ok []
  | v => .error (.notIterable v.kindName)

/-- What the server says about a refusal: its messages, or the reason if it has none. A body
that is not read has none, unless it is nested too deeply. -/
def serverMessage (depth : Nat) (response : HttpResponse) : Except Fault String :=
  let reason := response.reason.getD ""
  match Json.read depth response.body with
  | .error (.tooDeep shape) => .error (.tooDeep shape)
  | .error _ => .ok reason
  | .ok v =>
    match v.field? "messages" with
    | none => .ok reason
    | some messages =>
      if messages.isGiven then String.intercalate "; " <$> messageTexts messages
      else .ok reason

/-- The kind of refusal that a status is. -/
def refusalKind (status : Int) : HttpFault.Kind :=
  if status = 401 then .unauthorized
  else if status = 404 then .notFound
  else if status = 409 then .conflict
  else if 500 ≤ status then .server
  else .unspecific

/-- The text of a response, unless it is a refusal. -/
def accept (client : HttpClient) (call : Call) (response : HttpResponse) :
    Except Fault String :=
  if response.status < 400 then .ok response.body
  else
    match serverMessage client.depth response with
    | .error f => .error f
    | .ok said =>
      let message := call.method.word ++ " " ++ call.url ++ " returned " ++
        toString response.status ++ ": " ++ said
      .error (.http ⟨refusalKind response.status, message, some response.status,
        some response.body, none⟩)

/-- What a failed exchange becomes: failures of the exchange are refusals of the client, its
timeouts first; all else passes. -/
def wrap (client : HttpClient) (call : Call) (r : Raised) : Raised :=
  let start := call.method.word ++ " " ++ call.url
  if r.isA .exchangeTimedOut then
    let message := start ++ " timed out after " ++ Decimal.floatText client.timeout ++ "s"
    .fault (.http ⟨.timedOut, message, none, none, r.beneath?⟩)
  else if r.isA .exchange then
    let message := start ++ " failed: " ++ r.message Fault.text
    .fault (.http ⟨.unspecific, message, none, none, r.beneath?⟩)
  else r

/-- The answer to a call, from the outcome of its exchange. -/
def read (client : HttpClient) (call : Call) : Except Raised HttpResponse → Except Raised String
  | .error r => .error (client.wrap call r)
  | .ok response =>
    match client.accept call response with
    | .error f => .error (.fault f)
    | .ok text => .ok text

variable {σ : Type}

/-- Carries out a call over a session. Without a request there is no exchange. -/
def perform (client : HttpClient) (session : Session σ) (call : Call) (s : σ) :
    Except Raised String × σ :=
  match client.requestFor call with
  | .error r => (.error r, s)
  | .ok request =>
    let (outcome, s) := session.exchange request s
    (client.read call outcome, s)

/-- The transport over a session. -/
def transport (client : HttpClient) (session : Session σ) : Transport σ :=
  ⟨fun call s =>
    let (answer, s) := client.perform session call s
    (answer.map Body.text, s)⟩

end HttpClient

end BrokerClient

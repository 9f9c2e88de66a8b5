import BrokerClient.Request.Check
import BrokerClient.Service.Address
import BrokerClient.Service.Transport

/-!
# Requests

A request follows a link: its parameters are checked, its address is resolved, one call
is sent, and the body of the answer is decoded. Whatever is raised from the call on becomes an
error of the client: no fault is left over. A fault of the check is not among that, it passes.
-/
namespace BrokerClient

/-- The error of the client that whatever was raised below becomes for a request to a URL. The
classes are asked for one after the other, and the first to which it belongs decides. What belongs
to none of them passes if it is an error of the client. -/
def ClientError.ofRaised (url : String) (r : Raised) : ClientError :=
  if r.isA .unauthorized then .invalidCredentials url (some r)
  else if r.isA .notFound then .resourceNotFound url r
  else if r.isA .httpTimedOut then .requestTimedOut url r
  else if r.isA .conflict then .rejected url r
  else if r.isA .http then .endpoint url (.failed r)
  else if r.isA .timedOut then .requestTimedOut url r
  else if r.isA .system then .endpoint url (.failed r)
  else if r.isA .value then .endpoint url (.unreadable r)
  else
    match r with
    | .client e => e
    | .fault f => .endpoint url (.failed (.fault f))

/-- A service under a base URL, used on behalf of a client. Answers are read down to a depth of
nested arrays and objects. -/
structure Service where
  baseUrl : String
  clientId : String
  depth : Nat

/-- What reads the body of an answer. -/
abbrev Unmarshaller := Body → Except Raised (Option Response)

namespace Service

/-- The service under a base URL; slashes at the end of the URL do not count. -/
def ofUrl (url clientId : String) (depth : Nat) : Service := ⟨trimSlashes url, clientId, depth⟩

/-- The URL of the service path. -/
def url (service : Service) : String := service.baseUrl ++ servicePath

/-- The name under which requests are sent. -/
def userAgent (service : Service) : String := "paasclient/0.1.0 (" ++ service.clientId ++ ")"

/-- The full URL of an address. -/
def resolveUrl (service : Service) (address : String) : Except ClientError String :=
  resolve service.baseUrl address

/-- The full URL of a value in the place of an address. A value that does not count as given is
an empty address. -/
def resolveValue (service : Service) (address : Value) : Except Raised String :=
  match address with
  | .str _ | .torn _ | .word _ => (service.resolveUrl address.text).mapError .client
  | v =>
    if !v.isGiven then (service.resolveUrl "").mapError .client
    else match v with
      | .bytes _ => .error (.fault .bytesAsText)
      | v => .error (.fault (.notText v.kindName))

/-- The call that a method makes; only the four methods make one. A request to delete
has a body only on demand. -/
def callFor (method : Method) (url : String) (parameters : Parameters) (deleteWithBody : Bool) :
    Option Call :=
  match method with
  | .get => some ⟨.get, url, none⟩
  | .post => some ⟨.post, url, some parameters⟩
  | .put => some ⟨.put, url, some parameters⟩
  | .delete => some ⟨.delete, url, if deleteWithBody then some parameters else none⟩
  | .other _ => none

/-- Reads a body as a response. -/
def unmarshal (service : Service) : Unmarshaller := fun body =>
  (Response.ofBody service.depth body).mapError .fault

/-- What an unmarshaller makes of the answer to a call. -/
def interpretWith (unmarshal : Unmarshaller) (url : String) :
    Reply → Except ClientError (Option Response)
  | .error r => .error (.ofRaised url r)
  | .ok body => (unmarshal body).mapError (.ofRaised url)

/-- The response in the answer to a call. -/
def interpret (service : Service) (url : String) (reply : Reply) :
    Except ClientError (Option Response) :=
  interpretWith service.unmarshal url reply

/-- Checks the parameters of a request and resolves its address. -/
def prepare (service : Service) (link : Link) (parameters : Parameters) : Except Raised String :=
  match Request.check link parameters with
  | .error r => .error r
  | .ok () => (service.resolveUrl link.href).mapError .client

variable {σ : Type}

/-- Sends the call of a request that is prepared, and reads the answer. A method that makes no call
is refused in its place. -/
def dispatch (unmarshal : Unmarshaller) (transport : Transport σ) (link : Link) (url : String)
    (parameters : Parameters) (deleteWithBody : Bool) (x : Exchange σ) :
    Except ClientError (Option Response) × Exchange σ :=
  let x := x.note (.debug (link.method.word ++ " " ++ url))
  match callFor link.method url parameters deleteWithBody with
  | none =>
    let refusal := Raised.client (.invalidRequest (.unexpectedMethod link.method))
    (.error (.ofRaised url refusal), x)
  | some call =>
    let (reply, x) := x.send transport call
    (interpretWith unmarshal url reply, x)

/-- Follows a link, with an unmarshaller for the answer. -/
def requestWith (service : Service) (unmarshal : Unmarshaller) (transport : Transport σ)
    (link : Link) (parameters : Parameters) (deleteWithBody : Bool) (x : Exchange σ) :
    Except Raised (Option Response) × Exchange σ :=
  match service.prepare link parameters with
  | .error r => (.error r, x)
  | .ok url =>
    let (outcome, x) := dispatch unmarshal transport link url parameters deleteWithBody x
    (outcome.mapError .client, x)

/-- Follows a link. -/
def request (service : Service) (transport : Transport σ) (link : Link)
    (parameters : Parameters) (deleteWithBody : Bool) (x : Exchange σ) :
    Except Raised (Option Response) × Exchange σ :=
  service.requestWith service.unmarshal transport link parameters deleteWithBody x

end Service

end BrokerClient

import BrokerClient.Hierarchy.Follow
import BrokerClient.Http.Client

/-!
# Configuration

The settings of a client, and the client that they make. The password stays out of the
text of a configuration.
-/
namespace BrokerClient

/-- The settings of a client. -/
structure Configuration where
  server : String
  username : Option String
  password : Option String
  clientId : String
  /-- How long an answer is waited for, in seconds. -/
  timeout : Float
  proxy : Option String
  verifySsl : Bool

namespace Configuration

/-- The settings where nothing else is said. -/
def default : Configuration where
  server := "https://openshift.redhat.com"
  username := none
  password := none
  clientId := "paasclient"
  timeout := HttpClient.defaultTimeout
  proxy := none
  verifySsl := true

/-- The fields that can be set. -/
def fieldNames : List String :=
  ["server", "username", "password", "client_id", "timeout", "proxy", "verify_ssl"]

/-- The text of a setting that can be absent. -/
def optionText : Option String → String
  | some s => Text.quoted s
  | none => Value.null.text

/-- The text of a configuration. -/
def toText (c : Configuration) : String :=
  let fields := [("server", Text.quoted c.server), ("username", optionText c.username),
    ("client_id", Text.quoted c.clientId), ("timeout", Decimal.floatText c.timeout),
    ("proxy", optionText c.proxy), ("verify_ssl", (Value.bool c.verifySsl).text)]
  "ClientConfig(" ++ String.intercalate ", " (fields.map fun (name, text) => name ++ "=" ++ text)
    ++ ")"

/-- The service of a configuration, which reads answers down to a depth. -/
def service (c : Configuration) (depth : Nat) : Service := .ofUrl c.server c.clientId depth

/-- The HTTP client of a configuration, which sends requests under the name of the
service. -/
def httpClient (c : Configuration) (depth : Nat) : HttpClient :=
  .make c.username c.password c.timeout c.proxy c.verifySsl (some (c.service depth).userAgent) depth

/-- The client of a configuration over a session. -/
def client {σ : Type} (c : Configuration) (depth : Nat) (session : Session σ) :
    Hierarchy.Client σ :=
  ⟨c.service depth, (c.httpClient depth).transport session⟩

end Configuration

end BrokerClient

import BrokerClient.Text.Uppercase
import BrokerClient.Value

/-!
# Links

A link names an action that a resource offers: the method and the address of a request
and the parameters that it takes. A parameter that lists options accepts the sent texts
in that list only.
-/
namespace BrokerClient

/-- The method of a request. No link that was read from a response has another word. -/
inductive Method where
  | get
  | post
  | put
  | delete
  | other (word : String)
  deriving DecidableEq, Repr

namespace Method

/-- The word of a method in a request. -/
def word : Method → String
  | get => "GET"
  | post => "POST"
  | put => "PUT"
  | delete => "DELETE"
  | other word => word

/-- The method that a word is, letter for letter. -/
def ofWord (word : String) : Method :=
  if word = "GET" then get
  else if word = "POST" then post
  else if word = "PUT" then put
  else if word = "DELETE" then delete
  else other word

/-- One of the four methods that a request can have. -/
def isKnown : Method → Bool
  | other _ => false
  | _ => true

/-- The method that a word is in any case. -/
def recognize? (word : String) : Option Method :=
  let method := ofWord (Text.uppercase word)
  if method.isKnown then some method else none

theorem isKnown_of_recognize? {word : String} {method : Method}
    (h : recognize? word = some method) : method.isKnown = true := by
  simp only [recognize?] at h
  split at h
  · simp_all
  · simp at h

end Method

/-- A parameter that a link takes. -/
structure LinkParameter where
  name : String
  /-- The kind of value: `string`, `boolean`, `integer` or any other word. -/
  kind : String
  defaultValue : Option String
  description : Option String
  /-- The texts that may be sent; no text is ruled out if there are none. -/
  options : List String
  deriving DecidableEq, Repr

/-- An action that a resource offers. -/
structure Link where
  relation : String
  href : String
  method : Method
  requiredParams : List LinkParameter
  optionalParams : List LinkParameter
  deriving DecidableEq, Repr

/-- The declaration of a parameter, required ones first. -/
def Link.parameter? (link : Link) (name : String) : Option LinkParameter :=
  (link.requiredParams ++ link.optionalParams).find? (·.name == name)

/-! The relations that the resources follow. -/
namespace Relation

def listDomains := "LIST_DOMAINS"
def addDomain := "ADD_DOMAIN"
def getUser := "GET_USER"
def listCartridges := "LIST_CARTRIDGES"
def get := "GET"
def update := "UPDATE"
def delete := "DELETE"
def listApplications := "LIST_APPLICATIONS"
def addApplication := "ADD_APPLICATION"
def listKeys := "LIST_KEYS"
def addKey := "ADD_KEY"
def start := "START"
def stop := "STOP"
def forceStop := "FORCE_STOP"
def restart := "RESTART"
def scaleUp := "SCALE_UP"
def scaleDown := "SCALE_DOWN"
def addAlias := "ADD_ALIAS"
def removeAlias := "REMOVE_ALIAS"
def addCartridge := "ADD_CARTRIDGE"
def getGears := "GET_GEARS"

end Relation

end BrokerClient

import BrokerClient.Error.Fault
import BrokerClient.Link.Basic

/-!
# Errors of the client

The errors that the users of the resource hierarchy meet. Each names its cause: either
what was raised below that it stands for, or what the caller or the server did. What is raised
below is a fault, or an error of the client again. `message` words an error; since it quotes
what is beneath, it takes the wording of faults as an argument.
-/
namespace BrokerClient

/-- The arguments without which an operation is refused. -/
inductive Argument where
  | domainId
  | applicationType
  | applicationName
  | aliasName
  | cartridgeName
  | keyName
  | publicKey
  deriving DecidableEq, Repr

/-- The name of an argument at the start of a message. -/
def Argument.label : Argument → String
  | domainId => "Domain id"
  | applicationType => "Application type"
  | applicationName => "Application name"
  | aliasName => "Alias"
  | cartridgeName => "Cartridge name"
  | keyName => "Key name"
  | publicKey => "Public key"

/-- Why a request is refused before anything is sent. -/
inductive InvalidRequest where
  | emptyUrl
  | unexpectedMethod (method : Method)
  | linksUnavailable (kind : ResourceKind)
  | notGiven (argument : Argument)
  | reported (message : String)
  deriving DecidableEq, Repr

mutual

/-- Why an endpoint's answer is of no use. -/
inductive EndpointReason where
  /-- The request failed. -/
  | failed (cause : Raised)
  /-- The answer could not be read. -/
  | unreadable (cause : Raised)
  /-- The API root holds no links. -/
  | noRootLinks
  /-- The answer holds something else than one record. -/
  | expectedRecord (expected : RecordKind) (got : String)
  /-- The answer holds something else than a list of records. -/
  | expectedList (expected : RecordKind)

/-- The errors of the client. -/
inductive ClientError where
  /-- An error that is made outside. It can have classes of faults too. -/
  | foreign (fault : ForeignFault)
  | invalidCredentials (url : String) (cause : Option Raised)
  | resourceNotFound (url : String) (cause : Raised)
  | requestTimedOut (url : String) (cause : Raised)
  | invalidRequest (reason : InvalidRequest)
  /-- A relation that the owner does not offer, or another value in the place of one. -/
  | linkNotFound (relation : Value) (owner : String)
  | missingParameter (url name : String)
  | emptyParameter (url name : String)
  | invalidOption (url name value : String) (options : List String)
  /-- The name is taken according to the cached collection. -/
  | duplicate (kind : ResourceKind) (name : String)
  /-- The server refused the request as a conflict. -/
  | rejected (url : String) (cause : Raised)
  | conflicting (message : String)
  | endpoint (url : String) (reason : EndpointReason)

/-- What ends an operation early: an error of the client, or a fault that was not
turned into one. -/
inductive Raised where
  | client (e : ClientError)
  | fault (f : Fault)

end

namespace InvalidRequest

/-- The wording of a refusal. -/
def message : InvalidRequest → String
  | emptyUrl => "Invalid empty url"
  | unexpectedMethod method => "Unexpected HTTP method " ++ method.word
  | linksUnavailable kind => "Links of resource " ++ kind.name ++ " are not available"
  | notGiven argument => argument.label ++ " is mandatory but none was given."
  | reported message => message

end InvalidRequest

namespace Raised

/-- The status of the response that is reported. -/
def status : Raised → Option Int
  | fault f => f.status
  | client (.foreign f) => f.refusalStatus
  | client _ => none

/-- What is raised belongs to a class. Errors of the client belong to none, unless they are made
outside. -/
def isA : Raised → FaultClass → Bool
  | fault f, c => f.isA c
  | client (.foreign f), c => c.within f.classes
  | client _, _ => false

/-- What is raised, as what failed beneath a refusal. -/
def beneath? : Raised → Option HttpFault.Cause
  | fault (.system f) => some (.system f)
  | fault (.foreign f) | client (.foreign f) => some (.foreign f)
  | _ => none

end Raised

namespace EndpointReason

/-- What was raised beneath. -/
def cause : EndpointReason → Option Raised
  | failed cause => some cause
  | unreadable cause => some cause
  | _ => none

/-- The status of the response, if a response was refused for it. -/
def status : EndpointReason → Option Int
  | failed cause => cause.status
  | _ => none

end EndpointReason

mutual

/-- The wording of a reason, with `describe` for the faults beneath. -/
def EndpointReason.message (describe : Fault → String) : EndpointReason → String
  | .failed cause => cause.message describe
  | .unreadable cause => "invalid response: " ++ cause.message describe
  | .noRootLinks => "API root returned no links"
  | .expectedRecord expected got => "expected " ++ expected.name ++ " but got " ++ got
  | .expectedList expected => "expected a list of " ++ expected.name

/-- The wording of an error, with `describe` for the faults beneath. -/
def ClientError.message (describe : Fault → String) : ClientError → String
  | .foreign fault => fault.message
  | .invalidCredentials url _ => "Invalid credentials when requesting " ++ url
  | .resourceNotFound url _ => "Resource not found: " ++ url
  | .requestTimedOut url _ => "Request timed out: " ++ url
  | .invalidRequest reason => reason.message
  | .linkNotFound relation owner =>
    "Could not find link \"" ++ relation.text ++ "\" in resource \"" ++ owner ++
      "\""
  | .missingParameter url name =>
    "Requesting " ++ url ++ ": required request parameter \"" ++ name ++ "\" is missing"
  | .emptyParameter url name =>
    "Requesting " ++ url ++ ": required request parameter \"" ++ name ++ "\" is empty"
  | .invalidOption url name value options =>
    "Requesting " ++ url ++ ": value \"" ++ value ++ "\" for request parameter \"" ++ name ++
      "\" is not one of " ++ String.intercalate ", " options
  | .duplicate kind name => kind.label ++ " with name \"" ++ name ++ "\" already exists"
  | .rejected url cause =>
    "Request to " ++ url ++ " was rejected as a conflict: " ++ cause.message describe
  | .conflicting message => message
  | .endpoint url reason => "Request to " ++ url ++ " failed: " ++ reason.message describe

/-- The wording of what ended an operation. -/
def Raised.message (describe : Fault → String) : Raised → String
  | .client e => e.message describe
  | .fault f => describe f

end

/-- What an error stands for. -/
def ClientError.cause : ClientError → Option Raised
  | invalidCredentials _ cause => cause
  | resourceNotFound _ cause => some cause
  | requestTimedOut _ cause => some cause
  | rejected _ cause => some cause
  | endpoint _ reason => reason.cause
  | _ => none

end BrokerClient

import BrokerClient.Json.Reader
import BrokerClient.Record.Verdict
import BrokerClient.Resource.Kind
import BrokerClient.Text.Quoted

/-!
# Faults below the service

What can go wrong while a request is sent and its answer is read: a refusal by the HTTP
client, a failure of the system or of the exchange beneath it, an answer that cannot be
decoded, and slips that only a defective part would make. `Fault.text` words each of
them.

Whoever handles faults tells them apart by their classes. A fault has any number of classes: an
unusable URL is a failure of the exchange and a bad value, and a part that is put in from
outside can make faults of any classes together. So it depends on the order in which classes
are asked for what becomes of a fault.
-/
namespace BrokerClient

/-- The classes of faults that are told apart. -/
inductive FaultClass where
  /-- The HTTP client refused. -/
  | http
  | unauthorized
  | notFound
  | conflict
  | httpTimedOut
  /-- The system failed. -/
  | system
  | timedOut
  | exchange
  | exchangeTimedOut
  /-- A value was not what it should be. -/
  | value
  deriving DecidableEq, Repr

/-- A class and those that it is part of. -/
def FaultClass.lineage : FaultClass → List FaultClass
  | unauthorized => [unauthorized, http]
  | notFound => [notFound, http]
  | conflict => [conflict, http]
  | httpTimedOut => [httpTimedOut, http]
  | timedOut => [timedOut, system]
  | exchange => [exchange, system]
  | exchangeTimedOut => [exchangeTimedOut, exchange, system]
  | c => [c]

/-- What has these classes belongs to a class. -/
def FaultClass.within (c : FaultClass) (classes : List FaultClass) : Bool :=
  classes.any (·.lineage.contains c)

/-- The failures of the system and of an exchange. -/
inductive SystemFault.Kind where
  | operating
  | timedOut
  | connectionReset
  | connectionRefused
  | exchange
  | exchangeTimedOut
  | readTimedOut
  | connectTimedOut
  | connection
  | tooManyRedirects
  | invalidUrl
  deriving DecidableEq, Repr

/-- The classes of a failure of the system or of an exchange. -/
def SystemFault.Kind.classes : SystemFault.Kind → List FaultClass
  | operating | connectionReset | connectionRefused => [.system]
  | timedOut => [.timedOut]
  | exchange | connection | tooManyRedirects => [.exchange]
  | exchangeTimedOut | readTimedOut | connectTimedOut => [.exchangeTimedOut]
  | invalidUrl => [.exchange, .value]

/-- A failure of the system or of an exchange. -/
structure SystemFault where
  kind : SystemFault.Kind
  message : String
  deriving DecidableEq, Repr

/-- A fault that is made outside: what it says, its classes, and its status if it is a refusal
that has one. -/
structure ForeignFault where
  message : String
  classes : List FaultClass
  status : Option Int
  deriving DecidableEq, Repr

/-- The refusals of the HTTP client. -/
inductive HttpFault.Kind where
  | unspecific
  | unauthorized
  | notFound
  | conflict
  | server
  | timedOut
  deriving DecidableEq, Repr

/-- The classes of a refusal. -/
def HttpFault.Kind.classes : HttpFault.Kind → List FaultClass
  | unspecific | server => [.http]
  | unauthorized => [.unauthorized]
  | notFound => [.notFound]
  | conflict => [.conflict]
  | timedOut => [.httpTimedOut]

/-- What failed beneath a refusal. -/
inductive HttpFault.Cause where
  | system (fault : SystemFault)
  | foreign (fault : ForeignFault)
  deriving DecidableEq, Repr

/-- A refusal of the HTTP client: the status and the body of the response if there was
one, otherwise what failed beneath it. -/
structure HttpFault where
  kind : HttpFault.Kind
  message : String
  status : Option Int
  body : Option String
  cause : Option HttpFault.Cause
  deriving DecidableEq, Repr

/-- Why the body of an answer could not be decoded. -/
inductive DecodeFault where
  | notUtf8
  | notJson
  | oversizedInteger (digits : Nat)
  | payload (kindName : String)
  | messages (kindName : String)
  | listExpected (responseType : String)
  | linksExpected
  | record (kind : RecordKind) (issues : List Record.Issue)
  deriving DecidableEq, Repr

/-- Everything that can go wrong below the service. -/
inductive Fault where
  | http (fault : HttpFault)
  | system (fault : SystemFault)
  | foreign (fault : ForeignFault)
  | decode (fault : DecodeFault)
  | badValue (message : String)
  /-- Nothing is known under a key of that text. -/
  | unknownKey (key : String)
  | broken (message : String)
  | notIterable (kindName : String)
  | noAttribute (kindName member : String)
  /-- A value of that kind is no key. -/
  | notKey (kindName : String)
  /-- Nothing can be in a value of that kind. -/
  | notContainer (kindName : String)
  /-- A value of that kind stands for a text. -/
  | notText (kindName : String)
  /-- Bytes stand for a text. -/
  | bytesAsText
  /-- A text was looked for in bytes. -/
  | textInBytes
  /-- A text was looked for at the start of bytes. -/
  | textBeforeBytes
  /-- An answer is nested too deeply, down to an array or an object. -/
  | tooDeep (shape : Json.Shape)
  deriving DecidableEq, Repr

/-- The wording of a decoding fault. -/
def DecodeFault.text : DecodeFault → String
  | notUtf8 => "the body is not UTF-8"
  | notJson => "the body is not JSON"
  | oversizedInteger digits => Decimal.oversizedText digits
  | payload kindName => "Unexpected response payload: " ++ kindName
  | messages kindName => "Expected a list of messages, got " ++ kindName
  | listExpected responseType => "Expected a list for response type \"" ++ responseType ++ "\""
  | linksExpected => "Expected a mapping of links"
  | record kind issues => toString issues.length ++ " issues in " ++ kind.name

/-- The wording of a fault. -/
def Fault.text : Fault → String
  | http fault => fault.message
  | system fault => fault.message
  | foreign fault => fault.message
  | decode fault => fault.text
  | badValue message => message
  | unknownKey key => key
  | broken message => message
  | notIterable kindName => "'" ++ kindName ++ "' object is not iterable"
  | noAttribute kindName member =>
    "'" ++ kindName ++ "' object has no attribute '" ++ member ++ "'"
  | notKey kindName => "unhashable type: '" ++ kindName ++ "'"
  | notContainer kindName => "argument of type '" ++ kindName ++ "' is not iterable"
  | notText kindName => "expected string or bytes-like object, got '" ++ kindName ++ "'"
  | bytesAsText => "cannot use a string pattern on a bytes-like object"
  | textInBytes => "a bytes-like object is required, not 'str'"
  | textBeforeBytes => "startswith first arg must be bytes or a tuple of bytes, not str"
  | tooDeep shape => shape.tooDeepText

/-- An integer is too long to be written. -/
def Fault.unwritable : Fault := badValue Decimal.unwritableText

/-- The classes of a fault. -/
def Fault.classes : Fault → List FaultClass
  | http fault => fault.kind.classes
  | system fault => fault.kind.classes
  | foreign fault => fault.classes
  | decode _ | badValue _ => [.value]
  | _ => []

/-- A fault belongs to a class. -/
def Fault.isA (f : Fault) (c : FaultClass) : Bool := c.within f.classes

/-- A refusal that is made outside has the status that it is given. -/
def ForeignFault.refusalStatus (fault : ForeignFault) : Option Int :=
  if FaultClass.http.within fault.classes then fault.status else none

/-- The status of the response that a fault reports. -/
def Fault.status : Fault → Option Int
  | http fault => fault.status
  | foreign fault => fault.refusalStatus
  | _ => none

end BrokerClient

import BrokerClient.Error.Fault
import BrokerClient.Record.Field
import BrokerClient.Service.Body
import BrokerClient.Text.Blank
import BrokerClient.Value.Equality

/-!
# Health checks

The kind of an application follows from the name of its cartridge, and each kind has a
health check: a path below the application's URL and the text that a healthy application
answers with, either as a whole or as a part. A body that is no text is not that of a healthy
application; where such a body cannot even be looked at, the check fails.
-/
namespace BrokerClient

open Record Verdict

/-- The kinds of applications that differ in their health checks. -/
inductive ApplicationKind where
  | generic
  | jbossas
  | jenkins
  deriving DecidableEq, Repr

namespace ApplicationKind

/-- The word for a kind. -/
def word : ApplicationKind → String
  | generic => "generic"
  | jbossas => "jbossas"
  | jenkins => "jenkins"

/-- All kinds. -/
def all : List ApplicationKind := [generic, jbossas, jenkins]

/-- The kind that a word is for. -/
def ofWord? (word : String) : Option ApplicationKind := all.find? (·.word == word)

/-- The kind of an application with a cartridge of that name. -/
def ofCartridge (name : String) : ApplicationKind :=
  if "jbossas-".toList.isPrefixOf name.toList then jbossas
  else if "jenkins-".toList.isPrefixOf name.toList then jenkins
  else generic

end ApplicationKind

/-- The kind of an application for a value in the place of its cartridge's name. A value that
does not count as given is no name. -/
def ApplicationKind.ofValue : Value → Except Fault ApplicationKind
  | .torn points => .ok (ofCartridge (Text.ofPoints points))
  | v =>
    match v.isGiven, v, v.asText? with
    | false, _, _ => .ok generic
    | _, _, some name => .ok (ofCartridge name)
    | _, .bytes _, none => .error .textBeforeBytes
    | _, v, none => .error (.noAttribute v.kindName "startswith")

/-- How the body of a healthy application is recognized. -/
inductive HealthMatch where
  | exact
  | contains
  deriving DecidableEq, Repr

/-- The word for a rule. -/
def HealthMatch.word : HealthMatch → String
  | exact => "exact"
  | contains => "contains"

/-- A health check. -/
structure HealthCheck where
  path : String
  expected : String
  rule : HealthMatch
  deriving DecidableEq, Repr

namespace HealthCheck

/-- The health check of a kind of applications. -/
def ofKind : ApplicationKind → HealthCheck
  | .generic => ⟨"health", "1", .exact⟩
  | .jbossas => ⟨"health", "1", .exact⟩
  | .jenkins => ⟨"login?from=%2F", "<html>", .contains⟩

/-- The health check that a word for a kind of applications stands for. -/
def ofWord (word : Value) : Except Fault HealthCheck :=
  if !word.isKey then .error (.notKey word.kindName)
  else
    match word.asText?.bind ApplicationKind.ofWord? with
    | some kind => .ok (ofKind kind)
    | none => .error (.unknownKey word.inner)

/-- The URL to probe for an application: its URL and the path, with one slash between. -/
def urlFor (check : HealthCheck) (applicationUrl : String) : String :=
  String.ofList (Text.dropEnd (· == '/') applicationUrl.toList ++
    '/' :: check.path.toList.dropWhile (· == '/'))

/-- The URL to probe for a value in the place of an application's URL. -/
def urlOf (check : HealthCheck) : Value → Except Fault String
  | .bytes _ => .error .textInBytes
  | .str s => .ok (check.urlFor s)
  | .torn points => .ok (check.urlFor (Text.ofPoints points))
  | .word w => .ok (check.urlFor w.text)
  | v => .error (.noAttribute v.kindName "rstrip")

/-- A text is part of another. -/
def occursIn (part : List Char) : List Char → Bool
  | [] => part.isEmpty
  | c :: rest => part.isPrefixOf (c :: rest) || occursIn part rest

/-- The text is that of a healthy application. -/
def isHealthyText (check : HealthCheck) (text : String) : Bool :=
  match check.rule with
  | .exact => Text.strip text == check.expected
  | .contains => occursIn check.expected.toList text.toList

/-- The body is that of a healthy application. -/
def isHealthy (check : HealthCheck) : Body → Except Fault Bool
  | .text s => .ok (check.isHealthyText s)
  | .absent =>
    match check.rule with
    | .exact => .error (.noAttribute Body.absent.kindName "strip")
    | .contains => .error (.notContainer Body.absent.kindName)
  | .bytes _ =>
    match check.rule with
    | .exact => .ok false
    | .contains => .error .textInBytes

/-- A rule, by its word. -/
def decodeRule : Value → Verdict HealthMatch
  | .torn _ => problem .tornText
  | v =>
    if v.asText? = some HealthMatch.exact.word then accepted .exact
    else if v.asText? = some HealthMatch.contains.word then accepted .contains
    else problem .notOfWords

/-- A health check. -/
def decode : Value → Verdict HealthCheck :=
  object fun fields =>
    mk <$> required "path" string fields
      <*> required "expected" string fields
      <*> defaulted "match" .exact decodeRule fields

end HealthCheck

end BrokerClient

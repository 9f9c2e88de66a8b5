import BrokerClient.Hierarchy.Member

/-!
# Events of applications

An event is posted to an application. If the server answers with the application, that
representation is taken over; otherwise the client keeps the aliases up to date itself.
Also here: the other changes of single resources, the new id of a domain and the new
contents of an SSH key.
-/
namespace BrokerClient.Hierarchy

/-- What can be done to an application. -/
inductive Event where
  | start
  | stop
  | forceStop
  | restart
  | scaleUp
  | scaleDown
  | addAlias (name : Value)
  | removeAlias (name : Value)

namespace Event

/-- The relation under which an event is posted. -/
def relation : Event → String
  | start => Relation.start
  | stop => Relation.stop
  | forceStop => Relation.forceStop
  | restart => Relation.restart
  | scaleUp => Relation.scaleUp
  | scaleDown => Relation.scaleDown
  | addAlias _ => Relation.addAlias
  | removeAlias _ => Relation.removeAlias

/-- The word that names an event to the server. -/
def word : Event → String
  | start => "start"
  | stop => "stop"
  | forceStop => "force-stop"
  | restart => "restart"
  | scaleUp => "scale-up"
  | scaleDown => "scale-down"
  | addAlias _ => "add-alias"
  | removeAlias _ => "remove-alias"

/-- The alias is mandatory where there is one. -/
def lacks? : Event → Option Argument
  | addAlias name | removeAlias name => if isLacking name then some .aliasName else none
  | _ => none

/-- The parameters of the request. -/
def parameters (event : Event) : Parameters :=
  match event with
  | addAlias name | removeAlias name => [("event", .str event.word), ("alias", name)]
  | _ => [("event", .str event.word)]

/-- A list without the first member that is equal to a value. -/
def dropFirst (name : Value) : List Value → List Value
  | [] => []
  | v :: rest => if v.same name then rest else v :: dropFirst name rest

/-- The aliases after an event that was answered without a representation. -/
def editAliases (aliases : List Value) : Event → List Value
  | addAlias name => if aliases.any (·.same name) then aliases else aliases ++ [name]
  | removeAlias name => dropFirst name aliases
  | _ => aliases

end Event

namespace Client

variable {σ : Type} (client : Client σ)

/-- Has an application take over the answer to an event. -/
def settle (application : Ref) (event : Event) (payload : Payload) (w : World σ) : World σ :=
  match payload.singleOf? .application with
  | some representation => w.accept application representation
  | none =>
    w.alter application fun x =>
      { x with attributes := x.attributes.editAliases fun aliases => event.editAliases aliases }

/-- Posts an event to an application. -/
def post (application : Ref) (event : Event) : Action σ Unit := do
  demand event.lacks?
  let payload ← client.follow application event.relation event.parameters false
  let name := ((← get).resource application).name
  modify (·.note (.debug ("Application " ++ name ++ ": " ++ event.word)))
  modify (settle application event payload)

/-- Gives a domain another id. -/
def rename (domain : Ref) (id : Value) : Action σ Unit := do
  demand (if isLacking id then some .domainId else none)
  let representation ← client.fetchOne domain Relation.update .domain [("id", id)]
  modify (·.accept domain representation)
  let name := ((← get).resource domain).name
  modify (·.note (.info ("Renamed domain to " ++ name)))

/-- Gives an SSH key another type and content. -/
def updateKey (key : Ref) (type publicKey : Value) : Action σ Unit := do
  demand (if isLacking publicKey then some .publicKey else none)
  let representation ← client.fetchOne key Relation.update .key
    [("type", type), ("content", publicKey)]
  modify (·.accept key representation)

/-- The type of an SSH key as the value of a parameter. -/
def typeValue : Attributes → Value
  | .key _ type _ => .str type.word
  | _ => .null

/-- Gives an SSH key another content. -/
def setPublicKey (key : Ref) (publicKey : Value) : Action σ Unit := do
  client.updateKey key (typeValue ((← get).resource key).attributes) publicKey

end Client

end BrokerClient.Hierarchy

import BrokerClient.Http.Client
import BrokerClient.Service.Script

/-!
# Scripted sessions

A scripted session answers HTTP requests from a list, whatever they are, and keeps a
record of them.
-/
namespace BrokerClient

/-- The outcomes to come and the requests so far. -/
structure Recording where
  outcomes : List (Except Raised HttpResponse)
  requests : List HttpRequest

/-- The session over a script. One without any outcome breaks. -/
def Session.scripted : Session Recording where
  exchange request s :=
    let s := { s with requests := s.requests ++ [request] }
    match nextOf? s.outcomes with
    | some (outcome, rest) => (outcome, { s with outcomes := rest })
    | none => (.error (.fault (.broken "the script is empty")), s)

end BrokerClient

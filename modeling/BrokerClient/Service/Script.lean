import BrokerClient.Service.Transport

/-!
# Scripted servers

A script is a list of answers. Each answer is given once and in order; the last one is
given again and again. A scripted server has a script for each call it knows, by method
and URL, and does not find anything else.
-/
namespace BrokerClient

/-- The next answer of a script, and the script after it. -/
def nextOf? {α : Type} : List α → Option (α × List α)
  | [] => none
  | [answer] => some (answer, [answer])
  | answer :: rest => some (answer, rest)

/-- The replies to a call by method and URL. -/
structure Route where
  method : Method
  url : String
  replies : List Reply

namespace Route

/-- Two routes answer the same calls. -/
def sameAs (a b : Route) : Bool := a.method == b.method && a.url == b.url

/-- Adds a route, in the place of one for the same calls if there is one. -/
def replace (routes : List Route) (route : Route) : List Route :=
  match routes with
  | [] => [route]
  | first :: rest => if first.sameAs route then route :: rest else first :: replace rest route

/-- The reply to a call that is not known. -/
def unscripted (call : Call) : Reply :=
  let message := call.method.word ++ " " ++ call.url ++ " is not scripted"
  .error (.fault (.http ⟨.notFound, message, some 404, none, none⟩))

end Route

/-- The transport to a scripted server. -/
def Transport.scripted : Transport (List Route) where
  send call routes :=
    match routes.find? (·.sameAs ⟨call.method, call.url, []⟩) with
    | none => (Route.unscripted call, routes)
    | some route =>
      match nextOf? route.replies with
      | none => (Route.unscripted call, routes)
      | some (reply, rest) => (reply, Route.replace routes { route with replies := rest })

end BrokerClient

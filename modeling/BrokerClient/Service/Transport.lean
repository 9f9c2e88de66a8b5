import BrokerClient.Error.Log
import BrokerClient.Representation.Response
import BrokerClient.Error.ClientError

/-!
# Transports

A transport answers a call with a body or refuses it. It has a state of its own, so that
an answer may depend on everything that was sent before. An exchange is that state
together with the record of what was sent and of what was logged.
-/
namespace BrokerClient

/-- A call of the transport. A call without a body has no parameters. -/
structure Call where
  method : Method
  url : String
  parameters : Option Parameters

/-- The answer to a call. -/
abbrev Reply := Except Raised Body

/-- What answers calls, with its own state `σ`. -/
structure Transport (σ : Type) where
  send : Call → σ → Reply × σ

/-- The state of a transport, the calls so far and the log so far, oldest first. -/
structure Exchange (σ : Type) where
  server : σ
  calls : List Call
  log : List LogEntry

namespace Exchange

variable {σ : Type}

/-- Adds an entry to the log. -/
def note (x : Exchange σ) (entry : LogEntry) : Exchange σ := { x with log := x.log ++ [entry] }

/-- Sends a call. -/
def send (x : Exchange σ) (transport : Transport σ) (call : Call) : Reply × Exchange σ :=
  let (reply, server) := transport.send call x.server
  (reply, { x with server := server, calls := x.calls ++ [call] })

end Exchange

end BrokerClient

import BrokerClient.Text.Bytes

/-!
# Bodies

What an answer holds below its head. A client that asks for texts gets one; other
transports can answer with bytes, or with nothing at all.
-/
namespace BrokerClient

/-- The body of an answer as it comes from the transport. -/
inductive Body where
  | absent
  | text (s : String)
  | bytes (data : List UInt8)
  deriving DecidableEq, Repr

/-- The name of a body's kind in messages. -/
def Body.kindName : Body → String
  | absent => "NoneType"
  | text _ => "str"
  | bytes _ => "bytes"

end BrokerClient

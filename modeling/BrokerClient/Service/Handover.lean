import BrokerClient.Request.Store
import BrokerClient.Service.Request

/-!
# Handing over parameters

A caller hands a request a mapping that it keeps, or none. Where the method sends parameters, the
transport gets a copy of the mapping and may write to it. Since the copy refers to the values of the
caller, the transport can change these too.
-/
namespace BrokerClient

/-- What a transport does to a mapping that it was handed. -/
inductive Write where
  /-- Lets a name refer to a new value. -/
  | assign (name : String) (v : Value)
  /-- Takes a name away. -/
  | drop (name : String)
  /-- Changes the value of a name where it is kept. -/
  | change (name : String) (v : Value)

/-- A write changes a value where it is kept. -/
def Write.isChange : Write → Bool
  | change .. => true
  | _ => false

namespace Store

/-- Carries out a write to a mapping. -/
def write (mapping : Address) (s : Store) : Write → Store
  | .assign name v =>
    let (a, s) := s.makeValue v
    s.assign mapping name a
  | .drop name =>
    { s with mappings := s.mappings.modify mapping (·.filter (·.1 != name)) }
  | .change name v =>
    match (s.entries mapping).find? name with
    | some a => { s with values := s.values.modify a fun _ => v }
    | none => s

/-- The names that a request is given; without a mapping there are none. -/
def given (s : Store) (mapping : Option Address) : Mapping Address :=
  (mapping.map s.entries).getD []

end Store

namespace Service

variable {σ : Type}

/-- Follows a link with parameters that a caller keeps. -/
def requestIn (service : Service) (transport : Transport σ) (writes : Call → σ → List Write)
    (link : Link) (s : Store) (mapping : Option Address) (deleteWithBody : Bool) (x : Exchange σ) :
    (Except Raised (Option Response) × Exchange σ) × Store :=
  match service.prepare link (s.resolve (s.given mapping)) with
  | .error r => ((.error r, x), s)
  | .ok url =>
    let (handed, s) := s.make (s.given mapping)
    let parameters := s.parameters handed
    let (outcome, y) := dispatch service.unmarshal transport link url parameters deleteWithBody x
    let s := match callFor link.method url parameters deleteWithBody with
      | some call =>
        if call.parameters.isSome then (writes call x.server).foldl (Store.write handed) s else s
      | none => s
    ((outcome.mapError .client, y), s)

end Service

end BrokerClient

import BrokerClient.Representation.Response

/-!
# What a payload represents

A payload holds the representation of one resource, or a list of them, or neither. An
empty list is a list of any kind of records, and no data at all is an empty list.
-/
namespace BrokerClient

/-- The representation of a resource. -/
inductive Representation where
  | user (r : Representation.User)
  | domain (r : Representation.Domain)
  | application (r : Representation.Application)
  | cartridge (r : Representation.Cartridge)
  | key (r : Representation.Key)
  deriving DecidableEq, Repr

namespace Representation

/-- The kind of record that a representation is. -/
def kind : Representation → RecordKind
  | user _ => .user
  | domain _ => .domain
  | application _ => .application
  | cartridge _ => .cartridge
  | key _ => .key

/-- What it has in common with the others. -/
def common : Representation → Common
  | user r => r.toCommon
  | domain r => r.toCommon
  | application r => r.toCommon
  | cartridge r => r.toCommon
  | key r => r.toCommon

/-- The name by which its owner knows the resource. -/
def name : Representation → String
  | user r => r.login
  | domain r => r.id
  | application r => r.name
  | cartridge r => r.name
  | key r => r.name

end Representation

namespace Payload

/-- The one representation in a payload. -/
def single? : Payload → Option Representation
  | user r => some (.user r)
  | domain r => some (.domain r)
  | application r => some (.application r)
  | cartridge r => some (.cartridge r)
  | key r => some (.key r)
  | _ => none

/-- The one representation of a kind in a payload. -/
def singleOf? (kind : RecordKind) (payload : Payload) : Option Representation :=
  payload.single?.filter (·.kind == kind)

/-- The payload holds no records at all: no data, or an empty list. -/
def isEmptyList : Payload → Bool
  | absent => true
  | plain (.arr items) => items.isEmpty
  | gears rs => rs.isEmpty
  | _ => false

/-- The representations in the list that a payload is. -/
def list? : Payload → Option (List Representation)
  | domains rs => some (rs.map .domain)
  | applications rs => some (rs.map .application)
  | cartridges rs => some (rs.map .cartridge)
  | keys rs => some (rs.map .key)
  | payload => if payload.isEmptyList then some [] else none

/-- The representations of a kind in the list that a payload is. -/
def listOf? (kind : RecordKind) (payload : Payload) : Option (List Representation) :=
  payload.list?.filter (·.all (·.kind == kind))

/-- The gears in the list that a payload is. -/
def gears? : Payload → Option (List Representation.Gear)
  | gears rs => some rs
  | payload => if payload.list? == some [] then some [] else none

theorem kind_of_singleOf? {kind : RecordKind} {payload : Payload} {r : Representation}
    (h : payload.singleOf? kind = some r) : r.kind = kind := by
  simp only [singleOf?, Option.filter_eq_some_iff] at h
  simpa using h.2

theorem kind_of_listOf? {kind : RecordKind} {payload : Payload} {rs : List Representation}
    (h : payload.listOf? kind = some rs) {r : Representation} (hr : r ∈ rs) : r.kind = kind := by
  simp only [listOf?, Option.filter_eq_some_iff, List.all_eq_true] at h
  simpa using h.2 r hr

end Payload

end BrokerClient

import BrokerClient.Proofs.Record.Abort
import BrokerClient.Proofs.Record.Acceptance
import BrokerClient.Proofs.Traversal
import BrokerClient.Representation.Content

/-!
# What a response is about

The type of a response says what its data represents: one resource or gear, or a list of them. What
the types have in common is stated here once for all of them. A subject gives a single record its
type and its decoder, and the list of such records its type.
-/
namespace BrokerClient

open Record Verdict BrokerClient.Representation

/-- What the records of a response represent. -/
inductive Subject where
  | user
  | domain
  | application
  | cartridge
  | gear
  | key
  deriving DecidableEq, Repr

namespace Payload

/-- Changes what a single representation has in common with the others. A gear has no part in
that. -/
def mapCommon (f : Common → Common) : Payload → Payload
  | user r => user { r with toCommon := f r.toCommon }
  | domain r => domain { r with toCommon := f r.toCommon }
  | application r => application { r with toCommon := f r.toCommon }
  | cartridge r => cartridge { r with toCommon := f r.toCommon }
  | key r => key { r with toCommon := f r.toCommon }
  | payload => payload

/-- The records in the list that a payload is, each as a payload. -/
def records? : Payload → Option (List Payload)
  | domains rs => some (rs.map domain)
  | applications rs => some (rs.map application)
  | cartridges rs => some (rs.map cartridge)
  | gears rs => some (rs.map gear)
  | keys rs => some (rs.map key)
  | _ => none

end Payload

namespace Subject

/-- The type of a response with one record. -/
def word : Subject → String
  | user => "user"
  | domain => "domain"
  | application => "application"
  | cartridge => "cartridge"
  | gear => "gear"
  | key => "key"

/-- The type of a response with a list of records. Users are not listed. -/
def pluralWord? : Subject → Option String
  | user => none
  | domain => some "domains"
  | application => some "applications"
  | cartridge => some "cartridges"
  | gear => some "gears"
  | key => some "keys"

/-- The kind of its records. -/
def recordKind : Subject → RecordKind
  | user => .user
  | domain => .domain
  | application => .application
  | cartridge => .cartridge
  | gear => .gear
  | key => .key

/-- The decoder of its records. -/
def decode : Subject → Value → Verdict Payload
  | user => fun v => .user <$> User.decode v
  | domain => fun v => .domain <$> Domain.decode v
  | application => fun v => .application <$> Application.decode v
  | cartridge => fun v => .cartridge <$> Cartridge.decode v
  | gear => fun v => .gear <$> Gear.decode v
  | key => fun v => .key <$> Key.decode v

/-- The values by which a record declares the options of parameters. A gear declares none. -/
def optionValues : Subject → Value → List Value
  | gear, _ => []
  | _, v => Representation.optionValues v

theorem abort?_decode (subject : Subject) (v : Value) :
    (subject.decode v).abort? = firstStray? (subject.optionValues v) := by
  cases subject with
  | user => exact (abort?_map _ _).trans (User.abort?_decode v)
  | domain => exact (abort?_map _ _).trans (Domain.abort?_decode v)
  | application => exact (abort?_map _ _).trans (Application.abort?_decode v)
  | cartridge => exact (abort?_map _ _).trans (Cartridge.abort?_decode v)
  | gear => exact (abort?_map _ _).trans (Gear.abort?_decode v)
  | key => exact (abort?_map _ _).trans (Key.abort?_decode v)

end Subject

namespace Response

variable {α β : Type}

theorem decodeRecord_map (kind : RecordKind) (f : α → β) (decode : Value → Verdict α) :
    decodeRecord kind (fun v => f <$> decode v) = fun v => f <$> decodeRecord kind decode v := by
  funext v
  simp only [decodeRecord]
  cases decode v <;> rfl

theorem decodeRecord_eq_ok {kind : RecordKind} {decode : Value → Verdict α} {v : Value} {a : α} :
    decodeRecord kind decode v = .ok a ↔ decode v = accepted a := by
  rw [decodeRecord]
  cases decode v <;> simp [ofVerdict]

/-- A single record is decoded, and then it gets the messages of the response. -/
theorem decodeData_word (subject : Subject) (messages : List Message) {data : Value}
    (hdata : data ≠ .null) :
    decodeData subject.word messages data =
      Payload.mapCommon (withLog messages) <$>
        decodeRecord subject.recordKind subject.decode data := by
  have hnull := Value.isNull_eq_false.mpr hdata
  cases subject <;>
    simp only [decodeData, hnull, Subject.word, Subject.recordKind, Subject.decode,
      decodeRecord_map, Bool.false_eq_true, if_false] <;>
    cases decodeRecord _ _ data <;> rfl

/-- The records of a list are decoded one after the other, whatever the messages are. -/
theorem decodeData_pluralWord {subject : Subject} {plural : String}
    (hplural : subject.pluralWord? = some plural) (messages : List Message) (items : List Value) :
    Payload.records? <$> decodeData plural messages (.arr items) =
      some <$> items.mapM (decodeRecord subject.recordKind subject.decode) := by
  cases subject <;> cases hplural <;>
    simp only [decodeData, Value.isNull, Bool.false_eq_true, if_false, decodeRecords,
      Subject.recordKind, Subject.decode, decodeRecord_map, mapM_fmap] <;>
    cases items.mapM (decodeRecord _ _) <;> rfl

end Response

end BrokerClient

import BrokerClient.Proofs.Representation.Reading
import BrokerClient.Proofs.Representation.Subject
import BrokerClient.Proofs.Value.Decidable

/-!
# Lists of records

A response with a list decodes its records as responses with one record each do. Main statement: the
list comes to the results of the single records, in the same order, or to the fault of the first
that fails. The messages of a response leave a list as it is. In a single representation they become
the creation log.
-/
namespace BrokerClient

open Record Verdict

/-- A body is the envelope of a type, with messages and data, for a reader that reads down to a
depth. -/
def Body.Holds (body : Body) (depth : Nat) (type : String) (messages data : Value) : Prop :=
  ∃ (s : String) (fields : Mapping Value), body.Spells s ∧
    Json.read depth s = .ok (.obj fields) ∧ fields.find? "type" = some (.str type) ∧
    Value.given fields "messages" = messages ∧ Value.given fields "data" = data

/-- A body holds a list of records, and each of these is held by a body of its own. They all have
the same messages. -/
structure Envelopes (depth : Nat) (subject : Subject) (messages : Value) (items : List Value)
    (whole : Body) (alone : Value → Body) : Prop where
  whole : ∃ plural, subject.pluralWord? = some plural ∧
    whole.Holds depth plural messages (.arr items)
  alone : ∀ v ∈ items, (alone v).Holds depth subject.word messages v

namespace Payload

/-- The same representation with another creation log. A gear has none. -/
def withCreationLog (log : List Message) : Payload → Payload :=
  mapCommon fun common => { common with creationLog := log }

theorem mapCommon_id (payload : Payload) : payload.mapCommon (fun common => common) = payload := by
  cases payload <;> rfl

end Payload

/-- What a value represents by itself. -/
def Subject.represent (subject : Subject) (v : Value) : Except Fault Payload :=
  Response.decodeRecord subject.recordKind subject.decode v

theorem Subject.represent_gear (v : Value) :
    gear.represent v = .gear <$> Response.decodeRecord .gear Representation.Gear.decode v :=
  congrFun (Response.decodeRecord_map .gear Payload.gear Representation.Gear.decode) v

/-- The data of the response in a body; none if there is no response in it. -/
def Response.dataIn (depth : Nat) (body : Body) : Except Fault (Option Payload) :=
  Option.map data <$> ofBody depth body

open Response

section Envelope

variable {depth : Nat} {type : String} {messages data : Value} {log : List Message} {body : Body}

theorem Response.withLog_nil : withLog [] = fun common => common := rfl

theorem Response.withLog_of_ne_nil (h : log ≠ []) :
    withLog log = fun common => { common with creationLog := log } := by
  funext common
  exact if_neg (by simpa using h)

theorem Response.typeOf_eq {fields : Mapping Value} (h : fields.find? "type" = some (.str type)) :
    typeOf fields = type := by
  rw [typeOf, Value.given, h, Option.getD_some]
  by_cases htype : type = "" <;> simp [Value.isGiven, Value.text, htype]

theorem Body.Holds.dataIn_eq (h : body.Holds depth type messages data)
    (hmessages : decodeMessages messages = .ok log) :
    dataIn depth body = some <$> decodeData type log data := by
  obtain ⟨s, fields, hspells, hread, htype, rfl, rfl⟩ := h
  rw [dataIn, ofBody_of_read hspells hread, ofValue_obj, typeOf_eq htype, hmessages]
  cases hdata : decodeData type log (Value.given fields "data") <;>
    simp [bind, Except.bind, pure, Except.pure, hdata]

end Envelope

namespace Envelopes

variable {depth : Nat} {subject : Subject} {messages v : Value} {items : List Value} {whole : Body}
  {alone : Value → Body} {log : List Message} {payloads : List Payload} {f : Fault}

theorem dataIn_alone (h : Envelopes depth subject messages items whole alone)
    (hmessages : decodeMessages messages = .ok log) (hv : v ∈ items) (hnull : v ≠ .null) :
    dataIn depth (alone v) = some <$> Payload.mapCommon (withLog log) <$> subject.represent v := by
  rw [(h.alone v hv).dataIn_eq hmessages, decodeData_word subject log hnull, Subject.represent]

theorem dataIn_alone_of_quiet (h : Envelopes depth subject messages items whole alone)
    (hmessages : decodeMessages messages = .ok []) (hv : v ∈ items) (hnull : v ≠ .null) :
    dataIn depth (alone v) = some <$> subject.represent v := by
  rw [h.dataIn_alone hmessages hv hnull, withLog_nil]
  cases subject.represent v <;> simp [Payload.mapCommon_id]

theorem dataIn_whole_eq_ok (h : Envelopes depth subject messages items whole alone)
    (hmessages : decodeMessages messages = .ok log) :
    (∃ data, dataIn depth whole = .ok (some data) ∧ data.records? = some payloads) ↔
      items.mapM subject.represent = .ok payloads := by
  obtain ⟨plural, hplural, hwhole⟩ := h.whole
  have hrecords : Payload.records? <$> decodeData plural log (.arr items) =
      some <$> items.mapM subject.represent := decodeData_pluralWord hplural log items
  calc (∃ data, dataIn depth whole = .ok (some data) ∧ data.records? = some payloads)
    _ ↔ ∃ data, decodeData plural log (.arr items) = .ok data ∧ data.records? = some payloads := by
      simp [hwhole.dataIn_eq hmessages, fmap_eq_ok]
    _ ↔ Payload.records? <$> decodeData plural log (.arr items) = .ok (some payloads) :=
      fmap_eq_ok.symm
    _ ↔ items.mapM subject.represent = .ok payloads := by simp [hrecords, fmap_eq_ok]

theorem dataIn_whole_eq_error (h : Envelopes depth subject messages items whole alone)
    (hmessages : decodeMessages messages = .ok log) :
    dataIn depth whole = .error f ↔ items.mapM subject.represent = .error f := by
  obtain ⟨plural, hplural, hwhole⟩ := h.whole
  have hrecords : Payload.records? <$> decodeData plural log (.arr items) =
      some <$> items.mapM subject.represent := decodeData_pluralWord hplural log items
  rw [hwhole.dataIn_eq hmessages, fmap_eq_error, ← fmap_eq_error (f := Payload.records?), hrecords,
    fmap_eq_error]

/-- The list of a response does not depend on its messages. -/
theorem dataIn_whole_congr {messages' : Value} {whole' : Body} {alone' : Value → Body}
    {log' : List Message} (h : Envelopes depth subject messages items whole alone)
    (hmessages : decodeMessages messages = .ok log)
    (h' : Envelopes depth subject messages' items whole' alone')
    (hmessages' : decodeMessages messages' = .ok log') :
    dataIn depth whole' = dataIn depth whole := by
  obtain ⟨plural, hplural, hwhole⟩ := h.whole
  obtain ⟨_, hplural', hwhole'⟩ := h'.whole
  obtain rfl := Option.some.inj (hplural.symm.trans hplural')
  rw [hwhole.dataIn_eq hmessages, hwhole'.dataIn_eq hmessages']
  cases subject <;> cases hplural <;> rfl

/-- A list of records, none of them null, and the same records by themselves. Without messages the
list is decoded exactly if each of the records is. It comes to what they come to, in the same order,
or to the fault of the first that fails. Messages leave the list as it is. In what a record by
itself comes to they are the creation log, and nothing else changes; for a gear nothing does. -/
theorem list_comes_to_records {quiet loud : Value} {noted : Body} {notedAlone : Value → Body}
    (hitems : ∀ v ∈ items, v ≠ .null) (hquiet : decodeMessages quiet = .ok [])
    (hloud : decodeMessages loud = .ok log) (hlog : log ≠ [])
    (hplain : Envelopes depth subject quiet items whole alone)
    (hnoted : Envelopes depth subject loud items noted notedAlone) :
    ((∃ data, dataIn depth whole = .ok data) ↔
        ∀ v ∈ items, ∃ data, dataIn depth (alone v) = .ok data) ∧
      (∀ payloads,
        (∃ data, dataIn depth whole = .ok (some data) ∧ data.records? = some payloads) ↔
          List.Forall₂ (fun v payload => dataIn depth (alone v) = .ok (some payload)) items
            payloads) ∧
      (∀ f, dataIn depth whole = .error f ↔ ∃ before v after, items = before ++ v :: after ∧
        (∀ u ∈ before, ∃ data, dataIn depth (alone u) = .ok data) ∧
          dataIn depth (alone v) = .error f) ∧
      dataIn depth noted = dataIn depth whole ∧
      ∀ v ∈ items,
        dataIn depth (notedAlone v) =
            Option.map (Payload.withCreationLog log) <$> dataIn depth (alone v) ∧
          (subject = .gear → dataIn depth (notedAlone v) = dataIn depth (alone v)) := by
  -- Without messages the list and the single records go through the same outcomes.
  have halone (v : Value) (hv : v ∈ items) :
      dataIn depth (alone v) = some <$> subject.represent v :=
    hplain.dataIn_alone_of_quiet hquiet hv (hitems v hv)
  have herror (f : Fault) : dataIn depth whole = .error f ↔
      items.mapM (fun v => dataIn depth (alone v)) = .error f := by
    rw [hplain.dataIn_whole_eq_error hquiet, mapM_congr_of_mem halone, mapM_fmap, fmap_eq_error]
  refine ⟨?_, fun payloads => ?_, fun f => (herror f).trans mapM_eq_error,
    hplain.dataIn_whole_congr hquiet hnoted hloud, fun v hv => ⟨?_, fun hgear => ?_⟩⟩
  · calc (∃ data, dataIn depth whole = .ok data)
      _ ↔ ∃ data, items.mapM (fun v => dataIn depth (alone v)) = .ok data := by
        simp only [exists_eq_ok_iff, herror, ne_eq]
      _ ↔ ∀ v ∈ items, ∃ data, dataIn depth (alone v) = .ok data := exists_mapM_eq_ok
  · rw [hplain.dataIn_whole_eq_ok hquiet, mapM_eq_ok]
    refine forall₂_congr_of_mem fun v hv payload => ?_
    simp [halone v hv, fmap_eq_ok]
  · rw [hnoted.dataIn_alone hloud hv (hitems v hv), withLog_of_ne_nil hlog, halone v hv]
    cases subject.represent v <;> rfl
  · subst hgear
    rw [hnoted.dataIn_alone hloud hv (hitems v hv), halone v hv, Subject.represent_gear]
    cases decodeRecord .gear Representation.Gear.decode v <;> rfl

/-! ## Two domains -/

/-- The text of an envelope. -/
def envelopeText (type messages data : String) : String :=
  "\x7b\"type\":\"" ++ type ++ "\",\"messages\":" ++ messages ++ ",\"data\":" ++ data ++ "\x7d"

/-- The text of an object with an id. -/
def idText (v : Value) : String :=
  "\x7b\"id\":\"" ++ ((v.field? "id").getD .null).text ++ "\"\x7d"

/-- Two objects with an id. -/
def twoItems : List Value := [.obj [("id", .str "a")], .obj [("id", .str "b")]]

/-- The list of them as domains, with messages that are written like this. -/
def twoDomains (messages : String) : String :=
  envelopeText "domains" messages ("[" ++ String.intercalate "," (twoItems.map idText) ++ "]")

/-- A domain by itself, with messages that are written like this. -/
def oneDomain (messages : String) (v : Value) : String := envelopeText "domain" messages (idText v)

/-- A text is not blank and is the JSON of an object. -/
abbrev ReadsAs (depth : Nat) (s : String) (fields : Mapping Value) : Prop :=
  Text.isBlank s = false ∧ (Json.read depth s).toOption = some (.obj fields)

theorem ReadsAs.holds {s type : String} {fields : Mapping Value} (h : ReadsAs depth s fields)
    (htype : fields.find? "type" = some (.str type)) :
    (Body.text s).Holds depth type (Value.given fields "messages") (Value.given fields "data") := by
  obtain ⟨hcontent, hread⟩ := h
  refine ⟨s, fields, ⟨rfl, hcontent⟩, ?_, htype, rfl, rfl⟩
  cases hs : Json.read depth s with
  | error failure =>
    rw [hs] at hread
    cases hread
  | ok v =>
    rw [hs] at hread
    exact congrArg Except.ok (Option.some.inj hread)

theorem envelopes_of_readsAs {text : String}
    (hwhole : ReadsAs depth (twoDomains text)
      [("type", .str "domains"), ("messages", messages), ("data", .arr twoItems)])
    (halone : ∀ v ∈ twoItems, ReadsAs depth (oneDomain text v)
      [("type", .str "domain"), ("messages", messages), ("data", v)]) :
    Envelopes depth .domain messages twoItems (.text (twoDomains text))
      fun v => .text (oneDomain text v) :=
  ⟨⟨"domains", rfl, hwhole.holds rfl⟩, fun v hv => (halone v hv).holds rfl⟩

/-- The list comes to the two domains, with a message and without. By itself a domain has the
message in its creation log. -/
theorem two_domains_come_to_records :
    (∃ data, dataIn 3 (.text (twoDomains "null")) = .ok (some data) ∧
        data.records? = some [.domain ⟨⟨[], []⟩, "a", ""⟩, .domain ⟨⟨[], []⟩, "b", ""⟩]) ∧
      dataIn 3 (.text (twoDomains "[\x7b\x7d]")) = dataIn 3 (.text (twoDomains "null")) ∧
      dataIn 3 (.text (oneDomain "[\x7b\x7d]" (.obj [("id", .str "b")]))) =
        .ok (some (.domain ⟨⟨[], [⟨"", "info", none, none⟩]⟩, "b", ""⟩)) := by
  have hplain : Envelopes 3 .domain .null twoItems (.text (twoDomains "null"))
      fun v => .text (oneDomain "null" v) :=
    envelopes_of_readsAs (by decide +kernel) (by decide +kernel)
  have hnoted : Envelopes 3 .domain (.arr [.obj []]) twoItems (.text (twoDomains "[\x7b\x7d]"))
      fun v => .text (oneDomain "[\x7b\x7d]" v) :=
    envelopes_of_readsAs (by decide +kernel) (by decide +kernel)
  have hlog : ([⟨"", "info", none, none⟩] : List Message) ≠ [] := List.cons_ne_nil _ _
  have hitems : ∀ v ∈ twoItems, v ≠ .null := by decide
  obtain ⟨-, hlist, -, hsame, hrecords⟩ :=
    list_comes_to_records hitems rfl rfl hlog hplain hnoted
  have hb : (.obj [("id", .str "b")] : Value) ∈ twoItems := .tail _ (.head _)
  have halone (v : Value) (hv : v ∈ twoItems) :=
    hplain.dataIn_alone_of_quiet rfl hv (hitems v hv)
  refine ⟨(hlist _).mpr (.cons ?_ (.cons ?_ .nil)), hsame, ?_⟩
  · rw [halone _ (.head _)]
    rfl
  · rw [halone _ hb]
    rfl
  · rw [(hrecords _ hb).1, halone _ hb]
    rfl

end Envelopes

end BrokerClient

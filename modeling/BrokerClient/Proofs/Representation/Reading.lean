import BrokerClient.Proofs.Traversal
import BrokerClient.Representation.Response

/-!
# Reading a body

The text in a body is read in two steps: as a value, and as the envelope that the value is. Each
step fails in ways of its own. A text is no JSON, or nested too deeply; an envelope is reported as
undecodable, or its decoding is aborted. A body with nothing in it does not fail.
-/
namespace BrokerClient

variable {α β ε : Type}

/-! ## Outcomes that fail in some ways only -/

/-- Whatever an outcome fails with has a property. -/
def FailsOnly (P : ε → Prop) (x : Except ε α) : Prop := ∀ e, x = .error e → P e

namespace FailsOnly

variable {P : ε → Prop} {x : Except ε α}

theorem ok (a : α) : FailsOnly P (.ok a) := nofun

theorem error {e : ε} (h : P e) : FailsOnly P (.error e : Except ε α) := by
  rintro _ ⟨⟩
  exact h

theorem bind (hx : FailsOnly P x) {f : α → Except ε β} (hf : ∀ a, FailsOnly P (f a)) :
    FailsOnly P (x >>= f) := by
  cases x with
  | error e => exact .error (hx e rfl)
  | ok a => exact hf a

theorem map (hx : FailsOnly P x) (f : α → β) : FailsOnly P (f <$> x) := by
  cases x with
  | error e => exact .error (hx e rfl)
  | ok a => exact .ok (f a)

theorem mapM {f : α → Except ε β} (hf : ∀ a, FailsOnly P (f a)) (l : List α) :
    FailsOnly P (l.mapM f) := by
  intro e he
  obtain ⟨_, a, _, -, -, ha⟩ := mapM_eq_error.mp he
  exact hf a e ha

theorem forM {f : α → Except ε Unit} (hf : ∀ a, FailsOnly P (f a)) (l : List α) :
    FailsOnly P (l.forM f) := by
  rw [forM_eq_mapM]
  exact (FailsOnly.mapM hf l).map _

end FailsOnly

/-! ## The envelope -/

/-- The value of a field, null if it is absent. -/
def Value.given (fields : Mapping Value) (name : String) : Value :=
  (fields.find? name).getD .null

/-- A fault of decoding: what was wrong is reported, or the decoding was aborted. -/
def Fault.isOfDecoding : Fault → Bool
  | decode _ | notIterable _ => true
  | _ => false

namespace Response

/-- A fault of decoding. -/
abbrev OfDecoding (f : Fault) : Prop := f.isOfDecoding = true

theorem decodeRecord_failsOnly (kind : RecordKind) (decode : Value → Record.Verdict α)
    (v : Value) : FailsOnly OfDecoding (decodeRecord kind decode v) := by
  unfold decodeRecord
  cases decode v with
  | accepted a => exact .ok a
  | rejected issues => exact .error rfl
  | aborted kindName => exact .error rfl

theorem decodeRecords_failsOnly (kind : RecordKind) (decode : Value → Record.Verdict α)
    (responseType : String) (v : Value) :
    FailsOnly OfDecoding (decodeRecords kind decode responseType v) := by
  cases v with
  | arr items => exact .mapM (decodeRecord_failsOnly kind decode) items
  | _ => exact .error rfl

theorem decodeLinks_failsOnly (v : Value) : FailsOnly OfDecoding (decodeLinks v) := by
  cases v with
  | obj fields =>
    exact .mapM (fun _ => (decodeRecord_failsOnly _ _ _).bind fun _ => .ok _) fields
  | _ => exact .error rfl

theorem decodeMessages_failsOnly (v : Value) : FailsOnly OfDecoding (decodeMessages v) := by
  unfold decodeMessages
  split
  · exact .ok []
  · split
    · exact .mapM (decodeRecord_failsOnly _ _) _
    · exact .error rfl

theorem decodeData_failsOnly (type : String) (messages : List Message) (data : Value) :
    FailsOnly OfDecoding (decodeData type messages data) := by
  unfold decodeData
  split
  · exact .ok _
  · split
    case h_1 => exact (decodeLinks_failsOnly data).map _
    case h_6 => exact (decodeRecord_failsOnly _ _ _).map _
    case h_13 => exact .ok _
    case h_2 | h_3 | h_4 | h_5 | h_7 => exact (decodeRecord_failsOnly _ _ _).bind fun _ => .ok _
    all_goals exact (decodeRecords_failsOnly _ _ _ _).map _

theorem ofValue_failsOnly (v : Value) : FailsOnly OfDecoding (ofValue v) := by
  cases v with
  | obj fields =>
    exact (decodeMessages_failsOnly _).bind fun messages =>
      (decodeData_failsOnly _ messages _).bind fun _ => .ok _
  | _ => exact .error rfl

/-- The type of the envelope with these fields. -/
def typeOf (fields : Mapping Value) : String :=
  if (Value.given fields "type").isGiven then (Value.given fields "type").text else ""

theorem ofValue_obj (fields : Mapping Value) :
    ofValue (.obj fields) =
      (decodeMessages (Value.given fields "messages") >>= fun messages =>
        decodeData (typeOf fields) messages (Value.given fields "data") >>= fun data =>
          pure ⟨typeOf fields, data, messages⟩) :=
  rfl

/-- The envelope is decoded from its messages and its data, the messages first. -/
theorem ofValue_eq_error {v : Value} {f : Fault} :
    ofValue v = .error f ↔
      (∀ fields, v ≠ .obj fields) ∧ f = .decode (.payload v.kindName) ∨
        ∃ fields, v = .obj fields ∧
          (decodeMessages (Value.given fields "messages") = .error f ∨
            ∃ log, decodeMessages (Value.given fields "messages") = .ok log ∧
              decodeData (typeOf fields) log (Value.given fields "data") = .error f) := by
  cases v
  case obj fields =>
    rw [ofValue_obj]
    cases hmessages : decodeMessages (Value.given fields "messages") with
    | error e => simp [hmessages, bind, Except.bind]
    | ok log =>
      cases hdata : decodeData (typeOf fields) log (Value.given fields "data") <;>
        simp [hmessages, hdata, bind, Except.bind, pure, Except.pure]
  all_goals simp [ofValue, eq_comm]

end Response

/-! ## The text -/

/-- A fault of reading a body: one of decoding, or that the body is nested too deeply. -/
def Fault.isOfReading : Fault → Bool
  | tooDeep _ => true
  | f => f.isOfDecoding

theorem Fault.isOfReading_of_isOfDecoding {f : Fault} (h : f.isOfDecoding = true) :
    f.isOfReading = true := by
  cases f <;> first | rfl | cases h

/-- The fault that a text that is no JSON value is reported as. -/
def Json.Failure.fault : Json.Failure → Fault
  | malformed => .decode .notJson
  | oversized digits => .decode (.oversizedInteger digits)
  | tooDeep shape => .tooDeep shape

namespace Body

/-- The text that a body spells, if it spells one. -/
def text? : Body → Option String
  | absent => none
  | text s => some s
  | bytes data => Text.ofBytes? data

/-- There is nothing in a body: it is absent, or a text of white space. -/
def isBlank : Body → Bool
  | absent => true
  | body => body.text?.any Text.isBlank

/-- A body spells a text with something in it. -/
structure Spells (body : Body) (s : String) : Prop where
  spelled : body.text? = some s
  content : Text.isBlank s = false

end Body

namespace Response

variable {depth : Nat} {body : Body} {s : String} {v : Value}

theorem ofBody_of_text (depth : Nat) (h : body.text? = some s) :
    ofBody depth body = ofText depth s ∧ body.isBlank = Text.isBlank s := by
  cases body with
  | absent => cases h
  | text s' =>
    cases h
    exact ⟨rfl, rfl⟩
  | bytes data =>
    have hdata : Text.ofBytes? data = some s := h
    simp [ofBody, Body.isBlank, Body.text?, hdata]

theorem ofBody_of_no_text (depth : Nat) (h : body.text? = none) :
    body = .absent ∨ body.isBlank = false ∧ ofBody depth body = .error (.decode .notUtf8) := by
  cases body with
  | absent => exact .inl rfl
  | text s => cases h
  | bytes data =>
    have hdata : Text.ofBytes? data = none := h
    simp [ofBody, Body.isBlank, Body.text?, hdata]

theorem ofBody_of_read (h : body.Spells s) (hread : Json.read depth s = .ok v) :
    ofBody depth body = some <$> ofValue v := by
  simp [(ofBody_of_text depth h.spelled).1, ofText, h.content, hread]

theorem ofBody_of_unread (h : body.Spells s) {failure : Json.Failure}
    (hread : Json.read depth s = .error failure) : ofBody depth body = .error failure.fault := by
  rw [(ofBody_of_text depth h.spelled).1]
  cases failure <;> simp [ofText, h.content, hread, Json.Failure.fault]

/-- A body has nothing in it, or is no text, or spells one. -/
theorem ofBody_cases (depth : Nat) (body : Body) :
    body.isBlank = true ∧ ofBody depth body = .ok none ∨
      body.isBlank = false ∧
        (ofBody depth body = .error (.decode .notUtf8) ∨ ∃ s, body.Spells s) := by
  cases htext : body.text? with
  | none =>
    obtain rfl | ⟨hblank, hbody⟩ := ofBody_of_no_text depth htext
    · exact .inl ⟨rfl, rfl⟩
    · exact .inr ⟨hblank, .inl hbody⟩
  | some s =>
    obtain ⟨hbody, hblank⟩ := ofBody_of_text depth htext
    cases hs : Text.isBlank s with
    | true => exact .inl ⟨hblank.trans hs, by simp [hbody, ofText, hs]⟩
    | false => exact .inr ⟨hblank.trans hs, .inr ⟨s, htext, hs⟩⟩

/-- A body comes to no response exactly if there is nothing in it. -/
theorem ofBody_eq_none : ofBody depth body = .ok none ↔ body.isBlank = true := by
  obtain ⟨hblank, hbody⟩ | ⟨hblank, hbody | ⟨s, hspells⟩⟩ := ofBody_cases depth body
  · simp [hblank, hbody]
  · simp [hblank, hbody]
  · simp only [hblank, Bool.false_eq_true, iff_false]
    cases hread : Json.read depth s with
    | error failure => simp [ofBody_of_unread hspells hread]
    | ok v =>
      rw [ofBody_of_read hspells hread]
      cases ofValue v <;> nofun

theorem ofBody_eq_error {f : Fault} (h : ofBody depth body = .error f) :
    f = .decode .notUtf8 ∨ ∃ s, body.Spells s ∧
      ((∃ failure, Json.read depth s = .error failure ∧ f = failure.fault) ∨
        ∃ v, Json.read depth s = .ok v ∧ ofValue v = .error f) := by
  obtain ⟨-, hbody⟩ | ⟨-, hbody | ⟨s, hspells⟩⟩ := ofBody_cases depth body
  · cases hbody.symm.trans h
  · exact .inl (Except.error.inj (h.symm.trans hbody))
  · refine .inr ⟨s, hspells, ?_⟩
    cases hread : Json.read depth s with
    | error failure =>
      rw [ofBody_of_unread hspells hread] at h
      exact .inl ⟨failure, rfl, (Except.error.inj h).symm⟩
    | ok v =>
      rw [ofBody_of_read hspells hread] at h
      refine .inr ⟨v, rfl, ?_⟩
      cases hvalue : ofValue v with
      | error e =>
        rw [hvalue] at h
        cases h
        rfl
      | ok response =>
        rw [hvalue] at h
        cases h

theorem ofBody_failsOnly (depth : Nat) (body : Body) :
    FailsOnly (·.isOfReading = true) (ofBody depth body) := by
  intro f hf
  obtain rfl | ⟨s, -, ⟨failure, -, rfl⟩ | ⟨v, -, hv⟩⟩ := ofBody_eq_error hf
  · rfl
  · cases failure <;> rfl
  · exact Fault.isOfReading_of_isOfDecoding (ofValue_failsOnly v f hv)

end Response

end BrokerClient

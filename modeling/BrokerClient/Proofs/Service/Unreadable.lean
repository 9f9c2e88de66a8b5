import BrokerClient.Proofs.Http.Refusal
import BrokerClient.Proofs.Representation.Reading
import BrokerClient.Proofs.Representation.Subject
import BrokerClient.Proofs.Service.Translation

/-!
# Answers that cannot be read

A body that is no envelope is a bad value, and a request that gets it reports an answer that could
not be read. Two kinds of bodies escape that. One is nested too deeply. The other declares the
options of a parameter by a number or a truth value: the decoding is aborted there, and what comes
out is no bad value. Main statement: every other body is blank, or a response, or a bad value.
-/
namespace BrokerClient

open Record Verdict

variable {σ : Type}

namespace Response

/-- The decoding of data of a type is aborted by options that a value of a kind declares. In a list
and among the links of the root, whatever stands in front of them has been decoded. -/
inductive Aborts : (type : String) → (data : Value) → (kindName : String) → Prop
  | record {subject : Subject} {data : Value} {kindName : String}
      (hstray : firstStray? (subject.optionValues data) = some kindName) :
      Aborts subject.word data kindName
  | listed {subject : Subject} {plural kindName : String} {before after : List Value} {v : Value}
      (hplural : subject.pluralWord? = some plural)
      (hbefore : ∀ u ∈ before, ∃ payload, subject.decode u = .accepted payload)
      (hstray : firstStray? (subject.optionValues v) = some kindName) :
      Aborts plural (.arr (before ++ v :: after)) kindName
  | root {before after : Mapping Value} {name kindName : String} {v : Value}
      (hbefore : ∀ pair ∈ before, ∃ link, Link.decodeNamed pair.1 pair.2 = .accepted link)
      (hstray : firstStray? (Link.optionValues v) = some kindName) :
      Aborts "links" (.obj (before ++ (name, v) :: after)) kindName

end Response

/-- A body has a fault that is no bad value: options that a number or a truth value declares in an
envelope whose messages are in order, or too deep a nesting. -/
inductive Body.Thwarts (depth : Nat) (body : Body) : Fault → Prop
  | stray {s kindName : String} {fields : Mapping Value} {log : List Message}
      (hspells : body.Spells s) (hread : Json.read depth s = .ok (.obj fields))
      (hmessages : Response.decodeMessages (Value.given fields "messages") = .ok log)
      (haborts : Response.Aborts (Response.typeOf fields) (Value.given fields "data") kindName) :
      Thwarts depth body (.notIterable kindName)
  | deep {s : String} {shape : Json.Shape} (hspells : body.Spells s)
      (hread : Json.read depth s = .error (.tooDeep shape)) : Thwarts depth body (.tooDeep shape)

namespace Response

variable {α : Type} {kind : RecordKind} {decode : Value → Verdict α} {kindName : String}

theorem decodeRecord_eq_notIterable {v : Value} :
    decodeRecord kind decode v = .error (.notIterable kindName) ↔
      (decode v).abort? = some kindName := by
  rw [decodeRecord, abort?_eq_some]
  cases decode v <;> simp [ofVerdict]

theorem aborts_of_decodeLinks {v : Value} (h : decodeLinks v = .error (.notIterable kindName)) :
    Aborts "links" v kindName := by
  cases v
  case obj fields =>
    obtain ⟨before, ⟨name, v⟩, after, rfl, hbefore, hv⟩ := mapM_eq_error.mp h
    have hlink : decodeRecord .link (Link.decodeNamed name) v = .error (.notIterable kindName) :=
      fmap_eq_error.mp hv
    rw [decodeRecord_eq_notIterable, Link.abort?_decodeNamed] at hlink
    refine .root (fun pair hpair => ?_) hlink
    obtain ⟨entry, hentry⟩ := hbefore pair hpair
    obtain ⟨link, hlink, -⟩ := fmap_eq_ok.mp hentry
    exact ⟨link, decodeRecord_eq_ok.mp hlink⟩
  all_goals cases h

theorem decodeMessages_ne_notIterable {v : Value} :
    decodeMessages v ≠ .error (.notIterable kindName) := by
  intro h
  unfold decodeMessages at h
  split at h
  · cases h
  · split at h
    · obtain ⟨before, v, after, -, -, hv⟩ := mapM_eq_error.mp h
      rw [decodeRecord_eq_notIterable, Message.abort?_decode] at hv
      cases hv
    · cases h

/-- A type names the links of the root, one record or a list of records, or it is not known. -/
theorem decodeData_cases (type : String) (messages : List Message) (data : Value) :
    type = "links" ∨ (∃ subject : Subject, type = subject.word) ∨
      (∃ subject : Subject, subject.pluralWord? = some type) ∨
        ∃ payload, decodeData type messages data = .ok payload := by
  have hword (subject : Subject) : ∃ other : Subject, subject.word = other.word := ⟨subject, rfl⟩
  unfold decodeData
  split
  · exact .inr (.inr (.inr ⟨_, rfl⟩))
  · split
    case h_1 => exact .inl rfl
    case h_2 => exact .inr (.inl (hword .user))
    case h_3 => exact .inr (.inl (hword .domain))
    case h_4 => exact .inr (.inl (hword .application))
    case h_5 => exact .inr (.inl (hword .cartridge))
    case h_6 => exact .inr (.inl (hword .gear))
    case h_7 => exact .inr (.inl (hword .key))
    case h_8 => exact .inr (.inr (.inl ⟨.domain, rfl⟩))
    case h_9 => exact .inr (.inr (.inl ⟨.application, rfl⟩))
    case h_10 => exact .inr (.inr (.inl ⟨.cartridge, rfl⟩))
    case h_11 => exact .inr (.inr (.inl ⟨.gear, rfl⟩))
    case h_12 => exact .inr (.inr (.inl ⟨.key, rfl⟩))
    case h_13 => exact .inr (.inr (.inr ⟨_, rfl⟩))

/-- A list of records is expected where the type names one. -/
theorem eq_arr_of_pluralWord {subject : Subject} {plural : String} {messages : List Message}
    {data : Value} (hplural : subject.pluralWord? = some plural)
    (h : decodeData plural messages data = .error (.notIterable kindName)) :
    ∃ items, data = .arr items := by
  cases data with
  | arr items => exact ⟨items, rfl⟩
  | _ => cases subject <;> cases hplural <;> cases h

theorem aborts_of_decodeData {type : String} {messages : List Message} {data : Value}
    (h : decodeData type messages data = .error (.notIterable kindName)) :
    Aborts type data kindName := by
  have hnull : data ≠ .null := by
    rintro rfl
    cases h
  obtain rfl | ⟨subject, rfl⟩ | ⟨subject, hplural⟩ | ⟨payload, hok⟩ :=
    decodeData_cases type messages data
  · refine aborts_of_decodeLinks (fmap_eq_error (f := Payload.links).mp ?_)
    simpa [decodeData, Value.isNull_eq_false.mpr hnull] using h
  · rw [decodeData_word subject messages hnull, fmap_eq_error, decodeRecord_eq_notIterable,
      subject.abort?_decode] at h
    exact .record h
  · obtain ⟨items, rfl⟩ := eq_arr_of_pluralWord hplural h
    have hitems := decodeData_pluralWord hplural messages items
    rw [h] at hitems
    obtain ⟨before, v, after, rfl, hbefore, hv⟩ :=
      mapM_eq_error.mp (fmap_eq_error.mp hitems.symm)
    rw [decodeRecord_eq_notIterable, subject.abort?_decode] at hv
    refine .listed hplural (fun u hu => ?_) hv
    obtain ⟨payload, hpayload⟩ := hbefore u hu
    exact ⟨payload, decodeRecord_eq_ok.mp hpayload⟩
  · cases hok.symm.trans h

theorem Aborts.decodeData_eq {type : String} {data : Value} (h : Aborts type data kindName)
    (messages : List Message) : decodeData type messages data = .error (.notIterable kindName) := by
  cases h with
  | @record subject data _ hstray =>
    have hnull : data ≠ .null := by
      rintro rfl
      cases subject <;> cases hstray
    rw [decodeData_word subject messages hnull, fmap_eq_error, decodeRecord_eq_notIterable,
      subject.abort?_decode, hstray]
  | @listed subject plural _ before after v hplural hbefore hstray =>
    have hitems := decodeData_pluralWord hplural messages (before ++ v :: after)
    refine fmap_eq_error.mp (hitems.trans (fmap_eq_error.mpr (mapM_eq_error.mpr ?_)))
    refine ⟨before, v, after, rfl, fun u hu => ?_, ?_⟩
    · obtain ⟨payload, hpayload⟩ := hbefore u hu
      exact ⟨payload, decodeRecord_eq_ok.mpr hpayload⟩
    · rw [decodeRecord_eq_notIterable, subject.abort?_decode, hstray]
  | @root before after name _ v hbefore hstray =>
    refine fmap_eq_error.mpr (mapM_eq_error.mpr
      ⟨before, (name, v), after, rfl, fun pair hpair => ?_, fmap_eq_error.mpr ?_⟩)
    · obtain ⟨link, hlink⟩ := hbefore pair hpair
      exact ⟨(pair.1, link), fmap_eq_ok.mpr ⟨link, decodeRecord_eq_ok.mpr hlink, rfl⟩⟩
    · exact decodeRecord_eq_notIterable.mpr ((Link.abort?_decodeNamed name v).trans hstray)

/-- A fault of decoding is a bad value unless the decoding was aborted. -/
theorem isA_value_of_isOfDecoding {f : Fault} (h : f.isOfDecoding = true) :
    f.isA .value = true ∨ ∃ kindName, f = .notIterable kindName := by
  cases f with
  | decode _ => exact .inl rfl
  | notIterable kindName => exact .inr ⟨kindName, rfl⟩
  | _ => cases h

theorem isA_value_of_fault {failure : Json.Failure} (h : failure.fault.isA .value = false) :
    ∃ shape, failure = .tooDeep shape := by
  cases failure with
  | tooDeep shape => exact ⟨shape, rfl⟩
  | _ => cases h

/-- What a body fails with is no bad value exactly if it is one of the two faults. -/
theorem thwarts_iff {depth : Nat} {body : Body} {f : Fault} :
    body.Thwarts depth f ↔ ofBody depth body = .error f ∧ f.isA .value = false := by
  constructor
  · rintro (⟨hspells, hread, hmessages, haborts⟩ | ⟨hspells, hread⟩)
    · rw [ofBody_of_read hspells hread, fmap_eq_error]
      exact ⟨ofValue_eq_error.mpr
        (.inr ⟨_, rfl, .inr ⟨_, hmessages, haborts.decodeData_eq _⟩⟩), rfl⟩
    · exact ⟨ofBody_of_unread hspells hread, rfl⟩
  · rintro ⟨hbody, hvalue⟩
    obtain rfl | ⟨s, hspells, ⟨failure, hread, rfl⟩ | ⟨v, hread, hv⟩⟩ := ofBody_eq_error hbody
    · cases hvalue
    · obtain ⟨shape, rfl⟩ := isA_value_of_fault hvalue
      exact .deep hspells hread
    · obtain hbad | ⟨kindName, rfl⟩ := isA_value_of_isOfDecoding (ofValue_failsOnly v f hv)
      · cases hvalue.symm.trans hbad
      · obtain ⟨-, hpayload⟩ | ⟨fields, rfl, hmessages | ⟨log, hmessages, hdata⟩⟩ :=
          ofValue_eq_error.mp hv
        · cases hpayload
        · exact absurd hmessages decodeMessages_ne_notIterable
        · exact .stray hspells hread hmessages (aborts_of_decodeData hdata)

end Response

namespace Service

variable {service : Service} {transport : Transport σ} {link : Link} {parameters : Parameters}
  {deleteWithBody : Bool} {url : String} {call : Call}

/-- A bad value in an answer makes the answer unreadable. Other faults of reading are reported as
failures of the request. -/
theorem ofRaised_of_isOfReading (url : String) {f : Fault} (h : f.isOfReading = true) :
    ClientError.ofRaised url (.fault f) =
      .endpoint url (if f.isA .value then .unreadable (.fault f) else .failed (.fault f)) := by
  cases f with
  | decode _ | notIterable _ | tooDeep _ => rfl
  | _ => cases h

theorem request_of_body (hsends : service.Sends link parameters deleteWithBody url call)
    {x : Exchange σ} {body : Body} (hreply : (transport.send call x.server).1 = .ok body)
    {f : Fault} (hbody : Response.ofBody service.depth body = .error f) :
    (service.request transport link parameters deleteWithBody x).1 =
      .error (.client (.endpoint url
        (if f.isA .value then .unreadable (.fault f) else .failed (.fault f)))) := by
  have hread : service.unmarshal body = .error (.fault f) :=
    Except.mapError_eq_error.mpr ⟨f, hbody, rfl⟩
  rw [request_of_sends hsends]
  simp only [Exchange.send, Exchange.note, hreply, interpret, interpretWith, hread,
    Except.mapError, ofRaised_of_isOfReading url (Response.ofBody_failsOnly _ body f hbody)]

/-- A body comes to no response exactly if there is nothing in it. Whatever else it comes to is a
response or a bad value, unless the body thwarts that by one of two faults. So a request whose
answer is malformed reports that it could not be read, with the bad value as the cause, exactly if
the body does not thwart it. -/
theorem bad_value_unless_thwarted (body : Body) :
    (∀ depth, Response.ofBody depth body = .ok none ↔ body.isBlank = true) ∧
      (∀ depth f, body.Thwarts depth f ↔
        Response.ofBody depth body = .error f ∧ f.isA .value = false) ∧
      ∀ {σ : Type} {service : Service} {transport : Transport σ} {link : Link}
        {parameters : Parameters} {deleteWithBody : Bool} {url : String} {call : Call}
        {x : Exchange σ}, service.Sends link parameters deleteWithBody url call →
        (transport.send call x.server).1 = .ok body →
        ∀ f, Response.ofBody service.depth body = .error f →
          let outcome := (service.request transport link parameters deleteWithBody x).1
          (¬body.Thwarts service.depth f →
              outcome = .error (.client (.endpoint url (.unreadable (.fault f))))) ∧
            (body.Thwarts service.depth f →
              outcome = .error (.client (.endpoint url (.failed (.fault f))))) := by
  refine ⟨fun _ => Response.ofBody_eq_none, fun _ _ => Response.thwarts_iff, ?_⟩
  intro σ service transport link parameters deleteWithBody url call x hsends hreply f hbody
  have houtcome := request_of_body hsends hreply hbody
  refine ⟨fun hfree => ?_, fun hthwarts => ?_⟩
  · have hvalue : f.isA .value = true := by
      by_contra hvalue
      exact hfree (Response.thwarts_iff.mpr ⟨hbody, by simpa using hvalue⟩)
    rw [houtcome, hvalue, if_pos rfl]
  · rw [houtcome, (Response.thwarts_iff.mp hthwarts).2]
    rfl

/-! ## Options that are a number -/

/-- The fault that a body comes to, if it comes to one. -/
def faultOf? (body : Body) : Option Fault :=
  match Response.ofBody 990 body with
  | .error f => some f
  | .ok _ => none

theorem ofBody_of_faultOf? {body : Body} {f : Fault} (h : faultOf? body = some f) :
    Response.ofBody 990 body = .error f := by
  unfold faultOf? at h
  split at h
  · rwa [← Option.some.inj h]
  · cases h

/-- The links of a root, one of which has a parameter with a number in the place of options. -/
def strayBody : Body :=
  .text ("\x7b\"type\":\"links\",\"data\":\x7b\"A\":\x7b\"href\":\"a\",\"required_params\":" ++
    "[\x7b\"name\":\"n\",\"valid_options\":5\x7d]\x7d\x7d\x7d")

/-- The same text without its end. -/
def openBody : Body := .text "\x7b\"type\":\"links\""

/-- A transport that answers every call with the same body. -/
def constantTransport (body : Body) : Transport Unit := ⟨fun _ s => (.ok body, s)⟩

/-- What a request for the root comes to if the answer is a body. -/
def rootOutcome (body : Body) : Except Raised (Option Response) :=
  ((Service.mk "https://b" "c" 990).request (constantTransport body) apiLink [] false
    ⟨(), [], []⟩).1

/-- The number is no bad value, and the request does not report the answer as unreadable. -/
theorem stray_options_escape :
    Response.ofBody 990 strayBody = .error (.notIterable "int") ∧
      Fault.isA (.notIterable "int") .value = false ∧
      rootOutcome strayBody =
        .error (.client (.endpoint "https://b/broker/rest/api"
          (.failed (.fault (.notIterable "int"))))) := by
  have hbody : Response.ofBody 990 strayBody = .error (.notIterable "int") :=
    ofBody_of_faultOf? (by decide +kernel)
  exact ⟨hbody, rfl, request_of_body sends_apiLink rfl hbody⟩

/-- A text without its end is a bad value, a number in the place of options is none. -/
theorem bad_value_openBody :
    openBody.isBlank = false ∧
      rootOutcome openBody =
        .error (.client (.endpoint "https://b/broker/rest/api"
          (.unreadable (.fault (.decode .notJson))))) ∧
      strayBody.Thwarts 990 (.notIterable "int") ∧
      rootOutcome strayBody =
        .error (.client (.endpoint "https://b/broker/rest/api"
          (.failed (.fault (.notIterable "int"))))) := by
  have hopen : Response.ofBody 990 openBody = .error (.decode .notJson) :=
    ofBody_of_faultOf? (by decide +kernel)
  have hstray : Response.ofBody 990 strayBody = .error (.notIterable "int") :=
    ofBody_of_faultOf? (by decide +kernel)
  obtain ⟨hnone, hthwarts, hrequest⟩ := bad_value_unless_thwarted openBody
  obtain ⟨-, hthwarts', hrequest'⟩ := bad_value_unless_thwarted strayBody
  refine ⟨?_, ?_, ?_, ?_⟩
  · rw [← Bool.not_eq_true, ← hnone 990, hopen]
    nofun
  · exact (hrequest sends_apiLink rfl _ hopen).1 fun h => nomatch ((hthwarts _ _).mp h).2
  · exact (hthwarts' _ _).mpr ⟨hstray, rfl⟩
  · exact (hrequest' sends_apiLink rfl _ hstray).2 ((hthwarts' _ _).mpr ⟨hstray, rfl⟩)

end Service

end BrokerClient

import BrokerClient.Proofs.Http.Refusal

/-!
# Faults as errors of the client

What is raised below a request, by the transport or by the reader of the body, belongs to several
classes at once: a timeout of the system is a failure of the system, an unusable URL is one and a
bad value as well, and a transport may make refusals that are timeouts of the system too. The
service asks for one class after the other. Main statement: a request whose parameters and address
are in order ends with exactly one error of the client then, that of the first class that applies:
the refusals before the failures of the system, these before the bad values, and within each the
special ones first. The error names the URL and what was raised. Only an error of the client that
belongs to none of these classes passes as it is.
-/
namespace BrokerClient

variable {σ : Type}

/-! ## Classes that include others -/

namespace FaultClass

/-- A special refusal of the HTTP client. -/
inductive IsRefusal : FaultClass → Prop
  | unauthorized : IsRefusal unauthorized
  | notFound : IsRefusal notFound
  | httpTimedOut : IsRefusal httpTimedOut
  | conflict : IsRefusal conflict

theorem IsRefusal.part {c : FaultClass} (h : c.IsRefusal) (x : FaultClass)
    (hc : x.lineage.contains c = true) : x.lineage.contains http = true := by
  cases h <;> cases x <;> first | rfl | cases hc

end FaultClass

namespace Raised

variable {r : Raised} {c : FaultClass}

/-- Only refusals have a status. -/
theorem status_eq_none (h : r.isA .http = false) : r.status = none := by
  have hforeign (f : ForeignFault) (hf : FaultClass.http.within f.classes = false) :
      f.refusalStatus = none := by simp [ForeignFault.refusalStatus, hf]
  cases r with
  | fault f =>
    cases f with
    | http fault =>
      obtain ⟨kind, _⟩ := fault
      cases kind <;> cases h
    | foreign f => exact hforeign f h
    | _ => rfl
  | client e =>
    cases e with
    | foreign f => exact hforeign f h
    | _ => rfl

end Raised

/-! ## The error that stands for what was raised -/

namespace ClientError

/-- The URL that an error names. -/
def url? : ClientError → Option String
  | invalidCredentials url _ | resourceNotFound url _ | requestTimedOut url _
  | missingParameter url _ | emptyParameter url _ | invalidOption url _ _ _ | rejected url _
  | endpoint url _ => some url
  | foreign _ | invalidRequest _ | linkNotFound _ _ | duplicate _ _ | conflicting _ => none

/-- What was raised belongs to a class that is translated. -/
def IsTranslated (r : Raised) : Prop :=
  r.isA .http = true ∨ r.isA .system = true ∨ r.isA .value = true ∨ ∃ f, r = .fault f

/-- An error of the client stands for what was raised below a request to a URL. -/
inductive StandsFor (url : String) (r : Raised) : ClientError → Prop
  | invalidCredentials (h : r.isA .unauthorized = true) :
      StandsFor url r (.invalidCredentials url (some r))
  | resourceNotFound (h : r.isA .notFound = true) (hunauthorized : r.isA .unauthorized = false) :
      StandsFor url r (.resourceNotFound url r)
  | refusedLate (h : r.isA .httpTimedOut = true) (hunauthorized : r.isA .unauthorized = false)
      (hnotFound : r.isA .notFound = false) : StandsFor url r (.requestTimedOut url r)
  | rejected (h : r.isA .conflict = true) (hunauthorized : r.isA .unauthorized = false)
      (hnotFound : r.isA .notFound = false) (htimedOut : r.isA .httpTimedOut = false) :
      StandsFor url r (.rejected url r)
  /-- Another refusal. It may be a failure of the system or a bad value too. -/
  | refused (h : r.isA .http = true) (hspecial : ∀ c : FaultClass, c.IsRefusal → r.isA c = false) :
      StandsFor url r (.endpoint url (.failed r))
  /-- A timeout of the system. -/
  | timedOut (h : r.isA .timedOut = true) (hhttp : r.isA .http = false) :
      StandsFor url r (.requestTimedOut url r)
  /-- Another failure of the system. It may be a bad value too. -/
  | failed (h : r.isA .system = true) (hhttp : r.isA .http = false)
      (htimedOut : r.isA .timedOut = false) : StandsFor url r (.endpoint url (.failed r))
  /-- Another bad value. -/
  | unreadable (h : r.isA .value = true) (hhttp : r.isA .http = false)
      (hsystem : r.isA .system = false) : StandsFor url r (.endpoint url (.unreadable r))
  /-- An error of the client. -/
  | unchanged {e : ClientError} (h : r = .client e) (hhttp : r.isA .http = false)
      (hsystem : r.isA .system = false) (hvalue : r.isA .value = false) : StandsFor url r e
  /-- Anything else. -/
  | unclassified {f : Fault} (h : r = .fault f) (hhttp : r.isA .http = false)
      (hsystem : r.isA .system = false) (hvalue : r.isA .value = false) :
      StandsFor url r (.endpoint url (.failed r))

/-- What an error that stands for something else says of it: the URL, what was raised itself, the
status of a refusal, and whether the answer could not be read. -/
structure Names (url : String) (r : Raised) (e : ClientError) : Prop where
  address : e.url? = some url
  cause : e.cause = some r
  status {url' : String} {reason : EndpointReason} (h : e = .endpoint url' reason) :
    reason.status = if r.isA .http then r.status else none
  message {url' : String} {reason : EndpointReason} (h : e = .endpoint url' reason)
    (describe : Fault → String) :
    e.message describe = "Request to " ++ url ++ " failed: " ++
      if r.isA .value && !r.isA .system && !r.isA .http then
        "invalid response: " ++ r.message describe
      else r.message describe

variable {url : String} {r : Raised} {e : ClientError}

/-- The first class that is asked for and applies decides. -/
theorem standsFor_ofRaised (url : String) (r : Raised) : (ofRaised url r).StandsFor url r := by
  unfold ofRaised
  split_ifs with hunauthorized hnotFound hrefusedLate hconflict hhttp htimedOut hsystem hvalue
  all_goals try simp only [Bool.not_eq_true] at *
  · exact .invalidCredentials hunauthorized
  · exact .resourceNotFound hnotFound hunauthorized
  · exact .refusedLate hrefusedLate hunauthorized hnotFound
  · exact .rejected hconflict hunauthorized hnotFound hrefusedLate
  · refine .refused hhttp fun c hc => ?_
    cases hc <;> assumption
  · exact .timedOut htimedOut hhttp
  · exact .failed hsystem hhttp htimedOut
  · exact .unreadable hvalue hhttp hsystem
  · cases r with
    | client e => exact .unchanged rfl hhttp hsystem hvalue
    | fault f => exact .unclassified rfl hhttp hsystem hvalue

theorem names_failed (url : String)
    (h : (r.isA .value && !r.isA .system && !r.isA .http) = false) :
    (endpoint url (.failed r)).Names url r where
  address := rfl
  cause := rfl
  status := by
    intro _ _ heq
    obtain ⟨-, rfl⟩ := endpoint.inj heq
    cases hhttp : r.isA .http with
    | true => rfl
    | false => exact Raised.status_eq_none hhttp
  message heq describe := by
    obtain ⟨-, rfl⟩ := endpoint.inj heq
    rw [h]
    rfl

theorem names_unreadable (url : String) (h : r.isA .value = true) (hhttp : r.isA .http = false)
    (hsystem : r.isA .system = false) : (endpoint url (.unreadable r)).Names url r where
  address := rfl
  cause := rfl
  status := by
    intro _ _ heq
    obtain ⟨-, rfl⟩ := endpoint.inj heq
    rw [hhttp]
    rfl
  message heq describe := by
    obtain ⟨-, rfl⟩ := endpoint.inj heq
    rw [h, hhttp, hsystem]
    rfl

/-- An error that stands for something else names it. -/
theorem StandsFor.names (h : e.StandsFor url r) (htranslated : IsTranslated r) : e.Names url r := by
  cases h with
  | invalidCredentials | resourceNotFound | refusedLate | rejected | timedOut =>
    exact ⟨rfl, rfl, nofun, nofun⟩
  | refused h => exact names_failed url (by simp [h])
  | failed h => exact names_failed url (by simp [h])
  | unreadable h hhttp hsystem => exact names_unreadable url h hhttp hsystem
  | unchanged h hhttp hsystem hvalue =>
    obtain h' | h' | h' | ⟨f, rfl⟩ := htranslated
    · rw [hhttp] at h'; cases h'
    · rw [hsystem] at h'; cases h'
    · rw [hvalue] at h'; cases h'
    · cases h
  | unclassified _ _ _ hvalue => exact names_failed url (by simp [hvalue])

end ClientError

namespace Service

variable {service : Service} {transport : Transport σ} {unmarshal : Unmarshaller} {link : Link}
  {parameters : Parameters} {deleteWithBody : Bool} {url : String} {call : Call}

/-- A refusal that is a timeout of the system too. -/
def refusedLate : Raised := .fault (.foreign ⟨"late", [.http, .timedOut], some 504⟩)

end Service

end BrokerClient

import BrokerClient.Proofs.Representation.Reading
import BrokerClient.Proofs.Request.Offence
import BrokerClient.Proofs.Service.Address
import BrokerClient.Proofs.Service.Translation

/-!
# Where a conflict comes from

An error that reports a conflict names either a name that is taken or the URL of a request, never
both. Neither the checks before a request nor the reader of an answer makes such an error. So if
the transport raises nothing but refusals, a conflict that a request reports is a refusal of the
server: the reply to the one call of the request.
-/
namespace BrokerClient

variable {σ : Type}

/-! ## Errors that report a conflict -/

namespace ClientError

/-- An error reports a conflict. -/
def isConflict : ClientError → Bool
  | duplicate .. | rejected .. | conflicting _ => true
  | _ => false

/-- The name that an error reports as taken. -/
def takenName? : ClientError → Option String
  | duplicate _ name => some name
  | _ => none

end ClientError

namespace Raised

/-- What is raised is no error of the client that reports a conflict. -/
def NoConflict (r : Raised) : Prop := ∀ e, r = .client e → e.isConflict = false

/-- A refusal that is an error of the client was made outside, so it does not report a conflict by
itself. -/
theorem noConflict_of_isA_http {r : Raised} (h : r.isA .http = true) : r.NoConflict := by
  rintro e rfl
  cases e with
  | foreign => rfl
  | _ => cases h

/-- What reports no conflict by itself is reported as one only if it is of the class of
conflicts. -/
theorem NoConflict.ofRaised {r : Raised} (hr : r.NoConflict) {url : String}
    (h : (ClientError.ofRaised url r).isConflict = true) :
    r.isA .conflict = true ∧ ClientError.ofRaised url r = .rejected url r := by
  have hstands := ClientError.standsFor_ofRaised url r
  generalize ClientError.ofRaised url r = e at h hstands ⊢
  cases hstands with
  | rejected hconflict => exact ⟨hconflict, rfl⟩
  | unchanged hclient =>
    rw [hr e hclient] at h
    cases h
  | _ => cases h

end Raised

namespace Request

theorem noConflict_of_offends {link : Link} {supplied : Parameters} {declaration : Declaration}
    {r : Raised} (h : Offends link supplied declaration r) : r.NoConflict := by
  rintro e rfl
  obtain rfl | rfl | ⟨_, rfl⟩ := h.client_eq <;> rfl

end Request

namespace Service

theorem noConflict_resolveUrl {service : Service} {address : String} {e : ClientError}
    (h : service.resolveUrl address = .error e) : e.isConflict = false := by
  obtain ⟨-, rfl⟩ := resolve_eq_error.mp h
  rfl

theorem Refuses.noConflict {service : Service} {link : Link} {parameters : Parameters}
    {r : Raised} (h : service.Refuses link parameters r) : r.NoConflict := by
  rintro e rfl
  cases h with
  | unchecked h =>
    obtain ⟨_, _, _, _, _, hoffends⟩ := Request.check_eq_error_iff.mp h
    exact Request.noConflict_of_offends hoffends e rfl
  | unresolved h => exact noConflict_resolveUrl h
  | unknown _ => rfl

end Service

/-- A transport raises nothing but refusals, of whatever class. -/
def Transport.OnlyRefuses (transport : Transport σ) : Prop :=
  ∀ call server r, (transport.send call server).1 = .error r → r.isA .http = true

namespace Service

variable {service : Service} {transport : Transport σ} {link : Link} {parameters : Parameters}
  {deleteWithBody : Bool}

theorem isConflict_interpret (htransport : transport.OnlyRefuses) {url : String} {call : Call}
    {server : σ} {e : ClientError}
    (h : service.interpret url (transport.send call server).1 = .error e)
    (he : e.isConflict = true) :
    ∃ r, (transport.send call server).1 = .error r ∧ r.isA .conflict = true ∧
      e = .rejected url r := by
  cases hreply : (transport.send call server).1 with
  | error r =>
    rw [hreply] at h
    obtain rfl : ClientError.ofRaised url r = e := Except.error.inj h
    have hrefusal := htransport call server r hreply
    obtain ⟨hconflict, hrejected⟩ := (Raised.noConflict_of_isA_http hrefusal).ofRaised he
    exact ⟨r, rfl, hconflict, hrejected⟩
  | ok body =>
    rw [hreply] at h
    obtain ⟨r, hread, rfl⟩ := Except.mapError_eq_error.mp h
    obtain ⟨f, hbody, rfl⟩ := Except.mapError_eq_error.mp hread
    have hfault : (Raised.fault f).NoConflict := nofun
    obtain ⟨hconflict, -⟩ := hfault.ofRaised he
    have hreading := Response.ofBody_failsOnly service.depth body f hbody
    cases f with
    | http | system | foreign => cases hreading
    | _ => cases hconflict

/-- A conflict that a request reports is what the server replied to its call. -/
theorem isConflict_request (htransport : transport.OnlyRefuses) {x : Exchange σ}
    {e : ClientError}
    (h : (service.request transport link parameters deleteWithBody x).1 = .error (.client e))
    (he : e.isConflict = true) :
    ∃ url call r, service.Sends link parameters deleteWithBody url call ∧
      (transport.send call x.server).1 = .error r ∧ r.isA .conflict = true ∧
      e = .rejected url r := by
  obtain ⟨url, call, hsends⟩ | ⟨r, y, hrequest, hrefuses, -⟩ :=
    request_cases service transport link parameters deleteWithBody x
  · rw [request_of_sends hsends] at h
    obtain ⟨e', hinterpret, he'⟩ := Except.mapError_eq_error.mp h
    obtain rfl := Raised.client.inj he'
    obtain ⟨r, hreply, hconflict, rfl⟩ := isConflict_interpret htransport hinterpret he
    exact ⟨url, call, r, hsends, hreply, hconflict, rfl⟩
  · rw [hrequest] at h
    rw [hrefuses.noConflict e (Except.error.inj h)] at he
    cases he

end Service

end BrokerClient

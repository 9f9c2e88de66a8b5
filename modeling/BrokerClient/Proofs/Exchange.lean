import BrokerClient.Service.Request
import Mathlib.Data.List.Induction

/-!
# Exchanges that continue each other

An exchange only ever grows: calls are sent and entries are logged. A request that follows a
link makes at most one call. It makes none if the link refuses the parameters, if its address
cannot be resolved, or if it has no known method; otherwise the reply decides the outcome.
-/
namespace BrokerClient

variable {σ : Type} {transport : Transport σ}

/-- The second exchange came out of the first one by calls and entries of the log. -/
inductive Exchange.Continues (transport : Transport σ) : Exchange σ → Exchange σ → Prop
  | refl (x : Exchange σ) : Continues transport x x
  | note {x y : Exchange σ} (h : Continues transport x y) (entry : LogEntry) :
      Continues transport x (y.note entry)
  | send {x y : Exchange σ} (h : Continues transport x y) (call : Call) :
      Continues transport x (y.send transport call).2

namespace Exchange.Continues

theorem trans {x y z : Exchange σ} (h : Continues transport x y) (h' : Continues transport y z) :
    Continues transport x z := by
  induction h' with
  | refl => exact h
  | note _ entry ih => exact ih.note entry
  | send _ call ih => exact ih.send call

/-- Calls are never taken back. -/
theorem calls_prefix {x y : Exchange σ} (h : Continues transport x y) : x.calls <+: y.calls := by
  induction h with
  | refl => exact List.prefix_rfl
  | note _ _ ih => exact ih
  | send _ call ih => exact ih.trans (List.prefix_append _ _)

end Exchange.Continues

/-- The second exchange came out of the first one by entries of the log alone. -/
def Exchange.Logs (x y : Exchange σ) : Prop := ∃ entries, y = { x with log := x.log ++ entries }

namespace Exchange.Logs

theorem refl (x : Exchange σ) : x.Logs x := ⟨[], by simp⟩

theorem note {x y : Exchange σ} (h : x.Logs y) (entry : LogEntry) : x.Logs (y.note entry) := by
  obtain ⟨entries, rfl⟩ := h
  exact ⟨entries ++ [entry], by simp [Exchange.note]⟩

theorem trans {x y z : Exchange σ} (h : x.Logs y) (h' : y.Logs z) : x.Logs z := by
  obtain ⟨entries, rfl⟩ := h
  obtain ⟨entries', rfl⟩ := h'
  exact ⟨entries ++ entries', by simp⟩

theorem server {x y : Exchange σ} (h : x.Logs y) : y.server = x.server := by
  obtain ⟨entries, rfl⟩ := h
  rfl

theorem calls {x y : Exchange σ} (h : x.Logs y) : y.calls = x.calls := by
  obtain ⟨entries, rfl⟩ := h
  rfl

theorem continues {x y : Exchange σ} (h : x.Logs y) : x.Continues transport y := by
  obtain ⟨entries, rfl⟩ := h
  induction entries using List.reverseRecOn with
  | nil => simpa using Exchange.Continues.refl x
  | append_singleton entries entry ih => simpa [Exchange.note] using ih.note entry

end Exchange.Logs

/-- Renaming an error takes no result away and adds none. -/
theorem Except.mapError_eq_ok {ε ε' α : Type} {f : ε → ε'} {outcome : Except ε α} {a : α} :
    outcome.mapError f = .ok a ↔ outcome = .ok a := by
  cases outcome <;> simp [Except.mapError]

theorem Except.mapError_eq_error {ε ε' α : Type} {f : ε → ε'} {outcome : Except ε α} {e' : ε'} :
    outcome.mapError f = .error e' ↔ ∃ e, outcome = .error e ∧ f e = e' := by
  cases outcome <;> simp [Except.mapError]

/-- The data of a response; no response has none. -/
def Response.payload (response : Option Response) : Payload :=
  (response.map (·.data)).getD .absent

namespace Service

/-- The call that a request to follow a link makes, if it makes one. -/
structure Sends (service : Service) (link : Link) (parameters : Parameters)
    (deleteWithBody : Bool) (url : String) (call : Call) : Prop where
  checked : Request.check link parameters = .ok ()
  resolved : service.resolveUrl link.href = .ok url
  formed : callFor link.method url parameters deleteWithBody = some call

/-- Why a request is refused before anything is sent. -/
inductive Refuses (service : Service) (link : Link) (parameters : Parameters) : Raised → Prop
  | unchecked {r : Raised} (h : Request.check link parameters = .error r) :
      Refuses service link parameters r
  | unresolved {e : ClientError} (h : service.resolveUrl link.href = .error e) :
      Refuses service link parameters (.client e)
  | unknown {word : String} (h : link.method = .other word) :
      Refuses service link parameters (.client (.invalidRequest (.unexpectedMethod link.method)))

variable {service : Service} {link : Link} {parameters : Parameters} {deleteWithBody : Bool}
  {url : String} {call : Call}

theorem prepare_eq_ok : service.prepare link parameters = .ok url ↔
    Request.check link parameters = .ok () ∧ service.resolveUrl link.href = .ok url := by
  unfold prepare
  cases Request.check link parameters with
  | error r => simp
  | ok _ => simp [Except.mapError_eq_ok]

/-- A request that cannot be prepared is refused. -/
theorem refuses_of_prepare {r : Raised} (h : service.prepare link parameters = .error r) :
    service.Refuses link parameters r := by
  unfold prepare at h
  cases hcheck : Request.check link parameters with
  | error r' =>
    rw [hcheck] at h
    obtain rfl := Except.error.inj h
    exact .unchecked hcheck
  | ok _ =>
    rw [hcheck] at h
    obtain ⟨e, hurl, rfl⟩ := Except.mapError_eq_error.mp h
    exact .unresolved hurl

theorem requestWith_of_sends (h : service.Sends link parameters deleteWithBody url call)
    (unmarshal : Unmarshaller) (x : Exchange σ) :
    service.requestWith unmarshal transport link parameters deleteWithBody x =
      let reply := (x.note (.debug (link.method.word ++ " " ++ url))).send transport call
      ((interpretWith unmarshal url reply.1).mapError .client, reply.2) := by
  simp only [requestWith, prepare_eq_ok.mpr ⟨h.checked, h.resolved⟩, dispatch, h.formed]

theorem request_of_sends (h : service.Sends link parameters deleteWithBody url call)
    (x : Exchange σ) :
    service.request transport link parameters deleteWithBody x =
      let reply := (x.note (.debug (link.method.word ++ " " ++ url))).send transport call
      ((service.interpret url reply.1).mapError .client, reply.2) :=
  requestWith_of_sends h service.unmarshal x

theorem callFor_eq_none {method : Method}
    (h : callFor method url parameters deleteWithBody = none) :
    ∃ word, method = .other word := by
  cases method with
  | other word => exact ⟨word, rfl⟩
  | _ => simp [callFor] at h

/-- A request either makes one call, or is refused for a reason of its own and leaves the
server alone. -/
theorem request_cases (service : Service) (transport : Transport σ) (link : Link)
    (parameters : Parameters) (deleteWithBody : Bool) (x : Exchange σ) :
    (∃ url call, service.Sends link parameters deleteWithBody url call) ∨
      ∃ r y, service.request transport link parameters deleteWithBody x = (.error r, y) ∧
        service.Refuses link parameters r ∧ (y = x ∨ ∃ entry, y = x.note entry) := by
  cases hprepare : service.prepare link parameters with
  | error r =>
    exact .inr ⟨r, x, by simp only [request, requestWith, hprepare], refuses_of_prepare hprepare,
      .inl rfl⟩
  | ok url =>
    obtain ⟨hcheck, hurl⟩ := prepare_eq_ok.mp hprepare
    cases hcall : callFor link.method url parameters deleteWithBody with
    | some call => exact .inl ⟨url, call, hcheck, hurl, hcall⟩
    | none =>
      obtain ⟨word, hword⟩ := callFor_eq_none hcall
      refine .inr ⟨.client (.invalidRequest (.unexpectedMethod link.method)),
        x.note (.debug (link.method.word ++ " " ++ url)), ?_, .unknown hword, .inr ⟨_, rfl⟩⟩
      simp only [request, requestWith, hprepare, dispatch, hcall]
      rfl

/-- A request that succeeds made one call, and the reply to it was the response. -/
theorem request_eq_ok {x y : Exchange σ} {response : Option Response} :
    service.request transport link parameters deleteWithBody x = (.ok response, y) ↔
      ∃ url call, service.Sends link parameters deleteWithBody url call ∧
        ∃ reply, (x.note (.debug (link.method.word ++ " " ++ url))).send transport call =
          (reply, y) ∧ service.interpret url reply = .ok response := by
  constructor
  · intro h
    obtain ⟨url, call, hsends⟩ | ⟨e, z, hrefuses, -⟩ :=
      request_cases service transport link parameters deleteWithBody x
    · rw [request_of_sends hsends] at h
      obtain ⟨hinterpret, hy⟩ := Prod.mk.inj h
      exact ⟨url, call, hsends, _, Prod.ext rfl hy, Except.mapError_eq_ok.mp hinterpret⟩
    · simp [hrefuses] at h
  · rintro ⟨url, call, hsends, reply, hsend, hinterpret⟩
    rw [request_of_sends hsends]
    simp only [hsend, hinterpret]
    rfl

theorem request_continues (service : Service) (transport : Transport σ) (link : Link)
    (parameters : Parameters) (deleteWithBody : Bool) (x : Exchange σ) :
    x.Continues transport (service.request transport link parameters deleteWithBody x).2 := by
  obtain ⟨url, call, h⟩ | ⟨e, y, h, -, rfl | ⟨entry, rfl⟩⟩ :=
    request_cases service transport link parameters deleteWithBody x
  · rw [request_of_sends h]
    exact ((Exchange.Continues.refl x).note _).send call
  · rw [h]
    exact .refl _
  · rw [h]
    exact (Exchange.Continues.refl x).note entry

/-- The call that a request makes, if it makes one. -/
def call? (service : Service) (link : Link) (parameters : Parameters) (deleteWithBody : Bool) :
    Option Call :=
  match Request.check link parameters, service.resolveUrl link.href with
  | .ok _, .ok url => callFor link.method url parameters deleteWithBody
  | _, _ => none

theorem call?_eq_some :
    service.call? link parameters deleteWithBody = some call ↔
      ∃ url, service.Sends link parameters deleteWithBody url call := by
  unfold call?
  constructor
  · intro h
    split at h
    · exact ⟨_, ‹_›, ‹_›, h⟩
    · cases h
  · rintro ⟨url, hchecked, hresolved, hformed⟩
    rw [hchecked, hresolved]
    exact hformed

/-- A call has the method of its link. -/
theorem eq_of_callFor {method : Method}
    (h : callFor method url parameters deleteWithBody = some call) :
    call.method = method ∧ call.url = url := by
  cases method <;> simp only [callFor, Option.some.injEq, reduceCtorEq] at h <;> subst h <;>
    exact ⟨rfl, rfl⟩

theorem calls_request (service : Service) (transport : Transport σ) (link : Link)
    (parameters : Parameters) (deleteWithBody : Bool) (x : Exchange σ) :
    (service.request transport link parameters deleteWithBody x).2.calls =
      x.calls ++ (service.call? link parameters deleteWithBody).toList := by
  cases hcall : service.call? link parameters deleteWithBody with
  | some call =>
    obtain ⟨url, hsends⟩ := call?_eq_some.mp hcall
    rw [request_of_sends hsends]
    rfl
  | none =>
    obtain ⟨url, call, hsends⟩ | ⟨e, y, hrefuses, -, hy⟩ :=
      request_cases service transport link parameters deleteWithBody x
    · rw [call?_eq_some.mpr ⟨url, hsends⟩] at hcall
      cases hcall
    · rw [hrefuses, Option.toList_none, List.append_nil]
      obtain rfl | ⟨entry, rfl⟩ := hy <;> rfl

/-- What a request comes to depends on the server alone, not on what was logged before. -/
theorem request_outcome_congr (service : Service) (link : Link) (parameters : Parameters)
    (deleteWithBody : Bool) {x y : Exchange σ} (h : x.server = y.server) :
    (service.request transport link parameters deleteWithBody x).1 =
      (service.request transport link parameters deleteWithBody y).1 := by
  simp only [request, requestWith, dispatch, Exchange.send, Exchange.note, h]
  split
  · rfl
  · split <;> rfl

end Service

end BrokerClient

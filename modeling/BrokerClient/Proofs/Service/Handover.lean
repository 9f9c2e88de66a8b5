import BrokerClient.Proofs.Exchange
import BrokerClient.Proofs.Http.Form
import BrokerClient.Proofs.Request.Offence
import BrokerClient.Proofs.Service.Address
import BrokerClient.Service.Handover

/-!
# The one call of a request

A request comes to the transport once at most, and not at all exactly if it is refused for what it
is: for its parameters, its address or its method. What the transport gets besides the URL is a
copy of the caller's mapping. It may write to the copy and change the values that the copy refers
to, but the mappings of the caller give the same names to the same values as before, and other
values are out of reach.
-/
namespace BrokerClient

variable {σ : Type}

/-- An error refuses a request for what it is. -/
def ClientError.isRefusal : ClientError → Bool
  | invalidRequest _ | linkNotFound .. => true
  | missingParameter .. | emptyParameter .. | invalidOption .. => true
  | _ => false

theorem Request.Offends.isRefusal {link : Link} {supplied : Parameters}
    {declaration : Declaration} {e : ClientError}
    (h : Offends link supplied declaration (.client e)) : e.isRefusal = true := by
  obtain rfl | rfl | ⟨_, rfl⟩ := h.client_eq <;> rfl

namespace Service

variable {service : Service} {transport : Transport σ} {link : Link} {parameters : Parameters}
  {deleteWithBody : Bool} {url : String} {call : Call} {x : Exchange σ}

/-- What is refused for what it is, is refused by an error of the client, unless a value cannot be
written that is to be checked. -/
theorem Refuses.cases_isRefusal {r : Raised} (h : service.Refuses link parameters r) :
    (∃ e : ClientError, r = .client e ∧ e.isRefusal = true) ∨
      r = .fault .unwritable ∧ Request.check link parameters = .error r := by
  cases h with
  | unchecked h =>
    obtain ⟨_, _, _, _, _, hoffends⟩ := Request.check_eq_error_iff.mp h
    cases r with
    | client e => exact .inl ⟨e, rfl, hoffends.isRefusal⟩
    | fault f =>
      obtain ⟨rfl, -⟩ := hoffends.fault_eq
      exact .inr ⟨rfl, h⟩
  | unresolved h =>
    obtain ⟨-, rfl⟩ := resolve_eq_error.mp h
    exact .inl ⟨_, rfl, rfl⟩
  | unknown _ => exact .inl ⟨_, rfl, rfl⟩

/-- A link cannot be followed with parameters. -/
inductive Hinders (link : Link) (parameters : Parameters) : Prop
  | parameters {r : Raised} (h : Request.check link parameters = .error r)
  | address (h : link.href = "")
  | method (h : link.method.isKnown = false)

theorem Sends.not_hinders (h : service.Sends link parameters deleteWithBody url call) :
    ¬Hinders link parameters := by
  obtain ⟨hchecked, hresolved, hformed⟩ := h
  rintro (hcheck | haddress | hmethod)
  · rw [hchecked] at hcheck
    cases hcheck
  · rw [haddress] at hresolved
    cases hresolved
  · cases hm : link.method <;> rw [hm] at hmethod hformed <;> contradiction

end Service

/-! ## The caller's parameters -/

namespace Store

/-- A store came out of another one by writing to the mapping that was made next. Those that were
there before are as they were, and so are the values that cannot be reached from it. -/
structure Keeps (reach : Address → Prop) (s s' : Store) : Prop where
  mappings : ∀ a < s.mappings.next, s'.mappings.read? a = s.mappings.read? a
  values : ∀ a < s.values.next, ¬reach a → s'.values.read? a = s.values.read? a
  grown : s.values.next ≤ s'.values.next
  /-- What the mapping refers to can be reached, or is new. -/
  reached : ∀ entries, s'.mappings.read? s.mappings.next = some entries →
    ∀ pair ∈ entries, reach pair.2 ∨ s.values.next ≤ pair.2

variable {reach : Address → Prop} {s s' : Store}

/-- To change the names of the mapping leaves all else as it is. -/
theorem Keeps.modify (h : s.Keeps reach s') (f : Mapping Address → Mapping Address)
    (hf : ∀ entries, ∀ pair ∈ f entries, pair ∈ entries ∨ reach pair.2 ∨ s.values.next ≤ pair.2) :
    s.Keeps reach { s' with mappings := s'.mappings.modify s.mappings.next f } where
  mappings a ha := by
    rw [Memory.read?_modify_of_ne (Nat.ne_of_lt ha), h.mappings a ha]
  values := h.values
  grown := h.grown
  reached entries hentries pair hpair := by
    rw [Memory.read?_modify_self] at hentries
    obtain ⟨before, hbefore, rfl⟩ := Option.map_eq_some_iff.mp hentries
    exact (hf before pair hpair).elim (h.reached before hbefore pair) id

theorem Keeps.makeValue (h : s.Keeps reach s') (v : Value) :
    s.Keeps reach (s'.makeValue v).2 where
  mappings := h.mappings
  values a ha hreach :=
    (Memory.read?_make (Nat.lt_of_lt_of_le ha h.grown) v).trans (h.values a ha hreach)
  grown := by
    have hnext : (s'.makeValue v).2.values.next = s'.values.next + 1 := s'.values.next_make v
    rw [hnext]
    exact Nat.le_succ_of_le h.grown
  reached := h.reached

/-- A write to the mapping reaches no further than the mapping. -/
theorem Keeps.write (h : s.Keeps reach s') (w : Write) :
    s.Keeps reach (s'.write s.mappings.next w) := by
  cases w with
  | assign name v =>
    refine (h.makeValue v).modify _ fun entries pair hpair => ?_
    rcases Mapping.mem_put hpair with hmem | rfl
    · exact .inl hmem
    · exact .inr (.inr h.grown)
  | drop name =>
    exact h.modify _ fun entries pair hpair => .inl (List.mem_filter.mp hpair).1
  | change name v =>
    simp only [Store.write]
    split
    · rename_i a ha
      refine ⟨h.mappings, fun b hb hreach => ?_, ?_, h.reached⟩
      · -- The value that is changed can be reached or is new, so it is another one.
        have hne : b ≠ a := by
          rintro rfl
          cases hread : s'.mappings.read? s.mappings.next with
          | none => simp [Store.entries, hread] at ha
          | some entries =>
            rw [Store.entries, hread, Option.getD_some] at ha
            rcases h.reached entries hread _ (Mapping.mem_of_find? ha) with hreached | hnew
            · exact hreach hreached
            · exact Nat.not_le_of_lt hb hnew
        exact (Memory.read?_modify_of_ne hne _ _).trans (h.values b hb hreach)
      · simpa using h.grown
    · exact h

end Store

namespace Service

variable {service : Service} {transport : Transport σ} {link : Link} {parameters : Parameters}
  {deleteWithBody : Bool} {url : String} {call : Call} {x : Exchange σ}

/-- What becomes of the values and the mappings of a caller. -/
structure Leaves (writes : Call → σ → List Write) (s s' : Store) (mapping : Option Address) :
    Prop where
  /-- Every mapping gives the same names to the same values as before. -/
  mappings : ∀ a entries, s.mappings.read? a = some entries → s'.mappings.read? a = some entries
  /-- Values that the mapping does not refer to are as they were. -/
  others : ∀ a v, s.values.read? a = some v → (∀ name, (name, a) ∉ s.given mapping) →
    s'.values.read? a = some v
  /-- So are all values, if the transport does not change them where they are kept. -/
  values : (∀ call server, ∀ w ∈ writes call server, w.isChange = false) →
    ∀ a v, s.values.read? a = some v → s'.values.read? a = some v

theorem Leaves.refl (writes : Call → σ → List Write) (s : Store) (mapping : Option Address) :
    Leaves writes s s mapping :=
  ⟨fun _ _ => id, fun _ _ h _ => h, fun _ _ _ => id⟩

/-- A transport that takes a name away from what it is handed and changes the value of another one.
The caller keeps both names, and sees the change of the value. -/
example :
    let (mapping, s) := (Store.mk .empty .empty).ofParameters
      [("name", .str "a"), ("note", .str "b")]
    let s' := ((Service.mk "https://b" "c" 990).requestIn (plainHttp.transport emptySession)
      (fun _ _ => [.drop "name", .change "note" (.str "x")]) addLink s (some mapping) false
      ⟨(), [], []⟩).2
    s'.parameters mapping = [("name", .str "a"), ("note", .str "x")] ∧
      s'.parameters (mapping + 1) = [("note", .str "x")] := ⟨rfl, rfl⟩

end Service

end BrokerClient

import BrokerClient.Record.Field
import Mathlib.Data.List.Forall2

/-!
# What decoders accept

A record is accepted exactly if each of its fields is, and a list or a mapping exactly if each of
its members is. The members of what comes out stand in the order of the members that went in.
-/
namespace BrokerClient.Record

variable {α β : Type}

namespace Verdict

theorem map_eq_accepted {f : α → β} {v : Verdict α} {b : β} :
    f <$> v = accepted b ↔ ∃ a, v = accepted a ∧ f a = b := by
  cases v <;> simp [Functor.map, map]

theorem seq_eq_accepted {f : Verdict (α → β)} {v : Verdict α} {b : β} :
    f <*> v = accepted b ↔ ∃ g a, f = accepted g ∧ v = accepted a ∧ g a = b :=
  join_eq_accepted

/-- What is made of five fields is accepted if each of them is. -/
theorem seq₅_eq_accepted {α₁ α₂ α₃ α₄ α₅ : Type} {f : α₁ → α₂ → α₃ → α₄ → α₅ → β} {v₁ : Verdict α₁}
    {v₂ : Verdict α₂} {v₃ : Verdict α₃} {v₄ : Verdict α₄} {v₅ : Verdict α₅} {b : β} :
    f <$> v₁ <*> v₂ <*> v₃ <*> v₄ <*> v₅ = accepted b ↔
      ∃ a₁ a₂ a₃ a₄ a₅, v₁ = accepted a₁ ∧ v₂ = accepted a₂ ∧ v₃ = accepted a₃ ∧
        v₄ = accepted a₄ ∧ v₅ = accepted a₅ ∧ f a₁ a₂ a₃ a₄ a₅ = b := by
  simp only [seq_eq_accepted, map_eq_accepted]
  constructor
  · rintro ⟨_, a₅, ⟨_, a₄, ⟨_, a₃, ⟨_, a₂, ⟨a₁, h₁, rfl⟩, h₂, rfl⟩, h₃, rfl⟩, h₄, rfl⟩, h₅, rfl⟩
    exact ⟨a₁, a₂, a₃, a₄, a₅, h₁, h₂, h₃, h₄, h₅, rfl⟩
  · rintro ⟨a₁, a₂, a₃, a₄, a₅, h₁, h₂, h₃, h₄, h₅, rfl⟩
    exact ⟨_, a₅, ⟨_, a₄, ⟨_, a₃, ⟨_, a₂, ⟨a₁, h₁, rfl⟩, h₂, rfl⟩, h₃, rfl⟩, h₄, rfl⟩, h₅, rfl⟩

theorem eachFrom_eq_accepted {decode : Value → Verdict α} {index : Nat} {items : List Value}
    {as : List α} :
    eachFrom decode index items = accepted as ↔
      List.Forall₂ (fun v a => decode v = accepted a) items as := by
  induction items generalizing index as with
  | nil => simp [eachFrom, eq_comm]
  | cons v rest ih =>
    simp only [eachFrom, join_eq_accepted, within_eq_accepted, ih, List.forall₂_cons_left_iff]
    constructor
    · rintro ⟨a, as, hv, hrest, rfl⟩
      exact ⟨a, as, hv, hrest, rfl⟩
    · rintro ⟨a, as, hv, hrest, rfl⟩
      exact ⟨a, as, hv, hrest, rfl⟩

theorem each_eq_accepted {decode : Value → Verdict α} {items : List Value} {as : List α} :
    each decode items = accepted as ↔
      List.Forall₂ (fun v a => decode v = accepted a) items as :=
  eachFrom_eq_accepted

theorem eachPair_eq_accepted {decode : String → Value → Verdict α} {pairs : Mapping Value}
    {entries : Mapping α} :
    eachPair decode pairs = accepted entries ↔
      List.Forall₂ (fun pair entry => entry.1 = pair.1 ∧ decode pair.1 pair.2 = accepted entry.2)
        pairs entries := by
  induction pairs generalizing entries with
  | nil => simp [eachPair, eq_comm]
  | cons pair rest ih =>
    obtain ⟨name, v⟩ := pair
    simp only [eachPair, join_eq_accepted, within_eq_accepted, ih, List.forall₂_cons_left_iff]
    constructor
    · rintro ⟨a, entries, hv, hrest, rfl⟩
      exact ⟨(name, a), entries, ⟨rfl, hv⟩, hrest, rfl⟩
    · rintro ⟨⟨_, a⟩, entries, ⟨rfl, hv⟩, hrest, rfl⟩
      exact ⟨a, entries, hv, hrest, rfl⟩

end Verdict

open Verdict

variable {name other : String} {default a : α} {decode : Value → Verdict α}
  {fields : Mapping Value} {v : Value}

theorem required_eq_accepted :
    required name decode fields = accepted a ↔
      ∃ v, fields.find? name = some v ∧ decode v = accepted a := by
  rw [required, within_eq_accepted]
  cases fields.find? name <;> simp [problem]

theorem defaulted_eq_accepted :
    defaulted name default decode fields = accepted a ↔
      (∃ v, fields.find? name = some v ∧ decode v = accepted a) ∨
        fields.find? name = none ∧ a = default := by
  rw [defaulted]
  cases fields.find? name with
  | none => simp [eq_comm]
  | some v => simp [within_eq_accepted]

/-- Where null stands for the default, a field that is absent is like one that is null. -/
theorem defaulted_eq_accepted_of_null (hnull : decode .null = accepted default) :
    defaulted name default decode fields = accepted a ↔
      decode ((fields.find? name).getD .null) = accepted a := by
  rw [defaulted_eq_accepted]
  cases fields.find? name <;> simp [hnull, eq_comm]

theorem nullable_eq_accepted {a : Option α} :
    nullable decode v = accepted a ↔
      v = .null ∧ a = none ∨ v ≠ .null ∧ ∃ b, decode v = accepted b ∧ a = some b := by
  cases v
  case null => simp [nullable, eq_comm]
  all_goals
    simp only [nullable, reduceCtorEq, false_and, ne_eq, not_false_eq_true, true_and, false_or]
    exact map_eq_accepted.trans (by simp only [eq_comm])

/-- A field does not depend on what is written under other names. -/
theorem required_put (h : name ≠ other) :
    required name decode (fields.put other v) = required name decode fields := by
  simp only [required, Mapping.find?_put, if_neg h]

theorem defaulted_put (h : name ≠ other) :
    defaulted name default decode (fields.put other v) = defaulted name default decode fields := by
  simp only [defaulted, Mapping.find?_put, if_neg h]

end BrokerClient.Record

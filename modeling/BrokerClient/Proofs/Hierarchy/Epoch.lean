import BrokerClient.Proofs.Hierarchy.Contents
import BrokerClient.Proofs.Hierarchy.Destruction

/-!
# One fetch for each epoch

A place is fetched only while it is not filled, and it is filled exactly if the fetch succeeds. It
stays filled, with however little, until its owner is refreshed, which fetches nothing for it. So
between two successful fetches of a place its owner was refreshed, and what is first read after a
refresh is what was fetched then.
-/
namespace BrokerClient.Hierarchy.Client

open Hierarchy.Action

variable {σ : Type} {client : Client σ} {w w' w₁ : World σ} {i j : Inquiry σ} {op : Op}
  {slot : Slot}

/-- An operation fetches data for a place. -/
def Fetches (client : Client σ) (op : Op) (w : World σ) (slot : Slot) (data : Data) : Prop :=
  ∃ i ∈ client.inquiries op w, i.slot? = some slot ∧ client.data? i = some data

/-- In the course of operations a place is not fetched. -/
def Spares (client : Client σ) (slot : Slot) (ops : List Op) (w : World σ) : Prop :=
  ∀ before op after, ops = before ++ op :: after →
    ∀ data, ¬client.Fetches op (client.run before w).2 slot data

theorem Spares.nil : client.Spares slot [] w := by
  intro before op after h
  simp at h

theorem Spares.head {rest : List Op} (h : client.Spares slot (op :: rest) w) (data : Data) :
    ¬client.Fetches op w slot data :=
  h [] op rest rfl data

theorem Spares.tail {rest : List Op} (h : client.Spares slot (op :: rest) w) :
    client.Spares slot rest (client.step op w).2 := by
  rintro before op' after rfl data
  exact h (op :: before) op' after rfl data

end BrokerClient.Hierarchy.Client

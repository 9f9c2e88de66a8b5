import BrokerClient.Lazy.Session
import BrokerClient.Service.Script

/-!
# Scripted sources

A scripted source gives batches of texts, some of which break off with an error. Each text becomes
an item of its own: two items are the same only if they come from the same place of the same batch
or change.
-/
namespace BrokerClient.Lazy

/-- Where an item comes from. -/
inductive Origin where
  | batch (number position : Nat)
  | change (number position : Nat)
  /-- From nowhere a collection could have it from. -/
  | nowhere
  deriving DecidableEq, Repr

/-- A text that is told apart from equal texts by its origin. -/
structure Item where
  origin : Origin
  text : String
  deriving DecidableEq, Repr

/-- Texts as items. -/
def Item.ofTexts (origin : Nat → Origin) (texts : List String) : List Item :=
  texts.zipIdx.map fun (text, position) => ⟨origin position, text⟩

/-- The texts of a batch, and the error after them if there is one. -/
structure Batch (ε : Type) where
  texts : List String
  failure : Option ε

/-- The batches to come and the number of the next one. -/
structure Script (ε : Type) where
  batches : List (Batch ε)
  number : Nat

/-- The source with a script. Without any batch it gives no items. -/
def Source.scripted {ε : Type} (resets : ε → Bool) : Source (Script ε) ε Item where
  next script :=
    match nextOf? script.batches with
    | none => (⟨[], none⟩, script)
    | some (batch, rest) =>
      (⟨Item.ofTexts (.batch script.number) batch.texts, batch.failure⟩, ⟨rest, script.number + 1⟩)
  resets := resets

end BrokerClient.Lazy

import BrokerClient.Lazy.Session

/-!
# The reference machine of a lazy collection

The machine holds nothing or a list, and counts the calls of its loader. A loader gives items one
by one and may break off with an error after some of them; items of such a delivery are never held.
Some errors do not reset the collection: after one of these the machine counts as interrupted until
it is loaded or invalidated, which makes a difference to the status that is seen and to nothing
else. Main statement: a session with a lazy collection runs as the machine does and shows what the
machine holds, and what it holds is the last whole delivery with everything that was done to it
since.
-/
namespace BrokerClient.Lazy

variable {τ ε α : Type}

/-- The operations that need the items. -/
def Op.asks : Op ε α → Bool
  | .get | .mutate _ | .locked true => true
  | .remove _ | .invalidate | .locked false => false

/-! ## Changes of a list -/

/-- Edits that find their positions, one after the other. -/
inductive Edited : List (Edit α) → List α → List α → Prop
  | nil {items : List α} : Edited [] items items
  | append {item : α} {rest : List (Edit α)} {items items' : List α}
      (h : Edited rest (items ++ [item]) items') : Edited (.append item :: rest) items items'
  | delete {position : Int} {item : α} {rest : List (Edit α)} {before after items' : List α}
      (hposition : position = before.length ∨ position = -(after.length + 1))
      (h : Edited rest (before ++ after) items') :
      Edited (.delete position :: rest) (before ++ item :: after) items'

/-- A list has no item at a position, whichever end it is counted from. -/
def Lacks (items : List α) (position : Int) : Prop :=
  position < -items.length ∨ items.length ≤ position

/-- A change leaves a list: its edits up to the first that finds no item are done, and it ends
with their error, or else with its own. -/
inductive Change.Leaves (change : Change ε α) (items items' : List α) :
    Except (Failure ε) Unit → Prop
  | stopped {done rest : List (Edit α)} {position : Int}
      (hedits : change.edits = done ++ .delete position :: rest) (hdone : Edited done items items')
      (hlacks : Lacks items' position) : Leaves change items items' (.error .noSuchPosition)
  | raised {e : ε} (hdone : Edited change.edits items items') (hfailure : change.failure = some e) :
      Leaves change items items' (.error (.raised e))
  | finished (hdone : Edited change.edits items items') (hfailure : change.failure = none) :
      Leaves change items items' (.ok ())

/-- What an operation makes of a list and answers. An operation in a lock also tells what it
found. -/
inductive Op.Turns (found : Status) :
    Op ε α → List α → List α → Except (Failure ε) (Answer (List α)) → Prop
  | get {items : List α} : Turns found .get items items (.ok (.items items))
  | mutate {change : Change ε α} {items items' : List α} {ending : Except (Failure ε) Unit}
      (h : change.Leaves items items' ending) :
      Turns found (.mutate change) items items' (ending.map fun _ => .done)
  | strike {item : α} {before after : List α} (h : item ∉ before) :
      Turns found (.remove item) (before ++ item :: after) (before ++ after) (.ok (.removed true))
  | spare {item : α} {items : List α} (h : item ∉ items) :
      Turns found (.remove item) items items (.ok (.removed false))
  | watched {items : List α} :
      Turns found (.locked false) items items (.ok (.locked found none))
  | locked {items : List α} :
      Turns found (.locked true) items items (.ok (.locked found (some items)))

/-- What is held, the state of the loader, how often it was called, and whether it broke off with an
error that does not reset the collection. -/
structure Machine (τ α : Type) where
  contents : Option (List α)
  source : τ
  calls : Nat
  interrupted : Bool

namespace Machine

/-- Holds nothing, and never called its loader. -/
def start (source : τ) : Machine τ α := ⟨none, source, 0, false⟩

/-- The status of a machine that holds nothing. -/
def idle (interrupted : Bool) : Status := if interrupted then .loading else .unloaded

/-- The cell of a collection that holds what the machine holds. -/
def cell (m : Machine τ α) : Cell α :=
  match m.contents with
  | some items => .loaded items
  | none => if m.interrupted then .loading else .unloaded

end Machine

namespace Session

/-- A session shows what the machine holds, and at each of the machine's calls its loader saw a
loading collection. -/
structure Shows (s : Session τ α) (m : Machine τ α) : Prop where
  cell : s.collection.cell = m.cell
  source : s.source = m.source
  seen : s.seen = List.replicate m.calls .loading

namespace Shows

variable {s : Session τ α} {m : Machine τ α}

theorem start (label : String) (source : τ) :
    (Session.start label source).Shows (Machine.start source : Machine τ α) :=
  ⟨rfl, rfl, rfl⟩

theorem items? (h : s.Shows m) : s.collection.cell.items? = m.contents := by
  rw [h.cell, Machine.cell]
  cases m.contents with
  | some items => rfl
  | none => cases m.interrupted <;> rfl

end Shows

/-! ## Loading -/

section Loading

variable {loader : Source τ ε α} {s : Session τ α} {t t' : τ} {n : Nat} {b : Bool}

/-- What the loader of a collection leaves of a session, in which it sees the collection loading. -/
def drawn (loader : Source τ ε α) (s : Session τ α) : Session τ α :=
  { place.loading s with source := (loader.next s.source).2, seen := s.seen ++ [.loading] }

/-- The loader of a collection without items is called once. -/
theorem load_of_none (loader : Source τ ε α) (h : s.collection.cell.items? = none) :
    s.load loader = match (loader.next s.source).1.read with
      | .ok items => (.ok items, place.fill (.loaded items) (s.drawn loader))
      | .error e => (.error e,
          if loader.resetsOn e then place.fill .unloaded (s.drawn loader) else s.drawn loader) := by
  have hdraw : draw loader (place.loading s) =
      ((loader.next s.source).1.read, s.drawn loader) := rfl
  rw [load, loadWith_of_items?_eq_none h, hdraw]
  cases (loader.next s.source).1.read <;> rfl

end Loading

/-! ## Steps -/

section Steps

variable [DecidableEq α] {loader : Source τ ε α} {s s₁ : Session τ α} {op : Op ε α} {t : τ}
  {n : Nat} {b : Bool}

end Steps

end Session

end BrokerClient.Lazy

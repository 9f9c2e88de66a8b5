import BrokerClient.Lazy.Place

/-!
# Sessions with a lazy collection

A session is a lazy collection together with the source that its loader draws on. A loader
gives items one by one and may break off with an error after some of them.
Operations are carried out one after the other. A change of the items is a list of
appends and deletions that may end with an error; what was done before the error stays
done.
-/
namespace BrokerClient.Lazy

/-- A change of a list of items. A negative position counts from the end. -/
inductive Edit (α : Type) where
  | append (item : α)
  | delete (position : Int)

/-- Edits in order, and the error after them if there is one. -/
structure Change (ε α : Type) where
  edits : List (Edit α)
  failure : Option ε

/-- The operations on a lazy collection. Inside a lock a collection may be asked for its
items or left alone. -/
inductive Op (ε α : Type) where
  | get
  | mutate (change : Change ε α)
  | remove (item : α)
  | invalidate
  | locked (asking : Bool)

/-- What an operation answers, with a view of the items where it is asked for them. -/
inductive Answer (ν : Type) where
  | done
  | items (view : ν)
  | removed (found : Bool)
  | locked (status : Status) (view : Option ν)

/-- Why an operation fails: the loader or a change raised an error, or a position is
not there. -/
inductive Failure (ε : Type) where
  | raised (e : ε)
  | noSuchPosition

/-- What one call of a loader gives: items, and the error they break off with if they do. -/
structure Delivery (ε α : Type) where
  elements : List α
  failure : Option ε

/-- What a collection is loaded from: a source with a state of its own, and which of its errors
reset the collection. -/
structure Source (τ ε α : Type) where
  next : τ → Delivery ε α × τ
  resets : ε → Bool

/-- A lazy collection, the state of its source, what the loader saw of the collection at
each load, and the log. -/
structure Session (τ α : Type) where
  collection : Collection α
  source : τ
  seen : List Status
  log : List LogEntry

variable {τ ε α : Type}

/-- A delivery read to its end. -/
def Delivery.read (delivery : Delivery ε α) : Except (Failure ε) (List α) :=
  match delivery.failure with
  | none => .ok delivery.elements
  | some e => .error (.raised e)

/-- A failure to load resets the collection. -/
def Source.resetsOn (source : Source τ ε α) : Failure ε → Bool
  | .raised e => source.resets e
  | .noSuchPosition => true

/-- The index of a position in a list of a length. -/
def position? (length : Nat) (position : Int) : Option Nat :=
  let index := if position < 0 then position + length else position
  if 0 ≤ index && index < length then some index.toNat else none

/-- The items after an edit; none if a position is not there. -/
def Edit.apply? (items : List α) : Edit α → Option (List α)
  | .append item => some (items ++ [item])
  | .delete position => (position? items.length position).map items.eraseIdx

/-- The items after edits, up to the first that fails. -/
def applyEdits (items : List α) : List (Edit α) → List α × Bool
  | [] => (items, true)
  | edit :: rest =>
    match edit.apply? items with
    | some items => applyEdits items rest
    | none => (items, false)

/-- The items after a change, and how the change ended. -/
def Change.apply (change : Change ε α) (items : List α) : List α × Except (Failure ε) Unit :=
  match applyEdits items change.edits, change.failure with
  | (items, false), _ => (items, .error .noSuchPosition)
  | (items, true), some e => (items, .error (.raised e))
  | (items, true), none => (items, .ok ())

namespace Session

/-- A session in which nothing was done yet. -/
def start (label : String) (source : τ) : Session τ α := ⟨.fresh label, source, [], []⟩

/-- The place of the collection. -/
def place : Place (Session τ α) α where
  look s := s.collection
  fill cell s := { s with collection := { s.collection with cell := cell } }
  note entry s := { s with log := s.log ++ [entry] }

/-- Draws on the source. -/
def draw (source : Source τ ε α) (s : Session τ α) :
    Except (Failure ε) (List α) × Session τ α :=
  let (delivery, rest) := source.next s.source
  (delivery.read, { s with source := rest, seen := s.seen ++ [s.collection.cell.status] })

/-- The items of the collection, which is loaded if it is not yet. -/
def load (source : Source τ ε α) (s : Session τ α) : Except (Failure ε) (List α) × Session τ α :=
  loadWith source.resetsOn place (draw source) s

/-- Carries out an operation. -/
def step [DecidableEq α] (source : Source τ ε α) (s : Session τ α) :
    Op ε α → Except (Failure ε) (Answer (List α)) × Session τ α
  | .get =>
    match load source s with
    | (.ok items, s) => (.ok (.items items), s)
    | (.error e, s) => (.error e, s)
  | .mutate change =>
    match load source s with
    | (.ok items, s) =>
      let (items, ending) := change.apply items
      (ending.map fun _ => .done, place.fill (.loaded items) s)
    | (.error e, s) => (.error e, s)
  | .remove item =>
    let (found, s) := Lazy.remove place item s
    (.ok (.removed found), s)
  | .invalidate => (.ok .done, Lazy.invalidate place s)
  | .locked false => (.ok (.locked s.collection.cell.status none), s)
  | .locked true =>
    let status := s.collection.cell.status
    match load source s with
    | (.ok items, s) => (.ok (.locked status (some items)), s)
    | (.error e, s) => (.error e, s)

/-- Carries out operations one after the other; a failure does not end the session. -/
def run [DecidableEq α] (source : Source τ ε α) (s : Session τ α) :
    List (Op ε α) → List (Except (Failure ε) (Answer (List α))) × Session τ α
  | [] => ([], s)
  | op :: rest =>
    let (answer, s) := step source s op
    let (answers, s) := run source s rest
    (answer :: answers, s)

end Session

end BrokerClient.Lazy

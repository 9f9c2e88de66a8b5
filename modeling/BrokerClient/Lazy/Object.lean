import BrokerClient.Lazy.Session
import BrokerClient.Memory

/-!
# Lazy collections as objects

A lazy collection refers to its list, if it has one, and has a status besides. A load makes a new
list and appends what the loader gives, one item after the other; only a list that is complete
becomes that of the collection. From then on the list is changed in place. Whoever asks for the
items gets a view of them, which is an object of its own.
-/
namespace BrokerClient.Lazy

/-- A lazy collection under its label: where its list is, if it has one, and how far it is. -/
structure Object where
  label : String
  items : Option Address
  status : Status
  deriving DecidableEq, Repr

/-- A lazy collection among the lists and views that were made, the state of its source, what the
loader saw of the collection at each load, and the log. -/
structure ObjectSession (τ α : Type) where
  object : Object
  memory : Memory (List α)
  source : τ
  seen : List Status
  log : List LogEntry

namespace ObjectSession

variable {τ ε α : Type}

/-- A session in which nothing was done yet. -/
def start (label : String) (source : τ) : ObjectSession τ α :=
  ⟨⟨label, none, .unloaded⟩, .empty, source, [], []⟩

/-- Gives the collection a status. -/
def mark (status : Status) (s : ObjectSession τ α) : ObjectSession τ α :=
  { s with object := { s.object with status := status } }

/-- Makes a list that of the collection. -/
def adopt (list : Address) (s : ObjectSession τ α) : ObjectSession τ α :=
  { s with object := { s.object with items := some list } }

/-- Adds an entry to the log. -/
def note (entry : LogEntry) (s : ObjectSession τ α) : ObjectSession τ α :=
  { s with log := s.log ++ [entry] }

/-- Appends items to a list, one after the other. -/
def gather (list : Address) (memory : Memory (List α)) (elements : List α) : Memory (List α) :=
  elements.foldl (fun memory element => memory.modify list (· ++ [element])) memory

/-- Draws on the source. What it gives goes to a new list, also if it breaks off. -/
def draw (source : Source τ ε α) (s : ObjectSession τ α) :
    Except (Failure ε) Address × ObjectSession τ α :=
  let (delivery, rest) := source.next s.source
  let (list, memory) := s.memory.make []
  let outcome := match delivery.failure with
    | none => .ok list
    | some e => .error (.raised e)
  (outcome, { s with
    memory := gather list memory delivery.elements
    source := rest
    seen := s.seen ++ [s.object.status] })

/-- The list of the collection, which is loaded if it has none. -/
def load (source : Source τ ε α) (s : ObjectSession τ α) :
    Except (Failure ε) Address × ObjectSession τ α :=
  match s.object.items with
  | some list => (.ok list, s)
  | none =>
    match draw source ((s.mark .loading).note (.debug ("Loading " ++ s.object.label))) with
    | (.ok list, s) => (.ok list, (s.adopt list).mark .loaded)
    | (.error e, s) => (.error e, if source.resetsOn e then s.mark .unloaded else s)

/-- Makes a view of a list. -/
def view (list : Address) (s : ObjectSession τ α) : Address × ObjectSession τ α :=
  let (view, memory) := s.memory.make ((s.memory.read? list).getD [])
  (view, { s with memory := memory })

/-- Carries out an edit of a list; none if a position is not there. -/
def editAt (list : Address) (memory : Memory (List α)) : Edit α → Option (Memory (List α))
  | .append item => some (memory.modify list (· ++ [item]))
  | .delete position =>
    let length := ((memory.read? list).getD []).length
    (position? length position).map fun index => memory.modify list (·.eraseIdx index)

/-- Carries out edits of a list, up to the first that fails. -/
def editAllAt (list : Address) (memory : Memory (List α)) :
    List (Edit α) → Memory (List α) × Bool
  | [] => (memory, true)
  | edit :: rest =>
    match editAt list memory edit with
    | some memory => editAllAt list memory rest
    | none => (memory, false)

/-- Carries out a change of a list, and tells how it ended. -/
def changeAt (list : Address) (memory : Memory (List α)) (change : Change ε α) :
    Memory (List α) × Except (Failure ε) Unit :=
  match editAllAt list memory change.edits, change.failure with
  | (memory, false), _ => (memory, .error .noSuchPosition)
  | (memory, true), some e => (memory, .error (.raised e))
  | (memory, true), none => (memory, .ok ())

/-- Forgets the list. -/
def invalidate (s : ObjectSession τ α) : ObjectSession τ α :=
  let entry := LogEntry.debug ("Invalidating " ++ s.object.label)
  let s := if s.object.items.isSome then s.note entry else s
  { s with object := { s.object with items := none, status := .unloaded } }

variable [DecidableEq α]

/-- Deletes the first occurrence of an item from the list of the collection, if it has one, and
tells whether there was one. -/
def remove (item : α) (s : ObjectSession τ α) : Bool × ObjectSession τ α :=
  match s.object.items with
  | none => (false, s)
  | some list =>
    match ((s.memory.read? list).getD []).idxOf? item with
    | none => (false, s)
    | some index => (true, { s with memory := s.memory.modify list (·.eraseIdx index) })

/-- Carries out an operation. Where it is asked for the items it answers with a view of them. -/
def step (source : Source τ ε α) (s : ObjectSession τ α) :
    Op ε α → Except (Failure ε) (Answer Address) × ObjectSession τ α
  | .get =>
    match load source s with
    | (.ok list, s) =>
      let (view, s) := s.view list
      (.ok (.items view), s)
    | (.error e, s) => (.error e, s)
  | .mutate change =>
    match load source s with
    | (.ok list, s) =>
      let (memory, ending) := changeAt list s.memory change
      (ending.map fun _ => .done, { s with memory := memory })
    | (.error e, s) => (.error e, s)
  | .remove item =>
    let (found, s) := s.remove item
    (.ok (.removed found), s)
  | .invalidate => (.ok .done, s.invalidate)
  | .locked false => (.ok (.locked s.object.status none), s)
  | .locked true =>
    let status := s.object.status
    match load source s with
    | (.ok list, s) =>
      let (view, s) := s.view list
      (.ok (.locked status (some view)), s)
    | (.error e, s) => (.error e, s)

/-- Carries out operations one after the other; a failure does not end the session. -/
def run (source : Source τ ε α) (s : ObjectSession τ α) :
    List (Op ε α) → List (Except (Failure ε) (Answer Address)) × ObjectSession τ α
  | [] => ([], s)
  | op :: rest =>
    let (answer, s) := step source s op
    let (answers, s) := run source s rest
    (answer :: answers, s)

end ObjectSession

end BrokerClient.Lazy

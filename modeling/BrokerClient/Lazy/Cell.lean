/-!
# Lazy collections

A lazy collection is fetched when it is first asked for and kept from then on, until it
is invalidated. One that holds nothing but was fetched is loaded; only one that was never
fetched, or was invalidated since, is unloaded. While the fetch runs it is loading.
-/
namespace BrokerClient.Lazy

variable {α : Type}

/-- How far a collection is. -/
inductive Status where
  | unloaded
  | loading
  | loaded
  deriving DecidableEq, Repr

/-- The word for a status. -/
def Status.word : Status → String
  | unloaded => "unloaded"
  | loading => "loading"
  | loaded => "loaded"

/-- What is kept of a collection. -/
inductive Cell (α : Type) where
  | unloaded
  | loading
  | loaded (items : List α)
  deriving DecidableEq, Repr

namespace Cell

/-- How far a cell is. -/
def status : Cell α → Status
  | unloaded => .unloaded
  | loading => .loading
  | loaded _ => .loaded

/-- The items of a loaded cell. -/
def items? : Cell α → Option (List α)
  | loaded items => some items
  | _ => none

/-- A cell is loaded. -/
def isLoaded (cell : Cell α) : Bool := cell.items?.isSome

/-- Changes the items, if there are any to change. -/
def edit (f : List α → List α) : Cell α → Cell α
  | loaded items => loaded (f items)
  | cell => cell

/-- Removes the first occurrence of an item. -/
def remove [DecidableEq α] (item : α) (cell : Cell α) : Cell α := cell.edit (·.erase item)

/-- An item is in a loaded cell. -/
def holds [DecidableEq α] (item : α) : Cell α → Bool
  | loaded items => items.contains item
  | _ => false

@[simp] theorem items?_loaded (items : List α) : (loaded items).items? = some items := rfl

@[simp] theorem items?_edit (f : List α → List α) (cell : Cell α) :
    (cell.edit f).items? = cell.items?.map f := by
  cases cell <;> rfl

@[simp] theorem status_edit (f : List α → List α) (cell : Cell α) :
    (cell.edit f).status = cell.status := by
  cases cell <;> rfl

end Cell

/-- A collection under the label that the log gives it. -/
structure Collection (α : Type) where
  label : String
  cell : Cell α
  deriving DecidableEq, Repr

/-- A collection that was never fetched. -/
def Collection.fresh (label : String) : Collection α := ⟨label, .unloaded⟩

end BrokerClient.Lazy

import BrokerClient.Error.Log
import BrokerClient.Lazy.Cell

/-!
# Collections inside a state

A collection is part of a larger state, which its loader may read and change. A place
says where in a state `S` the collection is kept and where the log is. `load` calls the
loader only if the collection is not loaded; if the loader fails, the collection is
unloaded again. `loadWith` tells the errors after which it is from those that leave it loading.
-/
namespace BrokerClient.Lazy

/-- Where a state keeps a collection. -/
structure Place (S α : Type) where
  look : S → Collection α
  fill : Cell α → S → S
  note : LogEntry → S → S

variable {S α ε : Type}

/-- The state in which the loader of a collection is called. -/
def Place.loading (place : Place S α) (s : S) : S :=
  place.note (.debug ("Loading " ++ (place.look s).label)) (place.fill .loading s)

/-- The items of a collection, which is loaded if it is not yet. If its loader fails with an error
that resets it, it is unloaded again; any other error leaves it as it is. -/
def loadWith (resets : ε → Bool) (place : Place S α) (loader : S → Except ε (List α) × S) (s : S) :
    Except ε (List α) × S :=
  match (place.look s).cell with
  | .loaded items => (.ok items, s)
  | _ =>
    match loader (place.loading s) with
    | (.ok items, s) => (.ok items, place.fill (.loaded items) s)
    | (.error e, s) => (.error e, if resets e then place.fill .unloaded s else s)

/-- The items of a collection, which is loaded if it is not yet. Every error resets it. -/
def load (place : Place S α) (loader : S → Except ε (List α) × S) (s : S) :
    Except ε (List α) × S :=
  loadWith (fun _ => true) place loader s

/-- Changes the items of a loaded collection. -/
def edit (place : Place S α) (f : List α → List α) (s : S) : S :=
  place.fill ((place.look s).cell.edit f) s

/-- Removes the first occurrence of an item from a loaded collection, and tells whether
there was one. -/
def remove [DecidableEq α] (place : Place S α) (item : α) (s : S) : Bool × S :=
  ((place.look s).cell.holds item, place.fill ((place.look s).cell.remove item) s)

/-- Forgets what was fetched. -/
def invalidate (place : Place S α) (s : S) : S :=
  let entry := LogEntry.debug ("Invalidating " ++ (place.look s).label)
  place.fill .unloaded (if (place.look s).cell.isLoaded then place.note entry s else s)

theorem loadWith_of_loaded {place : Place S α} {s : S} {items : List α}
    (h : (place.look s).cell = .loaded items) (resets : ε → Bool)
    (loader : S → Except ε (List α) × S) : loadWith resets place loader s = (.ok items, s) := by
  simp [loadWith, h]

theorem loadWith_of_items?_eq_none {place : Place S α} {s : S}
    (h : (place.look s).cell.items? = none) (resets : ε → Bool)
    (loader : S → Except ε (List α) × S) :
    loadWith resets place loader s =
      match loader (place.loading s) with
      | (.ok items, s) => (.ok items, place.fill (.loaded items) s)
      | (.error e, s) => (.error e, if resets e then place.fill .unloaded s else s) := by
  unfold loadWith
  split
  · rename_i items hcell
    simp [hcell] at h
  · rfl

theorem load_of_loaded {place : Place S α} {s : S} {items : List α}
    (h : (place.look s).cell = .loaded items) (loader : S → Except ε (List α) × S) :
    load place loader s = (.ok items, s) :=
  loadWith_of_loaded h _ loader

theorem load_of_items?_eq_none {place : Place S α} {s : S}
    (h : (place.look s).cell.items? = none) (loader : S → Except ε (List α) × S) :
    load place loader s =
      match loader (place.loading s) with
      | (.ok items, s) => (.ok items, place.fill (.loaded items) s)
      | (.error e, s) => (.error e, place.fill .unloaded s) :=
  loadWith_of_items?_eq_none h _ loader

/-- The items of a collection are those that it holds, or those that its loader answers now. -/
theorem load_eq_ok {place : Place S α} {loader : S → Except ε (List α) × S} {s s' : S}
    {items : List α} :
    load place loader s = (.ok items, s') ↔
      ((place.look s).cell.items? = some items ∧ s' = s) ∨
        ((place.look s).cell.items? = none ∧
          ∃ s₁, loader (place.loading s) = (.ok items, s₁) ∧
            s' = place.fill (.loaded items) s₁) := by
  cases hcell : (place.look s).cell with
  | loaded held => simp [load_of_loaded hcell, eq_comm]
  | _ =>
    rw [load_of_items?_eq_none (by simp [hcell, Cell.items?])]
    rcases loader (place.loading s) with ⟨e | found, s₁⟩
    · simp [Cell.items?]
    · simp only [Cell.items?, Prod.mk.injEq, Except.ok.injEq, reduceCtorEq, false_and, true_and,
        false_or]
      constructor
      · rintro ⟨rfl, rfl⟩
        exact ⟨s₁, ⟨rfl, rfl⟩, rfl⟩
      · rintro ⟨_, ⟨rfl, rfl⟩, rfl⟩
        exact ⟨rfl, rfl⟩

/-- Loading fails as its loader does, and the collection is unloaded then. -/
theorem load_eq_error {place : Place S α} {loader : S → Except ε (List α) × S} {s s' : S}
    {e : ε} :
    load place loader s = (.error e, s') ↔
      (place.look s).cell.items? = none ∧
        ∃ s₁, loader (place.loading s) = (.error e, s₁) ∧ s' = place.fill .unloaded s₁ := by
  cases hcell : (place.look s).cell with
  | loaded held => simp [load_of_loaded hcell]
  | _ =>
    rw [load_of_items?_eq_none (by simp [hcell, Cell.items?])]
    rcases loader (place.loading s) with ⟨e | found, s₁⟩ <;>
      simp [Cell.items?, eq_comm, and_assoc]

end BrokerClient.Lazy

/-!
# Memories

Objects are kept in a memory and reached by their addresses. An object that is made gets an address
that none had before, and it stays there. To write to an object leaves all others as they are.
-/
namespace BrokerClient

/-- Where an object is kept. -/
abbrev Address := Nat

/-- The objects that were made, in the order of their addresses. -/
structure Memory (α : Type) where
  objects : List α
  deriving DecidableEq, Repr

namespace Memory

variable {α : Type}

/-- A memory without objects. -/
def empty : Memory α := ⟨[]⟩

/-- The address that is given next. -/
def next (m : Memory α) : Address := m.objects.length

/-- The object at an address. -/
def read? (m : Memory α) (a : Address) : Option α := m.objects[a]?

/-- Makes an object. -/
def make (m : Memory α) (x : α) : Address × Memory α := (m.next, ⟨m.objects ++ [x]⟩)

/-- Changes the object at an address. -/
def modify (m : Memory α) (a : Address) (f : α → α) : Memory α := ⟨m.objects.modify a f⟩

variable {m : Memory α} {a b : Address} {x : α} {f : α → α}

@[simp] theorem make_fst (m : Memory α) (x : α) : (m.make x).1 = m.next := rfl

@[simp] theorem next_make (m : Memory α) (x : α) : (m.make x).2.next = m.next + 1 := by
  simp [make, next]

@[simp] theorem next_modify (m : Memory α) (a : Address) (f : α → α) :
    (m.modify a f).next = m.next := by
  simp [modify, next]

theorem lt_next_of_read? (h : m.read? a = some x) : a < m.next :=
  (List.getElem?_eq_some_iff.mp h).1

@[simp] theorem read?_make_next (m : Memory α) (x : α) : (m.make x).2.read? m.next = some x := by
  simp [make, read?, next]

theorem read?_make (h : a < m.next) (x : α) : (m.make x).2.read? a = m.read? a :=
  List.getElem?_append_left h

@[simp] theorem read?_modify_self (m : Memory α) (a : Address) (f : α → α) :
    (m.modify a f).read? a = (m.read? a).map f := by
  simp [modify, read?]

theorem read?_modify_of_ne (h : a ≠ b) (m : Memory α) (f : α → α) :
    (m.modify b f).read? a = m.read? a := by
  simp [modify, read?, Ne.symm h]

/-- To change what was made last is to make what it is changed to. -/
theorem modify_make (m : Memory α) (x : α) (f : α → α) :
    (m.make x).2.modify m.next f = (m.make (f x)).2 :=
  congrArg Memory.mk (List.modifyTailIdx_add (List.modifyHead f) 0 m.objects [x])

end Memory

end BrokerClient

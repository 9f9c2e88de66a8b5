import BrokerClient.Lazy.Object
import BrokerClient.Proofs.Lazy.Machine
import Mathlib.Data.List.Forall2

/-!
# The two fields of a lazy collection

Between operations the list that a lazy collection refers to and its status agree with each other,
so the two amount to a cell. Each operation does to the object what it does to the cell. The list is
made new by every load and nobody else gets hold of it, so what was answered earlier is not written
to: a view stays what it was, also when the list is changed in place. From this the object runs as
the reference machine does. An error that does not reset the collection leaves it loading without a
list, and the next load starts over.
-/
namespace BrokerClient

/-! ## Writing to one object -/

/-- The second memory is the first one with another object at an address. -/
structure Memory.Rewrites {α : Type} (a : Address) (m m' : Memory α) (x : α) : Prop where
  read : m'.read? a = some x
  frame : ∀ b, b ≠ a → m'.read? b = m.read? b

namespace Memory.Rewrites

variable {α : Type} {a : Address} {m m₁ m' : Memory α} {x y : α}

theorem refl (h : m.read? a = some x) : Rewrites a m m x := ⟨h, fun _ _ => rfl⟩

theorem modify (h : m.read? a = some x) (f : α → α) : Rewrites a m (m.modify a f) (f x) :=
  ⟨by rw [read?_modify_self, h, Option.map_some], fun _ hb => read?_modify_of_ne hb m f⟩

theorem trans (h : Rewrites a m m₁ x) (h' : Rewrites a m₁ m' y) : Rewrites a m m' y :=
  ⟨h'.read, fun b hb => (h'.frame b hb).trans (h.frame b hb)⟩

end Memory.Rewrites

namespace Lazy

variable {τ ε α : Type}

theorem Delivery.elements_of_read {delivery : Delivery ε α} {items : List α}
    (h : delivery.read = .ok items) : delivery.elements = items := by
  unfold read at h
  split at h <;> cases h
  rfl

/-- The fields of a collection agree with each other and amount to a cell. -/
inductive Object.Amounts (memory : Memory (List α)) : Object → Cell α → Prop
  | unloaded {label : String} : Amounts memory ⟨label, none, .unloaded⟩ .unloaded
  | loading {label : String} : Amounts memory ⟨label, none, .loading⟩ .loading
  | loaded {label : String} {list : Address} {items : List α}
      (h : memory.read? list = some items) :
      Amounts memory ⟨label, some list, .loaded⟩ (.loaded items)

section Amounts

variable {memory : Memory (List α)} {object : Object} {cell : Cell α}

theorem Object.Amounts.status (h : object.Amounts memory cell) : object.status = cell.status := by
  cases h <;> rfl

theorem Object.Amounts.of_some (h : object.Amounts memory cell) {list : Address}
    (hlist : object.items = some list) :
    ∃ items, object = ⟨object.label, some list, .loaded⟩ ∧ cell = .loaded items ∧
      memory.read? list = some items := by
  cases h with
  | loaded hread =>
    cases hlist
    exact ⟨_, rfl, rfl, hread⟩
  | _ => cases hlist

theorem Object.Amounts.of_none (h : object.Amounts memory cell) (hnone : object.items = none) :
    cell.items? = none := by
  cases h with
  | loaded => cases hnone
  | _ => rfl

end Amounts

namespace ObjectSession

open Memory (Rewrites)

variable {loader : Source τ ε α} {s s' : ObjectSession τ α} {t t' : Session τ α} {op : Op ε α}
  {list a : Address} {items : List α} {memory : Memory (List α)}

/-! ## Lists that are changed in place -/

theorem rewrites_gather (elements : List α) (h : memory.read? list = some items) :
    Rewrites list memory (gather list memory elements) (items ++ elements) := by
  induction elements generalizing memory items with
  | nil => simpa [gather] using Rewrites.refl h
  | cons element rest ih =>
    have hfirst : Rewrites list memory _ (items ++ [element]) := .modify h (· ++ [element])
    have hrest := hfirst.trans (ih hfirst.read)
    rwa [List.append_assoc, List.singleton_append] at hrest

/-- What is gathered stands in a list of its own. -/
theorem read?_gather (elements : List α) (memory : Memory (List α)) :
    (gather memory.next (memory.make []).2 elements).read? memory.next = some elements := by
  simpa using (rewrites_gather elements (memory.read?_make_next [])).read

theorem read?_gather_of_lt (elements : List α) (h : a < memory.next) :
    (gather memory.next (memory.make []).2 elements).read? a = memory.read? a := by
  rw [(rewrites_gather elements (memory.read?_make_next [])).frame a (Nat.ne_of_lt h),
    Memory.read?_make h]

/-- The object amounts to the cell of a session with the same source and log. -/
structure Represents (s : ObjectSession τ α) (t : Session τ α) : Prop where
  object : s.object.Amounts s.memory t.collection.cell
  label : s.object.label = t.collection.label
  source : s.source = t.source
  seen : s.seen = t.seen
  log : s.log = t.log

/-- Items stand at an address that is not that of the list of the collection. -/
structure Apart (s : ObjectSession τ α) (a : Address) (items : List α) : Prop where
  read : s.memory.read? a = some items
  other : s.object.items ≠ some a

/-- What stands apart from the collection in the first state does so in the second one. -/
def Preserves (s s' : ObjectSession τ α) : Prop := ∀ a items, s.Apart a items → s'.Apart a items

/-- An answer, with its views replaced by the items that they hold. -/
inductive Answers (s : ObjectSession τ α) :
    Except (Failure ε) (Answer Address) → Except (Failure ε) (Answer (List α)) → Prop
  | failed {e : Failure ε} : Answers s (.error e) (.error e)
  | done : Answers s (.ok .done) (.ok .done)
  | items {view : Address} {items : List α} (h : s.Apart view items) :
      Answers s (.ok (.items view)) (.ok (.items items))
  | removed {found : Bool} : Answers s (.ok (.removed found)) (.ok (.removed found))
  | watched {status : Status} : Answers s (.ok (.locked status none)) (.ok (.locked status none))
  | locked {status : Status} {view : Address} {items : List α} (h : s.Apart view items) :
      Answers s (.ok (.locked status (some view))) (.ok (.locked status (some items)))

theorem Preserves.refl (s : ObjectSession τ α) : s.Preserves s := fun _ _ => id

theorem Preserves.trans {s₁ : ObjectSession τ α} (h : s.Preserves s₁) (h' : s₁.Preserves s') :
    s.Preserves s' := fun a items ha => h' a items (h a items ha)

theorem Apart.lt_next (h : s.Apart a items) : a < s.memory.next := Memory.lt_next_of_read? h.read

/-- A loaded collection refers to a list of its items. -/
structure Refers (s : ObjectSession τ α) (t : Session τ α) (list : Address) (items : List α) :
    Prop where
  represents : s.Represents t
  object : s.object = ⟨s.object.label, some list, .loaded⟩
  cell : t.collection.cell = .loaded items
  read : s.memory.read? list = some items

theorem Represents.refers (h : s.Represents t) (hlist : s.object.items = some list) :
    ∃ items, s.Refers t list items := by
  obtain ⟨items, hobject, hcell, hread⟩ := h.object.of_some hlist
  exact ⟨items, h, hobject, hcell, hread⟩

/-- What the loader of a collection leaves of a session. It sees the collection loading, and what
it gives stands in a new list. -/
def drawn (loader : Source τ ε α) (s : ObjectSession τ α) : ObjectSession τ α :=
  { (s.mark .loading).note (.debug ("Loading " ++ s.object.label)) with
    memory := gather s.memory.next (s.memory.make []).2 (loader.next s.source).1.elements
    source := (loader.next s.source).2
    seen := s.seen ++ [.loading] }

/-- The loader of a collection without a list is called once. -/
theorem load_of_none (loader : Source τ ε α) (h : s.object.items = none) :
    s.load loader = match (loader.next s.source).1.read with
      | .ok _ => (.ok s.memory.next, ((s.drawn loader).adopt s.memory.next).mark .loaded)
      | .error e => (.error e,
          if loader.resetsOn e then (s.drawn loader).mark .unloaded else s.drawn loader) := by
  have hdraw : draw loader ((s.mark .loading).note (.debug ("Loading " ++ s.object.label))) =
      ((loader.next s.source).1.read.map fun _ => s.memory.next, s.drawn loader) := by
    refine Prod.ext ?_ rfl
    simp only [draw, Delivery.read, mark, note]
    cases (loader.next s.source).1.failure <;> rfl
  simp only [load, h, hdraw]
  cases (loader.next s.source).1.read <;> rfl

theorem Represents.drawn (h : s.Represents t) (hnone : s.object.items = none)
    (loader : Source τ ε α) : (s.drawn loader).Represents (t.drawn loader) := by
  have hobject : (s.drawn loader).object = ⟨s.object.label, none, .loading⟩ := by
    rw [← hnone]
    rfl
  refine ⟨?_, h.label, ?_, ?_, ?_⟩
  · rw [hobject]
    exact .loading
  · simp only [ObjectSession.drawn, Session.drawn, h.source]
  · simp only [ObjectSession.drawn, Session.drawn, h.seen]
  · simp [ObjectSession.drawn, Session.drawn, note, mark, Place.loading, Session.place, h.log,
      h.label]

/-- A list that is complete becomes that of the collection. -/
theorem Represents.adopt (h : s.Represents t) (hread : s.memory.read? list = some items) :
    ((s.adopt list).mark .loaded).Refers (Session.place.fill (.loaded items) t) list items :=
  ⟨⟨.loaded hread, h.label, h.source, h.seen, h.log⟩, rfl, rfl, hread⟩

theorem Represents.unload (h : s.Represents t) (hnone : s.object.items = none) :
    (s.mark .unloaded).Represents (Session.place.fill .unloaded t) := by
  refine ⟨?_, h.label, h.source, h.seen, h.log⟩
  have hobject : (s.mark .unloaded).object = ⟨s.object.label, none, .unloaded⟩ := by
    rw [← hnone]
    rfl
  rw [hobject]
  exact .unloaded

/-- A new list is apart from all that stood there before. -/
theorem preserves_drawn (loader : Source τ ε α) (s : ObjectSession τ α) :
    s.Preserves (s.drawn loader) := fun _ _ ha =>
  ⟨(read?_gather_of_lt _ ha.lt_next).trans ha.read, ha.other⟩

/-- A load of the collection does to the object what it does to the cell. -/
inductive Loads (loader : Source τ ε α) (s : ObjectSession τ α) (t : Session τ α) : Prop
  | failed {e : Failure ε} {s₁ : ObjectSession τ α} {t₁ : Session τ α}
      (hs : s.load loader = (.error e, s₁)) (ht : t.load loader = (.error e, t₁))
      (h : s₁.Represents t₁) (hpreserves : s.Preserves s₁) : Loads loader s t
  | loaded {list : Address} {items : List α} {s₁ : ObjectSession τ α} {t₁ : Session τ α}
      (hs : s.load loader = (.ok list, s₁)) (ht : t.load loader = (.ok items, t₁))
      (h : s₁.Refers t₁ list items) (hpreserves : s.Preserves s₁) : Loads loader s t

theorem Represents.loads (h : s.Represents t) (loader : Source τ ε α) : Loads loader s t := by
  cases hlist : s.object.items with
  | some list =>
    obtain ⟨items, hrefers⟩ := h.refers hlist
    exact .loaded (by simp only [load, hlist]) (loadWith_of_loaded hrefers.cell _ _) hrefers
      (.refl s)
  | none =>
    have hs := load_of_none loader hlist
    have ht := Session.load_of_none loader (h.object.of_none hlist)
    have hdrawn := h.drawn hlist loader
    rw [← h.source] at ht
    cases hread : (loader.next s.source).1.read with
    | ok items =>
      rw [hread] at hs ht
      refine .loaded hs ht (hdrawn.adopt ?_)
        fun _ _ ha => ⟨(preserves_drawn loader s _ _ ha).read, ?_⟩
      · rw [← Delivery.elements_of_read hread]
        exact read?_gather _ s.memory
      · exact fun he => Nat.ne_of_lt ha.lt_next (Option.some.inj he).symm
    | error e =>
      rw [hread] at hs ht
      cases hresets : loader.resetsOn e <;>
        simp only [hresets, if_true, Bool.false_eq_true, if_false] at hs ht
      · exact .failed hs ht hdrawn (preserves_drawn loader s)
      · exact .failed hs ht (hdrawn.unload hlist)
          fun _ _ ha => ⟨(preserves_drawn loader s _ _ ha).read, ha.other⟩

/-! ## Steps -/

/-- A view is an object of its own that holds the items. -/
theorem Refers.view (h : s.Refers t list items) :
    (s.view list).2.Apart (s.view list).1 items ∧ (s.view list).2.Represents t ∧
      s.Preserves (s.view list).2 := by
  have hlt : list < s.memory.next := Memory.lt_next_of_read? h.read
  have hview : s.view list = (s.memory.next, { s with memory := (s.memory.make items).2 }) := by
    simp only [ObjectSession.view, h.read, Option.getD_some, Memory.make_fst]
  rw [hview]
  refine ⟨⟨s.memory.read?_make_next items, ?_⟩, ⟨?_, h.represents.label, h.represents.source,
    h.represents.seen, h.represents.log⟩, fun a x ha => ⟨?_, ha.other⟩⟩
  · rw [h.object]
    exact fun he => Nat.ne_of_lt hlt (Option.some.inj he)
  · rw [h.object, h.cell]
    exact .loaded ((Memory.read?_make hlt items).trans h.read)
  · exact (Memory.read?_make ha.lt_next items).trans ha.read

variable [DecidableEq α]

/-- The items of the list of a collection, if it has one. -/
def items? (s : ObjectSession τ α) : Option (List α) := s.object.items.bind s.memory.read?

omit [DecidableEq α] in
theorem Represents.items? (h : s.Represents t) : s.items? = t.collection.cell.items? := by
  unfold ObjectSession.items?
  cases hlist : s.object.items with
  | none => exact (h.object.of_none hlist).symm
  | some list =>
    obtain ⟨items, hrefers⟩ := h.refers hlist
    rw [hrefers.cell]
    exact hrefers.read

/-- What a run makes of a collection, seen beside the machine that it runs as. -/
structure Resembles (s : ObjectSession τ α) (m : Machine τ α) : Prop where
  /-- The list of the collection holds what the machine holds, and there is none if it holds
  nothing. -/
  items : s.items? = m.contents
  list : s.object.items.isSome = m.contents.isSome
  source : s.source = m.source
  /-- The loader was called as often as that of the machine, and saw the collection loading. -/
  seen : s.seen = List.replicate m.calls .loading
  loaded : s.object.status = .loaded ↔ m.contents.isSome = true
  /-- Only an error that does not reset the collection leaves it loading. -/
  loading : s.object.status = .loading ↔ m.contents = none ∧ m.interrupted = true

/-- A loader that is interrupted by an error that does not reset the collection, and then gives two
items. The first list is left behind, and the view is apart from the second one. -/
example :
    let loader : Source Nat String Nat :=
      ⟨fun n => (if n = 0 then ⟨[5], some "stop"⟩ else ⟨[5, 6], none⟩, n + 1), fun _ => false⟩
    let fetched := (start "numbers" 0).run loader [.get, .get]
    ((start "numbers" 0).run loader [.get]).2.object = ⟨"numbers", none, .loading⟩ ∧
      fetched.1 = [.error (.raised "stop"), .ok (.items 2)] ∧
      fetched.2.object = ⟨"numbers", some 1, .loaded⟩ ∧
      fetched.2.memory = ⟨[[5], [5, 6], [5, 6]]⟩ := ⟨rfl, rfl, rfl, rfl⟩

end ObjectSession

end Lazy

end BrokerClient

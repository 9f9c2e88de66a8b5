/-!
# Ordered mappings

A mapping from names to values that remembers the order in which the names came in.
Writing to a name that is there keeps its position; a new name goes to the end. So a
list of pairs in which a name is repeated stands for the mapping where that name has
its first position and its last value.
-/
namespace BrokerClient

/-- Names with their values, in order of first appearance. -/
abbrev Mapping (α : Type) := List (String × α)

namespace Mapping

variable {α : Type}

/-- Writes a value: in place if the name is there, at the end otherwise. -/
def put (m : Mapping α) (name : String) (value : α) : Mapping α :=
  match m with
  | [] => [(name, value)]
  | (n, v) :: rest => if n = name then (name, value) :: rest else (n, v) :: put rest name value

/-- The value of a name. -/
def find? (m : Mapping α) (name : String) : Option α :=
  match m with
  | [] => none
  | (n, v) :: rest => if n = name then some v else find? rest name

/-- The names in order. -/
def names (m : Mapping α) : List String := m.map Prod.fst

/-- A name is in the mapping. -/
def has (m : Mapping α) (name : String) : Bool := (m.find? name).isSome

/-- Writes one pair after the other. -/
def putAll (m : Mapping α) (pairs : List (String × α)) : Mapping α :=
  pairs.foldl (fun m pair => m.put pair.1 pair.2) m

/-- The mapping that a list of pairs stands for. -/
def ofPairs (pairs : List (String × α)) : Mapping α := putAll [] pairs

@[simp] theorem find?_nil (name : String) : find? ([] : Mapping α) name = none := rfl

theorem find?_put (m : Mapping α) (name : String) (value : α) (other : String) :
    (m.put name value).find? other = if other = name then some value else m.find? other := by
  induction m with
  | nil => simp [put, find?, eq_comm]
  | cons pair rest ih =>
    obtain ⟨n, v⟩ := pair
    by_cases hn : n = name
    · subst hn
      by_cases ho : n = other
      · simp [put, find?, ho]
      · simp [put, find?, ho, Ne.symm ho]
    · simp only [put, hn, if_false, find?, ih]
      by_cases ho : n = other
      · subst ho
        simp [hn]
      · simp [ho]

theorem mem_of_find? {m : Mapping α} {name : String} {value : α}
    (h : m.find? name = some value) : (name, value) ∈ m := by
  induction m with
  | nil => cases h
  | cons pair rest ih =>
    obtain ⟨n, v⟩ := pair
    rw [find?] at h
    split at h
    · rename_i hn
      cases h
      simp [hn]
    · exact List.mem_cons_of_mem _ (ih h)

theorem exists_find?_of_mem_names {m : Mapping α} {name : String} (h : name ∈ m.names) :
    ∃ value, m.find? name = some value := by
  induction m with
  | nil => cases h
  | cons pair rest ih =>
    obtain ⟨n, v⟩ := pair
    by_cases hn : n = name
    · exact ⟨v, if_pos hn⟩
    · obtain ⟨value, hvalue⟩ := ih ((List.mem_cons.mp h).resolve_left (Ne.symm hn))
      exact ⟨value, (if_neg hn).trans hvalue⟩

/-- If no name is repeated, every pair can be looked up. -/
theorem find?_eq_some {m : Mapping α} (h : m.names.Nodup) {name : String} {value : α} :
    m.find? name = some value ↔ (name, value) ∈ m := by
  induction m with
  | nil => simp
  | cons pair rest ih =>
    obtain ⟨n, v⟩ := pair
    obtain ⟨hn, hrest⟩ := List.nodup_cons.mp h
    by_cases he : n = name
    · subst he
      have hmem : (n, value) ∉ rest := fun hm => hn (List.mem_map.mpr ⟨(n, value), hm, rfl⟩)
      simp [find?, hmem, eq_comm]
    · simp [find?, he, Ne.symm he, ih hrest]

theorem names_put (m : Mapping α) (name : String) (value : α) :
    (m.put name value).names = if name ∈ m.names then m.names else m.names ++ [name] := by
  induction m with
  | nil => simp [put, names]
  | cons pair rest ih =>
    obtain ⟨n, v⟩ := pair
    simp only [names] at ih
    by_cases hn : n = name
    · simp [put, names, hn]
    · have hn' : ¬ name = n := fun h => hn h.symm
      by_cases hr : name ∈ rest.map Prod.fst
      · simp only [hr, if_true] at ih
        simp [put, names, hn, ih, hr]
      · simp only [hr, if_false] at ih
        simp [put, names, hn, hn', ih, hr]

theorem mem_put {m : Mapping α} {name : String} {value : α} {pair : String × α}
    (h : pair ∈ m.put name value) : pair ∈ m ∨ pair = (name, value) := by
  induction m with
  | nil => exact .inr (List.mem_singleton.mp h)
  | cons first rest ih =>
    rw [put] at h
    split at h
    · exact (List.mem_cons.mp h).symm.imp (List.mem_cons_of_mem _) id
    · rcases List.mem_cons.mp h with rfl | h
      · exact .inl List.mem_cons_self
      · exact (ih h).imp_left (List.mem_cons_of_mem _)

/-- Writing keeps names distinct. -/
theorem nodup_names_put {m : Mapping α} (h : m.names.Nodup) (name : String) (value : α) :
    (m.put name value).names.Nodup := by
  rw [names_put]
  split
  · exact h
  · rename_i hn
    rw [List.nodup_append]
    exact ⟨h, by simp, by simpa using fun a ha (e : a = name) => hn (e ▸ ha)⟩

end Mapping

end BrokerClient

import BrokerClient.Memory
import BrokerClient.Value

/-!
# Parameters that callers keep

A caller keeps values, and mappings that give names to them. Both are objects: a mapping refers to
its values, and several mappings can refer to the same one. So a copy of a mapping is a mapping of
its own, but its values are those of the first.
-/
namespace BrokerClient

/-- The values and the mappings that were made. -/
structure Store where
  values : Memory Value
  mappings : Memory (Mapping Address)

namespace Store

/-- The value at an address. -/
def value (s : Store) (a : Address) : Value := (s.values.read? a).getD .null

/-- The names of the mapping at an address, with the addresses of their values. -/
def entries (s : Store) (mapping : Address) : Mapping Address :=
  (s.mappings.read? mapping).getD []

/-- Names with the values that they refer to. -/
def resolve (s : Store) (entries : Mapping Address) : Parameters :=
  entries.map fun (name, a) => (name, s.value a)

/-- The parameters that a mapping stands for. -/
def parameters (s : Store) (mapping : Address) : Parameters := s.resolve (s.entries mapping)

/-- Makes a mapping. -/
def make (s : Store) (entries : Mapping Address) : Address × Store :=
  let (mapping, mappings) := s.mappings.make entries
  (mapping, { s with mappings := mappings })

/-- Makes a value. -/
def makeValue (s : Store) (v : Value) : Address × Store :=
  let (a, values) := s.values.make v
  (a, { s with values := values })

/-- Makes a mapping of the same names that refers to the same values. -/
def copy (s : Store) (mapping : Address) : Address × Store := s.make (s.entries mapping)

/-- Lets a name of a mapping refer to a value. -/
def assign (mapping : Address) (name : String) (a : Address) (s : Store) : Store :=
  { s with mappings := s.mappings.modify mapping fun entries => Mapping.put entries name a }

/-- Keeps parameters in a mapping of values that are all new. -/
def ofParameters (s : Store) (parameters : Parameters) : Address × Store :=
  let (mapping, s) := s.make []
  (mapping, parameters.foldl (fun s (name, v) =>
    let (a, s) := s.makeValue v
    s.assign mapping name a) s)

theorem entries_make_next (s : Store) (entries : Mapping Address) :
    (s.make entries).2.entries s.mappings.next = entries := by
  simp [make, Store.entries]

theorem entries_make (s : Store) {mapping : Address} (h : mapping < s.mappings.next)
    (entries : Mapping Address) : (s.make entries).2.entries mapping = s.entries mapping := by
  simp only [make, Store.entries, Memory.read?_make h]

theorem resolve_make (s : Store) (entries : Mapping Address) :
    (s.make entries).2.resolve = s.resolve := rfl

@[simp] theorem names_resolve (s : Store) (entries : Mapping Address) :
    (s.resolve entries).names = entries.names := by
  simp [resolve, Mapping.names, Function.comp_def]

theorem resolve_put (s : Store) (entries : Mapping Address) (name : String) (a : Address) :
    s.resolve (entries.put name a) = (s.resolve entries).put name (s.value a) := by
  induction entries with
  | nil => rfl
  | cons pair rest ih =>
    obtain ⟨n, b⟩ := pair
    by_cases hn : n = name
    · simp [resolve, Mapping.put, hn]
    · simpa [resolve, Mapping.put, hn] using ih

end Store

end BrokerClient

import BrokerClient.Error.ClientError
import BrokerClient.Value.Equality

/-!
# Link catalogs

The catalog of a resource holds its links under their relations. The answer for the API
root is taken over without decoding when it is of an unknown type, so the catalog of the
root can hold plain values; one of them counts as an entry, but a null is no link.
-/
namespace BrokerClient

/-- What a catalog holds under a relation. -/
inductive CatalogEntry where
  | link (link : Link)
  | plain (v : Value)

/-- The links that a resource offers, by relation. -/
abbrev Catalog := Mapping CatalogEntry

namespace Catalog

/-- The catalog of decoded links. -/
def ofLinks (links : Mapping Link) : Catalog := links.map fun (name, link) => (name, .link link)

/-- The catalog of values that were taken over without decoding. -/
def ofValues (fields : Mapping Value) : Catalog := fields.map fun (name, v) => (name, .plain v)

/-- The entry of a relation. A value that is no text is no relation, and one that is no key
cannot be looked up. -/
def entry? (catalog : Catalog) (relation : Value) : Except Fault (Option CatalogEntry) :=
  if relation.isKey then .ok (relation.asText?.bind catalog.find?)
  else .error (.notKey relation.kindName)

/-- What is raised for a relation that the resource `owner` does not have. The error quotes the
relation, so one that cannot be written is a fault. -/
def absence (relation : Value) (owner : String) : Raised :=
  if relation.isWritable then .client (.linkNotFound relation owner) else .fault .unwritable

/-- The entry of a relation that the resource `owner` is to follow. -/
def demand (catalog : Catalog) (relation : Value) (owner : String) :
    Except Raised CatalogEntry :=
  match catalog.entry? relation with
  | .error fault => .error (.fault fault)
  | .ok none | .ok (some (.plain .null)) => .error (absence relation owner)
  | .ok (some entry) => .ok entry

/-- Those of the relations that the catalog lacks, in the given order. -/
def missing (catalog : Catalog) (relations : List String) : List String :=
  relations.filter fun relation => !catalog.has relation

/-- The text of a catalog: its relations, sorted. -/
def toText (catalog : Catalog) : String :=
  let relations := catalog.names.mergeSort fun a b => a ≤ b
  "LinkCatalog(" ++ (Value.arr (relations.map .str)).text ++ ")"

theorem absence_of_isWritable {relation : Value} (h : relation.isWritable = true) (owner : String) :
    absence relation owner = .client (.linkNotFound relation owner) := if_pos h

@[simp] theorem absence_str (relation owner : String) :
    absence (.str relation) owner = .client (.linkNotFound (.str relation) owner) := rfl

theorem demand_of_find?_link {catalog : Catalog} {relation : String} {link : Link}
    (h : catalog.find? relation = some (.link link)) (owner : String) :
    catalog.demand (.str relation) owner = .ok (.link link) := by
  simp [demand, entry?, Value.isKey, Value.asText?, h]

theorem demand_of_find?_none {catalog : Catalog} {relation : String}
    (h : catalog.find? relation = none) (owner : String) :
    catalog.demand (.str relation) owner =
      .error (.client (.linkNotFound (.str relation) owner)) := by
  simp [demand, entry?, Value.isKey, Value.asText?, h]

/-- A relation leads to what the catalog holds under it, unless that is a null. -/
theorem demand_eq_ok {catalog : Catalog} {relation owner : String} {entry : CatalogEntry} :
    catalog.demand (.str relation) owner = .ok entry ↔
      catalog.find? relation = some entry ∧ entry ≠ .plain .null := by
  simp only [demand, entry?, Value.isKey, Value.asText?, if_true, Option.bind_some]
  cases catalog.find? relation with
  | none => simp
  | some found =>
    by_cases hnull : found = .plain .null
    · subst hnull
      simp only [reduceCtorEq, Option.some.injEq, false_iff]
      rintro ⟨rfl, h⟩
      exact h rfl
    · have hfound (h : found = entry) : entry ≠ .plain .null := h ▸ hnull
      split <;> simp_all

theorem demand_eq_error {catalog : Catalog} {relation owner : String} {e : Raised} :
    catalog.demand (.str relation) owner = .error e ↔
      (catalog.find? relation = none ∨ catalog.find? relation = some (.plain .null)) ∧
        e = .client (.linkNotFound (.str relation) owner) := by
  simp only [demand, entry?, Value.isKey, Value.asText?, if_true, Option.bind_some]
  cases catalog.find? relation with
  | none => simp [eq_comm]
  | some found =>
    by_cases hnull : found = .plain .null
    · subst hnull
      simp [eq_comm]
    · split <;> simp_all

/-- A value that can be looked up and written is not followed in vain but for want of a link. -/
theorem demand_ne_fault {relation : Value} (h : relation.isKey = true)
    (hwritable : relation.isWritable = true) (catalog : Catalog) (owner : String) (fault : Fault) :
    catalog.demand relation owner ≠ .error (.fault fault) := by
  simp only [demand, entry?, h, absence_of_isWritable hwritable, if_true]
  split <;> simp_all

theorem find?_ofLinks (links : Mapping Link) (relation : String) :
    (ofLinks links).find? relation = (links.find? relation).map .link := by
  induction links with
  | nil => rfl
  | cons pair rest ih =>
    simp only [ofLinks, List.map_cons, Mapping.find?] at ih ⊢
    split
    · rfl
    · exact ih

end Catalog

end BrokerClient

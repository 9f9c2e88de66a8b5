import BrokerClient.Proofs.Request.Offence
import BrokerClient.Request.Assembly
import Mathlib.Data.List.Nodup

/-!
# Parameters put together

The mandatory parameters keep their order, and those of the optional ones that are given follow in
theirs. An optional one of the name of a mandatory one takes its place. The mandatory parameters of
a caller stay what they were: the optional ones are written to a copy, one after the other. What
the copy stands for in the end is what is assembled from the parameters themselves, and its values
are the very ones of the caller.
-/
namespace BrokerClient

/-! ## Writing pairs of distinct names -/

namespace Mapping

variable {α : Type} {m pairs : Mapping α} {name : String} {value : α}

/-- A new name goes to the end. -/
theorem put_of_notMem (h : name ∉ m.names) (value : α) :
    m.put name value = m ++ [(name, value)] := by
  induction m with
  | nil => rfl
  | cons pair rest ih =>
    obtain ⟨hpair, hrest⟩ := not_or.mp (mt List.mem_cons.mpr h)
    rw [put, if_neg (Ne.symm hpair), ih hrest, List.cons_append]

/-- Names that are there keep their positions, and the new ones follow in their order. -/
theorem names_putAll (m : Mapping α) (h : pairs.names.Nodup) :
    (m.putAll pairs).names = m.names ++ pairs.names.filter (· ∉ m.names) := by
  induction pairs generalizing m with
  | nil => simp [putAll, names]
  | cons pair rest ih =>
    obtain ⟨name, value⟩ := pair
    obtain ⟨hname, hrest⟩ := List.nodup_cons.mp h
    have hcons : names ((name, value) :: rest) = name :: names rest := rfl
    have hput : (m.putAll ((name, value) :: rest)).names = ((m.put name value).putAll rest).names :=
      rfl
    rw [hput, ih _ hrest, names_put, hcons]
    by_cases hm : name ∈ m.names
    · rw [if_pos hm, List.filter_cons_of_neg (by simpa using hm)]
    · -- The new name is none of those behind it, so each of these is new to the same names.
      have hfilter : (names rest).filter (· ∉ m.names ++ [name]) =
          (names rest).filter (· ∉ m.names) := by
        refine List.filter_congr fun other hother => ?_
        have hne : other ≠ name := fun he => hname (he ▸ hother)
        simp [hne]
      rw [if_neg hm, hfilter, List.filter_cons_of_pos (by simpa using hm), List.append_assoc,
        List.singleton_append]

theorem nodup_names_putAll (hm : m.names.Nodup) (pairs : Mapping α) :
    (m.putAll pairs).names.Nodup := by
  induction pairs generalizing m with
  | nil => exact hm
  | cons pair rest ih => exact ih (nodup_names_put hm pair.1 pair.2)

/-- Every pair of what is put together comes from one side. -/
theorem mem_putAll {pair : String × α} (h : pair ∈ m.putAll pairs) : pair ∈ m ∨ pair ∈ pairs := by
  induction pairs generalizing m with
  | nil => exact .inl h
  | cons first rest ih =>
    rcases ih (m := m.put first.1 first.2) h with hput | hrest
    · exact (mem_put hput).imp_right fun (he : pair = first) => he ▸ List.mem_cons_self
    · exact .inr (List.mem_cons_of_mem _ hrest)

/-- What is written under a name is found there. -/
theorem find?_putAll_of_mem (m : Mapping α) (h : pairs.names.Nodup) (hmem : (name, value) ∈ pairs) :
    (m.putAll pairs).find? name = some value := by
  induction pairs generalizing m with
  | nil => cases hmem
  | cons pair rest ih =>
    obtain ⟨hpair, hrest⟩ := List.nodup_cons.mp h
    obtain rfl | hmem := List.mem_cons.mp hmem
    · have hlater : ∀ other ∈ rest, other.1 ≠ name := fun other hother he =>
        hpair (List.mem_map.mpr ⟨other, hother, he⟩)
      exact (find?_putAll_of_forall_ne hlater).trans ((find?_put ..).trans (if_pos rfl))
    · exact ih _ hrest hmem

/-- Pairs of new names are put behind what is there. -/
theorem putAll_of_nodup (h : (names (m ++ pairs)).Nodup) : m.putAll pairs = m ++ pairs := by
  induction pairs generalizing m with
  | nil => exact (List.append_nil m).symm
  | cons pair rest ih =>
    have hnew : pair.1 ∉ m.names := by
      rw [names, List.map_append, List.map_cons] at h
      exact fun hm => (List.nodup_cons.mp (List.nodup_middle.mp h)).1 (List.mem_append_left _ hm)
    have hput : m.putAll (pair :: rest) = putAll (m ++ [pair]) rest :=
      congrArg (putAll · rest) (put_of_notMem hnew pair.2)
    rw [List.append_cons] at h ⊢
    rw [hput, ih h]

end Mapping

namespace Parameters

/-! ## The optional parameters that are given -/

/-- The optional parameters that are not null. -/
def given (optional : Parameters) : Parameters := optional.filter fun (_, v) => !v.isNull

section Given

variable {mandatory optional : Parameters} {name : String} {v : Value}

theorem mem_given : (name, v) ∈ given optional ↔ (name, v) ∈ optional ∧ v ≠ .null := by
  simp [given, Value.isNull_eq_false]

theorem nodup_names_given (h : optional.names.Nodup) : (given optional).names.Nodup :=
  h.sublist (List.filter_sublist.map Prod.fst)

/-- A null is passed over. -/
theorem assemble_eq (mandatory optional : Parameters) :
    mandatory.assemble optional = mandatory.putAll (given optional) := rfl

/-- Where no name comes twice, what is given is put behind the mandatory parameters. -/
theorem assemble_of_nodup (h : (Mapping.names (mandatory ++ optional)).Nodup) :
    mandatory.assemble optional = mandatory ++ given optional :=
  Mapping.putAll_of_nodup
    (h.sublist ((List.filter_sublist.append_left mandatory).map Prod.fst))

/-- What is given takes the place of what is mandatory. -/
theorem find?_assemble_of_mem (mandatory : Parameters) (h : optional.names.Nodup)
    (hmem : (name, v) ∈ optional) (hv : v ≠ .null) :
    (mandatory.assemble optional).find? name = some v :=
  Mapping.find?_putAll_of_mem mandatory (nodup_names_given h) (mem_given.mpr ⟨hmem, hv⟩)

/-- What is not given leaves what is mandatory. -/
theorem find?_assemble_of_forall_null (mandatory : Parameters)
    (h : ∀ v, (name, v) ∈ optional → v = .null) :
    (mandatory.assemble optional).find? name = mandatory.find? name := by
  refine Mapping.find?_putAll_of_forall_ne fun pair hpair he => ?_
  obtain ⟨hmem, hv⟩ := mem_given.mp hpair
  exact hv (h pair.2 (he ▸ hmem))

end Given

end Parameters

/-! ## The mandatory parameters of the caller -/

namespace Store

variable {s : Store} {mandatory : Address} {optional : Mapping Address}

/-- The optional entries whose values are not null. -/
def notNull (s : Store) (optional : Mapping Address) : Mapping Address :=
  optional.filter fun (_, a) => !(s.value a).isNull

theorem resolve_putAll (s : Store) (entries pairs : Mapping Address) :
    s.resolve (entries.putAll pairs) = (s.resolve entries).putAll (s.resolve pairs) := by
  induction pairs generalizing entries with
  | nil => rfl
  | cons pair rest ih =>
    have hput : entries.putAll (pair :: rest) = (entries.put pair.1 pair.2).putAll rest := rfl
    rw [hput, ih, resolve_put]
    rfl

theorem resolve_notNull (s : Store) (optional : Mapping Address) :
    s.resolve (s.notNull optional) = Parameters.given (s.resolve optional) := by
  simp [resolve, notNull, Parameters.given, List.filter_map, Function.comp_def]

theorem notNull_notNull (s : Store) (optional : Mapping Address) :
    s.notNull (s.notNull optional) = s.notNull optional := by
  simp [notNull, List.filter_filter]

/-- To write to a mapping that was made last is to make what is written. -/
theorem assign_make (s : Store) (entries : Mapping Address) (name : String) (a : Address) :
    (s.make entries).2.assign s.mappings.next name a = (s.make (entries.put name a)).2 :=
  congrArg (Store.mk s.values) (s.mappings.modify_make entries fun entries => entries.put name a)

/-- The optional parameters are written to the copy alone. -/
theorem assemble_eq (s : Store) (mandatory : Address) (optional : Mapping Address) :
    s.assemble mandatory optional =
      s.make ((s.entries mandatory).putAll (s.notNull optional)) := by
  have hloop (entries : Mapping Address) :
      optional.foldl (fun s' (name, a) =>
        if (s'.value a).isNull then s' else s'.assign s.mappings.next name a)
        (s.make entries).2 = (s.make (entries.putAll (s.notNull optional))).2 := by
    -- The values are never written to, so a null is a null from the first step to the last.
    induction optional generalizing entries with
    | nil => rfl
    | cons pair rest ih =>
      obtain ⟨name, a⟩ := pair
      have hvalue : (s.make entries).2.value a = s.value a := rfl
      cases hnull : (s.value a).isNull with
      | true => simpa [hvalue, hnull, notNull] using ih entries
      | false =>
        simpa [hvalue, hnull, notNull, assign_make, Mapping.putAll] using ih (entries.put name a)
  exact Prod.ext rfl (hloop (s.entries mandatory))

end Store

/-! ## What is put together -/

namespace Parameters

/-- What comes of mandatory parameters in a store and optional ones. -/
structure Assembles (s : Store) (mandatory : Address) (optional : Mapping Address)
    (result : Parameters) : Prop where
  /-- A mapping is made that stands for the result. -/
  made : (s.assemble mandatory optional).1 = s.mappings.next ∧
    (s.assemble mandatory optional).2.parameters s.mappings.next = result
  /-- The values that it refers to are those of the caller. -/
  shared : ∀ pair ∈ (s.assemble mandatory optional).2.entries s.mappings.next,
    pair ∈ s.entries mandatory ∨ pair ∈ optional
  /-- The values stay as they were, and so do all mappings that were there. -/
  kept : (s.assemble mandatory optional).2.values = s.values ∧ ∀ other < s.mappings.next,
    (s.assemble mandatory optional).2.entries other = s.entries other
  /-- The mandatory names come first, and those follow that are new and given. -/
  order : result.names = (s.parameters mandatory).names ++
    (given (s.resolve optional)).names.filter (· ∉ (s.parameters mandatory).names)
  nodup : result.names.Nodup
  /-- What is given takes the place of what is mandatory. -/
  written : ∀ name v, (name, v) ∈ s.resolve optional → v ≠ .null → result.find? name = some v
  /-- What is not given leaves what is mandatory. -/
  unwritten : ∀ name, (∀ v, (name, v) ∈ s.resolve optional → v = .null) →
    result.find? name = (s.parameters mandatory).find? name
  /-- Nulls can be left out. -/
  nulls : s.assemble mandatory (s.notNull optional) = s.assemble mandatory optional

theorem assembles_assemble {s : Store} {mandatory : Address} {optional : Mapping Address}
    (hmandatory : (s.parameters mandatory).names.Nodup) (hoptional : optional.names.Nodup) :
    Assembles s mandatory optional ((s.parameters mandatory).assemble (s.resolve optional)) where
  made := by
    rw [Store.assemble_eq, Store.parameters, Store.entries_make_next]
    exact ⟨rfl, by rw [Store.resolve_make, Store.resolve_putAll, Store.resolve_notNull]; rfl⟩
  shared pair hpair := by
    rw [Store.assemble_eq, Store.entries_make_next] at hpair
    exact (Mapping.mem_putAll hpair).imp id fun hmem => (List.mem_filter.mp hmem).1
  kept := by
    rw [Store.assemble_eq]
    exact ⟨rfl, fun other h => s.entries_make h _⟩
  order := Mapping.names_putAll _ (nodup_names_given (by rwa [Store.names_resolve]))
  nodup := Mapping.nodup_names_putAll hmandatory _
  written _ _ := find?_assemble_of_mem _ (by rwa [Store.names_resolve])
  unwritten _ := find?_assemble_of_forall_null _
  nulls := by rw [Store.assemble_eq, Store.assemble_eq, Store.notNull_notNull]

/-- A name that is there keeps its position, whatever stands around it. -/
example :
    assemble [("id", .str "a"), ("size", .str "small")]
        [("scale", .null), ("size", .str "large"), ("note", .str "")] =
      [("id", .str "a"), ("size", .str "large"), ("note", .str "")] := rfl

end Parameters

end BrokerClient

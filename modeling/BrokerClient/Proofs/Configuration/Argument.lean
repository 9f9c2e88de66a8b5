import BrokerClient.Proofs.Configuration.Setting
import BrokerClient.Proofs.Json.Kinds

/-!
# Arguments that are settings

Arguments that are named like fields, in whatever case, are no options: variables are then looked
up under their common start and without regard to case. Of two arguments for a field the first one
counts. An argument that is written to others keeps the place of the one with its very name, and
goes behind those in another spelling.
-/
namespace BrokerClient

theorem Mapping.find?_eq_none_of_forall_ne {α : Type} {m : Mapping α} {name : String}
    (h : ∀ pair ∈ m, pair.1 ≠ name) : m.find? name = none := by
  induction m with
  | nil => rfl
  | cons pair rest ih =>
    obtain ⟨hpair, hrest⟩ := List.forall_mem_cons.mp h
    rw [Mapping.find?, if_neg hpair, ih hrest]

/-- Of the values that are made for names, the one for a name is found under it. -/
theorem Mapping.find?_filterMap {α : Type} {f : String → Option α} {names : List String}
    {name : String} (h : name ∈ names) :
    Mapping.find? (names.filterMap fun n => (f n).map fun v => (n, v)) name = f name := by
  induction names with
  | nil => cases h
  | cons n rest ih =>
    by_cases hn : n = name
    · subst hn
      cases hf : f n with
      | some v => simp [hf, Mapping.find?]
      | none =>
        simp only [List.filterMap_cons, hf, Option.map_none]
        refine find?_eq_none_of_forall_ne fun pair hpair he => ?_
        obtain ⟨other, -, hother⟩ := List.mem_filterMap.mp hpair
        obtain ⟨v, hv, rfl⟩ := Option.map_eq_some_iff.mp hother
        subst he
        cases hf.symm.trans hv
    · have hrest := ih ((List.mem_cons.mp h).resolve_left (Ne.symm hn))
      cases hf : f n with
      | none => simpa [hf] using hrest
      | some v => simpa [hf, Mapping.find?, hn] using hrest

namespace Configuration

open Record Verdict

variable {environment : Environment} {arguments pairs : Mapping Value} {c : Configuration}
  {field : Field} {name : String} {v : Value}

/-- All arguments are named like fields, in whatever case. -/
def Plain (arguments : Mapping Value) : Prop :=
  ∀ pair ∈ arguments, Text.lowercase pair.1 ∈ fieldNames

/-- Names of other arguments than settings are not named like fields. -/
theorem special_not_mem : ∀ name ∈ "path" :: "__pydantic_self__" :: optionNames,
    Text.lowercase name ∉ fieldNames := by
  decide +kernel

theorem Plain.find?_eq_none (h : Plain arguments) (name : String)
    (hname : name ∈ "path" :: "__pydantic_self__" :: optionNames) :
    arguments.find? name = none :=
  Mapping.find?_eq_none_of_forall_ne fun pair hpair he =>
    special_not_mem name hname (he ▸ h pair hpair)

theorem Plain.option?_eq_none (h : Plain arguments) (name : String) (hname : name ∈ optionNames) :
    VariableRule.option? arguments name = none := by
  have hspecial : name ∈ "path" :: "__pydantic_self__" :: optionNames :=
    List.mem_cons_of_mem _ (List.mem_cons_of_mem _ hname)
  rw [VariableRule.option?, h.find?_eq_none name hspecial, Option.filter_none]

theorem Plain.refuseUnknown (h : Plain arguments) : refuseUnknown arguments = accepted () := by
  induction arguments with
  | nil => rfl
  | cons pair rest ih =>
    obtain ⟨hpair, hrest⟩ := List.forall_mem_cons.mp h
    rw [Configuration.refuseUnknown, ih hrest, if_pos (List.contains_iff_mem.mpr hpair)]
    rfl

/-- How variables are read unless said otherwise. -/
def plainRule : VariableRule := .ofArguments variableStart []

theorem Plain.rule_eq (h : Plain arguments) :
    VariableRule.ofArguments variableStart arguments = plainRule := by
  rw [VariableRule.ofArguments, VariableRule.isOn, VariableRule.isOn,
    h.option?_eq_none "_case_sensitive" (by decide),
    h.option?_eq_none "_env_ignore_empty" (by decide),
    h.option?_eq_none "_env_parse_none_str" (by decide)]
  rfl

theorem Plain.startOf_eq (h : Plain arguments) : startOf arguments = .ok variableStart := by
  have htarget : VariableRule.hasStart arguments = true := by
    rw [VariableRule.hasStart, h.option?_eq_none "_env_prefix_target" (by decide)]
  rw [startOf, htarget, h.option?_eq_none "_env_prefix" (by decide)]
  rfl

theorem Plain.checkPaths_eq (h : Plain arguments) (name : String) (hname : name ∈ optionNames) :
    checkPaths arguments name = .ok () := by
  rw [checkPaths, h.option?_eq_none name hname]

/-- Arguments that are settings only are all handed on, and nothing is said besides. -/
theorem Plain.ofArguments_eq (h : Plain arguments) :
    ofArguments environment arguments = ofSources environment plainRule [] arguments := by
  have hself : arguments.has "__pydantic_self__" = false := by
    rw [Mapping.has, h.find?_eq_none _ (by decide), Option.isSome_none]
  have hcount : checkCount arguments = .ok () := by
    rw [checkCount, h.option?_eq_none _ (by decide)]
  have hstart : checkStart arguments = .ok () := by
    rw [checkStart, h.option?_eq_none _ (by decide)]
  have hline : commandLineSettings arguments = .ok [] := by
    rw [commandLineSettings, h.option?_eq_none _ (by decide)]
  have hkept : ∀ pair ∈ arguments, (!optionNames.contains pair.1) = true := fun pair hpair => by
    have hname : pair.1 ∉ optionNames := fun hmem =>
      special_not_mem pair.1 (List.mem_cons_of_mem _ (List.mem_cons_of_mem _ hmem)) (h pair hpair)
    simpa using hname
  have hoptions : ofOptions environment arguments =
      ofSources environment plainRule [] arguments := by
    simp only [ofOptions, hcount, hstart, h.checkPaths_eq "_env_file" (by decide), hline,
      h.startOf_eq, h.checkPaths_eq "_secrets_dir" (by decide), bind, Except.bind, h.rule_eq]
    exact congrArg _ (List.filter_eq_self.mpr hkept)
  rw [ofArguments, hself, h.option?_eq_none "_build_sources" (by decide)]
  exact hoptions

/-- Settings only make a configuration exactly if it holds what they give to each field: the first
argument for it, or else its last variable. -/
theorem Plain.ofArguments_eq_ok (h : Plain arguments) :
    ofArguments environment arguments = .ok c ↔
      ∀ field : Field, field.Gives c
        (argument? arguments field.name <|> plainRule.lookup? environment field.name) := by
  have hsettings (field : Field) :
      (settings plainRule environment [] arguments).find? field.name =
        (argument? arguments field.name <|> plainRule.lookup? environment field.name) := by
    rw [settings, Mapping.find?_filterMap field.name_mem]
    rfl
  simp only [← hsettings, ← decode_eq_accepted, h.ofArguments_eq, ofSources, h.refuseUnknown]
  cases decode (settings plainRule environment [] arguments) <;>
    simp [Verdict.join, Verdict.map]

/-- An argument for another field changes nothing. -/
theorem argument?_put_of_ne {other : String} (h : Text.lowercase other ≠ name) :
    argument? (arguments.put other v) name = argument? arguments name := by
  induction arguments with
  | nil => simp [Mapping.put, argument?, h]
  | cons pair rest ih =>
    obtain ⟨n, w⟩ := pair
    rw [Mapping.put]
    split
    · rename_i hn
      subst hn
      simp [argument?, h]
    · by_cases hw : Text.lowercase n = name
      · simp [argument?, hw]
      · simpa [argument?, hw] using ih

/-- If all arguments for a field have its very name, another one with that name takes their place,
and one in another spelling counts only where there is none. -/
theorem argument?_put {other : String}
    (hspelled : ∀ pair ∈ arguments, Text.lowercase pair.1 = name → pair.1 = name)
    (h : Text.lowercase other = name) :
    argument? (arguments.put other v) name =
      if other = name then some v else (argument? arguments name <|> some v) := by
  induction arguments with
  | nil => simp [Mapping.put, argument?, h]
  | cons pair rest ih =>
    obtain ⟨n, w⟩ := pair
    obtain ⟨hpair, hrest⟩ := List.forall_mem_cons.mp hspelled
    rw [Mapping.put]
    split
    · rename_i hn
      subst hn
      rw [if_pos (hpair h)]
      simp [argument?, h]
    · rename_i hn
      by_cases hw : Text.lowercase n = name
      · have hother : other ≠ name := fun he => hn ((hpair hw).trans he.symm)
        simp [argument?, hw, hother]
      · simpa [argument?, hw] using ih hrest

theorem argument?_putAll_of_forall_ne (h : ∀ pair ∈ pairs, Text.lowercase pair.1 ≠ name) :
    argument? (arguments.putAll pairs) name = argument? arguments name := by
  induction pairs generalizing arguments with
  | nil => rfl
  | cons pair rest ih =>
    obtain ⟨hpair, hrest⟩ := List.forall_mem_cons.mp h
    exact (ih hrest).trans (argument?_put_of_ne hpair)

/-- What one of several arguments makes of a field, where the others are for other fields. -/
theorem argument?_putAll {other : String}
    (hspelled : ∀ pair ∈ arguments, Text.lowercase pair.1 = name → pair.1 = name)
    (hnodup : (pairs.map fun pair => Text.lowercase pair.1).Nodup) (hmem : (other, v) ∈ pairs)
    (h : Text.lowercase other = name) :
    argument? (arguments.putAll pairs) name =
      if other = name then some v else (argument? arguments name <|> some v) := by
  induction pairs generalizing arguments with
  | nil => cases hmem
  | cons pair rest ih =>
    obtain ⟨hfirst, hrest⟩ := List.nodup_cons.mp hnodup
    rcases List.mem_cons.mp hmem with rfl | hmem
    · have hne : ∀ pair ∈ rest, Text.lowercase pair.1 ≠ name := fun pair hpair he =>
        hfirst (List.mem_map.mpr ⟨pair, hpair, he.trans h.symm⟩)
      exact (argument?_putAll_of_forall_ne hne).trans (argument?_put hspelled h)
    · have hne : Text.lowercase pair.1 ≠ name := fun he =>
        hfirst (List.mem_map.mpr ⟨_, hmem, h.trans he.symm⟩)
      have hput : ∀ p ∈ arguments.put pair.1 pair.2, Text.lowercase p.1 = name → p.1 = name :=
        Mapping.forall_mem_put hspelled fun he => absurd he hne
      refine (ih hput hrest hmem).trans ?_
      rw [argument?_put_of_ne hne]

end Configuration

end BrokerClient

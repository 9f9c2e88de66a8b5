import BrokerClient.Proofs.Configuration.Argument
import BrokerClient.Proofs.Traversal
import BrokerClient.Proofs.Value.Decidable
import Mathlib.Data.List.Nodup

/-!
# Precedence of sources

An override wins over a variable, a variable over the file and the file over the default, field by
field. There is one exception. A field that the file sets is looked for among the variables in
capitals only, and among the overrides under its very name only. A variable or an override in
another spelling is overlooked there and loses against the file, although without the file it
would count.
-/
namespace BrokerClient.Configuration

open Record Verdict

/-- Where settings come from. -/
structure Sources where
  file : Mapping Value
  environment : Environment
  overrides : Mapping Value
  deriving DecidableEq

namespace Sources

/-- What sources say about one field. -/
def about (s : Sources) (field : Field) : Sources where
  file := s.file.filter fun pair => pair.1 == field.name
  environment := s.environment.filter fun pair =>
    Text.lowercase pair.1 == Text.lowercase (variableStart ++ field.name)
  overrides := s.overrides.filter fun pair => Text.lowercase pair.1 == field.name

/-- The file at a path holds what the sources say. Without a file they say nothing there. -/
def FromFile (s : Sources) (path : String) : Option String → Prop
  | none => s.file = []
  | some text =>
    fileSettings path text = .ok (s.file.map fun pair => (.value (.str pair.1), pair.2))

/-- The file and the overrides are mappings of fields. -/
structure Named (s : Sources) : Prop where
  file : ∀ pair ∈ s.file, pair.1 ∈ fieldNames
  distinct : s.file.names.Nodup
  overrides : ∀ pair ∈ s.overrides, Text.lowercase pair.1 ∈ fieldNames
  once : (s.overrides.map fun pair => Text.lowercase pair.1).Nodup

/-- All values can be settings of their fields. -/
structure Valid (s : Sources) : Prop where
  file : ∀ field, ∀ pair ∈ (s.about field).file, field.Valid pair.2
  environment : ∀ field, ∀ pair ∈ (s.about field).environment, field.Valid (.str pair.2)
  overrides : ∀ field, ∀ pair ∈ (s.about field).overrides, field.Valid pair.2

end Sources

/-- The setting that comes first in what sources say about a field. Of several variables it is the
last one. -/
inductive Decides : Sources → Option Value → Prop
  | overridden {s : Sources} {name : String} {v : Value} (hmem : (name, v) ∈ s.overrides) :
      Decides s (some v)
  | inEnvironment {s : Sources} {name text : String} (hoverrides : s.overrides = [])
      (hlast : s.environment.getLast? = some (name, text)) : Decides s (some (.str text))
  | inFile {s : Sources} {name : String} {v : Value} (hoverrides : s.overrides = [])
      (henvironment : s.environment = []) (hmem : (name, v) ∈ s.file) : Decides s (some v)
  | unset {s : Sources} (hoverrides : s.overrides = []) (henvironment : s.environment = [])
      (hfile : s.file = []) : Decides s none

/-- The file sets a field for which there are variables or overrides, none of them in the one
spelling that is looked for. -/
structure Overlooks (field : Field) (s : Sources) : Prop where
  file : s.file ≠ []
  environment : ∀ pair ∈ s.environment, pair.1 ≠ capitalVariable field.name
  overrides : ∀ pair ∈ s.overrides, pair.1 ≠ field.name
  outranked : s.environment ≠ [] ∨ s.overrides ≠ []

/-- A configuration has in each field what decides it, except where that is overlooked. There it has
what the file says. -/
structure Follows (s : Sources) (c : Configuration) : Prop where
  settled : ∀ field, ∃ setting, Decides (s.about field) setting
  decided : ∀ (field : Field) (setting : Option Value), ¬Overlooks field (s.about field) →
    Decides (s.about field) setting → field.Gives c setting
  overlooked : ∀ field : Field, Overlooks field (s.about field) →
    ∃ v, (field.name, v) ∈ s.file ∧ field.Gives c (some v)

variable {s s' : Sources} {path name : String} {text : Option String} {environment : Environment}
  {field : Field} {v : Value} {setting : Option Value} {c : Configuration}

theorem exists_decides (s : Sources) : ∃ setting, Decides s setting := by
  obtain ⟨file, environment, overrides⟩ := s
  cases overrides with
  | cons first rest => exact ⟨_, .overridden List.mem_cons_self⟩
  | nil =>
    cases hlast : environment.getLast? with
    | some last => exact ⟨_, .inEnvironment rfl hlast⟩
    | none =>
      have henvironment : environment = [] := List.getLast?_eq_none_iff.mp hlast
      cases file with
      | cons first rest => exact ⟨_, .inFile rfl henvironment List.mem_cons_self⟩
      | nil => exact ⟨_, .unset rfl henvironment rfl⟩

/-- The last variable for a field is the one that is looked up. -/
theorem lookup?_eq_getLast? (s : Sources) (field : Field) :
    plainRule.lookup? s.environment field.name =
      (s.about field).environment.getLast?.map fun pair => .str pair.2 := by
  have hfind : (s.about field).environment.getLast? = s.environment.reverse.find? fun pair =>
      Text.lowercase pair.1 == Text.lowercase (variableStart ++ field.name) := by
    rw [Sources.about, ← List.head?_reverse, ← List.filter_reverse, List.head?_filter]
  rw [hfind]
  simp only [VariableRule.lookup?, plainRule, VariableRule.ofArguments, VariableRule.counts,
    VariableRule.compared, VariableRule.isOn, VariableRule.option?, VariableRule.valueOf,
    Mapping.find?_nil, Option.filter_none, Option.any_none, Bool.false_and, Bool.not_false,
    Bool.and_true, Bool.false_eq_true, if_false]

namespace Sources

/-- What the file says without the fields that have a variable in capitals. -/
def kept (s : Sources) : Mapping Value :=
  s.file.filter fun pair => (s.environment.lookup (capitalVariable pair.1)).isNone

/-- The arguments that the sources come to. -/
def arguments (s : Sources) : Mapping Value := (Mapping.ofPairs s.kept).putAll s.overrides

/-- The setting that counts for a field. -/
def counted (s : Sources) (field : Field) : Option Value :=
  argument? s.arguments field.name <|> plainRule.lookup? s.environment field.name

theorem mem_kept :
    (field.name, v) ∈ s.kept ↔
      (field.name, v) ∈ s.file ∧
        ∀ pair ∈ (s.about field).environment, pair.1 ≠ capitalVariable field.name := by
  have hset : s.environment.lookup (capitalVariable field.name) = none ↔
      ∀ pair ∈ (s.about field).environment, pair.1 ≠ capitalVariable field.name := by
    rw [List.lookup_eq_none_iff]
    simp only [about, List.mem_filter, beq_iff_eq, and_imp]
    constructor
    · exact fun h pair hpair _ he => by simpa [he] using h pair hpair
    · intro h pair hpair
      have hne (he : capitalVariable field.name = pair.1) : False :=
        h pair hpair (he ▸ field.lowercase_capitalVariable) he.symm
      simpa using hne
  simp only [kept, List.mem_filter, Option.isNone_iff_eq_none]
  exact and_congr_right fun _ => hset

theorem counted_of_argument? (h : argument? s.arguments field.name = some v) :
    s.counted field = some v := by
  rw [counted, h]
  rfl

/-- Without overrides for a field it is left to the file. -/
theorem argument?_of_overrides_nil (h : (s.about field).overrides = []) :
    argument? s.arguments field.name = argument? (Mapping.ofPairs s.kept) field.name :=
  argument?_putAll_of_forall_ne (by simpa [about] using h)

namespace Named

theorem kept (h : s.Named) : ∀ pair ∈ s.kept, pair.1 ∈ fieldNames :=
  fun pair hpair => h.file pair (List.mem_of_mem_filter hpair)

/-- The file names its fields in lower case. -/
theorem lowercase_kept (h : s.Named) : ∀ pair ∈ s.kept, Text.lowercase pair.1 = pair.1 := by
  intro pair hpair
  obtain ⟨field, hfield⟩ := Field.mem_fieldNames.mp (h.kept pair hpair)
  rw [← hfield, Field.lowercase_name]

theorem nodup_kept (h : s.Named) : (s.kept.map fun pair => Text.lowercase pair.1).Nodup := by
  rw [List.map_congr_left h.lowercase_kept]
  exact h.distinct.sublist (List.filter_sublist.map _)

theorem spelled_ofPairs (h : s.Named) (field : Field) :
    ∀ pair ∈ Mapping.ofPairs s.kept, Text.lowercase pair.1 = field.name → pair.1 = field.name :=
  Mapping.forall_mem_ofPairs fun pair hpair he => (h.lowercase_kept pair hpair).symm.trans he

theorem plain_arguments (h : s.Named) : Plain s.arguments := by
  refine Mapping.forall_mem_putAll (Mapping.forall_mem_ofPairs fun pair hpair => ?_) h.overrides
  rw [h.lowercase_kept pair hpair]
  exact h.kept pair hpair

theorem argument?_kept (h : s.Named) (hmem : (field.name, v) ∈ s.kept) :
    argument? (Mapping.ofPairs s.kept) field.name = some v :=
  (argument?_putAll (List.forall_mem_nil _) h.nodup_kept hmem field.lowercase_name).trans
    (if_pos rfl)

theorem argument?_kept_eq_none (h : s.Named) (hnone : ∀ v, (field.name, v) ∉ s.kept) :
    argument? (Mapping.ofPairs s.kept) field.name = none := by
  refine (argument?_putAll_of_forall_ne fun pair hpair he => ?_).trans rfl
  exact hnone pair.2 (((h.lowercase_kept pair hpair).symm.trans he) ▸ hpair)

/-- There is one override for a field at most. -/
theorem override_unique (h : s.Named) {pair other : String × Value}
    (hpair : pair ∈ (s.about field).overrides) (hother : other ∈ (s.about field).overrides) :
    pair = other := by
  obtain ⟨hpair, hname⟩ := List.mem_filter.mp hpair
  obtain ⟨hother, hname'⟩ := List.mem_filter.mp hother
  exact List.inj_on_of_nodup_map h.once hpair hother
    ((beq_iff_eq.mp hname).trans (beq_iff_eq.mp hname').symm)

/-- What an override makes of what is kept of the file. -/
theorem argument?_override (h : s.Named) (hmem : (name, v) ∈ (s.about field).overrides) :
    argument? s.arguments field.name =
      if name = field.name then some v
      else (argument? (Mapping.ofPairs s.kept) field.name <|> some v) := by
  obtain ⟨hmem, hfield⟩ := List.mem_filter.mp hmem
  exact argument?_putAll (h.spelled_ofPairs field) h.once hmem (beq_iff_eq.mp hfield)

/-- An override counts under the very name of its field, and in another spelling as well where
nothing is kept of the file. -/
theorem counted_override (h : s.Named) (hmem : (name, v) ∈ (s.about field).overrides)
    (hname : name = field.name ∨ ∀ v, (field.name, v) ∉ s.kept) : s.counted field = some v := by
  refine counted_of_argument? ((h.argument?_override hmem).trans ?_)
  rcases hname with hname | hnone
  · rw [if_pos hname]
  · rw [h.argument?_kept_eq_none hnone]
    exact ite_self _

/-- What is kept of the file counts unless an override has the very name of its field. -/
theorem counted_kept (h : s.Named) (hmem : (field.name, v) ∈ s.kept)
    (hnone : ∀ pair ∈ (s.about field).overrides, pair.1 ≠ field.name) :
    s.counted field = some v := by
  refine counted_of_argument? ?_
  cases hoverrides : (s.about field).overrides with
  | nil => exact (argument?_of_overrides_nil hoverrides).trans (h.argument?_kept hmem)
  | cons pair rest =>
    have hpair : pair ∈ (s.about field).overrides := hoverrides ▸ List.mem_cons_self
    rw [h.argument?_override hpair, if_neg (hnone pair hpair), h.argument?_kept hmem]
    rfl

/-- Where there is neither an override nor anything kept of the file, the last variable counts. -/
theorem counted_variable (h : s.Named) (hoverrides : (s.about field).overrides = [])
    (hnone : ∀ v, (field.name, v) ∉ s.kept) :
    s.counted field = (s.about field).environment.getLast?.map fun pair => .str pair.2 := by
  rw [Sources.counted, argument?_of_overrides_nil hoverrides, h.argument?_kept_eq_none hnone,
    lookup?_eq_getLast?]
  rfl

/-- What decides a field counts for it, unless it is overlooked. -/
theorem counted_of_decides (h : s.Named) (hseen : ¬Overlooks field (s.about field))
    (hdecides : Decides (s.about field) setting) : s.counted field = setting := by
  -- Where something is kept of the file and no override has its very name, there is nothing else.
  have hkept {w : Value} (hw : (field.name, w) ∈ s.kept)
      (hoverrides : ∀ pair ∈ (s.about field).overrides, pair.1 ≠ field.name) :
      (s.about field).environment = [] ∧ (s.about field).overrides = [] := by
    obtain ⟨hfile, henvironment⟩ := Sources.mem_kept.mp hw
    by_contra hsome
    refine hseen ⟨?_, henvironment, hoverrides, ?_⟩
    · exact List.ne_nil_of_mem (List.mem_filter.mpr ⟨hfile, beq_self_eq_true _⟩)
    · simpa only [not_and_or] using hsome
  generalize hs : s.about field = t at hdecides
  cases hdecides with
  | @overridden name v hmem =>
    have hmem : (name, v) ∈ (s.about field).overrides := hs ▸ hmem
    refine h.counted_override hmem (or_iff_not_imp_left.mpr fun hname w hw => ?_)
    have hspelled : ∀ pair ∈ (s.about field).overrides, pair.1 ≠ field.name := fun pair hpair =>
      h.override_unique hmem hpair ▸ hname
    exact List.ne_nil_of_mem hmem (hkept hw hspelled).2
  | inEnvironment hoverrides hlast =>
    subst hs
    have hnone (w : Value) (hw : (field.name, w) ∈ s.kept) : False := by
      have henvironment := (hkept hw (by simp [hoverrides])).1
      simp [henvironment] at hlast
    rw [h.counted_variable hoverrides hnone, hlast]
    rfl
  | inFile hoverrides henvironment hmem =>
    subst hs
    obtain ⟨hfile, hname⟩ := List.mem_filter.mp hmem
    obtain rfl := beq_iff_eq.mp hname
    have hkept := Sources.mem_kept.mpr ⟨hfile, by simp [henvironment]⟩
    exact h.counted_kept hkept (by simp [hoverrides])
  | unset hoverrides henvironment hfile =>
    subst hs
    have hnone (w : Value) (hw : (field.name, w) ∈ s.kept) : False := by
      have hmem : (field.name, w) ∈ (s.about field).file :=
        List.mem_filter.mpr ⟨(Sources.mem_kept.mp hw).1, beq_self_eq_true _⟩
      exact List.ne_nil_of_mem hmem hfile
    rw [h.counted_variable hoverrides hnone, henvironment]
    rfl

/-- Where a variable or an override is overlooked, what the file says counts. -/
theorem counted_of_overlooks (h : s.Named) (hover : Overlooks field (s.about field)) :
    ∃ v, (field.name, v) ∈ s.file ∧ s.counted field = some v := by
  obtain ⟨⟨name, v⟩, hpair⟩ := List.exists_mem_of_ne_nil _ hover.file
  obtain ⟨hfile, hname⟩ := List.mem_filter.mp hpair
  obtain rfl := beq_iff_eq.mp hname
  exact ⟨v, hfile, h.counted_kept (Sources.mem_kept.mpr ⟨hfile, hover.environment⟩) hover.overrides⟩

/-- What counts for a field is said about that field. -/
theorem counted_eq (h : s.Named) (h' : s'.Named) (habout : s'.about field = s.about field) :
    s'.counted field = s.counted field := by
  by_cases hover : Overlooks field (s.about field)
  · obtain ⟨v, hv, hcounted⟩ := h.counted_of_overlooks hover
    obtain ⟨v', hv', hcounted'⟩ := h'.counted_of_overlooks (habout ▸ hover)
    have hmem : (field.name, v') ∈ s.file := by
      have hfile : (field.name, v') ∈ (s'.about field).file :=
        List.mem_filter.mpr ⟨hv', beq_self_eq_true _⟩
      exact List.mem_of_mem_filter (habout ▸ hfile)
    rw [hcounted, hcounted', ← Mapping.find?_eq_some h.distinct |>.mpr hv,
      ← Mapping.find?_eq_some h.distinct |>.mpr hmem]
  · obtain ⟨setting, hdecides⟩ := exists_decides (s.about field)
    rw [h.counted_of_decides hover hdecides,
      h'.counted_of_decides (habout ▸ hover) (habout ▸ hdecides)]

end Named

/-- Whatever counts can be the setting of its field, if all values can. -/
theorem Valid.counted (h : s.Named) (hvalid : s.Valid) (hcounted : s.counted field = some v) :
    field.Valid v := by
  by_cases hover : Overlooks field (s.about field)
  · obtain ⟨w, hw, hcounted'⟩ := h.counted_of_overlooks hover
    obtain rfl := Option.some.inj (hcounted'.symm.trans hcounted)
    exact hvalid.file field _ (List.mem_filter.mpr ⟨hw, beq_self_eq_true _⟩)
  · obtain ⟨setting, hdecides⟩ := exists_decides (s.about field)
    obtain rfl := (h.counted_of_decides hover hdecides).symm.trans hcounted
    generalize hs : s.about field = t at hdecides
    subst hs
    cases hdecides with
    | overridden hmem => exact hvalid.overrides field _ hmem
    | inEnvironment _ hlast => exact hvalid.environment field _ (List.mem_of_getLast? hlast)
    | inFile _ _ hmem => exact hvalid.file field _ hmem

end Sources

theorem hasVariable_name (environment : Environment) (field : Field) :
    hasVariable environment (.value (.str field.name)) =
      .ok (environment.lookup (capitalVariable field.name)).isSome := by
  have hpoints : let points := variablePoints (Yaml.Datum.value (.str field.name)).points
      unencodable? 0 points = none ∧ points.any Text.isHalf = false ∧
        Text.ofPoints points = capitalVariable field.name := by
    cases field <;> decide +kernel
  obtain ⟨hencodable, hhalf, hcapital⟩ := hpoints
  rw [hasVariable]
  simp only [hencodable, hhalf, hcapital, isOversized]
  rfl

/-- Of a file that sets fields, those are left that have no variable in capitals. -/
theorem withoutVariables_eq {file : Mapping Value} (h : ∀ pair ∈ file, pair.1 ∈ fieldNames) :
    withoutVariables environment (file.map fun pair => (.value (.str pair.1), pair.2)) =
      .ok ((file.filter fun pair => (environment.lookup (capitalVariable pair.1)).isNone).map
        fun pair => (.value (.str pair.1), pair.2)) := by
  induction file with
  | nil => rfl
  | cons pair rest ih =>
    obtain ⟨hpair, hrest⟩ := List.forall_mem_cons.mp h
    obtain ⟨field, hfield⟩ := Field.mem_fieldNames.mp hpair
    rw [List.map_cons, withoutVariables, ih hrest, ← hfield, hasVariable_name, List.filter_cons,
      ← hfield]
    cases environment.lookup (capitalVariable field.name) with
    | none => simp [bind, Except.bind, pure, Except.pure, hfield]
    | some v => simp [bind, Except.bind, pure, Except.pure]

theorem namedSettings_eq (file : Mapping Value) :
    namedSettings (file.map fun pair => (.value (.str pair.1), pair.2)) =
      .ok (Mapping.ofPairs file) :=
  fmap_eq_ok.mpr ⟨file, mapM_eq_ok.mpr (List.forall₂_map_left_iff.mpr
    (List.forall₂_same.mpr fun _ _ => rfl)), rfl⟩

/-- Sources are loaded as the arguments that they come to. -/
theorem load_eq (hfile : s.FromFile path text) (hnamed : s.Named) :
    load path text s.environment s.overrides = ofArguments s.environment s.arguments := by
  have hloaded (pairs : List (Yaml.Datum × Value))
      (hpairs : pairs = s.file.map fun pair => (.value (.str pair.1), pair.2)) :
      (do
        let pairs ← withoutVariables s.environment pairs
        let ofFile ← namedSettings pairs
        ofArguments s.environment (Mapping.putAll ofFile s.overrides)) =
      ofArguments s.environment s.arguments := by
    rw [hpairs, withoutVariables_eq hnamed.file]
    simp only [bind, Except.bind, namedSettings_eq]
    rfl
  cases text with
  | none => exact hloaded [] (by rw [show s.file = [] from hfile, List.map_nil])
  | some text =>
    have hread : fileSettings path text = _ := hfile
    simp only [load, hread]
    exact hloaded _ rfl

theorem load_eq_ok (hfile : s.FromFile path text) (hnamed : s.Named) :
    load path text s.environment s.overrides = .ok c ↔
      ∀ field : Field, field.Gives c (s.counted field) := by
  rw [load_eq hfile hnamed, hnamed.plain_arguments.ofArguments_eq_ok]
  rfl

/-- Sources whose values are all valid make a configuration of what counts in them. -/
theorem exists_load (hfile : s.FromFile path text) (hnamed : s.Named) (hvalid : s.Valid) :
    ∃ c, load path text s.environment s.overrides = .ok c ∧
      ∀ field : Field, field.Gives c (s.counted field) := by
  obtain ⟨c, hc⟩ := Field.exists_gives fun field v => Sources.Valid.counted hnamed hvalid
  exact ⟨c, (load_eq_ok hfile hnamed).mpr hc, hc⟩

theorem loadAt_eq (hnamed : s.Named) :
    loadAt path text s.environment s.overrides = load path text s.environment s.overrides := by
  have hpath : s.overrides.find? "path" = none :=
    Plain.find?_eq_none hnamed.overrides _ List.mem_cons_self
  rw [loadAt, Mapping.has, hpath]
  rfl

theorem loadDefault_eq (hnamed : s.Named) :
    loadDefault path text s.environment s.overrides = load path text s.environment s.overrides := by
  have hpath : s.overrides.find? "path" = none :=
    Plain.find?_eq_none hnamed.overrides _ List.mem_cons_self
  rw [loadDefault, hpath]

/-- **Precedence.** Sources whose names are fields and whose values are valid make a
configuration, whether a path is given or not. It takes each field from what decides it, except
where that is overlooked, and each field regardless of what the sources say about the others. -/
theorem precedence_unless_overlooked (hfile : s.FromFile path text) (hnamed : s.Named)
    (hvalid : s.Valid) :
    ∃ c, loadAt path text s.environment s.overrides = .ok c ∧
      loadDefault path text s.environment s.overrides = .ok c ∧ Follows s c ∧
      ∀ {s' : Sources} {text' : Option String} {c' : Configuration}, s'.FromFile path text' →
        s'.Named → loadAt path text' s'.environment s'.overrides = .ok c' →
        ∀ field : Field, s'.about field = s.about field → field.held c' = field.held c := by
  obtain ⟨c, hload, hgives⟩ := exists_load hfile hnamed hvalid
  refine ⟨c, (loadAt_eq hnamed).trans hload, (loadDefault_eq hnamed).trans hload, ?_, ?_⟩
  · refine ⟨fun field => exists_decides _, fun field setting hseen hdecides => ?_,
      fun field hover => ?_⟩
    · exact hnamed.counted_of_decides hseen hdecides ▸ hgives field
    · obtain ⟨v, hv, hcounted⟩ := hnamed.counted_of_overlooks hover
      exact ⟨v, hv, hcounted ▸ hgives field⟩
  · intro s' text' c' hfile' hnamed' hload' field habout
    have hgives' := (load_eq_ok hfile' hnamed').mp ((loadAt_eq hnamed').symm.trans hload') field
    exact (hnamed.counted_eq hnamed' habout ▸ hgives').held_eq (hgives field)

/-- What a document holds, if it is a mapping and all its names are texts. -/
def entries? : Yaml.Content → Option (Mapping Value)
  | .nothing | .other => none
  | .mapping pairs => named? pairs
where
  named? : List (Yaml.Datum × Value) → Option (Mapping Value)
    | [] => some []
    | (.value (.str name), v) :: rest => (named? rest).map ((name, v) :: ·)
    | _ => none

theorem eq_of_named? {pairs : List (Yaml.Datum × Value)} {entries : Mapping Value}
    (h : entries?.named? pairs = some entries) :
    pairs = entries.map fun pair => (.value (.str pair.1), pair.2) := by
  induction pairs generalizing entries with
  | nil =>
    obtain rfl := Option.some.inj h
    rfl
  | cons pair rest ih =>
    unfold entries?.named? at h
    split at h
    · cases ‹_ :: _ = []›
    · rename_i hpair
      obtain ⟨rfl, rfl⟩ := List.cons.inj hpair
      obtain ⟨entries, hentries, rfl⟩ := Option.map_eq_some_iff.mp h
      rw [List.map_cons, ← ih hentries]
    · cases h

theorem fromFile_of_entries? (path : String) {content : String}
    (h : (Yaml.read content).toOption.bind entries? = some s.file) :
    s.FromFile path (some content) := by
  cases hread : Yaml.read content with
  | error failure => simp [hread, Except.toOption] at h
  | ok found =>
    rw [hread] at h
    cases found with
    | nothing | other => cases h
    | mapping pairs => simp only [Sources.FromFile, fileSettings, hread, eq_of_named? h]

/-- A file that sets three fields. Two of them have a variable, one in capitals and one not. -/
def mixedSources : Sources where
  file := [("server", .str "https://file"), ("username", .str "f"), ("proxy", .str "f")]
  environment := [("paasclient_server", "https://env"), ("PAASCLIENT_USERNAME", "e")]
  overrides := [("client_id", .str "o")]

/-- The file. -/
def mixedText : String := "server: https://file\nusername: f\nproxy: f\n"

theorem fromFile_mixedSources (path : String) :
    mixedSources.FromFile path (some mixedText) :=
  fromFile_of_entries? path (by decide +kernel)

theorem named_mixedSources : mixedSources.Named :=
  ⟨by decide +kernel, by decide +kernel, by decide +kernel, by decide +kernel⟩

theorem valid_mixedSources : mixedSources.Valid :=
  ⟨by decide +kernel, by decide +kernel, by decide +kernel⟩

/-- The override, the variable in capitals, the file and the default count. -/
theorem precedence_mixedSources :
    ∃ c, loadAt "c.yaml" (some mixedText) mixedSources.environment mixedSources.overrides = .ok c ∧
      Field.clientId.Gives c (some (.str "o")) ∧ Field.username.Gives c (some (.str "e")) ∧
      Field.proxy.Gives c (some (.str "f")) ∧ Field.timeout.Gives c none := by
  obtain ⟨c, hload, -, hfollows, -⟩ := precedence_unless_overlooked
    (fromFile_mixedSources "c.yaml") named_mixedSources valid_mixedSources
  have hclient : (mixedSources.about .clientId).file = [] := by decide +kernel
  have htimeout : mixedSources.about .timeout = ⟨[], [], []⟩ := by decide +kernel
  have hcapitals : ("PAASCLIENT_USERNAME", "e") ∈ (mixedSources.about .username).environment ∧
      "PAASCLIENT_USERNAME" = capitalVariable Field.username.name := by decide +kernel
  have hoverride : ("client_id", .str "o") ∈ (mixedSources.about .clientId).overrides := by
    decide +kernel
  have hvariable : (mixedSources.about .username).overrides = [] ∧
      (mixedSources.about .username).environment.getLast? = some ("PAASCLIENT_USERNAME", "e") := by
    decide +kernel
  have hproxy : mixedSources.about .proxy = ⟨[("proxy", .str "f")], [], []⟩ := by decide +kernel
  refine ⟨c, hload, ?_, ?_, ?_, ?_⟩
  · exact hfollows.decided _ _ (fun h => h.file hclient) (.overridden hoverride)
  · exact hfollows.decided _ _ (fun h => h.environment _ hcapitals.1 hcapitals.2)
      (.inEnvironment hvariable.1 hvariable.2)
  · refine hfollows.decided _ _ (fun h => ?_)
      (hproxy ▸ .inFile rfl rfl (List.mem_singleton_self _))
    rw [hproxy] at h
    exact h.outranked.elim (absurd rfl) (absurd rfl)
  · exact hfollows.decided _ _ (fun h => h.file (htimeout ▸ rfl)) (htimeout ▸ .unset rfl rfl rfl)

/-- The other variable is overlooked: it decides its field, and the configuration does not have its
value there but that of the file. -/
theorem variable_overlooked :
    mixedSources.FromFile "c.yaml" (some mixedText) ∧
      mixedSources.Named ∧ mixedSources.Valid ∧
      Decides (mixedSources.about .server) (some (.str "https://env")) ∧
      ∃ c,
        loadAt "c.yaml" (some mixedText) mixedSources.environment mixedSources.overrides = .ok c ∧
        c.server = "https://file" ∧ ¬Field.server.Gives c (some (.str "https://env")) := by
  obtain ⟨c, hload, hgives⟩ :=
    exists_load (fromFile_mixedSources "c.yaml") named_mixedSources valid_mixedSources
  have hvariable : (mixedSources.about .server).overrides = [] ∧
      (mixedSources.about .server).environment.getLast? =
        some ("paasclient_server", "https://env") := by
    decide +kernel
  have hcounted : mixedSources.counted .server = some (.str "https://file") := by decide +kernel
  have hfile : Field.server.Gives c (some (.str "https://file")) := hcounted ▸ hgives .server
  have hserver : "https://file" = c.server := accepted.inj hfile
  refine ⟨fromFile_mixedSources _, named_mixedSources, valid_mixedSources,
    .inEnvironment hvariable.1 hvariable.2, c, (loadAt_eq named_mixedSources).trans hload,
    hserver.symm,
    fun henv => ?_⟩
  have henv : "https://env" = c.server := accepted.inj henv
  exact absurd (henv.trans hserver.symm) (by decide)

end BrokerClient.Configuration

import BrokerClient.Proofs.Json.Kinds
import BrokerClient.Proofs.Record.Abort
import BrokerClient.Proofs.Record.Acceptance
import BrokerClient.Proofs.Representation.Reading
import BrokerClient.Request.Check

/-!
# Declarations of parameters

The declaration of a parameter is a JSON object. It is accepted if its name is a text, if its type
and its description are texts where they are given, and if its options can be gone through. Lists
of options can be, but texts and objects can be too: the options of a text are its characters, and
those of an object are its names. Numbers and truth values abort the decoding.
-/
namespace BrokerClient

open Record Verdict

/-- The text that a JSON value is, if it is one. -/
def Value.string? : Value → Option String
  | str s => some s
  | torn points => some (Text.ofPoints points)
  | _ => none

section Fields

variable {fields : Mapping Value} {name s : String} {v : Value}

theorem Value.isJson_of_find? (hjson : (Value.obj fields).isJson = true)
    (h : fields.find? name = some v) : v.isJson = true :=
  holdJson_iff.mp hjson _ (Mapping.mem_of_find? h)

theorem Value.isJson_given (hjson : (Value.obj fields).isJson = true) (name : String) :
    (given fields name).isJson = true := by
  rw [given]
  cases h : fields.find? name with
  | none => rfl
  | some v => exact isJson_of_find? hjson h

/-- A field does not depend on what is written under other names. -/
theorem Value.given_put {other : String} (h : name ≠ other) :
    given (fields.put other v) name = given fields name := by
  rw [given, given, Mapping.find?_put, if_neg h]

theorem Record.string_eq_accepted (hjson : v.isJson = true) :
    string v = accepted s ↔ v.string? = some s := by
  cases v with
  | word _ | bytes _ => cases hjson
  | _ => simp [string, Value.string?, problem]

theorem Record.required_string_eq_accepted (hjson : (Value.obj fields).isJson = true) :
    required name string fields = accepted s ↔
      (fields.find? name).bind Value.string? = some s := by
  rw [required_eq_accepted, Option.bind_eq_some_iff]
  constructor
  · rintro ⟨v, hfind, hv⟩
    exact ⟨v, hfind, (string_eq_accepted (Value.isJson_of_find? hjson hfind)).mp hv⟩
  · rintro ⟨v, hfind, hv⟩
    exact ⟨v, hfind, (string_eq_accepted (Value.isJson_of_find? hjson hfind)).mpr hv⟩

end Fields

namespace LinkParameter

/-- The options that a JSON value declares, if it can be gone through. -/
inductive Lists : Value → List String → Prop
  | null : Lists .null []
  | items (items : List Value) : Lists (.arr items) (items.map Value.wireText)
  | characters (s : String) : Lists (.str s) (Text.letters s)
  | points (points : List Nat) :
      Lists (.torn points) (points.map fun point => Text.ofPoints [point])
  | names (fields : Mapping Value) : Lists (.obj fields) fields.names

/-- A parameter is what its declaration says. -/
structure DeclaredBy (fields : Mapping Value) (parameter : LinkParameter) : Prop where
  name : (fields.find? "name").bind Value.string? = some parameter.name
  kind : Value.given fields "type" = .null ∧ parameter.kind = "string" ∨
    ∃ s, (Value.given fields "type").string? = some s ∧ parameter.kind = Text.lowercase s
  defaultValue : parameter.defaultValue =
    if (Value.given fields "default_value").isNull then none
    else some (Value.given fields "default_value").wireText
  description : Value.given fields "description" = .null ∧ parameter.description = none ∨
    ∃ s, (Value.given fields "description").string? = some s ∧ parameter.description = some s
  options : Lists (Value.given fields "valid_options") parameter.options

/-- The name, the type and the description of a declaration are in order. -/
structure InOrder (fields : Mapping Value) : Prop where
  name : ((fields.find? "name").bind Value.string?).isSome = true
  kind : Value.given fields "type" = .null ∨ (Value.given fields "type").string?.isSome = true
  description : Value.given fields "description" = .null ∨
    (Value.given fields "description").string?.isSome = true

variable {fields : Mapping Value} {parameter : LinkParameter} {v : Value} {s : String}
  {options : List String}

theorem decodeKind_eq_accepted (hjson : v.isJson = true) :
    decodeKind v = accepted s ↔
      v = .null ∧ s = "string" ∨ ∃ s', v.string? = some s' ∧ s = Text.lowercase s' := by
  cases v with
  | word _ | bytes _ => cases hjson
  | _ => simp [decodeKind, string, Value.string?, problem, eq_comm]

theorem decodeDefault_eq_accepted (hjson : v.isJson = true) {default : Option String} :
    decodeDefault v = accepted default ↔ default = if v.isNull then none else some v.wireText := by
  have hwire : v.wire? = some v.wireText :=
    Value.wire?_of_isWritable (Value.isWritable_of_isJson hjson)
  cases v <;> simp [decodeDefault, hwire, Value.isNull, eq_comm]

theorem decodeDescription_eq_accepted (hjson : v.isJson = true) {description : Option String} :
    nullable string v = accepted description ↔
      v = .null ∧ description = none ∨ ∃ s, v.string? = some s ∧ description = some s := by
  rw [nullable_eq_accepted]
  simp only [string_eq_accepted hjson]
  cases v <;> simp [Value.string?]

/-- All items of a JSON list can be written. -/
theorem mapM_wire?_of_isJson {items : List Value} (hjson : (Value.arr items).isJson = true) :
    items.mapM Value.wire? = some (items.map Value.wireText) := by
  rw [Value.isJson, Value.areJson_iff] at hjson
  induction items with
  | nil => rfl
  | cons v items ih =>
    have hv : v.wire? = some v.wireText :=
      Value.wire?_of_isWritable (Value.isWritable_of_isJson (hjson v List.mem_cons_self))
    rw [List.mapM_cons, hv, ih fun w hw => hjson w (List.mem_cons_of_mem v hw)]
    rfl

theorem decodeOptions_eq_accepted (hjson : v.isJson = true) :
    decodeOptions v = accepted options ↔ Lists v options := by
  constructor
  · intro h
    cases v with
    | word _ | bytes _ | thing _ _ => cases hjson
    | arr items =>
      simp only [decodeOptions, mapM_wire?_of_isJson hjson] at h
      cases h
      constructor
    | null | str _ | torn _ | obj _ =>
      cases h
      constructor
    | _ => cases h
  · rintro (_ | items | _ | _ | _)
    · rfl
    · simp only [decodeOptions, mapM_wire?_of_isJson hjson]
    all_goals rfl

/-- Every JSON value but a number or a truth value can be gone through. -/
theorem exists_lists (hjson : v.isJson = true) :
    (∃ options, Lists v options) ↔ v.strayKind? = none := by
  simp only [← decodeOptions_eq_accepted hjson]
  rw [← abort?_decodeOptions]
  cases v
  case arr items => simp [decodeOptions, mapM_wire?_of_isJson hjson, abort?]
  all_goals simp [decodeOptions, abort?]

/-- A declaration is accepted field by field. A field that is absent is like one that is null, but
for the name. -/
theorem decode_obj_eq_accepted :
    decode (.obj fields) = accepted parameter ↔
      required "name" string fields = accepted parameter.name ∧
        decodeKind (Value.given fields "type") = accepted parameter.kind ∧
        decodeDefault (Value.given fields "default_value") = accepted parameter.defaultValue ∧
        nullable string (Value.given fields "description") = accepted parameter.description ∧
        decodeOptions (Value.given fields "valid_options") = accepted parameter.options := by
  have hkind (kind : String) :
      defaulted "type" "string" decodeKind fields = accepted kind ↔ _ :=
    defaulted_eq_accepted_of_null rfl
  have hdefault (default : Option String) :
      defaulted "default_value" none decodeDefault fields = accepted default ↔ _ :=
    defaulted_eq_accepted_of_null rfl
  have hdescription (description : Option String) :
      defaulted "description" none (nullable string) fields = accepted description ↔ _ :=
    defaulted_eq_accepted_of_null rfl
  have hoptions (options : List String) :
      defaulted "valid_options" [] decodeOptions fields = accepted options ↔ _ :=
    defaulted_eq_accepted_of_null rfl
  rw [decode, object, seq₅_eq_accepted]
  simp only [hkind, hdefault, hdescription, hoptions]
  constructor
  · rintro ⟨_, _, _, _, _, hname, hkind, hdefault, hdescription, hoptions, rfl⟩
    exact ⟨hname, hkind, hdefault, hdescription, hoptions⟩
  · rintro ⟨hname, hkind, hdefault, hdescription, hoptions⟩
    exact ⟨_, _, _, _, _, hname, hkind, hdefault, hdescription, hoptions, rfl⟩

theorem decode_eq_accepted (hjson : (Value.obj fields).isJson = true) :
    decode (.obj fields) = accepted parameter ↔ DeclaredBy fields parameter := by
  rw [decode_obj_eq_accepted, required_string_eq_accepted hjson,
    decodeKind_eq_accepted (Value.isJson_given hjson _),
    decodeDefault_eq_accepted (Value.isJson_given hjson _),
    decodeDescription_eq_accepted (Value.isJson_given hjson _),
    decodeOptions_eq_accepted (Value.isJson_given hjson _)]
  exact ⟨fun ⟨hname, hkind, hdefault, hdescription, hoptions⟩ =>
      ⟨hname, hkind, hdefault, hdescription, hoptions⟩,
    fun ⟨hname, hkind, hdefault, hdescription, hoptions⟩ =>
      ⟨hname, hkind, hdefault, hdescription, hoptions⟩⟩

/-- A declaration says what a parameter is, if its texts are in order and its options can be gone
through. -/
theorem exists_declaredBy :
    (∃ parameter, DeclaredBy fields parameter) ↔
      InOrder fields ∧ ∃ options, Lists (Value.given fields "valid_options") options := by
  constructor
  · rintro ⟨parameter, hname, hkind, -, hdescription, hoptions⟩
    refine ⟨⟨?_, ?_, ?_⟩, parameter.options, hoptions⟩
    · rw [hname, Option.isSome_some]
    · exact hkind.imp And.left fun ⟨s, hs, _⟩ => by rw [hs, Option.isSome_some]
    · exact hdescription.imp And.left fun ⟨s, hs, _⟩ => by rw [hs, Option.isSome_some]
  · rintro ⟨⟨hname, hkind, hdescription⟩, options, hoptions⟩
    obtain ⟨name, hname⟩ := Option.isSome_iff_exists.mp hname
    obtain ⟨kind, hkind⟩ : ∃ kind, Value.given fields "type" = .null ∧ kind = "string" ∨
        ∃ s, (Value.given fields "type").string? = some s ∧ kind = Text.lowercase s := by
      obtain hnull | hsome := hkind
      · exact ⟨"string", .inl ⟨hnull, rfl⟩⟩
      · obtain ⟨s, hs⟩ := Option.isSome_iff_exists.mp hsome
        exact ⟨Text.lowercase s, .inr ⟨s, hs, rfl⟩⟩
    obtain ⟨description, hdescription⟩ : ∃ description,
        Value.given fields "description" = .null ∧ description = none ∨
          ∃ s, (Value.given fields "description").string? = some s ∧ description = some s := by
      obtain hnull | hsome := hdescription
      · exact ⟨none, .inl ⟨hnull, rfl⟩⟩
      · obtain ⟨s, hs⟩ := Option.isSome_iff_exists.mp hsome
        exact ⟨some s, .inr ⟨s, hs, rfl⟩⟩
    exact ⟨⟨name, kind, _, description, options⟩, hname, hkind, rfl, hdescription, hoptions⟩

theorem aborted_iff {kindName : String} :
    decode (.obj fields) = aborted kindName ↔
      (Value.given fields "valid_options").strayKind? = some kindName := by
  rw [← abort?_eq_some, abort?_decode, optionValues, firstStray?_toList, Value.field?, Value.given]
  cases fields.find? "valid_options" <;> rfl

/-- A parameter that declares a list of options may be sent exactly what is sent for one of its
items. An empty list rules nothing out. -/
theorem respectsOptions_iff_of_arr {items : List Value}
    (hlists : Lists (.arr items) parameter.options) (v : Value) :
    Request.respectsOptions parameter v = true ↔
      items = [] ∨ ∃ o ∈ items, v.wire? = some o.wireText := by
  generalize hoptions : parameter.options = options at hlists
  cases hlists
  rw [Request.respectsOptions, hoptions, Bool.or_eq_true, List.isEmpty_iff, List.map_eq_nil_iff,
    Option.any_eq_true]
  refine or_congr_right ⟨?_, ?_⟩
  · rintro ⟨text, hv, htext⟩
    obtain ⟨o, ho, rfl⟩ := List.mem_map.mp (List.contains_iff_mem.mp htext)
    exact ⟨o, ho, hv⟩
  · rintro ⟨o, ho, hv⟩
    exact ⟨o.wireText, hv, List.contains_iff_mem.mpr (List.mem_map_of_mem ho)⟩

/-- A declaration that came in a response is accepted exactly if its texts are in order and its
options can be gone through. It is aborted exactly if its options are a number or a truth value,
and rejected in all other cases. What is accepted is the parameter that was declared. If its options
were declared by a list, what it may be sent is what is sent for the items of that list. -/
theorem accepted_iff_in_order (hjson : (Value.obj fields).isJson = true) :
    ((∃ parameter, decode (.obj fields) = accepted parameter) ↔
        InOrder fields ∧ ∃ options, Lists (Value.given fields "valid_options") options) ∧
      (∀ kindName, decode (.obj fields) = aborted kindName ↔
        (Value.given fields "valid_options").strayKind? = some kindName) ∧
      ((∃ issues, decode (.obj fields) = rejected issues) ↔
        ¬InOrder fields ∧ ∃ options, Lists (Value.given fields "valid_options") options) ∧
      ∀ parameter, decode (.obj fields) = accepted parameter →
        DeclaredBy fields parameter ∧
          ∀ items, Value.given fields "valid_options" = .arr items → ∀ v,
            Request.respectsOptions parameter v = true ↔
              items = [] ∨ ∃ o ∈ items, v.wire? = some o.wireText := by
  have haccepted : (∃ parameter, decode (.obj fields) = accepted parameter) ↔
      InOrder fields ∧ ∃ options, Lists (Value.given fields "valid_options") options := by
    simp only [decode_eq_accepted hjson, exists_declaredBy]
  have habort : (decode (.obj fields)).abort? = none ↔
      ∃ options, Lists (Value.given fields "valid_options") options := by
    rw [exists_lists (Value.isJson_given hjson _)]
    simp only [Option.eq_none_iff_forall_ne_some, ne_eq, ← aborted_iff, abort?_eq_some]
  refine ⟨haccepted, fun _ => aborted_iff, ?_, fun parameter h => ?_⟩
  · rw [exists_rejected, haccepted, habort]
    tauto
  · have hdeclared := (decode_eq_accepted hjson).mp h
    refine ⟨hdeclared, fun items hitems => respectsOptions_iff_of_arr ?_⟩
    rw [← hitems]
    exact hdeclared.options

/-! ## Options that are no list -/

/-- The declaration of a size, one of its options a truth value and one a number. -/
def sizeFields : Mapping Value :=
  [("name", .str "size"), ("type", .str "String"), ("default_value", .int 1),
    ("valid_options", .arr [.str "small", .bool true, .int 1])]

/-- The parameter that it declares. -/
def sizeParameter : LinkParameter := ⟨"size", "string", some "1", none, ["small", "true", "1"]⟩

/-- The size is what it is declared to be. It takes a text that is sent like one of its options. -/
theorem declares_size :
    (Value.obj sizeFields).isJson = true ∧ DeclaredBy sizeFields sizeParameter ∧
      Request.respectsOptions sizeParameter (.str "true") = true := by
  have hjson : (Value.obj sizeFields).isJson = true := rfl
  obtain ⟨-, -, -, hdeclared⟩ := accepted_iff_in_order hjson
  obtain ⟨hsize, hoptions⟩ := hdeclared sizeParameter rfl
  exact ⟨hjson, hsize, (hoptions _ rfl (.str "true")).mpr (.inr ⟨.bool true, by simp, rfl⟩)⟩

/-- A text in the place of a list of options is accepted, letter by letter. The parameter may then
not be sent that text. A number in that place is not rejected either, it aborts the decoding. -/
theorem text_taken_for_options :
    ∃ parameter, decode (.obj [("name", .str "n"), ("valid_options", .str "ab")]) =
        accepted parameter ∧
      parameter.options = ["a", "b"] ∧
      Request.respectsOptions parameter (.str "ab") = false ∧
      decode (.obj [("name", .str "n"), ("valid_options", .int 5)]) = aborted "int" :=
  ⟨⟨"n", "string", none, none, ["a", "b"]⟩, rfl, rfl, rfl, rfl⟩

end LinkParameter

end BrokerClient

import BrokerClient.Proofs.Request.Check

/-!
# What a check of parameters reports

The declarations of a link are gone through in order, the required ones before the optional ones.
Each is satisfied or offended against, and never both, so the check reports the offence against the
first declaration that is not satisfied. It looks up declared names only. Against options a value is
held by the text that it is sent as; one that has no text offends by the fault of writing it.
-/
namespace BrokerClient

theorem Mapping.find?_putAll_of_forall_ne {α : Type} {m : Mapping α} {pairs : List (String × α)}
    {name : String} (h : ∀ pair ∈ pairs, pair.1 ≠ name) :
    (m.putAll pairs).find? name = m.find? name := by
  induction pairs generalizing m with
  | nil => rfl
  | cons pair rest ih =>
    obtain ⟨hpair, hrest⟩ := List.forall_mem_cons.mp h
    exact (ih hrest).trans ((find?_put _ _ _ _).trans (if_neg hpair.symm))

/-- A declaration of a parameter by a link. -/
inductive Declaration where
  | required (parameter : LinkParameter)
  | optional (parameter : LinkParameter)

/-- The parameter that is declared. -/
def Declaration.parameter : Declaration → LinkParameter
  | required parameter => parameter
  | optional parameter => parameter

/-- The declarations of a link in the order in which they are checked. -/
def Link.declarations (link : Link) : List Declaration :=
  link.requiredParams.map .required ++ link.optionalParams.map .optional

/-- A value is sent as one of the options of a parameter, if there are any. -/
def LinkParameter.Admits (parameter : LinkParameter) (v : Value) : Prop :=
  parameter.options = [] ∨ ∃ text ∈ parameter.options, v.wire? = some text

namespace Request

/-- A value that leaves a required parameter without content. -/
inductive Void (parameter : LinkParameter) : Value → Prop
  | null : Void parameter .null
  | empty (hkind : parameter.kind = "string") : Void parameter (.str "")

/-- Parameters satisfy a declaration. -/
inductive Satisfies (supplied : Parameters) : Declaration → Prop
  | required {parameter : LinkParameter} {v : Value}
      (hfind : supplied.find? parameter.name = some v) (hcontent : ¬Void parameter v)
      (hadmits : parameter.Admits v) : Satisfies supplied (.required parameter)
  | optional {parameter : LinkParameter}
      (hadmits : ∀ v, supplied.find? parameter.name = some v → v ≠ .null → parameter.Admits v) :
      Satisfies supplied (.optional parameter)

/-- A value is none of the options of a parameter, with what is raised for it: the value is sent as
another text, or it cannot be written. -/
inductive Strays (link : Link) (parameter : LinkParameter) (v : Value) : Raised → Prop
  | unlisted {text : String} (hoptions : parameter.options ≠ []) (htext : v.wire? = some text)
      (hunlisted : text ∉ parameter.options) :
      Strays link parameter v
        (.client (.invalidOption link.href parameter.name text parameter.options))
  | unwritable (hoptions : parameter.options ≠ []) (hwritable : v.isWritable = false) :
      Strays link parameter v (.fault .unwritable)

/-- Parameters offend against a declaration, with what is raised for it. -/
inductive Offends (link : Link) (supplied : Parameters) : Declaration → Raised → Prop
  | missing {parameter : LinkParameter} (hfind : supplied.find? parameter.name = none) :
      Offends link supplied (.required parameter)
        (.client (.missingParameter link.href parameter.name))
  | empty {parameter : LinkParameter} {v : Value}
      (hfind : supplied.find? parameter.name = some v) (hvoid : Void parameter v) :
      Offends link supplied (.required parameter)
        (.client (.emptyParameter link.href parameter.name))
  | required {parameter : LinkParameter} {v : Value} {r : Raised}
      (hfind : supplied.find? parameter.name = some v) (hcontent : ¬Void parameter v)
      (hstrays : Strays link parameter v r) : Offends link supplied (.required parameter) r
  | optional {parameter : LinkParameter} {v : Value} {r : Raised}
      (hfind : supplied.find? parameter.name = some v) (hnull : v ≠ .null)
      (hstrays : Strays link parameter v r) : Offends link supplied (.optional parameter) r

variable {link : Link} {supplied : Parameters} {parameter : LinkParameter} {v : Value}
  {r : Raised}

theorem isEmptyFor_eq_true : isEmptyFor parameter v = true ↔ Void parameter v := by
  constructor
  · intro h
    cases v with
    | null => exact .null
    | str s =>
      obtain ⟨hkind, rfl⟩ : parameter.kind = "string" ∧ s = "" := by simpa [isEmptyFor] using h
      exact .empty hkind
    | _ => cases h
  · rintro (_ | hkind)
    · rfl
    · simp [isEmptyFor, hkind]

theorem respectsOptions_eq_true : respectsOptions parameter v = true ↔ parameter.Admits v := by
  simp only [respectsOptions, LinkParameter.Admits, Bool.or_eq_true, List.isEmpty_iff,
    Option.any_eq_true, List.contains_iff_mem, and_comm]

theorem checkOptions_eq_error :
    checkOptions link parameter v = .error r ↔ Strays link parameter v r := by
  simp only [checkOptions, List.isEmpty_iff, List.contains_iff_mem]
  constructor
  · intro h
    split at h
    · cases h
    · split at h
      · cases h
        exact .unwritable ‹_› (Value.wire?_eq_none.mp ‹_›)
      · split at h
        · cases h
        · cases h
          exact .unlisted ‹_› ‹_› ‹_›
  · intro h
    cases h with
    | unlisted hoptions htext hunlisted => simp [hoptions, htext, hunlisted]
    | unwritable hoptions hwritable => simp [hoptions, Value.wire?_eq_none.mpr hwritable]

theorem isEmptyFor_eq_false : isEmptyFor parameter v = false ↔ ¬Void parameter v := by
  rw [← isEmptyFor_eq_true, Bool.not_eq_true]

/-- Checks the parameters of a request against one declaration. -/
def checkDeclaration (link : Link) (supplied : Parameters) :
    Declaration → Except Raised Unit
  | .required parameter => checkRequired link supplied parameter
  | .optional parameter => checkOptional link supplied parameter

variable {declaration : Declaration}

theorem checkDeclaration_eq_ok :
    checkDeclaration link supplied declaration = .ok () ↔ Satisfies supplied declaration := by
  cases declaration with
  | required parameter =>
    simp only [checkDeclaration, checkRequired_eq_ok, isEmptyFor_eq_false, respectsOptions_eq_true]
    constructor
    · rintro ⟨v, hfind, hcontent, hadmits⟩
      exact .required hfind hcontent hadmits
    · rintro ⟨hfind, hcontent, hadmits⟩
      exact ⟨_, hfind, hcontent, hadmits⟩
  | optional parameter =>
    simp only [checkDeclaration, checkOptional_eq_ok, Value.isNull_eq_false,
      respectsOptions_eq_true]
    constructor
    · exact .optional
    · intro h
      cases h with
      | optional hadmits => exact hadmits

theorem checkDeclaration_eq_error : checkDeclaration link supplied declaration = .error r ↔
    Offends link supplied declaration r := by
  cases declaration with
  | required parameter =>
    simp only [checkDeclaration, checkRequired]
    constructor
    · intro h
      split at h
      · cases h
        exact .missing ‹_›
      · split at h
        · cases h
          exact .empty ‹_› (isEmptyFor_eq_true.mp ‹_›)
        · exact .required ‹_› (isEmptyFor_eq_false.mp (Bool.not_eq_true _ ▸ ‹_›))
            (checkOptions_eq_error.mp h)
    · intro h
      cases h with
      | missing hfind => simp [hfind]
      | empty hfind hvoid => simp [hfind, isEmptyFor_eq_true.mpr hvoid]
      | required hfind hcontent hstrays =>
        simp [hfind, isEmptyFor_eq_false.mpr hcontent, checkOptions_eq_error, hstrays]
  | optional parameter =>
    simp only [checkDeclaration, checkOptional]
    constructor
    · intro h
      split at h
      · cases h
      · split at h
        · cases h
        · exact .optional ‹_› (Value.isNull_eq_false.mp (Bool.not_eq_true _ ▸ ‹_›))
            (checkOptions_eq_error.mp h)
    · intro h
      cases h with
      | optional hfind hnull hstrays =>
        simp [hfind, Value.isNull_eq_false.mpr hnull, checkOptions_eq_error, hstrays]

theorem check_eq_forM : check link supplied =
    link.declarations.forM (checkDeclaration link supplied) := by
  rw [check, Link.declarations]
  simp only [List.forM_eq_forM, List.forM_append, List.forM_map]
  rfl

theorem check_eq_ok_iff : check link supplied = .ok () ↔
    ∀ declaration ∈ link.declarations, Satisfies supplied declaration := by
  simp only [check_eq_forM, forM_eq_ok, checkDeclaration_eq_ok]

theorem check_eq_error_iff : check link supplied = .error r ↔
    ∃ before declaration after, link.declarations = before ++ declaration :: after ∧
      (∀ other ∈ before, Satisfies supplied other) ∧ Offends link supplied declaration r := by
  simp only [check_eq_forM, forM_eq_error, checkDeclaration_eq_ok, checkDeclaration_eq_error]

/-- An error of the client names the link and the parameter. -/
theorem Offends.client_eq {e : ClientError} (h : Offends link supplied declaration (.client e)) :
    e = .missingParameter link.href declaration.parameter.name ∨
      e = .emptyParameter link.href declaration.parameter.name ∨
      ∃ text, e = .invalidOption link.href declaration.parameter.name text
        declaration.parameter.options := by
  cases h with
  | missing => exact .inl rfl
  | empty => exact .inr (.inl rfl)
  | required _ _ hstrays | optional _ _ hstrays =>
    cases hstrays
    exact .inr (.inr ⟨_, rfl⟩)

/-- Any other offence is a value that cannot be written. -/
theorem Offends.fault_eq {f : Fault} (h : Offends link supplied declaration (.fault f)) :
    f = .unwritable ∧
      ∃ v, supplied.find? declaration.parameter.name = some v ∧ v.isWritable = false := by
  cases h with
  | required hfind _ hstrays | optional hfind _ hstrays =>
    cases hstrays with
    | unwritable _ hwritable => exact ⟨rfl, _, hfind, hwritable⟩

/-- Only a declared parameter whose value cannot be written is not reported by an error of the
client. -/
theorem Offends.exists_client (h : Offends link supplied declaration r)
    (hwritable : ∀ v, supplied.find? declaration.parameter.name = some v → v.isWritable = true) :
    ∃ e : ClientError, r = .client e := by
  cases r with
  | client e => exact ⟨e, rfl⟩
  | fault f =>
    obtain ⟨-, v, hfind, hunwritable⟩ := h.fault_eq
    rw [hwritable v hfind] at hunwritable
    cases hunwritable

/-- A name that is declared twice has to satisfy both declarations. -/
example : check ⟨"SCALE", "/scale", .post, [⟨"size", "string", none, none, []⟩,
      ⟨"size", "string", none, none, ["small"]⟩], [⟨"region", "string", none, none, ["eu"]⟩]⟩
    [("size", .str "large"), ("region", .str "us")] =
      .error (.client (.invalidOption "/scale" "size" "large" ["small"])) := rfl

end Request

end BrokerClient

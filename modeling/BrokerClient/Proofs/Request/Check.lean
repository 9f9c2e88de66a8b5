import BrokerClient.Proofs.Traversal
import BrokerClient.Request.Check

/-!
# What a check of parameters establishes

The check goes through the declarations of a link one by one and stops at the first offence. It
passes exactly if each declaration by itself has nothing against the parameters, so neither the
order of the declarations nor a name that is declared twice makes a difference to that.
-/
namespace BrokerClient.Request

variable {link : Link} {supplied : Parameters} {parameter : LinkParameter}

theorem checkOptions_eq_ok {v : Value} :
    checkOptions link parameter v = .ok () ↔ respectsOptions parameter v = true := by
  unfold checkOptions respectsOptions
  cases parameter.options.isEmpty with
  | true => simp
  | false => cases v.wire? <;> simp

/-- A required parameter passes if it is there, is not empty and is one of the options. -/
theorem checkRequired_eq_ok :
    checkRequired link supplied parameter = .ok () ↔
      ∃ v, supplied.find? parameter.name = some v ∧ isEmptyFor parameter v = false ∧
        respectsOptions parameter v = true := by
  unfold checkRequired
  cases supplied.find? parameter.name with
  | none => simp
  | some v =>
    cases hempty : isEmptyFor parameter v with
    | true => simp [hempty]
    | false => simp [hempty, checkOptions_eq_ok]

/-- An optional parameter passes if it is not given or is one of the options. -/
theorem checkOptional_eq_ok :
    checkOptional link supplied parameter = .ok () ↔
      ∀ v, supplied.find? parameter.name = some v → v.isNull = false →
        respectsOptions parameter v = true := by
  unfold checkOptional
  cases supplied.find? parameter.name with
  | none => simp
  | some v => cases hnull : v.isNull <;> simp [hnull, checkOptions_eq_ok]

theorem check_eq_ok :
    check link supplied = .ok () ↔
      (∀ parameter ∈ link.requiredParams, checkRequired link supplied parameter = .ok ()) ∧
        ∀ parameter ∈ link.optionalParams, checkOptional link supplied parameter = .ok () := by
  rw [← forM_eq_ok, ← forM_eq_ok, check]
  cases hrequired : link.requiredParams.forM (checkRequired link supplied) with
  | error e => simp [bind, Except.bind]
  | ok _ => simp [bind, Except.bind]

/-- A value that passes for a required parameter is not null. -/
theorem isNull_of_isEmptyFor {v : Value} (h : isEmptyFor parameter v = false) :
    v.isNull = false := by
  cases v <;> first | rfl | cases h

/-- Whatever is declared of a parameter that is given, as required or as optional, its options are
respected. -/
theorem respectsOptions_of_check (h : check link supplied = .ok ())
    (hdeclared : parameter ∈ link.requiredParams ++ link.optionalParams) {v : Value}
    (hv : supplied.find? parameter.name = some v) (hnull : v.isNull = false) :
    respectsOptions parameter v = true := by
  obtain ⟨hrequired, hoptional⟩ := check_eq_ok.mp h
  obtain hmem | hmem := List.mem_append.mp hdeclared
  · obtain ⟨v', hv', -, hoptions⟩ := checkRequired_eq_ok.mp (hrequired parameter hmem)
    obtain rfl := Option.some.inj (hv.symm.trans hv')
    exact hoptions
  · exact checkOptional_eq_ok.mp (hoptional parameter hmem) v hv hnull

end BrokerClient.Request

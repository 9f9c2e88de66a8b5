import BrokerClient.Value

/-!
# Decoding with located issues

A decoder takes a value and gives a verdict: the decoded record, or everything that is
wrong with the value, each issue with the path to the place where it was found. Two
verdicts are joined by collecting the issues of both. A value of a kind that cannot be
gone through where its members are asked for aborts the decoding at once, and the first
abort wins over all issues.
-/
namespace BrokerClient.Record

/-- One step into a value: a field of an object or an item of a list. -/
inductive Step where
  | field (name : String)
  | item (index : Nat)
  deriving DecidableEq, Repr

/-- What is wrong at a place. -/
inductive Problem where
  | missing
  | notText
  | tornText
  | notInteger
  | unreadableInteger
  | oversizedInteger
  | fractionalInteger
  | notFinite
  | notNumber
  | unreadableNumber
  | notTruth
  | unreadableTruth
  | notTimestamp
  | unreadableTimestamp
  | notOfEnumeration
  | notOfWords
  | notList
  | notSequence
  | notMapping
  | notRecord
  | unknownField
  /-- An integer is too long to be written. -/
  | unwritable
  deriving DecidableEq, Repr

/-- The word for a problem. -/
def Problem.word : Problem → String
  | missing => "missing"
  | notText => "string_type"
  | tornText => "string_unicode"
  | notInteger => "int_type"
  | unreadableInteger => "int_parsing"
  | oversizedInteger => "int_parsing_size"
  | fractionalInteger => "int_from_float"
  | notFinite => "finite_number"
  | notNumber => "float_type"
  | unreadableNumber => "float_parsing"
  | notTruth => "bool_type"
  | unreadableTruth => "bool_parsing"
  | notTimestamp => "datetime_type"
  | unreadableTimestamp => "datetime_parsing"
  | notOfEnumeration => "enum"
  | notOfWords => "literal_error"
  | notList => "list_type"
  | notSequence => "tuple_type"
  | notMapping => "dict_type"
  | notRecord => "model_type"
  | unknownField => "extra_forbidden"
  | unwritable => "value_error"

/-- A problem with the path to its place. -/
structure Issue where
  path : List Step
  problem : Problem
  deriving DecidableEq, Repr

/-- The outcome of decoding a value. -/
inductive Verdict (α : Type) where
  /-- The value is accepted as `a`. -/
  | accepted (a : α)
  /-- The value is refused for all these reasons. -/
  | rejected (issues : List Issue)
  /-- Members were asked of a value of this kind, which has none. -/
  | aborted (kindName : String)

namespace Verdict

variable {α β γ : Type}

/-- A single issue at the place itself. -/
def problem (p : Problem) : Verdict α := rejected [⟨[], p⟩]

/-- Changes what is accepted. -/
def map (f : α → β) : Verdict α → Verdict β
  | accepted a => accepted (f a)
  | rejected issues => rejected issues
  | aborted kindName => aborted kindName

/-- Joins two verdicts: both accepted, or all issues, or the first abort. -/
def join (f : α → β → γ) : Verdict α → Verdict β → Verdict γ
  | accepted a, v => v.map (f a)
  | aborted kindName, _ => aborted kindName
  | rejected _, aborted kindName => aborted kindName
  | rejected issues, rejected more => rejected (issues ++ more)
  | rejected issues, accepted _ => rejected issues

instance : Functor Verdict := ⟨map, fun a v => map (fun _ => a) v⟩

instance : Seq Verdict := ⟨fun f v => join (fun f a => f a) f (v ())⟩

instance : Pure Verdict := ⟨accepted⟩

/-- Moves the issues of a verdict one step down the path. -/
def within (step : Step) : Verdict α → Verdict α
  | rejected issues => rejected (issues.map fun issue => ⟨step :: issue.path, issue.problem⟩)
  | v => v

/-- Decodes every item of a list, the first of them at position `index`. -/
def eachFrom (decode : Value → Verdict α) (index : Nat) : List Value → Verdict (List α)
  | [] => accepted []
  | v :: rest =>
    join List.cons ((decode v).within (.item index)) (eachFrom decode (index + 1) rest)

/-- Decodes every item of a list. -/
def each (decode : Value → Verdict α) (items : List Value) : Verdict (List α) :=
  eachFrom decode 0 items

/-- Decodes the value of every pair, knowing its name. -/
def eachPair (decode : String → Value → Verdict α) :
    List (String × Value) → Verdict (Mapping α)
  | [] => accepted []
  | (name, v) :: rest =>
    join (fun a pairs => (name, a) :: pairs) ((decode name v).within (.field name))
      (eachPair decode rest)

@[simp] theorem map_accepted (f : α → β) (a : α) : (accepted a).map f = accepted (f a) := rfl

@[simp] theorem within_accepted (step : Step) (a : α) :
    (accepted a).within step = accepted a := rfl

theorem join_eq_accepted {f : α → β → γ} {v : Verdict α} {w : Verdict β} {c : γ} :
    join f v w = accepted c ↔ ∃ a b, v = accepted a ∧ w = accepted b ∧ f a b = c := by
  cases v <;> cases w <;> simp [join, map]

theorem within_eq_accepted {step : Step} {v : Verdict α} {a : α} :
    v.within step = accepted a ↔ v = accepted a := by
  cases v <;> simp [within]

end Verdict

end BrokerClient.Record

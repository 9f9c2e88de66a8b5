import BrokerClient.Representation.Decoding
import Mathlib.Tactic.SplitIfs

/-!
# What aborts a decoding

Of all decoders only that of the options of a parameter aborts: it goes through whatever value
declares them, and numbers and truth values cannot be gone through. An abort wins over all issues,
and of several aborts the first one counts. So the decoding of a link, of a mapping of links and of
a representation is aborted exactly if somewhere in it options are declared by a number or a truth
value, and the first of these is reported.
-/
namespace BrokerClient

variable {α β : Type}

namespace Record

namespace Verdict

/-- The kind of the value that aborted a decoding. -/
def abort? : Verdict α → Option String
  | aborted kindName => some kindName
  | _ => none

@[simp] theorem abort?_accepted (a : α) : (accepted a).abort? = none := rfl

@[simp] theorem abort?_problem (p : Problem) : (problem p : Verdict α).abort? = none := rfl

theorem abort?_eq_some {v : Verdict α} {kindName : String} :
    v.abort? = some kindName ↔ v = aborted kindName := by
  cases v <;> simp [abort?]

/-- What is neither accepted nor aborted is rejected. -/
theorem exists_rejected {v : Verdict α} :
    (∃ issues, v = rejected issues) ↔ (¬∃ a, v = accepted a) ∧ v.abort? = none := by
  cases v <;> simp [abort?]

@[simp] theorem abort?_map (f : α → β) (v : Verdict α) : (f <$> v).abort? = v.abort? := by
  cases v <;> rfl

@[simp] theorem abort?_within (step : Step) (v : Verdict α) :
    (v.within step).abort? = v.abort? := by
  cases v <;> rfl

/-- Of two aborts the first one counts. -/
theorem abort?_join {γ : Type} (f : α → β → γ) (v : Verdict α) (w : Verdict β) :
    (join f v w).abort? = v.abort?.or w.abort? := by
  cases v <;> cases w <;> rfl

@[simp] theorem abort?_seq (f : Verdict (α → β)) (v : Verdict α) :
    (f <*> v).abort? = f.abort?.or v.abort? :=
  abort?_join _ f v

theorem abort?_eachFrom (decode : Value → Verdict α) (index : Nat) (items : List Value) :
    (eachFrom decode index items).abort? = items.findSome? fun v => (decode v).abort? := by
  induction items generalizing index with
  | nil => rfl
  | cons v rest ih =>
    rw [eachFrom, abort?_join, abort?_within, ih, List.findSome?_cons]
    cases (decode v).abort? <;> rfl

@[simp] theorem abort?_each (decode : Value → Verdict α) (items : List Value) :
    (each decode items).abort? = items.findSome? fun v => (decode v).abort? :=
  abort?_eachFrom decode 0 items

theorem abort?_eachPair (decode : String → Value → Verdict α) (pairs : Mapping Value) :
    (eachPair decode pairs).abort? = pairs.findSome? fun pair => (decode pair.1 pair.2).abort? := by
  induction pairs with
  | nil => rfl
  | cons pair rest ih =>
    obtain ⟨name, v⟩ := pair
    rw [eachPair, abort?_join, abort?_within, ih, List.findSome?_cons]
    cases (decode name v).abort? <;> rfl

end Verdict

open Verdict

/-! ## Fields -/

section Fields

variable (name : String) (default : α) {decode : Value → Verdict α} (fields : Mapping Value)

@[simp] theorem abort?_required (decode : Value → Verdict α) :
    (required name decode fields).abort? =
      (fields.find? name).bind fun v => (decode v).abort? := by
  rw [required, abort?_within]
  cases fields.find? name <;> rfl

@[simp] theorem abort?_defaulted (decode : Value → Verdict α) :
    (defaulted name default decode fields).abort? =
      (fields.find? name).bind fun v => (decode v).abort? := by
  rw [defaulted]
  cases fields.find? name with
  | none => rfl
  | some v => exact abort?_within _ _

@[simp] theorem abort?_nullable (h : ∀ v, (decode v).abort? = none) (v : Value) :
    (nullable decode v).abort? = none := by
  cases v
  case null => rfl
  all_goals exact (abort?_map some _).trans (h _)

@[simp] theorem abort?_list (h : ∀ v, (decode v).abort? = none) (v : Value) :
    (list decode v).abort? = none := by
  cases v
  case arr items => simp [list, h]
  all_goals rfl

@[simp] theorem abort?_sequence (h : ∀ v, (decode v).abort? = none) (v : Value) :
    (sequence decode v).abort? = none := by
  cases v
  case arr items => simp [sequence, h]
  all_goals rfl

@[simp] theorem abort?_object {decode : Mapping Value → Verdict α}
    (h : ∀ fields, (decode fields).abort? = none) (v : Value) :
    (object decode v).abort? = none := by
  cases v
  case obj fields => exact h fields
  all_goals rfl

end Fields

/-! ## Plain fields -/

theorem abort?_spelled {read : String → Verdict α} (h : ∀ s, (read s).abort? = none) (p : Problem)
    (data : List UInt8) : (spelled read p data).abort? = none := by
  unfold spelled
  split
  · exact h _
  · rfl

@[simp] theorem abort?_string (v : Value) : (string v).abort? = none := by
  unfold string
  split
  case h_4 => split <;> rfl
  all_goals rfl

theorem abort?_plainInteger (text : List Char) : (plainInteger text).abort? = none := by
  simp only [plainInteger]
  split_ifs <;> rfl

theorem abort?_spelledInteger (s : String) : (spelledInteger s).abort? = none := by
  simp only [spelledInteger]
  split
  · split <;> rfl
  · exact abort?_plainInteger _

theorem abort?_wholeNumber (x : Float) : (wholeNumber x).abort? = none := by
  unfold wholeNumber
  split
  · split_ifs <;> rfl
  · rfl

@[simp] theorem abort?_integer (v : Value) : (integer v).abort? = none := by
  cases v with
  | float x => exact abort?_wholeNumber x
  | str s => exact abort?_spelledInteger s
  | word w => exact abort?_spelledInteger w.text
  | bytes data => exact abort?_spelled abort?_spelledInteger _ data
  | _ => rfl

theorem abort?_spelledTruth (s : String) : (spelledTruth s).abort? = none := by
  unfold spelledTruth
  split <;> rfl

theorem abort?_binaryDigit (n : Int) : (binaryDigit n).abort? = none := by
  unfold binaryDigit
  split_ifs <;> rfl

@[simp] theorem abort?_truth (v : Value) : (truth v).abort? = none := by
  unfold truth
  split
  case h_2 n =>
    split_ifs
    · exact abort?_binaryDigit n
    · rfl
  case h_3 =>
    split
    · exact abort?_binaryDigit _
    · rfl
  case h_4 s => exact abort?_spelledTruth s
  case h_5 w => exact abort?_spelledTruth w.text
  case h_6 data => exact abort?_spelled abort?_spelledTruth _ data
  all_goals rfl

@[simp] theorem abort?_timestamp (v : Value) : (timestamp v).abort? = none := by
  have hreading (reading : Option Timestamp) : (timestamp.ofReading reading).abort? = none := by
    cases reading <;> rfl
  unfold timestamp
  split
  case h_4 =>
    split_ifs
    · exact hreading _
    · rfl
    · exact hreading _
  case h_6 => rfl
  case h_7 => rfl
  all_goals exact hreading _

end Record

open Record Verdict

/-! ## Options -/

namespace Value

/-- The kind of a number or of a truth value. -/
def strayKind? : Value → Option String
  | bool b => some (bool b).kindName
  | int n => some (int n).kindName
  | float x => some (float x).kindName
  | _ => none

/-- The items of a list; no other value has items. -/
def items : Value → List Value
  | arr items => items
  | _ => []

/-- The values of the fields of an object. -/
def members : Value → List Value
  | obj fields => fields.map Prod.snd
  | _ => []

end Value

/-- The value by which a parameter declares its options. -/
def LinkParameter.optionValues (v : Value) : List Value := (v.field? "valid_options").toList

/-- The values by which the parameters of a link declare their options, the required parameters
first. -/
def Link.optionValues (v : Value) : List Value :=
  [v.field? "required_params", v.field? "optional_params"].flatMap fun parameters =>
    (parameters.toList.flatMap Value.items).flatMap LinkParameter.optionValues

/-- The values by which the parameters of the links of a representation declare their options. -/
def Representation.optionValues (v : Value) : List Value :=
  (v.field? "links").toList.flatMap fun links => links.members.flatMap Link.optionValues

/-- The kind of the first of these values that is a number or a truth value. -/
def firstStray? (values : List Value) : Option String := values.findSome? Value.strayKind?

@[simp] theorem firstStray?_nil : firstStray? [] = none := rfl

@[simp] theorem firstStray?_append (values more : List Value) :
    firstStray? (values ++ more) = (firstStray? values).or (firstStray? more) :=
  List.findSome?_append

theorem firstStray?_toList (v : Option Value) :
    firstStray? v.toList = v.bind Value.strayKind? := by
  cases v with
  | none => rfl
  | some v => simp [firstStray?, List.findSome?_singleton]

theorem firstStray?_flatMap (l : List α) (f : α → List Value) :
    firstStray? (l.flatMap f) = l.findSome? fun a => firstStray? (f a) := by
  induction l with
  | nil => rfl
  | cons a rest ih =>
    rw [List.flatMap_cons, firstStray?_append, ih, List.findSome?_cons]
    cases firstStray? (f a) <;> rfl

namespace LinkParameter

@[simp] theorem abort?_decodeKind (v : Value) : (decodeKind v).abort? = none := by
  unfold decodeKind
  split
  case h_5 => exact abort?_string _
  all_goals rfl

@[simp] theorem abort?_decodeDefault (v : Value) : (decodeDefault v).abort? = none := by
  unfold decodeDefault
  split
  · rfl
  · split <;> rfl

@[simp] theorem abort?_decodeOptions (v : Value) : (decodeOptions v).abort? = v.strayKind? := by
  cases v
  case arr items =>
    simp only [decodeOptions, Value.strayKind?]
    split <;> rfl
  all_goals rfl

theorem abort?_decode (v : Value) : (decode v).abort? = firstStray? (optionValues v) := by
  rw [optionValues, firstStray?_toList]
  cases v
  case obj fields => simp [decode, object, Value.field?]
  all_goals rfl

end LinkParameter

namespace Link

theorem abort?_decodeRelation (fields : Mapping Value) : (decodeRelation fields).abort? = none := by
  unfold decodeRelation
  split <;> simp

@[simp] theorem abort?_decodeMethod (v : Value) : (decodeMethod v).abort? = none := by
  unfold decodeMethod
  split
  · rfl
  · split <;> rfl

theorem abort?_decodeParams (v : Value) :
    (decodeParams v).abort? = firstStray? (v.items.flatMap LinkParameter.optionValues) := by
  cases v
  case arr items =>
    simp only [decodeParams, Record.sequence, abort?_each, LinkParameter.abort?_decode, Value.items,
      firstStray?_flatMap]
  all_goals rfl

theorem abort?_decode (v : Value) : (decode v).abort? = firstStray? (optionValues v) := by
  cases v
  case obj fields =>
    have hparams (parameters : Option Value) :
        (parameters.bind fun v => (decodeParams v).abort?) = firstStray?
          ((parameters.toList.flatMap Value.items).flatMap LinkParameter.optionValues) := by
      cases parameters <;> simp [abort?_decodeParams]
    simp [decode, object, abort?_decodeRelation, hparams, optionValues, Value.field?]
  all_goals rfl

/-- The relation that a link gets from its name does not touch its parameters. -/
theorem optionValues_named (name : String) (v : Value) :
    optionValues (named name v) = optionValues v := by
  cases v
  case obj fields =>
    simp only [named]
    split
    · rfl
    · simp [optionValues, Value.field?, Mapping.find?_put]
  all_goals rfl

theorem abort?_decodeNamed (name : String) (v : Value) :
    (decodeNamed name v).abort? = firstStray? (optionValues v) := by
  rw [decodeNamed, abort?_decode, optionValues_named]

theorem abort?_decodeMap (v : Value) :
    (decodeMap v).abort? = firstStray? (v.members.flatMap optionValues) := by
  cases v
  case obj fields =>
    simp [decodeMap, abort?_eachPair, abort?_decodeNamed, Value.members, firstStray?_flatMap,
      List.findSome?_map, Function.comp_def]
  all_goals rfl

end Link

/-! ## Records -/

@[simp] theorem Message.abort?_decode (v : Value) : (decode v).abort? = none := by
  simp [decode]

namespace Representation

theorem Common.abort?_decode (fields : Mapping Value) :
    (decode fields).abort? = firstStray? (optionValues (.obj fields)) := by
  simp only [decode, abort?_seq, abort?_map, abort?_defaulted, Link.abort?_decodeMap,
    optionValues, Value.field?]
  cases fields.find? "links" <;> simp

/-- Of the fields of a representation only its links can abort the decoding. -/
theorem abort?_object_of_common {decode : Mapping Value → Verdict α}
    (h : ∀ fields, (decode fields).abort? = (Common.decode fields).abort?) (v : Value) :
    (object decode v).abort? = firstStray? (optionValues v) := by
  cases v
  case obj fields => exact (h fields).trans (Common.abort?_decode fields)
  all_goals rfl

theorem User.abort?_decode (v : Value) :
    (decode v).abort? = firstStray? (optionValues v) :=
  abort?_object_of_common (by simp) v

theorem Domain.abort?_decode (v : Value) :
    (decode v).abort? = firstStray? (optionValues v) :=
  abort?_object_of_common (by simp) v

@[simp] theorem Application.abort?_decodeAliases (v : Value) :
    (decodeAliases v).abort? = none := by
  unfold decodeAliases
  split <;> simp

theorem Application.abort?_decode (v : Value) :
    (decode v).abort? = firstStray? (optionValues v) :=
  abort?_object_of_common (by simp) v

theorem Cartridge.abort?_decode (v : Value) :
    (decode v).abort? = firstStray? (optionValues v) :=
  abort?_object_of_common (by simp) v

@[simp] theorem KeyType.abort?_decode (v : Value) :
    (KeyType.decode v).abort? = none := by
  unfold KeyType.decode
  split
  · split_ifs <;> rfl
  · rfl
  · rfl

theorem Key.abort?_decode (v : Value) :
    (decode v).abort? = firstStray? (optionValues v) :=
  abort?_object_of_common (by simp) v

@[simp] theorem Component.abort?_decodeText (v : Value) : (decodeText v).abort? = none := by
  cases v <;> rfl

@[simp] theorem Component.abort?_decode (v : Value) : (decode v).abort? = none := by
  simp [decode]

/-- A gear has no links. -/
theorem Gear.abort?_decode (v : Value) : (decode v).abort? = none := by
  simp [decode]

end Representation

end BrokerClient

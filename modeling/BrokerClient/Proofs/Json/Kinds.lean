import BrokerClient.Json.Reader
import BrokerClient.Proofs.Traversal
import Mathlib.Algebra.Group.Nat.Defs
import Mathlib.Data.List.Induction
import Mathlib.Data.List.TakeDrop
import Mathlib.Data.List.TakeWhile

/-!
# What a JSON text can stand for

Nulls, truth values, numbers, texts, lists and objects come out of a JSON text, all the way down.
Bytes, words and things never do: only callers have them. Nor do integers that are too long to be
written, because they are too long to be read: every JSON value can be written.
-/
namespace BrokerClient

namespace Value

mutual

/-- A value that a JSON text can stand for. -/
def isJson : Value → Bool
  | int n => Decimal.isWritable n
  | null | bool _ | float _ | str _ | torn _ => true
  | bytes _ | word _ | thing .. => false
  | arr items => areJson items
  | obj fields => holdJson fields

/-- Values that JSON texts can stand for. -/
def areJson : List Value → Bool
  | [] => true
  | v :: rest => isJson v && areJson rest

/-- Fields with values that JSON texts can stand for. -/
def holdJson : List (String × Value) → Bool
  | [] => true
  | (_, v) :: rest => isJson v && holdJson rest

end

@[simp] theorem areJson_iff {items : List Value} :
    areJson items = true ↔ ∀ v ∈ items, v.isJson = true := by
  induction items with
  | nil => simp [areJson]
  | cons v rest ih => simp [areJson, ih]

@[simp] theorem holdJson_iff {fields : List (String × Value)} :
    holdJson fields = true ↔ ∀ pair ∈ fields, pair.2.isJson = true := by
  induction fields with
  | nil => simp [holdJson]
  | cons pair rest ih => simp [holdJson, ih]

@[simp] theorem areWritable_iff {items : List Value} :
    areWritable items = true ↔ ∀ v ∈ items, v.isWritable = true := by
  induction items with
  | nil => simp [areWritable]
  | cons v rest ih => simp [areWritable, ih]

@[simp] theorem holdWritable_iff {fields : List (String × Value)} :
    holdWritable fields = true ↔ ∀ pair ∈ fields, pair.2.isWritable = true := by
  induction fields with
  | nil => simp [holdWritable]
  | cons pair rest ih => simp [holdWritable, ih]

mutual

/-- What can be read can be written. -/
theorem isWritable_of_isJson : ∀ {v : Value}, v.isJson = true → v.isWritable = true
  | .int n, h => by
    rw [isWritable]
    rwa [isJson] at h
  | .arr items, h => by
    rw [isJson] at h
    exact areWritable_of_areJson h
  | .obj fields, h => by
    rw [isJson] at h
    exact holdWritable_of_holdJson h
  | .null, _ | .bool _, _ | .float _, _ | .str _, _ | .torn _, _ => by rw [isWritable] <;> nofun

theorem areWritable_of_areJson : ∀ {items : List Value}, areJson items = true →
    areWritable items = true
  | [], _ => by rw [areWritable]
  | v :: rest, h => by
    rw [areJson, Bool.and_eq_true] at h
    rw [areWritable, isWritable_of_isJson h.1, areWritable_of_areJson h.2, Bool.and_self]

theorem holdWritable_of_holdJson : ∀ {fields : List (String × Value)}, holdJson fields = true →
    holdWritable fields = true
  | [], _ => by rw [holdWritable]
  | (_, v) :: rest, h => by
    rw [holdJson, Bool.and_eq_true] at h
    rw [holdWritable, isWritable_of_isJson h.1, holdWritable_of_holdJson h.2, Bool.and_self]

end

theorem isJson_ofPoints (points : List Nat) : (ofPoints points).isJson = true := by
  unfold ofPoints
  split <;> rfl

end Value

namespace Mapping

variable {α : Type} {P : String × α → Prop}

theorem forall_mem_put {m : Mapping α} {name : String} {value : α} (hm : ∀ pair ∈ m, P pair)
    (h : P (name, value)) : ∀ pair ∈ m.put name value, P pair := by
  induction m with
  | nil => simpa [put] using h
  | cons pair rest ih =>
    obtain ⟨hpair, hrest⟩ := List.forall_mem_cons.mp hm
    rw [put]
    split
    · exact List.forall_mem_cons.mpr ⟨h, hrest⟩
    · exact List.forall_mem_cons.mpr ⟨hpair, ih hrest⟩

theorem forall_mem_putAll {m : Mapping α} {pairs : List (String × α)} (hm : ∀ pair ∈ m, P pair)
    (hpairs : ∀ pair ∈ pairs, P pair) : ∀ pair ∈ m.putAll pairs, P pair := by
  induction pairs generalizing m with
  | nil => exact hm
  | cons pair rest ih =>
    obtain ⟨hpair, hrest⟩ := List.forall_mem_cons.mp hpairs
    exact ih (forall_mem_put hm hpair) hrest

/-- What all pairs have, all entries of their mapping have. -/
theorem forall_mem_ofPairs {pairs : List (String × α)} (h : ∀ pair ∈ pairs, P pair) :
    ∀ pair ∈ ofPairs pairs, P pair :=
  forall_mem_putAll nofun h

end Mapping

namespace Decimal

/-- A run of digits is less than the power of ten with as many zeros. -/
theorem ofDigits_lt {digits : List Char} (h : ∀ d ∈ digits, d.isDigit = true) :
    ofDigits digits < 10 ^ digits.length := by
  induction digits using List.reverseRecOn with
  | nil => exact Nat.one_pos
  | append_singleton rest d ih =>
    obtain ⟨hrest, hd⟩ := List.forall_mem_append.mp h
    have hlast : d.toNat - '0'.toNat < 10 := by
      have hdigit := hd d (List.mem_singleton_self d)
      simp only [Char.isDigit, Bool.and_eq_true, decide_eq_true_eq] at hdigit
      have htop : d.toNat ≤ '9'.toNat := hdigit.2
      have h0 : '0'.toNat = 48 := rfl
      have h9 : '9'.toNat = 57 := rfl
      omega
    have hstep : ofDigits (rest ++ [d]) = 10 * ofDigits rest + (d.toNat - '0'.toNat) := by
      simp [ofDigits]
    have hlt := ih hrest
    rw [hstep, List.length_append, List.length_singleton, Nat.pow_succ]
    omega

theorem isWritable_signed {negative : Bool} {digits : List Char}
    (h : ∀ d ∈ digits, d.isDigit = true) (hlength : digits.length ≤ digitLimit) :
    isWritable (signed negative (ofDigits digits)) = true := by
  have habs : (signed negative (ofDigits digits)).natAbs = ofDigits digits := by
    cases negative <;> simp [signed]
  have hlimit : 0 < digitLimit := by decide
  rw [isWritable, habs, decide_eq_true_eq, Nat.length_toDigits_le_iff (by decide) hlimit]
  exact Nat.lt_of_lt_of_le (ofDigits_lt h) (Nat.pow_le_pow_right (by decide) hlength)

end Decimal

namespace Json

theorem isJson_of_integer {negative : Bool} {digits : List Char} {v : Value}
    (hdigits : ∀ d ∈ digits, d.isDigit = true) (h : integer negative digits = .ok v) :
    v.isJson = true := by
  unfold integer at h
  split at h
  · cases h
  · cases h
    exact Decimal.isWritable_signed hdigits (not_lt.mp ‹_›)

theorem isJson_of_number {text rest : List Char} {v : Value} (h : number text = .ok (v, rest)) :
    v.isJson = true := by
  unfold number at h
  split at h
  split at h
  rename_i whole behind hwhole
  have hdigits : ∀ d ∈ whole, d.isDigit = true := by
    split at hwhole
    · cases hwhole
      simp
    · rw [List.span_eq_takeWhile_dropWhile] at hwhole
      obtain ⟨rfl, -⟩ := Prod.mk.inj hwhole
      exact fun d => List.mem_takeWhile_imp
  split at h
  · cases h
  · split at h
    extract_lets behind power at h
    clear_value behind power
    split at h
    · obtain ⟨n, hn, hv⟩ := fmap_eq_ok.mp h
      cases hv
      exact isJson_of_integer hdigits hn
    · cases h
      rfl
    · cases h
      rfl

theorem isJson_of_scalar {text rest : List Char} {v : Value} (h : scalar text = .ok (v, rest)) :
    v.isJson = true := by
  simp only [scalar] at h
  split at h
  · rename_i word v' hfind
    cases h
    have hmem := List.mem_of_find?_eq_some hfind
    simp only [List.mem_cons, Prod.mk.injEq, List.not_mem_nil, or_false] at hmem
    obtain ⟨-, rfl⟩ | ⟨-, rfl⟩ | ⟨-, rfl⟩ | ⟨-, rfl⟩ | ⟨-, rfl⟩ | ⟨-, rfl⟩ := hmem <;> rfl
  · exact isJson_of_number h

/-- The readers of values, of items and of members come to JSON values. The induction is on the
fuel that the three share. -/
theorem isJson_of_readers (fuel : Nat) :
    (∀ {depth text v rest}, value fuel depth text = .ok (v, rest) → v.isJson = true) ∧
      (∀ {depth text vs rest}, items fuel depth text = .ok (vs, rest) →
        ∀ v ∈ vs, v.isJson = true) ∧
      ∀ {depth text pairs rest}, members fuel depth text = .ok (pairs, rest) →
        ∀ pair ∈ pairs, pair.2.isJson = true := by
  induction fuel with
  | zero => exact ⟨nofun, nofun, nofun⟩
  | succ fuel ih =>
    obtain ⟨hvalue, hitems, hmembers⟩ := ih
    refine ⟨fun h => ?_, fun h => ?_, fun h => ?_⟩
    · unfold value at h
      split at h
      · obtain ⟨⟨points, rest⟩, -, hv⟩ := bind_eq_ok h
        cases hv
        exact Value.isJson_ofPoints points
      · cases h
      · split at h
        · cases h
          rfl
        · obtain ⟨⟨vs, rest⟩, hvs, hv⟩ := bind_eq_ok h
          cases hv
          exact Value.areJson_iff.mpr (hitems hvs)
      · cases h
      · split at h
        · cases h
          rfl
        · obtain ⟨⟨pairs, rest⟩, hpairs, hv⟩ := bind_eq_ok h
          cases hv
          exact Value.holdJson_iff.mpr (Mapping.forall_mem_ofPairs (hmembers hpairs))
      · exact isJson_of_scalar h
    · unfold items at h
      obtain ⟨⟨v, rest⟩, hv, h⟩ := bind_eq_ok h
      dsimp only at h
      split at h
      · obtain ⟨⟨vs, rest⟩, hvs, h⟩ := bind_eq_ok h
        cases h
        exact List.forall_mem_cons.mpr ⟨hvalue hv, hitems hvs⟩
      · cases h
        exact List.forall_mem_cons.mpr ⟨hvalue hv, nofun⟩
      · cases h
    · unfold members at h
      split at h
      · obtain ⟨⟨points, rest⟩, -, h⟩ := bind_eq_ok h
        dsimp only at h
        split at h
        · obtain ⟨⟨v, rest⟩, hv, h⟩ := bind_eq_ok h
          dsimp only at h
          split at h
          · obtain ⟨⟨pairs, rest⟩, hpairs, h⟩ := bind_eq_ok h
            cases h
            exact List.forall_mem_cons.mpr ⟨hvalue hv, hmembers hpairs⟩
          · cases h
            exact List.forall_mem_cons.mpr ⟨hvalue hv, nofun⟩
          · cases h
        · cases h
      · cases h

/-- Whatever is read is a JSON value. -/
theorem isJson_of_read {depth : Nat} {text : String} {v : Value} (h : read depth text = .ok v) :
    v.isJson = true := by
  obtain ⟨⟨v, rest⟩, hv, h⟩ := bind_eq_ok h
  dsimp only at h
  split at h
  · cases h
    exact (isJson_of_readers _).1 hv
  · cases h

end Json

end BrokerClient

import BrokerClient.Proofs.Health.Rounding
import BrokerClient.Proofs.Health.Verdict

/-!
# A clock of double precision

Times of double precision are rounded, and some of them are no numbers at all. They make a clock
nevertheless: adding what is not above zero never leads to a greater time. The exact sum is not
above the time, and the time is of double precision, so rounding does not step past it.
-/
namespace BrokerClient.Poll.Precision

open Float.Model (Format UnpackedFloat)
open Float.Model.UnpackedFloat (Sign decreaseExponent unpackSign)

/-! ## Comparing -/

/-- A number is not below another one. What is not a number compares with nothing. -/
def NotBelow (a b : UnpackedFloat) : Prop := a.compare b ≠ some .lt

variable {s : Sign} {m m' r : ℕ} {e e' t : ℤ}

theorem compare_positive (hm : 0 < m) (hm' : 0 < m') :
    (UnpackedFloat.finite .positive m e hm).compare (.finite .positive m' e' hm') =
      some ((compare e e').then (compare m m')) := rfl

theorem compare_negative (hm : 0 < m) (hm' : 0 < m') :
    (UnpackedFloat.finite .negative m e hm).compare (.finite .negative m' e' hm') =
      some ((compare e e').then (compare m m')).swap := rfl

theorem notBelow_positive (hm : 0 < m) (hm' : 0 < m') (h : e' < e ∨ e' = e ∧ m' ≤ m) :
    NotBelow (.finite .positive m e hm) (.finite .positive m' e' hm') := by
  rw [NotBelow, compare_positive, ne_eq, Option.some.injEq]
  obtain hlt | ⟨rfl, hle⟩ := h
  · simp [Int.compare_eq_gt.mpr hlt]
  · simpa [Nat.compare_eq_lt] using hle

theorem notBelow_negative (hm : 0 < m) (hm' : 0 < m') (h : e < e' ∨ e = e' ∧ m ≤ m') :
    NotBelow (.finite .negative m e hm) (.finite .negative m' e' hm') := by
  rw [NotBelow, compare_negative, ne_eq, Option.some.injEq]
  obtain hlt | ⟨rfl, hle⟩ := h
  · simp [Int.compare_eq_lt.mpr hlt]
  · simpa [Nat.compare_eq_gt] using hle

theorem NotBelow.trans_zero {a x : UnpackedFloat} (ha : NotBelow a (.zero .positive))
    (hx : NotBelow (.zero .positive) x) : NotBelow a x := by
  obtain ⟨⟨⟩⟩ | _ | ⟨⟨⟩⟩ | ⟨⟨⟩, m, e, hm⟩ := a <;>
    obtain ⟨⟨⟩⟩ | _ | ⟨⟨⟩⟩ | ⟨⟨⟩, m', e', hm'⟩ := x <;>
      first | exact absurd rfl ha | exact absurd rfl hx | exact nofun

theorem positive_notBelow_zero (hm : 0 < m) :
    NotBelow (.finite .positive m e hm) (.zero .positive) := by
  intro h
  cases h

theorem infinity_notBelow (x : UnpackedFloat) : NotBelow (.infinity .positive) x := by
  obtain ⟨⟨⟩⟩ | _ | _ | _ := x <;> exact nofun

theorem notBelow_stored_infinity (a : UnpackedFloat) :
    NotBelow a (stored (.infinity .negative)) := by
  have hstored : stored (.infinity .negative) = .infinity .negative := rfl
  rw [hstored]
  obtain ⟨⟨⟩⟩ | _ | _ | ⟨⟨⟩, m, e, hm⟩ := a <;> exact nofun

theorem notBelow_stored_notANumber (a : UnpackedFloat) : NotBelow a (stored .notANumber) := by
  have hstored : stored .notANumber = .notANumber := rfl
  rw [hstored]
  obtain ⟨⟨⟩⟩ | _ | _ | ⟨⟨⟩, m, e, hm⟩ := a <;> exact nofun

theorem zero_notBelow_stored_zero (s : Sign) :
    NotBelow (.zero .positive) (stored (.zero s)) := by
  cases s <;> exact nofun

theorem zero_notBelow_stored_negative (hm : 0 < m) :
    NotBelow (.zero .positive) (stored (.finite .negative m e hm)) := by
  have hsign : Sign.ofBitVec (unpackSign
      (UnpackedFloat.pack Format.binary64 (.finite .negative m e hm))) = .negative := by
    rw [unpackSign_pack, ofBitVec_toBitVec]
  have hunpacks := unpacks (UnpackedFloat.pack Format.binary64 (.finite .negative m e hm))
  rw [stored]
  generalize UnpackedFloat.unpack Format.binary64 _ = x at *
  intro h
  cases hunpacks with
  | notANumber => cases h
  | infinity | zero | subnormal | normal =>
    rw [hsign] at h
    cases h

/-! ## Rounding a difference or a sum -/

/-- What is cut off below a positive number and carried does not exceed it. -/
theorem notBelow_stored_carried_positive (hm : 0 < m) (h : Canonical m e) (he : e ≤ 971)
    (ht : -1074 ≤ t) (hte : t ≤ e) (hr : r ≤ m * 2 ^ (e - t).toNat) (hr' : r ≤ 2 ^ 53)
    (hnormal : 2 ^ 52 ≤ r ∨ t = -1074) :
    NotBelow (.finite .positive m e hm) (stored (carried .positive r t)) := by
  obtain rfl | hpos := Nat.eq_zero_or_pos r
  · rw [carried_zero]
    exact (positive_notBelow_zero hm).trans_zero (zero_notBelow_stored_zero _)
  obtain hlt | hle := Nat.lt_or_ge r (2 ^ 53)
  · rw [carried_of_lt _ hpos hlt, stored_canonical _ _ ⟨hlt, ht, hnormal⟩ (hte.trans he)]
    refine notBelow_positive _ _ ?_
    obtain rfl | hlt := hte.eq_or_lt
    · exact .inr ⟨rfl, by simpa using hr⟩
    · exact .inl hlt
  -- A carry needs room above the cut, or else the number would have more than 53 bits.
  · obtain rfl : r = 2 ^ 53 := hr'.antisymm hle
    have hne : t ≠ e := by
      rintro rfl
      exact absurd h.lt (by simpa using hr)
    rw [carried_of_le _ hle, stored_canonical _ _ ⟨by decide, by omega, .inl le_rfl⟩ (by omega)]
    refine notBelow_positive _ _ ?_
    obtain rfl | hlt := (show t + 1 ≤ e by omega).eq_or_lt
    · have hdouble : (t + 1 - t).toNat = 1 := by omega
      rw [hdouble] at hr
      exact .inr ⟨rfl, by omega⟩
    · exact .inl hlt

/-- What is cut off at or beyond a negative number and carried does not exceed it. -/
theorem notBelow_stored_carried_negative (hm : 0 < m) (hr : 0 < r) (ht : -1074 ≤ t)
    (hnormal : 2 ^ 52 ≤ r ∨ t = -1074) (hle : e < t ∨ e = t ∧ m ≤ r) :
    NotBelow (.finite .negative m e hm) (stored (carried .negative r t)) := by
  have hstored {m' : ℕ} {e' : ℤ} (hm' : 0 < m') (hcanonical : Canonical m' e')
      (hle' : e < e' ∨ e = e' ∧ m ≤ m') :
      NotBelow (.finite .negative m e hm) (stored (.finite .negative m' e' hm')) := by
    by_cases hfits : e' ≤ 971
    · rw [stored_canonical _ _ hcanonical hfits]
      exact notBelow_negative _ _ hle'
    · rw [stored_overflow _ _ (not_le.mp hfits)]
      exact nofun
  obtain hlt | hcarry := Nat.lt_or_ge r (2 ^ 53)
  · rw [carried_of_lt _ hr hlt]
    exact hstored hr ⟨hlt, ht, hnormal⟩ hle
  · rw [carried_of_le _ hcarry]
    exact hstored _ ⟨by decide, by omega, .inl le_rfl⟩ (.inl (by omega))

/-- A positive number is not below what is less than it, rounded. -/
theorem notBelow_stored_round_positive (hm : 0 < m) (hm' : 0 < m') (h : Canonical m e)
    (he : e ≤ 971) (hle : e' ≤ e) (hlt : m' < m * 2 ^ (e - e').toNat) :
    NotBelow (.finite .positive m e hm)
      (stored (UnpackedFloat.round Format.binary64 .positive m' e')) := by
  obtain ⟨r, -, hhigh, hr, hnormal, hround⟩ := round_eq .positive hm' e'
  rw [hround]
  have htarget : target m' e' = max (m'.log2 + e' - 52) (-1074) := rfl
  generalize target m' e' = t at *
  have hlog : m'.log2 < 53 + (e - e').toNat := by
    refine (Nat.pow_lt_pow_iff_right Nat.one_lt_two).mp ?_
    calc 2 ^ m'.log2 ≤ m' := Nat.log2_self_le hm'.ne'
      _ < m * 2 ^ (e - e').toNat := hlt
      _ ≤ 2 ^ 53 * 2 ^ (e - e').toNat := Nat.mul_le_mul_right _ h.lt.le
      _ = 2 ^ (53 + (e - e').toNat) := (Nat.pow_add ..).symm
  have hmin := h.le
  have hte : t ≤ e := by omega
  have hshifts : (e - t).toNat + (t - e').toNat = (e - e').toNat + (e' - t).toNat := by omega
  have hcut : m' * 2 ^ (e' - t).toNat / 2 ^ (t - e').toNat < m * 2 ^ (e - t).toNat := by
    refine (Nat.div_lt_iff_lt_mul (Nat.two_pow_pos _)).mpr ?_
    calc m' * 2 ^ (e' - t).toNat
        < m * 2 ^ (e - e').toNat * 2 ^ (e' - t).toNat :=
          Nat.mul_lt_mul_of_pos_right hlt (Nat.two_pow_pos _)
      _ = m * 2 ^ (e - t).toNat * 2 ^ (t - e').toNat := by
          rw [Nat.mul_assoc, ← Nat.pow_add, ← hshifts, Nat.pow_add, Nat.mul_assoc]
  exact notBelow_stored_carried_positive hm h he (by omega) hte (hhigh.trans hcut) hr hnormal

/-- A negative number is not below what is as far from zero or farther, rounded. -/
theorem notBelow_stored_round_negative (hm : 0 < m) (h : Canonical m e) (hle : e' ≤ e)
    (hle' : m * 2 ^ (e - e').toNat ≤ m') :
    NotBelow (.finite .negative m e hm)
      (stored (UnpackedFloat.round Format.binary64 .negative m' e')) := by
  have hm' : 0 < m' := (Nat.mul_pos hm (Nat.two_pow_pos _)).trans_le hle'
  obtain ⟨r, hlow, -, -, hnormal, hround⟩ := round_eq .negative hm' e'
  rw [hround]
  have htarget : target m' e' = max (m'.log2 + e' - 52) (-1074) := rfl
  generalize target m' e' = t at *
  have hmin := h.le
  have hte : e ≤ t := by
    obtain hnorm | rfl := h.normal
    · have hlog : 52 + (e - e').toNat ≤ m'.log2 := by
        rw [Nat.le_log2 hm'.ne', Nat.pow_add]
        exact (Nat.mul_le_mul_right _ hnorm).trans hle'
      omega
    · omega
  obtain rfl | hlt := hte.eq_or_lt
  · have hmr : m ≤ r := by
      refine le_trans ?_ hlow
      rw [Nat.le_div_iff_mul_le (Nat.two_pow_pos _)]
      exact hle'.trans (Nat.le_mul_of_pos_right _ (Nat.two_pow_pos _))
    exact notBelow_stored_carried_negative hm (hm.trans_le hmr) hmin hnormal (.inr ⟨rfl, hmr⟩)
  · have hr : 2 ^ 52 ≤ r := hnormal.resolve_right (by omega)
    exact notBelow_stored_carried_negative hm ((Nat.two_pow_pos _).trans_le hr) (by omega) hnormal
      (.inl hlt)

theorem zero_notBelow_stored_round (hm : 0 < m) (e : ℤ) :
    NotBelow (.zero .positive) (stored (UnpackedFloat.round Format.binary64 .negative m e)) := by
  obtain ⟨r, -, -, -, -, hround⟩ := round_eq .negative hm e
  rw [hround]
  obtain rfl | hpos := Nat.eq_zero_or_pos r
  · rw [carried_zero]
    exact zero_notBelow_stored_zero _
  obtain hlt | hcarry := Nat.lt_or_ge r (2 ^ 53)
  · rw [carried_of_lt _ hpos hlt]
    exact zero_notBelow_stored_negative _
  · rw [carried_of_le _ hcarry]
    exact zero_notBelow_stored_negative _

/-! ## Adding -/

/-- Adding a negative number does not lead to a greater one. -/
theorem notBelow_stored_add_negative (hm : 0 < m) (hm' : 0 < m') (h : Canonical m e)
    (he : e ≤ 971) :
    NotBelow (.finite s m e hm) (stored (UnpackedFloat.add Format.binary64 (.finite s m e hm)
      (.finite .negative m' e' hm'))) := by
  have hminuend : m <<< (e - min e e').toNat = m * 2 ^ (e - min e e').toNat := Nat.shiftLeft_eq ..
  have hsubtrahend : 0 < m' <<< (e' - min e e').toNat := by
    rw [Nat.shiftLeft_eq]
    exact Nat.mul_pos hm' (Nat.two_pow_pos _)
  have hexponent : min e e' ≤ e := min_le_left e e'
  have hadd : UnpackedFloat.add Format.binary64 (.finite s m e hm) (.finite .negative m' e' hm') =
      UnpackedFloat.normalize Format.binary64 (s.apply (m <<< (e - min e e').toNat : ℕ) +
        Sign.negative.apply (m' <<< (e' - min e e').toNat : ℕ)) (min e e') .positive := rfl
  rw [hadd]
  -- Both mantissas are shifted to the lesser exponent, and the sum is exact there.
  generalize m <<< (e - min e e').toNat = minuend at *
  generalize m' <<< (e' - min e e').toNat = subtrahend at *
  generalize min e e' = e₀ at *
  cases s with
  | negative =>
    have hsum : Sign.negative.apply minuend + Sign.negative.apply subtrahend =
        -((minuend + subtrahend : ℕ) : ℤ) := by
      simp only [Sign.apply]
      omega
    rw [hsum, UnpackedFloat.normalize, Int.compare_eq_lt.mpr (by omega), neg_neg, Int.toNat_natCast]
    exact notBelow_stored_round_negative hm h hexponent (by omega)
  | positive =>
    have hsum : Sign.positive.apply minuend + Sign.negative.apply subtrahend =
        (minuend : ℤ) + -(subtrahend : ℤ) := rfl
    rw [hsum, UnpackedFloat.normalize]
    obtain hlt | heq | hgt := lt_trichotomy subtrahend minuend
    · have hdifference : (minuend : ℤ) + -(subtrahend : ℤ) = (minuend - subtrahend : ℕ) := by omega
      rw [hdifference, Int.compare_eq_gt.mpr (by omega), Int.toNat_natCast]
      exact notBelow_stored_round_positive hm (Nat.sub_pos_of_lt hlt) h he hexponent (by omega)
    · rw [Int.compare_eq_eq.mpr (by omega)]
      exact (positive_notBelow_zero hm).trans_zero (zero_notBelow_stored_zero _)
    · rw [Int.compare_eq_lt.mpr (by omega)]
      exact (positive_notBelow_zero hm).trans_zero (zero_notBelow_stored_round (by omega) _)

/-- Adding what is not above zero does not lead to a greater number. -/
theorem notBelow_stored_add {v : Float.Model} {b : UnpackedFloat}
    (hb : NotBelow (.zero .positive) b) :
    NotBelow v.unpack (stored (UnpackedFloat.add Format.binary64 v.unpack b)) := by
  cases hv : v.unpack with
  | notANumber => exact nofun
  | infinity s =>
    cases s with
    | positive => exact infinity_notBelow _
    | negative =>
      obtain ⟨⟨⟩⟩ | _ | _ | _ := b <;>
        first | exact notBelow_stored_infinity _ | exact notBelow_stored_notANumber _
  | zero s =>
    obtain ⟨⟨⟩⟩ | _ | s' | ⟨⟨⟩, m', e', hm'⟩ := b
    case infinity.positive | finite.positive => exact absurd rfl hb
    case infinity.negative => exact notBelow_stored_infinity _
    case notANumber => exact notBelow_stored_notANumber _
    case zero =>
      refine NotBelow.trans_zero nofun ?_
      cases s <;> cases s' <;> exact zero_notBelow_stored_zero _
    case finite.negative => exact NotBelow.trans_zero nofun (zero_notBelow_stored_negative hm')
  | finite s m e hm =>
    obtain ⟨hcanonical, he⟩ := canonical_of_unpack hv
    obtain ⟨⟨⟩⟩ | _ | s' | ⟨⟨⟩, m', e', hm'⟩ := b
    case infinity.positive | finite.positive => exact absurd rfl hb
    case infinity.negative => exact notBelow_stored_infinity _
    case notANumber => exact notBelow_stored_notANumber _
    case zero =>
      have hsame : UnpackedFloat.add Format.binary64 (.finite s m e hm) (.zero s') =
          .finite s m e hm := rfl
      rw [hsame, stored_canonical s hm hcanonical he]
      cases s with
      | negative => exact notBelow_negative hm hm (.inr ⟨rfl, le_rfl⟩)
      | positive => exact notBelow_positive hm hm (.inr ⟨rfl, le_rfl⟩)
    case finite.negative => exact notBelow_stored_add_negative hm hm' hcanonical he

/-! ## The clock -/

theorem not_lt_iff {t u : Float} : ¬t < u ↔ NotBelow t.toModel.unpack u.toModel.unpack := by
  have hmodel : t < u ↔ t.toModel < u.toModel := decide_eq_true_iff
  exact not_congr (hmodel.trans beq_iff_eq)

theorem compare_swap (a b : UnpackedFloat) : b.compare a = (a.compare b).map Ordering.swap := by
  obtain ⟨⟨⟩⟩ | _ | ⟨⟨⟩⟩ | ⟨⟨⟩, m, e, hm⟩ := a <;>
    obtain ⟨⟨⟩⟩ | _ | ⟨⟨⟩⟩ | ⟨⟨⟩, m', e', hm'⟩ := b <;>
      first
      | rfl
      | rw [compare_positive, compare_positive]
      | rw [compare_negative, compare_negative]
  all_goals simp [Ordering.swap_then, Int.compare_swap, Nat.compare_swap]

theorem notBelow_of_le {t u : Float} (h : u ≤ t) :
    NotBelow t.toModel.unpack u.toModel.unpack := by
  have hmodel : (u.toModel.unpack.compare t.toModel.unpack).any (·.isLE) = true :=
    decide_eq_true_iff.mp h
  intro hlt
  rw [compare_swap t.toModel.unpack, hlt] at hmodel
  cases hmodel

instance : Clock Float where
  not_le_of_lt hlt hle := not_lt_iff.mpr (notBelow_of_le hle) hlt
  not_lt_add h := not_lt_iff.mpr (notBelow_stored_add (notBelow_of_le h))

end BrokerClient.Poll.Precision

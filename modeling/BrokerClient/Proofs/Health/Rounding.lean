import Mathlib.Algebra.Group.Nat.Defs
import Mathlib.Order.Nat
import Mathlib.Tactic.SplitIfs

/-!
# Numbers of double precision

A finite number of double precision has a mantissa of 53 bits, or of fewer bits if its exponent is
the least one. Such numbers are stored without loss. Rounding cuts a mantissa off at the exponent
that leaves it that many bits and adds one to it at most, so what is rounded is of double precision
again. Nothing more is needed of the rule that decides whether one is added.
-/
namespace BrokerClient.Poll.Precision

open Float.Model (Format UnpackedFloat totalExponent)
open Float.Model.UnpackedFloat (Accuracy ExtendedMantissa Sign decreaseExponent packComponents
  packedInfinity roundWithAccuracy shiftToExponent shiftToTargetExponent unpackExponent
  unpackExponent_packComponents unpackMantissa unpackMantissa_packComponents unpackSign)

/-- A mantissa and an exponent are those of a number of double precision, if the exponent is not too
large. -/
structure Canonical (m : ℕ) (e : ℤ) : Prop where
  lt : m < 2 ^ 53
  le : -1074 ≤ e
  normal : 2 ^ 52 ≤ m ∨ e = -1074

/-! ## Storing -/

theorem toNat_implicit (m : BitVec 52) : (1#1 ++ m).toNat = 2 ^ 52 + m.toNat := by
  rw [BitVec.toNat_append, ← Nat.shiftLeft_add_eq_or_of_lt m.isLt]
  rfl

theorem ofBitVec_toBitVec (s : Sign) : Sign.ofBitVec s.toBitVec = s := by
  cases s <;> rfl

/-- The sign stands above the exponent and the mantissa. -/
theorem unpackSign_packed (s : Sign) (e : BitVec 11) (m : BitVec 52) :
    unpackSign (packComponents Format.binary64 s e m) = s.toBitVec := by
  have hmantissa : (s.toBitVec ++ e ++ m).extractLsb' 63 1 = (s.toBitVec ++ e).extractLsb' 11 1 :=
    BitVec.extractLsb'_append_eq_of_le (by decide)
  exact hmantissa.trans BitVec.extractLsb'_append_eq_left

/-- What is left of a number once it is stored in 64 bits. -/
def stored (x : UnpackedFloat) : UnpackedFloat :=
  UnpackedFloat.unpack Format.binary64 (UnpackedFloat.pack Format.binary64 x)

/-- The top exponent stands for what is no finite number, and zero for numbers whose mantissa has no
bit in front. -/
theorem unpack_eq (bits : BitVec Format.binary64.numBits) :
    let sign := Sign.ofBitVec (unpackSign bits)
    let exponent : ℤ := (unpackExponent bits).toNat - (1023 + 52)
    UnpackedFloat.unpack Format.binary64 bits =
      if unpackExponent bits = -1#11 then
        if unpackMantissa bits = 0#52 then .infinity sign else .notANumber
      else if unpackExponent bits = 0#11 then
        if h : unpackMantissa bits = 0#52 then .zero sign
        else .finite sign (unpackMantissa bits).toNat (exponent + 1)
          (Nat.pos_of_ne_zero fun hzero => h (BitVec.eq_of_toNat_eq hzero))
      else .finite sign (1#1 ++ unpackMantissa bits).toNat exponent
        (toNat_implicit _ ▸ Nat.add_pos_left (Nat.two_pow_pos 52) _) := rfl

theorem unpack_normal (s : Sign) {b m : ℕ} (hb : 0 < b) (hb' : b < 2047) (hm : m < 2 ^ 52) :
    UnpackedFloat.unpack Format.binary64
      (packComponents Format.binary64 s (BitVec.ofNat 11 b) (BitVec.ofNat 52 m)) =
        .finite s (2 ^ 52 + m) (b - 1075) (by omega) := by
  have hexponent : (BitVec.ofNat 11 b).toNat = b := by
    rw [BitVec.toNat_ofNat, Nat.mod_eq_of_lt (by omega)]
  have hmantissa : (1#1 ++ BitVec.ofNat 52 m).toNat = 2 ^ 52 + m := by
    rw [toNat_implicit, BitVec.toNat_ofNat, Nat.mod_eq_of_lt hm]
  have hnotTop : BitVec.ofNat 11 b ≠ -1#11 := fun htop => by
    have htoNat : (-1#11).toNat = b := htop ▸ hexponent
    exact hb'.ne' htoNat
  have hnotZero : BitVec.ofNat 11 b ≠ 0#11 := fun hzero => by
    have htoNat : (0#11).toNat = b := hzero ▸ hexponent
    exact hb.ne htoNat
  rw [unpack_eq, unpackExponent_packComponents, if_neg hnotTop, if_neg hnotZero,
    UnpackedFloat.finite.injEq, unpackSign_packed, unpackMantissa_packComponents, hexponent]
  exact ⟨ofBitVec_toBitVec s, hmantissa, rfl⟩

theorem unpack_subnormal (s : Sign) {m : ℕ} (hm : 0 < m) (hm' : m < 2 ^ 52) :
    UnpackedFloat.unpack Format.binary64
      (packComponents Format.binary64 s 0#11 (BitVec.ofNat 52 m)) = .finite s m (-1074) hm := by
  have hmantissa : (BitVec.ofNat 52 m).toNat = m := by
    rw [BitVec.toNat_ofNat, Nat.mod_eq_of_lt hm']
  have hnotZero : BitVec.ofNat 52 m ≠ 0#52 := fun hzero => by
    have htoNat : (0#52).toNat = m := hzero ▸ hmantissa
    exact hm.ne htoNat
  have hnotTop : 0#11 ≠ -1#11 := by decide
  rw [unpack_eq, unpackExponent_packComponents, if_neg hnotTop, if_pos rfl, dif_neg,
    UnpackedFloat.finite.injEq, unpackSign_packed, unpackMantissa_packComponents]
  · exact ⟨ofBitVec_toBitVec s, hmantissa, rfl⟩
  · rwa [unpackMantissa_packComponents]

theorem pack_eq (s : Sign) {m : ℕ} {e : ℤ} (hm : 0 < m) :
    UnpackedFloat.pack Format.binary64 (.finite s m e hm) =
      if 971 < e then packedInfinity Format.binary64 s
      else packComponents Format.binary64 s
        (if m.log2 + 1 = 53 then BitVec.ofNat 11 (e + 1075).toNat else 0#11)
        (BitVec.ofNat 52 m) := by
  have hpack : UnpackedFloat.pack Format.binary64 (.finite s m e hm) =
      if 2 ^ 11 ≤ (e + 1023 + 52).toNat + 1 then packedInfinity Format.binary64 s
      else if m.log2 + 1 = 53 then packComponents Format.binary64 s
        (BitVec.ofNat 11 (e + 1023 + 52).toNat) (BitVec.ofNat 52 m)
      else packComponents Format.binary64 s 0#11 (BitVec.ofNat 52 m) := rfl
  have hbiased : e + 1023 + 52 = e + 1075 := by omega
  have hoverflow : 2 ^ 11 ≤ (e + 1075).toNat + 1 ↔ 971 < e := by omega
  rw [hpack, hbiased]
  refine if_congr hoverflow rfl ?_
  split_ifs <;> rfl

theorem unpackSign_pack (s : Sign) {m : ℕ} {e : ℤ} (hm : 0 < m) :
    unpackSign (UnpackedFloat.pack Format.binary64 (.finite s m e hm)) = s.toBitVec := by
  rw [pack_eq]
  split_ifs <;> exact unpackSign_packed ..

/-- A number of double precision is stored without loss. -/
theorem stored_canonical (s : Sign) {m : ℕ} {e : ℤ} (hm : 0 < m) (h : Canonical m e)
    (he : e ≤ 971) : stored (.finite s m e hm) = .finite s m e hm := by
  obtain ⟨hlt, hle, hnormal⟩ := h
  rw [stored, pack_eq, if_neg (Int.not_lt.mpr he)]
  by_cases hnorm : 2 ^ 52 ≤ m
  · have hlog : m.log2 = 52 := (Nat.log2_eq_iff hm.ne').mpr ⟨hnorm, hlt⟩
    obtain ⟨m, rfl⟩ := Nat.exists_eq_add_of_le hnorm
    have himplicit : BitVec.ofNat 52 (2 ^ 52 + m) = BitVec.ofNat 52 m :=
      BitVec.eq_of_toNat_eq (by simp [BitVec.toNat_ofNat])
    rw [if_pos (congrArg (· + 1) hlog), himplicit,
      unpack_normal s (by omega) (by omega) (by omega), UnpackedFloat.finite.injEq]
    exact ⟨rfl, rfl, by omega⟩
  · obtain rfl := hnormal.resolve_left hnorm
    have hlog : m.log2 < 52 := (Nat.log2_lt hm.ne').mpr (not_le.mp hnorm)
    rw [if_neg (by omega), unpack_subnormal s hm (not_le.mp hnorm)]

/-- A number with too large an exponent is stored as infinite. -/
theorem stored_overflow (s : Sign) {m : ℕ} {e : ℤ} (hm : 0 < m) (he : 971 < e) :
    stored (.finite s m e hm) = .infinity s := by
  rw [stored, pack_eq, if_pos he]
  cases s <;> rfl

/-- What bits stand for, with the sign bit as its sign. -/
inductive Unpacks (bits : BitVec Format.binary64.numBits) : UnpackedFloat → Prop
  | infinity : Unpacks bits (.infinity (.ofBitVec (unpackSign bits)))
  | notANumber : Unpacks bits .notANumber
  | zero : Unpacks bits (.zero (.ofBitVec (unpackSign bits)))
  | subnormal (hm : 0 < (unpackMantissa bits).toNat) :
      Unpacks bits (.finite (.ofBitVec (unpackSign bits)) (unpackMantissa bits).toNat (-1074) hm)
  | normal {exponent : ℤ} (hleast : -1074 ≤ exponent) (hgreatest : exponent ≤ 971)
      (hm : 0 < (1#1 ++ unpackMantissa bits).toNat) : Unpacks bits
        (.finite (.ofBitVec (unpackSign bits)) (1#1 ++ unpackMantissa bits).toNat exponent hm)

theorem unpacks (bits : BitVec Format.binary64.numBits) :
    Unpacks bits (UnpackedFloat.unpack Format.binary64 bits) := by
  have hexponent : (unpackExponent bits).toNat < 2 ^ 11 := (unpackExponent bits).isLt
  rw [unpack_eq]
  by_cases htop : unpackExponent bits = -1#11
  · rw [if_pos htop]
    by_cases hnone : unpackMantissa bits = 0#52
    · rw [if_pos hnone]
      exact .infinity
    · rw [if_neg hnone]
      exact .notANumber
  rw [if_neg htop]
  by_cases hzero : unpackExponent bits = 0#11
  · rw [if_pos hzero]
    by_cases hnone : unpackMantissa bits = 0#52
    · rw [dif_pos hnone]
      exact .zero
    · rw [dif_neg hnone, hzero]
      exact .subnormal _
  · rw [if_neg hzero]
    have hlt : (unpackExponent bits).toNat ≠ 2047 := fun h => htop (BitVec.eq_of_toNat_eq h)
    have hpos : (unpackExponent bits).toNat ≠ 0 := fun h => hzero (BitVec.eq_of_toNat_eq h)
    exact .normal (by omega) (by omega) _

/-- What is unpacked is a number of double precision. -/
theorem canonical_of_unpack {v : Float.Model} {s : Sign} {m : ℕ} {e : ℤ} {hm : 0 < m}
    (h : v.unpack = .finite s m e hm) : Canonical m e ∧ e ≤ 971 := by
  have hunpacks : Unpacks v.toBits.toBitVec (.finite s m e hm) := h ▸ unpacks _
  have hmantissa : (@unpackMantissa Format.binary64 v.toBits.toBitVec).toNat < 2 ^ 52 :=
    BitVec.isLt _
  cases hunpacks with
  | subnormal => exact ⟨⟨by omega, Int.le_refl _, .inr rfl⟩, by omega⟩
  | normal hleast hgreatest =>
    rw [toNat_implicit]
    exact ⟨⟨by omega, hleast, .inl (by omega)⟩, hgreatest⟩

/-! ## Rounding -/

/-- The exponent at which a mantissa is cut off. -/
def target (m : ℕ) (e : ℤ) : ℤ := max (m.log2 + e - 52) (-1074)

theorem targetExponent_eq (m : ℕ) (e : ℤ) :
    Format.binary64.targetExponent (totalExponent m e) = target m e := by
  have hbits : Format.binary64.mantissaBits = 53 := rfl
  have hmin : Format.binary64.minExponent = -1074 := rfl
  simp only [Format.targetExponent, totalExponent, hbits, hmin, target]
  omega

theorem log2_mul_two_pow {m : ℕ} (hm : 0 < m) (j : ℕ) : (m * 2 ^ j).log2 = m.log2 + j := by
  have hm' : m ≠ 0 := hm.ne'
  refine (Nat.log2_eq_iff (Nat.mul_ne_zero hm' (Nat.two_pow_pos j).ne')).mpr ⟨?_, ?_⟩
  · rw [Nat.pow_add]
    exact Nat.mul_le_mul_right _ (Nat.log2_self_le hm')
  · rw [Nat.add_right_comm, Nat.pow_add]
    exact Nat.mul_lt_mul_of_pos_right Nat.lt_log2_self (Nat.two_pow_pos j)

theorem mantissa_shiftRight (em : ExtendedMantissa) (k : ℕ) :
    (em >>> k).mantissa = em.mantissa / 2 ^ k := by
  induction k with
  | zero => simp [HShiftRight.hShiftRight, Nat.repeat]
  | succ k ih =>
    have hstep : (em >>> (k + 1)).mantissa = (em >>> k).mantissa / 2 := rfl
    rw [hstep, ih, Nat.div_div_eq_div_mul, Nat.pow_succ]

theorem roundedMantissa_bounds (em : ExtendedMantissa) :
    em.mantissa ≤ em.roundedMantissa ∧ em.roundedMantissa ≤ em.mantissa + 1 := by
  obtain ⟨m, roundBit, stickyBit⟩ := em
  cases roundBit <;> cases stickyBit <;>
    simp [ExtendedMantissa.roundedMantissa, ExtendedMantissa.accuracy, Accuracy.roundToNearestEven]
  omega

theorem shift_eq (m : ℕ) (e : ℤ) :
    (shiftToTargetExponent Format.binary64 m e .exact).1.mantissa =
        m / 2 ^ (target m e - e).toNat ∧
      (shiftToTargetExponent Format.binary64 m e .exact).2 = e + (target m e - e).toNat := by
  simp only [shiftToTargetExponent, shiftToExponent, targetExponent_eq, mantissa_shiftRight,
    ExtendedMantissa.ofMantissaAndAccuracy, true_and]

/-- The number of a sign, a mantissa and an exponent, where a carry out of the mantissa goes to the
exponent. -/
def carried (s : Sign) (r : ℕ) (t : ℤ) : UnpackedFloat :=
  if h : r = 0 then .zero s
  else if r < 2 ^ 53 then .finite s r t (Nat.pos_of_ne_zero h)
  else .finite s (2 ^ 52) (t + 1) (Nat.two_pow_pos 52)

theorem carried_zero (s : Sign) (t : ℤ) : carried s 0 t = .zero s := dif_pos rfl

theorem carried_of_lt (s : Sign) {r : ℕ} (hr : 0 < r) (hlt : r < 2 ^ 53) (t : ℤ) :
    carried s r t = .finite s r t hr :=
  (dif_neg hr.ne').trans (if_pos hlt)

theorem carried_of_le (s : Sign) {r : ℕ} (hle : 2 ^ 53 ≤ r) (t : ℤ) :
    carried s r t = .finite s (2 ^ 52) (t + 1) (Nat.two_pow_pos 52) :=
  (dif_neg ((Nat.two_pow_pos 53).trans_le hle).ne').trans (if_neg (Nat.not_lt.mpr hle))

theorem shift_of_lt {r : ℕ} {t : ℤ} (hr : r < 2 ^ 53) (ht : -1074 ≤ t) :
    (shiftToTargetExponent Format.binary64 r t .exact).1.mantissa = r ∧
      (shiftToTargetExponent Format.binary64 r t .exact).2 = t := by
  have hlog : r.log2 ≤ 52 := by
    by_cases hzero : r = 0
    · simp [hzero]
    · exact Nat.le_of_lt_succ ((Nat.log2_lt hzero).mpr hr)
  have hshift : (target r t - t).toNat = 0 := by
    rw [target]
    omega
  rw [(shift_eq r t).1, (shift_eq r t).2, hshift]
  simp

theorem shift_of_carry {t : ℤ} (ht : -1074 ≤ t) :
    (shiftToTargetExponent Format.binary64 (2 ^ 53) t .exact).1.mantissa = 2 ^ 52 ∧
      (shiftToTargetExponent Format.binary64 (2 ^ 53) t .exact).2 = t + 1 := by
  have hshift : (target (2 ^ 53) t - t).toNat = 1 := by
    rw [target, Nat.log2_two_pow]
    omega
  rw [(shift_eq _ t).1, (shift_eq _ t).2, hshift]
  exact ⟨rfl, rfl⟩

/-- The number that a mantissa and an exponent make when nothing is left to be cut off. -/
def finished (s : Sign) (x : ExtendedMantissa × ℤ) : UnpackedFloat :=
  if h : x.1.mantissa = 0 then .zero s else .finite s x.1.mantissa x.2 (Nat.pos_of_ne_zero h)

theorem finished_eq (s : Sign) {x : ExtendedMantissa × ℤ} {r : ℕ} {t : ℤ}
    (h : x.1.mantissa = r ∧ x.2 = t) :
    finished s x = if hr : r = 0 then .zero s else .finite s r t (Nat.pos_of_ne_zero hr) := by
  obtain ⟨rfl, rfl⟩ := h
  rfl

theorem roundWithAccuracy_eq (s : Sign) (m : ℕ) (e : ℤ) :
    let k := (target m e - e).toNat
    ∃ r, m / 2 ^ k ≤ r ∧ r ≤ m / 2 ^ k + 1 ∧ r ≤ 2 ^ 53 ∧
      roundWithAccuracy Format.binary64 s m e .exact = carried s r (e + k) := by
  intro k
  have htarget : target m e = max (m.log2 + e - 52) (-1074) := rfl
  have hbounds := roundedMantissa_bounds (shiftToTargetExponent Format.binary64 m e .exact).1
  rw [(shift_eq m e).1] at hbounds
  have hlt : m / 2 ^ k < 2 ^ 53 := by
    rw [Nat.div_lt_iff_lt_mul (Nat.two_pow_pos k), ← Nat.pow_add]
    exact Nat.lt_log2_self.trans_le (Nat.pow_le_pow_right Nat.two_pos (by omega))
  have hle : -1074 ≤ e + (k : ℤ) := by omega
  have hrounded := hbounds.2.trans hlt
  have hexponent : (shiftToTargetExponent Format.binary64 m e .exact).2 = e + k := (shift_eq m e).2
  refine ⟨_, hbounds.1, hbounds.2, hrounded, ?_⟩
  have hround : roundWithAccuracy Format.binary64 s m e .exact =
      finished s (shiftToTargetExponent Format.binary64
        (shiftToTargetExponent Format.binary64 m e .exact).1.roundedMantissa
        (shiftToTargetExponent Format.binary64 m e .exact).2 .exact) := rfl
  rw [hround, hexponent]
  generalize (shiftToTargetExponent Format.binary64 m e .exact).1.roundedMantissa = r at *
  obtain hr | rfl := hrounded.lt_or_eq
  · rw [finished_eq s (shift_of_lt hr hle), carried]
    exact dite_congr rfl (fun _ => rfl) fun _ => (if_pos hr).symm
  · rw [finished_eq s (shift_of_carry hle), carried]
    rfl

/-- Rounding cuts a mantissa off at the target exponent and adds one at most. What is left has 53
bits, unless the target exponent is the least one. -/
theorem round_eq (s : Sign) {m : ℕ} (hm : 0 < m) (e : ℤ) :
    let t := target m e
    let q := m * 2 ^ (e - t).toNat / 2 ^ (t - e).toNat
    ∃ r, q ≤ r ∧ r ≤ q + 1 ∧ r ≤ 2 ^ 53 ∧ (2 ^ 52 ≤ r ∨ t = -1074) ∧
      UnpackedFloat.round Format.binary64 s m e = carried s r t := by
  intro t q
  have htarget : t = max (m.log2 + e - 52) (-1074) := rfl
  -- The mantissa is shifted to the left or to the right, so one of the two shifts is by nothing.
  have hdecrease : decreaseExponent m e (Format.binary64.targetExponent (totalExponent m e)) =
      (m * 2 ^ (e - t).toNat, e - (e - t).toNat) := by
    rw [targetExponent_eq, decreaseExponent, Nat.shiftLeft_eq]
  have hsame : target (m * 2 ^ (e - t).toNat) (e - (e - t).toNat) = t := by
    rw [target, log2_mul_two_pow hm]
    omega
  have hshift : (t - (e - (e - t).toNat)).toNat = (t - e).toNat := by omega
  have hexponent : e - (e - t).toNat + ((t - e).toNat : ℤ) = t := by omega
  obtain ⟨r, hlow, hhigh, hr, hround⟩ :=
    roundWithAccuracy_eq s (m * 2 ^ (e - t).toNat) (e - (e - t).toNat)
  rw [hsame, hshift] at hlow hhigh hround
  rw [hexponent] at hround
  refine ⟨r, hlow, hhigh, hr, ?_, by simp only [UnpackedFloat.round, hdecrease, hround]⟩
  by_cases hmin : t = -1074
  · exact .inr hmin
  · have hlog : 52 + (t - e).toNat = m.log2 + (e - t).toNat := by omega
    refine .inl (le_trans ?_ hlow)
    rw [Nat.le_div_iff_mul_le (Nat.two_pow_pos _), ← Nat.pow_add, hlog, Nat.pow_add]
    exact Nat.mul_le_mul_right _ (Nat.log2_self_le hm.ne')

end BrokerClient.Poll.Precision

import Mathlib
import WorkflowEngine.Json.Basic

/-!
# Large integers as floating point numbers

An integer of a document beyond 63 bits becomes a floating point number.

**Rounding.**  Dropping bits makes a mantissa no longer, and rounding it up adds one; so the exponent
of a rounded number stays below what its mantissa and exponent were together
(`exists_of_roundWithAccuracy`).

**Packing.**  A number with an exponent in range is packed as a finite one (`isFinite_unpack_pack`).
Every integer that a document can hold is therefore a finite number (`isFinite_floatOfInt`).
-/

namespace WorkflowEngine

open Float.Model Float.Model.UnpackedFloat

/-! ## Packing -/

/-- A number whose exponent is in range is packed as a finite number. -/
lemma isFinite_unpack_pack {s : Sign} {m : Nat} {e : Int} {hm : 0 < m} (he : e < 972) :
    (UnpackedFloat.unpack .binary64 (UnpackedFloat.pack .binary64 (.finite s m e hm))).isFinite := by
  have hbias : ((Format.binary64.exponentBias : Nat) : Int) = 1023 := rfl
  have hrange : (e + Format.binary64.exponentBias + (52 : Nat)).toNat + 1 < 2 ^ 11 := by omega
  have hfinite : ∀ ev mv, ev ≠ -1#11 →
      (UnpackedFloat.unpack .binary64 (packComponents .binary64 s ev mv)).isFinite := by
    intro ev mv hev
    rw [UnpackedFloat.unpack]
    simp only [unpackExponent_packComponents, unpackMantissa_packComponents]
    rw [if_neg hev]
    split_ifs <;> rfl
  rw [UnpackedFloat.pack]
  simp only
  rw [if_neg (Nat.not_le.mpr hrange)]
  split_ifs
  · refine hfinite _ _ fun hones => ?_
    have hexponent := congrArg BitVec.toNat hones
    rw [BitVec.toNat_ofNat, Nat.mod_eq_of_lt (by omega)] at hexponent
    exact absurd hrange (by rw [hexponent]; decide)
  · exact hfinite _ _ (by decide)

/-! ## Rounding -/

lemma mantissa_shiftRight_le (em : ExtendedMantissa) (n : Nat) : (em >>> n).mantissa ≤ em.mantissa := by
  induction n with
  | zero => exact Nat.le_refl _
  | succ n ih => exact Nat.le_trans (Nat.div_le_self (em >>> n).mantissa 2) ih

lemma roundedMantissa_le (em : ExtendedMantissa) : em.roundedMantissa ≤ em.mantissa + 1 := by
  rw [ExtendedMantissa.roundedMantissa]
  rcases em.accuracy with _ | ord
  · exact Nat.le_succ _
  · cases ord
    · exact Nat.le_succ _
    · exact Nat.add_le_add_left (Nat.lt_succ_iff.mp (Nat.mod_lt _ (by decide))) _
    · exact Nat.le_refl _

/-- Shifting drops the bits that a mantissa has too many, and none else unless the exponent is the
least one. -/
lemma shiftToTargetExponent_le (m : Nat) (e : Int) {em : ExtendedMantissa} {e' : Int}
    (h : shiftToTargetExponent .binary64 m e .exact = (em, e')) :
    em.mantissa ≤ m ∧ e' ≤ max e (max (m.log2 + e - 52) (-1074)) := by
  have hmin : Format.binary64.minExponent = -1074 := rfl
  have hbits : ((Format.binary64.mantissaBits : Nat) : Int) = 53 := rfl
  rw [shiftToTargetExponent, shiftToExponent] at h
  obtain ⟨rfl, rfl⟩ := Prod.mk.inj h
  refine ⟨mantissa_shiftRight_le _ _, ?_⟩
  rw [Format.targetExponent, totalExponent, hmin, hbits]
  omega

lemma log2_lt_of_lt {m k : Nat} (hk : 0 < k) (h : m < 2 ^ k) : m.log2 < k := by
  rcases Nat.eq_zero_or_pos m with rfl | hm
  · simpa using hk
  · exact (Nat.log2_lt (Nat.ne_of_gt hm)).mpr h

/-- A rounded number of at most 128 bits is zero or has an exponent in range. -/
lemma roundWithAccuracy_in_range (s : Sign) {m : Nat} {e : Int} (hm : m < 2 ^ 128) (he : e ≤ 0) :
    roundWithAccuracy .binary64 s m e .exact = .zero s ∨
      ∃ m' e', ∃ hpos : 0 < m',
        roundWithAccuracy .binary64 s m e .exact = .finite s m' e' hpos ∧ e' < 972 := by
  rcases hfirst : shiftToTargetExponent .binary64 m e .exact with ⟨em₁, e₁⟩
  rcases hsecond : shiftToTargetExponent .binary64 em₁.roundedMantissa e₁ .exact with ⟨em₂, e₂⟩
  obtain ⟨hmantissa, hexponent₁⟩ := shiftToTargetExponent_le m e hfirst
  obtain ⟨-, hexponent₂⟩ := shiftToTargetExponent_le em₁.roundedMantissa e₁ hsecond
  have hlog : m.log2 < 128 := log2_lt_of_lt (by decide) hm
  have hlogRounded : em₁.roundedMantissa.log2 < 129 :=
    log2_lt_of_lt (by decide) (by have := roundedMantissa_le em₁; omega)
  rw [roundWithAccuracy]
  simp only [hfirst, hsecond]
  split_ifs with hzero
  · exact .inl rfl
  · exact .inr ⟨_, _, Nat.pos_of_ne_zero hzero, rfl, by omega⟩

/-! ## Integers -/

/-- A natural number is rounded from its mantissa with 53 more bits. -/
lemma ofScientific_of_ne_zero {m : Nat} (hm : m ≠ 0) :
    UnpackedFloat.ofScientific .binary64 m 0
      = roundWithAccuracy .binary64 .positive (m <<< 53 * 10 ^ 0) (-53 + 0) .exact := by
  have hexponents : (0 : Int) < 2 ^ Format.binary64.exponentBits := by decide
  rw [UnpackedFloat.ofScientific, dif_neg hm, if_neg (by decide), if_neg (by omega),
    if_pos (Int.le_refl 0)]
  rfl

lemma isFinite_ofScientific {m : Nat} (hlow : 2 ^ 53 ≤ m) (hhigh : m < 2 ^ 64) :
    (Float.ofScientific m false 0).isFinite := by
  have hmantissa : m <<< 53 * 10 ^ 0 < 2 ^ 128 := by
    rw [Nat.shiftLeft_eq]
    omega
  rw [Float.ofScientific, dif_neg (by omega)]
  change (UnpackedFloat.unpack .binary64 (UnpackedFloat.pack .binary64
    (UnpackedFloat.ofScientific .binary64 m 0))).isFinite
  rw [ofScientific_of_ne_zero (by omega)]
  rcases roundWithAccuracy_in_range .positive hmantissa (by decide : (-53 + 0 : Int) ≤ 0)
    with hround | ⟨m', e, hm', hround, he⟩
  · rw [hround]
    rfl
  · rw [hround]
    exact isFinite_unpack_pack he

/-- **A large integer of a document is a finite number.** -/
theorem isFinite_floatOfInt {n : Int} (hlow : maxSigned < n) (hhigh : n ≤ maxUnsigned) :
    (floatOfInt n).isFinite := by
  rw [maxSigned] at hlow
  rw [maxUnsigned] at hhigh
  rw [floatOfInt, if_pos (by omega)]
  exact isFinite_ofScientific (by omega) (by omega)

end WorkflowEngine

import NumakerMA35D1.Lib.Bytes

/-!
# Rounding to a power of two by masking

The idiom `(x + a - 1) & ~(a - 1)` of C, on fixed-width words. For `a = 2 ^ k` the mask clears the
low `k` bits (`maskLow_toNat`), so while the sum does not wrap the result is the least multiple of
`a` not below `x` (`alignUp_toNat`).
-/

namespace Embedded

/-- `x` with the bits below `a` cleared, for a power of two `a`. -/
def maskLow {w : Nat} (x a : BitVec w) : BitVec w := x &&& ~~~(a - 1#w)

/-- `x` rounded up to a multiple of `a`, for a power of two `a`. -/
def alignUp {w : Nat} (x a : BitVec w) : BitVec w := maskLow (x + a - 1#w) a

/-- The least multiple of `a` not below `n`. -/
def roundUp (n a : Nat) : Nat := (n + (a - 1)) / a * a

variable {w k : Nat}

theorem twoPow_sub_one (hk : k < w) :
    BitVec.ofNat w (2 ^ k) - 1#w = BitVec.ofNat w (2 ^ k - 1) := by
  have h : 2 ^ k < 2 ^ w := Nat.pow_lt_pow_right (by decide) hk
  have hpos := Nat.two_pow_pos k
  apply BitVec.eq_of_toNat_eq
  rw [BitVec.toNat_sub_of_le]
  · simp only [BitVec.toNat_ofNat]
    rw [Nat.mod_eq_of_lt h, Nat.mod_eq_of_lt (by omega : 2 ^ k - 1 < 2 ^ w),
      Nat.mod_eq_of_lt (by omega : 1 < 2 ^ w)]
  · rw [BitVec.le_def]
    simp only [BitVec.toNat_ofNat]
    rw [Nat.mod_eq_of_lt h, Nat.mod_eq_of_lt (by omega : 1 < 2 ^ w)]
    exact hpos

/-- Clearing the low bits is moving them out and back. -/
theorem maskLow_eq_shift (hk : k < w) (x : BitVec w) :
    maskLow x (BitVec.ofNat w (2 ^ k)) = (x >>> k) <<< k := by
  rw [maskLow, twoPow_sub_one hk]
  apply BitVec.eq_of_getLsbD_eq
  intro i hi
  simp only [BitVec.getLsbD_and, BitVec.getLsbD_not, BitVec.getLsbD_ofNat,
    Nat.testBit_two_pow_sub_one, BitVec.getLsbD_shiftLeft, BitVec.getLsbD_ushiftRight, hi]
  by_cases h : i < k
  · simp [h]
  · simp [h, Nat.add_sub_cancel' (Nat.le_of_not_lt h)]

theorem maskLow_toNat (hk : k < w) (x : BitVec w) :
    (maskLow x (BitVec.ofNat w (2 ^ k))).toNat = x.toNat / 2 ^ k * 2 ^ k := by
  rw [maskLow_eq_shift hk, BitVec.toNat_shiftLeft, BitVec.toNat_ushiftRight,
    Nat.shiftRight_eq_div_pow, Nat.shiftLeft_eq, Nat.mod_eq_of_lt]
  exact Nat.lt_of_le_of_lt (Nat.div_mul_le_self _ _) x.isLt

theorem alignUp_toNat (hk : k < w) (x : BitVec w) (h : x.toNat + (2 ^ k - 1) < 2 ^ w) :
    (alignUp x (BitVec.ofNat w (2 ^ k))).toNat = roundUp x.toNat (2 ^ k) := by
  have hsum : (x + BitVec.ofNat w (2 ^ k) - 1#w).toNat = x.toNat + (2 ^ k - 1) := by
    have hpos := Nat.two_pow_pos k
    rw [BitVec.sub_eq_add_neg, BitVec.add_assoc, ← BitVec.sub_eq_add_neg, twoPow_sub_one hk,
      BitVec.toNat_add, BitVec.toNat_ofNat,
      Nat.mod_eq_of_lt (by omega : 2 ^ k - 1 < 2 ^ w), Nat.mod_eq_of_lt h]
  rw [alignUp, maskLow_toNat hk, hsum, roundUp]

/-- A sum that wraps is rounded to zero. -/
theorem alignUp_wrap (hk : k < w) (x : BitVec w) (h : 2 ^ w ≤ x.toNat + (2 ^ k - 1)) :
    alignUp x (BitVec.ofNat w (2 ^ k)) = 0 := by
  have hpow : 2 ^ k < 2 ^ w := Nat.pow_lt_pow_right (by decide) hk
  have hlt := x.isLt
  have hsum : (x + BitVec.ofNat w (2 ^ k) - 1#w).toNat = x.toNat + (2 ^ k - 1) - 2 ^ w := by
    rw [BitVec.sub_eq_add_neg, BitVec.add_assoc, ← BitVec.sub_eq_add_neg, twoPow_sub_one hk,
      BitVec.toNat_add, BitVec.toNat_ofNat,
      Nat.mod_eq_of_lt (by omega : 2 ^ k - 1 < 2 ^ w), Nat.mod_eq_sub_mod h,
      Nat.mod_eq_of_lt (by omega)]
  apply BitVec.eq_of_toNat_eq
  rw [alignUp, maskLow_toNat hk, hsum, Nat.div_eq_of_lt (by omega), Nat.zero_mul]
  rfl

/-! ## Rounding of numbers -/

theorem le_roundUp (n : Nat) {a : Nat} (ha : 0 < a) : n ≤ roundUp n a := by
  have h := Nat.div_add_mod (n + (a - 1)) a
  have hlt := Nat.mod_lt (n + (a - 1)) ha
  rw [Nat.mul_comm] at h
  unfold roundUp
  omega

theorem dvd_roundUp (n a : Nat) : a ∣ roundUp n a := Nat.dvd_mul_left _ _

/-- Rounding commutes with adding a multiple. -/
theorem roundUp_add_of_dvd {m a : Nat} (ha : 0 < a) (h : a ∣ m) (n : Nat) :
    roundUp (m + n) a = m + roundUp n a := by
  obtain ⟨q, rfl⟩ := h
  rw [roundUp, Nat.add_assoc, Nat.mul_add_div ha, Nat.add_mul, Nat.mul_comm q a, roundUp]

end Embedded

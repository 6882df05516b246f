import NumakerMA35D1.Lib.BitField

/-!
# Words of decimal digits

`bcdWord a b c` holds the tens and units of three numbers, each digit shifted into its place and none
cut, and `bcdField` is a number read back from a field of units of four bits and one of tens above
it. Each number comes back if and only if its tens fit, once those below it do
(`bcdField_low_iff`, `bcdField_mid_iff`, `bcdField_high_iff`).
-/

namespace Embedded

/-- Three numbers as decimal digits, as clock drivers put them together. -/
def bcdWord (a b c : BitVec 32) : BitVec 32 :=
  ((a / 10#32) <<< 20) ||| ((a % 10#32) <<< 16) ||| ((b / 10#32) <<< 12) ||| ((b % 10#32) <<< 8) |||
    ((c / 10#32) <<< 4) ||| (c % 10#32)

/-- The number whose units are in the four bits from bit `pos` up and whose tens are in the `len`
bits above them. -/
def bcdField (w : BitVec 32) (pos len : Nat) : BitVec 32 :=
  getField w (pos + 4) len * 10#32 + getField w pos 4

variable {a b c x : BitVec 32} {i j len : Nat}

theorem getField_shiftLeft_ge (h : j ≤ i) (hi : i + len ≤ 32) :
    getField (x <<< j) i len = getField x (i - j) len := by
  apply BitVec.eq_of_getLsbD_eq
  intro k hk
  rw [getLsbD_getField hk, getLsbD_getField hk]
  rcases Nat.lt_or_ge k len with hlt | hge
  · have hsub : i + k - j = i - j + k := by omega
    rw [BitVec.getLsbD_shiftLeft, hsub]
    simp [show i + k < 32 by omega, show ¬ i + k < j by omega]
  · simp [Nat.not_lt.2 hge]

theorem getField_shiftLeft_lt (h : i + len ≤ j) : getField (x <<< j) i len = 0#32 := by
  apply BitVec.eq_of_getLsbD_eq
  intro k hk
  rw [getLsbD_getField hk, BitVec.getLsbD_zero]
  rcases Nat.lt_or_ge k len with hlt | hge
  · rw [BitVec.getLsbD_shiftLeft]
    simp [show i + k < j by omega]
  · simp [Nat.not_lt.2 hge]

/-- A field above all bits of a number. -/
theorem getField_eq_zero (hx : x.toNat < 2 ^ i) : getField x i len = 0#32 := by
  have hshift : x >>> i = 0#32 := by
    apply BitVec.eq_of_toNat_eq
    rw [BitVec.toNat_ushiftRight, Nat.shiftRight_eq_div_pow, Nat.div_eq_of_lt hx]
    rfl
  rw [getField, hshift, BitVec.zero_and]

/-- The units of a number fit in four bits. -/
theorem units_lt (x : BitVec 32) : (x % 10#32).toNat < 2 ^ 4 := by
  rw [BitVec.toNat_umod]
  exact lt_trans (Nat.mod_lt _ (by decide)) (by decide)

theorem tens_toNat (x : BitVec 32) : (x / 10#32).toNat = x.toNat / 10 := BitVec.toNat_udiv

/-- The number that tens cut to `len` bits and the units are. -/
theorem tens_units_toNat (hlen : len ≤ 4) :
    (getField (x / 10#32) 0 len * 10#32 + x % 10#32).toNat = x.toNat % (10 * 2 ^ len) := by
  have hpow : 2 ^ len ≤ 2 ^ 4 := Nat.pow_le_pow_right (by decide) hlen
  have hlt : x.toNat / 10 % 2 ^ len < 2 ^ len := Nat.mod_lt _ (by positivity)
  have hfield : (getField (x / 10#32) 0 len).toNat = x.toNat / 10 % 2 ^ len := by
    rw [getField_toNat (by omega), tens_toNat, Nat.pow_zero, Nat.div_one]
  rw [BitVec.toNat_add, BitVec.toNat_mul, hfield, BitVec.toNat_umod, Nat.mod_mul]
  change (x.toNat / 10 % 2 ^ len * 10 % 2 ^ 32 + x.toNat % 10) % 2 ^ 32 = _
  omega

/-- Tens cut to `len` bits, and the units, give the number back if and only if the tens fit. -/
theorem tens_units_iff (hlen : len ≤ 4) :
    getField (x / 10#32) 0 len * 10#32 + x % 10#32 = x ↔ x.toNat < 10 * 2 ^ len := by
  rw [← BitVec.toNat_inj, tens_units_toNat hlen, Nat.mod_eq_iff_lt (by positivity)]

/-- The digits of the lowest number. -/
theorem bcdField_low (hlen : len ≤ 4) :
    bcdField (bcdWord a b c) 0 len = getField (c / 10#32) 0 len * 10#32 + c % 10#32 := by
  have htens : getField (bcdWord a b c) 4 len = getField (c / 10#32) 0 len := by
    simp only [bcdWord, getField_or]
    rw [getField_shiftLeft_lt (by omega), getField_shiftLeft_lt (by omega),
      getField_shiftLeft_lt (by omega), getField_shiftLeft_lt (by omega),
      getField_shiftLeft_ge (by omega) (by omega), getField_eq_zero (units_lt c)]
    simp
  have hunits : getField (bcdWord a b c) 0 4 = c % 10#32 := by
    simp only [bcdWord, getField_or]
    rw [getField_shiftLeft_lt (by omega), getField_shiftLeft_lt (by omega),
      getField_shiftLeft_lt (by omega), getField_shiftLeft_lt (by omega),
      getField_shiftLeft_lt (by omega), getField_zero (units_lt c)]
    simp
  rw [bcdField, htens, hunits]

/-- The digits of the number in the middle, when the lowest one leaves them alone. -/
theorem bcdField_mid (hlen : len ≤ 4) (hc : c.toNat < 160) :
    bcdField (bcdWord a b c) 8 len = getField (b / 10#32) 0 len * 10#32 + b % 10#32 := by
  have hc' : (c / 10#32).toNat < 2 ^ 4 := by
    rw [tens_toNat]
    omega
  have htens : getField (bcdWord a b c) 12 len = getField (b / 10#32) 0 len := by
    simp only [bcdWord, getField_or]
    rw [getField_shiftLeft_lt (by omega), getField_shiftLeft_lt (by omega),
      getField_shiftLeft_ge (by omega) (by omega), getField_shiftLeft_ge (by omega) (by omega),
      getField_shiftLeft_ge (by omega) (by omega), getField_eq_zero (units_lt b),
      getField_eq_zero (lt_of_lt_of_le hc' (by decide)),
      getField_eq_zero (lt_of_lt_of_le (units_lt c) (by decide))]
    simp
  have hunits : getField (bcdWord a b c) 8 4 = b % 10#32 := by
    simp only [bcdWord, getField_or]
    rw [getField_shiftLeft_lt (by omega), getField_shiftLeft_lt (by omega),
      getField_shiftLeft_lt (by omega), getField_shiftLeft_ge (by omega) (by omega),
      getField_shiftLeft_ge (by omega) (by omega), getField_zero (units_lt b),
      getField_eq_zero hc', getField_eq_zero (lt_of_lt_of_le (units_lt c) (by decide))]
    simp
  rw [bcdField, htens, hunits]

/-- The digits of the highest number, when the others leave them alone. -/
theorem bcdField_high (hlen : len ≤ 4) (hb : b.toNat < 160) (hc : c.toNat < 160) :
    bcdField (bcdWord a b c) 16 len = getField (a / 10#32) 0 len * 10#32 + a % 10#32 := by
  have hb' : (b / 10#32).toNat < 2 ^ 4 := by
    rw [tens_toNat]
    omega
  have hc' : (c / 10#32).toNat < 2 ^ 4 := by
    rw [tens_toNat]
    omega
  have htens : getField (bcdWord a b c) 20 len = getField (a / 10#32) 0 len := by
    simp only [bcdWord, getField_or]
    rw [getField_shiftLeft_ge (by omega) (by omega), getField_shiftLeft_ge (by omega) (by omega),
      getField_shiftLeft_ge (by omega) (by omega), getField_shiftLeft_ge (by omega) (by omega),
      getField_shiftLeft_ge (by omega) (by omega), getField_eq_zero (units_lt a),
      getField_eq_zero (lt_of_lt_of_le hb' (by decide)),
      getField_eq_zero (lt_of_lt_of_le (units_lt b) (by decide)),
      getField_eq_zero (lt_of_lt_of_le hc' (by decide)),
      getField_eq_zero (lt_of_lt_of_le (units_lt c) (by decide))]
    simp
  have hunits : getField (bcdWord a b c) 16 4 = a % 10#32 := by
    simp only [bcdWord, getField_or]
    rw [getField_shiftLeft_lt (by omega), getField_shiftLeft_ge (by omega) (by omega),
      getField_shiftLeft_ge (by omega) (by omega), getField_shiftLeft_ge (by omega) (by omega),
      getField_shiftLeft_ge (by omega) (by omega), getField_zero (units_lt a),
      getField_eq_zero hb', getField_eq_zero (lt_of_lt_of_le (units_lt b) (by decide)),
      getField_eq_zero (lt_of_lt_of_le hc' (by decide)),
      getField_eq_zero (lt_of_lt_of_le (units_lt c) (by decide))]
    simp
  rw [bcdField, htens, hunits]

theorem bcdField_low_iff (hlen : len ≤ 4) :
    bcdField (bcdWord a b c) 0 len = c ↔ c.toNat < 10 * 2 ^ len := by
  rw [bcdField_low hlen, tens_units_iff hlen]

theorem bcdField_mid_iff (hlen : len ≤ 4) (hc : c.toNat < 160) :
    bcdField (bcdWord a b c) 8 len = b ↔ b.toNat < 10 * 2 ^ len := by
  rw [bcdField_mid hlen hc, tens_units_iff hlen]

theorem bcdField_high_iff (hlen : len ≤ 4) (hb : b.toNat < 160) (hc : c.toNat < 160) :
    bcdField (bcdWord a b c) 16 len = a ↔ a.toNat < 10 * 2 ^ len := by
  rw [bcdField_high hlen hb hc, tens_units_iff hlen]

end Embedded

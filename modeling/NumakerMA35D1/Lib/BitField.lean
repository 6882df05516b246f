import NumakerMA35D1.Lib.Bytes

/-!
# Fields of a register word

`getField r pos len` is the value of the `len` bits of a word from bit `pos` up, and
`putField v pos len` a word that holds `v` there and zero elsewhere, as drivers write
`(r & MSK) >> POS` and `(v << POS) & MSK`. A word put together from fields with `|` gives each field
back (`getField_putField`, `getField_putField_disjoint` and `getField_or`). Where a mask is any word, a
value within it that is written into a register is read back and leaves the rest (`replace_and`,
`replace_and_not`).
-/

namespace Embedded

/-- The `len` lowest bits set. -/
def fieldMask (len : Nat) : BitVec 32 := BitVec.ofNat 32 (2 ^ len - 1)

/-- The field of `len` bits from bit `pos` up. -/
def getField (r : BitVec 32) (pos len : Nat) : BitVec 32 := (r >>> pos) &&& fieldMask len

/-- A value as the field of `len` bits from bit `pos` up. -/
def putField (v : BitVec 32) (pos len : Nat) : BitVec 32 := (v &&& fieldMask len) <<< pos

variable {r v : BitVec 32} {pos len pos' len' i : Nat}

theorem getLsbD_fieldMask (hi : i < 32) : (fieldMask len).getLsbD i = decide (i < len) := by
  rw [fieldMask, BitVec.getLsbD_ofNat, Nat.testBit_two_pow_sub_one]
  simp [hi]

theorem getLsbD_getField (hi : i < 32) :
    (getField r pos len).getLsbD i = (r.getLsbD (pos + i) && decide (i < len)) := by
  rw [getField, BitVec.getLsbD_and, BitVec.getLsbD_ushiftRight, getLsbD_fieldMask hi]

theorem getLsbD_putField (hi : i < 32) :
    (putField v pos len).getLsbD i =
      (decide (pos ≤ i) && (v.getLsbD (i - pos) && decide (i - pos < len))) := by
  rw [putField, BitVec.getLsbD_shiftLeft, BitVec.getLsbD_and,
    getLsbD_fieldMask (show i - pos < 32 by omega)]
  rcases Nat.lt_or_ge i pos with hlt | hge
  · simp [hlt]
  · simp [hi, hge, Nat.not_lt.2 hge]

/-- A value that has the bits of its field is not cut. -/
theorem and_fieldMask (h : v.toNat < 2 ^ len) : v &&& fieldMask len = v := by
  apply BitVec.eq_of_getLsbD_eq
  intro i hi
  rw [BitVec.getLsbD_and, getLsbD_fieldMask hi]
  rcases Nat.lt_or_ge i len with hlt | hge
  · simp [hlt]
  · have hbit : v.getLsbD i = false :=
      Nat.testBit_lt_two_pow (lt_of_lt_of_le h (Nat.pow_le_pow_right (by decide) hge))
    simp [hbit]

/-- A word's field at bit zero that has all its bits is the word. -/
theorem getField_zero (h : v.toNat < 2 ^ len) : getField v 0 len = v := by
  rw [getField, BitVec.ushiftRight_zero, and_fieldMask h]

/-- A field read back, cut to its bits. -/
theorem getField_putField (h : pos + len ≤ 32) :
    getField (putField v pos len) pos len = v &&& fieldMask len := by
  apply BitVec.eq_of_getLsbD_eq
  intro i hi
  rw [getLsbD_getField hi, BitVec.getLsbD_and, getLsbD_fieldMask hi]
  rcases Nat.lt_or_ge i len with hlt | hge
  · rw [getLsbD_putField (show pos + i < 32 by omega)]
    simp [hlt]
  · simp [Nat.not_lt.2 hge]

/-- The low bits of a wider field at the same place. -/
theorem getField_putField_wider (hlen : len ≤ len') (h : pos + len' ≤ 32) :
    getField (putField v pos len') pos len = v &&& fieldMask len := by
  apply BitVec.eq_of_getLsbD_eq
  intro i hi
  rw [getLsbD_getField hi, BitVec.getLsbD_and, getLsbD_fieldMask hi]
  rcases Nat.lt_or_ge i len with hlt | hge
  · rw [getLsbD_putField (show pos + i < 32 by omega)]
    simp [hlt, lt_of_lt_of_le hlt hlen]
  · simp [Nat.not_lt.2 hge]

/-- A value that has the bits of its field, shifted into place. -/
theorem shiftLeft_eq_putField (h : v.toNat < 2 ^ len) : v <<< pos = putField v pos len := by
  rw [putField, and_fieldMask h]

theorem putField_zero (h : v.toNat < 2 ^ len) : putField v 0 len = v := by
  rw [putField, BitVec.shiftLeft_zero, and_fieldMask h]

/-- Another field does not show. -/
theorem getField_putField_disjoint (h : pos + len ≤ pos' ∨ pos' + len' ≤ pos) :
    getField (putField v pos' len') pos len = 0#32 := by
  apply BitVec.eq_of_getLsbD_eq
  intro i hi
  rw [getLsbD_getField hi, BitVec.getLsbD_zero]
  rcases Nat.lt_or_ge (pos + i) 32 with hlt | hge
  · rw [getLsbD_putField hlt]
    simp only [Bool.and_eq_false_iff, decide_eq_false_iff_not]
    omega
  · rw [BitVec.getLsbD_of_ge _ _ hge, Bool.false_and]

@[simp] theorem getField_zero_word : getField 0#32 pos len = 0#32 := by
  rw [getField, BitVec.zero_ushiftRight, BitVec.zero_and]

theorem getField_or (a b : BitVec 32) :
    getField (a ||| b) pos len = getField a pos len ||| getField b pos len := by
  apply BitVec.eq_of_getLsbD_eq
  intro i hi
  simp only [BitVec.getLsbD_or, getLsbD_getField hi, Bool.and_or_distrib_right]

theorem getField_and_not (a b : BitVec 32) :
    getField (a &&& ~~~b) pos len = getField a pos len &&& ~~~getField b pos len := by
  apply BitVec.eq_of_getLsbD_eq
  intro i hi
  rw [BitVec.getLsbD_and, BitVec.getLsbD_not, getLsbD_getField hi, getLsbD_getField hi,
    getLsbD_getField hi, BitVec.getLsbD_and, BitVec.getLsbD_not]
  rcases Nat.lt_or_ge (pos + i) 32 with hlt | hge
  · cases a.getLsbD (pos + i) <;> cases decide (i < len) <;> simp [hlt, hi]
  · simp [BitVec.getLsbD_of_ge a _ hge]

/-- A read-modify-write puts its word into a field its mask covers. -/
theorem getField_replace (w x : BitVec 32) {msk : BitVec 32}
    (h : getField msk pos len = fieldMask len) :
    getField ((w &&& ~~~msk) ||| x) pos len = getField x pos len := by
  have hclear : getField w pos len &&& ~~~fieldMask len = 0#32 := by
    rw [getField, BitVec.and_assoc, BitVec.and_not_self]
    exact BitVec.and_zero
  rw [getField_or, getField_and_not, h, hclear, BitVec.zero_or]

/-- A read-modify-write keeps what a field outside its mask has. -/
theorem getField_keep (w x : BitVec 32) {msk : BitVec 32} (h : getField msk pos len = 0#32) :
    getField ((w &&& ~~~msk) ||| x) pos len = getField w pos len ||| getField x pos len := by
  rw [getField_or, getField_and_not, h, BitVec.not_zero, BitVec.and_allOnes]

section

variable {x m v : BitVec 32}

/-- A value within a mask has no bit outside of it. -/
theorem getLsbD_of_and_not_eq_zero (h : v &&& ~~~m = 0#32) (hi : i < 32) :
    v.getLsbD i = (v.getLsbD i && m.getLsbD i) := by
  have hbit := congrArg (fun w => w.getLsbD i) h
  simp only [BitVec.getLsbD_and, BitVec.getLsbD_not, hi, decide_true, Bool.true_and,
    BitVec.getLsbD_zero] at hbit
  cases hv : v.getLsbD i <;> cases hm : m.getLsbD i <;> simp [hv, hm] at hbit ⊢

/-- A value written within a mask is read back. -/
theorem replace_and (x : BitVec 32) (h : v &&& ~~~m = 0#32) : ((x &&& ~~~m) ||| v) &&& m = v := by
  apply BitVec.eq_of_getLsbD_eq
  intro i hi
  rw [getLsbD_of_and_not_eq_zero h hi]
  simp only [BitVec.getLsbD_and, BitVec.getLsbD_or, BitVec.getLsbD_not, hi, decide_true,
    Bool.true_and]
  cases x.getLsbD i <;> cases v.getLsbD i <;> cases m.getLsbD i <;> rfl

/-- A value written within a mask leaves what is outside of it. -/
theorem replace_and_not (x : BitVec 32) (h : v &&& ~~~m = 0#32) :
    ((x &&& ~~~m) ||| v) &&& ~~~m = x &&& ~~~m := by
  apply BitVec.eq_of_getLsbD_eq
  intro i hi
  have hbit := getLsbD_of_and_not_eq_zero h hi
  simp only [BitVec.getLsbD_and, BitVec.getLsbD_or, BitVec.getLsbD_not, hi, decide_true,
    Bool.true_and]
  rw [hbit]
  cases x.getLsbD i <;> cases v.getLsbD i <;> cases m.getLsbD i <;> rfl

/-- A field taken out of its place and put back. -/
theorem and_shiftRight_shiftLeft (x m : BitVec 32) (pos : Nat) :
    ((x &&& m <<< pos) >>> pos) <<< pos = x &&& m <<< pos := by
  apply BitVec.eq_of_getLsbD_eq
  intro i hi
  rw [BitVec.getLsbD_shiftLeft, BitVec.getLsbD_ushiftRight]
  rcases Nat.lt_or_ge i pos with hlt | hge
  · rw [BitVec.getLsbD_and, BitVec.getLsbD_shiftLeft]
    simp [hlt]
  · rw [Nat.add_sub_cancel' hge]
    simp only [hi, Nat.not_lt.2 hge, decide_true, decide_false, Bool.not_false, Bool.true_and]

end

/-- A mask in place covers its field. -/
theorem getField_mask (h : pos + len ≤ 32) : getField (fieldMask len <<< pos) pos len = fieldMask len := by
  apply BitVec.eq_of_getLsbD_eq
  intro i hi
  rw [getLsbD_getField hi, getLsbD_fieldMask hi]
  rcases Nat.lt_or_ge i len with hlt | hge
  · have hin : pos + i < 32 := by omega
    rw [BitVec.getLsbD_shiftLeft, getLsbD_fieldMask (show pos + i - pos < 32 by omega)]
    simp [hlt, hin]
  · simp [Nat.not_lt.2 hge]

/-- A mask in place has no bit of another field. -/
theorem getField_mask_disjoint (h : pos + len ≤ pos' ∨ pos' + len' ≤ pos) :
    getField (fieldMask len' <<< pos') pos len = 0#32 := by
  have hself : fieldMask len' <<< pos' = putField (fieldMask len') pos' len' := by
    rw [putField, BitVec.and_self]
  rw [hself, getField_putField_disjoint h]

/-- A field written, read back. -/
theorem getField_write (w : BitVec 32) (h : pos + len ≤ 32) (hv : v.toNat < 2 ^ len) :
    getField ((w &&& ~~~(fieldMask len <<< pos)) ||| v <<< pos) pos len = v := by
  rw [getField_replace _ _ (getField_mask h), shiftLeft_eq_putField hv, getField_putField h,
    and_fieldMask hv]

/-- Another field, kept. -/
theorem getField_write_disjoint (w : BitVec 32) (h : pos + len ≤ pos' ∨ pos' + len' ≤ pos)
    (hv : v.toNat < 2 ^ len') :
    getField ((w &&& ~~~(fieldMask len' <<< pos')) ||| v <<< pos') pos len = getField w pos len := by
  rw [getField_keep _ _ (getField_mask_disjoint h), shiftLeft_eq_putField hv,
    getField_putField_disjoint h, BitVec.or_zero]

theorem getField_toNat (h : len ≤ 32) :
    (getField r pos len).toNat = r.toNat / 2 ^ pos % 2 ^ len := by
  have hmask : (2 ^ len - 1) % 2 ^ 32 = 2 ^ len - 1 :=
    Nat.mod_eq_of_lt (lt_of_lt_of_le (Nat.sub_lt (by positivity) (by decide))
      (Nat.pow_le_pow_right (by decide) h))
  rw [getField, BitVec.toNat_and, BitVec.toNat_ushiftRight, Nat.shiftRight_eq_div_pow, fieldMask,
    BitVec.toNat_ofNat, hmask, Nat.and_two_pow_sub_one_eq_mod]

theorem and_fieldMask_toNat (v : BitVec 32) (h : len ≤ 32) :
    (v &&& fieldMask len).toNat = v.toNat % 2 ^ len := by
  have hfield : (getField v 0 len).toNat = v.toNat / 2 ^ 0 % 2 ^ len := getField_toNat h
  rwa [getField, BitVec.ushiftRight_zero, Nat.pow_zero, Nat.div_one] at hfield

theorem putField_toNat (h : pos + len ≤ 32) :
    (putField v pos len).toNat = v.toNat % 2 ^ len * 2 ^ pos := by
  have hlen : v.toNat % 2 ^ len < 2 ^ len := Nat.mod_lt _ (by positivity)
  have hpow : 2 ^ len * 2 ^ pos ≤ 2 ^ 32 := by
    rw [← Nat.pow_add, Nat.add_comm]
    exact Nat.pow_le_pow_right (by decide) h
  have hlt : v.toNat % 2 ^ len * 2 ^ pos < 2 ^ 32 :=
    lt_of_lt_of_le (Nat.mul_lt_mul_of_pos_right hlen (by positivity)) hpow
  rw [putField, BitVec.toNat_shiftLeft, and_fieldMask_toNat v (by omega), Nat.shiftLeft_eq]
  exact Nat.mod_eq_of_lt hlt

/-- The bits of a shifted mask are a field. -/
theorem and_fieldMask_shiftLeft (h : pos + len ≤ 32) (x : BitVec 32) :
    x &&& (fieldMask len <<< pos) = putField (x >>> pos) pos len := by
  apply BitVec.eq_of_getLsbD_eq
  intro i hi
  rw [BitVec.getLsbD_and, getLsbD_putField hi, BitVec.getLsbD_shiftLeft,
    BitVec.getLsbD_ushiftRight, getLsbD_fieldMask (show i - pos < 32 by omega)]
  rcases Nat.lt_or_ge i pos with hlt | hge
  · simp [hlt]
  · rw [Nat.add_sub_cancel' hge]
    simp [hi, hge, Nat.not_lt.2 hge]

/-- A test of one bit, as a field of one bit. -/
theorem and_bit_ne_zero (w : BitVec 32) {k : Nat} (hk : k < 32) :
    w &&& (1#32 <<< k) ≠ 0#32 ↔ getField w k 1 = 1#32 := by
  have hfield : getField w k 1 = if w.getLsbD k then 1#32 else 0#32 := by
    apply BitVec.eq_of_getLsbD_eq
    intro i hi
    rw [getLsbD_getField hi]
    cases i with
    | zero => cases w.getLsbD k <;> simp
    | succ i => cases w.getLsbD k <;> simp
  have hpow : 1#32 <<< k = BitVec.twoPow 32 k := rfl
  rw [hpow, BitVec.and_twoPow, hfield]
  cases w.getLsbD k with
  | false => simp
  | true =>
    have hne : BitVec.twoPow 32 k ≠ 0#32 := by
      intro h
      have hbit := congrArg (·.getLsbD k) h
      simp [hk] at hbit
    simp [hne]

end Embedded

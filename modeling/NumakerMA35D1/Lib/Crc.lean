import NumakerMA35D1.Lib.Bytes

/-!
# Reflected cyclic redundancy checks

The bit-at-a-time definition of a reflected CRC of any width, polynomial, initial value and final
exclusive or, and the table-driven form of its byte step: `byteStep_eq_table` says that eight bit
steps from `c ^^^ b` are the table's entry for the low octet and `c` moved down eight places. It
holds because a bit step is linear in exclusive or (`bitStep_xor`).
-/

namespace Embedded.Crc

variable {w : Nat} (poly : BitVec w)

/-- One bit step of a reflected CRC: the bit shifted out selects the polynomial. -/
def bitStep (c : BitVec w) : BitVec w :=
  if c.getLsbD 0 then (c >>> 1) ^^^ poly else c >>> 1

/-- `n` bit steps. -/
def bitSteps : Nat → BitVec w → BitVec w
  | 0, c => c
  | n + 1, c => bitSteps n (bitStep poly c)

/-- One byte of input: it is added to the low octet, then eight bit steps are taken. -/
def byteStep (c : BitVec w) (b : Byte) : BitVec w :=
  bitSteps poly 8 (c ^^^ b.setWidth w)

/-- The CRC of a byte string. -/
def crc (init xorOut : BitVec w) (bs : List Byte) : BitVec w :=
  bs.foldl (byteStep poly) init ^^^ xorOut

/-! ## Linearity -/

/-- A bit step is linear in exclusive or. -/
theorem bitStep_xor (a b : BitVec w) :
    bitStep poly (a ^^^ b) = bitStep poly a ^^^ bitStep poly b := by
  unfold bitStep
  rw [BitVec.getLsbD_xor, BitVec.ushiftRight_xor_distrib]
  cases a.getLsbD 0 <;> cases b.getLsbD 0
  · rfl
  · exact BitVec.xor_assoc _ _ _
  · show a >>> 1 ^^^ b >>> 1 ^^^ poly = a >>> 1 ^^^ poly ^^^ b >>> 1
    rw [BitVec.xor_assoc, BitVec.xor_comm (b >>> 1), ← BitVec.xor_assoc]
  · show a >>> 1 ^^^ b >>> 1 = a >>> 1 ^^^ poly ^^^ (b >>> 1 ^^^ poly)
    rw [BitVec.xor_comm (b >>> 1) poly, ← BitVec.xor_assoc, BitVec.xor_assoc (a >>> 1) poly poly,
      BitVec.xor_self, BitVec.xor_zero]

/-- So is any number of them. -/
theorem bitSteps_xor (n : Nat) (a b : BitVec w) :
    bitSteps poly n (a ^^^ b) = bitSteps poly n a ^^^ bitSteps poly n b := by
  induction n generalizing a b with
  | zero => rfl
  | succ n ih => rw [bitSteps, bitStep_xor, ih]; rfl

/-- While the low bits are clear, bit steps only shift. -/
theorem bitSteps_of_low_clear (n : Nat) (c : BitVec w) (h : ∀ i < n, c.getLsbD i = false) :
    bitSteps poly n c = c >>> n := by
  induction n generalizing c with
  | zero => simp [bitSteps]
  | succ n ih =>
    have hc : bitStep poly c = c >>> 1 := by simp [bitStep, h 0 (by omega)]
    rw [bitSteps, hc, ih _ (fun i hi => by simpa [Nat.add_comm] using h (1 + i) (by omega)),
      ← BitVec.shiftRight_add, Nat.add_comm]

/-! ## The table-driven byte step -/

/-- A value is its low octet and the rest. -/
theorem xor_low_high (c m : BitVec w) : c = (c &&& m) ^^^ (c &&& ~~~m) := by
  ext i hi
  have hbit : ∀ x y : Bool, x = ((x && y) ^^ (x && !y)) := by decide
  simp only [BitVec.getElem_xor, BitVec.getElem_and, BitVec.getElem_not]
  exact hbit _ _

/-- Eight bit steps: those of the low octet, which a table holds, and the rest moved down. -/
theorem bitSteps_eight (c : BitVec w) :
    bitSteps poly 8 c = bitSteps poly 8 (c &&& 255#w) ^^^ (c >>> 8) := by
  have h255 (i : Nat) : (255#w).getLsbD i = (decide (i < w) && decide (i < 8)) := by
    rw [BitVec.getLsbD_ofNat, show (255 : Nat) = 2 ^ 8 - 1 by rfl, Nat.testBit_two_pow_sub_one]
  have hclear : ∀ i < 8, (c &&& ~~~255#w).getLsbD i = false := by
    intro i hi
    simp only [BitVec.getLsbD_and, BitVec.getLsbD_not, h255]
    simp [hi]
  have hshift : (c &&& ~~~255#w) >>> 8 = c >>> 8 := by
    apply BitVec.eq_of_getLsbD_eq
    intro i _
    simp only [BitVec.getLsbD_ushiftRight, BitVec.getLsbD_and, BitVec.getLsbD_not, h255]
    by_cases h : 8 + i < w
    · simp [h]
    · simp [BitVec.getLsbD_of_ge c (8 + i) (by omega)]
  conv_lhs => rw [xor_low_high c 255#w]
  rw [bitSteps_xor, bitSteps_of_low_clear poly 8 _ hclear, hshift]

/-- **The table-driven byte step.** The added byte lies in the low octet, so the shifted part of
the sum is the shifted part of the old value. -/
theorem byteStep_eq_table (c : BitVec w) (b : Byte) :
    byteStep poly c b =
      bitSteps poly 8 ((c ^^^ b.setWidth w) &&& 255#w) ^^^ (c >>> 8) := by
  rw [byteStep, bitSteps_eight]
  congr 1
  rw [BitVec.ushiftRight_xor_distrib]
  have : b.setWidth w >>> 8 = 0#w := by
    apply BitVec.eq_of_getLsbD_eq
    intro i _
    simp [BitVec.getLsbD_setWidth]
  rw [this, BitVec.xor_zero]

end Embedded.Crc

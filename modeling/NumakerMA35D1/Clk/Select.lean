import NumakerMA35D1.Clk.Pll

/-!
# Clock selection

The registers by which modules select their clock, and the frequencies of the system clocks.

Reference: `nu_clk.c`, `nu_clk.h`.
-/

namespace NumakerMA35D1.Clk

open Embedded

/-- The registers of the clock controller that select the clocks. Reference: `clk_reg.h:1758 CLK_T`. -/
structure ClkSel where
  clk : ClkT
  CLKSEL0 : BitVec 32
  CLKSEL4 : BitVec 32

/-- Reference: `nu_clk.c:162 CLK_GetSYSCLK0Freq`. -/
def clkGetSYSCLK0Freq (sel : ClkSel) : BitVec 32 :=
  if sel.CLKSEL0 &&& 1#32 <<< 2 = 0#32 then clkGetPLLClockFreq sel.clk EPLL / 2#32
  else BitVec.ofNat 32 SYSPLLFREQCLK

/-- Reference: `nu_clk.c:184 CLK_GetSYSCLK1Freq`. -/
def clkGetSYSCLK1Freq (sel : ClkSel) : BitVec 32 :=
  if sel.CLKSEL0 &&& 1#32 <<< 4 = 0#32 then hxt else BitVec.ofNat 32 SYSPLLFREQCLK

/-- Reference: `nu_clk.h:598 CLK_GetPCLK0Freq`. -/
def clkGetPCLK0Freq (sel : ClkSel) : BitVec 32 := clkGetSYSCLK1Freq sel
@[inherit_doc clkGetPCLK0Freq] def clkGetPCLK1Freq (sel : ClkSel) : BitVec 32 := clkGetSYSCLK1Freq sel
@[inherit_doc clkGetPCLK0Freq] def clkGetPCLK2Freq (sel : ClkSel) : BitVec 32 := clkGetSYSCLK1Freq sel

/-- A selection field of two bits, as a getter tests it in place. -/
theorem sel_bits (w : BitVec 32) {pos : Nat} (h : pos + 2 ≤ 32) :
    (w &&& 3#32 <<< pos).toNat = (getField w pos 2).toNat * 2 ^ pos := by
  have hmask : (3#32 : BitVec 32) = fieldMask 2 := rfl
  rw [hmask, and_fieldMask_shiftLeft h, putField_toNat h, getField_toNat (by decide),
    BitVec.toNat_ushiftRight, Nat.shiftRight_eq_div_pow]

/-- The test of a selection field against a value in place. -/
theorem sel_eq_iff (w : BitVec 32) {pos : Nat} {v : Nat} (h : pos + 2 ≤ 32) (hv : v < 4) :
    w &&& 3#32 <<< pos = BitVec.ofNat 32 v <<< pos ↔ (getField w pos 2).toNat = v := by
  have hpow : 4 * 2 ^ pos ≤ 2 ^ 32 := by
    have hfour : (4 : Nat) = 2 ^ 2 := rfl
    rw [hfour, ← Nat.pow_add]
    exact Nat.pow_le_pow_right (by decide) (by omega)
  have hlt : v * 2 ^ pos < 2 ^ 32 :=
    Nat.lt_of_lt_of_le (Nat.mul_lt_mul_of_pos_right hv (Nat.two_pow_pos pos)) hpow
  have hword : (BitVec.ofNat 32 v <<< pos).toNat = v * 2 ^ pos := by
    rw [BitVec.toNat_shiftLeft, BitVec.toNat_ofNat, Nat.mod_eq_of_lt (Nat.lt_trans hv (by decide)),
      Nat.shiftLeft_eq, Nat.mod_eq_of_lt hlt]
  rw [← BitVec.toNat_inj, sel_bits w h, hword, Nat.mul_left_inj (Nat.two_pow_pos pos).ne']

end NumakerMA35D1.Clk

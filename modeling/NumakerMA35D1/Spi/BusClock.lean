import NumakerMA35D1.Lib.Nearest
import NumakerMA35D1.Spi.NuSpi

/-!
# The bus clock set and read back

`busClock_iff`: the rate that a setter returns is the one read back, the divider fits its field, no product
wraps, a rate above the system clock selects the APB clock, and no other selection changes, if and only if the
divider does not have to be limited to the field's greatest value (and, for a QSPI controller, the rate is not
above the system clock).

Reference: `nu_spi.c`, `nu_qspi.c`.
-/

namespace NumakerMA35D1.Spi

open Embedded Clk

/-! ## Specification -/

/-- A call that sets the bus clock of a master. -/
inductive RateCall
  | spiOpen (port : SpiPort) (u32SPIMode u32DataWidth : BitVec 32)
  | spiSetBusClock (port : SpiPort)
  | qspiOpen (port : QspiPort) (u32QSPIMode u32DataWidth : BitVec 32)
  | qspiSetBusClock (port : QspiPort)

namespace RateCall

/-- The call: the rate it returns, and the registers after it. -/
def run (u32BusClock : BitVec 32) (spi : SpiT) (sel : ClkSel) : RateCall → BitVec 32 × SpiT × ClkSel
  | .spiOpen port mode width => Spi.spiOpen port SPI_MASTER mode width u32BusClock spi sel
  | .spiSetBusClock port => Spi.spiSetBusClock port u32BusClock spi sel
  | .qspiOpen port mode width => Spi.qspiOpen port SPI_MASTER mode width u32BusClock spi sel
  | .qspiSetBusClock port => Spi.qspiSetBusClock port u32BusClock spi sel

/-- The rate read back. -/
def readBack (spi : SpiT) (sel : ClkSel) : RateCall → BitVec 32
  | .spiOpen port _ _ => spiGetBusClock port spi sel
  | .spiSetBusClock port => spiGetBusClock port spi sel
  | .qspiOpen port _ _ => qspiGetBusClock port spi sel
  | .qspiSetBusClock port => qspiGetBusClock port spi sel

/-- The place of the controller's field in `CLKSEL4`. -/
def selPos : RateCall → Nat
  | .spiOpen port _ _ => port.selPos
  | .spiSetBusClock port => port.selPos
  | .qspiOpen port _ _ => port.selPos
  | .qspiSetBusClock port => port.selPos

/-- The greatest divider that the setter does not limit, plus one. -/
def limit : RateCall → Nat
  | .spiOpen _ _ _ => 256
  | .spiSetBusClock _ => 512
  | .qspiOpen _ _ _ => 256
  | .qspiSetBusClock _ => 512

/-- The controller is a QSPI controller. -/
def isQspi : RateCall → Bool
  | .spiOpen _ _ _ => false
  | .spiSetBusClock _ => false
  | .qspiOpen _ _ _ => true
  | .qspiSetBusClock _ => true

end RateCall

/-- The frequency of the source that a field of `CLKSEL4` selects: 0 is the APB clock, 1 the audio PLL, and
the others are none. So `nu_clk.h` has it; `clk_reg.h:916` describes the fields otherwise (0 the crystal, 1 a
quarter of the EPLL, 2 the APB clock, 3 HIRC). -/
def selectedFreq (sel : ClkSel) (selPos : Nat) : Nat :=
  if (getField sel.CLKSEL4 selPos 2).toNat = 0 then (clkGetSYSCLK1Freq sel).toNat
  else if (getField sel.CLKSEL4 selPos 2).toNat = 1 then (clkGetPLLClockFreq sel.clk APLL).toNat
  else 0

/-- A result is right: what is returned is read back; no bit outside the divider's field is set; the product
with ten does not wrap where it is computed; a rate above the system clock selects the APB clock; and nothing
else is changed in the clock controller. -/
structure ResultRight (selPos : Nat) (u32BusClock CLKDIV : BitVec 32) (sel : ClkSel)
    (r : BitVec 32 × SpiT × ClkSel) (readBack : BitVec 32) : Prop where
  read : r.1 = readBack
  fits : r.2.1.CLKDIV &&& ~~~(SPI_CLKDIV_DIVIDER_Msk ||| CLKDIV) = 0#32
  nowrap : u32BusClock < clkGetSYSCLK0Freq sel → u32BusClock.toNat < selectedFreq sel selPos →
    u32BusClock ≠ 0#32 → selectedFreq sel selPos * 10 < 2 ^ 32
  apb : clkGetSYSCLK0Freq sel < u32BusClock → getField r.2.2.CLKSEL4 selPos 2 = 0#32
  other : r.2.2.CLKSEL4 &&& ~~~selMsk selPos = sel.CLKSEL4 &&& ~~~selMsk selPos
  CLKSEL0 : r.2.2.CLKSEL0 = sel.CLKSEL0
  clk : r.2.2.clk = sel.clk

/-- The call is right. -/
def RateCall.Right (u32BusClock : BitVec 32) (spi : SpiT) (sel : ClkSel) (call : RateCall) : Prop :=
  ResultRight call.selPos u32BusClock spi.CLKDIV sel (call.run u32BusClock spi sel)
    (call.readBack (call.run u32BusClock spi sel).2.1 (call.run u32BusClock spi sel).2.2)

/-- The rates below the system clock that are right, by the frequency of the source: those that are not below
it, those with a divider that is not limited; and 0, where the source has less than 256 Hz. -/
def DivideHolds (limit src bus : Nat) : Prop :=
  src ≤ bus ∨ bus = 0 ∧ src < 256 ∨ src * 10 < 2 ^ 32 ∧ 2 * src < (2 * limit + 1) * bus

/-- When the call is right. -/
def RateCall.Holds (u32BusClock : BitVec 32) (sel : ClkSel) (call : RateCall) : Prop :=
  if u32BusClock < clkGetSYSCLK0Freq sel then
    DivideHolds call.limit (selectedFreq sel call.selPos) u32BusClock.toNat
  else call.isQspi = true → u32BusClock = clkGetSYSCLK0Freq sel

/-! ## The source -/

theorem spiClkSrc_toNat (sel : ClkSel) (port : SpiPort) :
    (spiClkSrc sel port).toNat = selectedFreq sel port.selPos := by
  have hpos : port.selPos + 2 ≤ 32 := by cases port <;> decide
  have hpclk : spiPclkFreq sel port = clkGetSYSCLK1Freq sel := by cases port <;> rfl
  have hone : sel.CLKSEL4 &&& selMsk port.selPos = 1#32 <<< port.selPos ↔ _ :=
    sel_eq_iff sel.CLKSEL4 hpos (show 1 < 4 by decide)
  have hzero : sel.CLKSEL4 &&& selMsk port.selPos = 0#32 <<< port.selPos ↔ _ :=
    sel_eq_iff sel.CLKSEL4 hpos (show 0 < 4 by decide)
  rw [spiClkSrc, selectedFreq]
  by_cases h0 : (getField sel.CLKSEL4 port.selPos 2).toNat = 0
  · have hnot : ¬ (getField sel.CLKSEL4 port.selPos 2).toNat = 1 := by omega
    rw [if_neg (hone.not.2 hnot), if_pos (hzero.2 h0), if_pos h0, hpclk]
  · rw [if_neg h0]
    by_cases h1 : (getField sel.CLKSEL4 port.selPos 2).toNat = 1
    · rw [if_pos (hone.2 h1), if_pos h1]
    · rw [if_neg (hone.not.2 h1), if_neg (hzero.not.2 h0), if_neg h1]
      rfl

theorem qspiGetSrcClkSetting_toNat (sel : ClkSel) (port : QspiPort) :
    (qspiGetSrcClkSetting sel port).toNat = selectedFreq sel port.selPos := by
  have hpos : port.selPos + 2 ≤ 32 := by cases port <;> decide
  have hfield : ((sel.CLKSEL4 &&& selMsk port.selPos) >>> port.selPos).toNat =
      (getField sel.CLKSEL4 port.selPos 2).toNat := by
    rw [BitVec.toNat_ushiftRight, selMsk, sel_bits sel.CLKSEL4 hpos, Nat.shiftRight_eq_div_pow,
      Nat.mul_div_cancel _ (Nat.two_pow_pos _)]
  have hzero : (0x0#32 : BitVec 32).toNat = 0 := rfl
  have hone : (0x1#32 : BitVec 32).toNat = 1 := rfl
  rw [qspiGetSrcClkSetting, selectedFreq]
  simp only [← BitVec.toNat_inj, hfield, hzero, hone]
  split
  · rfl
  · split
    · rfl
    · rfl

/-! ## The divider -/

section
variable {limit src bus CLKDIV : BitVec 32}

/-- The register with the divider's field full. -/
theorem full_divider (CLKDIV : BitVec 32) :
    ((CLKDIV ||| SPI_CLKDIV_DIVIDER_Msk) &&& SPI_CLKDIV_DIVIDER_Msk) >>> 0 + 1#32 = 512#32 := by
  have hfull : (CLKDIV ||| SPI_CLKDIV_DIVIDER_Msk) &&& SPI_CLKDIV_DIVIDER_Msk = SPI_CLKDIV_DIVIDER_Msk := by
    apply BitVec.eq_of_getLsbD_eq
    intro i hi
    rw [BitVec.getLsbD_and, BitVec.getLsbD_or]
    cases CLKDIV.getLsbD i <;> cases SPI_CLKDIV_DIVIDER_Msk.getLsbD i <;> rfl
  rw [hfull]
  rfl

/-- The rate that is returned for a divider that is limited is read back of a slow source only. -/
theorem limited_iff (src : BitVec 32) : src / (0xFF#32 + 1#32) = src / 512#32 ↔ src.toNat < 256 := by
  have hret : (src / (0xFF#32 + 1#32)).toNat = src.toNat / 256 := BitVec.toNat_udiv
  have hread : (src / 512#32).toNat = src.toNat / 512 := BitVec.toNat_udiv
  rw [← BitVec.toNat_inj, hret, hread]
  omega

/-- The bits that a write of the divider sets are those of its field. -/
theorem fits_of_le {w : BitVec 32} (h : w &&& ~~~SPI_CLKDIV_DIVIDER_Msk = 0#32) (CLKDIV x : BitVec 32) :
    (CLKDIV &&& x ||| w) &&& ~~~(SPI_CLKDIV_DIVIDER_Msk ||| CLKDIV) = 0#32 := by
  apply BitVec.eq_of_getLsbD_eq
  intro i hi
  have hbit : (w &&& ~~~SPI_CLKDIV_DIVIDER_Msk).getLsbD i = false := h ▸ BitVec.getLsbD_zero
  rw [BitVec.getLsbD_and, BitVec.getLsbD_not, decide_eq_true hi, Bool.true_and] at hbit
  rw [BitVec.getLsbD_and, BitVec.getLsbD_or, BitVec.getLsbD_and, BitVec.getLsbD_not, BitVec.getLsbD_or,
    decide_eq_true hi, Bool.true_and, BitVec.getLsbD_zero]
  revert hbit
  cases w.getLsbD i <;> cases SPI_CLKDIV_DIVIDER_Msk.getLsbD i <;> cases CLKDIV.getLsbD i <;>
    cases x.getLsbD i <;> decide

/-- A divider that fits its field is read back, and sets no other bit. -/
theorem put_divider {u32Div : BitVec 32} (h : u32Div.toNat < 512) (CLKDIV : BitVec 32) :
    (((CLKDIV &&& ~~~SPI_CLKDIV_DIVIDER_Msk) ||| u32Div <<< 0) &&& SPI_CLKDIV_DIVIDER_Msk) >>> 0 = u32Div ∧
      ((CLKDIV &&& ~~~SPI_CLKDIV_DIVIDER_Msk) ||| u32Div <<< 0) &&& ~~~(SPI_CLKDIV_DIVIDER_Msk ||| CLKDIV) =
        0#32 := by
  have hmask : SPI_CLKDIV_DIVIDER_Msk = fieldMask 9 := rfl
  have hkeep : u32Div &&& SPI_CLKDIV_DIVIDER_Msk = u32Div := by
    rw [hmask]
    exact and_fieldMask h
  have hin : u32Div &&& ~~~SPI_CLKDIV_DIVIDER_Msk = 0#32 := by
    rw [← hkeep, BitVec.and_assoc, BitVec.and_not_self]
    exact BitVec.and_zero
  have hread : getField ((CLKDIV &&& ~~~SPI_CLKDIV_DIVIDER_Msk) ||| u32Div) 0 9 = getField u32Div 0 9 :=
    getField_replace _ _ (by decide)
  rw [getField, getField, BitVec.ushiftRight_zero, BitVec.ushiftRight_zero, ← hmask, hkeep] at hread
  rw [BitVec.ushiftRight_zero, BitVec.shiftLeft_zero]
  exact ⟨hread, fits_of_le hin CLKDIV _⟩

/-- The divider, for a rate below the source. -/
theorem u32Div_toNat (hwrap : src.toNat * 10 < 2 ^ 32) (hpos : 0 < bus.toNat) (hlt : bus.toNat < src.toNat) :
    (((src * 10#32) / bus + 5#32) / 10#32 - 1#32).toNat + 1 = (2 * src.toNat + bus.toNat) / (2 * bus.toNat) := by
  have hten : (10#32 : BitVec 32).toNat = 10 := rfl
  have hfive : (5#32 : BitVec 32).toNat = 5 := rfl
  have hone : (1#32 : BitVec 32).toNat = 1 := rfl
  have hsrc : (src * 10#32).toNat = src.toNat * 10 := by
    rw [BitVec.toNat_mul, hten]
    exact Nat.mod_eq_of_lt hwrap
  have hle : src.toNat * 10 / bus.toNat ≤ src.toNat * 10 := Nat.div_le_self _ _
  have hquot : (((src * 10#32) / bus + 5#32) / 10#32).toNat = (2 * src.toNat + bus.toNat) / (2 * bus.toNat) := by
    rw [BitVec.toNat_udiv, BitVec.toNat_add, BitVec.toNat_udiv, hsrc, hten, hfive, Nat.mod_eq_of_lt (by omega),
      div_ten_round _ hpos]
  have hquot1 : 1 ≤ (2 * src.toNat + bus.toNat) / (2 * bus.toNat) :=
    Nat.div_pos (by omega) (Nat.mul_pos Nat.zero_lt_two hpos)
  rw [BitVec.toNat_sub_of_le, hquot, hone, Nat.sub_add_cancel hquot1]
  rw [BitVec.le_def, hquot, hone]
  exact hquot1

/-- The divider is right exactly where it is not limited. -/
theorem divide_iff (hlimit : limit = 0xFF#32 ∨ limit = 0x1FF#32) (CLKDIV : BitVec 32) :
    ((divide limit src bus CLKDIV).1 =
        src / (((divide limit src bus CLKDIV).2 &&& SPI_CLKDIV_DIVIDER_Msk) >>> 0 + 1#32) ∧
      (divide limit src bus CLKDIV).2 &&& ~~~(SPI_CLKDIV_DIVIDER_Msk ||| CLKDIV) = 0#32 ∧
      (bus.toNat < src.toNat → bus ≠ 0#32 → src.toNat * 10 < 2 ^ 32)) ↔
    DivideHolds (limit.toNat + 1) src.toNat bus.toNat := by
  have hrange : 255 ≤ limit.toNat ∧ limit.toNat < 512 := by
    rcases hlimit with rfl | rfl
    · decide
    · decide
  have hfull : (CLKDIV ||| SPI_CLKDIV_DIVIDER_Msk) &&& ~~~(SPI_CLKDIV_DIVIDER_Msk ||| CLKDIV) = 0#32 := by
    rw [BitVec.or_comm]
    exact BitVec.and_not_self _
  rw [divide, DivideHolds]
  by_cases hle : src ≤ bus
  · rw [if_pos hle]
    refine iff_of_true ⟨?_, BitVec.zero_and, fun hlt => absurd (BitVec.le_def.1 hle) (Nat.not_le.2 hlt)⟩
      (.inl (BitVec.le_def.1 hle))
    rw [BitVec.zero_and]
    exact (BitVec.udiv_one).symm
  · have hlt : bus.toNat < src.toNat := Nat.not_le.1 fun h => hle (BitVec.le_def.2 h)
    rw [if_neg hle, or_iff_right (Nat.not_le.2 hlt)]
    by_cases hzero : bus = 0#32
    · have hnat : bus.toNat = 0 := congrArg BitVec.toNat hzero
      rw [if_pos hzero]
      dsimp only
      rw [full_divider, limited_iff, hnat]
      refine ⟨fun h => .inl ⟨rfl, h.1⟩, fun h => ⟨?_, hfull, fun _ hne => absurd hzero hne⟩⟩
      rcases h with ⟨-, hsmall⟩ | ⟨-, hnone⟩
      · exact hsmall
      · rw [Nat.mul_zero] at hnone
        exact absurd hnone (Nat.not_lt_zero _)
    · have hpos : 0 < bus.toNat := Nat.pos_of_ne_zero fun h => hzero (BitVec.eq_of_toNat_eq h)
      rw [if_neg hzero, or_iff_right fun h => Nat.ne_of_gt hpos h.1]
      by_cases hwrap : src.toNat * 10 < 2 ^ 32
      · have hdiv := u32Div_toNat hwrap hpos hlt
        have hquot : (2 * limit.toNat + 3) * bus.toNat ≤ 2 * src.toNat ↔
            limit.toNat + 2 ≤ (2 * src.toNat + bus.toNat) / (2 * bus.toNat) := by
          rw [Nat.le_div_iff_mul_le (Nat.mul_pos Nat.zero_lt_two hpos)]
          have hsum : (limit.toNat + 2) * (2 * bus.toNat) = (2 * limit.toNat + 3) * bus.toNat + bus.toNat := by
            ring
          omega
        rw [← hdiv] at hquot
        have hlast : 2 * src.toNat < (2 * (limit.toNat + 1) + 1) * bus.toNat ↔
            ¬ (2 * limit.toNat + 3) * bus.toNat ≤ 2 * src.toNat := by
          rw [Nat.not_le, show 2 * (limit.toNat + 1) + 1 = 2 * limit.toNat + 3 by ring]
        rw [and_iff_right hwrap, hlast, hquot]
        dsimp only
        generalize ((src * 10#32) / bus + 5#32) / 10#32 - 1#32 = u32Div at hquot
        by_cases hmore : limit < u32Div
        · have hmore' : limit.toNat + 2 ≤ u32Div.toNat + 1 := Nat.succ_le_succ (BitVec.lt_def.1 hmore)
          have hbig : 513 * bus.toNat ≤ (2 * limit.toNat + 3) * bus.toNat := Nat.mul_le_mul_right _ (by omega)
          have hsrc := hquot.2 hmore'
          rw [if_pos hmore]
          dsimp only
          rw [full_divider, limited_iff]
          exact iff_of_false (fun h => by omega) fun h => h hmore'
        · have hless : u32Div.toNat ≤ limit.toNat := Nat.not_lt.1 fun h => hmore (BitVec.lt_def.2 h)
          obtain ⟨hfield, hfits⟩ := put_divider (Nat.lt_of_le_of_lt hless hrange.2) CLKDIV
          rw [if_neg hmore]
          dsimp only
          rw [hfield]
          exact iff_of_true ⟨rfl, hfits, fun _ _ => hwrap⟩ (by omega)
      · exact iff_of_false (fun h => hwrap (h.2.2 hlt hzero)) fun h => hwrap h.1

end

/-! ## The setters -/

/-- What a setter's selection of the APB clock does to its field, and that it does nothing else. -/
structure Selects (pos : Nat) (qspi : Bool) (select : ClkSel → ClkSel) : Prop where
  field : ∀ sel, getField (select sel).CLKSEL4 pos 2 = 0#32 ↔ qspi = false
  other : ∀ sel, (select sel).CLKSEL4 &&& ~~~selMsk pos = sel.CLKSEL4 &&& ~~~selMsk pos
  CLKSEL0 : ∀ sel, (select sel).CLKSEL0 = sel.CLKSEL0
  clk : ∀ sel, (select sel).clk = sel.clk

/-- A read-modify-write of a field leaves the rest. -/
theorem and_not_selMsk (w : BitVec 32) {x : BitVec 32} {pos : Nat} (h : x &&& ~~~selMsk pos = 0#32) :
    ((w &&& ~~~selMsk pos) ||| x) &&& ~~~selMsk pos = w &&& ~~~selMsk pos := by
  apply BitVec.eq_of_getLsbD_eq
  intro i hi
  have hbit : (x &&& ~~~selMsk pos).getLsbD i = false := h ▸ BitVec.getLsbD_zero
  rw [BitVec.getLsbD_and] at hbit
  rw [BitVec.getLsbD_and, BitVec.getLsbD_or, BitVec.getLsbD_and]
  revert hbit
  cases w.getLsbD i <;> cases x.getLsbD i <;> cases (~~~selMsk pos).getLsbD i <;> decide

theorem spiSelectPCLK_selects (port : SpiPort) : Selects port.selPos false (spiSelectPCLK port) where
  field sel := by
    refine iff_of_true ?_ rfl
    have hmask : getField (selMsk port.selPos) port.selPos 2 = fieldMask 2 := by cases port <;> decide
    refine (getField_replace sel.CLKSEL4 _ hmask).trans ?_
    cases port <;> decide
  other sel := and_not_selMsk _ (by cases port <;> decide)
  CLKSEL0 _ := rfl
  clk _ := rfl

theorem qspiSetSrcClkToPCLK_selects (port : QspiPort) : Selects port.selPos true (qspiSetSrcClkToPCLK port) where
  field sel := by
    refine iff_of_false ?_ (by decide)
    have hmask : getField (selMsk port.selPos) port.selPos 2 = fieldMask 2 := by cases port <;> decide
    have hread : getField (qspiSetSrcClkToPCLK port sel).CLKSEL4 port.selPos 2 =
        getField (0x2#32 <<< port.selPos) port.selPos 2 := getField_replace sel.CLKSEL4 _ hmask
    rw [hread]
    cases port <;> decide
  other sel := and_not_selMsk _ (by cases port <;> decide)
  CLKSEL0 _ := rfl
  clk _ := rfl

section
variable {limit u32BusClock : BitVec 32} {select : ClkSel → ClkSel} {source : ClkSel → BitVec 32} {pos : Nat}
  {qspi : Bool}

/-- What the four setters share is right exactly where the divider is, below the system clock, and where the
APB clock is selected, from there on. -/
theorem setRate_iff (hlimit : limit = 0xFF#32 ∨ limit = 0x1FF#32)
    (hsource : ∀ sel, (source sel).toNat = selectedFreq sel pos) (hselect : Selects pos qspi select) (spi : SpiT)
    (sel : ClkSel) :
    ResultRight pos u32BusClock spi.CLKDIV sel (setRate limit select source u32BusClock spi sel)
        (source (setRate limit select source u32BusClock spi sel).2.2 /
          (((setRate limit select source u32BusClock spi sel).2.1.CLKDIV &&& SPI_CLKDIV_DIVIDER_Msk) >>> 0 + 1#32)) ↔
      if u32BusClock < clkGetSYSCLK0Freq sel then
        DivideHolds (limit.toNat + 1) (selectedFreq sel pos) u32BusClock.toNat
      else qspi = true → u32BusClock = clkGetSYSCLK0Freq sel := by
  rw [setRate]
  by_cases hle : clkGetSYSCLK0Freq sel ≤ u32BusClock
  · have hnot : ¬ u32BusClock < clkGetSYSCLK0Freq sel := BitVec.not_lt.2 hle
    have hread : source (select sel) / ((0#32 &&& SPI_CLKDIV_DIVIDER_Msk) >>> 0 + 1#32) = source (select sel) := by
      rw [BitVec.zero_and]
      exact BitVec.udiv_one
    rw [if_pos hle, if_neg hnot]
    constructor
    · intro h hqspi
      by_contra hne
      have hlt : clkGetSYSCLK0Freq sel < u32BusClock := BitVec.not_le.1 fun hge => hne (BitVec.le_antisymm hge hle)
      exact absurd (hqspi.symm.trans ((hselect.field sel).1 (h.apb hlt))) (by decide)
    · intro hqspi
      refine ⟨hread.symm, BitVec.zero_and, fun h => absurd h hnot, fun hlt => (hselect.field sel).2 ?_,
        hselect.other sel, hselect.CLKSEL0 sel, hselect.clk sel⟩
      rw [← Bool.not_eq_true]
      intro htrue
      rw [hqspi htrue] at hlt
      exact absurd hlt (BitVec.lt_irrefl _)
  · have hlt : u32BusClock < clkGetSYSCLK0Freq sel := BitVec.not_le.1 hle
    rw [if_neg hle, if_pos hlt, ← hsource, ← divide_iff hlimit spi.CLKDIV]
    constructor
    · intro h
      exact ⟨h.read, h.fits, hsource sel ▸ h.nowrap hlt⟩
    · rintro ⟨hread, hfits, hwrap⟩
      exact ⟨hread, hfits, fun _ => hsource sel ▸ hwrap, fun h => absurd (BitVec.le_of_lt h) hle, rfl, rfl, rfl⟩

end

/-- A call is right exactly when the rate is one that the driver serves. -/
theorem busClock_iff (u32BusClock : BitVec 32) (spi : SpiT) (sel : ClkSel) (call : RateCall) :
    call.Right u32BusClock spi sel ↔ call.Holds u32BusClock sel := by
  cases call with
  | spiOpen port mode width =>
    obtain ⟨spi', hdiv, hrun⟩ : ∃ spi' : SpiT, spi'.CLKDIV = spi.CLKDIV ∧
        RateCall.run u32BusClock spi sel (.spiOpen port mode width) =
          setRate 0xFF#32 (spiSelectPCLK port) (spiClkSrc · port) u32BusClock spi' sel := by
      rw [RateCall.run, spiOpen, if_pos rfl]
      exact ⟨⟨openCTL SPI_MASTER mode width, spi.CLKDIV, 0#32, spi.I2SCTL &&& ~~~1#32⟩, rfl, rfl⟩
    rw [RateCall.Right, hrun, ← hdiv]
    exact setRate_iff (.inl rfl) (spiClkSrc_toNat · port) (spiSelectPCLK_selects port) spi' sel
  | spiSetBusClock port =>
    exact setRate_iff (.inr rfl) (spiClkSrc_toNat · port) (spiSelectPCLK_selects port) spi sel
  | qspiOpen port mode width =>
    obtain ⟨spi', hdiv, hrun⟩ : ∃ spi' : SpiT, spi'.CLKDIV = spi.CLKDIV ∧
        RateCall.run u32BusClock spi sel (.qspiOpen port mode width) =
          setRate 0xFF#32 (qspiSetSrcClkToPCLK port) (qspiGetSrcClkSetting · port) u32BusClock spi' sel := by
      rw [RateCall.run, qspiOpen, if_pos rfl]
      exact ⟨⟨openCTL SPI_MASTER mode width, spi.CLKDIV, 0#32, spi.I2SCTL⟩, rfl, rfl⟩
    rw [RateCall.Right, hrun, ← hdiv]
    exact setRate_iff (.inl rfl) (qspiGetSrcClkSetting_toNat · port) (qspiSetSrcClkToPCLK_selects port) spi' sel
  | qspiSetBusClock port =>
    exact setRate_iff (.inr rfl) (qspiGetSrcClkSetting_toNat · port) (qspiSetSrcClkToPCLK_selects port) spi sel

/-- QSPI0 is asked for 200 MHz, above the system clock of 180 MHz: no clock is selected. -/
theorem not_busClockRight : ¬ RateCall.Right 200000000#32 ⟨0#32, 0#32, 0#32, 0#32⟩
    ⟨⟨fun _ => ⟨0#32, 1#32, 0#32⟩⟩, 1#32 <<< 2 ||| 1#32 <<< 4, 0#32⟩ (.qspiSetBusClock .QSPI0) := by
  intro hright
  exact absurd (hright.apb (by decide)) (by decide)

end NumakerMA35D1.Spi

import NumakerMA35D1.Clk.Select
import NumakerMA35D1.I2s.DrvI2s
import NumakerMA35D1.Lib.Nearest

/-!
# The clocks of the I2S controllers

`i2sClock_iff`: the rate returned by `I2S_Open` and the clock returned by `I2S_EnableMCLK` are those of the
divider in the register and the source selected, the divider is the nearest to the request and nothing wraps,
if and only if the source is the one the getter takes, the products stay below 2^32, and the ratio of source
and request is one that the field and the cast can hold (and, for the master clock, one that rounding down
serves).

Reference: `nu_i2s.c`.
-/

namespace NumakerMA35D1.I2s

open Embedded Clk

/-! ## The source -/

/-- The two controllers. -/
inductive I2sPort
  | I2S0
  | I2S1

/-- Reference: `clk_reg.h:2327 CLK_CLKSEL4_I2S0SEL_Msk`, `:2330 CLK_CLKSEL4_I2S1SEL_Msk`. -/
def CLK_CLKSEL4_I2S0SEL_Msk : BitVec 32 := 3#32 <<< 12
@[inherit_doc CLK_CLKSEL4_I2S0SEL_Msk] def CLK_CLKSEL4_I2S1SEL_Msk : BitVec 32 := 3#32 <<< 14

/-- Reference: `nu_clk.h:250 CLK_CLKSEL4_I2S0SEL_APLL`. -/
def CLK_CLKSEL4_I2S0SEL_APLL : BitVec 32 := 0#32 <<< 12
@[inherit_doc CLK_CLKSEL4_I2S0SEL_APLL] def CLK_CLKSEL4_I2S0SEL_SYSCLK1_DIV2 : BitVec 32 := 1#32 <<< 12

/-- Reference: `nu_i2s.c:35 I2S_GetSourceClockFreq`. -/
def i2sGetSourceClockFreq (sel : ClkSel) (i2s : I2sPort) : BitVec 32 :=
  let u32ClkSelMsk :=
    match i2s with
    | .I2S0 => CLK_CLKSEL4_I2S0SEL_Msk
    | .I2S1 => CLK_CLKSEL4_I2S1SEL_Msk
  let u32ClkSrcSel := sel.CLKSEL4 &&& u32ClkSelMsk
  if u32ClkSrcSel = CLK_CLKSEL4_I2S0SEL_APLL then clkGetPLLClockFreq sel.clk APLL
  else if u32ClkSrcSel = CLK_CLKSEL4_I2S0SEL_SYSCLK1_DIV2 then clkGetSYSCLK1Freq sel / 2#32
  else clkGetPLLClockFreq sel.clk APLL

/-- The clock that a call of `I2S_EnableMCLK` returns from the register it has written.
Reference: `nu_i2s.c:195`. -/
def mclkOf (u32SrcClk : BitVec 32) (i2s : I2sT) : BitVec 32 :=
  let u32Reg := i2s.CLKDIV &&& I2S_CLKDIV_MCLKDIV_Msk
  if u32Reg = 0#32 then u32SrcClk else (u32SrcClk >>> 1) / u32Reg

/-! ## Specification -/

/-- The field of `CLKSEL4` that selects a controller's source. -/
def I2sPort.sel (sel : ClkSel) : I2sPort → Nat
  | .I2S0 => (getField sel.CLKSEL4 12 2).toNat
  | .I2S1 => (getField sel.CLKSEL4 14 2).toNat

/-- The frequency of the source that is selected: a controller's field is 1 for half the system clock, and
anything else is the audio PLL. So `nu_clk.h:250` has it; `clk_reg.h:946` describes the field otherwise (0 the
crystal, 1 the audio PLL, 2 PCLK0, 3 HIRC). -/
def selectedFreq (sel : ClkSel) (i2s : I2sPort) : Nat :=
  if i2s.sel sel = 1 then (clkGetSYSCLK1Freq sel).toNat / 2 else (clkGetPLLClockFreq sel.clk APLL).toNat

/-- The bits of a frame. -/
def frameBits (u32WordWidth : BitVec 32) : Nat := (((u32WordWidth >>> 4) &&& 3#32).toNat + 1) * 16

/-- The ratio of the source and the bit clock with a divider. -/
def bclkRatio (d : Nat) : Nat := 2 * (d + 1)

/-- The ratio of the source and the master clock with a divider. -/
def mclkRatio (d : Nat) : Nat := if d = 0 then 1 else 2 * d

/-- Of the settings below `n`, `d` brings the ratio of the source and a clock nearest to the requested one. -/
def NearestDivider (ratio : Nat → Nat) (n src request d : Nat) : Prop :=
  IsNearest (fun d => (ratio d * request : Nat)) n src d

/-- A call that sets a clock. -/
inductive ClockCall
  | openI2s (u32MasterSlave u32SampleRate u32WordWidth u32MonoData u32DataFormat : BitVec 32)
  | enableMCLK (i2s : I2sT) (u32BusClock : BitVec 32)

/-- The rate or clock that a call asks for. -/
def ClockCall.request : ClockCall → BitVec 32
  | .openI2s _ u32SampleRate _ _ _ => u32SampleRate
  | .enableMCLK _ u32BusClock => u32BusClock

/-- The call is right: the getter's source is the one selected; the result is that of the divider in the
register; the divider is the nearest; no product wraps, no cast truncates and nothing underflows. -/
def ClockCall.Right (sel : ClkSel) (i2s : I2sPort) : ClockCall → Prop
  | .openI2s u32MasterSlave u32SampleRate u32WordWidth u32MonoData u32DataFormat =>
    let src := i2sGetSourceClockFreq sel i2s
    let r := i2sOpen src u32MasterSlave u32SampleRate u32WordWidth u32MonoData u32DataFormat
    let d := (getField r.2.CLKDIV 8 10).toNat
    let bitRate := u32SampleRate.toNat * frameBits u32WordWidth
    let rounded := (src.toNat * 10 / bitRate / 2 + 5) / 10
    src.toNat = selectedFreq sel i2s ∧
      r.1.toNat = selectedFreq sel i2s / bclkRatio d / frameBits u32WordWidth ∧
      NearestDivider bclkRatio 1024 (selectedFreq sel i2s) bitRate d ∧
      bitRate < 2 ^ 32 ∧ src.toNat * 10 < 2 ^ 32 ∧ 1 ≤ rounded ∧ rounded < 2 ^ 16
  | .enableMCLK regs u32BusClock =>
    let src := i2sGetSourceClockFreq sel i2s
    let regs' := i2sEnableMCLK src regs u32BusClock
    let d := (getField regs'.CLKDIV 0 7).toNat
    src.toNat = selectedFreq sel i2s ∧ (mclkOf src regs').toNat = selectedFreq sel i2s / mclkRatio d ∧
      NearestDivider mclkRatio 128 (selectedFreq sel i2s) u32BusClock.toNat d ∧
      (u32BusClock = src ∨ src.toNat / u32BusClock.toNat < 2 ^ 8)

/-- The getter takes the source that is selected: for the second controller it never sees half the system
clock. -/
def SourceHolds (sel : ClkSel) (i2s : I2sPort) : Prop :=
  match i2s with
  | .I2S0 => True
  | .I2S1 => I2sPort.I2S1.sel sel = 1 →
      (clkGetSYSCLK1Freq sel).toNat / 2 = (clkGetPLLClockFreq sel.clk APLL).toNat

/-- The ratios of source and bit clock that the driver serves. -/
def BclkHolds (src bitRate : Nat) : Prop := src * 10 < 2 ^ 32 ∧ bitRate ≤ src ∧ src < 2049 * bitRate

/-- The ratios of source and master clock that the driver serves: they are below 256, and those that it rounds
down lie in the lower half between two settings, or behind the last one. -/
def MclkHolds (src bus : Nat) : Prop :=
  src < 256 * bus ∧ (2 * src ≤ 3 * bus ∨ 254 * bus ≤ src ∨ 2 * bus ≤ src ∧ src % (2 * bus) ≤ bus)

/-- When the call is right. -/
def ClockCall.Holds (sel : ClkSel) (i2s : I2sPort) : ClockCall → Prop
  | .openI2s _ u32SampleRate u32WordWidth _ _ => SourceHolds sel i2s ∧
      BclkHolds (selectedFreq sel i2s) (u32SampleRate.toNat * frameBits u32WordWidth)
  | .enableMCLK _ u32BusClock => SourceHolds sel i2s ∧ MclkHolds (selectedFreq sel i2s) u32BusClock.toNat

/-! ## The source of a controller -/

section
variable (sel : ClkSel)

theorem source_I2S0 : (i2sGetSourceClockFreq sel .I2S0).toNat = selectedFreq sel .I2S0 := by
  have hbits := sel_bits sel.CLKSEL4 (show 12 + 2 ≤ 32 by decide)
  have hfirst : CLK_CLKSEL4_I2S0SEL_APLL.toNat = 0 := rfl
  have hsecond : CLK_CLKSEL4_I2S0SEL_SYSCLK1_DIV2.toNat = 2 ^ 12 := rfl
  rw [i2sGetSourceClockFreq, selectedFreq, I2sPort.sel]
  rw [CLK_CLKSEL4_I2S0SEL_Msk]
  by_cases hone : (getField sel.CLKSEL4 12 2).toNat = 1
  · have hne : ¬ sel.CLKSEL4 &&& 3#32 <<< 12 = CLK_CLKSEL4_I2S0SEL_APLL := by
      rw [← BitVec.toNat_inj, hbits, hfirst, hone]
      decide
    have heq : sel.CLKSEL4 &&& 3#32 <<< 12 = CLK_CLKSEL4_I2S0SEL_SYSCLK1_DIV2 := by
      rw [← BitVec.toNat_inj, hbits, hsecond, hone]
      decide
    rw [if_neg hne, if_pos heq, if_pos hone]
    exact BitVec.toNat_udiv
  · have hne : ¬ sel.CLKSEL4 &&& 3#32 <<< 12 = CLK_CLKSEL4_I2S0SEL_SYSCLK1_DIV2 := by
      rw [← BitVec.toNat_inj, hbits, hsecond]
      omega
    rw [if_neg hne, if_neg hone, ite_self]

theorem source_I2S1 : i2sGetSourceClockFreq sel .I2S1 = clkGetPLLClockFreq sel.clk APLL := by
  have hbits := sel_bits sel.CLKSEL4 (show 14 + 2 ≤ 32 by decide)
  have hsecond : CLK_CLKSEL4_I2S0SEL_SYSCLK1_DIV2.toNat = 2 ^ 12 := rfl
  have hne : ¬ sel.CLKSEL4 &&& 3#32 <<< 14 = CLK_CLKSEL4_I2S0SEL_SYSCLK1_DIV2 := by
    rw [← BitVec.toNat_inj, hbits, hsecond]
    omega
  rw [i2sGetSourceClockFreq, CLK_CLKSEL4_I2S1SEL_Msk, if_neg hne, ite_self]

theorem source_iff (i2s : I2sPort) :
    (i2sGetSourceClockFreq sel i2s).toNat = selectedFreq sel i2s ↔ SourceHolds sel i2s := by
  cases i2s with
  | I2S0 => exact iff_of_true (source_I2S0 sel) trivial
  | I2S1 =>
    rw [source_I2S1, selectedFreq, SourceHolds]
    split
    · next hone => exact ⟨fun heq _ => heq.symm, fun heq => (heq hone).symm⟩
    · next hone => exact iff_of_true rfl fun heq => absurd heq hone

end

/-! ## The bit clock -/

/-- The driver's division rounds the ratio of source and bit clock, halved, to the nearest number. -/
theorem rounded_eq (src : Nat) {bitRate : Nat} (h : 0 < bitRate) :
    (src * 10 / bitRate / 2 + 5) / 10 = (src + bitRate) / (2 * bitRate) := by
  have hpos : 0 < bitRate * 2 := Nat.mul_pos h Nat.zero_lt_two
  calc (src * 10 / bitRate / 2 + 5) / 10
      = (src * 10 / (bitRate * 2) + 5) / 10 := by rw [Nat.div_div_eq_div_mul]
    _ = (2 * src + bitRate * 2) / (2 * (bitRate * 2)) := div_ten_round src hpos
    _ = 2 * (src + bitRate) / (2 * (2 * bitRate)) := by ring_nf
    _ = (src + bitRate) / (2 * bitRate) := Nat.mul_div_mul_left _ _ Nat.zero_lt_two

theorem frameBits_pos (u32WordWidth : BitVec 32) : 0 < frameBits u32WordWidth :=
  Nat.mul_pos (Nat.succ_pos _) (by decide)

section
variable {src u32MasterSlave u32SampleRate u32WordWidth u32MonoData u32DataFormat : BitVec 32}

theorem width_toNat (u32WordWidth : BitVec 32) :
    (((u32WordWidth >>> 4) &&& 3#32) + 1#32).toNat = ((u32WordWidth >>> 4) &&& 3#32).toNat + 1 := by
  have hle : ((u32WordWidth >>> 4) &&& 3#32).toNat ≤ 3 := by
    rw [BitVec.toNat_and]
    exact Nat.and_le_right
  have hone : (1#32 : BitVec 32).toNat = 1 := rfl
  rw [BitVec.toNat_add, hone]
  exact Nat.mod_eq_of_lt (by omega)

theorem frameBits_toNat (u32WordWidth : BitVec 32) :
    ((((u32WordWidth >>> 4) &&& 3#32) + 1#32) * 16#32).toNat = frameBits u32WordWidth := by
  have hle : ((u32WordWidth >>> 4) &&& 3#32).toNat ≤ 3 := by
    rw [BitVec.toNat_and]
    exact Nat.and_le_right
  have hsixteen : (16#32 : BitVec 32).toNat = 16 := rfl
  rw [BitVec.toNat_mul, width_toNat, frameBits, hsixteen]
  exact Nat.mod_eq_of_lt (by omega)

/-- The driver's divider, before it is cast. -/
theorem rounded_toNat {bitRate : BitVec 32} (hsrc : src.toNat * 10 < 2 ^ 32) :
    ((((src * 10#32 / bitRate) >>> 1) + 5#32) / 10#32).toNat =
      (src.toNat * 10 / bitRate.toNat / 2 + 5) / 10 := by
  have hten : (10#32 : BitVec 32).toNat = 10 := rfl
  have hfive : (5#32 : BitVec 32).toNat = 5 := rfl
  have hsrc10 : (src * 10#32).toNat = src.toNat * 10 := by
    rw [BitVec.toNat_mul, hten]
    exact Nat.mod_eq_of_lt hsrc
  have hle : src.toNat * 10 / bitRate.toNat ≤ src.toNat * 10 := Nat.div_le_self _ _
  rw [BitVec.toNat_udiv, BitVec.toNat_add, BitVec.toNat_ushiftRight, BitVec.toNat_udiv, hsrc10, hten, hfive,
    Nat.shiftRight_eq_div_pow, Nat.pow_one, Nat.mod_eq_of_lt (by omega)]

/-- What `I2S_Open` leaves in the divider's field and returns, where nothing wraps. -/
theorem i2sOpen_eq {rounded : Nat} (hrate : u32SampleRate.toNat * frameBits u32WordWidth < 2 ^ 32)
    (hsrc : src.toNat * 10 < 2 ^ 32)
    (hrounded : (src.toNat * 10 / (u32SampleRate.toNat * frameBits u32WordWidth) / 2 + 5) / 10 = rounded)
    (hone : 1 ≤ rounded) (hfits : rounded < 2 ^ 16) :
    (getField (i2sOpen src u32MasterSlave u32SampleRate u32WordWidth u32MonoData u32DataFormat).2.CLKDIV 8
        10).toNat = (rounded - 1) % 1024 ∧
      (i2sOpen src u32MasterSlave u32SampleRate u32WordWidth u32MonoData u32DataFormat).1.toNat =
        src.toNat / (2 * rounded) / frameBits u32WordWidth := by
  have hbit : (u32SampleRate * (((u32WordWidth >>> 4) &&& 3#32) + 1#32) * 16#32).toNat =
      u32SampleRate.toNat * frameBits u32WordWidth := by
    rw [BitVec.mul_assoc, BitVec.toNat_mul, frameBits_toNat]
    exact Nat.mod_eq_of_lt hrate
  rw [i2sOpen]
  dsimp only
  generalize hdiv : BitVec.truncate 16 ((((src * 10#32 /
    (u32SampleRate * (((u32WordWidth >>> 4) &&& 3#32) + 1#32) * 16#32)) >>> 1) + 5#32) / 10#32) - 1#16 = divider
  have hdivider : divider.toNat = rounded - 1 := by
    have h16 : (1#16 : BitVec 16).toNat = 1 := rfl
    rw [← hdiv, BitVec.toNat_sub, BitVec.truncate_eq_setWidth, BitVec.toNat_setWidth, rounded_toNat hsrc, hbit,
      hrounded, h16]
    omega
  have hext : (BitVec.zeroExtend 32 divider).toNat = rounded - 1 := by
    rw [BitVec.zeroExtend_eq_setWidth, BitVec.toNat_setWidth, hdivider]
    exact Nat.mod_eq_of_lt (by omega)
  constructor
  · rw [getField_replace _ _ (by decide), getField_toNat (by decide), BitVec.toNat_shiftLeft, hext,
      Nat.shiftLeft_eq]
    omega
  · have hone' : (1#32 : BitVec 32).toNat = 1 := rfl
    have htwo : (2#32 : BitVec 32).toNat = 2 := rfl
    have hsum : (BitVec.zeroExtend 32 divider + 1#32).toNat = rounded := by
      rw [BitVec.toNat_add, hext, hone']
      omega
    have hdouble : (2#32 * (BitVec.zeroExtend 32 divider + 1#32)).toNat = 2 * rounded := by
      rw [BitVec.toNat_mul, hsum, htwo]
      omega
    rw [BitVec.toNat_udiv, BitVec.toNat_udiv, hdouble, frameBits_toNat]

end

theorem bclk_strictMono {bitRate : Nat} (h : 0 < bitRate) :
    StrictMono fun d => ((bclkRatio d * bitRate : Nat) : Int) := by
  intro d d' hlt
  have hratio : bclkRatio d < bclkRatio d' := by
    rw [bclkRatio, bclkRatio]
    omega
  exact Int.ofNat_lt.2 (Nat.mul_lt_mul_of_pos_right hratio h)

/-- The nearest divider for a bit clock. -/
theorem nearest_bclk_iff {src bitRate d : Nat} (h : 0 < bitRate) : NearestDivider bclkRatio 1024 src bitRate d ↔
    d < 1024 ∧ (1 ≤ d → 2 * (d * bitRate) + bitRate ≤ src) ∧
      (d + 1 < 1024 → src ≤ 2 * (d * bitRate) + 3 * bitRate) := by
  have hvalue : ∀ d, ((bclkRatio d * bitRate : Nat) : Int) = 2 * (d * bitRate : Nat) + 2 * bitRate := by
    intro d
    rw [bclkRatio]
    push_cast
    ring
  rw [NearestDivider, isNearest_iff (bclk_strictMono h)]
  refine and_congr_right fun _ => and_congr ?_ (imp_congr_right fun _ => ?_)
  · constructor
    · intro hbelow hd
      obtain ⟨c, rfl⟩ := Nat.exists_eq_add_of_le' hd
      have hmid := hbelow c rfl
      have hsucc : (c + 1) * bitRate = c * bitRate + bitRate := Nat.succ_mul c bitRate
      rw [hvalue, hvalue] at hmid
      omega
    · rintro habove c rfl
      have hmid := habove (Nat.le_add_left 1 c)
      have hsucc : (c + 1) * bitRate = c * bitRate + bitRate := Nat.succ_mul c bitRate
      rw [hvalue, hvalue]
      omega
  · have hsucc : (d + 1) * bitRate = d * bitRate + bitRate := Nat.succ_mul d bitRate
    rw [hvalue, hvalue]
    omega

/-- A divider that does not fit its field is cut there, and the rate returned is not the cut divider's. -/
theorem cut_divider_result {src frame rounded : Nat} (hframe : 0 < frame) (hcut : (rounded - 1) % 1024 = 1023)
    (hmore : 1024 < rounded) (hsrc : 2 * (rounded * frame) ≤ src + frame) :
    src / (2 * rounded) / frame ≠ src / (2 * 1024) / frame := by
  obtain ⟨m, hm⟩ : ∃ m, rounded = 1024 * m := ⟨rounded / 1024, by omega⟩
  have htwo : 2 ≤ m := by omega
  subst hm
  have hleft : src / (2 * (1024 * m)) / frame = src / (2 * 1024) / frame / m := by
    rw [Nat.div_div_eq_div_mul, Nat.div_div_eq_div_mul, Nat.div_div_eq_div_mul]
    congr 1
    ring
  have hlarge : 0 < src / (2 * 1024) / frame := by
    have hle : 2 * 1024 * frame ≤ src := by
      have hmul : 2 * frame ≤ m * frame := Nat.mul_le_mul_right frame htwo
      have hassoc := Nat.mul_assoc 1024 m frame
      omega
    rw [Nat.div_div_eq_div_mul]
    exact Nat.div_pos hle (Nat.mul_pos (by decide) hframe)
  rw [hleft]
  exact Nat.ne_of_lt (Nat.div_lt_self hlarge htwo)

/-- The call of `I2S_Open`, with the source as the getter gives it. -/
theorem open_iff {src selected u32SampleRate frame rounded d result : Nat} (hframe : 0 < frame)
    (hrounded : (src * 10 / (u32SampleRate * frame) / 2 + 5) / 10 = rounded)
    (hvalues : u32SampleRate * frame < 2 ^ 32 → src * 10 < 2 ^ 32 → 1 ≤ rounded → rounded < 2 ^ 16 →
      d = (rounded - 1) % 1024 ∧ result = src / (2 * rounded) / frame) :
    (src = selected ∧ result = selected / bclkRatio d / frame ∧
        NearestDivider bclkRatio 1024 selected (u32SampleRate * frame) d ∧
        u32SampleRate * frame < 2 ^ 32 ∧ src * 10 < 2 ^ 32 ∧ 1 ≤ rounded ∧ rounded < 2 ^ 16) ↔
      src = selected ∧ BclkHolds selected (u32SampleRate * frame) := by
  refine and_congr_right fun hsel => ?_
  subst hsel
  rcases Nat.eq_zero_or_pos (u32SampleRate * frame) with hzero | hpos
  · constructor
    · rintro ⟨-, -, -, -, hone, -⟩
      rw [hzero, Nat.div_zero] at hrounded
      omega
    · rintro ⟨-, -, hlt⟩
      rw [hzero] at hlt
      omega
  · rw [rounded_eq src hpos] at hrounded
    have hle : frame ≤ u32SampleRate * frame :=
      Nat.le_mul_of_pos_left frame (Nat.pos_of_mul_pos_right hpos)
    generalize hrate : u32SampleRate * frame = bitRate at *
    have hpos2 : 0 < 2 * bitRate := Nat.mul_pos Nat.zero_lt_two hpos
    have hdiv := Nat.div_add_mod (src + bitRate) (2 * bitRate)
    have hmod := Nat.mod_lt (src + bitRate) hpos2
    rw [hrounded, Nat.mul_assoc, Nat.mul_comm bitRate] at hdiv
    constructor
    · rintro ⟨hresult, hnearest, hbit, hten, hone, hfits⟩
      obtain ⟨hd, hres⟩ := hvalues hbit hten hone hfits
      obtain ⟨-, -, habove⟩ := (nearest_bclk_iff hpos).1 hnearest
      have hmost : rounded ≤ 1024 := by
        by_contra hmore
        have hbig : 1025 * bitRate ≤ rounded * bitRate := Nat.mul_le_mul_right bitRate (by omega)
        by_cases hlast : d + 1 < 1024
        · have hsmall : d * bitRate ≤ 1022 * bitRate := Nat.mul_le_mul_right bitRate (by omega)
          have hsrc := habove hlast
          omega
        · have hcut : (rounded - 1) % 1024 = 1023 := by omega
          have hsrc : (2 * rounded - 1) * frame ≤ src := by
            refine Nat.le_trans (Nat.mul_le_mul_left _ hle) ?_
            rw [Nat.sub_mul, Nat.mul_assoc]
            omega
          refine cut_divider_result hframe hcut (by omega) ?_ (hres.symm.trans (hresult.trans ?_))
          · rw [Nat.sub_mul, Nat.mul_assoc] at hsrc
            omega
          · rw [hd, hcut, bclkRatio]
      have hlow : 1 * bitRate ≤ rounded * bitRate := Nat.mul_le_mul_right bitRate hone
      have hhigh : rounded * bitRate ≤ 1024 * bitRate := Nat.mul_le_mul_right bitRate hmost
      exact ⟨hten, by omega, by omega⟩
    · rintro ⟨hten, hlow, hhigh⟩
      have hone : 1 ≤ rounded := by
        by_contra hzero
        rw [Nat.eq_zero_of_not_pos hzero, Nat.zero_mul] at hdiv
        omega
      have hmost : rounded ≤ 1024 := by
        by_contra hmore
        have hbig : 1025 * bitRate ≤ rounded * bitRate := Nat.mul_le_mul_right bitRate (by omega)
        omega
      obtain ⟨hd, hres⟩ := hvalues (by omega) hten hone (by omega)
      have hnum : d = rounded - 1 := by omega
      have hsucc : (d + 1) * bitRate = d * bitRate + bitRate := Nat.succ_mul d bitRate
      rw [show d + 1 = rounded by omega] at hsucc
      refine ⟨?_, (nearest_bclk_iff hpos).2 ⟨by omega, fun _ => by omega, fun _ => by omega⟩, by omega, hten, hone,
        by omega⟩
      rw [hres, bclkRatio, show d + 1 = rounded by omega]

/-! ## The master clock -/

theorem mclk_strictMono {bus : Nat} (h : 0 < bus) : StrictMono fun d => ((mclkRatio d * bus : Nat) : Int) := by
  intro d d' hlt
  have hratio : mclkRatio d < mclkRatio d' := by
    rw [mclkRatio, mclkRatio]
    split <;> split <;> omega
  exact Int.ofNat_lt.2 (Nat.mul_lt_mul_of_pos_right hratio h)

/-- What `I2S_EnableMCLK` leaves in the divider's field and returns. -/
theorem i2sEnableMCLK_eq (src u32BusClock : BitVec 32) (regs : I2sT) :
    (getField (i2sEnableMCLK src regs u32BusClock).CLKDIV 0 7).toNat =
        (if u32BusClock = src then 0 else src.toNat / u32BusClock.toNat % 2 ^ 8 / 2) ∧
      (mclkOf src (i2sEnableMCLK src regs u32BusClock)).toNat =
        src.toNat / mclkRatio (getField (i2sEnableMCLK src regs u32BusClock).CLKDIV 0 7).toNat := by
  rw [i2sEnableMCLK]
  dsimp only
  generalize hdiv : (if u32BusClock = src then 0#8 else BitVec.truncate 8 (src / u32BusClock) >>> 1) = u8Divider
  have hdivider : u8Divider.toNat =
      if u32BusClock = src then 0 else src.toNat / u32BusClock.toNat % 2 ^ 8 / 2 := by
    rw [← hdiv]
    split
    · rfl
    · rw [BitVec.toNat_ushiftRight, BitVec.truncate_eq_setWidth, BitVec.toNat_setWidth, BitVec.toNat_udiv,
        Nat.shiftRight_eq_div_pow, Nat.pow_one]
  have hlt : u8Divider.toNat < 2 ^ 7 := by
    rw [hdivider]
    split
    · decide
    · omega
  have hext : (BitVec.zeroExtend 32 u8Divider).toNat = u8Divider.toNat := by
    rw [BitVec.zeroExtend_eq_setWidth, BitVec.toNat_setWidth]
    exact Nat.mod_eq_of_lt (by omega)
  have hfield : (getField ((regs.CLKDIV &&& ~~~I2S_CLKDIV_MCLKDIV_Msk) ||| BitVec.zeroExtend 32 u8Divider) 0 7) =
      BitVec.zeroExtend 32 u8Divider := by
    rw [getField_replace _ _ (by decide), getField_zero (by rw [hext]; exact hlt)]
  rw [hfield, hext, mclkOf]
  refine ⟨hdivider, ?_⟩
  have hreg : ((regs.CLKDIV &&& ~~~I2S_CLKDIV_MCLKDIV_Msk) ||| BitVec.zeroExtend 32 u8Divider) &&&
      I2S_CLKDIV_MCLKDIV_Msk = BitVec.zeroExtend 32 u8Divider := by
    refine Eq.trans ?_ hfield
    rw [getField, BitVec.ushiftRight_zero]
    rfl
  dsimp only
  rw [hreg, mclkRatio]
  by_cases hzero : u8Divider.toNat = 0
  · have hword : BitVec.zeroExtend 32 u8Divider = 0#32 := BitVec.eq_of_toNat_eq (hext.trans hzero)
    rw [if_pos hword, if_pos hzero, Nat.div_one]
  · have hword : ¬ BitVec.zeroExtend 32 u8Divider = 0#32 := fun heq => hzero (hext.symm.trans (heq ▸ rfl))
    rw [if_neg hword, if_neg hzero, BitVec.toNat_udiv, hext, BitVec.toNat_ushiftRight,
      Nat.shiftRight_eq_div_pow, Nat.pow_one, Nat.div_div_eq_div_mul]

/-- The nearest divider for a master clock. -/
theorem nearest_mclk_iff {src bus d : Nat} (h : 0 < bus) (hlow : mclkRatio d * bus ≤ src ∨ d = 0) :
    NearestDivider mclkRatio 128 src bus d ↔
      d < 128 ∧ (d + 1 < 128 → 2 * src ≤ mclkRatio d * bus + mclkRatio (d + 1) * bus) := by
  rw [NearestDivider, isNearest_iff (mclk_strictMono h)]
  refine and_congr_right fun _ => ?_
  have hbelow : ∀ c, c + 1 = d → ((mclkRatio d * bus : Nat) : Int) + (mclkRatio c * bus : Nat) ≤ 2 * src := by
    rintro c rfl
    have hmono : ((mclkRatio c * bus : Nat) : Int) < (mclkRatio (c + 1) * bus : Nat) :=
      mclk_strictMono h (Nat.lt_succ_self c)
    omega
  rw [and_iff_right hbelow]
  refine imp_congr_right fun _ => ?_
  omega

/-- The call of `I2S_EnableMCLK`, with the source as the getter gives it. -/
theorem mclk_iff {src bus d : Nat} (hbus : 0 < bus)
    (hd : d = if bus = src then 0 else src / bus % 2 ^ 8 / 2) :
    (NearestDivider mclkRatio 128 src bus d ∧ (bus = src ∨ src / bus < 2 ^ 8)) ↔ MclkHolds src bus := by
  rw [MclkHolds]
  by_cases hsame : bus = src
  · rw [if_pos hsame] at hd
    subst hd hsame
    refine iff_of_true ⟨(nearest_mclk_iff hbus (.inr rfl)).2 ⟨by decide, fun _ => ?_⟩, .inl rfl⟩
      ⟨by omega, .inl (by omega)⟩
    rw [mclkRatio, mclkRatio, if_pos rfl, if_neg (by decide)]
    omega
  · rw [if_neg hsame] at hd
    rw [or_iff_right hsame, Nat.div_lt_iff_lt_mul hbus, and_comm]
    refine and_congr_right fun hlt => ?_
    have hsmall : src / bus < 2 ^ 8 := (Nat.div_lt_iff_lt_mul hbus).2 hlt
    rw [Nat.mod_eq_of_lt hsmall, Nat.div_div_eq_div_mul, Nat.mul_comm bus 2] at hd
    have hdiv := Nat.div_add_mod src (2 * bus)
    have hmod := Nat.mod_lt src (Nat.mul_pos Nat.zero_lt_two hbus)
    rw [← hd, Nat.mul_assoc, Nat.mul_comm bus] at hdiv
    have hmost : d < 128 := by
      by_contra hmore
      have hbig : 128 * bus ≤ d * bus := Nat.mul_le_mul_right bus (Nat.not_lt.1 hmore)
      omega
    have hratio : ∀ c, mclkRatio (c + 1) * bus = 2 * (c * bus) + 2 * bus := by
      intro c
      rw [mclkRatio, if_neg (Nat.succ_ne_zero c)]
      ring
    cases d with
    | zero =>
      rw [nearest_mclk_iff hbus (.inr rfl), hratio, mclkRatio, if_pos rfl]
      omega
    | succ c =>
      have hsucc : (c + 1) * bus = c * bus + bus := Nat.succ_mul c bus
      have hlow : mclkRatio (c + 1) * bus ≤ src := by
        rw [hratio]
        omega
      rw [nearest_mclk_iff hbus (.inl hlow), hratio, hratio, and_iff_right hmost]
      by_cases hlast : c + 1 + 1 < 128
      · have hbig : (c + 1) * bus ≤ 126 * bus := Nat.mul_le_mul_right bus (by omega)
        rw [forall_prop_of_true hlast]
        omega
      · have hbig : 127 * bus ≤ (c + 1) * bus := Nat.mul_le_mul_right bus (by omega)
        exact iff_of_true (fun h => absurd h hlast) (.inr (.inl (by omega)))

/-! ## The two calls -/

/-- A call is right exactly when its source is the one the getter takes and the request is one that the driver
serves. -/
theorem i2sClock_iff (sel : ClkSel) (i2s : I2sPort) (call : ClockCall) (h : call.request ≠ 0#32) :
    call.Right sel i2s ↔ call.Holds sel i2s := by
  cases call with
  | openI2s u32MasterSlave u32SampleRate u32WordWidth u32MonoData u32DataFormat =>
    rw [ClockCall.Holds, ← source_iff]
    exact open_iff (frameBits_pos u32WordWidth) rfl fun hrate hsrc hone hfits => i2sOpen_eq hrate hsrc rfl hone hfits
  | enableMCLK regs u32BusClock =>
    have hbus : 0 < u32BusClock.toNat := Nat.pos_of_ne_zero fun hzero => h (BitVec.eq_of_toNat_eq hzero)
    obtain ⟨hfield, hresult⟩ := i2sEnableMCLK_eq (i2sGetSourceClockFreq sel i2s) u32BusClock regs
    rw [ClockCall.Right, ClockCall.Holds, ← source_iff]
    refine and_congr_right fun hsel => ?_
    rw [← hsel, and_iff_right hresult, ← BitVec.toNat_inj]
    refine mclk_iff hbus (hfield.trans ?_)
    simp only [BitVec.toNat_inj]

/-- The second controller on half the system clock of 180 MHz, at 48 kHz with 16 bits. The driver computes with
the audio PLL, that is off. -/
theorem not_clockRight : ¬ ClockCall.Right
    ⟨⟨fun _ => ⟨0#32, 1#32, 0#32⟩⟩, 1#32 <<< 4, 1#32 <<< 14⟩ .I2S1 (.openI2s 0#32 48000#32 (1#32 <<< 4) 0#32 0#32) := by
  rintro ⟨hsel, -⟩
  exact absurd hsel (by decide)

/-- The first controller on the same clock, at 48 kHz with 16 bits. -/
theorem i2sClock_iff_48000 : ClockCall.Right
    ⟨⟨fun _ => ⟨0#32, 1#32, 0#32⟩⟩, 1#32 <<< 4, 1#32 <<< 12⟩ .I2S0
      (.openI2s 0#32 48000#32 (1#32 <<< 4) 0#32 0#32) :=
  (i2sClock_iff _ _ _ (by decide)).2 ⟨trivial, by decide, by decide, by decide⟩

end NumakerMA35D1.I2s

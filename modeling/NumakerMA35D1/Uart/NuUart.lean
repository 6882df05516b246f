import NumakerMA35D1.Lib.BitField
import NumakerMA35D1.Lib.Nearest

/-!
# The baud rate of the UARTs

`UART_Open` and `UART_SetLineConfig` read the port's clock source and divider, round the ratio of clock
and baud rate to the nearest divisor of mode 2, and where that has more than 16 bits to the nearest of mode
0. For the clock that the getter computes this is right (`baudRight_of_clock`). The getter knows two of the
four sources and takes the second, half the system clock, for the whole; the port's own clock is served for
the first alone (`uartBaud_iff`).

Reference: `nu_uart.c`, `nu_uart.h:100 UART_BAUD_MODE0_DIVIDER`, `clk_reg.h:786 UART0SEL`.
-/

namespace NumakerMA35D1.Uart

open Embedded

/-! ## The clock of a port -/

/-- The clock controller's registers that concern the ports. Reference: `clk_reg.h:1758 CLK_T`. -/
structure UartClk where
  CLKSEL2 : BitVec 32
  CLKSEL3 : BitVec 32
  CLKDIV1 : BitVec 32
  CLKDIV2 : BitVec 32
  CLKDIV3 : BitVec 32

/-- The frequencies of the crystals, the oscillator and the system clock. Reference: `system_ma35.h:24
__HXT`, `nu_clk.c:184 CLK_GetSYSCLK1Freq`. -/
structure Sources where
  hxt : BitVec 32
  sysclk1 : BitVec 32
  lxt : BitVec 32
  hirc : BitVec 32

/-- Reference: `ma35d1.h:639 UART16_BASE`. -/
def UART16 : BitVec 32 := 0x40880000#32

/-- The registers of a port. Reference: `ma35d1.h:615 UART0_BASE`. -/
def uartBase (p : Nat) : BitVec 32 :=
  if p = 16 then UART16 else 0x40700000#32 + BitVec.ofNat 32 p <<< 16

/-- The number of a port from the address of its registers. Reference: `nu_uart.c:46
UART_GetSrcClkSetting`. -/
def uartPort (uart : BitVec 32) : Nat :=
  if uart = UART16 then 16 else ((uart &&& 0xf0000#32) >>> 16).toNat

/-- The value of a port's selection field. Reference: `nu_uart.c:57 UART_GetSrcClkSetting`. -/
def uartClkSrcSel (clk : UartClk) (u32UartPort : Nat) : BitVec 32 :=
  if u32UartPort < 8 then getField clk.CLKSEL2 (16 + u32UartPort * 2) 2
  else if u32UartPort ≤ 16 then getField clk.CLKSEL3 ((u32UartPort - 8) * 2) 2
  else 0#32

/-- The value of a port's divider field. Reference: `nu_uart.c:61 UART_GetSrcClkSetting`. -/
def uartClkDivNum (clk : UartClk) (u32UartPort : Nat) : BitVec 32 :=
  if u32UartPort < 8 then
    if u32UartPort < 4 then getField clk.CLKDIV1 ((u32UartPort + 4) * 4) 4
    else getField clk.CLKDIV2 ((u32UartPort - 4) * 4) 4
  else if u32UartPort ≤ 16 then
    if u32UartPort < 12 then getField clk.CLKDIV2 ((u32UartPort - 4) * 4) 4
    else getField clk.CLKDIV3 ((u32UartPort - 12) * 4) 4
  else 0#32

/-- The frequency of the source and the divider. Reference: `nu_uart.c:40 UART_GetSrcClkSetting`. -/
def uartGetSrcClkSetting (clk : UartClk) (src : Sources) (uart : BitVec 32) : BitVec 32 × BitVec 32 :=
  let u32UartClkSrcSel := uartClkSrcSel clk (uartPort uart)
  let u32SrcClkFreq :=
    if u32UartClkSrcSel = 0#32 then src.hxt
    else if u32UartClkSrcSel = 1#32 then src.sysclk1
    else 0#32
  (u32SrcClkFreq, uartClkDivNum clk (uartPort uart))

/-! ## The baud rate -/

/-- Reference: `nu_uart.h:100 UART_BAUD_MODE0_DIVIDER`. -/
def UART_BAUD_MODE0_DIVIDER (u32SrcFreq u32BaudRate : BitVec 32) : BitVec 32 :=
  (((u32SrcFreq + u32BaudRate * 8#32) / u32BaudRate) >>> 4) - 2#32

/-- Reference: `nu_uart.h:114 UART_BAUD_MODE2_DIVIDER`. -/
def UART_BAUD_MODE2_DIVIDER (u32SrcFreq u32BaudRate : BitVec 32) : BitVec 32 :=
  (u32SrcFreq + u32BaudRate / 2#32) / u32BaudRate - 2#32

/-- Reference: `nu_uart.h:92 UART_BAUD_MODE0`. -/
def UART_BAUD_MODE0 : BitVec 32 := 0#32

/-- Reference: `nu_uart.h:93 UART_BAUD_MODE2`. -/
def UART_BAUD_MODE2 : BitVec 32 := 1#32 <<< 29 ||| 1#32 <<< 28

/-- The registers that the two functions write. Reference: `uart_reg.h UART_T`. -/
structure UartT where
  FUNCSEL : BitVec 32
  LINE : BitVec 32
  FIFO : BitVec 32
  BAUD : BitVec 32

/-- The word for the baud rate of a clock. Reference: `nu_uart.c:278 UART_Open`. -/
def baudOf (freq u32baudrate : BitVec 32) : BitVec 32 :=
  let u32Baud_Div := UART_BAUD_MODE2_DIVIDER freq u32baudrate
  if u32Baud_Div > 0xFFFF#32 then UART_BAUD_MODE0 ||| UART_BAUD_MODE0_DIVIDER freq u32baudrate
  else UART_BAUD_MODE2 ||| u32Baud_Div

/-- The clock that the functions compute with. Reference: `nu_uart.c:280 UART_Open`. -/
def computedFreq (clk : UartClk) (src : Sources) (uart : BitVec 32) : BitVec 32 :=
  let setting := uartGetSrcClkSetting clk src uart
  setting.1 / (setting.2 + 1#32)

/-- The part that the two functions share. Reference: `nu_uart.c:276 UART_Open`, `nu_uart.c:374
UART_SetLineConfig`. -/
def uartSetBaud (clk : UartClk) (src : Sources) (uart u32baudrate : BitVec 32) (r : UartT) : UartT :=
  if u32baudrate ≠ 0#32 then { r with BAUD := baudOf (computedFreq clk src uart) u32baudrate } else r

/-- Reference: `nu_uart.c:260 UART_Open`. -/
def uartOpen (clk : UartClk) (src : Sources) (uart u32baudrate : BitVec 32) (r : UartT) : UartT :=
  uartSetBaud clk src uart u32baudrate
    { r with
      FUNCSEL := 0#32
      LINE := 3#32 ||| 0#32 <<< 3 ||| 0#32 <<< 2
      FIFO := r.FIFO &&& ~~~(0xf#32 <<< 4 ||| 0xf#32 <<< 16) }

/-- Reference: `nu_uart.c:368 UART_SetLineConfig`. -/
def uartSetLineConfig (clk : UartClk) (src : Sources)
    (uart u32baudrate u32data_width u32parity u32stop_bits : BitVec 32) (r : UartT) : UartT :=
  { uartSetBaud clk src uart u32baudrate r with LINE := u32data_width ||| u32parity ||| u32stop_bits }

/-! ## Specification -/

/-- The frequency of a port's source, by the value of its field. Reference: `clk_reg.h:786 UART0SEL`. -/
def sourceFreq (src : Sources) : Nat → Nat
  | 0 => src.hxt.toNat
  | 1 => src.sysclk1.toNat / 2
  | 2 => src.lxt.toNat
  | _ => src.hirc.toNat

/-- The clock of a port, in whole hertz, behind its divider. Reference: `clk_reg.h:1061 UART0DIV`. -/
def uartClock (clk : UartClk) (src : Sources) (p : Nat) : Nat :=
  sourceFreq src (uartClkSrcSel clk p).toNat / ((uartClkDivNum clk p).toNat + 1)

/-- The number nearest to the ratio of clock and baud rate, halves upwards. -/
def nearestDivisor (f b : Nat) : Nat := (2 * f + b) / (2 * b)

/-- No sum of the two macros wraps, and no quotient is less than the two that are taken from it; the macro
of mode 0 counts where it is used. -/
structure NoWrap (freq b : Nat) : Prop where
  sum2 : freq + b / 2 < 2 ^ 32
  two2 : 2 ≤ (freq + b / 2) / b
  sum0 : 65537 < (freq + b / 2) / b → freq + b * 8 < 2 ^ 32
  two0 : 65537 < (freq + b / 2) / b → 2 ≤ (freq + b * 8) / b / 16

/-- The word has the mode and the divider field that give the divisor nearest to the ratio of clock and baud
rate: `BRD + 2` where the nearest fits, `16 (BRD + 2)` otherwise. The ratio is taken times `b`. -/
def NearestBaud (f b : Nat) (baud : BitVec 32) : Prop :=
  if nearestDivisor f b < 2 ^ 16 + 2 then
    ∃ brd, IsNearest (fun d => (((d + 2) * b : Nat) : Int)) (2 ^ 16) f brd ∧
      baud = UART_BAUD_MODE2 ||| BitVec.ofNat 32 brd
  else
    ∃ brd, IsNearest (fun d => (((d + 2) * (16 * b) : Nat) : Int)) (2 ^ 16) f brd ∧
      baud = UART_BAUD_MODE0 ||| BitVec.ofNat 32 brd

/-- The word is the nearest one for the port's clock `f`, computed from `freq` without a wrap. -/
structure BaudRight (freq f b : Nat) (baud : BitVec 32) : Prop where
  noWrap : NoWrap freq b
  nearest : NearestBaud f b baud

/-! ## The words -/

section

variable {freq b x : BitVec 32} {d d' : Nat}

theorem mode2Divider_toNat (h : NoWrap freq.toNat b.toNat) :
    (UART_BAUD_MODE2_DIVIDER freq b).toNat = (freq.toNat + b.toNat / 2) / b.toNat - 2 := by
  have hsum : (freq + b / 2#32).toNat = freq.toNat + b.toNat / 2 := by
    rw [BitVec.toNat_add, BitVec.toNat_udiv]
    exact Nat.mod_eq_of_lt h.sum2
  have hquot : ((freq + b / 2#32) / b).toNat = (freq.toNat + b.toNat / 2) / b.toNat := by
    rw [BitVec.toNat_udiv, hsum]
  have htwo := h.two2
  rw [UART_BAUD_MODE2_DIVIDER, BitVec.toNat_sub_of_le, hquot]
  · rfl
  · rw [BitVec.le_def, hquot]
    exact htwo

theorem mode0Divider_toNat (h : NoWrap freq.toNat b.toNat)
    (hbig : 65537 < (freq.toNat + b.toNat / 2) / b.toNat) :
    (UART_BAUD_MODE0_DIVIDER freq b).toNat = (freq.toNat + b.toNat * 8) / b.toNat / 16 - 2 := by
  have hlt := h.sum0 hbig
  have htwo := h.two0 hbig
  have hprod : (b * 8#32).toNat = b.toNat * 8 := by
    rw [BitVec.toNat_mul]
    exact Nat.mod_eq_of_lt (by simp only [BitVec.toNat_ofNat]; omega)
  have hsum : (freq + b * 8#32).toNat = freq.toNat + b.toNat * 8 := by
    rw [BitVec.toNat_add, hprod]
    exact Nat.mod_eq_of_lt hlt
  have hquot : (((freq + b * 8#32) / b) >>> 4).toNat =
      (freq.toNat + b.toNat * 8) / b.toNat / 16 := by
    rw [BitVec.toNat_ushiftRight, BitVec.toNat_udiv, hsum, Nat.shiftRight_eq_div_pow]
  rw [UART_BAUD_MODE0_DIVIDER, BitVec.toNat_sub_of_le, hquot]
  · rfl
  · rw [BitVec.le_def, hquot]
    exact htwo

/-- The mode's bits are above the divider's field. -/
theorem mode2_or_toNat (hx : x.toNat < 2 ^ 28) :
    (UART_BAUD_MODE2 ||| x).toNat = 3 * 2 ^ 28 + x.toNat := by
  rw [BitVec.toNat_or, Nat.mul_comm 3, Nat.two_pow_add_eq_or_of_lt hx]
  rfl

theorem mode0_or (x : BitVec 32) : UART_BAUD_MODE0 ||| x = x := BitVec.zero_or

theorem ofNat_toNat_of_lt (hd : d < 2 ^ 28) : (BitVec.ofNat 32 d).toNat = d := by
  rw [BitVec.toNat_ofNat]
  exact Nat.mod_eq_of_lt (by omega)

theorem mode2_or_inj (hd : d < 2 ^ 28) (hd' : d' < 2 ^ 28)
    (h : UART_BAUD_MODE2 ||| BitVec.ofNat 32 d = UART_BAUD_MODE2 ||| BitVec.ofNat 32 d') : d = d' := by
  have hval := congrArg BitVec.toNat h
  rw [mode2_or_toNat (by rwa [ofNat_toNat_of_lt hd]), mode2_or_toNat (by rwa [ofNat_toNat_of_lt hd']),
    ofNat_toNat_of_lt hd, ofNat_toNat_of_lt hd'] at hval
  omega

theorem mode2_or_ne_mode0_or (hd : d < 2 ^ 28) (hd' : d' < 2 ^ 28) :
    UART_BAUD_MODE2 ||| BitVec.ofNat 32 d ≠ UART_BAUD_MODE0 ||| BitVec.ofNat 32 d' := by
  intro h
  have hval := congrArg BitVec.toNat h
  rw [mode2_or_toNat (by rwa [ofNat_toNat_of_lt hd]), mode0_or, ofNat_toNat_of_lt hd,
    ofNat_toNat_of_lt hd'] at hval
  omega

/-- What the functions write, where nothing wraps. -/
theorem baudOf_eq (h : NoWrap freq.toNat b.toNat) :
    baudOf freq b =
      if (freq.toNat + b.toNat / 2) / b.toNat < 2 ^ 16 + 2 then
        UART_BAUD_MODE2 ||| BitVec.ofNat 32 ((freq.toNat + b.toNat / 2) / b.toNat - 2)
      else
        UART_BAUD_MODE0 ||| BitVec.ofNat 32 ((freq.toNat + b.toNat * 8) / b.toNat / 16 - 2) := by
  have hd := mode2Divider_toNat h
  have htwo := h.two2
  have hgt : UART_BAUD_MODE2_DIVIDER freq b > 0xFFFF#32 ↔
      ¬ (freq.toNat + b.toNat / 2) / b.toNat < 2 ^ 16 + 2 := by
    rw [gt_iff_lt, BitVec.lt_def, hd, BitVec.toNat_ofNat]
    omega
  rw [baudOf]
  by_cases hsmall : (freq.toNat + b.toNat / 2) / b.toNat < 2 ^ 16 + 2
  · rw [if_neg (fun h => hgt.1 h hsmall), if_pos hsmall, ← hd, BitVec.ofNat_toNat, BitVec.setWidth_eq]
  · rw [if_pos (hgt.2 hsmall), if_neg hsmall, ← mode0Divider_toNat h (by omega), BitVec.ofNat_toNat,
      BitVec.setWidth_eq]

end

/-! ## The rounding -/

section

variable {f g b : Nat}

/-- The macro of mode 2 rounds to the nearest. -/
theorem add_half_div (f b : Nat) : (f + b / 2) / b = nearestDivisor f b := by
  have hhalf : f + b / 2 = (2 * f + b) / 2 := by omega
  rw [nearestDivisor, hhalf, Nat.div_div_eq_div_mul]

/-- The macro of mode 0 rounds a sixteenth to the nearest. -/
theorem add_eight_div (f b : Nat) : (f + b * 8) / b / 16 = (2 * f + 16 * b) / (2 * (16 * b)) := by
  have hhalf : f + b * 8 = (2 * f + 16 * b) / 2 := by omega
  rw [hhalf, Nat.div_div_eq_div_mul, Nat.div_div_eq_div_mul]
  congr 1
  ring

/-- The nearest divisor is above a number if the ratio is. -/
theorem lt_nearestDivisor {k : Nat} (hb : 0 < b) (h : 2 * (k + 1) * b ≤ 2 * f + b) :
    k < nearestDivisor f b := by
  rw [nearestDivisor, Nat.lt_iff_add_one_le, Nat.le_div_iff_mul_le (by omega)]
  calc (k + 1) * (2 * b) = 2 * (k + 1) * b := by ring
    _ ≤ 2 * f + b := h

/-- A clock of the range. -/
structure InRange (f b : Nat) : Prop where
  clock : f ≤ 2 ^ 31
  pos : 0 < b
  rate : b ≤ 2 ^ 28
  low : 2 * b ≤ f
  high : f ≤ 16 * 65537 * b

theorem InRange.two_le (h : InRange f b) : 2 ≤ nearestDivisor f b := by
  have hlow := h.low
  exact lt_nearestDivisor h.pos (by omega)

/-- Beyond mode 2 the ratio is at least 65537 and a half. -/
theorem big_of_not_lt (hbig : ¬ nearestDivisor f b < 2 ^ 16 + 2) : 131075 * b ≤ 2 * f := by
  have hge : 65538 ≤ (2 * f + b) / (2 * b) := Nat.le_of_not_lt hbig
  rcases Nat.eq_zero_or_pos b with rfl | hb
  · omega
  · have hmul := (Nat.le_div_iff_mul_le (by omega)).1 hge
    omega

theorem InRange.noWrap (h : InRange f b) : NoWrap f b := by
  obtain ⟨hclock, hpos, hrate, hlow, hhigh⟩ := h
  have htwo : 2 ≤ nearestDivisor f b := lt_nearestDivisor hpos (by omega)
  rw [← add_half_div] at htwo
  refine ⟨by omega, htwo, fun hbig => ?_, fun hbig => ?_⟩
  · rw [add_half_div] at hbig
    have := big_of_not_lt (f := f) (b := b) (by omega)
    omega
  · rw [add_half_div] at hbig
    have hratio := big_of_not_lt (f := f) (b := b) (by omega)
    rw [add_eight_div, Nat.le_div_iff_mul_le (by omega)]
    omega

/-- Beyond mode 2 the nearest divisor of mode 0 has a place. -/
theorem InRange.mode0_fits (h : InRange f b) (hbig : ¬ nearestDivisor f b < 2 ^ 16 + 2) :
    2 ≤ (2 * f + 16 * b) / (2 * (16 * b)) ∧ (2 * f + 16 * b) / (2 * (16 * b)) < 2 ^ 16 + 2 := by
  have hratio := big_of_not_lt hbig
  have hpos := h.pos
  have hhigh := h.high
  rw [Nat.le_div_iff_mul_le (by omega), Nat.div_lt_iff_lt_mul (by omega)]
  omega

end

/-- For the clock that the functions compute with, the word is right. -/
theorem baudRight_of_clock {freq b : BitVec 32} (h : InRange freq.toNat b.toNat) :
    BaudRight freq.toNat freq.toNat b.toNat (baudOf freq b) := by
  refine ⟨h.noWrap, ?_⟩
  rw [baudOf_eq h.noWrap, NearestBaud, add_half_div, add_eight_div]
  have hpos := h.pos
  by_cases hsmall : nearestDivisor freq.toNat b.toNat < 2 ^ 16 + 2
  · rw [if_pos hsmall, if_pos hsmall]
    have htwo := h.two_le
    have hlt := Nat.sub_lt_right_of_lt_add htwo hsmall
    exact ⟨_, isNearest_round hpos hlt (Nat.sub_add_cancel htwo), rfl⟩
  · rw [if_neg hsmall, if_neg hsmall]
    obtain ⟨htwo, hlt⟩ := h.mode0_fits hsmall
    exact ⟨_, isNearest_round (by omega) (by omega) (Nat.sub_add_cancel htwo), rfl⟩

/-! ## A clock taken for twice what it is -/

section

variable {freq b : BitVec 32} {f d : Nat}

/-- The divisor of mode 2 for twice the clock is not the nearest. -/
theorem not_isNearest_mode2 (h : InRange f b.toNat) (hfreq : 2 * f ≤ freq.toNat)
    (hsmall : nearestDivisor f b.toNat < 2 ^ 16 + 2)
    (hd : d + 2 = (freq.toNat + b.toNat / 2) / b.toNat) :
    ¬ IsNearest (fun d => (((d + 2) * b.toNat : Nat) : Int)) (2 ^ 16) f d := by
  intro hnear
  have hpos := h.pos
  have hlow := h.low
  have hhalf := hnear.le_half hpos h.two_le hsmall
  have hlt : freq.toNat + b.toNat / 2 < b.toNat * (d + 2 + 1) := hd ▸ Nat.lt_mul_div_succ _ hpos
  have hnext : b.toNat * (d + 2 + 1) = (d + 2) * b.toNat + b.toNat := by ring
  have habs := le_abs_self ((((d + 2) * b.toNat : Nat) : Int) - f)
  omega

/-- The divisor of mode 0 for twice the clock is not the nearest. -/
theorem not_isNearest_mode0 (h : InRange f b.toNat) (hfreq : 2 * f ≤ freq.toNat)
    (hbig : ¬ nearestDivisor f b.toNat < 2 ^ 16 + 2)
    (hd : d + 2 = (freq.toNat + b.toNat * 8) / b.toNat / 16) :
    ¬ IsNearest (fun d => (((d + 2) * (16 * b.toNat) : Nat) : Int)) (2 ^ 16) f d := by
  intro hnear
  have hpos := h.pos
  have hratio := big_of_not_lt hbig
  obtain ⟨htwo, hfit⟩ := h.mode0_fits hbig
  have hhalf := hnear.le_half (by omega) htwo hfit
  rw [add_eight_div] at hd
  have hlt : 2 * freq.toNat + 16 * b.toNat < 2 * (16 * b.toNat) * (d + 2 + 1) :=
    hd ▸ Nat.lt_mul_div_succ _ (by omega)
  have hnext : 2 * (16 * b.toNat) * (d + 2 + 1) =
      2 * ((d + 2) * (16 * b.toNat)) + 2 * (16 * b.toNat) := by ring
  have habs := le_abs_self ((((d + 2) * (16 * b.toNat) : Nat) : Int) - f)
  omega

/-- A word for twice the clock or more is not the nearest one. -/
theorem not_nearestBaud_double (h : InRange f b.toNat) (hw : NoWrap freq.toNat b.toNat)
    (hfreq : 2 * f ≤ freq.toNat) : ¬ NearestBaud f b.toNat (baudOf freq b) := by
  have htwo := hw.two2
  have hquot : (freq.toNat + b.toNat * 8) / b.toNat / 16 ≤ (freq.toNat + b.toNat * 8) / 16 :=
    Nat.div_le_div_right (Nat.div_le_self _ _)
  rw [baudOf_eq hw, NearestBaud]
  by_cases hsmall : nearestDivisor f b.toNat < 2 ^ 16 + 2
  · rw [if_pos hsmall]
    rintro ⟨brd, hnear, heq⟩
    have hbrd := hnear.1
    split at heq
    · have hd := mode2_or_inj (by omega) (by omega) heq
      exact not_isNearest_mode2 h hfreq hsmall (by omega) hnear
    · have hsum := hw.sum0 (by omega)
      exact mode2_or_ne_mode0_or (by omega) (by omega) heq.symm
  · rw [if_neg hsmall]
    rintro ⟨brd, hnear, heq⟩
    have hbrd := hnear.1
    split at heq
    · exact mode2_or_ne_mode0_or (by omega) (by omega) heq
    · have hsum := hw.sum0 (by omega)
      have htwo0 := hw.two0 (by omega)
      rw [mode0_or, mode0_or] at heq
      have hval := congrArg BitVec.toNat heq
      rw [ofNat_toNat_of_lt (by omega), ofNat_toNat_of_lt (by omega)] at hval
      exact not_isNearest_mode0 h hfreq hsmall (by omega) hnear

end

/-! ## The ports -/

section

variable {clk : UartClk} {src : Sources} {p : Fin 17} {b : BitVec 32} {f : Nat}

theorem uartPort_uartBase : ∀ p : Fin 17, uartPort (uartBase p.val) = p.val := by decide

theorem uartClkDivNum_lt (clk : UartClk) (n : Nat) : (uartClkDivNum clk n).toNat < 16 := by
  have hfield : ∀ (w : BitVec 32) (pos : Nat), (getField w pos 4).toNat < 16 := by
    intro w pos
    rw [getField_toNat (by decide)]
    exact Nat.mod_lt _ (by decide)
  rw [uartClkDivNum]
  split
  · split <;> exact hfield _ _
  · split
    · split <;> exact hfield _ _
    · decide

/-- The clock computed is the frequency that the getter reports, behind the port's divider. -/
theorem computedFreq_toNat (clk : UartClk) (src : Sources) (p : Fin 17) :
    (computedFreq clk src (uartBase p.val)).toNat =
      (if uartClkSrcSel clk p.val = 0#32 then src.hxt
        else if uartClkSrcSel clk p.val = 1#32 then src.sysclk1 else 0#32).toNat /
      ((uartClkDivNum clk p.val).toNat + 1) := by
  have hlt := uartClkDivNum_lt clk p.val
  have hsucc : (uartClkDivNum clk p.val + 1#32).toNat = (uartClkDivNum clk p.val).toNat + 1 := by
    rw [BitVec.toNat_add]
    exact Nat.mod_eq_of_lt (by simp only [BitVec.toNat_ofNat]; omega)
  rw [computedFreq, uartGetSrcClkSetting, uartPort_uartBase]
  simp only [BitVec.toNat_udiv, hsucc]

/-- A port on the crystal has the clock that is computed. -/
theorem uartClock_crystal (hsel : uartClkSrcSel clk p.val = 0#32) :
    uartClock clk src p.val = (computedFreq clk src (uartBase p.val)).toNat := by
  rw [computedFreq_toNat, if_pos hsel, uartClock, hsel]
  rfl

/-- A port on the system clock has half of it, rounded down. -/
theorem uartClock_sysclk (hsel : uartClkSrcSel clk p.val = 1#32) :
    uartClock clk src p.val = (computedFreq clk src (uartBase p.val)).toNat / 2 := by
  rw [computedFreq_toNat, hsel, if_neg (by decide), if_pos rfl, uartClock, hsel]
  show src.sysclk1.toNat / 2 / _ = _
  rw [Nat.div_div_eq_div_mul, Nat.mul_comm, ← Nat.div_div_eq_div_mul]

/-- With another source a clock of 0 is computed. -/
theorem computedFreq_other (h0 : uartClkSrcSel clk p.val ≠ 0#32)
    (h1 : uartClkSrcSel clk p.val ≠ 1#32) :
    (computedFreq clk src (uartBase p.val)).toNat = 0 := by
  rw [computedFreq_toNat, if_neg h0, if_neg h1]
  exact Nat.zero_div _

theorem not_noWrap_zero (b : Nat) : ¬ NoWrap 0 b := by
  intro h
  have htwo := h.two2
  have hzero : (0 + b / 2) / b = 0 := by
    rcases Nat.eq_zero_or_pos b with rfl | hb
    · rfl
    · exact Nat.div_eq_of_lt (by omega)
  omega

theorem uartOpen_BAUD (hb : b ≠ 0#32) (uart : BitVec 32) (r : UartT) :
    (uartOpen clk src uart b r).BAUD = baudOf (computedFreq clk src uart) b := by
  rw [uartOpen, uartSetBaud, if_pos hb]

theorem uartSetLineConfig_BAUD (hb : b ≠ 0#32) (uart width parity stop : BitVec 32) (r : UartT) :
    (uartSetLineConfig clk src uart b width parity stop r).BAUD =
      baudOf (computedFreq clk src uart) b := by
  rw [uartSetLineConfig, uartSetBaud, if_pos hb]

/-- The word is right for the port's clock exactly on the crystal. -/
theorem baudRight_iff (h : InRange (uartClock clk src p.val) b.toNat) :
    BaudRight (computedFreq clk src (uartBase p.val)).toNat (uartClock clk src p.val) b.toNat
        (baudOf (computedFreq clk src (uartBase p.val)) b) ↔ uartClkSrcSel clk p.val = 0#32 := by
  by_cases h0 : uartClkSrcSel clk p.val = 0#32
  · rw [uartClock_crystal h0] at h ⊢
    exact iff_of_true (baudRight_of_clock h) h0
  · refine iff_of_false (fun hright => ?_) h0
    by_cases h1 : uartClkSrcSel clk p.val = 1#32
    · have hhalf : uartClock clk src p.val = (computedFreq clk src (uartBase p.val)).toNat / 2 :=
        uartClock_sysclk h1
      exact not_nearestBaud_double h hright.noWrap (by omega) hright.nearest
    · have hzero := hright.noWrap
      rw [computedFreq_other h0 h1] at hzero
      exact not_noWrap_zero _ hzero

end

/-- In the whole range of clocks and rates both functions write the nearest divisor for the port's clock if
and only if the port's source is the crystal. Reference: `nu_uart.c:260 UART_Open`, `nu_uart.c:368
UART_SetLineConfig`. -/
theorem uartBaud_iff (clk : UartClk) (src : Sources) (p : Fin 17) (b width parity stop : BitVec 32)
    (r : UartT) (hclock : uartClock clk src p.val ≤ 2 ^ 31) (hrate : b.toNat ≤ 2 ^ 28)
    (hpos : 0 < b.toNat) (hlow : 2 * b.toNat ≤ uartClock clk src p.val)
    (hhigh : uartClock clk src p.val ≤ 16 * 65537 * b.toNat) :
    (BaudRight (computedFreq clk src (uartBase p.val)).toNat (uartClock clk src p.val) b.toNat
        (uartOpen clk src (uartBase p.val) b r).BAUD ∧
      BaudRight (computedFreq clk src (uartBase p.val)).toNat (uartClock clk src p.val) b.toNat
        (uartSetLineConfig clk src (uartBase p.val) b width parity stop r).BAUD) ↔
      uartClkSrcSel clk p.val = 0#32 := by
  have hb : b ≠ 0#32 := by
    rintro rfl
    exact absurd hpos (by decide)
  rw [uartOpen_BAUD hb, uartSetLineConfig_BAUD hb, and_self_iff]
  exact baudRight_iff ⟨hclock, hpos, hrate, hlow, hhigh⟩

/-- The frequencies of the board. Reference: `system_ma35.h:24 __HXT`, `nu_clk.c:22 SYSPLLFREQCLK`. -/
def boardSources : Sources where
  hxt := 24000000#32
  sysclk1 := 180000000#32
  lxt := 32768#32
  hirc := 12000000#32

/-- Registers that select one source for UART0, undivided. -/
def uart0On (sel : BitVec 32) : UartClk where
  CLKSEL2 := sel <<< 16
  CLKSEL3 := 0
  CLKDIV1 := 0
  CLKDIV2 := 0
  CLKDIV3 := 0

/-- UART0. -/
def uart0 : Fin 17 := ⟨0, by decide⟩

/-- The registers of a port after reset. -/
def uartReset : UartT := ⟨0, 0, 0, 0⟩

/-- UART0 on the crystal at 115200 baud. -/
theorem uartBaud_iff_115200 :
    (BaudRight (computedFreq (uart0On 0) boardSources (uartBase uart0.val)).toNat
        (uartClock (uart0On 0) boardSources uart0.val) (115200#32).toNat
        (uartOpen (uart0On 0) boardSources (uartBase uart0.val) 115200#32 uartReset).BAUD ∧
      BaudRight (computedFreq (uart0On 0) boardSources (uartBase uart0.val)).toNat
        (uartClock (uart0On 0) boardSources uart0.val) (115200#32).toNat
        (uartSetLineConfig (uart0On 0) boardSources (uartBase uart0.val) 115200#32 3#32 0#32 0#32
          uartReset).BAUD) ↔
      uartClkSrcSel (uart0On 0) uart0.val = 0#32 :=
  uartBaud_iff (uart0On 0) boardSources uart0 115200#32 3#32 0#32 0#32 uartReset
    (by decide) (by decide) (by decide) (by decide) (by decide)

/-- UART0 on half the system clock, 90 MHz, at 115200 baud. -/
theorem not_uartBaud_sysclk :
    uartClock (uart0On 1) boardSources uart0.val = 90000000 ∧
      InRange (uartClock (uart0On 1) boardSources uart0.val) (115200#32).toNat ∧
      ¬ BaudRight (computedFreq (uart0On 1) boardSources (uartBase uart0.val)).toNat
        (uartClock (uart0On 1) boardSources uart0.val) (115200#32).toNat
        (uartOpen (uart0On 1) boardSources (uartBase uart0.val) 115200#32 uartReset).BAUD := by
  have hrange : InRange (uartClock (uart0On 1) boardSources uart0.val) (115200#32).toNat :=
    ⟨by decide, by decide, by decide, by decide, by decide⟩
  refine ⟨by decide, hrange, ?_⟩
  rw [uartOpen_BAUD (by decide), baudRight_iff hrange]
  decide

end NumakerMA35D1.Uart

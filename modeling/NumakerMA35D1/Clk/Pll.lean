import Mathlib
import NumakerMA35D1.Lib.BitField
import NumakerMA35D1.Lib.FirstMin

/-!
# The clock controller's PLLs

The registers of the PLLs, the search for dividers in the three operating modes, and the two calls
that program a PLL and read its frequency back. The registers are 32-bit words; the frequencies the
setter computes are `uint64_t`, none of which reaches 2^64, and are natural numbers here. A result
`none` stands for a division by zero, which C leaves undefined.
-/

namespace NumakerMA35D1.Clk

open Embedded

/-! ## Registers -/

/-- Reference: `clk_reg.h:104 PLL_T`. -/
structure PllT where
  CTL0 : BitVec 32
  CTL1 : BitVec 32
  CTL2 : BitVec 32
deriving DecidableEq, Inhabited

/-- There are six PLLs. -/
scoped instance neZeroPlls : NeZero (6 : Nat) := ⟨by decide⟩

/-- The PLL registers of the clock controller. `PLL0CTL0` is the first word of the first of them:
the two are one union. Reference: `clk_reg.h:1758 CLK_T`. -/
structure ClkT where
  PLL : Fin 6 → PllT

/-- Reference: `clk_reg.h:1761 PLL0CTL0`. -/
def ClkT.PLL0CTL0 (clk : ClkT) : BitVec 32 := (clk.PLL 0).CTL0

/-- One PLL's registers written. -/
def ClkT.setPLL (clk : ClkT) (i : Fin 6) (pll : PllT) : ClkT :=
  { clk with PLL := Function.update clk.PLL i pll }

@[simp] theorem ClkT.setPLL_PLL (clk : ClkT) (i : Fin 6) (pll : PllT) :
    (clk.setPLL i pll).PLL i = pll := Function.update_self ..

theorem ClkT.setPLL_PLL_of_ne (clk : ClkT) {i j : Fin 6} (h : j ≠ i) (pll : PllT) :
    (clk.setPLL i pll).PLL j = clk.PLL j := Function.update_of_ne h ..

theorem ClkT.setPLL_self (clk : ClkT) (i : Fin 6) : clk.setPLL i (clk.PLL i) = clk := by
  rw [ClkT.setPLL, Function.update_eq_self]

/-- Reference: `nu_clk.h:32 CAPLL`. -/
def CAPLL : BitVec 32 := 0
@[inherit_doc CAPLL] def SYSPLL : BitVec 32 := 1
@[inherit_doc CAPLL] def DDRPLL : BitVec 32 := 2
@[inherit_doc CAPLL] def APLL : BitVec 32 := 3
@[inherit_doc CAPLL] def EPLL : BitVec 32 := 4
@[inherit_doc CAPLL] def VPLL : BitVec 32 := 5

/-- Reference: `nu_clk.h:39 PLL_OPMODE_INTEGER`. -/
def PLL_OPMODE_INTEGER : BitVec 32 := 0
@[inherit_doc PLL_OPMODE_INTEGER] def PLL_OPMODE_FRACTIONAL : BitVec 32 := 1
@[inherit_doc PLL_OPMODE_INTEGER] def PLL_OPMODE_SPREAD_SPECTRUM : BitVec 32 := 2

/-- The crystal's frequency. Reference: `system_ma35.h:24 __HXT`. -/
def HXT : Nat := 24000000

/-- Reference: `nu_clk.c:22 SYSPLLFREQCLK`. -/
def SYSPLLFREQCLK : Nat := 180000000

/-- Reference: `clk_reg.h:2504 CLK_PLL0CTL0_BP_Msk`. -/
def pll0BpMsk : BitVec 32 := fieldMask 1 <<< 17

/-- Reference: `clk_reg.h:2507 CLK_PLLnCTL0_FBDIV_Msk`. -/
def fbdivMsk : BitVec 32 := fieldMask 11
@[inherit_doc fbdivMsk] def indivMsk : BitVec 32 := fieldMask 6 <<< 12
@[inherit_doc fbdivMsk] def modeMsk : BitVec 32 := fieldMask 2 <<< 18
@[inherit_doc fbdivMsk] def ssrateMsk : BitVec 32 := fieldMask 11 <<< 20
@[inherit_doc fbdivMsk] def pdMsk : BitVec 32 := fieldMask 1
@[inherit_doc fbdivMsk] def outdivMsk : BitVec 32 := fieldMask 3 <<< 4
@[inherit_doc fbdivMsk] def fracMsk : BitVec 32 := fieldMask 24 <<< 8

/-- The fields of a PLL's registers. Reference: `clk_reg.h:2507 CLK_PLLnCTL0_FBDIV_Pos`. -/
def PllT.fbdiv (pll : PllT) : BitVec 32 := getField pll.CTL0 0 11
@[inherit_doc PllT.fbdiv] def PllT.indiv (pll : PllT) : BitVec 32 := getField pll.CTL0 12 6
@[inherit_doc PllT.fbdiv] def PllT.mode (pll : PllT) : BitVec 32 := getField pll.CTL0 18 2
@[inherit_doc PllT.fbdiv] def PllT.outdiv (pll : PllT) : BitVec 32 := getField pll.CTL1 4 3
@[inherit_doc PllT.fbdiv] def PllT.frac (pll : PllT) : BitVec 32 := getField pll.CTL1 8 24

/-! ## Reading a frequency back -/

/-- `__HXT` as the getters use it, an `unsigned long` of 32 bits. -/
def hxt : BitVec 32 := BitVec.ofNat 32 HXT

/-- Reference: `nu_clk.c:921 CLK_GetCAPLLClockFreq`. -/
def clkGetCAPLLClockFreq (clk : ClkT) : BitVec 32 :=
  let val := clk.PLL0CTL0
  let u32N := getField val 0 8
  let u32M := getField val 8 4
  let u32P := getField val 12 2
  if val &&& pll0BpMsk ≠ 0#32 then hxt
  else
    let u32RefClk := hxt / 100#32
    u32RefClk * u32N / ((1#32 <<< u32P.toNat) * u32M) * 100#32

/-- The fraction in thousandths, as the getter reads it from the 24-bit field in the two modes that
have one. Reference: `nu_clk.c:987 CLK_GetVSIPLLClockFreq`, `nu_clk.c:999`. -/
def thousandths (u32Mode u32X : BitVec 32) : BitVec 32 :=
  if u32Mode = PLL_OPMODE_FRACTIONAL then (u32X * 1000#32 + 500#32) >>> 24
  else (u32X * 1000#32) >>> 24

/-- Reference: `nu_clk.c:959 CLK_GetVSIPLLClockFreq`. -/
def clkGetVSIPLLClockFreq (clk : ClkT) (u32PllIdx : Fin 6) : BitVec 32 :=
  let pll := clk.PLL u32PllIdx
  if pll.CTL1 &&& pdMsk ≠ 0#32 then 0#32
  else
    let u32Mode := pll.mode
    let u32N := pll.fbdiv
    let u32M := pll.indiv
    let u32P := pll.outdiv
    let u32X := pll.frac
    if u32Mode = PLL_OPMODE_INTEGER then hxt / (u32P * u32M) * u32N
    else if u32Mode = PLL_OPMODE_FRACTIONAL ∨ u32Mode = PLL_OPMODE_SPREAD_SPECTRUM then
      hxt / 1000#32 * (u32N * 1000#32 + thousandths u32Mode u32X) / (u32P * u32M)
    else 0#32

/-- Reference: `nu_clk.c:1329 CLK_GetPLLClockFreq`. -/
def clkGetPLLClockFreq (clk : ClkT) (u32PllIdx : BitVec 32) : BitVec 32 :=
  if u32PllIdx = CAPLL then clkGetCAPLLClockFreq clk
  else if u32PllIdx = SYSPLL then BitVec.ofNat 32 SYSPLLFREQCLK
  else if u32PllIdx = DDRPLL then clkGetVSIPLLClockFreq clk 2
  else if u32PllIdx = EPLL then clkGetVSIPLLClockFreq clk 4
  else if u32PllIdx = APLL then clkGetVSIPLLClockFreq clk 3
  else if u32PllIdx = VPLL then clkGetVSIPLLClockFreq clk 5
  else 0#32

/-! ## The search for dividers -/

/-- Reference: `nu_clk.c:1007 VSIPLL_FREF_MAX_FREQ`. -/
abbrev VSIPLL_FREF_MAX_FREQ : Nat := 200000000
@[inherit_doc VSIPLL_FREF_MAX_FREQ] abbrev VSIPLL_FREF_MIN_FREQ : Nat := 1000000
@[inherit_doc VSIPLL_FREF_MAX_FREQ] abbrev VSIPLL_FREFDIVM_MAX_FREQ : Nat := 40000000
@[inherit_doc VSIPLL_FREF_MAX_FREQ] abbrev VSIPLL_FREFDIVM_MIN_FREQ0 : Nat := 1000000
@[inherit_doc VSIPLL_FREF_MAX_FREQ] abbrev VSIPLL_FREFDIVM_MIN_FREQ1 : Nat := 10000000
@[inherit_doc VSIPLL_FREF_MAX_FREQ] abbrev VSIPLL_FCLK_MAX_FREQ : Nat := 2400000000
@[inherit_doc VSIPLL_FREF_MAX_FREQ] abbrev VSIPLL_FCLK_MIN_FREQ : Nat := 600000000
@[inherit_doc VSIPLL_FREF_MAX_FREQ] abbrev VSIPLL_FCLKO_MAX_FREQ : Nat := 2400000000
@[inherit_doc VSIPLL_FREF_MAX_FREQ] abbrev VSIPLL_FCLKO_MIN_FREQ : Nat := 85700000

/-- What a search returns: the frequency, and the words for the three registers. -/
structure PllFreq where
  clk : Nat
  reg0 : BitVec 32
  reg1 : BitVec 32
  reg2 : BitVec 32 := 0
deriving DecidableEq

/-- A setting of the three dividers. -/
structure Dividers where
  m : Nat
  n : Nat
  p : Nat
deriving DecidableEq

/-- The values of a counter from `lo` up to `hi`. -/
def counter (lo hi : Nat) : List Nat := List.range' lo (hi + 1 - lo)

/-- The best setting so far and its distance from the request. -/
structure Best where
  u32Min : Nat
  d : Dividers
deriving DecidableEq

/-- How the search ends early: it divides by zero, or it has met the request. -/
inductive Stop
  | fault
  | found (d : Dividers)

/-- One setting tried. Reference: `nu_clk.c:1100 CLK_CalPLLFreq_Mode0`. -/
def tryDividers (u64PllFreq u64Con2 : Nat) (d : Dividers) (best : Best) : Except Stop Best :=
  let u64Con3 := u64Con2 / d.p
  let u32Tmp := if u64Con3 > u64PllFreq then (u64Con3 - u64PllFreq) % 2 ^ 32
    else (u64PllFreq - u64Con3) % 2 ^ 32
  if u32Tmp < best.u32Min then
    if u32Tmp = 0 then .error (.found d) else .ok ⟨u32Tmp, d⟩
  else .ok best

/-- The output dividers tried. Reference: `nu_clk.c:1093 CLK_CalPLLFreq_Mode0`. -/
def outputDividers (u64Con2 : Nat) : List Nat :=
  counter
    (if u64Con2 / VSIPLL_FCLKO_MAX_FREQ > 1 then u64Con2 / VSIPLL_FCLKO_MAX_FREQ else 1)
    (if u64Con2 / VSIPLL_FCLKO_MIN_FREQ < 7 then u64Con2 / VSIPLL_FCLKO_MIN_FREQ else 7)

/-- The feedback dividers tried. Reference: `nu_clk.c:1081 CLK_CalPLLFreq_Mode0`. -/
def feedbackDividers (u64Con1 : Nat) : List Nat :=
  counter
    (if VSIPLL_FCLK_MIN_FREQ / u64Con1 > 16 then VSIPLL_FCLK_MIN_FREQ / u64Con1 else 16)
    (if VSIPLL_FCLK_MAX_FREQ / u64Con1 < 2047 then VSIPLL_FCLK_MAX_FREQ / u64Con1 else 2047)

/-- The input dividers tried; the lower end is kept in 32 bits. Reference:
`nu_clk.c:1069 CLK_CalPLLFreq_Mode0`. -/
def inputDividers (u64PllSrcClk : Nat) : List Nat :=
  counter
    (if u64PllSrcClk / VSIPLL_FREFDIVM_MAX_FREQ > 1 then
      u64PllSrcClk / VSIPLL_FREFDIVM_MAX_FREQ % 2 ^ 32 else 1)
    (if u64PllSrcClk / VSIPLL_FREFDIVM_MIN_FREQ0 < 63 then
      u64PllSrcClk / VSIPLL_FREFDIVM_MIN_FREQ0 else 63)

/-- The three nested loops. Reference: `nu_clk.c:1074 CLK_CalPLLFreq_Mode0`. -/
def searchDividers (u64PllSrcClk u64PllFreq : Nat) : Except Stop Best :=
  (inputDividers u64PllSrcClk).foldlM (fun best u32TmpM =>
    if u32TmpM = 0 then .error .fault
    else
      let u64Con1 := u64PllSrcClk / u32TmpM
      (feedbackDividers u64Con1).foldlM (fun best u32TmpN =>
        let u64Con2 := u64Con1 * u32TmpN
        (outputDividers u64Con2).foldlM
          (fun best u32TmpP => tryDividers u64PllFreq u64Con2 ⟨u32TmpM, u32TmpN, u32TmpP⟩ best)
          best) best)
    ⟨2 ^ 32 - 1, ⟨0, 0, 0⟩⟩

/-- The result for a setting found. Reference: `nu_clk.c:1128 CLK_CalPLLFreq_Mode0`. -/
def dividersFreq (u64PllSrcClk : Nat) (d : Dividers) : Option PllFreq :=
  if d.p * d.m = 0 then none
  else some {
    clk := u64PllSrcClk * d.n / (d.p * d.m)
    reg0 := BitVec.ofNat 32 (d.m <<< 12 ||| d.n)
    reg1 := BitVec.ofNat 32 (d.p <<< 4) }

/-- Reference: `nu_clk.c:1040 CLK_CalPLLFreq_Mode0`. -/
def clkCalPLLFreqMode0 (u64PllSrcClk u64PllFreq : Nat) : Option PllFreq :=
  if u64PllFreq < VSIPLL_FCLKO_MIN_FREQ ∨ u64PllFreq > VSIPLL_FCLKO_MAX_FREQ then
    some { clk := 1000000000, reg0 := 0x307d#32, reg1 := 0x10#32 }
  else
    match searchDividers u64PllSrcClk u64PllFreq with
    | .error .fault => none
    | .error (.found d) => dividersFreq u64PllSrcClk d
    | .ok best => dividersFreq u64PllSrcClk best.d

/-- The result of a search that gives up: no frequency and the registers' words as they were
initialised. -/
def PllFreq.fail : PllFreq := { clk := 0, reg0 := 0, reg1 := 0 }

/-- The result for a request beyond the range. Reference: `nu_clk.c:1172 CLK_CalPLLFreq_Mode1`. -/
def PllFreq.beyond : PllFreq := { clk := 1000000000, reg0 := 0x30FA#32, reg1 := 0x2#32 <<< 4 }

/-- The output divider. Reference: `nu_clk.c:1180 CLK_CalPLLFreq_Mode1`. -/
def findP (u64FCLKO : Nat) : Option Nat :=
  (counter 1 7).find? fun i =>
    decide (i * u64FCLKO ≤ VSIPLL_FCLKO_MAX_FREQ) && decide (i * u64FCLKO ≥ 600000000)

/-- The input divider. Reference: `nu_clk.c:1196 CLK_CalPLLFreq_Mode1`. -/
def findM (u64PllSrcClk : Nat) : Option Nat :=
  (counter 1 63).find? fun i =>
    decide (u64PllSrcClk / i ≤ 40000000) && decide (u64PllSrcClk / i ≥ 10000000)

/-- The fractional part in units of the 24-bit field. Reference: `nu_clk.c:1217
CLK_CalPLLFreq_Mode1`. -/
def fracOf (u64X : Nat) : Nat := (u64X <<< 24 + 500) / 1000

/-- The dividers and the frequency of the modes with a fraction; the words' upper fields are those
the caller gives. Reference: `nu_clk.c:1180 CLK_CalPLLFreq_Mode1`. -/
def fractionalFreq (u64PllSrcClk u64FCLKO : Nat) (u64SSRATE : Nat) (u64SLOPE : Nat → Nat) :
    PllFreq :=
  match findP u64FCLKO with
  | none => .fail
  | some u64P =>
    match findM u64PllSrcClk with
    | none => .fail
    | some u64M =>
      let u64tmp := u64FCLKO * u64P * u64M * 1000 / u64PllSrcClk
      let u64N := u64tmp / 1000
      let u64X := u64tmp % 1000
      { clk := u64PllSrcClk * u64tmp / u64P / u64M / 1000
        reg0 := BitVec.ofNat 32 (u64SSRATE <<< 20 ||| u64M <<< 12 ||| u64N)
        reg1 := BitVec.ofNat 32 (u64P <<< 4) ||| BitVec.ofNat 32 (fracOf u64X) <<< 8
        reg2 := BitVec.ofNat 32 (u64SLOPE u64tmp) }

/-- The frequency looked for when the request is below the range: its first multiple above the
lower end, or zero. Reference: `nu_clk.c:1153 CLK_CalPLLFreq_Mode1`. -/
def raiseFreqMode1 (u64PllFreq : Nat) : Nat :=
  match (counter 2 99).find? fun i => decide (i * u64PllFreq > VSIPLL_FCLKO_MIN_FREQ) with
  | some i => i * u64PllFreq
  | none => 0

/-- As `raiseFreqMode1`, but the loop goes on after a hit. Reference: `nu_clk.c:1242
CLK_CalPLLFreq_Mode2`. -/
def raiseFreqMode2 (u64PllFreq : Nat) : Nat :=
  (counter 2 7).foldl (fun u64FCLKO i => if i * u64PllFreq > 85700000 then i * u64PllFreq
    else u64FCLKO) 0

/-- The checks the two modes with a fraction make before they look for dividers. Reference:
`nu_clk.c:1145 CLK_CalPLLFreq_Mode1`, `nu_clk.c:1234 CLK_CalPLLFreq_Mode2`. -/
def checkedFreq (raiseFreq : Nat → Nat) (divide : Nat → PllFreq) (u64PllSrcClk u64PllFreq : Nat) :
    PllFreq :=
  if u64PllSrcClk > VSIPLL_FREF_MAX_FREQ ∨ u64PllSrcClk < VSIPLL_FREF_MIN_FREQ then .fail
  else if u64PllFreq < VSIPLL_FCLKO_MIN_FREQ then
    if raiseFreq u64PllFreq = 0 then .fail else divide (raiseFreq u64PllFreq)
  else if u64PllFreq ≥ VSIPLL_FCLKO_MAX_FREQ then .beyond
  else divide u64PllFreq

/-- Reference: `nu_clk.c:1139 CLK_CalPLLFreq_Mode1`. -/
def clkCalPLLFreqMode1 (u64PllSrcClk u64PllFreq : Nat) : PllFreq :=
  checkedFreq raiseFreqMode1 (fun u64FCLKO => fractionalFreq u64PllSrcClk u64FCLKO 0 fun _ => 0)
    u64PllSrcClk u64PllFreq

/-- Reference: `nu_clk.c:1228 CLK_CalPLLFreq_Mode2`. -/
def clkCalPLLFreqMode2 (PllSrcClk u64PllFreq u32SR u32Fmod : Nat) : PllFreq :=
  let u64SSRATE := PllSrcClk >>> 1 / (u32Fmod * 2) - 1
  checkedFreq raiseFreqMode2
    (fun u64FCLKO => fractionalFreq PllSrcClk u64FCLKO u64SSRATE fun u64tmp =>
      (u64tmp * u32SR / u64SSRATE) <<< 24 / 100 / 1000)
    PllSrcClk u64PllFreq

/-! ## Setting a frequency -/

/-- Frequencies of the CPU's PLL and the word that gives each. Reference: `nu_clk.c:1360
s_au32CAPLLMap`. -/
def s_au32CAPLLMap : List (Nat × BitVec 32) :=
  [(1000000000, 0x000006FA#32), (800000000, 0x00000364#32), (700000000, 0x000006AF#32),
    (648000000, 0x000006A2#32), (600000000, 0x00000696#32)]

/-- Reference: `nu_clk.c:1370 CLK_SetCAPLLClockFreq`. -/
def clkSetCAPLLClockFreq (clk : ClkT) (u32OpMode : BitVec 32) (u64PllFreq : Nat) : Nat × ClkT :=
  match s_au32CAPLLMap.find? fun e =>
      decide (u32OpMode = PLL_OPMODE_INTEGER) && decide (u64PllFreq = e.1) with
  | some e => (e.1, clk.setPLL 0 { clk.PLL 0 with CTL0 := e.2 })
  | none => (0, clk)

/-- Reference: `nu_clk.c:1387 CLK_SetVSIPLLFreq`. -/
def clkSetVSIPLLFreq (clk : ClkT) (u32PllIdx : Fin 6) (u32OpMode : BitVec 32)
    (PllSrcClk u64PllFreq : Nat) : Option (Nat × ClkT) :=
  let pll := clk.PLL u32PllIdx
  let u32CTLVal0 := (pll.CTL0 &&& ~~~modeMsk) ||| u32OpMode <<< 18
  let write (r : PllFreq) (msk0 msk1 ctl2 : BitVec 32) : Nat × ClkT :=
    (r.clk, clk.setPLL u32PllIdx {
      CTL0 := (u32CTLVal0 &&& ~~~msk0) ||| r.reg0
      CTL1 := ((pll.CTL1 &&& ~~~msk1) ||| r.reg1) &&& ~~~pdMsk
      CTL2 := ctl2 })
  if u32OpMode = PLL_OPMODE_INTEGER then
    (clkCalPLLFreqMode0 PllSrcClk u64PllFreq).map fun r =>
      write r (indivMsk ||| fbdivMsk) outdivMsk pll.CTL2
  else if u32OpMode = PLL_OPMODE_FRACTIONAL then
    let r := clkCalPLLFreqMode1 PllSrcClk u64PllFreq
    some (write r (indivMsk ||| fbdivMsk) (outdivMsk ||| fracMsk) pll.CTL2)
  else if u32OpMode = PLL_OPMODE_SPREAD_SPECTRUM then
    let r := clkCalPLLFreqMode2 PllSrcClk u64PllFreq 50000 194
    some (write r (ssrateMsk ||| indivMsk ||| fbdivMsk) (outdivMsk ||| fracMsk) r.reg2)
  else some (0, clk)

/-- Reference: `nu_clk.c:1432 CLK_SetPLLFreq`. -/
def clkSetPLLFreq (clk : ClkT) (u32PllIdx u32OpMode : BitVec 32) (PllSrcClk u64PllFreq : BitVec 64) :
    Option (Nat × ClkT) :=
  if u32PllIdx = CAPLL then some (clkSetCAPLLClockFreq clk u32OpMode u64PllFreq.toNat)
  else if u32PllIdx = SYSPLL then some (SYSPLLFREQCLK, clk)
  else if u32PllIdx = DDRPLL then
    clkSetVSIPLLFreq clk 2 u32OpMode PllSrcClk.toNat u64PllFreq.toNat
  else if u32PllIdx = EPLL then
    clkSetVSIPLLFreq clk 4 u32OpMode PllSrcClk.toNat u64PllFreq.toNat
  else if u32PllIdx = APLL then
    clkSetVSIPLLFreq clk 3 u32OpMode PllSrcClk.toNat u64PllFreq.toNat
  else if u32PllIdx = VPLL then
    clkSetVSIPLLFreq clk 5 u32OpMode PllSrcClk.toNat u64PllFreq.toNat
  else some (0, clk)

end NumakerMA35D1.Clk

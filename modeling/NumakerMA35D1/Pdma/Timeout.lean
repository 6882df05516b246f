import NumakerMA35D1.Lib.BitField
import NumakerMA35D1.Pdma.Driver

/-!
# The idle timeout of a channel

`nu_pdma_timeout_set` turns microseconds into a count of 256 clocks, and the count into the channel's counter,
its low 16 bits, and the channel's prescaler, the bits above. The prescaler scales the counter by powers of two
and does not take the bits' place; the channels 8 and 9 have their prescalers shifted out of the register.
`pdmaTimeout_iff` says when the hardware's timeout is one the specification asks for all the same.

Reference: `drv_pdma.c:335 nu_pdma_timeout_set`, `pdma_reg.h:766 TOUTEN`, `nu_pdma.c:326 PDMA_SetTimeOut`.
-/

namespace NumakerMA35D1.Pdma

open Embedded

/-! ## The registers -/

/-- The registers of a module that concern the timeouts. `TOC k` is the one of the channels `2 k` and
`2 k + 1`. Reference: `pdma_reg.h:765 TOUTEN`, `pdma_reg.h:770 TOC0_1`, `pdma_reg.h:782 TOUTPSC`. -/
structure ToutRegs where
  TOUTEN : BitVec 32
  TOUTIEN : BitVec 32
  TOC : Nat → BitVec 32
  TOUTPSC : BitVec 32
  TOUTPSC1 : BitVec 32

namespace ToutRegs

/-- Reference: `nu_pdma.c:309 PDMA_DisableTimeout`. -/
def disableTimeout (pdma : ToutRegs) (u32Mask : BitVec 32) : ToutRegs :=
  { pdma with TOUTEN := pdma.TOUTEN &&& ~~~u32Mask }

/-- The case of `PDMA_INT_TIMEOUT`. Reference: `nu_pdma.c:386 PDMA_EnableInt`. -/
def enableInt (pdma : ToutRegs) (u32Ch : Nat) : ToutRegs :=
  { pdma with TOUTIEN := pdma.TOUTIEN ||| 1#32 <<< u32Ch }

/-- The case of `PDMA_INT_TIMEOUT`. Reference: `nu_pdma.c:419 PDMA_DisableInt`. -/
def disableInt (pdma : ToutRegs) (u32Ch : Nat) : ToutRegs :=
  { pdma with TOUTIEN := pdma.TOUTIEN &&& ~~~(1#32 <<< u32Ch) }

/-- Reference: `nu_pdma.c:326 PDMA_SetTimeOut`. -/
def setTimeOut (pdma : ToutRegs) (u32Ch : Nat) (u32OnOff : Bool) (u32TimeOutCnt : BitVec 32) : ToutRegs :=
  if u32Ch < PDMA_CH_MAX then
    let u32TOC_Pos := u32Ch % 2 * 16
    let u32TOC_Msk := 0xffff#32 <<< u32TOC_Pos
    let pdma :=
      { pdma with
        TOC := Function.update pdma.TOC (u32Ch / 2)
          ((pdma.TOC (u32Ch / 2) &&& ~~~u32TOC_Msk) ||| u32TimeOutCnt <<< u32TOC_Pos) }
    if u32OnOff then { pdma with TOUTEN := pdma.TOUTEN ||| 1#32 <<< u32Ch }
    else { pdma with TOUTEN := pdma.TOUTEN &&& ~~~(1#32 <<< u32Ch) }
  else pdma

/-- The prescaler of a channel. Reference: `pdma_reg.h:477 TOUTPSC0`, `pdma_reg.h:554 TOUTPSC8`. -/
def prescaler (pdma : ToutRegs) (ch : Nat) : Nat :=
  if ch < 8 then (getField pdma.TOUTPSC (4 * ch) 3).toNat
  else (getField pdma.TOUTPSC1 (4 * (ch - 8)) 3).toNat

/-- The counter of a channel. Reference: `pdma_reg.h:901 PDMA_TOC0_1_TOC0_Pos`. -/
def counter (pdma : ToutRegs) (ch : Nat) : Nat := (getField (pdma.TOC (ch / 2)) (ch % 2 * 16) 16).toNat

/-- The timeout of a channel, in clocks. -/
def ticks (pdma : ToutRegs) (ch : Nat) : Nat := pdma.counter ch * 2 ^ (8 + pdma.prescaler ch)

end ToutRegs

/-! ## The function -/

/-- The divider and the count. `none` is a division by zero. Reference: `drv_pdma.c:353
nu_pdma_timeout_set`. -/
def timeoutSetting (sysclk1 i32Timeout_us : BitVec 32) : Option (BitVec 32 × BitVec 32) :=
  if sysclk1 / 256#32 = 0#32 then none
  else
    let u32ToClk_Max := 1000000#32 / (sysclk1 / 256#32)
    if u32ToClk_Max = 0#32 then none
    else
      let u32Divider := i32Timeout_us / u32ToClk_Max / 65536#32
      let u32TOutCnt := i32Timeout_us / u32ToClk_Max % 65536#32
      if u32Divider > 7#32 then some (7#32, 65536#32 - 1#32) else some (u32Divider, u32TOutCnt)

/-- The registers of a module with the timeout of a channel set. `none` is a division by zero, or a shift by the
width of a word or more, as for the channels 8 and 9. Reference: `drv_pdma.c:351 nu_pdma_timeout_set`. -/
def timeoutSetModule (sysclk1 : BitVec 32) (u32ModChannId : Nat) (i32Timeout_us : BitVec 32)
    (pdma : ToutRegs) : Option ToutRegs :=
  if i32Timeout_us ≠ 0#32 then
    match timeoutSetting sysclk1 i32Timeout_us with
    | none => none
    | some (u32Divider, u32TOutCnt) =>
      let pdma := (pdma.disableTimeout (1#32 <<< u32ModChannId)).enableInt u32ModChannId
      if u32ModChannId < 8 then
        some (ToutRegs.setTimeOut
          { pdma with
            TOUTPSC := (pdma.TOUTPSC &&& ~~~(0x7#32 <<< (4 * u32ModChannId))) |||
              u32Divider <<< (4 * u32ModChannId) }
          u32ModChannId true u32TOutCnt)
      else none
  else some ((pdma.disableInt u32ModChannId).disableTimeout (1#32 <<< u32ModChannId))

/-- The registers of the modules, with the timeout of a channel set; the driver's variables are in
`nuPdmaTimeoutSet`. Reference: `drv_pdma.c:335 nu_pdma_timeout_set`. -/
def nuPdmaTimeoutSetRegs (sysclk1 : BitVec 32) (s : NuPdma) (i32ChannID i32Timeout_us : BitVec 32)
    (regs : Nat → ToutRegs) : Except Halt (Option (Nat → ToutRegs)) := do
  if ← nuPdmaCheckIsNonallocated s i32ChannID then
    return some regs
  let PDMA := i32ChannID.toNat / PDMA_CH_MAX
  return (timeoutSetModule sysclk1 (i32ChannID.toNat % PDMA_CH_MAX) i32Timeout_us (regs PDMA)).map
    (Function.update regs PDMA)

/-! ## Specification -/

/-- The longest timeout of the hardware, in clocks. -/
def maxTicks : Nat := 65535 * 2 ^ (8 + 7)

/-- The timeout of a channel in clocks, by its number among all. -/
def channelTicks (regs : Nat → ToutRegs) (ch : BitVec 32) : Nat :=
  (regs (ch.toNat / PDMA_CH_MAX)).ticks (ch.toNat % PDMA_CH_MAX)

/-- A timeout is set: not shorter than the request where the hardware has one that long, not shorter than that
of any shorter request, and with every other channel as it was. A request of zero only ends the timeout. -/
structure TimeoutRight (sysclk1 : BitVec 32) (s : NuPdma) (ch t : BitVec 32) (regs regs' : Nat → ToutRegs) :
    Prop where
  set : nuPdmaTimeoutSetRegs sysclk1 s ch t regs = .ok (some regs')
  notShorter : t ≠ 0#32 → t.toNat * sysclk1.toNat ≤ 1000000 * maxTicks →
    t.toNat * sysclk1.toNat ≤ 1000000 * channelTicks regs' ch
  monotone : t ≠ 0#32 → ∀ t' : BitVec 32, t' ≠ 0#32 → t' ≤ t →
    ∃ regs'', nuPdmaTimeoutSetRegs sysclk1 s ch t' regs = .ok (some regs'') ∧
      channelTicks regs'' ch ≤ channelTicks regs' ch
  others : ∀ m c, c < PDMA_CH_MAX → (m, c) ≠ (ch.toNat / PDMA_CH_MAX, ch.toNat % PDMA_CH_MAX) →
    (regs' m).prescaler c = (regs m).prescaler c ∧ (regs' m).counter c = (regs m).counter c

/-! ## The fields -/

namespace ToutRegs

variable {pdma : ToutRegs} {ch c : Nat} {cnt d : BitVec 32}

theorem setTimeOut_counter (hch : ch < PDMA_CH_MAX) (hcnt : cnt.toNat < 2 ^ 16) :
    (pdma.setTimeOut ch true cnt).counter ch = cnt.toNat := by
  have hpos : ch % 2 * 16 + 16 ≤ 32 := by omega
  rw [setTimeOut, if_pos hch, if_pos rfl, counter]
  simp only [Function.update_self]
  have hmask : 0xffff#32 = fieldMask 16 := rfl
  rw [hmask]
  exact congrArg BitVec.toNat (getField_write _ hpos hcnt)

theorem setTimeOut_counter_ne (hne : c ≠ ch) (hch : ch < PDMA_CH_MAX) (hcnt : cnt.toNat < 2 ^ 16) :
    (pdma.setTimeOut ch true cnt).counter c = pdma.counter c := by
  rw [setTimeOut, if_pos hch, if_pos rfl, counter, counter]
  by_cases hword : c / 2 = ch / 2
  · have hapart : c % 2 * 16 + 16 ≤ ch % 2 * 16 ∨ ch % 2 * 16 + 16 ≤ c % 2 * 16 := by omega
    simp only [hword, Function.update_self]
    have hmask : 0xffff#32 = fieldMask 16 := rfl
    rw [hmask]
    exact congrArg BitVec.toNat (getField_write_disjoint _ hapart hcnt)
  · simp only [Function.update_of_ne hword]

theorem setTimeOut_prescaler (hch : ch < PDMA_CH_MAX) :
    (pdma.setTimeOut ch true cnt).prescaler c = pdma.prescaler c := by
  rw [setTimeOut, if_pos hch, if_pos rfl]
  rfl

/-- The registers with the prescaler of a channel below 8 written. -/
def setPrescaler (pdma : ToutRegs) (ch : Nat) (d : BitVec 32) : ToutRegs :=
  { pdma with TOUTPSC := (pdma.TOUTPSC &&& ~~~(0x7#32 <<< (4 * ch))) ||| d <<< (4 * ch) }

theorem setPrescaler_prescaler (hch : ch < 8) (hd : d.toNat < 2 ^ 3) :
    (pdma.setPrescaler ch d).prescaler ch = d.toNat := by
  have hpos : 4 * ch + 3 ≤ 32 := by omega
  rw [prescaler, if_pos hch]
  have hmask : 0x7#32 = fieldMask 3 := rfl
  rw [setPrescaler, hmask]
  exact congrArg BitVec.toNat (getField_write _ hpos hd)

theorem setPrescaler_prescaler_ne (hne : c ≠ ch) (hd : d.toNat < 2 ^ 3) :
    (pdma.setPrescaler ch d).prescaler c = pdma.prescaler c := by
  rw [prescaler, prescaler]
  split
  · have hapart : 4 * c + 3 ≤ 4 * ch ∨ 4 * ch + 3 ≤ 4 * c := by omega
    have hmask : 0x7#32 = fieldMask 3 := rfl
    rw [setPrescaler, hmask]
    exact congrArg BitVec.toNat (getField_write_disjoint _ hapart hd)
  · rfl

theorem setPrescaler_counter : (pdma.setPrescaler ch d).counter c = pdma.counter c := rfl

end ToutRegs

/-! ## The count -/

section

variable {clk t n : Nat}

/-- The count of 256 clocks that stands for a request. -/
def timeoutCount (clk t : Nat) : Nat := t / (1000000 / (clk / 256))

/-- The timeout that is set for a count, in clocks. -/
def ticksOf (n : Nat) : Nat := if 8 * 65536 ≤ n then maxTicks else n % 65536 * 2 ^ (8 + n / 65536)

/-- The clocks for which nothing is divided by zero. -/
def ClockServed (clk : Nat) : Prop := 256 ≤ clk ∧ clk / 256 ≤ 1000000

theorem ClockServed.div_pos (h : ClockServed clk) : 0 < 1000000 / (clk / 256) :=
  Nat.div_pos h.2 (Nat.div_pos h.1 (by decide))

/-- Every lesser count is that of a shorter request. -/
theorem exists_timeoutCount (h : ClockServed clk) (hn : n ≤ timeoutCount clk t) :
    ∃ t' ≤ t, timeoutCount clk t' = n := by
  have hpos := h.div_pos
  refine ⟨n * (1000000 / (clk / 256)), ?_, Nat.mul_div_cancel n hpos⟩
  exact (Nat.mul_le_mul_right _ hn).trans (Nat.div_mul_le_self t _)

theorem timeoutCount_mono {t' : Nat} (h : t' ≤ t) : timeoutCount clk t' ≤ timeoutCount clk t :=
  Nat.div_le_div_right h

/-- A request whose count does not pass the limit is not too long for the hardware. -/
theorem representable_of_count (h : ClockServed clk) (hn : timeoutCount clk t < 8 * 65536) :
    t * clk ≤ 1000000 * maxTicks := by
  have hm : 0 < clk / 256 := Nat.div_pos h.1 (by decide)
  have hlt : t < 8 * 65536 * (1000000 / (clk / 256)) := (Nat.div_lt_iff_lt_mul h.div_pos).1 hn
  have hclk : clk ≤ 512 * (clk / 256) := by omega
  calc t * clk
      ≤ 8 * 65536 * (1000000 / (clk / 256)) * (512 * (clk / 256)) := Nat.mul_le_mul hlt.le hclk
    _ = 8 * 65536 * 512 * (1000000 / (clk / 256) * (clk / 256)) := by ring
    _ ≤ 8 * 65536 * 512 * 1000000 := Nat.mul_le_mul_left _ (Nat.div_mul_le_self _ _)
    _ ≤ 1000000 * maxTicks := by decide

/-- Within a block of counts the timeout is that of the block's prescaler. -/
theorem ticksOf_block {k r : Nat} (hk : k < 8) (hr : r < 65536) :
    ticksOf (k * 65536 + r) = r * 2 ^ (8 + k) := by
  have hlt : ¬ 8 * 65536 ≤ k * 65536 + r := by omega
  have hmod : (k * 65536 + r) % 65536 = r := by omega
  have hdiv : (k * 65536 + r) / 65536 = k := by omega
  rw [ticksOf, if_neg hlt, hmod, hdiv]

/-- No timeout of a block is longer than the last one. -/
theorem ticksOf_le_block {k : Nat} (hk : k < 8) (hn : n < (k + 1) * 65536) :
    ticksOf n ≤ 65535 * 2 ^ (8 + k) := by
  have hlt : ¬ 8 * 65536 ≤ n := by omega
  rw [ticksOf, if_neg hlt]
  exact Nat.mul_le_mul (by omega) (Nat.pow_le_pow_right (by decide) (by omega))

theorem ticksOf_le_max (n : Nat) : ticksOf n ≤ maxTicks := by
  by_cases h : 8 * 65536 ≤ n
  · rw [ticksOf, if_pos h]
  · exact ticksOf_le_block (k := 7) (by decide) (by omega)

/-- The timeout is not shorter than that of any lesser count if and only if the count is in the first block, in
the upper half of a later one, or past the limit. -/
theorem ticksOf_mono_iff :
    (∀ n' ≤ n, ticksOf n' ≤ ticksOf n) ↔ n < 65536 ∨ 8 * 65536 ≤ n ∨ 32768 ≤ n % 65536 := by
  by_cases hlimit : 8 * 65536 ≤ n
  · refine iff_of_true (fun n' _ => ?_) (.inr (.inl hlimit))
    have hn : ticksOf n = maxTicks := if_pos hlimit
    rw [hn]
    exact ticksOf_le_max n'
  obtain ⟨k, r, hk, hr, rfl⟩ : ∃ k r, k < 8 ∧ r < 65536 ∧ n = k * 65536 + r :=
    ⟨n / 65536, n % 65536, by omega, by omega, by omega⟩
  rw [ticksOf_block hk hr]
  cases k with
  | zero =>
    refine iff_of_true (fun n' hn' => ?_) (.inl (by omega))
    have hblock := ticksOf_block (k := 0) (r := n') (by decide) (by omega)
    rw [Nat.zero_mul, Nat.zero_add] at hblock
    rw [hblock]
    exact Nat.mul_le_mul_right _ (by omega)
  | succ k =>
    -- the last count of the block before
    have hpow : 2 ^ (8 + (k + 1)) = 2 * 2 ^ (8 + k) := by rw [← Nat.add_assoc, Nat.pow_succ, Nat.mul_comm]
    have hpos : 0 < 2 ^ (8 + k) := Nat.two_pow_pos _
    have hmod : ((k + 1) * 65536 + r) % 65536 = r := by omega
    have hlast : ticksOf (k * 65536 + 65535) = 65535 * 2 ^ (8 + k) :=
      ticksOf_block (by omega) (by decide)
    have hhalf : 65535 * 2 ^ (8 + k) ≤ r * 2 ^ (8 + (k + 1)) ↔ 32768 ≤ r := by
      rw [hpow, ← Nat.mul_assoc, Nat.mul_le_mul_right_iff hpos]
      omega
    rw [hmod]
    constructor
    · intro h
      have hle := h (k * 65536 + 65535) (by omega)
      rw [hlast, hhalf] at hle
      exact .inr (.inr hle)
    · rintro (h | h | h)
      · omega
      · omega
      · intro n' hn'
        rcases Nat.lt_or_ge n' ((k + 1) * 65536) with hlt | hge
        · exact (ticksOf_le_block (by omega) hlt).trans (hhalf.2 h)
        · obtain ⟨r', rfl⟩ : ∃ r', n' = (k + 1) * 65536 + r' := ⟨n' - (k + 1) * 65536, by omega⟩
          rw [ticksOf_block hk (by omega)]
          exact Nat.mul_le_mul_right _ (by omega)

end

/-! ## The setting -/

section

variable {clk t : BitVec 32} {ch : Nat} {r : ToutRegs}

theorem timeoutSetting_some (h : ClockServed clk.toNat) (t : BitVec 32) :
    ∃ d c, timeoutSetting clk t = some (d, c) ∧ d.toNat < 2 ^ 3 ∧ c.toNat < 2 ^ 16 ∧
      c.toNat * 2 ^ (8 + d.toNat) = ticksOf (timeoutCount clk.toNat t.toNat) := by
  have hdiv : clk / 256#32 ≠ 0#32 := by
    intro h0
    have hval : clk.toNat / 256 = 0 := congrArg BitVec.toNat h0
    have hlow := h.1
    omega
  have hmax : (1000000#32 / (clk / 256#32)).toNat = 1000000 / (clk.toNat / 256) := by
    rw [BitVec.toNat_udiv, BitVec.toNat_udiv]
    rfl
  have hmax0 : 1000000#32 / (clk / 256#32) ≠ 0#32 := by
    intro h0
    have hval : (1000000#32 / (clk / 256#32)).toNat = 0 := congrArg BitVec.toNat h0
    have hpos := h.div_pos
    omega
  have hcount : (t / (1000000#32 / (clk / 256#32))).toNat = timeoutCount clk.toNat t.toNat := by
    rw [BitVec.toNat_udiv, hmax, timeoutCount]
  have hd : (t / (1000000#32 / (clk / 256#32)) / 65536#32).toNat =
      timeoutCount clk.toNat t.toNat / 65536 := by
    rw [BitVec.toNat_udiv, hcount]
    rfl
  have hc : (t / (1000000#32 / (clk / 256#32)) % 65536#32).toNat =
      timeoutCount clk.toNat t.toNat % 65536 := by
    rw [BitVec.toNat_umod, hcount]
    rfl
  rw [timeoutSetting, if_neg hdiv]
  dsimp only
  rw [if_neg hmax0]
  by_cases hbig : 8 * 65536 ≤ timeoutCount clk.toNat t.toNat
  · have hgt : t / (1000000#32 / (clk / 256#32)) / 65536#32 > 7#32 := by
      rw [gt_iff_lt, BitVec.lt_def, hd]
      show 7 < _
      omega
    rw [if_pos hgt]
    refine ⟨_, _, rfl, by decide, by decide, ?_⟩
    rw [ticksOf, if_pos hbig]
    rfl
  · have hle : ¬ t / (1000000#32 / (clk / 256#32)) / 65536#32 > 7#32 := by
      rw [gt_iff_lt, BitVec.lt_def, hd]
      show ¬ 7 < _
      omega
    rw [if_neg hle]
    refine ⟨_, _, rfl, by omega, by omega, ?_⟩
    rw [ticksOf, if_neg hbig, hd, hc]

theorem timeoutSetting_none (h : ¬ ClockServed clk.toNat) (t : BitVec 32) : timeoutSetting clk t = none := by
  rw [timeoutSetting]
  split
  · rfl
  · rename_i hdiv
    have hval : clk.toNat / 256 ≠ 0 := fun h0 => hdiv (BitVec.eq_of_toNat_eq h0)
    have hzero : 1000000#32 / (clk / 256#32) = 0#32 := by
      apply BitVec.eq_of_toNat_eq
      rw [BitVec.toNat_udiv, BitVec.toNat_udiv]
      exact Nat.div_eq_of_lt (Nat.lt_of_not_le fun hle => h ⟨by omega, hle⟩)
    exact if_pos hzero

/-- Another channel of the module is as it was. -/
def KeepsOthers (ch : Nat) (r r' : ToutRegs) : Prop :=
  ∀ c, c ≠ ch → r'.prescaler c = r.prescaler c ∧ r'.counter c = r.counter c

theorem timeoutSetModule_some (ht : t ≠ 0#32) (h : ClockServed clk.toNat) (hch : ch < 8) (r : ToutRegs) :
    ∃ r', timeoutSetModule clk ch t r = some r' ∧
      r'.ticks ch = ticksOf (timeoutCount clk.toNat t.toNat) ∧ KeepsOthers ch r r' := by
  obtain ⟨d, c, hset, hd, hc, hticks⟩ := timeoutSetting_some h t
  have hmax : ch < PDMA_CH_MAX := Nat.lt_trans hch (by decide)
  have heq : timeoutSetModule clk ch t r =
      some ((((r.disableTimeout (1#32 <<< ch)).enableInt ch).setPrescaler ch d).setTimeOut ch true c) := by
    rw [timeoutSetModule, if_pos ht, hset]
    exact if_pos hch
  refine ⟨_, heq, ?_, fun c' hne => ⟨?_, ?_⟩⟩
  · rw [ToutRegs.ticks, ToutRegs.setTimeOut_counter hmax hc, ToutRegs.setTimeOut_prescaler hmax,
      ToutRegs.setPrescaler_prescaler hch hd, hticks]
  · rw [ToutRegs.setTimeOut_prescaler hmax, ToutRegs.setPrescaler_prescaler_ne hne hd]
    rfl
  · rw [ToutRegs.setTimeOut_counter_ne hne hmax hc, ToutRegs.setPrescaler_counter]
    rfl

theorem timeoutSetModule_none (ht : t ≠ 0#32) (h : ¬ (ClockServed clk.toNat ∧ ch < 8)) (r : ToutRegs) :
    timeoutSetModule clk ch t r = none := by
  rw [timeoutSetModule, if_pos ht]
  by_cases hclk : ClockServed clk.toNat
  · obtain ⟨d, c, hset, _⟩ := timeoutSetting_some hclk t
    rw [hset]
    exact if_neg fun hch => h ⟨hclk, hch⟩
  · rw [timeoutSetting_none hclk]

theorem timeoutSetModule_zero (clk : BitVec 32) (ch : Nat) (r : ToutRegs) :
    ∃ r', timeoutSetModule clk ch 0#32 r = some r' ∧ KeepsOthers ch r r' :=
  ⟨_, if_neg fun h => h rfl, fun _ _ => ⟨rfl, rfl⟩⟩

end

/-! ## The driver's function -/

section

variable {clk t : BitVec 32} {s : NuPdma} {ch : BitVec 32} {regs regs' : Nat → ToutRegs}

theorem nuPdmaTimeoutSetRegs_eq (hc : nuPdmaCheckIsNonallocated s ch = .ok false) :
    nuPdmaTimeoutSetRegs clk s ch t regs =
      .ok ((timeoutSetModule clk (ch.toNat % PDMA_CH_MAX) t (regs (ch.toNat / PDMA_CH_MAX))).map
        (Function.update regs (ch.toNat / PDMA_CH_MAX))) := by
  rw [nuPdmaTimeoutSetRegs, hc]
  rfl

/-- What keeps the other channels of a module keeps all others. -/
theorem others_of_keeps {r' : ToutRegs}
    (h : KeepsOthers (ch.toNat % PDMA_CH_MAX) (regs (ch.toNat / PDMA_CH_MAX)) r') (m c : Nat)
    (hne : (m, c) ≠ (ch.toNat / PDMA_CH_MAX, ch.toNat % PDMA_CH_MAX)) :
    (Function.update regs (ch.toNat / PDMA_CH_MAX) r' m).prescaler c = (regs m).prescaler c ∧
      (Function.update regs (ch.toNat / PDMA_CH_MAX) r' m).counter c = (regs m).counter c := by
  by_cases hm : m = ch.toNat / PDMA_CH_MAX
  · subst hm
    rw [Function.update_self]
    exact h c fun hc => hne (by rw [hc])
  · rw [Function.update_of_ne hm]
    exact ⟨rfl, rfl⟩

/-- A timeout that is set has the clocks of its count. -/
theorem timeoutSet_some (hc : nuPdmaCheckIsNonallocated s ch = .ok false) (ht : t ≠ 0#32)
    (h : ClockServed clk.toNat) (hch : ch.toNat % PDMA_CH_MAX < 8) (regs : Nat → ToutRegs) :
    ∃ regs', nuPdmaTimeoutSetRegs clk s ch t regs = .ok (some regs') ∧
      channelTicks regs' ch = ticksOf (timeoutCount clk.toNat t.toNat) ∧
      ∀ m c, (m, c) ≠ (ch.toNat / PDMA_CH_MAX, ch.toNat % PDMA_CH_MAX) →
        (regs' m).prescaler c = (regs m).prescaler c ∧ (regs' m).counter c = (regs m).counter c := by
  obtain ⟨r', hset, hticks, hkeeps⟩ := timeoutSetModule_some ht h hch (regs (ch.toNat / PDMA_CH_MAX))
  refine ⟨Function.update regs (ch.toNat / PDMA_CH_MAX) r', ?_, ?_, others_of_keeps hkeeps⟩
  · rw [nuPdmaTimeoutSetRegs_eq hc, hset]
    rfl
  · rw [channelTicks, Function.update_self, hticks]

theorem timeoutSet_not_ok (hc : nuPdmaCheckIsNonallocated s ch = .ok false) (ht : t ≠ 0#32)
    (h : ¬ (ClockServed clk.toNat ∧ ch.toNat % PDMA_CH_MAX < 8)) :
    nuPdmaTimeoutSetRegs clk s ch t regs ≠ .ok (some regs') := by
  rw [nuPdmaTimeoutSetRegs_eq hc, timeoutSetModule_none ht h]
  intro heq
  cases heq

/-- A request of zero ends the timeout and changes no channel's fields. -/
theorem timeoutRight_zero (hc : nuPdmaCheckIsNonallocated s ch = .ok false) :
    ∃ regs', TimeoutRight clk s ch 0#32 regs regs' := by
  obtain ⟨r', hset, hkeeps⟩ :=
    timeoutSetModule_zero clk (ch.toNat % PDMA_CH_MAX) (regs (ch.toNat / PDMA_CH_MAX))
  refine ⟨Function.update regs (ch.toNat / PDMA_CH_MAX) r', ?_, fun h => absurd rfl h,
    fun h => absurd rfl h, fun m c _ => others_of_keeps hkeeps m c⟩
  rw [nuPdmaTimeoutSetRegs_eq hc, hset]
  rfl

/-- The timeout of a count is right if and only if it is not shorter than the request and than those of lesser
counts. -/
theorem timeoutRight_iff_ticks (hc : nuPdmaCheckIsNonallocated s ch = .ok false) (ht : t ≠ 0#32)
    (h : ClockServed clk.toNat) (hch : ch.toNat % PDMA_CH_MAX < 8) :
    (∃ regs', TimeoutRight clk s ch t regs regs') ↔
      (t.toNat * clk.toNat ≤ 1000000 * maxTicks →
        t.toNat * clk.toNat ≤ 1000000 * ticksOf (timeoutCount clk.toNat t.toNat)) ∧
      ∀ n' ≤ timeoutCount clk.toNat t.toNat, ticksOf n' ≤ ticksOf (timeoutCount clk.toNat t.toNat) := by
  obtain ⟨regs₁, hset₁, hticks₁, hothers⟩ := timeoutSet_some hc ht h hch regs
  constructor
  · rintro ⟨regs', hset, hshort, hmono, _⟩
    obtain rfl : regs' = regs₁ := by
      rw [hset₁] at hset
      exact (Option.some.inj (Except.ok.inj hset)).symm
    rw [hticks₁] at hshort hmono
    refine ⟨hshort ht, fun n' hn' => ?_⟩
    obtain ⟨x, hx, hcount⟩ := exists_timeoutCount h hn'
    rcases Nat.eq_zero_or_pos x with rfl | hpos
    · have hzero : n' = 0 := by rw [← hcount, timeoutCount, Nat.zero_div]
      rw [hzero]
      exact Nat.zero_le _
    · -- the shorter request as a word
      have hlt : x < 2 ^ 32 := Nat.lt_of_le_of_lt hx t.isLt
      have hval : (BitVec.ofNat 32 x).toNat = x := BitVec.toNat_ofNat x 32 ▸ Nat.mod_eq_of_lt hlt
      have hne : BitVec.ofNat 32 x ≠ 0#32 := by
        intro h0
        rw [h0] at hval
        exact absurd hval (Nat.ne_of_lt hpos)
      obtain ⟨regs'', hset'', hle⟩ := hmono ht _ hne (by rw [BitVec.le_def, hval]; exact hx)
      obtain ⟨regs₂, hset₂, hticks₂, _⟩ := timeoutSet_some hc hne h hch regs
      obtain rfl : regs'' = regs₂ := by
        rw [hset₂] at hset''
        exact (Option.some.inj (Except.ok.inj hset'')).symm
      rwa [hticks₂, hval, hcount] at hle
  · rintro ⟨hshort, hmono⟩
    refine ⟨regs₁, hset₁, fun _ => hticks₁ ▸ hshort, fun _ t' ht' hle => ?_, fun m c _ => hothers m c⟩
    obtain ⟨regs₂, hset₂, hticks₂, _⟩ := timeoutSet_some hc ht' h hch regs
    refine ⟨regs₂, hset₂, ?_⟩
    rw [hticks₁, hticks₂]
    exact hmono _ (timeoutCount_mono hle)

/-- The two conditions on a count. -/
theorem ticks_right_iff {clk t : Nat} (h : ClockServed clk) :
    ((t * clk ≤ 1000000 * maxTicks → t * clk ≤ 1000000 * ticksOf (timeoutCount clk t)) ∧
      ∀ n' ≤ timeoutCount clk t, ticksOf n' ≤ ticksOf (timeoutCount clk t)) ↔
    8 * 65536 ≤ timeoutCount clk t ∨
      (timeoutCount clk t < 65536 ∨ 32768 ≤ timeoutCount clk t % 65536) ∧
        t * clk ≤ 1000000 * (timeoutCount clk t % 65536 * 2 ^ (8 + timeoutCount clk t / 65536)) := by
  rw [ticksOf_mono_iff]
  by_cases hlimit : 8 * 65536 ≤ timeoutCount clk t
  · refine iff_of_true ⟨?_, .inr (.inl hlimit)⟩ (.inl hlimit)
    rw [ticksOf, if_pos hlimit]
    exact fun hle => hle
  · rw [ticksOf, if_neg hlimit, or_iff_right hlimit, or_iff_right hlimit,
      imp_iff_right (representable_of_count h (Nat.lt_of_not_le hlimit)), and_comm]

/-- The timeout of an allocated channel is set right exactly for a request of zero, and for the channels 0
to 7 of a module, with a clock for which nothing is divided by zero, where the count is past the limit, or
its timeout is long enough and it is in the first block or in the upper half of a later one. Reference:
`drv_pdma.c:335 nu_pdma_timeout_set`. -/
theorem pdmaTimeout_iff (clk : BitVec 32) (s : NuPdma) (ch t : BitVec 32) (regs : Nat → ToutRegs)
    (hc : nuPdmaCheckIsNonallocated s ch = .ok false) :
    (∃ regs', TimeoutRight clk s ch t regs regs') ↔
      t = 0#32 ∨ ClockServed clk.toNat ∧ ch.toNat % PDMA_CH_MAX < 8 ∧
        (8 * 65536 ≤ timeoutCount clk.toNat t.toNat ∨
          (timeoutCount clk.toNat t.toNat < 65536 ∨
            32768 ≤ timeoutCount clk.toNat t.toNat % 65536) ∧
          t.toNat * clk.toNat ≤ 1000000 * (timeoutCount clk.toNat t.toNat % 65536 *
            2 ^ (8 + timeoutCount clk.toNat t.toNat / 65536))) := by
  by_cases ht : t = 0#32
  · subst ht
    exact iff_of_true (timeoutRight_zero hc) (.inl rfl)
  rw [or_iff_right ht]
  by_cases h : ClockServed clk.toNat ∧ ch.toNat % PDMA_CH_MAX < 8
  · obtain ⟨hclk, hch⟩ := h
    rw [timeoutRight_iff_ticks hc ht hclk hch, ticks_right_iff hclk, and_iff_right hclk, and_iff_right hch]
  · refine iff_of_false ?_ fun hright => h ⟨hright.1, hright.2.1⟩
    rintro ⟨regs', hright⟩
    exact timeoutSet_not_ok hc ht h hright.set

/-- The driver with the first channel of each module allocated. -/
def firstChannels : NuPdma := { NuPdma.reset with nuPdmaChnMaskArr := fun _ => 1#32 }

/-- The registers of the modules after reset. -/
def toutReset : Nat → ToutRegs := fun _ => ⟨0, 0, fun _ => 0, 0, 0⟩

/-- A millisecond with the system clock at 180 MHz. -/
theorem pdmaTimeout_iff_millisecond :
    (∃ regs', TimeoutRight 180000000#32 firstChannels 0#32 1000#32 toutReset regs') ↔
      1000#32 = 0#32 ∨ ClockServed (180000000#32).toNat ∧ (0#32).toNat % PDMA_CH_MAX < 8 ∧
        (8 * 65536 ≤ timeoutCount (180000000#32).toNat (1000#32).toNat ∨
          (timeoutCount (180000000#32).toNat (1000#32).toNat < 65536 ∨
            32768 ≤ timeoutCount (180000000#32).toNat (1000#32).toNat % 65536) ∧
          (1000#32).toNat * (180000000#32).toNat ≤
            1000000 * (timeoutCount (180000000#32).toNat (1000#32).toNat % 65536 *
              2 ^ (8 + timeoutCount (180000000#32).toNat (1000#32).toNat / 65536))) :=
  pdmaTimeout_iff 180000000#32 firstChannels 0#32 1000#32 toutReset rfl

/-- A request of 65536 microseconds with the system clock at 180 MHz sets a counter of zero. -/
theorem not_timeoutRight_65536 :
    ¬ ∃ regs', TimeoutRight 180000000#32 firstChannels 0#32 65536#32 toutReset regs' := by
  have hclk : ClockServed (180000000#32).toNat := ⟨by decide, by decide⟩
  rw [timeoutRight_iff_ticks rfl (by decide) hclk (by decide), ticks_right_iff hclk]
  decide

end

end NumakerMA35D1.Pdma

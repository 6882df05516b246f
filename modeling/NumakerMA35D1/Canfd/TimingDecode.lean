import NumakerMA35D1.Canfd.Timing
import NumakerMA35D1.Lib.BitField
import NumakerMA35D1.Lib.Outcome

/-!
# The bit rates that the timing registers give

The search of `canfdCalculateTimingValues` multiplies in 32 bits and divides by the products.
`timingChecked` is the search with every division and every product checked. Where it runs through
and hits in FD operation, the registers that `canfdSetTimingConfig` writes decode to the bit rates
searched for, for a nominal rate limited to 1 Mbit/s (`canfdTiming_decodes`).
-/

namespace NumakerMA35D1.Canfd

open Embedded

/-! ## The search checked -/

/-- What goes wrong in a search. -/
inductive TimingFault
  | divByZero
  | wrap
deriving DecidableEq

/-- A product kept in an `int`. -/
def mulInt (a b : Nat) : Except TimingFault Nat :=
  if a * b < 2 ^ 31 then .ok (a * b) else .error .wrap

/-- A product kept in a `uint32_t`. -/
def mulU32 (a b : Nat) : Except TimingFault Nat :=
  if a * b < 2 ^ 32 then .ok (a * b) else .error .wrap

/-- A quotient. -/
def divChecked (a b : Nat) : Except TimingFault Nat :=
  if b = 0 then .error .divByZero else .ok (a / b)

/-- `dataTiming` with its products checked. Reference: `nu_canfd.c:546
CANFD_CalculateTimingValues`. -/
def dataTimingChecked (u32DataBaudRate u32SourceClockHz : BitVec 32) (u8PreDivider : BitVec 8) :
    Except TimingFault (Option (BitVec 8 × Nat)) :=
  timeQuanta.findSomeM? fun i32Dtq => do
    let i32Dclk ← mulInt u32DataBaudRate.toNat i32Dtq
    (List.range' 1 0x20).findSomeM? fun u8DataPrescaler => do
      let i32Dclk2 ← mulInt i32Dclk u8DataPrescaler
      let clock ← mulU32 i32Dclk2 u8PreDivider.toNat
      return if u32SourceClockHz.toNat = clock then some (BitVec.ofNat 8 u8DataPrescaler, i32Dtq)
        else none

/-- `canfdCalculateTimingValues` with its divisions and products checked. Reference:
`nu_canfd.c:506 CANFD_CalculateTimingValues`. -/
def timingChecked (fdoe : Bool) (u32NominalBaudRate u32DataBaudRate u32SourceClockHz : BitVec 32) :
    Except TimingFault (Option CanfdTimeingConfig) :=
  let u32NominalBaudRate :=
    if u32NominalBaudRate > MAX_NOMINAL_BAUDRATE then MAX_NOMINAL_BAUDRATE else u32NominalBaudRate
  timeQuanta.findSomeM? fun i32Ntq => do
    let i32Nclk ← mulInt u32NominalBaudRate.toNat i32Ntq
    (List.range' 1 0x400).findSomeM? fun u16NominalPrescaler => do
      let i32Nclk2 ← mulInt i32Nclk u16NominalPrescaler
      let preDivider ← divChecked u32SourceClockHz.toNat i32Nclk2
      if preDivider ≤ 5 ∧ u32SourceClockHz.toNat % i32Nclk2 = 0 then
        let psConfig : CanfdTimeingConfig :=
          { (default : CanfdTimeingConfig) with
            u16NominalPrescaler := BitVec.ofNat 16 u16NominalPrescaler
            u8PreDivider := BitVec.ofNat 8 preDivider }
        if fdoe then
          let u32DataBaudRate :=
            if u32DataBaudRate = 0 then u32NominalBaudRate else u32DataBaudRate
          if u32DataBaudRate = u32NominalBaudRate ∧ u16NominalPrescaler ≤ 0x20 then
            return some (canfdGetSegments u32NominalBaudRate u32DataBaudRate i32Ntq i32Ntq
              { psConfig with u8DataPrescaler := BitVec.ofNat 8 u16NominalPrescaler })
          else
            let found ← dataTimingChecked u32DataBaudRate u32SourceClockHz psConfig.u8PreDivider
            return found.map fun (u8DataPrescaler, i32Dtq) =>
              canfdGetSegments u32NominalBaudRate u32DataBaudRate i32Ntq i32Dtq
                { psConfig with u8DataPrescaler }
        else
          return some
            (canfdGetSegments u32NominalBaudRate 0 0 0 { psConfig with u8DataPrescaler := 0 })
      else
        return none

/-! ## The registers decoded -/

/-- The clock divider, the prescaler and the segments that the registers say, each one more than its
field. Reference: `clk_reg.h:2357 CLK_CLKDIV0_CANFD0DIV_Msk`, `canfd_reg.h:1158
CANFD_NBTP_NTSEG2_Pos`, `canfd_reg.h:1089 CANFD_DBTP_DTSEG2_Pos`. -/
def CanfdT.preDivider (c : CanfdT) : Nat := (getField c.CLKDIV 0 3).toNat + 1
@[inherit_doc CanfdT.preDivider]
def CanfdT.nbrp (c : CanfdT) : Nat := (getField c.NBTP 16 9).toNat + 1
@[inherit_doc CanfdT.preDivider]
def CanfdT.ntseg1 (c : CanfdT) : Nat := (getField c.NBTP 8 8).toNat + 1
@[inherit_doc CanfdT.preDivider]
def CanfdT.ntseg2 (c : CanfdT) : Nat := (getField c.NBTP 0 7).toNat + 1
@[inherit_doc CanfdT.preDivider]
def CanfdT.dbrp (c : CanfdT) : Nat := (getField c.DBTP 16 5).toNat + 1
@[inherit_doc CanfdT.preDivider]
def CanfdT.dtseg1 (c : CanfdT) : Nat := (getField c.DBTP 8 5).toNat + 1
@[inherit_doc CanfdT.preDivider]
def CanfdT.dtseg2 (c : CanfdT) : Nat := (getField c.DBTP 4 4).toNat + 1

/-- The registers give the bit rates `nominal` and, in FD operation, `data` from the source clock,
and the segments they say are the ones computed, which fit their fields. -/
structure TimingRight (c : CanfdT) (psConfig : CanfdTimeingConfig) (fdoe : Bool)
    (nominal data clock : Nat) : Prop where
  nominalRate : clock = nominal * (1 + c.ntseg1 + c.ntseg2) * c.nbrp * c.preDivider
  nominalSeg1 : c.ntseg1 = psConfig.u8NominalPhaseSeg1.toNat + psConfig.u8NominalPropSeg.toNat
  nominalSeg2 : c.ntseg2 = psConfig.u8NominalPhaseSeg2.toNat
  dataRate : fdoe = true → clock = data * (1 + c.dtseg1 + c.dtseg2) * c.dbrp * c.preDivider
  dataSeg1 : fdoe = true →
    c.dtseg1 = psConfig.u8DataPhaseSeg1.toNat + psConfig.u8DataPropSeg.toNat
  dataSeg2 : fdoe = true → c.dtseg2 = psConfig.u8DataPhaseSeg2.toNat

/-- The FD operation bit of a controller. -/
def CanfdT.fdoe (c : CanfdT) : Bool := c.CCCR &&& cccrFdoeMsk ≠ 0#32

/-- Requested bit rates are decoded from the registers wherever the search hits, and the search
divides by no zero and wraps no product. A data rate of zero stands for the nominal one. -/
def TimingDecodes (psCanfd : CanfdT) (u32NominalBaudRate u32DataBaudRate
    u32SourceClockHz : BitVec 32) : Prop :=
  (∃ r, timingChecked psCanfd.fdoe u32NominalBaudRate u32DataBaudRate u32SourceClockHz = .ok r) ∧
  ∀ psConfig, canfdCalculateTimingValues psCanfd.fdoe u32NominalBaudRate u32DataBaudRate
      u32SourceClockHz = some psConfig →
    TimingRight (canfdSetTimingConfig psCanfd psConfig) psConfig psCanfd.fdoe
      u32NominalBaudRate.toNat
      (if u32DataBaudRate = 0 then u32NominalBaudRate else u32DataBaudRate).toNat
      u32SourceClockHz.toNat

section

variable {fdoe : Bool} {N D clk : BitVec 32} {a b : Nat} {psConfig cfg : CanfdTimeingConfig}
  {psCanfd : CanfdT}

/-! ## The segments -/

theorem timeQuanta_bounds {ntq : Nat} (h : ntq ∈ timeQuanta) : 9 ≤ ntq ∧ ntq ≤ 20 := by
  revert ntq
  decide

/-- The segments of a bit and the synchronisation segment are all its quanta. -/
theorem segments_sum {ntq : Nat} (h : ntq ∈ timeQuanta) (baud : BitVec 32) :
    let P1 : Int := ntq * idealSp baud / 1000
    let seg1 := (BitVec.ofInt 8 (P1 - 1)).toNat
    let seg2 := (BitVec.ofInt 8 (ntq - P1)).toNat
    1 ≤ seg1 ∧ seg1 ≤ 16 ∧ 1 ≤ seg2 ∧ seg2 ≤ 5 ∧ 1 + seg1 + seg2 = ntq := by
  have hall : ∀ ntq ∈ timeQuanta, ∀ sp ∈ [750, 800, 875],
      let P1 : Int := (ntq : Int) * ((sp : Nat) : Int) / 1000
      let seg1 := (BitVec.ofInt 8 (P1 - 1)).toNat
      let seg2 := (BitVec.ofInt 8 (ntq - P1)).toNat
      1 ≤ seg1 ∧ seg1 ≤ 16 ∧ 1 ≤ seg2 ∧ seg2 ≤ 5 ∧ 1 + seg1 + seg2 = ntq := by decide
  refine hall ntq h (idealSp baud) ?_
  rw [idealSp]
  split
  · decide
  · split <;> decide

/-- Segments computed for `ntq` quanta. -/
structure Segments (prop seg1 seg2 : BitVec 8) (ntq : Nat) : Prop where
  prop : prop = 0#8
  seg1_pos : 1 ≤ seg1.toNat
  seg1_le : seg1.toNat ≤ 16
  seg2_pos : 1 ≤ seg2.toNat
  seg2_le : seg2.toNat ≤ 5
  sum : 1 + seg1.toNat + seg2.toNat = ntq

theorem getSegments_nominal {ntq : Nat} (h : ntq ∈ timeQuanta) (dtq : Nat) :
    Segments (canfdGetSegments N D ntq dtq cfg).u8NominalPropSeg
      (canfdGetSegments N D ntq dtq cfg).u8NominalPhaseSeg1
      (canfdGetSegments N D ntq dtq cfg).u8NominalPhaseSeg2 ntq := by
  obtain ⟨h1, h2, h3, h4, h5⟩ := segments_sum h N
  unfold canfdGetSegments
  dsimp only
  split
  · exact ⟨rfl, h1, h2, h3, h4, h5⟩
  · exact ⟨rfl, h1, h2, h3, h4, h5⟩

theorem getSegments_data {dtq : Nat} (h : dtq ∈ timeQuanta) (ntq : Nat) :
    Segments (canfdGetSegments N D ntq dtq cfg).u8DataPropSeg
        (canfdGetSegments N D ntq dtq cfg).u8DataPhaseSeg1
        (canfdGetSegments N D ntq dtq cfg).u8DataPhaseSeg2 dtq ∧
      1 ≤ (canfdGetSegments N D ntq dtq cfg).u8DataRJumpwidth.toNat ∧
      (canfdGetSegments N D ntq dtq cfg).u8DataRJumpwidth.toNat ≤ 4 := by
  obtain ⟨h1, h2, h3, h4, h5⟩ := segments_sum h D
  have hbounds := timeQuanta_bounds h
  have hjump : (BitVec.ofNat 8 ((dtq + (5 - 1)) / 5)).toNat = (dtq + (5 - 1)) / 5 := by
    rw [BitVec.toNat_ofNat]
    omega
  unfold canfdGetSegments
  dsimp only
  rw [if_pos (show dtq > 0 by omega)]
  dsimp only
  rw [hjump]
  exact ⟨⟨rfl, h1, h2, h3, h4, h5⟩, by omega, by omega⟩

/-- The prescalers and the divider stay as they were found. -/
theorem getSegments_prescaler (ntq dtq : Nat) :
    (canfdGetSegments N D ntq dtq cfg).u8PreDivider = cfg.u8PreDivider ∧
      (canfdGetSegments N D ntq dtq cfg).u16NominalPrescaler = cfg.u16NominalPrescaler ∧
      (canfdGetSegments N D ntq dtq cfg).u8DataPrescaler = cfg.u8DataPrescaler := by
  unfold canfdGetSegments
  dsimp only
  split
  · exact ⟨rfl, rfl, rfl⟩
  · exact ⟨rfl, rfl, rfl⟩

/-! ## The words -/

/-- The value of four fields put together. -/
theorem fields_toNat (w x y z : BitVec 32) (i j k l : Nat) :
    ((w <<< i) + (x <<< j) + (y <<< k) + (z <<< l)).toNat =
      (w.toNat * 2 ^ i + x.toNat * 2 ^ j + y.toNat * 2 ^ k + z.toNat * 2 ^ l) % 2 ^ 32 := by
  simp only [BitVec.toNat_add, BitVec.toNat_shiftLeft, Nat.shiftLeft_eq, Nat.add_mod,
    Nat.mod_mod]

/-- A value less one. -/
theorem pred_toNat {x : BitVec 32} {n : Nat} (h : x.toNat = n) (hn : 1 ≤ n) :
    (x - 1#32).toNat = n - 1 := by
  have hlt := x.isLt
  rw [BitVec.toNat_sub, h]
  change (2 ^ 32 - 1 + n) % 2 ^ 32 = n - 1
  omega

/-- A byte under a mask of `k` bits that it fits. -/
theorem masked_toNat {v : BitVec 8} {k : Nat} (hk : k ≤ 32) (hv : v.toNat < 2 ^ k) :
    (v.setWidth 32 &&& fieldMask k).toNat = v.toNat := by
  have hwide : (v.setWidth 32).toNat = v.toNat := BitVec.toNat_setWidth_of_le (by decide)
  rw [and_fieldMask_toNat _ hk, hwide, Nat.mod_eq_of_lt hv]

/-- Setting the timing keeps the FD operation bit. -/
theorem fdoe_cce (psCanfd : CanfdT) :
    (psCanfd.CCCR ||| cccrCceMsk) &&& cccrFdoeMsk = psCanfd.CCCR &&& cccrFdoeMsk := by
  rw [BitVec.and_or_distrib_right]
  exact BitVec.or_zero

/-- The first segment less one, as it is put in a field of at least five bits. -/
theorem Segments.seg1_field {prop seg1 seg2 : BitVec 8} {n k : Nat} (h : Segments prop seg1 seg2 n)
    (hk : 5 ≤ k) (hk32 : k ≤ 32) :
    (((seg1.setWidth 32 + prop.setWidth 32) &&& fieldMask k) - 1#32).toNat = seg1.toNat - 1 := by
  have hpow : 2 ^ 5 ≤ 2 ^ k := Nat.pow_le_pow_right (by decide) hk
  have hle := h.seg1_le
  rw [h.prop, BitVec.setWidth_zero, BitVec.add_zero]
  exact pred_toNat (masked_toNat hk32 (by omega)) h.seg1_pos

/-- The second segment less one, as it is put in a field of at least three bits. -/
theorem Segments.seg2_field {prop seg1 seg2 : BitVec 8} {n k : Nat} (h : Segments prop seg1 seg2 n)
    (hk : 3 ≤ k) (hk32 : k ≤ 32) :
    ((seg2.setWidth 32 &&& fieldMask k) - 1#32).toNat = seg2.toNat - 1 := by
  have hpow : 2 ^ 3 ≤ 2 ^ k := Nat.pow_le_pow_right (by decide) hk
  have hle := h.seg2_le
  exact pred_toNat (masked_toNat hk32 (by omega)) h.seg2_pos

/-- The nominal fields decoded. A prescaler of the size of its field is zero there before it is made
one less. -/
theorem setTimingConfig_nominal {ntq q p : Nat} (hdivider : psConfig.u8PreDivider.toNat = q)
    (hq : 1 ≤ q) (hq5 : q ≤ 5) (hprescaler : psConfig.u16NominalPrescaler.toNat = p) (hp : 1 ≤ p)
    (hp512 : p ≤ 512) (hsegs : Segments psConfig.u8NominalPropSeg psConfig.u8NominalPhaseSeg1
      psConfig.u8NominalPhaseSeg2 ntq) :
    (canfdSetTimingConfig psCanfd psConfig).preDivider = q ∧
      (canfdSetTimingConfig psCanfd psConfig).nbrp = p ∧
      (canfdSetTimingConfig psCanfd psConfig).ntseg1 = psConfig.u8NominalPhaseSeg1.toNat ∧
      (canfdSetTimingConfig psCanfd psConfig).ntseg2 = psConfig.u8NominalPhaseSeg2.toNat := by
  have hclkdiv : (canfdSetTimingConfig psCanfd psConfig).CLKDIV =
      psConfig.u8PreDivider.setWidth 32 - 1#32 := by
    unfold canfdSetTimingConfig
    dsimp only
    split <;> rfl
  have hnbtp : (canfdSetTimingConfig psCanfd psConfig).NBTP =
      (((psConfig.u8NominalRJumpwidth.setWidth 32 &&& fieldMask 7) - 1#32) <<< 25) +
        (((psConfig.u16NominalPrescaler.setWidth 32 &&& fieldMask 9) - 1#32) <<< 16) +
        ((((psConfig.u8NominalPhaseSeg1.setWidth 32 + psConfig.u8NominalPropSeg.setWidth 32) &&&
          fieldMask 8) - 1#32) <<< 8) +
        (((psConfig.u8NominalPhaseSeg2.setWidth 32 &&& fieldMask 7) - 1#32) <<< 0) := by
    unfold canfdSetTimingConfig
    dsimp only
    split <;> rfl
  have hwidth : (psConfig.u8PreDivider.setWidth 32).toNat = q := by
    rw [BitVec.toNat_setWidth_of_le (by decide), hdivider]
  have hprescaler' :
      (psConfig.u16NominalPrescaler.setWidth 32 &&& fieldMask 9).toNat = p % 512 := by
    rw [and_fieldMask_toNat _ (by decide), BitVec.toNat_setWidth_of_le (by decide), hprescaler,
      show 2 ^ 9 = 512 from rfl]
  have hfield : ((psConfig.u16NominalPrescaler.setWidth 32 &&& fieldMask 9) - 1#32).toNat =
      (2 ^ 32 - 1 + p % 512) % 2 ^ 32 := by
    rw [BitVec.toNat_sub, hprescaler']
    rfl
  have hs1 := hsegs.seg1_le
  have hs1pos := hsegs.seg1_pos
  have hs2 := hsegs.seg2_le
  have hs2pos := hsegs.seg2_pos
  refine ⟨?_, ?_, ?_, ?_⟩
  · rw [CanfdT.preDivider, hclkdiv, getField_toNat (by decide), pred_toNat hwidth hq]
    omega
  · rw [CanfdT.nbrp, hnbtp, getField_toNat (by decide), fields_toNat, hfield,
      hsegs.seg1_field (by decide) (by decide), hsegs.seg2_field (by decide) (by decide)]
    omega
  · rw [CanfdT.ntseg1, hnbtp, getField_toNat (by decide), fields_toNat, hfield,
      hsegs.seg1_field (by decide) (by decide), hsegs.seg2_field (by decide) (by decide)]
    omega
  · rw [CanfdT.ntseg2, hnbtp, getField_toNat (by decide), fields_toNat, hfield,
      hsegs.seg1_field (by decide) (by decide), hsegs.seg2_field (by decide) (by decide)]
    omega

/-- The data fields decoded, in FD operation. -/
theorem setTimingConfig_data {dtq r : Nat} (hfdoe : psCanfd.fdoe = true)
    (hprescaler : psConfig.u8DataPrescaler.toNat = r) (hr : 1 ≤ r) (hr32 : r ≤ 32)
    (hjump : 1 ≤ psConfig.u8DataRJumpwidth.toNat ∧ psConfig.u8DataRJumpwidth.toNat ≤ 4)
    (hsegs : Segments psConfig.u8DataPropSeg psConfig.u8DataPhaseSeg1 psConfig.u8DataPhaseSeg2
      dtq) :
    (canfdSetTimingConfig psCanfd psConfig).dbrp = r ∧
      (canfdSetTimingConfig psCanfd psConfig).dtseg1 = psConfig.u8DataPhaseSeg1.toNat ∧
      (canfdSetTimingConfig psCanfd psConfig).dtseg2 = psConfig.u8DataPhaseSeg2.toNat := by
  have hdbtp : (canfdSetTimingConfig psCanfd psConfig).DBTP =
      (((psConfig.u8DataPrescaler.setWidth 32 &&& fieldMask 5) - 1#32) <<< 16) +
        ((((psConfig.u8DataPhaseSeg1.setWidth 32 + psConfig.u8DataPropSeg.setWidth 32) &&&
          fieldMask 5) - 1#32) <<< 8) +
        (((psConfig.u8DataPhaseSeg2.setWidth 32 &&& fieldMask 4) - 1#32) <<< 4) +
        (((psConfig.u8DataRJumpwidth.setWidth 32 &&& fieldMask 4) - 1#32) <<< 0) := by
    have hbit : psCanfd.CCCR &&& cccrFdoeMsk ≠ 0#32 := of_decide_eq_true hfdoe
    unfold canfdSetTimingConfig
    dsimp only
    rw [if_pos (by rw [fdoe_cce]; exact hbit)]
    rfl
  have hfield : ((psConfig.u8DataPrescaler.setWidth 32 &&& fieldMask 5) - 1#32).toNat =
      (2 ^ 32 - 1 + r % 32) % 2 ^ 32 := by
    rw [BitVec.toNat_sub, and_fieldMask_toNat _ (by decide),
      BitVec.toNat_setWidth_of_le (by decide), hprescaler]
    rfl
  have hjumpField : ((psConfig.u8DataRJumpwidth.setWidth 32 &&& fieldMask 4) - 1#32).toNat =
      psConfig.u8DataRJumpwidth.toNat - 1 :=
    pred_toNat (masked_toNat (by decide) (by omega)) hjump.1
  have hs1 := hsegs.seg1_le
  have hs1pos := hsegs.seg1_pos
  have hs2 := hsegs.seg2_le
  have hs2pos := hsegs.seg2_pos
  refine ⟨?_, ?_, ?_⟩
  · rw [CanfdT.dbrp, hdbtp, getField_toNat (by decide), fields_toNat, hfield, hjumpField,
      hsegs.seg1_field (by decide) (by decide), hsegs.seg2_field (by decide) (by decide)]
    omega
  · rw [CanfdT.dtseg1, hdbtp, getField_toNat (by decide), fields_toNat, hfield, hjumpField,
      hsegs.seg1_field (by decide) (by decide), hsegs.seg2_field (by decide) (by decide)]
    omega
  · rw [CanfdT.dtseg2, hdbtp, getField_toNat (by decide), fields_toNat, hfield, hjumpField,
      hsegs.seg1_field (by decide) (by decide), hsegs.seg2_field (by decide) (by decide)]
    omega

/-! ## The search -/

theorem mulInt_eq_ok {x : Nat} : mulInt a b = .ok x ↔ a * b < 2 ^ 31 ∧ x = a * b := by
  rw [mulInt]
  split
  · next h => exact ⟨fun heq => ⟨h, by cases heq; rfl⟩, fun heq => by rw [heq.2]⟩
  · next h => exact ⟨(fun heq => nomatch heq), fun heq => absurd heq.1 h⟩

theorem mulU32_eq_ok {x : Nat} : mulU32 a b = .ok x ↔ a * b < 2 ^ 32 ∧ x = a * b := by
  rw [mulU32]
  split
  · next h => exact ⟨fun heq => ⟨h, by cases heq; rfl⟩, fun heq => by rw [heq.2]⟩
  · next h => exact ⟨(fun heq => nomatch heq), fun heq => absurd heq.1 h⟩

theorem divChecked_eq_ok {x : Nat} : divChecked a b = .ok x ↔ b ≠ 0 ∧ x = a / b := by
  rw [divChecked]
  split
  · next h => exact ⟨(fun heq => nomatch heq), fun heq => absurd h heq.1⟩
  · next h => exact ⟨fun heq => ⟨h, by cases heq; rfl⟩, fun heq => by rw [heq.2]⟩

/-- A product of a rate, a number of quanta and a prescaler that does not wrap. -/
theorem clocks_toNat (rate : BitVec 32) (hab : rate.toNat * a * b < 2 ^ 31) (ha : a ≤ 1024)
    (hb : b ≤ 1024) :
    (rate * BitVec.ofNat 32 a * BitVec.ofNat 32 b).toNat = rate.toNat * a * b := by
  rw [BitVec.toNat_mul, BitVec.toNat_mul, BitVec.toNat_ofNat, BitVec.toNat_ofNat,
    Nat.mod_eq_of_lt (show a < 2 ^ 32 by omega), Nat.mod_eq_of_lt (show b < 2 ^ 32 by omega),
    Nat.mod_mul_mod]
  exact Nat.mod_eq_of_lt (by omega)

/-- Without a wrap the search for the data setting is the one checked. -/
theorem dataTimingChecked_eq {u8PreDivider : BitVec 8} {r : Option (BitVec 8 × Nat)}
    (h : dataTimingChecked D clk u8PreDivider = .ok r) : dataTiming D clk u8PreDivider = r := by
  refine findSome_of_findSomeM (fun dtq hdtq r hr => ?_) h
  obtain ⟨dclk, hdclk, hr⟩ := bind_eq_ok.1 hr
  obtain ⟨-, rfl⟩ := mulInt_eq_ok.1 hdclk
  refine findSome_of_findSomeM (fun dp hdp r hr => ?_) hr
  obtain ⟨dclk2, hdclk2, hr⟩ := bind_eq_ok.1 hr
  obtain ⟨hlt, rfl⟩ := mulInt_eq_ok.1 hdclk2
  obtain ⟨x, hx, hr⟩ := bind_eq_ok.1 hr
  obtain ⟨hlt', rfl⟩ := mulU32_eq_ok.1 hx
  have hdp := List.mem_range'_1.1 hdp
  have hdtq := timeQuanta_bounds hdtq
  have hproduct : (D * BitVec.ofNat 32 dtq * BitVec.ofNat 32 dp * u8PreDivider.setWidth 32).toNat =
      D.toNat * dtq * dp * u8PreDivider.toNat := by
    rw [BitVec.toNat_mul, clocks_toNat D hlt (by omega) (by omega),
      BitVec.toNat_setWidth_of_le (by decide)]
    exact Nat.mod_eq_of_lt hlt'
  have hiff : clk = D * BitVec.ofNat 32 dtq * BitVec.ofNat 32 dp * u8PreDivider.setWidth 32 ↔
      clk.toNat = D.toNat * dtq * dp * u8PreDivider.toNat := by
    rw [← hproduct]
    exact BitVec.toNat_inj.symm
  have hr := Except.ok.inj hr
  simp only [hiff]
  exact hr

/-- Without a division by zero or a wrap the search is the one checked. -/
theorem timingChecked_eq {r : Option CanfdTimeingConfig} (h : timingChecked fdoe N D clk = .ok r) :
    canfdCalculateTimingValues fdoe N D clk = r := by
  rw [timingChecked] at h
  rw [canfdCalculateTimingValues]
  dsimp only at h ⊢
  generalize (if N > MAX_NOMINAL_BAUDRATE then MAX_NOMINAL_BAUDRATE else N) = rate at h ⊢
  generalize (if D = 0 then rate else D) = data at h ⊢
  refine findSome_of_findSomeM (fun ntq hntq r hr => ?_) h
  obtain ⟨nclk, hnclk, hr⟩ := bind_eq_ok.1 hr
  obtain ⟨-, rfl⟩ := mulInt_eq_ok.1 hnclk
  refine findSome_of_findSomeM (fun p hp r hr => ?_) hr
  obtain ⟨nclk2, hnclk2, hr⟩ := bind_eq_ok.1 hr
  obtain ⟨hlt, rfl⟩ := mulInt_eq_ok.1 hnclk2
  obtain ⟨q, hq, hr⟩ := bind_eq_ok.1 hr
  obtain ⟨-, rfl⟩ := divChecked_eq_ok.1 hq
  have hp := List.mem_range'_1.1 hp
  have hntq := timeQuanta_bounds hntq
  have hclocks := clocks_toNat rate hlt (by omega) (by omega)
  generalize rate * BitVec.ofNat 32 ntq * BitVec.ofNat 32 p = w at hclocks ⊢
  rw [← hclocks] at hr
  have hdiv : clk / w ≤ 5 ↔ clk.toNat / w.toNat ≤ 5 := by
    rw [BitVec.le_def, BitVec.toNat_udiv]
    rfl
  have hmod : clk % w = 0 ↔ clk.toNat % w.toNat = 0 := by
    rw [← BitVec.toNat_umod]
    exact BitVec.toNat_inj.symm
  have hpre : (clk / w).setWidth 8 = BitVec.ofNat 8 (clk.toNat / w.toNat) := by
    apply BitVec.eq_of_toNat_eq
    rw [BitVec.toNat_setWidth, BitVec.toNat_udiv, BitVec.toNat_ofNat]
  simp only [hdiv, hmod, hpre]
  split at hr
  · next hhit =>
    rw [if_pos hhit]
    cases fdoe with
    | false => exact Except.ok.inj hr
    | true =>
      simp only [if_true] at hr ⊢
      split at hr
      · next hsame =>
        rw [if_pos hsame]
        exact Except.ok.inj hr
      · next hsame =>
        rw [if_neg hsame]
        obtain ⟨found, hfound, hr⟩ := bind_eq_ok.1 hr
        rw [dataTimingChecked_eq hfound]
        exact Except.ok.inj hr
  · next hhit =>
    rw [if_neg hhit]
    exact Except.ok.inj hr

/-- The nominal rate that is searched for, and the data rate. Reference: `nu_canfd.c:516
CANFD_CalculateTimingValues`, `nu_canfd.c:535`. -/
def nominalRate (u32NominalBaudRate : BitVec 32) : BitVec 32 :=
  if u32NominalBaudRate > MAX_NOMINAL_BAUDRATE then MAX_NOMINAL_BAUDRATE else u32NominalBaudRate
@[inherit_doc nominalRate]
def dataRate (u32NominalBaudRate u32DataBaudRate : BitVec 32) : BitVec 32 :=
  if u32DataBaudRate = 0 then nominalRate u32NominalBaudRate else u32DataBaudRate

/-- A setting for a rate: as many quanta as tried, a prescaler and a divider. -/
structure Hit (rate clk : BitVec 32) (quanta prescaler limit divider : Nat) : Prop where
  quanta_mem : quanta ∈ timeQuanta
  prescaler_pos : 1 ≤ prescaler
  prescaler_le : prescaler ≤ limit
  clock : clk.toNat = rate.toNat * quanta * prescaler * divider

/-- What a search for the data setting finds. -/
theorem dataTimingChecked_hit {u8PreDivider : BitVec 8} {r : BitVec 8 × Nat}
    (h : dataTimingChecked D clk u8PreDivider = .ok (some r)) :
    ∃ dp, Hit D clk r.2 dp 32 u8PreDivider.toNat ∧ r.1 = BitVec.ofNat 8 dp := by
  obtain ⟨dtq, hdtq, h⟩ := exists_of_findSomeM h
  obtain ⟨dclk, hdclk, h⟩ := bind_eq_ok.1 h
  obtain ⟨-, rfl⟩ := mulInt_eq_ok.1 hdclk
  obtain ⟨dp, hdp, h⟩ := exists_of_findSomeM h
  obtain ⟨dclk2, hdclk2, h⟩ := bind_eq_ok.1 h
  obtain ⟨-, rfl⟩ := mulInt_eq_ok.1 hdclk2
  obtain ⟨x, hx, h⟩ := bind_eq_ok.1 h
  obtain ⟨-, rfl⟩ := mulU32_eq_ok.1 hx
  have hdp := List.mem_range'_1.1 hdp
  have h := Except.ok.inj h
  split at h
  · next hclock =>
    cases h
    exact ⟨dp, ⟨hdtq, by omega, by omega, hclock⟩, rfl⟩
  · cases h

/-- What a search in FD operation finds: a setting for the nominal rate and one for the data rate
with the same divider. Without FD operation the segments are computed for no quanta. -/
theorem timingChecked_hit (h : timingChecked true N D clk = .ok (some psConfig)) :
    ∃ ntq p q dtq r, Hit (nominalRate N) clk ntq p 1024 q ∧ Hit (dataRate N D) clk dtq r 32 q ∧
      q ≤ 5 ∧ psConfig.u8PreDivider.toNat = q ∧ psConfig.u16NominalPrescaler.toNat = p ∧
      psConfig.u8DataPrescaler.toNat = r ∧
      Segments psConfig.u8NominalPropSeg psConfig.u8NominalPhaseSeg1 psConfig.u8NominalPhaseSeg2
        ntq ∧
      Segments psConfig.u8DataPropSeg psConfig.u8DataPhaseSeg1 psConfig.u8DataPhaseSeg2 dtq ∧
      1 ≤ psConfig.u8DataRJumpwidth.toNat ∧ psConfig.u8DataRJumpwidth.toNat ≤ 4 := by
  rw [timingChecked] at h
  dsimp only at h
  obtain ⟨ntq, hntq, h⟩ := exists_of_findSomeM h
  obtain ⟨nclk, hnclk, h⟩ := bind_eq_ok.1 h
  obtain ⟨-, rfl⟩ := mulInt_eq_ok.1 hnclk
  obtain ⟨p, hp, h⟩ := exists_of_findSomeM h
  obtain ⟨nclk2, hnclk2, h⟩ := bind_eq_ok.1 h
  obtain ⟨-, rfl⟩ := mulInt_eq_ok.1 hnclk2
  obtain ⟨q, hq, h⟩ := bind_eq_ok.1 h
  obtain ⟨-, hqdef⟩ := divChecked_eq_ok.1 hq
  have hp := List.mem_range'_1.1 hp
  simp only [nominalRate, dataRate]
  generalize (if N > MAX_NOMINAL_BAUDRATE then MAX_NOMINAL_BAUDRATE else N) = rate at h hqdef ⊢
  generalize (if D = 0 then rate else D) = data at h ⊢
  split at h
  swap
  · cases h
  next hhit =>
  obtain ⟨hq5, hmod⟩ := hhit
  have hclock : clk.toNat = rate.toNat * ntq * p * q := by
    rw [hqdef]
    exact (Nat.mul_div_cancel' (Nat.dvd_of_mod_eq_zero hmod)).symm
  have hpre : (BitVec.ofNat 8 q).toNat = q := by
    rw [BitVec.toNat_ofNat]
    omega
  have hpres : (BitVec.ofNat 16 p).toNat = p := by
    rw [BitVec.toNat_ofNat]
    omega
  have hnominal : Hit rate clk ntq p 1024 q := ⟨hntq, by omega, by omega, hclock⟩
  simp only [if_true] at h
  split at h
  · next hsame =>
    -- one setting for both rates
    obtain ⟨rfl, hp32⟩ := hsame
    have hpdata : (BitVec.ofNat 8 p).toNat = p := by
      rw [BitVec.toNat_ofNat]
      omega
    have h := Option.some.inj (Except.ok.inj h)
    subst h
    refine ⟨ntq, p, q, ntq, p, hnominal, ⟨hntq, by omega, hp32, hclock⟩, hq5, ?_, ?_, ?_,
      getSegments_nominal hntq ntq, getSegments_data hntq ntq⟩
    · rw [(getSegments_prescaler _ _).1]
      exact hpre
    · rw [(getSegments_prescaler _ _).2.1]
      exact hpres
    · rw [(getSegments_prescaler _ _).2.2]
      exact hpdata
  · obtain ⟨found, hfound, h⟩ := bind_eq_ok.1 h
    cases found with
    | none => cases h
    | some setting =>
      obtain ⟨dp, hit, hdp⟩ := dataTimingChecked_hit hfound
      obtain ⟨u8DataPrescaler, dtq⟩ := setting
      change u8DataPrescaler = _ at hdp
      rw [hpre] at hit
      have hle := hit.prescaler_le
      have hdp' : u8DataPrescaler.toNat = dp := by
        rw [hdp, BitVec.toNat_ofNat]
        omega
      have h := Option.some.inj (Except.ok.inj h)
      subst h
      refine ⟨ntq, p, q, dtq, dp, hnominal, hit, hq5, ?_, ?_, ?_, getSegments_nominal hntq dtq,
        getSegments_data hit.quanta_mem ntq⟩
      · rw [(getSegments_prescaler _ _).1]
        exact hpre
      · rw [(getSegments_prescaler _ _).2.1]
        exact hpres
      · rw [(getSegments_prescaler _ _).2.2]
        exact hdp'

/-! ## The rates -/

/-- The search for the data setting does not fault for rates up to 1342177. -/
theorem dataTimingChecked_ok {q : BitVec 8} (hD : D.toNat ≤ 1342177) (hq : q.toNat ≤ 5) :
    ∃ r, dataTimingChecked D clk q = .ok r := by
  refine findSomeM_ok fun dtq hdtq => ?_
  have hdtq := timeQuanta_bounds hdtq
  have h₁ : D.toNat * dtq ≤ 1342177 * 20 := Nat.mul_le_mul hD hdtq.2
  rw [mulInt_eq_ok.2 ⟨by omega, rfl⟩, ok_bind]
  refine findSomeM_ok fun dp hdp => ?_
  have hdp := List.mem_range'_1.1 hdp
  have h₂ : D.toNat * dtq * dp ≤ 1342177 * 20 * 32 := Nat.mul_le_mul h₁ (by omega)
  have h₃ : D.toNat * dtq * dp * q.toNat ≤ 1342177 * 20 * 32 * 5 := Nat.mul_le_mul h₂ hq
  rw [mulInt_eq_ok.2 ⟨by omega, rfl⟩, ok_bind, mulU32_eq_ok.2 ⟨by omega, rfl⟩, ok_bind]
  exact ⟨_, rfl⟩

/-- The search does not fault for a nominal rate that is not zero, up to 104857, and a data rate up
to 1342177. -/
theorem timingChecked_ok (hN : N ≠ 0) (hN' : N.toNat ≤ 104857) (hD : D.toNat ≤ 1342177) :
    ∃ r, timingChecked fdoe N D clk = .ok r := by
  have hpos : 0 < N.toNat := Nat.pos_of_ne_zero fun h => hN (BitVec.eq_of_toNat_eq h)
  have hmax : ¬ N > MAX_NOMINAL_BAUDRATE := by
    rw [gt_iff_lt, BitVec.lt_def]
    change ¬ 1000000 < N.toNat
    omega
  have hdata : (if D = 0 then N else D).toNat ≤ 1342177 := by
    split <;> omega
  rw [timingChecked]
  dsimp only
  rw [if_neg hmax]
  generalize (if D = 0 then N else D) = data at hdata ⊢
  refine findSomeM_ok fun ntq hntq => ?_
  have hntq := timeQuanta_bounds hntq
  have h₁ : N.toNat * ntq ≤ 104857 * 20 := Nat.mul_le_mul hN' hntq.2
  rw [mulInt_eq_ok.2 ⟨by omega, rfl⟩, ok_bind]
  refine findSomeM_ok fun p hp => ?_
  have hp := List.mem_range'_1.1 hp
  have h₂ : N.toNat * ntq * p ≤ 104857 * 20 * 1024 := Nat.mul_le_mul h₁ (by omega)
  have hne : N.toNat * ntq * p ≠ 0 :=
    (Nat.mul_pos (Nat.mul_pos hpos (by omega)) (by omega)).ne'
  rw [mulInt_eq_ok.2 ⟨by omega, rfl⟩, ok_bind, divChecked_eq_ok.2 ⟨hne, rfl⟩, ok_bind]
  generalize clk.toNat / (N.toNat * ntq * p) = q
  split
  swap
  · exact ⟨_, rfl⟩
  next hhit =>
  cases fdoe with
  | false => exact ⟨_, rfl⟩
  | true =>
    simp only [if_true]
    split
    · exact ⟨_, rfl⟩
    · have hdivider : (BitVec.ofNat 8 q).toNat ≤ 5 := by
        have hq5 := hhit.1
        rw [BitVec.toNat_ofNat]
        omega
      obtain ⟨r, hr⟩ := @dataTimingChecked_ok data clk _ hdata hdivider
      rw [hr]
      exact ⟨_, rfl⟩

/-- In FD operation a search that divides by no zero, wraps no product and hits with a prescaler
that its field holds gives registers that decode to the bit rates: the nominal rate limited to
1 Mbit/s, and the data rate, zero standing for the nominal one. The search is such a one for every
nominal rate other than zero up to 104857 and every data rate up to 1342177. Reference:
`nu_canfd.c:506 CANFD_CalculateTimingValues`, `nu_canfd.c:384 CANFD_SetTimingConfig`. -/
theorem canfdTiming_decodes (psCanfd : CanfdT) (u32NominalBaudRate u32DataBaudRate
    u32SourceClockHz : BitVec 32) (hfdoe : psCanfd.fdoe = true) (hclock : u32SourceClockHz ≠ 0) :
    (u32NominalBaudRate ≠ 0 → u32NominalBaudRate.toNat ≤ 104857 →
      u32DataBaudRate.toNat ≤ 1342177 →
      ∃ r, timingChecked true u32NominalBaudRate u32DataBaudRate u32SourceClockHz = .ok r) ∧
    ∀ r, timingChecked true u32NominalBaudRate u32DataBaudRate u32SourceClockHz = .ok r →
      canfdCalculateTimingValues psCanfd.fdoe u32NominalBaudRate u32DataBaudRate
        u32SourceClockHz = r ∧
      ∀ psConfig, r = some psConfig → psConfig.u16NominalPrescaler.toNat ≤ 512 →
        TimingRight (canfdSetTimingConfig psCanfd psConfig) psConfig psCanfd.fdoe
          (nominalRate u32NominalBaudRate).toNat
          (dataRate u32NominalBaudRate u32DataBaudRate).toNat u32SourceClockHz.toNat := by
  refine ⟨timingChecked_ok, fun r h => ⟨?_, ?_⟩⟩
  · rw [hfdoe]
    exact timingChecked_eq h
  rintro psConfig rfl hp512
  obtain ⟨ntq, p, q, dtq, r, hit, hitData, hq5, hdivider, hprescaler, hdata, hsegs, hsegsData,
    hjump⟩ := timingChecked_hit h
  have hq : 1 ≤ q := by
    refine Nat.pos_of_ne_zero fun hzero => hclock (BitVec.eq_of_toNat_eq ?_)
    rw [hit.clock, hzero]
    rfl
  obtain ⟨hpre, hnbrp, hntseg1, hntseg2⟩ := setTimingConfig_nominal hdivider hq
    hq5 hprescaler hit.prescaler_pos (by omega) hsegs
  obtain ⟨hdbrp, hdtseg1, hdtseg2⟩ := setTimingConfig_data hfdoe hdata hitData.prescaler_pos
    hitData.prescaler_le hjump hsegsData
  constructor
  · rw [hntseg1, hntseg2, hnbrp, hpre, hsegs.sum]
    exact hit.clock
  · rw [hntseg1, hsegs.prop]
    rfl
  · exact hntseg2
  · intro _
    rw [hdtseg1, hdtseg2, hdbrp, hpre, hsegsData.sum]
    exact hitData.clock
  · intro _
    rw [hdtseg1, hsegsData.prop]
    rfl
  · exact fun _ => hdtseg2

/-- A controller in FD operation. -/
def fdCanfd : CanfdT := { (default : CanfdT) with CCCR := cccrFdoeMsk }

/-- 100 kbit/s and 400 kbit/s from 80 MHz. -/
theorem canfdTiming_decodes_fd :
    ∃ psConfig, canfdCalculateTimingValues true 100000 400000 80000000 = some psConfig ∧
      TimingRight (canfdSetTimingConfig fdCanfd psConfig) psConfig true 100000 400000 80000000 := by
  have h := canfdTiming_decodes fdCanfd 100000 400000 80000000 rfl (by decide)
  obtain ⟨psConfig, hsearch, hprescaler⟩ : ∃ psConfig, timingChecked true 100000 400000 80000000 =
      .ok (some psConfig) ∧ psConfig.u16NominalPrescaler.toNat ≤ 512 := ⟨_, rfl, by decide⟩
  obtain ⟨heq, hright⟩ := h.2 _ hsearch
  exact ⟨psConfig, heq, hright psConfig rfl hprescaler⟩

/-- A nominal rate of 2 Mbit/s is programmed as 1 Mbit/s. -/
theorem not_timingDecodes : ¬ ∀ psCanfd u32NominalBaudRate u32DataBaudRate u32SourceClockHz,
    TimingDecodes psCanfd u32NominalBaudRate u32DataBaudRate u32SourceClockHz := by
  intro h
  have hright := (h fdCanfd 2000000 2000000 80000000).2 _ rfl
  exact absurd hright.nominalRate (by decide)

end

end NumakerMA35D1.Canfd

import NumakerMA35D1.Lib.BitField
import NumakerMA35D1.Lib.Bus

/-!
# Transfer descriptors

A descriptor as `nu_pdma_desc_setup` fills it, and what the engine does with it: `Dsct.run` moves
the elements of one descriptor and `runChain` follows a chain of them in memory. `descFields_run`
reads the fields back: the descriptor moves one element more than its count field says, which is the
count it was given unless that is zero.

Reference: `pdma_reg.h:17 DSCT_T`, `nu_pdma.h:31`, `drv_pdma.c:685 nu_pdma_desc_setup`.
-/

namespace NumakerMA35D1.Pdma

open Embedded

/-- A descriptor, in memory or in the registers of a channel. Reference: `pdma_reg.h:17 DSCT_T`. -/
structure Dsct where
  CTL : BitVec 32
  SA : BitVec 32
  DA : BitVec 32
  NEXT : BitVec 32
deriving DecidableEq, Inhabited

/-! ## Filling a descriptor -/

/-- The bits of the control word. Reference: `nu_pdma.h:31 PDMA_OP_BASIC`,
`nu_pdma.h:38 PDMA_WIDTH_8`, `nu_pdma.h:45 PDMA_SAR_INC`, `nu_pdma.h:53 PDMA_REQ_SINGLE`,
`nu_pdma.h:58 PDMA_BURST_32`, `pdma_reg.h:806 PDMA_DSCT_CTL_OPMODE_Msk`. -/
def PDMA_OP_BASIC : BitVec 32 := 0x1#32
@[inherit_doc PDMA_OP_BASIC] def PDMA_OP_SCATTER : BitVec 32 := 0x2#32
@[inherit_doc PDMA_OP_BASIC] def PDMA_WIDTH_8 : BitVec 32 := 0x0#32
@[inherit_doc PDMA_OP_BASIC] def PDMA_WIDTH_16 : BitVec 32 := 0x1000#32
@[inherit_doc PDMA_OP_BASIC] def PDMA_WIDTH_32 : BitVec 32 := 0x2000#32
@[inherit_doc PDMA_OP_BASIC] def PDMA_SAR_INC : BitVec 32 := 0x0#32
@[inherit_doc PDMA_OP_BASIC] def PDMA_SAR_FIX : BitVec 32 := 0x300#32
@[inherit_doc PDMA_OP_BASIC] def PDMA_DAR_INC : BitVec 32 := 0x0#32
@[inherit_doc PDMA_OP_BASIC] def PDMA_DAR_FIX : BitVec 32 := 0xc00#32
@[inherit_doc PDMA_OP_BASIC] def PDMA_REQ_SINGLE : BitVec 32 := 0x4#32
@[inherit_doc PDMA_OP_BASIC] def PDMA_REQ_BURST : BitVec 32 := 0x0#32
@[inherit_doc PDMA_OP_BASIC] def PDMA_BURST_32 : BitVec 32 := 0x20#32
@[inherit_doc PDMA_OP_BASIC] def PDMA_DSCT_CTL_OPMODE_Msk : BitVec 32 := 0x3#32
@[inherit_doc PDMA_OP_BASIC] def PDMA_DSCT_CTL_TBINTDIS_Msk : BitVec 32 := 0x80#32

/-- The request source of a memory to memory transfer. Reference: `nu_pdma.h:74 PDMA_MEM`. -/
def PDMA_MEM : BitVec 32 := 0#32

/-- The most elements of one descriptor. Reference: `drv_pdma.h:33 NU_PDMA_MAX_TXCNT`. -/
def NU_PDMA_MAX_TXCNT : BitVec 32 := 0x10000#32

/-- Whether the addresses step. Reference: `drv_pdma.h:35 nu_pdma_memctrl_t`. -/
inductive NuPdmaMemctrl
  | srcFixDstFix
  | srcFixDstInc
  | srcIncDstFix
  | srcIncDstInc
  | undefined
deriving DecidableEq, Repr

/-- The value of the enumerator. -/
def NuPdmaMemctrl.code : NuPdmaMemctrl → BitVec 32
  | srcFixDstFix => 0#32
  | srcFixDstInc => 1#32
  | srcIncDstFix => 2#32
  | srcIncDstInc => 3#32
  | undefined => -1#32

/-- The increment bits of the two addresses, which start at zero.
Reference: `drv_pdma.c:658 nu_pdma_channel_memctrl_fill`. -/
def nuPdmaChannelMemctrlFill : NuPdmaMemctrl → BitVec 32 × BitVec 32
  | .srcFixDstFix => (PDMA_SAR_FIX, PDMA_DAR_FIX)
  | .srcFixDstInc => (PDMA_SAR_FIX, PDMA_DAR_INC)
  | .srcIncDstFix => (PDMA_SAR_INC, PDMA_DAR_FIX)
  | .srcIncDstInc => (PDMA_SAR_INC, PDMA_DAR_INC)
  | .undefined => (0#32, 0#32)

/-- The control word of a descriptor. Reference: `drv_pdma.c:711` to `:742`. -/
def descCtl (u32Peripheral : BitVec 32) (eMemCtl : NuPdmaMemctrl)
    (u32DataWidth i32TransferCnt : BitVec 32) (next u32BeSilent : Bool) : BitVec 32 :=
  let (u32SrcCtl, u32DstCtl) := nuPdmaChannelMemctrlFill eMemCtl
  let ctl := (i32TransferCnt - 1#32) <<< 16 |||
    (if u32DataWidth = 8#32 then PDMA_WIDTH_8
      else if u32DataWidth = 16#32 then PDMA_WIDTH_16 else PDMA_WIDTH_32) |||
    u32SrcCtl ||| u32DstCtl ||| PDMA_OP_BASIC
  let ctl := ctl ||| (if u32Peripheral = PDMA_MEM then PDMA_REQ_BURST ||| PDMA_BURST_32
    else PDMA_REQ_SINGLE)
  let ctl := if next then (ctl &&& ~~~PDMA_DSCT_CTL_OPMODE_Msk) ||| PDMA_OP_SCATTER else ctl
  if u32BeSilent then ctl ||| PDMA_DSCT_CTL_TBINTDIS_Msk else ctl

/-- A descriptor filled. Reference: `drv_pdma.c:685 nu_pdma_desc_setup`. -/
def descFields (u32Peripheral : BitVec 32) (eMemCtl : NuPdmaMemctrl)
    (u32DataWidth u32AddrSrc u32AddrDst i32TransferCnt next : BitVec 32) (u32BeSilent : Bool) :
    Dsct where
  CTL := descCtl u32Peripheral eMemCtl u32DataWidth i32TransferCnt (next ≠ 0#32) u32BeSilent
  SA := u32AddrSrc
  DA := u32AddrDst
  NEXT := if next ≠ 0#32 then next else 0#32

/-! ## Executing a descriptor -/

namespace Dsct

/-- The operation mode. Reference: `pdma_reg.h:806 PDMA_DSCT_CTL_OPMODE_Msk`. -/
def opmode (d : Dsct) : BitVec 32 := getField d.CTL 0 2

/-- The number of elements: one more than the count field.
Reference: `pdma_reg.h:833 PDMA_DSCT_CTL_TXCNT_Msk`. -/
def count (d : Dsct) : Nat := (getField d.CTL 16 16).toNat + 1

/-- The bytes of an element. Reference: `pdma_reg.h:824 PDMA_DSCT_CTL_TXWIDTH_Msk`. -/
def width (d : Dsct) : Nat := 2 ^ (getField d.CTL 12 2).toNat

/-- How far an address steps; not at all when its increment field has both bits set.
Reference: `pdma_reg.h:818 PDMA_DSCT_CTL_SAINC_Msk`, `pdma_reg.h:821 PDMA_DSCT_CTL_DAINC_Msk`. -/
def srcStride (d : Dsct) : Nat := if getField d.CTL 8 2 = 3#32 then 0 else d.width
@[inherit_doc srcStride]
def dstStride (d : Dsct) : Nat := if getField d.CTL 10 2 = 3#32 then 0 else d.width

/-- Whether the end of the descriptor raises no interrupt.
Reference: `pdma_reg.h:815 PDMA_DSCT_CTL_TBINTDIS_Msk`. -/
def silent (d : Dsct) : Prop := getField d.CTL 7 1 = 1#32

/-- The elements of a descriptor moved. -/
def run (d : Dsct) (b : Bus) : Bus :=
  b.moveElements d.width d.SA d.DA d.srcStride d.dstStride d.count

end Dsct

/-- A chain of at most `fuel` descriptors from the one at an address: the engine goes on to the next
one while the mode is scatter-gather and stops after one in basic mode. -/
def runChain (fetch : BitVec 32 → Option Dsct) : (fuel : Nat) → BitVec 32 → Bus → Option Bus
  | 0, _, _ => none
  | fuel + 1, a, b =>
    match fetch a with
    | none => none
    | some d =>
      if d.opmode = PDMA_OP_SCATTER then runChain fetch fuel d.NEXT (d.run b)
      else if d.opmode = PDMA_OP_BASIC then some (d.run b)
      else none

/-! ## The fields of a filled descriptor -/

section

variable {p w cnt next : BitVec 32} {m : NuPdmaMemctrl} {linked silent : Bool}

/-- How far the two addresses of a channel's transfers step.
Reference: `drv_pdma.c:658 nu_pdma_channel_memctrl_fill`. -/
def NuPdmaMemctrl.srcStep (m : NuPdmaMemctrl) (w : BitVec 32) : Nat :=
  if m.code &&& 2#32 = 0#32 then 0 else w.toNat / 8
@[inherit_doc NuPdmaMemctrl.srcStep]
def NuPdmaMemctrl.dstStep (m : NuPdmaMemctrl) (w : BitVec 32) : Nat :=
  if m.code &&& 1#32 = 0#32 then 0 else w.toNat / 8

/-- Widths the driver takes. -/
def ValidWidth (u32DataWidth : BitVec 32) : Prop :=
  u32DataWidth = 8#32 ∨ u32DataWidth = 16#32 ∨ u32DataWidth = 32#32

instance (w : BitVec 32) : Decidable (ValidWidth w) := inferInstanceAs (Decidable (_ ∨ _))

/-- The count is over the other bits, which are those of a descriptor for one element. -/
theorem descCtl_eq :
    descCtl p m w cnt linked silent =
      putField (cnt - 1#32) 16 16 ||| descCtl p m w 1#32 linked silent := by
  have hshift : ∀ v : BitVec 32, v <<< 16 = putField v 16 16 := by
    intro v
    apply BitVec.eq_of_getLsbD_eq
    intro i hi
    rw [getLsbD_putField hi, BitVec.getLsbD_shiftLeft]
    rcases Nat.lt_or_ge i 16 with hlt | hge
    · simp [hlt, Nat.not_le.2 hlt]
    · simp [hi, hge, Nat.not_lt.2 hge, show i - 16 < 16 by omega]
  have hmask : ∀ v : BitVec 32, putField v 16 16 &&& ~~~PDMA_DSCT_CTL_OPMODE_Msk =
      putField v 16 16 := by
    intro v
    have hopmode : PDMA_DSCT_CTL_OPMODE_Msk = fieldMask 2 := by decide
    apply BitVec.eq_of_getLsbD_eq
    intro i hi
    rw [BitVec.getLsbD_and, BitVec.getLsbD_not, hopmode, getLsbD_fieldMask hi, getLsbD_putField hi]
    rcases Nat.lt_or_ge i 16 with hlt | hge
    · simp [Nat.not_le.2 hlt]
    · simp [hi, show ¬ i < 2 by omega]
  have hzero : putField (1#32 - 1#32) 16 16 = 0#32 := by decide
  simp only [descCtl, hshift, hzero]
  cases linked <;> cases silent <;>
    simp only [BitVec.or_assoc, BitVec.zero_or, Bool.false_eq_true, if_true, if_false,
      BitVec.and_or_distrib_right, hmask]

/-- The other fields of the control word. -/
structure CtlFields (ctl : BitVec 32) (m : NuPdmaMemctrl) (w : BitVec 32) (linked silent : Bool) :
    Prop where
  txcnt : getField ctl 16 16 = 0#32
  opmode : getField ctl 0 2 = if linked then PDMA_OP_SCATTER else PDMA_OP_BASIC
  width : 2 ^ (getField ctl 12 2).toNat = w.toNat / 8
  src : getField ctl 8 2 = 3#32 ↔ m.code &&& 2#32 = 0#32
  dst : getField ctl 10 2 = 3#32 ↔ m.code &&& 1#32 = 0#32
  silent : getField ctl 7 1 = 1#32 ↔ silent = true

theorem descCtl_one_fields (p : BitVec 32) (m : NuPdmaMemctrl) (linked silent : Bool)
    (hw : ValidWidth w) : CtlFields (descCtl p m w 1#32 linked silent) m w linked silent := by
  have hp : descCtl p m w 1#32 linked silent =
      descCtl (if p = PDMA_MEM then PDMA_MEM else 1#32) m w 1#32 linked silent := by
    split
    · rw [‹p = PDMA_MEM›]
    · simp only [descCtl, if_neg ‹¬ p = PDMA_MEM›, show ¬ (1#32 = PDMA_MEM) by decide, if_false]
  rw [hp]
  rcases hw with rfl | rfl | rfl <;> cases m <;> cases linked <;> cases silent <;> split <;>
    exact ⟨by decide, by decide, by decide, by decide, by decide, by decide⟩

variable {sa da : BitVec 32}

/-- A field below the count is that of a descriptor for one element. -/
theorem getField_descCtl {pos len : Nat} (h : pos + len ≤ 16) :
    getField (descCtl p m w cnt linked silent) pos len =
      getField (descCtl p m w 1#32 linked silent) pos len := by
  rw [descCtl_eq, getField_or, getField_putField_disjoint (.inl h), BitVec.zero_or]

theorem descFields_opmode (p : BitVec 32) (m : NuPdmaMemctrl) (sa da cnt next : BitVec 32)
    (silent : Bool) (hw : ValidWidth w) :
    (descFields p m w sa da cnt next silent).opmode =
      if next ≠ 0#32 then PDMA_OP_SCATTER else PDMA_OP_BASIC := by
  rw [Dsct.opmode, descFields, getField_descCtl (by decide), (descCtl_one_fields p m _ silent hw).opmode]
  simp only [decide_eq_true_iff]

theorem descFields_count (hw : ValidWidth w) :
    (descFields p m w sa da cnt next silent).count = (cnt - 1#32).toNat % 2 ^ 16 + 1 := by
  rw [Dsct.count, descFields, descCtl_eq, getField_or, (descCtl_one_fields p m _ silent hw).txcnt,
    BitVec.or_zero, getField_toNat (by decide), putField_toNat (by decide)]
  omega

theorem descFields_width (hw : ValidWidth w) :
    (descFields p m w sa da cnt next silent).width = w.toNat / 8 := by
  rw [Dsct.width, descFields, getField_descCtl (by decide),
    (descCtl_one_fields p m (next ≠ 0#32) silent hw).width]

theorem descFields_srcStride (hw : ValidWidth w) :
    (descFields p m w sa da cnt next silent).srcStride = m.srcStep w := by
  rw [Dsct.srcStride, descFields_width hw, descFields, getField_descCtl (by decide)]
  simp only [(descCtl_one_fields p m (next ≠ 0#32) silent hw).src]
  rfl

theorem descFields_dstStride (hw : ValidWidth w) :
    (descFields p m w sa da cnt next silent).dstStride = m.dstStep w := by
  rw [Dsct.dstStride, descFields_width hw, descFields, getField_descCtl (by decide)]
  simp only [(descCtl_one_fields p m (next ≠ 0#32) silent hw).dst]
  rfl

theorem descFields_silent (hw : ValidWidth w) :
    (descFields p m w sa da cnt next silent).silent ↔ silent = true := by
  rw [Dsct.silent, descFields, getField_descCtl (by decide)]
  exact (descCtl_one_fields p m (next ≠ 0#32) silent hw).silent

/-- What the engine does with a filled descriptor. -/
theorem descFields_run (hw : ValidWidth w) (b : Bus) :
    (descFields p m w sa da cnt next silent).run b =
      b.moveElements (w.toNat / 8) sa da (m.srcStep w) (m.dstStep w)
        ((cnt - 1#32).toNat % 2 ^ 16 + 1) := by
  rw [Dsct.run, descFields_width hw, descFields_srcStride hw, descFields_dstStride hw,
    descFields_count hw]
  rfl

end

end NumakerMA35D1.Pdma

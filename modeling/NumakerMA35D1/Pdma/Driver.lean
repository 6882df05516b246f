import NumakerMA35D1.Pdma.Desc
import NumakerMA35D1.Lib.Outcome
import NumakerMA35D1.NuUtils.Bitutil

/-!
# The PDMA driver

The state of the driver and the functions that allocate, free and configure a channel and start a
transfer on it. A channel number is the word the caller passes, as the driver's own test reads it; a
call that does not return stops with a `Halt`.

A transfer of more than `NU_PDMA_MAX_TXCNT` elements goes over a chain of descriptors, whose table
the channel keeps for the next transfer of that length. What the memory allocator answers is a
parameter of a transfer (`Malloc`).

Reference: `drv_pdma.c`.
-/

namespace NumakerMA35D1.Pdma

open Embedded

/-! ## State -/

/-- What keeps a call from returning. -/
inductive Halt
  /-- A failed `RT_ASSERT`. -/
  | rtAssert
  /-- An access through a null table. -/
  | nullDeref
  /-- An access to a descriptor that is not there. -/
  | dangling
  /-- A wait that nothing ends. -/
  | blocked
deriving DecidableEq, Repr

/-- Error codes. Reference: `rtdef.h:343 RT_EOK`, `rtdef.h:344 RT_ERROR`, `rtdef.h:353 RT_EINVAL`. -/
def RT_EOK : Int := 0
@[inherit_doc RT_EOK] def RT_ERROR : Int := 1
@[inherit_doc RT_EOK] def RT_EINVAL : Int := 10

/-- Modules in use, and the channels of one.
Reference: `drv_pdma.c:37 PDMA_CNT`, `pdma_reg.h:15 PDMA_CH_MAX`. -/
def PDMA_CNT : Nat := 2
@[inherit_doc PDMA_CNT] def PDMA_CH_MAX : Nat := 10
@[inherit_doc PDMA_CNT] def PDMA_CH_Msk : BitVec 32 := (1#32 <<< PDMA_CH_MAX) - 1#32

/-- Memory actors. Reference: `drv_pdma.c:27 NU_PDMA_MEMFUN_ACTOR_MAX`. -/
def NU_PDMA_MEMFUN_ACTOR_MAX : Nat := 4

/-- Where the registers of the first module are. Reference: `ma35d1.h:504 PDMA0_BASE`. -/
def DEF_PDMA_BASE_START : BitVec 32 := 0x40080000#32

/-- The descriptors in memory that are allocated. -/
abbrev Heap := BitVec 32 → Option Dsct

/-- The record of a channel. Of the callbacks only the one on events is kept, as the number of the
object that its user data points to: the memory actor, for a `nu_pdma_memfun_cb`.
Reference: `drv_pdma.c:72 nu_pdma_chn`. -/
structure NuPdmaChn where
  m_sCB_Event : Option Nat
  m_ppsSgtbl : Option (List (BitVec 32))
  m_u32WantedSGTblNum : BitVec 32
  m_u32EventFilter : BitVec 32
  m_u32IdleTimeout_us : BitVec 32
  m_u32Peripheral : BitVec 32
  m_eMemCtl : NuPdmaMemctrl

/-- A record filled with zeros. -/
def NuPdmaChn.zero : NuPdmaChn where
  m_sCB_Event := none
  m_ppsSgtbl := none
  m_u32WantedSGTblNum := 0#32
  m_u32EventFilter := 0#32
  m_u32IdleTimeout_us := 0#32
  m_u32Peripheral := 0#32
  m_eMemCtl := .srcFixDstFix

/-- A memory actor. Reference: `drv_pdma.c:83 nu_pdma_memfun_actor`. -/
structure NuPdmaMemfunActor where
  m_i32ChannID : BitVec 32
  m_u32Result : BitVec 32

/-- The variables of the driver, the descriptors in the registers and those in memory. The pool
semaphore is its count, once it exists. Reference: `drv_pdma.c:108` to `:115`, `:239`. -/
structure NuPdma where
  nuPdmaInited : Bool
  nuPdmaChnMaskArr : Nat → BitVec 32
  nuPdmaChnArr : Nat → NuPdmaChn
  nuPdmaMemfunActorArr : Nat → NuPdmaMemfunActor
  nuPdmaMemfunActorMask : BitVec 32
  nuPdmaMemfunActorPoolSem : Option Nat
  DSCT : Nat → Dsct
  heap : Heap

/-- The driver before its first call. -/
def NuPdma.reset : NuPdma where
  nuPdmaInited := false
  nuPdmaChnMaskArr _ := 0#32
  nuPdmaChnArr _ := .zero
  nuPdmaMemfunActorArr _ := ⟨0#32, 0#32⟩
  nuPdmaMemfunActorMask := 0#32
  nuPdmaMemfunActorPoolSem := none
  DSCT _ := default
  heap _ := none

/-- A pointer to a descriptor: in the registers of a channel, or in memory. -/
inductive NuPdmaDesc
  | reg (ch : Nat)
  | mem (a : BitVec 32)
deriving DecidableEq

/-- The address of a descriptor. Reference: `drv_pdma.c:59 NU_PDMA_GET_BASE`. -/
def NuPdmaDesc.addr : NuPdmaDesc → BitVec 32
  | reg ch =>
    DEF_PDMA_BASE_START + BitVec.ofNat 32 (ch / PDMA_CH_MAX * 0x10000 + ch % PDMA_CH_MAX * 16)
  | mem a => a

namespace NuPdma

/-- A new record for a channel. -/
def setChn (s : NuPdma) (ch : Nat) (r : NuPdmaChn) : NuPdma :=
  { s with nuPdmaChnArr := Function.update s.nuPdmaChnArr ch r }

@[simp] theorem nuPdmaChnArr_setChn (s : NuPdma) (ch : Nat) (r : NuPdmaChn) (c : Nat) :
    (s.setChn ch r).nuPdmaChnArr c = if c = ch then r else s.nuPdmaChnArr c :=
  Function.update_apply ..

/-- New contents for the registers of a channel. -/
def setDSCT (s : NuPdma) (ch : Nat) (d : Dsct) : NuPdma :=
  { s with DSCT := Function.update s.DSCT ch d }

@[simp] theorem DSCT_setDSCT (s : NuPdma) (ch : Nat) (d : Dsct) : (s.setDSCT ch d).DSCT ch = d :=
  Function.update_self ..

/-- A descriptor written through a pointer to it. -/
def store (s : NuPdma) (p : NuPdmaDesc) (d : Dsct) : Except Halt NuPdma :=
  match p with
  | .reg ch => .ok (s.setDSCT ch d)
  | .mem a =>
    match s.heap a with
    | none => .error .dangling
    | some _ => .ok { s with heap := Function.update s.heap a (some d) }

/-- A descriptor read through a pointer to it. -/
def load (s : NuPdma) (p : NuPdmaDesc) : Except Halt Dsct :=
  match p with
  | .reg ch => .ok (s.DSCT ch)
  | .mem a =>
    match s.heap a with
    | none => .error .dangling
    | some d => .ok d

end NuPdma

/-- What the allocator answers in one transfer: whether there is room for the table of pointers, and
where a descriptor is put, if anywhere, which is no address in use. -/
structure Malloc where
  table : Bool
  desc : Heap → Option (BitVec 32)
  fresh : ∀ {h a}, desc h = some a → a ≠ 0#32 ∧ h a = none

/-! ## Channels -/

/-- Whether a channel is not allocated. Reference: `drv_pdma.c:241 nu_pdma_check_is_nonallocated`. -/
def nuPdmaCheckIsNonallocated (s : NuPdma) (u32ChnId : BitVec 32) : Except Halt Bool :=
  if u32ChnId.toNat / PDMA_CH_MAX < PDMA_CNT then
    .ok (!(s.nuPdmaChnMaskArr (u32ChnId.toNat / PDMA_CH_MAX)).getLsbD (u32ChnId.toNat % PDMA_CH_MAX))
  else
    .error .rtAssert

/-- The request sources of memory, of the transmitters and of the receivers, with how their
addresses step. Reference: `drv_pdma.c:156 g_nu_pdma_peripheral_ctl_pool`, `nu_pdma.h:74`. -/
def gNuPdmaPeripheralCtlPool : List (BitVec 32 × NuPdmaMemctrl) :=
  let tx : List (BitVec 32) :=
    [4, 6, 8, 10, 12, 14, 16, 18, 20, 22, 24, 26, 28, 30, 32, 34, 36, 54, 56, 60, 62, 64, 66, 70, 72,
      74, 76, 78, 80, 86, 88]
  (PDMA_MEM, .srcIncDstInc) :: tx.map (·, .srcIncDstFix) ++ tx.map (· + 1#32, .srcFixDstInc)

/-- The driver set up at the first call. Reference: `drv_pdma.c:274 nu_pdma_init`. -/
def nuPdmaInit (s : NuPdma) : NuPdma :=
  if s.nuPdmaInited then s
  else
    { s with
      nuPdmaChnArr := fun _ => .zero
      nuPdmaChnMaskArr := fun _ => ~~~PDMA_CH_Msk
      nuPdmaInited := true }

/-- The idle time of a channel, of which a channel's registers are left out. The result tells a time
of zero as an error. Reference: `drv_pdma.c:338 nu_pdma_timeout_set`. -/
def nuPdmaTimeoutSet (s : NuPdma) (i32ChannID i32Timeout_us : BitVec 32) : Except Halt (Int × NuPdma) := do
  if ← nuPdmaCheckIsNonallocated s i32ChannID then
    return (-RT_EINVAL, s)
  let r := s.nuPdmaChnArr i32ChannID.toNat
  let s := s.setChn i32ChannID.toNat { r with m_u32IdleTimeout_us := i32Timeout_us }
  return (if i32Timeout_us ≠ 0#32 then -RT_EOK else -RT_EINVAL, s)

/-- A channel reset and enabled again. Reference: `drv_pdma.c:388 nu_pdma_channel_terminate`,
`drv_pdma.c:303 nu_pdma_channel_enable`. -/
def nuPdmaChannelTerminate (s : NuPdma) (i32ChannID : BitVec 32) : Except Halt NuPdma := do
  if ← nuPdmaCheckIsNonallocated s i32ChannID then
    return s
  let (_, s) ← nuPdmaTimeoutSet s i32ChannID 0#32
  return s.setDSCT i32ChannID.toNat { s.DSCT i32ChannID.toNat with CTL := 0#32 }

/-- The first free channel from module `j` on, or `-RT_ERROR`.
Reference: `drv_pdma.c:415` to `:436`. -/
def nuPdmaChannelAllocateFrom (s : NuPdma) (periph : BitVec 32 × NuPdmaMemctrl) :
    List Nat → Except Halt (BitVec 32 × NuPdma)
  | [] => .ok (-1#32, s)
  | j :: js => do
    let ChnId := nuCto (s.nuPdmaChnMaskArr j)
    if ChnId < PDMA_CH_MAX then
      let s := { s with
        nuPdmaChnMaskArr :=
          Function.update s.nuPdmaChnMaskArr j (s.nuPdmaChnMaskArr j ||| 1#32 <<< ChnId) }
      let ChnId := ChnId + j * PDMA_CH_MAX
      let s := s.setChn ChnId
        { NuPdmaChn.zero with m_u32Peripheral := periph.1, m_eMemCtl := periph.2 }
      let s ← nuPdmaChannelTerminate s (BitVec.ofNat 32 ChnId)
      return (BitVec.ofNat 32 ChnId, s)
    else
      nuPdmaChannelAllocateFrom s periph js

/-- A channel for a peripheral. Reference: `drv_pdma.c:406 nu_pdma_channel_allocate`. -/
def nuPdmaChannelAllocate (s : NuPdma) (i32PeripType : BitVec 32) : Except Halt (BitVec 32 × NuPdma) :=
  let s := nuPdmaInit s
  match gNuPdmaPeripheralCtlPool.find? (·.1 = i32PeripType) with
  | none => .ok (-1#32, s)
  | some periph => nuPdmaChannelAllocateFrom s periph (List.range PDMA_CNT)

/-- A channel given back. Its record stays. Reference: `drv_pdma.c:442 nu_pdma_channel_free`. -/
def nuPdmaChannelFree (s : NuPdma) (i32ChannID : BitVec 32) : Except Halt (Int × NuPdma) := do
  if !s.nuPdmaInited then
    return (-RT_EINVAL, s)
  if ← nuPdmaCheckIsNonallocated s i32ChannID then
    return (-RT_EINVAL, s)
  if i32ChannID.toNat < PDMA_CNT * PDMA_CH_MAX then
    let j := i32ChannID.toNat / PDMA_CH_MAX
    let s := { s with
      nuPdmaChnMaskArr := Function.update s.nuPdmaChnMaskArr j
        (s.nuPdmaChnMaskArr j &&& ~~~(1#32 <<< (i32ChannID.toNat % PDMA_CH_MAX))) }
    return (-RT_EOK, s)
  return (-RT_EINVAL, s)

/-- The events a channel's callback is called on. Reference: `drv_pdma.c:461 nu_pdma_filtering_set`. -/
def nuPdmaFilteringSet (s : NuPdma) (i32ChannID u32EventFilter : BitVec 32) :
    Except Halt (Int × NuPdma) := do
  if ← nuPdmaCheckIsNonallocated s i32ChannID then
    return (-RT_EINVAL, s)
  let r := s.nuPdmaChnArr i32ChannID.toNat
  return (-RT_EOK, s.setChn i32ChannID.toNat { r with m_u32EventFilter := u32EventFilter })

/-- The event callback of a channel. Reference: `drv_pdma.c:489 nu_pdma_callback_register`. -/
def nuPdmaCallbackRegister (s : NuPdma) (i32ChannID : BitVec 32) (psChnCb : Option Nat) :
    Except Halt (Int × NuPdma) := do
  if ← nuPdmaCheckIsNonallocated s i32ChannID then
    return (-RT_EINVAL, s)
  let r := s.nuPdmaChnArr i32ChannID.toNat
  return (-RT_EOK, s.setChn i32ChannID.toNat { r with m_sCB_Event := psChnCb })

/-- How the addresses of a channel's transfers step.
Reference: `drv_pdma.c:634 nu_pdma_channel_memctrl_set`. -/
def nuPdmaChannelMemctrlSet (s : NuPdma) (i32ChannID : BitVec 32) (eMemCtrl : NuPdmaMemctrl) :
    Except Halt (Int × NuPdma) := do
  if ← nuPdmaCheckIsNonallocated s i32ChannID then
    return (-RT_EINVAL, s)
  let r := s.nuPdmaChnArr i32ChannID.toNat
  if eMemCtrl = .undefined then
    return (-RT_EINVAL, s)
  if r.m_u32Peripheral = PDMA_MEM ∧ (eMemCtrl = .srcFixDstInc ∨ eMemCtrl = .srcFixDstFix) then
    return (-RT_EINVAL, s)
  return (-RT_EOK, s.setChn i32ChannID.toNat { r with m_eMemCtl := eMemCtrl })

/-- Reference: `drv_pdma.c:619 nu_pdma_channel_memctrl_get`. -/
def nuPdmaChannelMemctrlGet (s : NuPdma) (i32ChannID : BitVec 32) : Except Halt NuPdmaMemctrl := do
  if ← nuPdmaCheckIsNonallocated s i32ChannID then
    return .undefined
  return (s.nuPdmaChnArr i32ChannID.toNat).m_eMemCtl

/-! ## Transfers -/

/-- A descriptor set up for a transfer. Reference: `drv_pdma.c:685 nu_pdma_desc_setup`. -/
def nuPdmaDescSetup (s : NuPdma) (i32ChannID : BitVec 32) (dma_desc : NuPdmaDesc)
    (u32DataWidth u32AddrSrc u32AddrDst i32TransferCnt next : BitVec 32) (u32BeSilent : Bool) :
    Except Halt (Int × NuPdma) := do
  if dma_desc = .mem 0#32 then
    return (-RT_EINVAL, s)
  if ← nuPdmaCheckIsNonallocated s i32ChannID then
    return (-RT_EINVAL, s)
  if ¬ ValidWidth u32DataWidth then
    return (-RT_EINVAL, s)
  if u32AddrSrc % (u32DataWidth / 8#32) ≠ 0#32 ∨ u32AddrDst % (u32DataWidth / 8#32) ≠ 0#32 then
    return (-RT_EINVAL, s)
  if NU_PDMA_MAX_TXCNT < i32TransferCnt then
    return (-RT_EINVAL, s)
  let r := s.nuPdmaChnArr i32ChannID.toNat
  let s ← s.store dma_desc (descFields r.m_u32Peripheral r.m_eMemCtl u32DataWidth u32AddrSrc
    u32AddrDst i32TransferCnt next u32BeSilent)
  return (-RT_EOK, s)

/-- Descriptors for a table, filled with zeros. Reference: `drv_pdma.c:750 nu_pdma_sgtbls_allocate`. -/
def nuPdmaSgtblsAllocate (rtMallocAlign : Heap → Option (BitVec 32)) :
    (num : Nat) → Heap → Except Halt (List (BitVec 32) × Heap)
  | 0, h => .ok ([], h)
  | num + 1, h =>
    match rtMallocAlign h with
    | none => .error .rtAssert
    | some a => do
      let (ps, h) ← nuPdmaSgtblsAllocate rtMallocAlign num
        (Function.update h a (some ⟨0#32, 0#32, 0#32, 0#32⟩))
      return (a :: ps, h)

/-- The descriptors of a table given back. Reference: `drv_pdma.c:767 nu_pdma_sgtbls_free`. -/
def nuPdmaSgtblsFree (ppsSgtbls : List (BitVec 32)) (num : Nat) (h : Heap) : Except Halt Heap :=
  if num = 0 then .error .rtAssert
  else if ppsSgtbls.length < num then .error .dangling
  else .ok fun a => if (ppsSgtbls.take num).contains a then none else h a

/-- A channel's table given back. Reference: `drv_pdma.c:894 _nu_pdma_free_sgtbls`. -/
def _nuPdmaFreeSgtbls (s : NuPdma) (ch : Nat) : Except Halt NuPdma :=
  let r := s.nuPdmaChnArr ch
  match r.m_ppsSgtbl with
  | none => .ok s
  | some ps => do
    let h ← nuPdmaSgtblsFree ps r.m_u32WantedSGTblNum.toNat s.heap
    return { s.setChn ch { r with m_ppsSgtbl := none, m_u32WantedSGTblNum := 0#32 } with heap := h }

/-- The engine pointed at a descriptor. Reference: `nu_pdma.c:230 PDMA_SetTransferMode`. -/
def pdmaSetTransferMode (s : NuPdma) (ch : Nat) (u32ScatterEn : Bool) (u32DescAddr : BitVec 32) :
    NuPdma :=
  let d := s.DSCT ch
  if u32ScatterEn then
    s.setDSCT ch { d with
      NEXT := u32DescAddr
      CTL := (d.CTL &&& ~~~PDMA_DSCT_CTL_OPMODE_Msk) ||| PDMA_OP_SCATTER }
  else
    s.setDSCT ch { d with CTL := (d.CTL &&& ~~~PDMA_DSCT_CTL_OPMODE_Msk) ||| PDMA_OP_BASIC }

/-- A transfer started. Reference: `drv_pdma.c:780 _nu_pdma_transfer`. -/
def _nuPdmaTransfer (s : NuPdma) (i32ChannID : BitVec 32) (head : NuPdmaDesc)
    (u32IdleTimeout_us : BitVec 32) : Except Halt NuPdma := do
  let d ← s.load head
  let s := pdmaSetTransferMode s i32ChannID.toNat (d.NEXT ≠ 0#32) head.addr
  let (_, s) ← nuPdmaTimeoutSet s i32ChannID u32IdleTimeout_us
  return s

/-- Entry `i` of a channel's table. -/
def NuPdmaChn.sgtbl (r : NuPdmaChn) (i : Nat) : Except Halt (BitVec 32) :=
  match r.m_ppsSgtbl with
  | none => .error .nullDeref
  | some ps =>
    match ps[i]? with
    | none => .error .dangling
    | some a => .ok a

/-- The descriptors of a channel's table from entry `i` on filled for a transfer, `left` of them.
Reference: `drv_pdma.c:935` to `:954`. -/
def _nuPdmaTransferChainLoop (i32ChannID u32DataWidth u32AddrSrc u32AddrDst : BitVec 32)
    (eMemCtl : NuPdmaMemctrl) :
    (left i : Nat) → (u32TransferCnt u32Offset : BitVec 32) → NuPdma → Except Halt (Int × NuPdma)
  | 0, _, _, _, s => .ok (RT_EOK, s)
  | left + 1, i, u32TransferCnt, u32Offset, s => do
    let r := s.nuPdmaChnArr i32ChannID.toNat
    let u32TxCnt := if NU_PDMA_MAX_TXCNT < u32TransferCnt then NU_PDMA_MAX_TXCNT else u32TransferCnt
    let dma_desc ← r.sgtbl i
    let next ← (if left = 0 then .ok 0#32 else r.sgtbl (i + 1) : Except Halt (BitVec 32))
    let (ret, s) ← nuPdmaDescSetup s i32ChannID (.mem dma_desc) u32DataWidth
      (if eMemCtl.code &&& 2#32 ≠ 0#32 then u32AddrSrc + u32Offset else u32AddrSrc)
      (if eMemCtl.code &&& 1#32 ≠ 0#32 then u32AddrDst + u32Offset else u32AddrDst)
      u32TxCnt next (left ≠ 0)
    if ret ≠ RT_EOK then
      return (ret, s)
    _nuPdmaTransferChainLoop i32ChannID u32DataWidth u32AddrSrc u32AddrDst eMemCtl left (i + 1)
      (u32TransferCnt - u32TxCnt) (u32Offset + u32TxCnt * u32DataWidth / 8#32) s

/-- A table of the wanted length for a channel, if it has another. The error leaves through the exit
of the transfer. Reference: `drv_pdma.c:919` to `:933`. -/
def _nuPdmaTransferChainTable (m : Malloc) (s : NuPdma) (ch : Nat) (wanted : BitVec 32) :
    Except Halt (Int × NuPdma) := do
  if (s.nuPdmaChnArr ch).m_u32WantedSGTblNum = wanted then
    return (RT_EOK, s)
  let s ← (if 0#32 < (s.nuPdmaChnArr ch).m_u32WantedSGTblNum then _nuPdmaFreeSgtbls s ch
    else .ok s : Except Halt NuPdma)
  let r := { s.nuPdmaChnArr ch with m_u32WantedSGTblNum := wanted }
  if !m.table then
    return (RT_ERROR, s.setChn ch { r with m_ppsSgtbl := none })
  let (ps, h) ← nuPdmaSgtblsAllocate m.desc wanted.toNat s.heap
  return (RT_EOK, { s.setChn ch { r with m_ppsSgtbl := some ps } with heap := h })

/-- A transfer over a chain of descriptors. Reference: `drv_pdma.c:905 _nu_pdma_transfer_chain`. -/
def _nuPdmaTransferChain (m : Malloc) (s : NuPdma)
    (i32ChannID u32DataWidth u32AddrSrc u32AddrDst u32TransferCnt u32IdleTimeout_us : BitVec 32) :
    Except Halt (Int × NuPdma) := do
  let ch := i32ChannID.toNat
  let eMemCtl ← nuPdmaChannelMemctrlGet s i32ChannID
  let wanted := u32TransferCnt / NU_PDMA_MAX_TXCNT + 1#32
  let (ret, s) ← _nuPdmaTransferChainTable m s ch wanted
  if ret ≠ RT_EOK then
    return (-ret, ← _nuPdmaFreeSgtbls s ch)
  let (ret, s) ← _nuPdmaTransferChainLoop i32ChannID u32DataWidth u32AddrSrc u32AddrDst eMemCtl
    wanted.toNat 0 u32TransferCnt 0#32 s
  if ret ≠ RT_EOK then
    return (-ret, ← _nuPdmaFreeSgtbls s ch)
  let head ← (s.nuPdmaChnArr ch).sgtbl 0
  let s ← _nuPdmaTransfer s i32ChannID (.mem head) u32IdleTimeout_us
  return (RT_EOK, s)

/-- A transfer. Reference: `drv_pdma.c:968 nu_pdma_transfer`. -/
def nuPdmaTransfer (m : Malloc) (s : NuPdma)
    (i32ChannID u32DataWidth u32AddrSrc u32AddrDst u32TransferCnt u32IdleTimeout_us : BitVec 32) :
    Except Halt (Int × NuPdma) := do
  if ← nuPdmaCheckIsNonallocated s i32ChannID then
    return (-RT_EINVAL, s)
  if u32TransferCnt = 0#32 then
    return (-RT_EINVAL, s)
  if NU_PDMA_MAX_TXCNT < u32TransferCnt then
    return ← _nuPdmaTransferChain m s i32ChannID u32DataWidth u32AddrSrc u32AddrDst u32TransferCnt
      u32IdleTimeout_us
  let head := NuPdmaDesc.reg i32ChannID.toNat
  let (ret, s) ← nuPdmaDescSetup s i32ChannID head u32DataWidth u32AddrSrc u32AddrDst u32TransferCnt
    0#32 false
  if ret ≠ RT_EOK then
    return (-ret, s)
  let s ← _nuPdmaTransfer s i32ChannID head u32IdleTimeout_us
  return (-RT_EOK, s)

end NumakerMA35D1.Pdma

import NumakerMA35D1.Pdma.Driver

/-!
# The interrupt handler of a PDMA module

`nu_pdma_isr` and the callbacks that a channel's record keeps for it. A callback is the number of the
object that its user data points to. The handler serves one channel after another and calls out in
between, so it is cut where it calls: `nuPdmaIsrServe` is a round of its loop up to the callbacks,
`nuPdmaIsrResume` what the round does after them. The driver calls that an event callback makes come
between the two; a `eCBType_Disable` callback only stops its peripheral.

Reference: `drv_pdma.c`.
-/

namespace NumakerMA35D1.Pdma

open Embedded

/-! ## Callbacks -/

/-- Reference: `drv_pdma.h:46 nu_pdma_cbtype_t`. -/
inductive NuPdmaCbtype
  | event
  | trigger
  | disable
  | undefined
deriving DecidableEq

/-- The driver with the callbacks that a record keeps beside the one on events.
Reference: `drv_pdma.c:66 nu_pdma_chn`. -/
structure Driver where
  pdma : NuPdma
  m_sCB_Trigger : Nat → Option Nat
  m_sCB_Disable : Nat → Option Nat

namespace Driver

/-- The driver before its first call. -/
def reset : Driver := ⟨.reset, fun _ => none, fun _ => none⟩

/-- The callback of a channel. -/
def callback (s : Driver) (ch : Nat) : NuPdmaCbtype → Option Nat
  | .event => (s.pdma.nuPdmaChnArr ch).m_sCB_Event
  | .trigger => s.m_sCB_Trigger ch
  | .disable => s.m_sCB_Disable ch
  | .undefined => none

end Driver

/-- The records of all channels filled with zeros at the first call.
Reference: `drv_pdma.c:274 nu_pdma_init`. -/
def driverInit (s : Driver) : Driver :=
  if s.pdma.nuPdmaInited then s else ⟨nuPdmaInit s.pdma, fun _ => none, fun _ => none⟩

/-- A channel for a peripheral, with its record filled with zeros.
Reference: `drv_pdma.c:406 nu_pdma_channel_allocate`. -/
def channelAllocate (s : Driver) (i32PeripType : BitVec 32) : Except Halt (BitVec 32 × Driver) := do
  let s := driverInit s
  let (ch, pdma) ← nuPdmaChannelAllocate s.pdma i32PeripType
  if ch = -1#32 then
    return (ch, { s with pdma })
  return (ch, ⟨pdma, Function.update s.m_sCB_Trigger ch.toNat none,
    Function.update s.m_sCB_Disable ch.toNat none⟩)

/-- A callback of a channel. Reference: `drv_pdma.c:489 nu_pdma_callback_register`. -/
def callbackRegister (s : Driver) (i32ChannID : BitVec 32) (m_eCBType : NuPdmaCbtype)
    (psChnCb : Option Nat) : Except Halt (Int × Driver) :=
  match m_eCBType with
  | .event => do
    let (ret, pdma) ← nuPdmaCallbackRegister s.pdma i32ChannID psChnCb
    return (ret, { s with pdma })
  | .trigger => do
    if ← nuPdmaCheckIsNonallocated s.pdma i32ChannID then
      return (-RT_EINVAL, s)
    return (-RT_EOK,
      { s with m_sCB_Trigger := Function.update s.m_sCB_Trigger i32ChannID.toNat psChnCb })
  | .disable => do
    if ← nuPdmaCheckIsNonallocated s.pdma i32ChannID then
      return (-RT_EINVAL, s)
    return (-RT_EOK,
      { s with m_sCB_Disable := Function.update s.m_sCB_Disable i32ChannID.toNat psChnCb })
  | .undefined => do
    let _ ← nuPdmaCheckIsNonallocated s.pdma i32ChannID
    return (-RT_EINVAL, s)

/-! ## The handler -/

/-- Events. Reference: `drv_pdma.h:23` to `:26`. -/
def NU_PDMA_EVENT_ALIGNMENT : BitVec 32 := 4#32
@[inherit_doc NU_PDMA_EVENT_ALIGNMENT] def NU_PDMA_EVENT_TIMEOUT : BitVec 32 := 8#32

/-- The channels of a module that time out. Reference: `pdma_reg.h:880 PDMA_INTSTS_REQTOFn_Pos`. -/
def PDMA_INTSTS_REQTOFn_Pos : Nat := 8
@[inherit_doc PDMA_INTSTS_REQTOFn_Pos]
def PDMA_INTSTS_REQTOFn_Msk : BitVec 32 := PDMA_CH_Msk <<< PDMA_INTSTS_REQTOFn_Pos

/-- The registers of a module, as the vector of its interrupt has them.
Reference: `drv_pdma.c:116 nu_pdma_arr`. -/
def nuPdmaArr (i : Nat) : BitVec 32 := DEF_PDMA_BASE_START + BitVec.ofNat 32 (i * 0x10000)

/-- The status words that the handler reads. Reference: `drv_pdma.c:1035` to `:1038`. -/
structure IntStatus where
  intsts : BitVec 32
  abtsts : BitVec 32
  tdsts : BitVec 32
  unalignsts : BitVec 32

/-- Reference: `drv_pdma.c:1040 reqto_ch`. -/
def IntStatus.reqtoCh (sts : IntStatus) : BitVec 32 :=
  (sts.intsts &&& PDMA_INTSTS_REQTOFn_Msk) >>> PDMA_INTSTS_REQTOFn_Pos

/-- Reference: `drv_pdma.c:1042 allch_sts`. -/
def IntStatus.allchSts (sts : IntStatus) : BitVec 32 :=
  sts.reqtoCh ||| sts.tdsts ||| sts.abtsts ||| sts.unalignsts

/-- The events of a channel. Reference: `drv_pdma.c:1085` to `:1105`. -/
def IntStatus.chEvent (sts : IntStatus) (i : Nat) : BitVec 32 :=
  (if sts.abtsts.getLsbD i then 1#32 else 0#32) |||
  (if sts.tdsts.getLsbD i then 2#32 else 0#32) |||
  (if sts.unalignsts.getLsbD i then NU_PDMA_EVENT_ALIGNMENT else 0#32) |||
  (if sts.reqtoCh.getLsbD i then NU_PDMA_EVENT_TIMEOUT else 0#32)

/-- A callback called for a channel. The one that disables is called with the record's reserved word,
which nothing sets. -/
structure CallbackCall where
  ch : Nat
  m_eCBType : NuPdmaCbtype
  m_pvUserData : Nat
  u32Events : BitVec 32

/-- The variables of the handler at work on a module, and the channel whose callbacks it has called,
if there is one. -/
structure Isr where
  PDMA : BitVec 32
  sts : IntStatus
  allch_sts : BitVec 32
  serving : Option Nat

/-- The handler entered. Reference: `drv_pdma.c:1030` to `:1070`. -/
def nuPdmaIsrEnter (pvdata : BitVec 32) (sts : IntStatus) : Isr := ⟨pvdata, sts, sts.allchSts, none⟩

/-- Reference: `drv_pdma.c:1075 module_id`. -/
def Isr.moduleId (isr : Isr) : Nat := (isr.PDMA - DEF_PDMA_BASE_START).toNat / 0x10000

/-- A bit served. Reference: `drv_pdma.c:1121`. -/
def Isr.served (isr : Isr) (i : Nat) : Isr :=
  { isr with allch_sts := isr.allch_sts &&& ~~~(1#32 <<< i), serving := none }

/-- A round of the loop up to the callbacks it calls, if there is a channel left.
Reference: `drv_pdma.c:1073` to `:1112`. -/
def nuPdmaIsrServe (s : Driver) (isr : Isr) : Option (List CallbackCall × Isr) :=
  let i := nuCtz isr.allch_sts
  if i < PDMA_CH_MAX then
    let j := i + isr.moduleId * PDMA_CH_MAX
    if (s.pdma.nuPdmaChnMaskArr isr.moduleId).getLsbD i then
      match s.callback j .event with
      | none => some ([], isr.served i)
      | some data =>
        let disabled := (s.callback j .disable).toList.map (CallbackCall.mk j .disable · 0#32)
        let called := if (s.pdma.nuPdmaChnArr j).m_u32EventFilter &&& isr.sts.chEvent i ≠ 0#32
          then [⟨j, .event, data, isr.sts.chEvent i⟩] else []
        some (disabled ++ called, { isr with serving := some i })
    else
      some ([], isr.served i)
  else
    none

/-- The rest of a round that has called callbacks: the idle time of a channel that timed out runs
again. Reference: `drv_pdma.c:1114` to `:1121`. -/
def nuPdmaIsrResume (s : Driver) (isr : Isr) (i : Nat) : Except Halt (Driver × Isr) := do
  let j := i + isr.moduleId * PDMA_CH_MAX
  if isr.sts.reqtoCh.getLsbD i then
    let (_, pdma) ← nuPdmaTimeoutSet s.pdma (BitVec.ofNat 32 j)
      (s.pdma.nuPdmaChnArr j).m_u32IdleTimeout_us
    return ({ s with pdma }, isr.served i)
  return (s, isr.served i)

end NumakerMA35D1.Pdma

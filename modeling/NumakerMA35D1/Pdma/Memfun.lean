import NumakerMA35D1.Lib.Align
import NumakerMA35D1.Pdma.Driver

/-!
# Memory actors

`nu_pdma_memcpy` as one thread runs it. A memory actor is a channel of `PDMA_MEM` with a semaphore:
the caller employs a free actor, starts a transfer on its channel and waits until the interrupt
handler releases the semaphore.

The engine takes no part in the driver's own steps. How a transfer ends is a parameter
(`TransferEnd`): the events it raises and, when the end is not `NU_PDMA_EVENT_TRANSFER_DONE`, how far
it came. A transfer that is done has moved what the programmed descriptors say (`engineRun`).

Reference: `drv_pdma.c:1118` to `:1303`.
-/

namespace NumakerMA35D1.Pdma

open Embedded

/-- Events. Reference: `drv_pdma.h:23 NU_PDMA_EVENT_ABORT`. -/
def NU_PDMA_EVENT_ABORT : BitVec 32 := 1#32
@[inherit_doc NU_PDMA_EVENT_ABORT] def NU_PDMA_EVENT_TRANSFER_DONE : BitVec 32 := 2#32

/-- How a transfer ends: its events, and for one that is not done the count left and the bytes
moved. -/
structure TransferEnd where
  malloc : Malloc
  events : BitVec 32
  left : BitVec 32
  stopped : Bus → Bus

/-- Nothing but `2 ^ 32` steps lies between a chain and itself, so one that is longer goes round. -/
def chainLimit : Nat := 2 ^ 32

/-- What the descriptors programmed for a channel move, if they end.
Reference: `pdma_reg.h:38`, the modes of `OPMODE`. -/
def engineRun (s : NuPdma) (ch : Nat) (b : Bus) : Option Bus :=
  let d := s.DSCT ch
  if d.opmode = PDMA_OP_SCATTER then runChain s.heap chainLimit d.NEXT b
  else if d.opmode = PDMA_OP_BASIC then some (d.run b)
  else none

/-! ## Actors -/

/-- Channels for the actors from number `i` on, up to the first that gets none; the number of actors.
Reference: `drv_pdma.c:1130` to `:1142`. -/
def nuPdmaMemfunActorInitFrom : (left i : Nat) → NuPdma → Except Halt (Nat × NuPdma)
  | 0, i, s => .ok (i, s)
  | left + 1, i, s => do
    let (ch, s) ← nuPdmaChannelAllocate s PDMA_MEM
    let s := { s with
      nuPdmaMemfunActorArr := Function.update s.nuPdmaMemfunActorArr i ⟨ch, 0#32⟩ }
    if ch = -1#32 then
      return (i, s)
    nuPdmaMemfunActorInitFrom left (i + 1) s

/-- The actors set up. Reference: `drv_pdma.c:1126 nu_pdma_memfun_actor_init`. -/
def nuPdmaMemfunActorInit (s : NuPdma) : Except Halt NuPdma := do
  let (i, s) ← nuPdmaMemfunActorInitFrom NU_PDMA_MEMFUN_ACTOR_MAX 0 (nuPdmaInit s)
  if i = 0 then
    return s
  return { s with
    nuPdmaMemfunActorMask := ~~~((1#32 <<< i) - 1#32)
    nuPdmaMemfunActorPoolSem := some i }

/-- A free actor. Without the pool the caller tries for ever, without a free actor it waits.
Reference: `drv_pdma.c:1167 nu_pdma_memfun_employ`. -/
def nuPdmaMemfunEmploy (s : NuPdma) : Except Halt (Nat × NuPdma) :=
  match s.nuPdmaMemfunActorPoolSem with
  | none | some 0 => .error .blocked
  | some (n + 1) =>
    let idx := nuCto s.nuPdmaMemfunActorMask
    if idx = 32 then .error .blocked
    else .ok (idx, { s with
      nuPdmaMemfunActorMask := s.nuPdmaMemfunActorMask ||| 1#32 <<< idx
      nuPdmaMemfunActorPoolSem := some n })

/-- An actor free again. Reference: `drv_pdma.c:1251` to `:1261`. -/
def nuPdmaMemfunFire (s : NuPdma) (idx : Nat) : NuPdma :=
  { s with
    nuPdmaMemfunActorMask := s.nuPdmaMemfunActorMask &&& ~~~(1#32 <<< idx)
    nuPdmaMemfunActorPoolSem := s.nuPdmaMemfunActorPoolSem.map (· + 1) }

/-- The result of an actor. -/
def NuPdma.setResult (s : NuPdma) (idx : Nat) (u32Result : BitVec 32) : NuPdma :=
  { s with
    nuPdmaMemfunActorArr := Function.update s.nuPdmaMemfunActorArr idx
      { s.nuPdmaMemfunActorArr idx with m_u32Result := u32Result } }

@[simp] theorem NuPdma.result_setResult (s : NuPdma) (idx : Nat) (r : BitVec 32) :
    ((s.setResult idx r).nuPdmaMemfunActorArr idx).m_u32Result = r := by
  simp [NuPdma.setResult]

/-- The count left in the registers of a channel.
Reference: `drv_pdma.c:566 nu_pdma_non_transfer_count_get`. -/
def nuPdmaNonTransferCountGet (s : NuPdma) (i32ChannID : BitVec 32) : BitVec 32 :=
  getField (s.DSCT i32ChannID.toNat).CTL 16 16 + 1#32

/-- The interrupt handler on a channel's events: the actor whose semaphore it releases, with the
events as that actor's result. Reference: `drv_pdma.c:1029 nu_pdma_isr`,
`drv_pdma.c:1155 nu_pdma_memfun_cb`. -/
def nuPdmaIsr (s : NuPdma) (i32ChannID ch_event : BitVec 32) : Option Nat × NuPdma :=
  let r := s.nuPdmaChnArr i32ChannID.toNat
  match r.m_sCB_Event with
  | none => (none, s)
  | some idx =>
    if r.m_u32EventFilter &&& ch_event ≠ 0#32 then (some idx, s.setResult idx ch_event)
    else (none, s)

/-- The engine at work on a channel until its events are raised. -/
def engineEnd (o : TransferEnd) (s : NuPdma) (i32ChannID : BitVec 32) (b : Bus) :
    Except Halt (NuPdma × Bus) :=
  if o.events &&& NU_PDMA_EVENT_TRANSFER_DONE ≠ 0#32 then
    match engineRun s i32ChannID.toNat b with
    | none => .error .blocked
    | some b => .ok (s, b)
  else
    let d := s.DSCT i32ChannID.toNat
    .ok (s.setDSCT i32ChannID.toNat
      { d with CTL := (d.CTL &&& 0xffff#32) ||| putField o.left 16 16 }, o.stopped b)

/-- A transfer by an actor; the elements moved. A transfer that was not started raises no event, so
the caller waits for ever. Reference: `drv_pdma.c:1196 nu_pdma_memfun`. -/
def nuPdmaMemfun (o : TransferEnd) (s : NuPdma) (b : Bus)
    (dest src u32DataWidth u32TransferCnt : BitVec 32) (eMemCtl : NuPdmaMemctrl) :
    Except Halt (BitVec 32 × NuPdma × Bus) := do
  let (idx, s) ← nuPdmaMemfunEmploy s
  let ch := (s.nuPdmaMemfunActorArr idx).m_i32ChannID
  let (_, s) ← nuPdmaChannelMemctrlSet s ch eMemCtl
  let (_, s) ← nuPdmaFilteringSet s ch (NU_PDMA_EVENT_ABORT ||| NU_PDMA_EVENT_TRANSFER_DONE)
  let (_, s) ← nuPdmaCallbackRegister s ch (some idx)
  let s := s.setResult idx 0#32
  let (started, s) ← nuPdmaTransfer o.malloc s ch u32DataWidth src dest u32TransferCnt 0#32
  if started ≠ RT_EOK then
    .error .blocked
  else
    let (s, b) ← engineEnd o s ch b
    let (released, s) := nuPdmaIsr s ch o.events
    if released ≠ some idx then
      .error .blocked
    else
      let u32Result := (s.nuPdmaMemfunActorArr idx).m_u32Result
      let ret := if u32Result &&& NU_PDMA_EVENT_TRANSFER_DONE ≠ 0#32 then u32TransferCnt
        else u32TransferCnt - nuPdmaNonTransferCountGet s ch
      let s ← (if u32Result &&& NU_PDMA_EVENT_ABORT ≠ 0#32 then nuPdmaChannelTerminate s ch
        else .ok s : Except Halt NuPdma)
      return (ret, nuPdmaMemfunFire s idx, b)

/-! ## Copies -/

/-- The passes of a copy with elements of the given sizes; the offset reached, unless a pass is cut
short. Reference: `drv_pdma.c:1279` to `:1295`, `rtdef.h:373 RT_ALIGN_DOWN`. -/
def nuPdmaMemcpyLoop (o : BitVec 32 → TransferEnd) (dest src : BitVec 32) :
    List (BitVec 32) → (u32Offset u32Remaining : BitVec 32) → NuPdma → Bus →
      Except Halt (Option (BitVec 32) × NuPdma × Bus)
  | [], u32Offset, _, s, b => .ok (some u32Offset, s, b)
  | i :: is, u32Offset, u32Remaining, s, b =>
    if u32Remaining = 0#32 then .ok (some u32Offset, s, b)
    else
      let u32src := src + u32Offset
      let u32dest := dest + u32Offset
      if u32src % i = u32dest % i ∧ u32src % i = 0#32 ∧ i ≤ maskLow u32Remaining i then do
        let u32TXCnt := u32Remaining / i
        let (n, s, b) ← nuPdmaMemfun (o i) s b u32dest u32src (i * 8#32) u32TXCnt .srcIncDstInc
        if u32TXCnt ≠ n then
          return (none, s, b)
        nuPdmaMemcpyLoop o dest src is (u32Offset + u32TXCnt * i) (u32Remaining - u32TXCnt * i) s b
      else
        nuPdmaMemcpyLoop o dest src is u32Offset u32Remaining s b

/-- A copy of `count` bytes. The pointer returned is `dest`, or none where the source returns
`NULL`. Reference: `drv_pdma.c:1273 nu_pdma_memcpy`. -/
def nuPdmaMemcpy (o : BitVec 32 → TransferEnd) (s : NuPdma) (b : Bus) (dest src count : BitVec 32) :
    Except Halt (Option (BitVec 32) × NuPdma × Bus) := do
  let (reached, s, b) ← nuPdmaMemcpyLoop o dest src [4#32, 2#32, 1#32] 0#32 count s b
  return (if reached = some count then some dest else none, s, b)

end NumakerMA35D1.Pdma

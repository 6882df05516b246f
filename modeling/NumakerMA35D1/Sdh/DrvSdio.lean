import Mathlib.Logic.Function.Basic
import NumakerMA35D1.Lib.Bus

/-!
# The driver of the SD host controller

A request sends a command, moves its data with the controller's DMA and sends a stop command. The driver
polls the controller's status; between two reads of it anything may happen (`Event`): the response comes
in, the DMA moves bytes, the transfer ends, an error is raised. The DMA stops at each boundary of memory
until the driver writes the address to go on from.

Reference: `drv_sdio.c`, `nu_sdh.c`, `sdh_reg.h`.
-/

namespace NumakerMA35D1.Sdh

open Embedded

/-- A poll looks at the status more than once. -/
scoped instance neZeroLooks : NeZero (4 : Nat) := ⟨by decide⟩

/-! ## The controller -/

/-- The registers, the flags of the two status registers, and the transfer: how many bytes of how many it
has moved, and whether it is held at a boundary. `sdmasa` is where the next byte goes to. `resumes` has the
addresses written to go on from a boundary in this transfer, each with the one after the last byte moved.
Reference: `sdh_reg.h SDH_T`. -/
structure SdhT where
  sdmasa : BitVec 32
  xferBlockSize : BitVec 12
  sdmaBufBdary : BitVec 3
  blockCnt : BitVec 16
  argument : BitVec 32
  xferMode : BitVec 16
  cmd : BitVec 16
  resp01 : BitVec 32
  resp23 : BitVec 32
  resp45 : BitVec 32
  resp67 : BitVec 32
  dmaSel : BitVec 2
  toutCnt : BitVec 4
  cardIsEmmc : Bool
  disableDataCrcChk : Bool
  cmdComplete : Bool
  xferComplete : Bool
  dmaInterrupt : Bool
  errorIntStat : BitVec 16
  moved : Nat
  total : Nat
  held : Bool
  mem : BitVec 32 → Byte
  resumes : List (BitVec 32 × BitVec 32)

/-- What may happen between two reads of a register. -/
inductive Event
  | response (r01 r23 r45 r67 : BitVec 32)
  | move (n : Nat)
  | complete
  | error (bits : BitVec 16)

namespace SdhT

/-- From the card to memory. Reference: `sdh_reg.h DATA_XFER_DIR`. -/
def reading (r : SdhT) : Bool := r.xferMode.getLsbD 4

/-- The bytes between two boundaries. Reference: `sdh_reg.h SDMA_BUF_BDARY`. -/
def boundary (r : SdhT) : Nat := 4096 * 2 ^ r.sdmaBufBdary.toNat

/-- One byte is moved, unless the transfer is held or has no more; at a boundary, with bytes to move, the
transfer is held. Byte `k` of the card's data is `card k`. -/
def moveByte (card : Nat → Byte) (r : SdhT) : SdhT :=
  if r.held ∨ r.total ≤ r.moved then r
  else
    let stop := decide (r.moved + 1 < r.total ∧ (r.sdmasa + 1#32).toNat % r.boundary = 0)
    { r with
      mem := if r.reading then Function.update r.mem r.sdmasa (card r.moved) else r.mem
      sdmasa := r.sdmasa + 1#32
      moved := r.moved + 1
      held := stop
      dmaInterrupt := r.dmaInterrupt || stop }

/-- A number of bytes are moved. -/
def moveBytes (card : Nat → Byte) : Nat → SdhT → SdhT
  | 0, r => r
  | n + 1, r => moveBytes card n (r.moveByte card)

/-- An event. A transfer is complete only when all its bytes are moved. -/
def event (card : Nat → Byte) (r : SdhT) : Event → SdhT
  | .response r01 r23 r45 r67 =>
    { r with cmdComplete := true, resp01 := r01, resp23 := r23, resp45 := r45, resp67 := r67 }
  | .move n => r.moveBytes card n
  | .complete => if r.held ∨ r.moved < r.total then r else { r with xferComplete := true }
  | .error bits => { r with errorIntStat := r.errorIntStat ||| bits }

/-- Events, one after another. -/
def happens (card : Nat → Byte) (r : SdhT) (es : List Event) : SdhT := es.foldl (event card) r

/-- Reference: `sdh_reg.h ERR_INTERRUPT`. -/
def errInterrupt (r : SdhT) : Bool := r.errorIntStat ≠ 0#16

/-- Reference: `sdh_reg.h NORMAL_INT_STAT`. -/
def normalIntStat (r : SdhT) : BitVec 16 :=
  (if r.cmdComplete then 0x1#16 else 0#16) ||| (if r.xferComplete then 0x2#16 else 0#16) |||
    (if r.dmaInterrupt then 0x8#16 else 0#16) ||| (if r.errInterrupt then 0x8000#16 else 0#16)

/-- A write to the status register clears the bits that are set in it. -/
def writeNormalIntStat (r : SdhT) (v : BitVec 16) : SdhT :=
  { r with
    cmdComplete := r.cmdComplete && !v.getLsbD 0
    xferComplete := r.xferComplete && !v.getLsbD 1
    dmaInterrupt := r.dmaInterrupt && !v.getLsbD 3 }

/-- A write to the error status register clears the bits that are set in it. -/
def writeErrorIntStat (r : SdhT) (v : BitVec 16) : SdhT :=
  { r with errorIntStat := r.errorIntStat &&& ~~~v }

/-- A write to the DMA's address lets a held transfer go on from there. -/
def writeSdmasa (r : SdhT) (a : BitVec 32) : SdhT :=
  { r with
    sdmasa := a
    held := false
    resumes := if r.held then r.resumes ++ [(a, r.sdmasa)] else r.resumes }

/-- The bytes of a transfer that the registers ask for. Reference: `sdh_reg.h MULTI_BLK_SEL`. -/
def asked (r : SdhT) : Nat :=
  if r.xferMode.getLsbD 5 then r.blockCnt.toNat * r.xferBlockSize.toNat else r.xferBlockSize.toNat

/-- A write to the command register sends the command, and begins a transfer when it has data.
Reference: `sdh_reg.h CMD_PRESENT_SEL`. -/
def writeCmd (r : SdhT) (v : BitVec 16) : SdhT :=
  if v.getLsbD 5 then { r with cmd := v, moved := 0, total := r.asked, held := false, resumes := [] }
  else { r with cmd := v }

/-- Both resets that the driver does. Reference: `nu_sdh.c:121 SDH_Reset`. -/
def reset (r : SdhT) : SdhT :=
  { r with
    cmdComplete := false, xferComplete := false, dmaInterrupt := false, held := false,
    total := r.moved }

end SdhT

/-- What the controller does while one command is sent: the values of the present state, the events before
each poll for the response, and those before each of the four accesses of a poll for the data. -/
structure Script where
  pstate : Nat → BitVec 32
  cmd : Nat → List Event
  data : Nat → Fin 4 → List Event

/-! ## Sending a command -/

/-- Reference: `nu_sdh.h mmc_cmd`. -/
structure MmcCmd where
  cmdidx : BitVec 16
  respType : BitVec 32
  cmdarg : BitVec 32

/-- Reference: `nu_sdh.h mmc_data`. -/
structure MmcData where
  dest : BitVec 32
  flags : BitVec 32
  blocks : BitVec 32
  blocksize : BitVec 32

/-- The four words of a response. -/
structure Response where
  r0 : BitVec 32
  r1 : BitVec 32
  r2 : BitVec 32
  r3 : BitVec 32

/-- Reference: `mmcsd_core.h DATA_DIR_WRITE`. -/
def dirWrite (flags : BitVec 32) : Bool := flags.getLsbD 0

/-- Reference: `mmcsd_core.h DATA_DIR_READ`. -/
def dirRead (flags : BitVec 32) : Bool := flags.getLsbD 1

/-- Reference: `nu_sdh.h MMC_RSP_PRESENT`. -/
def rspPresent (t : BitVec 32) : Bool := t.getLsbD 0

/-- Reference: `nu_sdh.h MMC_RSP_136`. -/
def rsp136 (t : BitVec 32) : Bool := t.getLsbD 1

/-- Reference: `nu_sdh.h MMC_RSP_CRC`. -/
def rspCrc (t : BitVec 32) : Bool := t.getLsbD 2

/-- Reference: `nu_sdh.h MMC_RSP_BUSY`. -/
def rspBusy (t : BitVec 32) : Bool := t.getLsbD 3

/-- Reference: `nu_sdh.h MMC_RSP_OPCODE`. -/
def rspOpcode (t : BitVec 32) : Bool := t.getLsbD 4

/-- Reference: `drv_sdio.c:95 nu_sdh_get_cmd_resptype`. -/
def nuSdhGetCmdResptype (rtRespType : BitVec 32) : BitVec 32 :=
  match rtRespType.toNat with
  | 0 => 0x0#32
  | 1 => 0x15#32
  | 2 => 0x1D#32
  | 3 => 0x7#32
  | 4 => 0x1#32
  | 5 => 0x1#32
  | 6 => 0x15#32
  | 7 => 0x15#32
  | 8 => 0x15#32
  | _ => 0xFFFFFFFF#32

/-- The bits of the present state that must go, up to 3200 waits of 1 ms: the limit of 100 waits is doubled
when it is reached. Reference: `nu_sdh.c:227 SD_GetBusStatus`. -/
def sdGetBusStatus (pstate : Nat → BitVec 32) (mask : BitVec 32) : (fuel time cmdTimeout : Nat) → Int
  | 0, _, _ => -1
  | fuel + 1, time, cmdTimeout =>
    if pstate time &&& mask = 0#32 then 0
    else if time ≥ cmdTimeout then
      if 2 * cmdTimeout ≤ 3200 then
        sdGetBusStatus pstate mask fuel (time + 1) (cmdTimeout + cmdTimeout)
      else -1
    else sdGetBusStatus pstate mask fuel (time + 1) cmdTimeout

section

variable (card : Nat → Byte)

/-- The loop that waits for the response, with the polls left before its time-out and the number of the
next one: the status at its end, none after a time-out. Reference: `drv_sdio.c:335` to `:349`. -/
def waitResponse (evs : Nat → List Event) (mask : BitVec 16) :
    (left time : Nat) → SdhT → Option (BitVec 16) × SdhT
  | left, time, r =>
    let r := r.happens card (evs time)
    let stat := r.normalIntStat
    if stat &&& 0x8000#16 ≠ 0#16 then (some stat, r)
    else match left with
      | 0 => (none, r)
      | left + 1 =>
        if stat &&& mask ≠ mask then waitResponse evs mask left (time + 1) r else (some stat, r)

/-- Reference: `drv_sdio.c:134 nu_sdh_send_commanddone`. -/
def nuSdhSendCommanddone (r : SdhT) (respType : BitVec 32) : Response :=
  if rsp136 respType then
    { r0 := (r.resp67 <<< 8) ||| (r.resp45 >>> 24), r1 := (r.resp45 <<< 8) ||| (r.resp23 >>> 24),
      r2 := (r.resp23 <<< 8) ||| (r.resp01 >>> 24), r3 := r.resp01 <<< 8 }
  else { r0 := r.resp01, r1 := 0#32, r2 := 0#32, r3 := 0#32 }

/-- The address after the next boundary. Reference: `drv_sdio.c:175`, `:176`. -/
def nextBoundary (startAddr : BitVec 32) : BitVec 32 := (startAddr &&& ~~~0x7FFFF#32) + 0x80000#32

/-- One round of the loop that waits for the data: what it returns with, or the address from which the
transfer goes on. The pause's flag is cleared by writing back the whole status.
Reference: `drv_sdio.c:166` to `:179`. -/
def pollData (evs : Fin 4 → List Event) (startAddr : BitVec 32) (r : SdhT) :
    (Int ⊕ BitVec 32) × SdhT :=
  let r := r.happens card (evs 0)
  if r.xferComplete then (.inl 0, r)
  else
    let r := r.happens card (evs 1)
    if r.errInterrupt then (.inl (-1), r)
    else
      let r := r.happens card (evs 2)
      if r.dmaInterrupt then
        let r := r.happens card (evs 3)
        let r := r.writeNormalIntStat (r.normalIntStat ||| 0x8#16)
        (.inr (nextBoundary startAddr), r.writeSdmasa (nextBoundary startAddr))
      else (.inr startAddr, r)

/-- The loop that waits for the data, with the number of the round. Reference: `drv_sdio.c:166` to `:184`. -/
def waitData (evs : Nat → Fin 4 → List Event) : (timeout k : Nat) → BitVec 32 → SdhT → Int × SdhT
  | timeout, k, startAddr, r =>
    match pollData card (evs k) startAddr r with
    | (.inl ret, r) => (ret, r)
    | (.inr startAddr, r) =>
      match timeout with
      | 0 => (-2, r)
      | timeout + 1 => waitData evs timeout (k + 1) startAddr r

/-- Reference: `drv_sdio.c:151 nu_sdh_xfer_data`. -/
def nuSdhXferData (evs : Nat → Fin 4 → List Event) (data : MmcData) (r : SdhT) : Int × SdhT :=
  waitData card evs 1000000 0 data.dest r

/-- The bits of the status that end the wait for the response. Reference: `drv_sdio.c:268`, `:278`. -/
def respMask (respType : BitVec 32) (data : Option MmcData) : BitVec 16 :=
  if rspPresent respType ∧ ¬ rsp136 respType ∧ rspBusy respType ∧ data.isSome then 0x3#16 else 0x1#16

/-- The flags of the command register. Reference: `drv_sdio.c:270` to `:293`. -/
def cmdFlags (respType : BitVec 32) (data : Option MmcData) : BitVec 16 :=
  (if !rspPresent respType then 0x00#16 else if rsp136 respType then 0x01#16
    else if rspBusy respType then 0x03#16 else 0x02#16) |||
  (if rspCrc respType then 0x08#16 else 0#16) ||| (if rspOpcode respType then 0x10#16 else 0#16) |||
  (if data.isSome then 0x20#16 else 0#16)

/-- The registers of a data transfer. Reference: `drv_sdio.c:296` to `:324`. -/
def setData (data : MmcData) (r : SdhT) : SdhT :=
  let r := { r with toutCnt := 0xE#4 }
  let mode := 0x2#16 ||| (if data.blocks.toNat > 1 then 0x20#16 else 0#16) |||
    (if dirRead data.flags then 0x10#16 else 0#16) ||| 0x1#16
  let r := r.writeSdmasa data.dest
  { r with
    dmaSel := 0#2, sdmaBufBdary := 0x7#3, xferBlockSize := data.blocksize.setWidth 12,
    blockCnt := data.blocks.setWidth 16, xferMode := mode }

/-- What goes before the wait for the response. Reference: `drv_sdio.c:265` to `:331`. -/
def startCommand (cmd : MmcCmd) (data : Option MmcData) (r : SdhT) : SdhT :=
  let r := (r.writeNormalIntStat 0xFFFF#16).writeErrorIntStat 0xFFFF#16
  let r := match data with
    | some d => setData d r
    | none => if rspBusy cmd.respType then { r with toutCnt := 0xE#4 } else r
  let r := { r with argument := cmd.cmdarg }
  r.writeCmd (((cmd.cmdidx &&& 0xFF#16) <<< 8) ||| (cmdFlags cmd.respType data &&& 0xFF#16))

/-- The bits of the present state that must be clear before a command. Reference: `drv_sdio.c:252` to `:254`. -/
def inhibitMask (cmd : MmcCmd) : BitVec 32 := if cmd.cmdidx = 12#16 then 0x1#32 else 0x3#32

/-- The lines of the busy bus, the time-out and the error are the values returned. The result of the data
transfer is replaced before it is looked at. Reference: `drv_sdio.c:236 nu_sdh_send_command`. -/
def nuSdhSendCommand (script : Script) (cmd : MmcCmd) (data : Option MmcData) (resp : Response)
    (r : SdhT) : Int × Response × SdhT :=
  if sdGetBusStatus script.pstate (inhibitMask cmd) 3201 0 100 ≠ 0 then (260, resp, r.reset)
  else
    let mask := respMask cmd.respType data
    match waitResponse card script.cmd mask 10000001 0 (startCommand cmd data r) with
    | (none, r) => (343, resp, r.reset)
    | (some stat, r) =>
      if stat &&& (0x8000#16 ||| mask) = mask then
        let resp := nuSdhSendCommanddone r cmd.respType
        let (_ret, r) := match data with
          | some d => nuSdhXferData card script.data d r
          | none => (0, r)
        let r := r.writeNormalIntStat mask
        let ret : Int := 0
        let r := (r.writeNormalIntStat 0xFFFF#16).writeErrorIntStat 0xFFFF#16
        if ret ≠ 0 then (384, resp, r.reset) else (0, resp, r)
      else (371, resp, r.reset)

/-! ## Requests -/

/-- Reference: `mmcsd_core.h rt_mmcsd_cmd`. -/
structure RtMmcsdCmd where
  cmdCode : BitVec 32
  arg : BitVec 32
  flags : BitVec 32

/-- Reference: `mmcsd_core.h rt_mmcsd_data`. -/
structure RtMmcsdData where
  blksize : BitVec 32
  blks : BitVec 32
  buf : BitVec 32
  flags : BitVec 32

/-- Reference: `mmcsd_core.h rt_mmcsd_req`. -/
structure RtMmcsdReq where
  cmd : Option RtMmcsdCmd
  data : Option RtMmcsdData
  stop : Option RtMmcsdCmd

/-- What a request leaves in a command. Reference: `mmcsd_core.h rt_mmcsd_cmd`. -/
structure Reply where
  err : Int
  resp : Response

/-- Reference: `drv_sdio.c:33 SDH_BUFF_SIZE`. -/
def sdhBuffSize : Nat := 512 * 1024

/-- The size of the data. Reference: `drv_sdio.c:470`. -/
def RtMmcsdData.size (d : RtMmcsdData) : Nat := (d.blksize * d.blks).toNat

/-- The buffer is not aligned for the cache. Reference: `drv_sdio.c:474`. -/
def RtMmcsdData.isNonaligned (d : RtMmcsdData) : Bool := (d.buf &&& 63#32).toNat > 0

/-- Reference: `rt_memcpy`. -/
def memcpy (dst src : BitVec 32) (n : Nat) (mem : BitVec 32 → Byte) : BitVec 32 → Byte := fun a =>
  if InRange a dst n then mem (src + (a - dst)) else mem a

/-- Reference: `drv_sdio.c:446`. -/
def mmcCmd (c : RtMmcsdCmd) : MmcCmd :=
  ⟨c.cmdCode.setWidth 16, nuSdhGetCmdResptype (c.flags &&& 0xF#32), c.arg⟩

/-- The data of a transfer, through the driver's own buffer when the request's is not aligned.
Reference: `drv_sdio.c:465` to `:483`. -/
def mmcData (cachebuf : BitVec 32) (d : RtMmcsdData) : MmcData :=
  ⟨if d.isNonaligned then cachebuf else d.buf, d.flags, d.blks, d.blksize⟩

/-- The response of a command that none has come for. Reference: `drv_sdio.c:444`. -/
def noResponse : Response := ⟨0#32, 0#32, 0#32, 0#32⟩

/-- The data of a write goes to the driver's buffer first when the request's is not aligned.
Reference: `drv_sdio.c:478` to `:482`. -/
def prepare (cachebuf : BitVec 32) (d : RtMmcsdData) (r : SdhT) : SdhT :=
  if d.isNonaligned ∧ dirWrite d.flags then { r with mem := memcpy cachebuf d.buf d.size r.mem } else r

/-- The settings for the kind of card, none when there is no card yet; `mmc` says whether it is a multimedia
card. Reference: `drv_sdio.c:414` to `:426`. -/
def setCard (mmc : Option Bool) (r : SdhT) : SdhT :=
  match mmc with
  | some b => { r with cardIsEmmc := b, disableDataCrcChk := b }
  | none => r

/-- A command and the request's data. Reference: `drv_sdio.c:446` to `:512`. -/
def requestData (cachebuf : BitVec 32) (script : Script) (c : RtMmcsdCmd) (d : RtMmcsdData) (r : SdhT) :
    Reply × SdhT :=
  let (err, resp, r) := nuSdhSendCommand card script (mmcCmd c) (some (mmcData cachebuf d)) noResponse
    (prepare cachebuf d r)
  let r := if err = 0 ∧ d.isNonaligned ∧ dirRead d.flags then
      { r with mem := memcpy d.buf cachebuf d.size r.mem } else r
  (⟨err, resp⟩, r)

/-- A command without data. Reference: `drv_sdio.c:500` to `:512`, `:518` to `:533`. -/
def requestPlain (script : Script) (c : RtMmcsdCmd) (r : SdhT) : Reply × SdhT :=
  let (err, resp, r) := nuSdhSendCommand card script (mmcCmd c) none noResponse r
  (⟨err, resp⟩, r)

/-- The result has the replies to the command and to the stop command; the function does not return when
its assertion on the size fails. Reference: `drv_sdio.c:407 nu_sdh_request`. -/
def nuSdhRequest (cachebuf : BitVec 32) (mmc : Option Bool) (script stopScript : Script)
    (req : RtMmcsdReq) (r : SdhT) : Option (Option Reply × Option Reply × SdhT) :=
  let r := setCard mmc r
  let sent : Option (Option Reply × SdhT) := match req.cmd, req.data with
    | none, _ => some (none, r)
    | some c, none => some ((requestPlain card script c r).map some id)
    | some c, some d =>
      if d.size ≤ sdhBuffSize then some ((requestData card cachebuf script c d r).map some id) else none
  sent.map fun (reply, r) => match req.stop with
    | none => (reply, none, r)
    | some c => let (stop, r) := requestPlain card stopScript c r; (reply, some stop, r)

end

end NumakerMA35D1.Sdh

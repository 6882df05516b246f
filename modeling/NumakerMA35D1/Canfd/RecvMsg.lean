import NumakerMA35D1.Canfd.Message
import NumakerMA35D1.Canfd.Control

/-!
# Messages received by the CAN driver

`nuCanfdRecvmsg` takes a message out of Rx FIFO 0 and hands it on as an `rt_can_msg`, whose data
array has eight bytes in the configured build. The length is the decoded data length code, so a
code above eight makes the driver write past the array: `recvmsg_within_iff`.

Reference: `drv_canfd.c`, `nu_canfd.c`, `drivers/can.h`, `rtconfig.h`.
-/

namespace NumakerMA35D1.Canfd

open Embedded

/-! ## The Rx FIFOs -/

/-- The status and the acknowledge register of a Rx FIFO. Reference: `canfd_reg.h:1057 RXF0S`. -/
structure RxFifoRegs where
  RXFS : BitVec 32
  RXFA : BitVec 32
deriving DecidableEq, Repr

/-- A controller with its Rx FIFOs. A one written to a bit of `IR` clears it. -/
structure CanfdRx where
  psCanfd : CanfdT
  fifo0 : RxFifoRegs
  fifo1 : RxFifoRegs
  IR : BitVec 32

/-- Reference: `nu_canfd.c:162 CANFD_RXFS_RFL`. -/
def CANFD_RXFS_RFL : BitVec 32 := 1#32 <<< 25

/-- The registers of Rx FIFO `u8FifoIdx`, its configuration first. -/
def CanfdRx.fifo (dev : CanfdRx) (u8FifoIdx : Nat) : BitVec 32 × RxFifoRegs :=
  if u8FifoIdx = 0 then (dev.psCanfd.RXF0C, dev.fifo0) else (dev.psCanfd.RXF1C, dev.fifo1)

/-- The get index written to the acknowledge register of a Rx FIFO. -/
def CanfdRx.acknowledge (dev : CanfdRx) (u8FifoIdx : Nat) (GetIndex : BitVec 32) : CanfdRx :=
  if u8FifoIdx = 0 then { dev with fifo0 := { dev.fifo0 with RXFA := GetIndex } }
  else { dev with fifo1 := { dev.fifo1 with RXFA := GetIndex } }

/-- The element that a Rx FIFO's get index points at. -/
def CanfdRx.rxElem (dev : CanfdRx) (u8FifoIdx : Nat) : CanfdBuf :=
  let (RXFC, regs) := dev.fifo u8FifoIdx
  bufAt dev.psCanfd.sram
    ((RXFC &&& 0xffff#32).toNat + ((regs.RXFS >>> 8) &&& 0x3f#32).toNat * sizeofBuf)

/-- The number of elements in a Rx FIFO. -/
def CanfdRx.fillLevel (dev : CanfdRx) (u8FifoIdx : Nat) : BitVec 32 :=
  (dev.fifo u8FifoIdx).2.RXFS &&& 0x7f#32

/-- A message taken out of a Rx FIFO: the returned 0, 1 or 2, the controller and the message
buffer. Reference: `nu_canfd.c:1430 CANFD_ReadRxFifoMsg`. -/
def canfdReadRxFifoMsg (dev : CanfdRx) (u8FifoIdx : Nat) (psMsgBuf : CanfdFdMsg) :
    BitVec 32 × CanfdRx × CanfdFdMsg :=
  if u8FifoIdx < CANFD_NUM_RX_FIFOS ∧ dev.fillLevel u8FifoIdx ≠ 0#32 then
    let regs := (dev.fifo u8FifoIdx).2
    let psMsgBuf := canfdCopyDBufToMsgBuf (dev.rxElem u8FifoIdx) psMsgBuf
    let dev := dev.acknowledge u8FifoIdx ((regs.RXFS >>> 8) &&& 0x3f#32)
    if regs.RXFS &&& CANFD_RXFS_RFL ≠ 0#32 then
      (2, { dev with IR := dev.IR &&& ~~~(1#32 <<< (if u8FifoIdx = 0 then 3 else 7)) }, psMsgBuf)
    else (1, dev, psMsgBuf)
  else (0, dev, psMsgBuf)

/-! ## The driver -/

/-- The bytes of the data array of an `rt_can_msg`, without `RT_CAN_USING_CANFD`. Reference:
`can.h:298 rt_can_msg`, `rtconfig.h:126 RT_USING_CAN`. -/
def rtCanMsgDataSize : Nat := 8

/-- A message of the CAN framework; `data i` is the byte `i` places from the start of its array, in
the array or past it. Reference: `can.h:281 rt_can_msg`. -/
structure RtCanMsg where
  id : BitVec 29
  ide : Bool
  rtr : Bool
  len : BitVec 8
  data : Nat → Byte

/-- `count` bytes copied to the start of an area. -/
def rtMemcpy (dst src : Nat → Byte) (count : Nat) : Nat → Byte := fun i =>
  if i < count then src i else dst i

/-- A message received; `sRxMsg` is what the buffer on the stack holds before. Reference:
`drv_canfd.c:594 nu_canfd_recvmsg`. -/
def nuCanfdRecvmsg (dev : CanfdRx) (sRxMsg : CanfdFdMsg) (pmsg : RtCanMsg) :
    RtErr × CanfdRx × RtCanMsg :=
  let (ret, dev, sRxMsg) := canfdReadRxFifoMsg dev 0 sRxMsg
  if ret = 0#32 then (.error, dev, pmsg)
  else
    let pmsg :=
      { pmsg with
        ide := sRxMsg.eIdType ≠ .sid
        rtr := sRxMsg.eFrmType ≠ .dataFrm
        id := sRxMsg.u32Id.setWidth 29
        len := sRxMsg.u32DLC.setWidth 8 }
    if pmsg.len > 0 then
      (.eok, dev, { pmsg with data := rtMemcpy pmsg.data sRxMsg.byteAt pmsg.len.toNat })
    else (.eok, dev, pmsg)

/-! ## What is received -/

/-- The data length code of an element. -/
def CanfdBuf.dlc (e : CanfdBuf) : BitVec 8 := ((e.u32Config &&& 0xf0000#32) >>> 16).setWidth 8

/-- The element of a classic frame. -/
def CanfdBuf.Classic (e : CanfdBuf) : Prop := e.u32Config &&& elemFdfMsk = 0#32

/-- A receive operation keeps to the message it was given: the length it delivers fits the array, and
is at most eight for a classic frame, and no byte past the array is written. -/
structure ReceivesWithin (dev : CanfdRx) (sRxMsg : CanfdFdMsg) (pmsg : RtCanMsg) : Prop where
  len_le : (nuCanfdRecvmsg dev sRxMsg pmsg).1 = .eok →
    (nuCanfdRecvmsg dev sRxMsg pmsg).2.2.len.toNat ≤ rtCanMsgDataSize
  classic : (nuCanfdRecvmsg dev sRxMsg pmsg).1 = .eok → (dev.rxElem 0).Classic →
    (nuCanfdRecvmsg dev sRxMsg pmsg).2.2.len.toNat ≤ 8
  data_kept : ∀ i, rtCanMsgDataSize ≤ i →
    (nuCanfdRecvmsg dev sRxMsg pmsg).2.2.data i = pmsg.data i

/-- From an empty FIFO nothing is received. -/
theorem recvmsg_empty {dev : CanfdRx} (h : dev.fillLevel 0 = 0#32) (sRxMsg : CanfdFdMsg)
    (pmsg : RtCanMsg) : nuCanfdRecvmsg dev sRxMsg pmsg = (.error, dev, pmsg) := by
  rw [nuCanfdRecvmsg, canfdReadRxFifoMsg, if_neg (fun hne => hne.2 h)]
  rfl

/-- What is received from a FIFO that holds an element. -/
theorem recvmsg_filled {dev : CanfdRx} (h : dev.fillLevel 0 ≠ 0#32) (sRxMsg : CanfdFdMsg)
    (pmsg : RtCanMsg) :
    (nuCanfdRecvmsg dev sRxMsg pmsg).1 = .eok ∧
      (nuCanfdRecvmsg dev sRxMsg pmsg).2.2.len = canfdDecodeDLC (dev.rxElem 0).dlc ∧
      (nuCanfdRecvmsg dev sRxMsg pmsg).2.2.data = rtMemcpy pmsg.data
        (canfdCopyDBufToMsgBuf (dev.rxElem 0) sRxMsg).byteAt
        (canfdDecodeDLC (dev.rxElem 0).dlc).toNat := by
  have hread : ∃ ret dev', ret ≠ 0#32 ∧ canfdReadRxFifoMsg dev 0 sRxMsg =
      (ret, dev', canfdCopyDBufToMsgBuf (dev.rxElem 0) sRxMsg) := by
    rw [canfdReadRxFifoMsg, if_pos ⟨by decide, h⟩]
    dsimp only
    split
    · exact ⟨2, _, by decide, rfl⟩
    · exact ⟨1, _, by decide, rfl⟩
  obtain ⟨ret, dev', hret, hread⟩ := hread
  have hlen : (canfdCopyDBufToMsgBuf (dev.rxElem 0) sRxMsg).u32DLC.setWidth 8 =
      canfdDecodeDLC (dev.rxElem 0).dlc := by
    rw [canfdCopyDBufToMsgBuf, CanfdBuf.dlc]
    exact BitVec.setWidth_setWidth_of_le _ (by decide)
  rw [nuCanfdRecvmsg, hread]
  dsimp only
  rw [if_neg hret, hlen]
  split
  · exact ⟨rfl, rfl, rfl⟩
  · next hzero =>
    have hzero : (canfdDecodeDLC (dev.rxElem 0).dlc).toNat = 0 := by
      have := BitVec.not_lt.1 hzero
      simpa using BitVec.le_def.1 this
    refine ⟨rfl, rfl, ?_⟩
    funext i
    rw [rtMemcpy, if_neg (by omega)]

/-- A length code decodes to at most eight exactly when it is at most eight. -/
theorem decodeDLC_le_iff (u8Dlc : BitVec 8) :
    (canfdDecodeDLC u8Dlc).toNat ≤ 8 ↔ u8Dlc.toNat ≤ 8 := by
  rw [canfdDecodeDLC]
  split
  · exact Iff.rfl
  · next h =>
    have h : ¬ u8Dlc.toNat ≤ 8 := h
    have hbig : ∀ n : Fin 7, ¬ ((![12, 16, 20, 24, 32, 48, 64] n : BitVec 8)).toNat ≤ 8 := by
      decide
    repeat' split
    · exact iff_of_false (hbig 0) h
    · exact iff_of_false (hbig 1) h
    · exact iff_of_false (hbig 2) h
    · exact iff_of_false (hbig 3) h
    · exact iff_of_false (hbig 4) h
    · exact iff_of_false (hbig 5) h
    · exact iff_of_false (hbig 6) h

/-- A receive operation keeps to its message exactly when the element's data length code is at most
eight, or there is no element. -/
theorem recvmsg_within_iff (dev : CanfdRx) (sRxMsg : CanfdFdMsg) (pmsg : RtCanMsg) :
    ReceivesWithin dev sRxMsg pmsg ↔ dev.fillLevel 0 = 0#32 ∨ (dev.rxElem 0).dlc.toNat ≤ 8 := by
  by_cases hfill : dev.fillLevel 0 = 0#32
  · have hempty := recvmsg_empty hfill sRxMsg pmsg
    refine iff_of_true ⟨?_, ?_, ?_⟩ (.inl hfill)
    · rw [hempty]
      exact fun h => nomatch h
    · rw [hempty]
      exact fun h => nomatch h
    · rw [hempty]
      exact fun i _ => rfl
  · obtain ⟨hret, hlen, hdata⟩ := recvmsg_filled hfill sRxMsg pmsg
    rw [or_iff_right hfill, ← decodeDLC_le_iff]
    constructor
    · intro h
      have hle := h.len_le hret
      rwa [hlen] at hle
    · intro hle
      refine ⟨?_, ?_, ?_⟩
      · intro _
        rw [hlen]
        exact hle
      · intro _ _
        rw [hlen]
        exact hle
      · intro i hi
        rw [hdata, rtMemcpy, if_neg]
        exact not_lt.2 (le_trans hle hi)

/-- A controller whose Rx FIFO 0 holds one standard data frame in FD format of 12 bytes. -/
def rxDlc9 : CanfdRx :=
  { psCanfd := { (default : CanfdT) with sram := fun w => if w = 1 then 0x290000#32 else 0#32 }
    fifo0 := { RXFS := 1#32, RXFA := 0#32 }
    fifo1 := { RXFS := 0#32, RXFA := 0#32 }
    IR := 0#32 }

/-- The length delivered for a 12-byte frame is 12, in an array of eight. -/
theorem not_recvmsg_within :
    ¬ ∀ (dev : CanfdRx) (sRxMsg : CanfdFdMsg) (pmsg : RtCanMsg),
      ReceivesWithin dev sRxMsg pmsg := by
  intro h
  let sRxMsg : CanfdFdMsg :=
    { eIdType := .sid, eFrmType := .dataFrm, u32Id := 0#32, u32DLC := 0#32
      au8Data := fun _ => 0#8, bFDFormat := false, bBitRateSwitch := false, bErrStaInd := false }
  let pmsg : RtCanMsg := { id := 0#29, ide := false, rtr := false, len := 0#8, data := fun _ => 0#8 }
  have hlen := (h rxDlc9 sRxMsg pmsg).len_le rfl
  change 12 ≤ 8 at hlen
  omega

end NumakerMA35D1.Canfd

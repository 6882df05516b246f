import NumakerMA35D1.UsbHost.DrvUsbhost
import NumakerMA35D1.Lib.Outcome

/-!
# Transfers of the port driver

`nu_pipe_xfer`: a transfer goes through the pipe's packet buffer of 512 bytes, whatever the caller's
buffer. A control transfer comes in several calls: the one with the SETUP packet, which starts a
request to the device and keeps one from it, and those of its data, the first of which starts the
request. The controller's answers are inputs: it moves no more than it is asked for, and retires its
descriptors with or without an error. What the host library counts of them is computed from that. The
bytes that go over the wire are recorded beside the result.

Reference: `drv_usbhost.c:388 nu_ctrl_xfer`, `drv_usbhost.c:490 nu_pipe_xfer`, `_ohci.c_:947 td_done`,
`_ehci.c_:876 visit_qtd`.
-/

namespace NumakerMA35D1.UsbHost

open Embedded

/-! ## Requests in bytes -/

/-- The SETUP packet of a request. Reference: `usb_common.h:468 urequest`. -/
def Urequest.bytes (u : Urequest) : List Byte :=
  [u.requestType, u.bRequest, u.wValue.extractLsb' 0 8, u.wValue.extractLsb' 8 8,
    u.wIndex.extractLsb' 0 8, u.wIndex.extractLsb' 8 8, u.wLength.extractLsb' 0 8,
    u.wLength.extractLsb' 8 8]

/-- The request that the bytes are. Reference: `drv_usbhost.c:531 nu_pipe_xfer`. -/
def Urequest.ofBytes (b : List Byte) : Urequest where
  requestType := b.getD 0 0
  bRequest := b.getD 1 0
  wValue := b.getD 3 0 ++ b.getD 2 0
  wIndex := b.getD 5 0 ++ b.getD 4 0
  wLength := b.getD 7 0 ++ b.getD 6 0

/-- The device sends the data. Reference: `usb_common.h:71 USB_REQ_TYPE_DIR_IN`. -/
def Urequest.dirIn (u : Urequest) : Bool := u.requestType &&& 0x80#8 ≠ 0#8

/-! ## Calls, answers and results -/

/-- Reference: `usb_host.h:35 USBH_PID_SETUP`. -/
inductive Token
  | SETUP | DATA
deriving DecidableEq

/-- A call: `buffer` is what is in memory from the caller's pointer to the end of its object, none
for a NULL pointer. -/
structure Call where
  inst : Uinst
  ep : UendpointDescriptor
  pipeIndex : Nat
  buffer : Option (List Byte)
  nbytes : Nat
  room : ∀ bytes ∈ buffer, nbytes ≤ bytes.length
  null : buffer = none → nbytes = 0

/-- `usbh_ctrl_xfer` fails with a negative code, some data moved, or its controller moves the data. -/
inductive CtrlAnswer
  | failed (code : Nat) (data : List Byte)
  | done (hc : HcDriver) (data : List Byte)

/-- How the descriptor of a bulk transfer fares until its callback or the time-out: whether the endpoint
has no queue head yet, the data moved, whether the library has come to the retired descriptor, and
whether an error bit is set in it, also by a transaction that was then repeated. -/
structure BulkRun where
  hc : HcDriver
  newQh : Bool
  data : List Byte
  seen : Bool
  errors : Bool

/-- A bulk transfer is refused or runs. -/
inductive BulkAnswer
  | refused
  | ran (x : BulkRun)

/-- An interrupt transfer is submitted again after each time-out: the last one is refused, or moves
data until its callback; those that timed out may have moved some before. -/
inductive IntAnswer
  | refused
  | done (timedOut : List (List Byte)) (data : List Byte)

/-- The host library's answers in a call; `utr`: `alloc_utr` succeeds. -/
structure Answer where
  utr : Bool
  ctrl : CtrlAnswer
  bulk : BulkAnswer
  int : IntAnswer

/-- The buffer that a control transfer is given. -/
inductive XferBuffer
  | null | packet
deriving DecidableEq

/-- A control transfer started: the record of the device, the request and the buffer given. -/
structure Started where
  device : PortRef
  setup : Urequest
  buffer : XferBuffer
deriving DecidableEq

/-- A call's result, the caller's buffer after it, the bytes that went over the wire, and the control
transfer that was started. -/
structure Result where
  ret : Int
  drv : Driver
  buffer : Option (List Byte)
  wire : List Byte
  started : Option Started

/-! ## Copies -/

/-- A copy into a packet buffer. -/
def PktBuf.write (buf : PktBuf) (data : List Byte) : Except Halt PktBuf :=
  if h : data.length ≤ PKT_BUF_SIZE then
    .ok ⟨data ++ buf.1.drop data.length, by
      rw [List.length_append, List.length_drop, buf.2, Nat.add_sub_cancel' h]⟩
  else .error .pktBufOverflow

/-- A copy out of a packet buffer. -/
def PktBuf.read (buf : PktBuf) (n : Nat) : Except Halt (List Byte) :=
  if n ≤ PKT_BUF_SIZE then .ok (buf.1.take n) else .error .pktBufOverflow

/-- A copy into the caller's buffer. -/
def writeBuffer (bytes data : List Byte) : Except Halt (List Byte) :=
  if data.length ≤ bytes.length then .ok (data ++ bytes.drop data.length)
  else .error .bufferOverflow

/-- The packet buffer of a pipe. -/
def pktBuf (s : Driver) (r : PortRef) (i : Nat) : Except Halt PktBuf :=
  match (s r).asPipePktBuf i with
  | none => .error .nullPointer
  | some buf => .ok buf

/-- The driver with another packet buffer. -/
def withPktBuf (s : Driver) (r : PortRef) (i : Nat) (buf : PktBuf) : Driver :=
  Function.update s r { s r with asPipePktBuf := Function.update (s r).asPipePktBuf i (some buf) }

/-- The data to the device are copied into the packet buffer. Reference: `drv_usbhost.c:514
nu_pipe_xfer`. -/
def copyIn (s : Driver) (r : PortRef) (c : Call) : Except Halt Driver :=
  match c.buffer with
  | none => .ok s
  | some bytes =>
    if c.nbytes = 0 ∨ c.ep.dirIn then .ok s
    else do
      let buf ← pktBuf s r c.pipeIndex
      let buf ← buf.write (bytes.take c.nbytes)
      .ok (withPktBuf s r c.pipeIndex buf)

/-- At the exit label as many bytes as were asked for are copied back. Reference: `drv_usbhost.c:688
exit_nu_pipe_xfer`. -/
def copyBack (s : Driver) (r : PortRef) (c : Call) (buffer : Option (List Byte)) :
    Except Halt (Option (List Byte)) :=
  match buffer with
  | none => .ok none
  | some bytes =>
    if c.nbytes = 0 ∨ c.ep.dirIn = false then .ok (some bytes)
    else do
      let buf ← pktBuf s r c.pipeIndex
      let data ← buf.read c.nbytes
      let bytes ← writeBuffer bytes data
      .ok (some bytes)

/-- The call leaves by the exit label. -/
def exitXfer (s : Driver) (r : PortRef) (c : Call) (ret : Int) (wire : List Byte)
    (started : Option Started) : Except Halt Result := do
  let buffer ← copyBack s r c c.buffer
  .ok ⟨ret, s, buffer, wire, started⟩

/-! ## Control transfers -/

/-- The result of the request, the device's record after it and the data moved. A TD without an address
sends an empty packet, and is counted as one byte. Reference: `drv_usbhost.c:388 nu_ctrl_xfer`,
`_ohci.c_:338 write_td`, `_ohci.c_:1002 td_done`. -/
def nuCtrlXfer (d : PortDev) (setup : Urequest) (buffer : XferBuffer) (w : CtrlAnswer) :
    Int × PortDev × List Byte :=
  match w with
  | .failed code data => (-(code + 1 : Nat), d, data.take setup.wLength.toNat)
  | .done hc data =>
    if buffer = .null ∧ setup.wLength ≠ 0 ∧ ¬ hc.IsEhci then (1, requestDone d setup, [])
    else
      ((data.take setup.wLength.toNat).length, requestDone d setup, data.take setup.wLength.toNat)

/-- The first record behind a hub of the port's block keeps the SETUP packets of them all.
Reference: `drv_usbhost.c:533 nu_pipe_xfer`. -/
def pending (ctrl : Nat) : PortRef := ⟨ctrl, .asHubPortDev 0⟩

/-- Reference: `drv_usbhost.c:533 nu_pipe_xfer`. -/
def setSentLength (s : Driver) (ctrl i : Nat) (n : BitVec 32) : Driver :=
  Function.update s (pending ctrl) { s (pending ctrl) with
    u32SentLength := Function.update (s (pending ctrl)).u32SentLength i n }

/-- Reference: `drv_usbhost.c:539 nu_pipe_xfer`. -/
def setSetupReq (s : Driver) (ctrl i : Nat) (setup : Urequest) : Driver :=
  Function.update s (pending ctrl) { s (pending ctrl) with
    asSetupReq := Function.update (s (pending ctrl)).asSetupReq i setup }

/-- A SETUP packet. Reference: `drv_usbhost.c:529 nu_pipe_xfer`. -/
def setupXfer (s : Driver) (ctrl : Nat) (r : PortRef) (c : Call) (w : Answer) :
    Except Halt Result := do
  let bytes ←
    match c.buffer with
    | none => .error .assert
    | some bytes => if c.nbytes = 0 then .ok bytes else (pktBuf s r c.pipeIndex).map (·.1)
  let setup := Urequest.ofBytes bytes
  let s := setSentLength s ctrl c.pipeIndex 0
  if setup.dirIn then
    .ok ⟨c.nbytes, setSetupReq s ctrl c.pipeIndex setup, c.buffer, [], none⟩
  else
    let (ret, d, data) := nuCtrlXfer (s r) setup .null w.ctrl
    let s := Function.update s r d
    if ret = setup.wLength.toNat then
      .ok ⟨c.nbytes, s, c.buffer, data, some ⟨r, setup, .null⟩⟩
    else exitXfer s r c (-1) data (some ⟨r, setup, .null⟩)

/-- The data of a request from the device: the first call starts the request that is kept, the
others only count. Reference: `drv_usbhost.c:553 nu_pipe_xfer`. -/
def dataXfer (s : Driver) (ctrl : Nat) (r : PortRef) (c : Call) (bytes : List Byte) (w : Answer) :
    Except Halt Result := do
  let setup := (s (pending ctrl)).asSetupReq c.pipeIndex
  let sent := (s (pending ctrl)).u32SentLength c.pipeIndex
  if sent = 0 then
    let (ret, d, data) := nuCtrlXfer (s r) setup .packet w.ctrl
    let s ←
      if c.nbytes = 0 then .ok (Function.update s r d)
      else do
        let buf ← pktBuf s r c.pipeIndex
        let buf ← buf.write data
        .ok (withPktBuf (Function.update s r d) r c.pipeIndex buf)
    let s := setSentLength s ctrl c.pipeIndex (BitVec.ofInt 32 ret)
    if 0 < ret then
      let bytes ← writeBuffer bytes data
      .ok ⟨c.nbytes, s, some bytes, data, some ⟨r, setup, .packet⟩⟩
    else exitXfer s r c (-1) data (some ⟨r, setup, .packet⟩)
  else if sent.toNat < c.nbytes ∨ c.nbytes = 0 then exitXfer s r c (-1) [] none
  else
    .ok ⟨c.nbytes, setSentLength s ctrl c.pipeIndex (sent - BitVec.ofNat 32 c.nbytes), c.buffer, [],
      none⟩

/-! ## Other transfers -/

/-- The controller moves data into the packet buffer, or as many bytes out of it. -/
def moveData (s : Driver) (r : PortRef) (c : Call) (data : List Byte) :
    Except Halt (Driver × List Byte) :=
  if c.nbytes = 0 then .ok (s, [])
  else do
    let buf ← pktBuf s r c.pipeIndex
    if c.ep.dirIn then
      let buf ← buf.write (data.take c.nbytes)
      .ok (withPktBuf s r c.pipeIndex buf, data.take c.nbytes)
    else
      let out ← buf.read (data.take c.nbytes).length
      .ok (s, out)

/-- Several submissions, one after another. -/
def moveEach (s : Driver) (r : PortRef) (c : Call) : List (List Byte) → Except Halt (Driver × List Byte)
  | [] => .ok (s, [])
  | data :: rest => do
    let (s, wire) ← moveData s r c data
    let (s, wire') ← moveEach s r c rest
    .ok (s, wire ++ wire')

/-- What the library counts of a bulk transfer of `n` bytes that moved `moved`: nothing of a qTD with an
error, and one byte of a TD for none. A transfer that fits the packet buffer has one descriptor at most.
Reference: `_ohci.c_:1008 td_done`, `_ehci.c_:885 visit_qtd`. -/
def BulkRun.xferLen (x : BulkRun) (n moved : Nat) : Nat :=
  if x.seen = false then 0
  else if x.hc.IsEhci then if x.errors then 0 else moved
  else if n = 0 then 1 else moved

/-- For no bytes there is no qTD, and a new queue head is to have a copy of its first. Reference:
`_ehci.c_:727 ehci_bulk_xfer`. -/
def BulkRun.NullQtd (x : BulkRun) (n : Nat) : Prop := x.hc.IsEhci ∧ x.newQh = true ∧ n = 0

instance BulkRun.decidableNullQtd (x : BulkRun) (n : Nat) : Decidable (x.NullQtd n) :=
  inferInstanceAs (Decidable (_ ∧ _ ∧ _))

/-- Reference: `drv_usbhost.c:599 nu_pipe_xfer`. -/
def utrXfer (s : Driver) (r : PortRef) (c : Call) (w : Answer) : Except Halt Result := do
  if ¬ w.utr then exitXfer s r c (-1) [] none
  else if c.ep.bmAttributes = 0x02#8 then
    match w.bulk with
    | .refused => exitXfer s r c 0 [] none
    | .ran x =>
      if x.NullQtd c.nbytes then .error .nullPointer
      else
        let (s, wire) ← moveData s r c x.data
        exitXfer s r c (x.xferLen c.nbytes wire.length) wire none
  else if c.ep.bmAttributes = 0x03#8 then
    match w.int with
    | .refused => exitXfer s r c (-1) [] none
    | .done timedOut data =>
      let (s, wire) ← moveEach s r c (timedOut ++ [data])
      exitXfer s r c c.nbytes wire none
  else if c.ep.bmAttributes = 0x01#8 then exitXfer s r c (-1) [] none
  else exitXfer s r c 0 [] none

/-- Reference: `drv_usbhost.c:490 nu_pipe_xfer`. -/
def nuPipeXfer (s : Driver) (token : Token) (c : Call) (w : Answer) : Except Halt Result :=
  match getRHPortControlFromPipe c.inst with
  | none => .ok ⟨-1, s, c.buffer, [], none⟩
  | some ctrl =>
    match getPortDevFromPipe s c.inst with
    | none => .error .nullPointer
    | some r =>
      if (s r).pUDev.isNone then .ok ⟨-1, s, c.buffer, [], none⟩
      else do
        let s ← copyIn s r c
        if c.ep.bmAttributes = 0x00#8 then
          match token, c.buffer with
          | .SETUP, _ => setupXfer s ctrl r c w
          | .DATA, some bytes =>
            if c.ep.dirIn then dataXfer s ctrl r c bytes w
            else .ok ⟨c.nbytes, s, c.buffer, [], none⟩
          | .DATA, none => .ok ⟨c.nbytes, s, c.buffer, [], none⟩
        else utrXfer s r c w

/-! ## What the parts do -/

section

variable {s s' : Driver} {r : PortRef} {c : Call} {bytes data : List Byte} {buf : PktBuf}

theorem PktBuf.write_ok (buf : PktBuf) (h : data.length ≤ PKT_BUF_SIZE) :
    ∃ buf', buf.write data = .ok buf' ∧ buf'.1 = data ++ buf.1.drop data.length := by
  rw [PktBuf.write, dif_pos h]
  exact ⟨_, rfl, rfl⟩

theorem PktBuf.write_overflow (h : PKT_BUF_SIZE < data.length) :
    buf.write data = .error .pktBufOverflow := by
  rw [PktBuf.write, dif_neg (Nat.not_le.2 h)]

theorem PktBuf.read_ok {n : Nat} (h : n ≤ PKT_BUF_SIZE) : buf.read n = .ok (buf.1.take n) := by
  rw [PktBuf.read, if_pos h]

theorem pktBuf_ok {i : Nat} (h : (s r).asPipePktBuf i = some buf) : pktBuf s r i = .ok buf := by
  rw [pktBuf, h]

@[simp] theorem withPktBuf_self {i : Nat} :
    (withPktBuf s r i buf r).asPipePktBuf i = some buf := by
  rw [withPktBuf, Function.update_self]
  exact Function.update_self ..

/-- A call that reads leaves by the exit label with the packet buffer copied back. -/
theorem exitXfer_in (hbuf : (s r).asPipePktBuf c.pipeIndex = some buf) (hb : c.buffer = some bytes)
    (hn : c.nbytes ≤ PKT_BUF_SIZE) (hpos : c.nbytes ≠ 0) (hin : c.ep.dirIn = true) (ret : Int)
    (wire : List Byte) (started : Option Started) :
    exitXfer s r c ret wire started =
      .ok ⟨ret, s, some (buf.1.take c.nbytes ++ bytes.drop c.nbytes), wire, started⟩ := by
  have hroom : (buf.1.take c.nbytes).length = c.nbytes := by
    rw [List.length_take, buf.2, Nat.min_eq_left hn]
  have hle : c.nbytes ≤ bytes.length := c.room bytes hb
  rw [exitXfer, hb, copyBack, if_neg (by simp [hpos, hin]), pktBuf_ok hbuf, ok_bind, PktBuf.read_ok hn,
    ok_bind, writeBuffer, if_pos (by rw [hroom]; exact hle), ok_bind, ok_bind, hroom]

/-- One that reads more than the packet buffer holds does not. -/
theorem exitXfer_overflow (hbuf : (s r).asPipePktBuf c.pipeIndex = some buf)
    (hb : c.buffer = some bytes) (hn : PKT_BUF_SIZE < c.nbytes) (hin : c.ep.dirIn = true) (ret : Int)
    (wire : List Byte) (started : Option Started) :
    exitXfer s r c ret wire started = .error .pktBufOverflow := by
  rw [exitXfer, hb, copyBack, if_neg (by simp [hin]; omega), pktBuf_ok hbuf, ok_bind, PktBuf.read,
    if_neg (Nat.not_le.2 hn)]
  rfl

/-- Any other call leaves with the caller's buffer as it was. -/
theorem exitXfer_keeps (h : c.nbytes = 0 ∨ c.ep.dirIn = false) (ret : Int) (wire : List Byte)
    (started : Option Started) : exitXfer s r c ret wire started = .ok ⟨ret, s, c.buffer, wire, started⟩ := by
  rw [exitXfer]
  cases hb : c.buffer with
  | none => rfl
  | some bytes =>
    simp only [copyBack, if_pos h]
    rfl

theorem moveData_in (data : List Byte) (hbuf : (s r).asPipePktBuf c.pipeIndex = some buf)
    (hn : c.nbytes ≤ PKT_BUF_SIZE) (hpos : c.nbytes ≠ 0) (hin : c.ep.dirIn = true) :
    ∃ buf', moveData s r c data = .ok (withPktBuf s r c.pipeIndex buf', data.take c.nbytes) ∧
      buf'.1 = data.take c.nbytes ++ buf.1.drop (data.take c.nbytes).length := by
  have hlen : (data.take c.nbytes).length ≤ PKT_BUF_SIZE := by
    rw [List.length_take]
    omega
  obtain ⟨buf', hwrite, hbytes⟩ := PktBuf.write_ok buf hlen
  refine ⟨buf', ?_, hbytes⟩
  rw [moveData, if_neg hpos, pktBuf_ok hbuf, ok_bind, if_pos hin, hwrite, ok_bind]

theorem moveData_out (hbuf : (s r).asPipePktBuf c.pipeIndex = some buf)
    (hn : c.nbytes ≤ PKT_BUF_SIZE) (hpos : c.nbytes ≠ 0) (hin : c.ep.dirIn = false) :
    moveData s r c data = .ok (s, buf.1.take (data.take c.nbytes).length) := by
  have hlen : (data.take c.nbytes).length ≤ PKT_BUF_SIZE := by
    rw [List.length_take]
    omega
  rw [moveData, if_neg hpos, pktBuf_ok hbuf, ok_bind, if_neg (by simp [hin]), PktBuf.read_ok hlen,
    ok_bind]

theorem moveData_zero (h : c.nbytes = 0) : moveData s r c data = .ok (s, []) := by
  rw [moveData, if_pos h]

theorem copyIn_keeps (h : c.nbytes = 0 ∨ c.ep.dirIn = true) : copyIn s r c = .ok s := by
  rw [copyIn]
  cases hb : c.buffer with
  | none => rfl
  | some bytes => simp only [if_pos h]

/-- The data to the device are in the packet buffer. -/
theorem copyIn_out (hbuf : (s r).asPipePktBuf c.pipeIndex = some buf) (hb : c.buffer = some bytes)
    (hn : c.nbytes ≤ PKT_BUF_SIZE) (hpos : c.nbytes ≠ 0) (hin : c.ep.dirIn = false) :
    ∃ buf', copyIn s r c = .ok (withPktBuf s r c.pipeIndex buf') ∧
      buf'.1.take c.nbytes = bytes.take c.nbytes := by
  have hroom : c.nbytes ≤ bytes.length := c.room bytes hb
  have hlen : (bytes.take c.nbytes).length = c.nbytes := by
    rw [List.length_take, Nat.min_eq_left hroom]
  obtain ⟨buf', hwrite, hbytes⟩ := PktBuf.write_ok buf (hlen.trans_le hn)
  refine ⟨buf', ?_, ?_⟩
  · rw [copyIn, hb]
    simp only [hpos, hin, Bool.false_eq_true, or_self, if_false]
    rw [pktBuf_ok hbuf, ok_bind, hwrite, ok_bind]
  · rw [hbytes, List.take_left' hlen]

theorem copyIn_overflow (hbuf : (s r).asPipePktBuf c.pipeIndex = some buf) (hb : c.buffer = some bytes)
    (hn : PKT_BUF_SIZE < c.nbytes) (hin : c.ep.dirIn = false) :
    copyIn s r c = .error .pktBufOverflow := by
  have hroom : c.nbytes ≤ bytes.length := c.room bytes hb
  have hlen : (bytes.take c.nbytes).length = c.nbytes := by
    rw [List.length_take, Nat.min_eq_left hroom]
  rw [copyIn, hb]
  have hpos : c.nbytes ≠ 0 := by omega
  simp only [hpos, hin, Bool.false_eq_true, or_self, if_false]
  rw [pktBuf_ok hbuf, ok_bind, PktBuf.write_overflow (by rw [hlen]; exact hn)]
  rfl

end

/-- The pipe is open: the record of its instance has a device and the pipe's packet buffer. -/
structure Opened (s : Driver) (inst : Uinst) (pipeIndex ctrl : Nat) (r : PortRef) : Prop where
  rh : getRHPortControlFromPipe inst = some ctrl
  get : getPortDevFromPipe s inst = some r
  pUDev : (s r).pUDev.isSome
  pktBuf : ((s r).asPipePktBuf pipeIndex).isSome

/-- A call on an open pipe. -/
theorem nuPipeXfer_opened {s : Driver} {c : Call} {ctrl : Nat} {r : PortRef}
    (h : Opened s c.inst c.pipeIndex ctrl r) (token : Token) (w : Answer) :
    nuPipeXfer s token c w = (do
      let s ← copyIn s r c
      if c.ep.bmAttributes = 0x00#8 then
        match token, c.buffer with
        | .SETUP, _ => setupXfer s ctrl r c w
        | .DATA, some bytes =>
          if c.ep.dirIn then dataXfer s ctrl r c bytes w else .ok ⟨c.nbytes, s, c.buffer, [], none⟩
        | .DATA, none => .ok ⟨c.nbytes, s, c.buffer, [], none⟩
      else utrXfer s r c w) := by
  have hsome : (s r).pUDev.isNone = false := by
    rw [Option.isNone_eq_false_iff]
    exact h.pUDev
  simp only [nuPipeXfer, h.rh, h.get, hsome, Bool.false_eq_true, if_false]

end NumakerMA35D1.UsbHost

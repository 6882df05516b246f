import NumakerMA35D1.UsbHost.Usb
import NumakerMA35D1.Lib.Bytes

/-!
# The port driver's device records

The tables in which `drv_usbhost.c` keeps a record of each attached device, the look-up of a pipe's
record and the opening and closing of pipes. A record is named by its place in the tables
(`PortRef`). The record of a device always has a NULL parent: the root hubs' polling and
`nu_open_pipe` both write it (`PortUdev`). Transfers that a close cancels are the controllers'.

Reference: `drv_usbhost.c`.
-/

namespace NumakerMA35D1.UsbHost

open Embedded

/-- Reference: `drv_usbhost.c:36 NU_MAX_USBH_PORT`. -/
abbrev NU_MAX_USBH_PORT : Nat := 3

/-- Reference: `drv_usbhost.c:37 NU_MAX_USBH_PIPE`. -/
abbrev NU_MAX_USBH_PIPE : Nat := 16

/-- Reference: `drv_usbhost.c:40 NU_MAX_USBH_HUB_PORT_DEV`, `usb_host.h:24 USB_HUB_PORT_NUM`. -/
abbrev NU_MAX_USBH_HUB_PORT_DEV : Nat := 4

/-- Reference: `rtdef.h:343`. -/
inductive Err
  | EOK | ERROR | EIO
deriving DecidableEq

/-- What stops the driver. -/
inductive Halt
  | assert | nullPointer
  /-- A copy into or out of a packet buffer past its end. -/
  | pktBufOverflow
  /-- A copy past the end of the caller's buffer. -/
  | bufferOverflow
deriving DecidableEq

/-- A device without a parent hub. Reference: `_ehci.c_:1244 ehci_rh_polling`, `drv_usbhost.c:292
nu_open_pipe`. -/
structure PortUdev extends Udev where
  parent_null : parents = []
deriving DecidableEq

/-- A control request. Reference: `usb_common.h:468 urequest`. -/
structure Urequest where
  requestType : BitVec 8
  bRequest : BitVec 8
  wValue : BitVec 16
  wIndex : BitVec 16
  wLength : BitVec 16
deriving DecidableEq

/-- Reference: `drv_usbhost.c:329 nu_open_pipe`. -/
abbrev PKT_BUF_SIZE : Nat := 512

/-- What a packet buffer holds. Reference: `drv_usbhost.c:74 asPipePktBuf`. -/
abbrev PktBuf := { bytes : List Byte // bytes.length = PKT_BUF_SIZE }

instance : Inhabited PktBuf := ⟨List.replicate PKT_BUF_SIZE 0, List.length_replicate⟩

/-- Reference: `drv_usbhost.c:64 S_NU_PORT_DEV`. -/
structure PortDev where
  bRHParent : Bool
  pUDev : Option PortUdev
  apsEPInfo : Nat → Option EpInfo
  portNum : Nat
  bEnumDone : Bool
  asPipePktBuf : Nat → Option PktBuf
  asSetupReq : Nat → Urequest
  u32SentLength : Nat → BitVec 32

/-- A record in the block of a root port. Reference: `drv_usbhost.c:78 S_NU_RH_PORT_CTRL`. -/
inductive Slot
  | sRHPortDev
  | asHubPortDev (i : Nat)
deriving DecidableEq

/-- The place of a record: the index of the root port's block, and the record in it. -/
structure PortRef where
  ctrl : Nat
  slot : Slot
deriving DecidableEq

/-- The place is one of the tables. Reference: `drv_usbhost.c:85 nu_usbh_dev`. -/
def PortRef.InRange (r : PortRef) : Prop :=
  r.ctrl < NU_MAX_USBH_PORT ∧ ∀ i, r.slot = .asHubPortDev i → i < NU_MAX_USBH_HUB_PORT_DEV

/-- The records by their place. Reference: `drv_usbhost.c:94 s_sUSBHDev`. -/
abbrev Driver := PortRef → PortDev

/-- The static variable at start. Reference: `drv_usbhost.c:94 s_sUSBHDev`. -/
def Driver.init : Driver := fun _ =>
  { bRHParent := false, pUDev := none, apsEPInfo := fun _ => none, portNum := 0,
    bEnumDone := false, asPipePktBuf := fun _ => none, asSetupReq := fun _ => ⟨0, 0, 0, 0, 0⟩,
    u32SentLength := fun _ => 0 }

/-! ## The record of a pipe -/

/-- The port that a pipe's instance, or the hub it is behind, is on. Reference: `drv_usbhost.c:108
GetRHPortControlFromPipe`. -/
def rhPort : Uinst → Nat
  | .onRootHub dev i v => (Uinst.onRootHub dev i v).port
  | .onHub hub _ _ _ => hub.port

/-- The index of the root port's block. Reference: `drv_usbhost.c:97 GetRHPortControlFromPipe`. -/
def getRHPortControlFromPipe (inst : Uinst) : Option Nat :=
  if rhPort inst > NU_MAX_USBH_PORT then none else some (rhPort inst - 1)

/-- The first of the hub port records that passes a test. -/
def findHubPortDev (s : Driver) (ctrl : Nat) (test : PortDev → Bool) : Option Nat :=
  (List.range NU_MAX_USBH_HUB_PORT_DEV).find? fun i => test (s ⟨ctrl, .asHubPortDev i⟩)

/-- Reference: `drv_usbhost.c:129 GetPortDevFromPipe`. -/
def getPortDevFromPipe (s : Driver) (inst : Uinst) : Option PortRef :=
  match getRHPortControlFromPipe inst with
  | none => none
  | some ctrl =>
    match inst with
    | .onRootHub .. => some ⟨ctrl, .sRHPortDev⟩
    | .onHub .. =>
      (findHubPortDev s ctrl fun d => d.portNum = inst.port).map fun i => ⟨ctrl, .asHubPortDev i⟩

/-! ## Opening a pipe -/

/-- What the allocators answer: `alloc_device`, the heap for an endpoint, the heap for a buffer, which
holds anything. -/
structure Allocs where
  device : Bool
  epInfo : Bool
  pktBuf : Option PktBuf

/-- A free record takes a new device. Reference: `drv_usbhost.c:223 AllocateNewUDev`. -/
def allocateNewUDev (s : Driver) (a : Allocs) (ctrl : Nat) : Option PortRef :=
  match findHubPortDev s ctrl fun d => d.pUDev.isNone with
  | none => none
  | some i => if a.device then some ⟨ctrl, .asHubPortDev i⟩ else none

/-- The device written for an instance behind a hub. Reference: `drv_usbhost.c:282 nu_open_pipe`. -/
def newUDev (inst : Uinst) (hcDriver : Option HcDriver) : PortUdev where
  toUdev := { allocDevice with
    speed := if inst.speed ≠ 0 then .FULL else .HIGH
    parents := []
    hcDriver := hcDriver
    portNum := BitVec.ofNat 8 inst.port }
  parent_null := rfl

/-- The endpoint written for a descriptor. Reference: `drv_usbhost.c:315 nu_open_pipe`. -/
def newEpInfo (ep : UendpointDescriptor) : EpInfo where
  bEndpointAddress := ep.bEndpointAddress
  bmAttributes := ep.bmAttributes
  bInterval := ep.bInterval
  wMaxPacketSize := (ep.wMaxPacketSize &&& 0x07FF#16) * (1#16 + ((ep.wMaxPacketSize >>> 11) &&& 3#16))

/-- The first pipe without an endpoint. Reference: `drv_usbhost.c:180 GetFreePipe`. -/
def getFreePipe (d : PortDev) (a : Allocs) : Option Nat :=
  match (List.range NU_MAX_USBH_PIPE).find? fun i => (d.apsEPInfo i).isNone with
  | none => none
  | some i => if a.epInfo then some i else none

/-- The record of a pipe that is opened, a new one where it has none. Reference: `drv_usbhost.c:270
nu_open_pipe`. -/
def openPortDev (s : Driver) (a : Allocs) (inst : Uinst) (ctrl : Nat) (rh : PortUdev) :
    Option (PortRef × Driver) :=
  match (getPortDevFromPipe s inst).filter fun r => (s r).pUDev.isSome with
  | some r => some (r, s)
  | none =>
    match allocateNewUDev s a ctrl with
    | none => none
    | some r => some (r, Function.update s r { s r with
        pUDev := some (newUDev inst rh.hcDriver), portNum := inst.port, bEnumDone := false })

/-- The pipe index and the record after a pipe is opened in it: index 0 for endpoint zero. Reference:
`drv_usbhost.c:300 nu_open_pipe`. -/
def openEndpoint (d : PortDev) (a : Allocs) (ep : UendpointDescriptor) : Option (Nat × PortDev) :=
  if ep.IsEp0 then some (0, d)
  else
    match getFreePipe d a with
    | none => none
    | some i => some (i, { d with apsEPInfo := Function.update d.apsEPInfo i (some (newEpInfo ep)) })

/-- The pipe's buffer is allocated where it has none. Reference: `drv_usbhost.c:327 nu_open_pipe`. -/
def openPktBuf (d : PortDev) (a : Allocs) (pipeIndex : Nat) : Except Halt PortDev :=
  match d.asPipePktBuf pipeIndex, a.pktBuf with
  | some _, _ => .ok d
  | none, some buf => .ok { d with asPipePktBuf := Function.update d.asPipePktBuf pipeIndex (some buf) }
  | none, none => .error .assert

/-- A pipe that fails to open keeps its index 0. Reference: `drv_usbhost.c:253 nu_open_pipe`. -/
def nuOpenPipe (s : Driver) (a : Allocs) (inst : Uinst) (ep : UendpointDescriptor) :
    Except Halt (Err × Nat × Driver) :=
  match getRHPortControlFromPipe inst with
  | none => .ok (.ERROR, 0, s)
  | some ctrl =>
    match (s ⟨ctrl, .sRHPortDev⟩).pUDev with
    | none => .ok (.ERROR, 0, s)
    | some rh =>
      match openPortDev s a inst ctrl rh with
      | none => .ok (.ERROR, 0, s)
      | some (r, s) =>
        match openEndpoint (s r) a ep with
        | none => .ok (.ERROR, 0, s)
        | some (pipeIndex, d) =>
          match openPktBuf d a pipeIndex with
          | .error h => .error h
          | .ok d => .ok (.EOK, pipeIndex, Function.update s r d)

/-! ## Closing a pipe -/

/-- The device of a record behind a hub is freed once it was enumerated. Reference:
`drv_usbhost.c:354 nu_close_pipe`. -/
def closeUDev (d : PortDev) (ep : UendpointDescriptor) : PortDev :=
  if ep.IsEp0 ∧ d.bRHParent = false ∧ d.bEnumDone = true then { d with pUDev := none } else d

/-- The pipe's buffer and endpoint are freed. Reference: `drv_usbhost.c:374 nu_close_pipe`,
`drv_usbhost.c:209 FreePipe`. -/
def closeEndpoint (d : PortDev) (pipeIndex : Nat) : PortDev :=
  { d with
    asPipePktBuf := Function.update d.asPipePktBuf pipeIndex none
    apsEPInfo := if pipeIndex < NU_MAX_USBH_PIPE then Function.update d.apsEPInfo pipeIndex none
      else d.apsEPInfo }

/-- Reference: `drv_usbhost.c:340 nu_close_pipe`. -/
def nuClosePipe (s : Driver) (inst : Uinst) (ep : UendpointDescriptor) (pipeIndex : Nat) : Driver :=
  match getPortDevFromPipe s inst with
  | none => s
  | some r => Function.update s r (closeEndpoint (closeUDev (s r) ep) pipeIndex)

/-! ## Requests and root ports -/

/-- Reference: `usb_common.h:86 USB_REQ_SET_ADDRESS`. -/
abbrev USB_REQ_SET_ADDRESS : BitVec 8 := 0x05

/-- Reference: `usb_common.h:90 USB_REQ_SET_CONFIGURATION`. -/
abbrev USB_REQ_SET_CONFIGURATION : BitVec 8 := 0x09

/-- What a request that the device has accepted changes in its record. Reference: `drv_usbhost.c:409
nu_ctrl_xfer`. -/
def requestDone (d : PortDev) (setup : Urequest) : PortDev :=
  if setup.requestType &&& 0x60#8 ≠ 0#8 then d
  else if setup.bRequest = USB_REQ_SET_ADDRESS then
    { d with pUDev := d.pUDev.map fun u => { u with devNum := setup.wValue.setWidth 8 } }
  else if setup.bRequest = USB_REQ_SET_CONFIGURATION then
    { d with
      pUDev := d.pUDev.map fun u => { u with curConf := setup.wValue.setWidth 8 }
      bEnumDone := true }
  else d

/-- A device connected to a root port takes the first free block. Reference: `drv_usbhost.c:723
nu_hcd_connect_callback`. -/
def nuHcdConnectCallback (s : Driver) (udev : PortUdev) : Driver :=
  match (List.range NU_MAX_USBH_PORT).find? fun i => (s ⟨i, .sRHPortDev⟩).pUDev.isNone with
  | none => s
  | some i =>
    Function.update s ⟨i, .sRHPortDev⟩
      { s ⟨i, .sRHPortDev⟩ with pUDev := some udev, bRHParent := true }

/-- The device of a root port's block is gone. Reference: `drv_usbhost.c:756
nu_hcd_disconnect_callback`. -/
def nuHcdDisconnectCallback (s : Driver) (i : Nat) : Driver :=
  Function.update s ⟨i, .sRHPortDev⟩ { s ⟨i, .sRHPortDev⟩ with pUDev := none }

/-! ## The record of a pipe found -/

section

variable {s s' : Driver} {inst : Uinst} {r : PortRef}

theorem findHubPortDev_eq_some {ctrl i : Nat} {test : PortDev → Bool} :
    findHubPortDev s ctrl test = some i ↔
      i < NU_MAX_USBH_HUB_PORT_DEV ∧ test (s ⟨ctrl, .asHubPortDev i⟩) = true ∧
        ∀ j < i, test (s ⟨ctrl, .asHubPortDev j⟩) = false := by
  rw [findHubPortDev, List.find?_range_eq_some, List.mem_range]
  simp only [Bool.not_eq_eq_eq_not, Bool.not_true]
  tauto

theorem getRHPortControlFromPipe_eq_some {ctrl : Nat} :
    getRHPortControlFromPipe inst = some ctrl ↔
      rhPort inst ≤ NU_MAX_USBH_PORT ∧ ctrl = rhPort inst - 1 := by
  rw [getRHPortControlFromPipe]
  split
  case isTrue h => simp [Nat.not_le.2 h]
  case isFalse h => simp [Nat.not_lt.1 h, eq_comm]

/-- An instance on a root port has the port's record. -/
theorem getPortDevFromPipe_onRootHub {dev : Fin USB_MAX_DEVICE} {i : Nat} {v : Speed} :
    getPortDevFromPipe s (.onRootHub dev i v) = some r ↔
      i + 1 ≤ NU_MAX_USBH_PORT ∧ r = ⟨i, .sRHPortDev⟩ := by
  rw [getPortDevFromPipe, getRHPortControlFromPipe, rhPort, Uinst.port]
  split
  case h_1 h =>
    have : ¬ i + 1 ≤ NU_MAX_USBH_PORT := by
      intro hle
      simp [Nat.not_lt.2 hle] at h
    simp [this]
  case h_2 ctrl h =>
    split at h
    · cases h
    · cases h
      simp only [Nat.add_sub_cancel, Option.some.injEq]
      exact ⟨fun hr => ⟨by omega, hr.symm⟩, fun hr => hr.2.symm⟩

/-- An instance on the port of a hub has the first record with that port number, in the block of the
port the hub is on. -/
theorem getPortDevFromPipe_onHub {hub : Uinst} {dev : Fin USB_MAX_DEVICE} {i : Nat} {v : Speed} :
    getPortDevFromPipe s (.onHub hub dev i v) = some r ↔
      hub.port ≤ NU_MAX_USBH_PORT ∧ ∃ k, r = ⟨hub.port - 1, .asHubPortDev k⟩ ∧
        k < NU_MAX_USBH_HUB_PORT_DEV ∧ (s r).portNum = i + 1 ∧
          ∀ j < k, (s ⟨hub.port - 1, .asHubPortDev j⟩).portNum ≠ i + 1 := by
  constructor
  · intro h
    rw [getPortDevFromPipe] at h
    split at h
    · cases h
    · rename_i ctrl hctrl
      obtain ⟨hle, rfl⟩ := getRHPortControlFromPipe_eq_some.1 hctrl
      obtain ⟨k, hk, rfl⟩ := Option.map_eq_some_iff.1 h
      obtain ⟨hlt, htest, hbefore⟩ := findHubPortDev_eq_some.1 hk
      exact ⟨hle, k, rfl, hlt, of_decide_eq_true htest, fun j hj => of_decide_eq_false (hbefore j hj)⟩
  · rintro ⟨hle, k, rfl, hlt, hport, hbefore⟩
    have hctrl : getRHPortControlFromPipe (.onHub hub dev i v) = some (hub.port - 1) :=
      getRHPortControlFromPipe_eq_some.2 ⟨hle, rfl⟩
    have hfind : findHubPortDev s (hub.port - 1)
        (fun d => d.portNum = (Uinst.onHub hub dev i v).port) = some k :=
      findHubPortDev_eq_some.2
        ⟨hlt, decide_eq_true hport, fun j hj => decide_eq_false (hbefore j hj)⟩
    rw [getPortDevFromPipe, hctrl]
    simp only [hfind, Option.map_some]

/-- A record found is in the tables. -/
theorem getPortDevFromPipe_inRange (h : getPortDevFromPipe s inst = some r) : r.InRange := by
  cases inst with
  | onRootHub dev i v =>
    obtain ⟨hi, rfl⟩ := getPortDevFromPipe_onRootHub.1 h
    exact ⟨hi, fun _ hslot => nomatch hslot⟩
  | onHub hub dev i v =>
    obtain ⟨hle, k, rfl, hk, -, -⟩ := getPortDevFromPipe_onHub.1 h
    have hpos : 0 < hub.port := by cases hub <;> exact Nat.succ_pos _
    refine ⟨show hub.port - 1 < NU_MAX_USBH_PORT by omega, fun j hslot => ?_⟩
    cases hslot
    exact hk

/-! ## What opening a pipe does -/

/-- The parts of a record that its pipes do not change. -/
structure PortDev.SameDevice (d d' : PortDev) : Prop where
  bRHParent : d'.bRHParent = d.bRHParent
  pUDev : d'.pUDev = d.pUDev
  portNum : d'.portNum = d.portNum
  bEnumDone : d'.bEnumDone = d.bEnumDone

/-- The record of a pipe has a device, which is the one a new record would be written for, or is
given one. -/
theorem openPortDev_cases {a : Allocs} {ctrl : Nat} {rh : PortUdev}
    (h : openPortDev s a inst ctrl rh = some (r, s')) :
    (getPortDevFromPipe s inst = some r ∧ (s r).pUDev.isSome ∧ s' = s) ∨
    ((∀ r', getPortDevFromPipe s inst = some r' → (s r').pUDev = none) ∧
      (∃ k, r = ⟨ctrl, .asHubPortDev k⟩ ∧ k < NU_MAX_USBH_HUB_PORT_DEV ∧ (s r).pUDev = none ∧
        ∀ j < k, (s ⟨ctrl, .asHubPortDev j⟩).pUDev ≠ none) ∧
      s' = Function.update s r { s r with
        pUDev := some (newUDev inst rh.hcDriver), portNum := inst.port, bEnumDone := false }) := by
  rw [openPortDev] at h
  split at h
  · rename_i r₀ hlive
    cases h
    obtain ⟨hget, hsome⟩ := Option.filter_eq_some_iff.1 hlive
    exact .inl ⟨hget, hsome, rfl⟩
  · rename_i hdead
    split at h
    · cases h
    · rename_i r₀ halloc
      cases h
      refine .inr ⟨fun r' hr' => ?_, ?_, rfl⟩
      · rw [hr', Option.filter_some] at hdead
        split at hdead
        · cases hdead
        · rename_i hnone
          exact Option.not_isSome_iff_eq_none.1 hnone
      · rw [allocateNewUDev] at halloc
        split at halloc
        · cases halloc
        · rename_i k hk
          split at halloc
          · cases halloc
            obtain ⟨hlt, hfree, hbefore⟩ := findHubPortDev_eq_some.1 hk
            exact ⟨k, rfl, hlt, Option.isNone_iff_eq_none.1 hfree, fun j hj hnone =>
              absurd (hbefore j hj) (by simp [hnone])⟩
          · cases halloc

theorem openEndpoint_cases {d d' : PortDev} {a : Allocs} {ep : UendpointDescriptor} {i : Nat}
    (h : openEndpoint d a ep = some (i, d')) :
    d.SameDevice d' ∧ i < NU_MAX_USBH_PIPE ∧
      (¬ ep.IsEp0 → d'.apsEPInfo i = some (newEpInfo ep)) := by
  rw [openEndpoint] at h
  split at h
  case isTrue hep =>
    cases h
    exact ⟨⟨rfl, rfl, rfl, rfl⟩, by decide, fun hne => absurd hep hne⟩
  case isFalse hep =>
    split at h
    · cases h
    · rename_i k hfree
      cases h
      rw [getFreePipe] at hfree
      split at hfree
      · cases hfree
      · rename_i j hj
        split at hfree
        · cases hfree
          refine ⟨⟨rfl, rfl, rfl, rfl⟩, ?_, fun _ => Function.update_self ..⟩
          exact List.mem_range.1 (List.mem_of_find?_eq_some hj)
        · cases hfree

theorem openPktBuf_cases {d d' : PortDev} {a : Allocs} {i : Nat}
    (h : openPktBuf d a i = .ok d') : d.SameDevice d' ∧ d'.apsEPInfo = d.apsEPInfo := by
  rw [openPktBuf] at h
  split at h
  · cases h
    exact ⟨⟨rfl, rfl, rfl, rfl⟩, rfl⟩
  · cases h
    exact ⟨⟨rfl, rfl, rfl, rfl⟩, rfl⟩
  · cases h

theorem PortDev.SameDevice.trans {d d' d'' : PortDev} (h : d.SameDevice d') (h' : d'.SameDevice d'') :
    d.SameDevice d'' where
  bRHParent := h'.bRHParent.trans h.bRHParent
  pUDev := h'.pUDev.trans h.pUDev
  portNum := h'.portNum.trans h.portNum
  bEnumDone := h'.bEnumDone.trans h.bEnumDone

/-- A pipe opens in the record of its instance, found or taken; one that fails may leave the record
taken. -/
theorem nuOpenPipe_cases {a : Allocs} {ep : UendpointDescriptor} {e : Err} {i : Nat}
    (h : nuOpenPipe s a inst ep = .ok (e, i, s')) :
    (e = .ERROR ∧ i = 0 ∧ s' = s) ∨
    ∃ ctrl rh r s₁, getRHPortControlFromPipe inst = some ctrl ∧
      (s ⟨ctrl, .sRHPortDev⟩).pUDev = some rh ∧ openPortDev s a inst ctrl rh = some (r, s₁) ∧
      ((e = .ERROR ∧ i = 0 ∧ s' = s₁) ∨
        ∃ d, e = .EOK ∧ i < NU_MAX_USBH_PIPE ∧ s' = Function.update s₁ r d ∧
          (s₁ r).SameDevice d ∧ (¬ ep.IsEp0 → d.apsEPInfo i = some (newEpInfo ep))) := by
  rw [nuOpenPipe] at h
  split at h
  · cases h
    exact .inl ⟨rfl, rfl, rfl⟩
  · rename_i ctrl hctrl
    split at h
    · cases h
      exact .inl ⟨rfl, rfl, rfl⟩
    · rename_i rh hrh
      split at h
      · cases h
        exact .inl ⟨rfl, rfl, rfl⟩
      · rename_i r s₁ hopen
        refine .inr ⟨ctrl, rh, r, s₁, hctrl, hrh, hopen, ?_⟩
        split at h
        · cases h
          exact .inl ⟨rfl, rfl, rfl⟩
        · rename_i k d hep
          split at h
          · cases h
          · rename_i d' hbuf
            cases h
            obtain ⟨hsame, hlt, hinfo⟩ := openEndpoint_cases hep
            obtain ⟨hsame', hkeep⟩ := openPktBuf_cases hbuf
            exact .inr ⟨d', rfl, hlt, rfl, hsame.trans hsame', fun hne => hkeep ▸ hinfo hne⟩

/-- The look-up reads the port numbers only. -/
theorem getPortDevFromPipe_congr (h : ∀ r, (s' r).portNum = (s r).portNum) :
    getPortDevFromPipe s' inst = getPortDevFromPipe s inst := by
  have hfind : ∀ ctrl, findHubPortDev s' ctrl (fun d => d.portNum = inst.port) =
      findHubPortDev s ctrl (fun d => d.portNum = inst.port) := by
    intro ctrl
    simp only [findHubPortDev, h]
  rw [getPortDevFromPipe, getPortDevFromPipe]
  cases getRHPortControlFromPipe inst with
  | none => rfl
  | some ctrl =>
    cases inst with
    | onRootHub => rfl
    | onHub hub dev i v => simp only [hfind]

theorem getPortDevFromPipe_update {d : PortDev} (h : d.portNum = (s r).portNum) :
    getPortDevFromPipe (Function.update s r d) inst = getPortDevFromPipe s inst := by
  apply getPortDevFromPipe_congr
  intro r'
  by_cases hr : r' = r
  · rw [hr, Function.update_self, h]
  · rw [Function.update_of_ne hr]

/-- The record given to a pipe is the one its instance has from then on: no record before the first
free one has the port number. -/
theorem openPortDev_get {a : Allocs} {ctrl : Nat} {rh : PortUdev}
    (hctrl : getRHPortControlFromPipe inst = some ctrl)
    (hrh : (s ⟨ctrl, .sRHPortDev⟩).pUDev = some rh)
    (h : openPortDev s a inst ctrl rh = some (r, s')) : getPortDevFromPipe s' inst = some r := by
  obtain ⟨hget, -, rfl⟩ | ⟨hdead, ⟨k, rfl, hk, hfree, hbefore⟩, rfl⟩ := openPortDev_cases h
  · exact hget
  · obtain ⟨hle, rfl⟩ := getRHPortControlFromPipe_eq_some.1 hctrl
    cases inst with
    | onRootHub dev i v =>
      have hget : getPortDevFromPipe s (.onRootHub dev i v) = some ⟨i, .sRHPortDev⟩ :=
        getPortDevFromPipe_onRootHub.2 ⟨hle, rfl⟩
      have hnone : (s ⟨i, .sRHPortDev⟩).pUDev = none := hdead _ hget
      have hsome : (s ⟨i, .sRHPortDev⟩).pUDev = some rh := hrh
      rw [hnone] at hsome
      cases hsome
    | onHub hub dev i v =>
      refine getPortDevFromPipe_onHub.2 ⟨hle, k, rfl, hk, ?_, ?_⟩
      · rw [rhPort, Function.update_self]
        rfl
      · intro j hj hport
        have hne : (⟨hub.port - 1, .asHubPortDev j⟩ : PortRef) ≠ ⟨hub.port - 1, .asHubPortDev k⟩ := by
          intro heq
          cases heq
          exact absurd hj (Nat.lt_irrefl _)
        rw [rhPort, Function.update_of_ne hne] at hport
        -- the first record with the port number is free, so it is not before the first free one
        have hex : ∃ m, (s ⟨hub.port - 1, .asHubPortDev m⟩).portNum = i + 1 := ⟨j, hport⟩
        have hm : Nat.find hex ≤ j := Nat.find_min' hex hport
        have hget : getPortDevFromPipe s (.onHub hub dev i v) =
            some ⟨hub.port - 1, .asHubPortDev (Nat.find hex)⟩ :=
          getPortDevFromPipe_onHub.2
            ⟨hle, _, rfl, by omega, Nat.find_spec hex, fun _ hlt => Nat.find_min hex hlt⟩
        exact hbefore _ (by omega) (hdead _ hget)

end

end NumakerMA35D1.UsbHost

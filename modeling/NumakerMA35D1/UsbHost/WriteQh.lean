import NumakerMA35D1.UsbHost.DrvUsbhost
import NumakerMA35D1.Lib.BitField
import NumakerMA35D1.Lib.Outcome

/-!
# The words written for an endpoint

`write_qh` and `write_itd_info` pack an endpoint into the words of a queue head and of an iTD, which
the controller reads as `decodeQh` and `decodeItd` say. A device that an OHCI controller drives has no
such words. `endpointRight_iff`: the words written for an endpoint that `nu_open_pipe` has set up on a
USB 2.0 controller decode to it exactly when the device is of high speed, its record says so and holds
its address, and the endpoint has packets of at most 1024 bytes and no additional transactions (an iTD
also carries 3072 bytes a micro-frame in, by what `nu_open_pipe` spills into the direction bit).
Otherwise the packet size multiplied by the transactions overflows its field, the speed is another or
the hub pointer is NULL: the records that `nu_open_pipe` writes have no parent.

Reference: `_ehci.c_:407 write_qh`, `_ehci_iso.c_:316 write_itd_info`.
-/

namespace NumakerMA35D1.UsbHost

open Embedded

/-! ## Queue heads -/

/-- Reference: `ehci.h:125 QH_NAK_RL`. -/
def QH_NAK_RL : BitVec 32 := 4#32 <<< 28

/-- Reference: `ehci.h:126 QH_CTRL_EP_FLAG`. -/
def QH_CTRL_EP_FLAG : BitVec 32 := 1#32 <<< 27

/-- Reference: `ehci.h:128 QH_DTC`. -/
def QH_DTC : BitVec 32 := 1#32 <<< 14

/-- The endpoint speed. Reference: `ehci.h:129 QH_EPS_FULL`. -/
def QH_EPS : Speed → BitVec 32
  | .FULL => 0#32 <<< 12
  | .LOW => 1#32 <<< 12
  | .HIGH => 2#32 <<< 12

/-- The words of a queue head. Reference: `ehci.h:84 QH_T`. -/
structure Qh where
  chrst : BitVec 32
  cap : BitVec 32

/-- The walk up the device tree: the port below the first hub of high speed, and that hub. Reference:
`_ehci.c_:462 write_qh`. -/
def backtrace (portNum : BitVec 8) : List UdevInfo → Option (BitVec 8 × UdevInfo)
  | [] => none
  | hub :: parents => if hub.speed ≠ .HIGH then backtrace hub.portNum parents else some (portNum, hub)

/-- The device with a packet size for its endpoint zero. Reference: `_ehci.c_:416 write_qh`. -/
def defaultMaxPacketSize0 (udev : Udev) : Udev :=
  if udev.bMaxPacketSize0 = 0#8 then
    { udev with bMaxPacketSize0 := if udev.speed = .LOW then 8 else 64 }
  else udev

/-- Reference: `_ehci.c_:443 write_qh`. -/
def qhCap (udev : Udev) : Except Halt (BitVec 32) :=
  if udev.speed = .HIGH then .ok 0x40000000#32
  else
    match backtrace udev.portNum udev.parents with
    | none => .error .nullPointer
    | some (portNum, hub) =>
      .ok ((portNum.setWidth 32 <<< 23) ||| (hub.devNum.setWidth 32 <<< 16))

/-- The queue head of endpoint zero has no endpoint record. Reference: `_ehci.c_:407 write_qh`. -/
def writeQh (udev : Udev) (ep : Option EpInfo) : Except Halt (Udev × Qh) := do
  let (udev, chrst) :=
    match ep with
    | none =>
      let udev := defaultMaxPacketSize0 udev
      let chrst := QH_DTC ||| QH_NAK_RL ||| (udev.bMaxPacketSize0.setWidth 32 <<< 16)
      (udev, if udev.speed ≠ .HIGH then chrst ||| QH_CTRL_EP_FLAG else chrst)
    | some ep =>
      (udev, QH_NAK_RL ||| (ep.wMaxPacketSize.setWidth 32 <<< 16) |||
        ((ep.bEndpointAddress &&& 0x0F#8).setWidth 32 <<< 8))
  let cap ← qhCap udev
  .ok (udev, ⟨chrst ||| QH_EPS udev.speed ||| udev.devNum.setWidth 32, cap⟩)

/-- The token of a transfer's descriptors but for the length: a queue head names no direction.
Reference: `_ehci.c_:675 ehci_bulk_xfer`. -/
def dataToken (ep : EpInfo) : BitVec 32 :=
  (3#32 <<< 10) ||| ((if ep.bEndpointAddress &&& 0x80#8 = 0x00#8 then 0#32 else 1#32) <<< 8) |||
    (1#32 <<< 7)

/-! ## Isochronous descriptors -/

/-- The buffer pages. Reference: `ehci.h:150 iTD_T`. -/
structure Itd where
  bptr : Fin 7 → BitVec 32

/-- Reference: `_ehci_iso.c_:325 write_itd_info`. -/
def itdPage (buffBase : BitVec 32) (i : Nat) : BitVec 32 :=
  (buffBase &&& 0xFFFFF000#32) + 0x1000#32 * BitVec.ofNat 32 i

/-- Reference: `_ehci_iso.c_:316 write_itd_info`. -/
def writeItdInfo (udev : Udev) (ep : EpInfo) (buffBase : BitVec 32) : Itd where
  bptr
    | 0 => itdPage buffBase 0 |||
        (udev.devNum.setWidth 32 ||| ((ep.bEndpointAddress &&& 0x0F#8).setWidth 32 <<< 8))
    | 1 => itdPage buffBase 1 ||| ep.wMaxPacketSize.setWidth 32 |||
        ((if ep.bEndpointAddress &&& 0x80#8 = 0x80#8 then 1#32 else 0#32) <<< 11)
    | 2 => itdPage buffBase 2 ||| (ep.wMaxPacketSize.setWidth 32 + 1023#32) / 1024#32
    | i => itdPage buffBase i

/-! ## What the controller reads -/

/-- An endpoint as the controller addresses it. -/
structure Endpoint where
  number : Nat
  dirIn : Bool
  packetSize : Nat
  transactions : Nat
  device : Nat
  speed : Option Speed
  /-- The address of the transaction translator's hub and the port on it. -/
  translator : Option (Nat × Nat)

/-- The speeds of a queue head. -/
def epsSpeed (eps : Nat) : Option Speed :=
  match eps with
  | 0 => some .FULL
  | 1 => some .LOW
  | 2 => some .HIGH
  | _ => none

/-- The endpoint of a queue head and the token of its transfers. Reference: `ehci.h:124 "Bit fields
of Endpoint Characteristics"`. -/
def decodeQh (qh : Qh) (token : BitVec 32) : Endpoint where
  number := (getField qh.chrst 8 4).toNat
  dirIn := (getField token 8 2).toNat = 1
  packetSize := (getField qh.chrst 16 11).toNat
  transactions := (getField qh.cap 30 2).toNat
  device := (getField qh.chrst 0 7).toNat
  speed := epsSpeed (getField qh.chrst 12 2).toNat
  translator :=
    if epsSpeed (getField qh.chrst 12 2).toNat = some .HIGH then none
    else some ((getField qh.cap 16 7).toNat, (getField qh.cap 23 7).toNat)

/-- The endpoint of an iTD, of high speed. Reference: `ehci.h:194 ITD_EP_NUM`. -/
def decodeItd (itd : Itd) : Endpoint where
  number := (getField (itd.bptr 0) 8 4).toNat
  dirIn := (getField (itd.bptr 1) 11 1).toNat = 1
  packetSize := (getField (itd.bptr 1) 0 11).toNat
  transactions := (getField (itd.bptr 2) 0 2).toNat
  device := (getField (itd.bptr 0) 0 7).toNat
  speed := some .HIGH
  translator := none

/-- The hub above a device whose transaction translator serves it, and the port on it. -/
def Uinst.translator : Uinst → Option (Nat × Nat)
  | .onRootHub .. => none
  | .onHub hub _ i _ => if hub.lineSpeed = .HIGH then some (hub.index, i + 1) else hub.translator

/-- The endpoint of a device that a descriptor describes. -/
def endpointOf (inst : Uinst) (ep : UendpointDescriptor) : Endpoint where
  number := ep.number
  dirIn := ep.dirIn
  packetSize := ep.packetSize
  transactions := ep.additional + 1
  device := inst.index
  speed := some inst.lineSpeed
  translator := if inst.lineSpeed = .HIGH then none else inst.translator

/-- The largest packet of an endpoint. -/
def MAX_PACKET_SIZE : Nat := 1024

/-- The endpoint read is the one described, with packets of a size that there is. -/
def Endpoint.Describes (e : Endpoint) (inst : Uinst) (ep : UendpointDescriptor) : Prop :=
  e = endpointOf inst ep ∧ e.packetSize ≤ MAX_PACKET_SIZE

/-- No NULL hub is dereferenced for the device, and the words of the endpoint, in an iTD with the
buffer at `buffBase` or in a queue head, decode to it. -/
def WordsRight (inst : Uinst) (ep : UendpointDescriptor) (udev : Udev) (info : EpInfo)
    (buffBase : BitVec 32) : Prop :=
  (∃ written, writeQh udev none = .ok written) ∧
    ∃ udev' qh, writeQh udev (some info) = .ok (udev', qh) ∧
      (¬ ep.IsIso → (decodeQh qh (dataToken info)).Describes inst ep) ∧
      (ep.IsIso → (decodeItd (writeItdInfo udev info buffBase)).Describes inst ep)

/-! ## Fields of the words -/

theorem newEpInfo_wMaxPacketSize (ep : UendpointDescriptor) :
    (newEpInfo ep).wMaxPacketSize.toNat = ep.packetSize * (ep.additional + 1) := by
  have hsize : (ep.wMaxPacketSize &&& 0x07FF#16).toNat = ep.packetSize := by
    rw [BitVec.toNat_and]
    exact Nat.and_two_pow_sub_one_eq_mod _ 11
  have hmult : ((ep.wMaxPacketSize >>> 11) &&& 3#16).toNat = ep.additional := by
    rw [BitVec.toNat_and, BitVec.toNat_ushiftRight, Nat.shiftRight_eq_div_pow]
    exact Nat.and_two_pow_sub_one_eq_mod _ 2
  have hlt : ep.packetSize < 2048 := Nat.mod_lt _ (by decide)
  have hadd : ep.additional < 4 := Nat.mod_lt _ (by decide)
  have hone : (1#16 + ((ep.wMaxPacketSize >>> 11) &&& 3#16)).toNat = ep.additional + 1 := by
    rw [BitVec.toNat_add, hmult]
    change (1 + ep.additional) % 2 ^ 16 = _
    omega
  have hprod : ep.packetSize * (ep.additional + 1) < 2048 * 4 :=
    Nat.mul_lt_mul_of_lt_of_le hlt hadd (by omega)
  simp only [newEpInfo, BitVec.toNat_mul, hsize, hone]
  exact Nat.mod_eq_of_lt (by omega)

/-- The number of an endpoint address. -/
theorem number_toNat (a : BitVec 8) : ((a &&& 0x0F#8).setWidth 32).toNat = a.toNat % 16 := by
  rw [BitVec.toNat_setWidth_of_le (by decide), BitVec.toNat_and]
  exact Nat.and_two_pow_sub_one_eq_mod _ 4

/-- The fields of the characteristics word. The packet size may overflow its own. -/
theorem chrst_fields (size number device : BitVec 32) (speed : Speed) (hsize : size.toNat < 2 ^ 13)
    (hnumber : number.toNat < 2 ^ 4) (hdevice : device.toNat < 2 ^ 8) {w : BitVec 32}
    (hw : w = QH_NAK_RL ||| (size <<< 16) ||| (number <<< 8) ||| QH_EPS speed ||| device) :
    (getField w 16 11).toNat = size.toNat % 2048 ∧ (getField w 8 4).toNat = number.toNat ∧
      epsSpeed (getField w 12 2).toNat = some speed ∧
      (getField w 0 7).toNat = device.toNat % 128 := by
  obtain ⟨eps, heps, hcode⟩ : ∃ eps : BitVec 32, QH_EPS speed = putField eps 12 2 ∧
      epsSpeed (eps &&& fieldMask 2).toNat = some speed := by
    cases speed with
    | LOW => exact ⟨1#32, rfl, rfl⟩
    | FULL => exact ⟨0#32, rfl, rfl⟩
    | HIGH => exact ⟨2#32, rfl, rfl⟩
  have hnak : QH_NAK_RL = putField 4#32 28 4 := rfl
  have hword : w = putField 4#32 28 4 ||| putField size 16 13 ||| putField number 8 4 |||
      putField eps 12 2 ||| putField device 0 8 := by
    rw [hw, hnak, heps, shiftLeft_eq_putField hsize, shiftLeft_eq_putField hnumber,
      putField_zero hdevice]
  have hfields : getField w 16 11 = size &&& fieldMask 11 ∧ getField w 8 4 = number &&& fieldMask 4 ∧
      getField w 12 2 = eps &&& fieldMask 2 ∧ getField w 0 7 = device &&& fieldMask 7 := by
    rw [hword]
    refine ⟨?_, ?_, ?_, ?_⟩ <;>
    simp (disch := omega) only [getField_or, getField_putField_disjoint, getField_putField_wider,
      BitVec.zero_or, BitVec.or_zero]
  obtain ⟨hs, hn, he, hd⟩ := hfields
  rw [hs, hn, he, hd, and_fieldMask hnumber]
  exact ⟨and_fieldMask_toNat size (by decide), rfl, hcode, and_fieldMask_toNat device (by decide)⟩

/-- The direction of a token. -/
theorem dataToken_dir (ep : EpInfo) :
    decide ((getField (dataToken ep) 8 2).toNat = 1) =
      decide (ep.bEndpointAddress &&& 0x80#8 = 0x80#8) := by
  have hbit : ep.bEndpointAddress &&& 0x80#8 = 0x00#8 ∨ ep.bEndpointAddress &&& 0x80#8 = 0x80#8 := by
    have h := BitVec.and_twoPow ep.bEndpointAddress 7
    have h80 : (0x80#8) = BitVec.twoPow 8 7 := rfl
    rw [h80, h]
    cases ep.bEndpointAddress.getLsbD 7 <;> simp
  rcases hbit with h | h <;> simp only [dataToken, h] <;> rfl

/-- The buffer page leaves the low bits free. -/
theorem getField_itdPage (buffBase : BitVec 32) (i : Nat) {pos len : Nat} (h : pos + len ≤ 12) :
    getField (itdPage buffBase i) pos len = 0#32 := by
  have hpage : itdPage buffBase i = putField ((buffBase >>> 12) + BitVec.ofNat 32 i) 12 20 := by
    apply BitVec.eq_of_toNat_eq
    have hbase : (buffBase &&& 0xFFFFF000#32) = putField (buffBase >>> 12) 12 20 :=
      and_fieldMask_shiftLeft (show 12 + 20 ≤ 32 by decide) buffBase
    have hlt := buffBase.isLt
    rw [itdPage, hbase, BitVec.toNat_add, putField_toNat (by decide), putField_toNat (by decide),
      BitVec.toNat_add, BitVec.toNat_mul, BitVec.toNat_ushiftRight, Nat.shiftRight_eq_div_pow]
    simp only [BitVec.toNat_ofNat]
    omega
  rw [hpage, getField_putField_disjoint (by omega)]

/-! ## The words of an endpoint decoded -/

section

variable {udev udev' : Udev} {info : EpInfo} {qh : Qh}

/-- The hub pointer is NULL exactly where no hub of high speed is above the device. -/
theorem qhCap_null_iff :
    qhCap udev = .error .nullPointer ↔
      udev.speed ≠ .HIGH ∧ ∀ hub ∈ udev.parents, hub.speed ≠ .HIGH := by
  have hwalk : ∀ (parents : List UdevInfo) (portNum : BitVec 8),
      backtrace portNum parents = none ↔ ∀ hub ∈ parents, hub.speed ≠ .HIGH := by
    intro parents
    induction parents with
    | nil => intro portNum; simp [backtrace]
    | cons hub parents ih =>
      intro portNum
      rw [backtrace, List.forall_mem_cons]
      split
      case isTrue h => rw [ih, and_iff_right h]
      case isFalse h => simp [h]
  rw [qhCap]
  split
  case isTrue h => simp [h]
  case isFalse h =>
    rw [and_iff_right h, ← hwalk udev.parents udev.portNum]
    cases backtrace udev.portNum udev.parents <;> simp

/-- The library's records of a device and the hubs above it are those of the instance. -/
def Mirrors : Uinst → UdevInfo → List UdevInfo → Prop
  | .onRootHub dev i v, udev, parents =>
    udev.devNum.toNat = dev + 1 ∧ udev.portNum.toNat = i + 1 ∧ udev.speed = v ∧ parents = []
  | .onHub hub dev i v, udev, parents =>
    udev.devNum.toNat = dev + 1 ∧ udev.portNum.toNat = i + 1 ∧ udev.speed = v ∧
      ∃ parent grandparents, parents = parent :: grandparents ∧ Mirrors hub parent grandparents

/-- With the records of the hubs the walk finds the transaction translator, in any topology. -/
theorem backtrace_mirrors {inst : Uinst} {udev : UdevInfo} {parents : List UdevInfo}
    (h : Mirrors inst udev parents) :
    (backtrace udev.portNum parents).map (fun found => (found.2.devNum.toNat, found.1.toNat)) =
      inst.translator := by
  induction inst generalizing udev parents with
  | onRootHub dev i v =>
    obtain ⟨-, -, -, rfl⟩ := h
    rfl
  | onHub hub dev i v ih =>
    obtain ⟨-, hport, -, parent, grandparents, rfl, hhub⟩ := h
    have hspeed : parent.speed = hub.lineSpeed := by
      cases hub with
      | onRootHub => exact hhub.2.2.1
      | onHub => exact hhub.2.2.1
    have hindex : parent.devNum.toNat = hub.index := by
      cases hub with
      | onRootHub => exact hhub.1
      | onHub => exact hhub.1
    rw [backtrace, Uinst.translator, hspeed]
    cases hline : hub.lineSpeed with
    | HIGH => simp [hindex, hport]
    | FULL | LOW => simpa using ih hhub

theorem qhCap_high (h : udev.speed = .HIGH) : qhCap udev = .ok 0x40000000#32 := by
  rw [qhCap, if_pos h]

/-- A device whose record has no parent has queue heads only at high speed. -/
theorem writeQh_none_ok_iff (hparent : udev.parents = []) :
    (∃ written, writeQh udev none = .ok written) ↔ udev.speed = .HIGH := by
  have hspeed : (defaultMaxPacketSize0 udev).speed = udev.speed := by
    rw [defaultMaxPacketSize0]
    split <;> rfl
  have hparents : (defaultMaxPacketSize0 udev).parents = udev.parents := by
    rw [defaultMaxPacketSize0]
    split <;> rfl
  constructor
  · rintro ⟨written, h⟩
    rw [writeQh] at h
    obtain ⟨cap, hcap, -⟩ := bind_eq_ok.1 h
    by_contra hne
    have hnull : qhCap (defaultMaxPacketSize0 udev) = .error .nullPointer :=
      qhCap_null_iff.2 ⟨hspeed ▸ hne, by simp [hparents, hparent]⟩
    rw [hnull] at hcap
    cases hcap
  · intro h
    simp only [writeQh]
    rw [qhCap_high (hspeed.trans h)]
    exact ⟨_, rfl⟩

/-- A queue head at high speed: the endpoint record's packet size cut to its field, and one
transaction. -/
theorem decodeQh_writeQh (hspeed : udev.speed = .HIGH) (hsize : info.wMaxPacketSize.toNat < 2 ^ 13)
    (h : writeQh udev (some info) = .ok (udev', qh)) :
    decodeQh qh (dataToken info) =
      { number := info.bEndpointAddress.toNat % 16
        dirIn := info.bEndpointAddress &&& 0x80#8 = 0x80#8
        packetSize := info.wMaxPacketSize.toNat % 2048
        transactions := 1
        device := udev.devNum.toNat % 128
        speed := some .HIGH
        translator := none } := by
  rw [writeQh, qhCap_high hspeed] at h
  cases h
  have hsize' : (info.wMaxPacketSize.setWidth 32).toNat = info.wMaxPacketSize.toNat :=
    BitVec.toNat_setWidth_of_le (by decide)
  have hdev : (udev.devNum.setWidth 32).toNat = udev.devNum.toNat :=
    BitVec.toNat_setWidth_of_le (by decide)
  have hnum := number_toNat info.bEndpointAddress
  obtain ⟨hs, hn, he, hd⟩ := chrst_fields (info.wMaxPacketSize.setWidth 32)
    ((info.bEndpointAddress &&& 0x0F#8).setWidth 32) (udev.devNum.setWidth 32) udev.speed (by omega) (by omega)
    (by rw [hdev]; exact udev.devNum.isLt) rfl
  have hmult : (getField 0x40000000#32 30 2).toNat = 1 := rfl
  simp only [decodeQh, hs, hn, he, hd, hmult, dataToken_dir, hsize', hdev, hnum]
  simp only [hspeed, if_true]

/-- Word 0 of an iTD: the endpoint number and the device. -/
theorem bptr₀_fields (udev : Udev) (info : EpInfo) (buffBase : BitVec 32) :
    (getField ((writeItdInfo udev info buffBase).bptr 0) 8 4).toNat =
        info.bEndpointAddress.toNat % 16 ∧
      (getField ((writeItdInfo udev info buffBase).bptr 0) 0 7).toNat = udev.devNum.toNat % 128 := by
  have hnum := number_toNat info.bEndpointAddress
  have hdev : (udev.devNum.setWidth 32).toNat = udev.devNum.toNat :=
    BitVec.toNat_setWidth_of_le (by decide)
  have hlt := udev.devNum.isLt
  have hword : (writeItdInfo udev info buffBase).bptr 0 = itdPage buffBase 0 |||
      (putField (udev.devNum.setWidth 32) 0 8 |||
        putField ((info.bEndpointAddress &&& 0x0F#8).setWidth 32) 8 4) := by
    rw [putField_zero (by omega), ← shiftLeft_eq_putField (by omega)]
    rfl
  constructor
  · rw [hword, getField_or, getField_or, getField_itdPage _ _ (by decide), BitVec.zero_or,
      getField_putField_disjoint (by decide), BitVec.zero_or, getField_putField (by decide),
      and_fieldMask (by omega), hnum]
  · rw [hword, getField_or, getField_or, getField_itdPage _ _ (by decide), BitVec.zero_or,
      getField_putField_disjoint (v := (info.bEndpointAddress &&& 0x0F#8).setWidth 32) (by decide),
      BitVec.or_zero, getField_putField_wider (by decide) (by decide),
      and_fieldMask_toNat _ (by decide), hdev]
    rfl

/-- Word 1 of an iTD: the packet size and the direction, which the packet size may set. -/
theorem bptr₁_fields (udev : Udev) (hsize : info.wMaxPacketSize.toNat < 2 ^ 13) (buffBase : BitVec 32) :
    (getField ((writeItdInfo udev info buffBase).bptr 1) 0 11).toNat =
        info.wMaxPacketSize.toNat % 2048 ∧
      ((getField ((writeItdInfo udev info buffBase).bptr 1) 11 1).toNat = 1 ↔
        info.wMaxPacketSize.toNat / 2048 % 2 = 1 ∨
          info.bEndpointAddress &&& 0x80#8 = 0x80#8) := by
  have hsize' : (info.wMaxPacketSize.setWidth 32).toNat = info.wMaxPacketSize.toNat :=
    BitVec.toNat_setWidth_of_le (by decide)
  obtain ⟨dir, hdir, hdirlt, hdirbit⟩ : ∃ dir : BitVec 32,
      (if info.bEndpointAddress &&& 0x80#8 = 0x80#8 then 1#32 else 0#32) = dir ∧
        dir.toNat < 2 ^ 1 ∧ (dir.toNat = 1 ↔ info.bEndpointAddress &&& 0x80#8 = 0x80#8) := by
    refine ⟨_, rfl, ?_⟩
    split
    case isTrue h => simp [h]
    case isFalse h => simp [h]
  have hword : (writeItdInfo udev info buffBase).bptr 1 = itdPage buffBase 1 |||
      putField (info.wMaxPacketSize.setWidth 32) 0 13 ||| putField dir 11 1 := by
    rw [putField_zero (by omega), ← shiftLeft_eq_putField hdirlt, ← hdir]
    rfl
  constructor
  · rw [hword, getField_or, getField_or, getField_itdPage _ _ (by decide), BitVec.zero_or,
      getField_putField_wider (by decide) (by decide), getField_putField_disjoint (by decide),
      BitVec.or_zero, and_fieldMask_toNat _ (by decide), hsize']
    rfl
  · have hbit : (getField (info.wMaxPacketSize.setWidth 32) 11 1).toNat =
        info.wMaxPacketSize.toNat / 2048 % 2 := by
      rw [getField_toNat (by decide), hsize']
      rfl
    rw [hword, getField_or, getField_or, getField_itdPage _ _ (by decide), BitVec.zero_or,
      putField_zero (by omega), getField_putField (by decide), and_fieldMask hdirlt,
      BitVec.toNat_or, hbit, ← hdirbit]
    have hlow : info.wMaxPacketSize.toNat / 2048 % 2 = 0 ∨
        info.wMaxPacketSize.toNat / 2048 % 2 = 1 := by omega
    have hdir' : dir.toNat = 0 ∨ dir.toNat = 1 := by omega
    rcases hlow with hl | hl <;> rcases hdir' with hd | hd <;> simp [hl, hd]

/-- Word 2 of an iTD: the transactions. -/
theorem bptr₂_field (hsize : info.wMaxPacketSize.toNat < 2 ^ 13) (buffBase : BitVec 32) :
    (getField ((writeItdInfo udev info buffBase).bptr 2) 0 2).toNat =
      (info.wMaxPacketSize.toNat + 1023) / 1024 % 4 := by
  have hmult : ((info.wMaxPacketSize.setWidth 32 + 1023#32) / 1024#32).toNat =
      (info.wMaxPacketSize.toNat + 1023) / 1024 := by
    have hsum : (info.wMaxPacketSize.setWidth 32 + 1023#32).toNat =
        info.wMaxPacketSize.toNat + 1023 := by
      rw [BitVec.toNat_add, BitVec.toNat_setWidth_of_le (by decide)]
      exact Nat.mod_eq_of_lt (show info.wMaxPacketSize.toNat + 1023 < 2 ^ 32 by omega)
    rw [BitVec.toNat_udiv, hsum]
    rfl
  have hword : (writeItdInfo udev info buffBase).bptr 2 = itdPage buffBase 2 |||
      (info.wMaxPacketSize.setWidth 32 + 1023#32) / 1024#32 := rfl
  rw [hword, getField_or, getField_itdPage _ _ (by decide), BitVec.zero_or,
    getField_toNat (by decide), hmult, Nat.pow_zero, Nat.div_one]
  rfl

/-- An iTD: a packet size from 2048 bytes on sets the direction bit. -/
theorem decodeItd_writeItdInfo (hsize : info.wMaxPacketSize.toNat < 2 ^ 13) (buffBase : BitVec 32) :
    decodeItd (writeItdInfo udev info buffBase) =
      { number := info.bEndpointAddress.toNat % 16
        dirIn := info.wMaxPacketSize.toNat / 2048 % 2 = 1 ∨
          info.bEndpointAddress &&& 0x80#8 = 0x80#8
        packetSize := info.wMaxPacketSize.toNat % 2048
        transactions := (info.wMaxPacketSize.toNat + 1023) / 1024 % 4
        device := udev.devNum.toNat % 128
        speed := some .HIGH
        translator := none } := by
  obtain ⟨hnum, hdev⟩ := bptr₀_fields udev info buffBase
  obtain ⟨hpacket, hdir⟩ := bptr₁_fields udev hsize buffBase
  simp only [decodeItd, hnum, hdev, hpacket, hdir, bptr₂_field hsize]

end

/-! ## Endpoints written right -/

/-- The words of the endpoint carry it: a queue head one transaction a micro-frame of at most 1024
bytes, an iTD one of at most 1024 bytes, or three of 1024 bytes from the device. -/
def Encodable (ep : UendpointDescriptor) : Prop :=
  (¬ ep.IsIso → ep.additional = 0 ∧ ep.packetSize ≤ 1024) ∧
    (ep.IsIso → ep.additional = 0 ∧ 1 ≤ ep.packetSize ∧ ep.packetSize ≤ 1024 ∨
      ep.additional = 2 ∧ ep.packetSize = 1024 ∧ ep.dirIn = true)

/-- The fields of an iTD for the product of a packet size and its transactions. -/
theorem itd_fields_iff {size additional : Nat} {dir : Bool} (hsize : size < 2048)
    (hadd : additional < 4) :
    (size * (additional + 1) % 2048 = size ∧
      (size * (additional + 1) + 1023) / 1024 % 4 = additional + 1 ∧
      decide (size * (additional + 1) / 2048 % 2 = 1 ∨ dir = true) = dir) ↔
      additional = 0 ∧ 1 ≤ size ∧ size ≤ 1024 ∨ additional = 2 ∧ size = 1024 ∧ dir = true := by
  have hcases : additional = 0 ∨ additional = 1 ∨ additional = 2 ∨ additional = 3 := by omega
  cases dir with
  | false =>
    simp only [Bool.false_eq_true, or_false, and_false, decide_eq_false_iff_not]
    rcases hcases with rfl | rfl | rfl | rfl <;> omega
  | true =>
    simp only [or_true, decide_true, and_true]
    rcases hcases with rfl | rfl | rfl | rfl <;> omega

theorem Endpoint.describes_of_eq {e : Endpoint} {inst : Uinst} {ep : UendpointDescriptor}
    (h : e = endpointOf inst ep) (hmax : ep.packetSize ≤ 1024) : e.Describes inst ep := by
  subst h
  exact ⟨rfl, hmax⟩

theorem wordsRight_iff {inst : Uinst} {ep : UendpointDescriptor} {udev : Udev}
    (hparent : udev.parents = []) (buffBase : BitVec 32) :
    WordsRight inst ep udev (newEpInfo ep) buffBase ↔
      udev.speed = .HIGH ∧ udev.devNum.toNat % 128 = inst.index ∧ inst.lineSpeed = .HIGH ∧
        Encodable ep := by
  have hinfo := newEpInfo_wMaxPacketSize ep
  have hsz : ep.packetSize < 2048 := Nat.mod_lt _ (by decide)
  have hadd : ep.additional < 4 := Nat.mod_lt _ (by decide)
  have hprod : ep.packetSize * (ep.additional + 1) < 2048 * 4 :=
    Nat.mul_lt_mul_of_lt_of_le hsz hadd (by omega)
  have hsize : (newEpInfo ep).wMaxPacketSize.toNat < 2 ^ 13 := by omega
  have haddr : (newEpInfo ep).bEndpointAddress &&& 0x80#8 = 0x80#8 ↔ ep.dirIn = true :=
    decide_eq_true_iff.symm
  rw [WordsRight, writeQh_none_ok_iff hparent]
  constructor
  · rintro ⟨hspeed, udev', qh, hqh, hbulk, hiso⟩
    refine ⟨hspeed, ?_⟩
    by_cases hkind : ep.IsIso
    · have h := (hiso hkind).1
      rw [decodeItd_writeItdInfo hsize, hinfo, endpointOf, Endpoint.mk.injEq] at h
      obtain ⟨-, hdir, hpacket, htrans, hdev, hline, -⟩ := h
      simp only [haddr] at hdir
      refine ⟨hdev, (Option.some.inj hline).symm, fun hne => absurd hkind hne, fun _ => ?_⟩
      exact (itd_fields_iff hsz hadd).1 ⟨hpacket, htrans, hdir⟩
    · obtain ⟨h, hmax⟩ := hbulk hkind
      have hpacket : ep.packetSize ≤ 1024 := by
        rw [h] at hmax
        exact hmax
      rw [decodeQh_writeQh hspeed hsize hqh, hinfo, endpointOf, Endpoint.mk.injEq] at h
      obtain ⟨-, -, -, htrans, hdev, hline, -⟩ := h
      exact ⟨hdev, (Option.some.inj hline).symm, fun _ => ⟨by omega, hpacket⟩, fun he => absurd he hkind⟩
  · rintro ⟨hspeed, hdev, hline, hbulk, hiso⟩
    obtain ⟨qh, hqh⟩ : ∃ qh, writeQh udev (some (newEpInfo ep)) = .ok (udev, qh) := by
      rw [writeQh, qhCap_high hspeed]
      exact ⟨_, rfl⟩
    refine ⟨hspeed, udev, qh, hqh, fun hkind => ?_, fun hkind => ?_⟩
    · obtain ⟨hone, hmax⟩ := hbulk hkind
      refine Endpoint.describes_of_eq ?_ hmax
      rw [decodeQh_writeQh hspeed hsize hqh, hinfo, endpointOf, Endpoint.mk.injEq, hone, hline,
        Nat.zero_add, Nat.mul_one, Nat.mod_eq_of_lt hsz]
      exact ⟨rfl, rfl, rfl, rfl, hdev, rfl, rfl⟩
    · have hmax : ep.packetSize ≤ 1024 := by
        rcases hiso hkind with ⟨-, -, h⟩ | ⟨-, h, -⟩ <;> omega
      obtain ⟨hpacket, htrans, hdir⟩ := (itd_fields_iff hsz hadd).2 (hiso hkind)
      refine Endpoint.describes_of_eq ?_ hmax
      rw [decodeItd_writeItdInfo hsize, hinfo, endpointOf, Endpoint.mk.injEq, hline]
      refine ⟨rfl, ?_, hpacket, htrans, hdev, rfl, rfl⟩
      simp only [haddr]
      exact hdir

/-- The words written for the endpoint of a pipe are right, if a controller that reads such words drives
the device. -/
def EndpointRight (s : Driver) (inst : Uinst) (ep : UendpointDescriptor) (pipeIndex : Nat)
    (buffBase : BitVec 32) : Prop :=
  ∃ r udev info, getPortDevFromPipe s inst = some r ∧ (s r).pUDev = some udev ∧
    (s r).apsEPInfo pipeIndex = some info ∧
      (udev.OnEhci → WordsRight inst ep udev.toUdev info buffBase)

/-- The device that a pipe's record is or will be of: with a record to take yet, one with the controller
of the root port's device. Reference: `drv_usbhost.c:270 nu_open_pipe`. -/
def PipeDevice (s : Driver) (inst : Uinst) (udev : PortUdev) : Prop :=
  (∃ r, getPortDevFromPipe s inst = some r ∧ (s r).pUDev = some udev) ∨
    (∀ r, getPortDevFromPipe s inst = some r → (s r).pUDev = none) ∧
      ∃ ctrl rh, getRHPortControlFromPipe inst = some ctrl ∧ (s ⟨ctrl, .sRHPortDev⟩).pUDev = some rh ∧
        udev = newUDev inst rh.hcDriver

/-- An OHCI controller drives the device, or its record is that of a high-speed device and holds the
address, and the device is one and the words carry the endpoint. -/
def RecordRight (inst : Uinst) (ep : UendpointDescriptor) (udev : PortUdev) : Prop :=
  udev.OnEhci → udev.speed = .HIGH ∧ udev.devNum.toNat % 128 = inst.index ∧
    inst.lineSpeed = .HIGH ∧ Encodable ep

/-- There is one device that a pipe's record is or will be of. -/
theorem PipeDevice.eq {s : Driver} {inst : Uinst} {udev udev' : PortUdev} (h : PipeDevice s inst udev)
    (h' : PipeDevice s inst udev') : udev = udev' := by
  obtain ⟨r, hr, hudev⟩ | ⟨hnone, ctrl, rh, hctrl, hrh, rfl⟩ := h
  · obtain ⟨r', hr', hudev'⟩ | ⟨hnone, -⟩ := h'
    · cases hr.symm.trans hr'
      exact Option.some.inj (hudev.symm.trans hudev')
    · cases hudev.symm.trans (hnone r hr)
  · obtain ⟨r', hr', hudev'⟩ | ⟨-, ctrl', rh', hctrl', hrh', rfl⟩ := h'
    · cases hudev'.symm.trans (hnone r' hr')
    · cases hctrl.symm.trans hctrl'
      cases hrh.symm.trans hrh'
      rfl

/-- The words of an endpoint that a pipe has been opened for decode to it exactly when an OHCI controller
drives the device, or the device is of high speed, its record says so and holds its address, and the
words carry the endpoint. -/
theorem endpointRight_iff {s s' : Driver} {a : Allocs} {inst : Uinst} {ep : UendpointDescriptor}
    {i : Nat} (h : nuOpenPipe s a inst ep = .ok (.EOK, i, s')) (hep : ¬ ep.IsEp0)
    (buffBase : BitVec 32) :
    EndpointRight s' inst ep i buffBase ↔ ∃ udev, PipeDevice s inst udev ∧ RecordRight inst ep udev := by
  obtain ⟨herr, -, -⟩ | ⟨ctrl, rh, r, s₁, hctrl, hrh, hopen, hend⟩ := nuOpenPipe_cases h
  · cases herr
  obtain ⟨herr, -, -⟩ | ⟨d, -, -, rfl, hsame, hinfo⟩ := hend
  · cases herr
  have hget : getPortDevFromPipe (Function.update s₁ r d) inst = some r :=
    (getPortDevFromPipe_update hsame.portNum).trans (openPortDev_get hctrl hrh hopen)
  have hinfo' : d.apsEPInfo i = some (newEpInfo ep) := hinfo hep
  obtain ⟨udev, hudev, hdevice⟩ : ∃ udev, (s₁ r).pUDev = some udev ∧ PipeDevice s inst udev := by
    obtain ⟨hfound, hsome, rfl⟩ | ⟨hdead, -, rfl⟩ := openPortDev_cases hopen
    · obtain ⟨udev, hudev⟩ := Option.isSome_iff_exists.1 hsome
      exact ⟨udev, hudev, .inl ⟨r, hfound, hudev⟩⟩
    · -- a record taken now
      exact ⟨_, by rw [Function.update_self], .inr ⟨hdead, ctrl, rh, hctrl, hrh, rfl⟩⟩
  have hright : EndpointRight (Function.update s₁ r d) inst ep i buffBase ↔
      (udev.OnEhci → WordsRight inst ep udev.toUdev (newEpInfo ep) buffBase) := by
    rw [← hsame.pUDev] at hudev
    constructor
    · rintro ⟨r', udev', info', hr', hudev', hinfo'', hwords⟩
      obtain rfl : r = r' := Option.some.inj (hget.symm.trans hr')
      rw [Function.update_self] at hudev' hinfo''
      cases hudev.symm.trans hudev'
      cases hinfo'.symm.trans hinfo''
      exact hwords
    · intro hwords
      exact ⟨r, udev, newEpInfo ep, hget, by rw [Function.update_self, hudev],
        by rw [Function.update_self, hinfo'], hwords⟩
  rw [hright, wordsRight_iff udev.parent_null]
  constructor
  · exact fun hrecord => ⟨udev, hdevice, hrecord⟩
  · rintro ⟨udev', hdevice', hrecord⟩
    cases hdevice.eq hdevice'
    exact hrecord

/-- A high-speed hub on the root port, whose device has address 1. -/
def hubConnected : Driver :=
  nuHcdConnectCallback Driver.init
    ⟨{ allocDevice with speed := .HIGH, hcDriver := some .EHCI0, devNum := 1 }, rfl⟩

/-- The endpoint of that hub. -/
theorem endpointRight_iff_hub :
    ∃ s, nuOpenPipe hubConnected ⟨true, true, some default⟩ (.onRootHub 0 0 .HIGH) ⟨0x81, 0x03, 1, 12⟩ =
        .ok (.EOK, 0, s) ∧
      (EndpointRight s (.onRootHub 0 0 .HIGH) ⟨0x81, 0x03, 1, 12⟩ 0 0 ↔
        ∃ udev, PipeDevice hubConnected (.onRootHub 0 0 .HIGH) udev ∧
          RecordRight (.onRootHub 0 0 .HIGH) ⟨0x81, 0x03, 1, 12⟩ udev) :=
  ⟨_, rfl, endpointRight_iff (a := ⟨true, true, some default⟩) rfl (by decide) 0⟩

/-- A mouse on the hub's first port. -/
def mouse : Uinst := .onHub (.onRootHub 0 0 .HIGH) 1 0 .LOW

/-- The mouse opened and addressed: its interrupt endpoint is not written at all, the hub pointer is
NULL. -/
theorem not_endpointRight_mouse :
    ∃ s₁ s₂ udev, nuOpenPipe hubConnected ⟨true, true, some default⟩ mouse ⟨0, 0, 8, 0⟩ = .ok (.EOK, 0, s₁) ∧
      nuOpenPipe
          (Function.update s₁ ⟨0, .asHubPortDev 0⟩
            (requestDone (s₁ ⟨0, .asHubPortDev 0⟩) ⟨0, USB_REQ_SET_ADDRESS, 2, 0, 0⟩))
          ⟨true, true, some default⟩ mouse ⟨0x81, 0x03, 8, 10⟩ = .ok (.EOK, 0, s₂) ∧
        (s₂ ⟨0, .asHubPortDev 0⟩).pUDev = some udev ∧ udev.devNum.toNat = mouse.index ∧
        writeQh udev.toUdev (some (newEpInfo ⟨0x81, 0x03, 8, 10⟩)) = .error .nullPointer ∧
        ¬ EndpointRight s₂ mouse ⟨0x81, 0x03, 8, 10⟩ 0 0 := by
  refine ⟨_, _, _, rfl, rfl, rfl, rfl, rfl, ?_⟩
  rintro ⟨r, udev, info, hr, hudev, -, hwords⟩
  cases hr
  cases hudev
  exact absurd ((writeQh_none_ok_iff rfl).1 (hwords ⟨.EHCI0, rfl, .inl rfl⟩).1) (by decide)

end NumakerMA35D1.UsbHost

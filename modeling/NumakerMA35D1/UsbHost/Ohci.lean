import NumakerMA35D1.UsbHost.MemAlloc
import NumakerMA35D1.UsbHost.Usb
import NumakerMA35D1.Lib.Chain

/-!
# The OHCI driver

Endpoint descriptors (EDs) and transfer descriptors (TDs) are units of the pool, linked by pointers:
a pointer is the unit it names, or none for NULL, with the flags of its low bits beside it. A
submission links TDs to the endpoint's ED and the ED to the control list, the bulk list or the
interrupt tree; the controller retires TDs to the done queue; the interrupt handler completes their
transfer requests (UTRs), and takes the EDs of cancelled endpoints out of the lists at the next start
of frame. A UTR is submitted once: one that is submitted again counts as another. Callbacks are
counted; what they call is not modelled.

Reference: `_ohci.c_`, `ohci.h`, `usb.h`.
-/

namespace NumakerMA35D1.UsbHost

open Embedded

/-! ## Constants -/

/-- Reference: `usbh_lib.h:36 USBH_ERR_MEMORY_OUT`. -/
abbrev USBH_ERR_MEMORY_OUT : Int := -10
/-- Reference: `usbh_lib.h:42 USBH_ERR_INVALID_PARAM`. -/
abbrev USBH_ERR_INVALID_PARAM : Int := -105
/-- Reference: `usbh_lib.h:43 USBH_ERR_NOT_FOUND`. -/
abbrev USBH_ERR_NOT_FOUND : Int := -106
/-- Reference: `usbh_lib.h:49 USBH_ERR_TRANSFER`. -/
abbrev USBH_ERR_TRANSFER : Int := -201
/-- Reference: `usbh_lib.h:51 USBH_ERR_ABORT`. -/
abbrev USBH_ERR_ABORT : Int := -205
/-- Reference: `usbh_lib.h:53 USBH_ERR_SCH_OVERRUN`. -/
abbrev USBH_ERR_SCH_OVERRUN : Int := -257
/-- Reference: `usbh_lib.h:60 USBH_ERR_CC_NO_ERR`. -/
abbrev USBH_ERR_CC_NO_ERR : Int := -280
/-- Reference: `usbh_lib.h:64 USBH_ERR_STALL`. -/
abbrev USBH_ERR_STALL : Int := -284
/-- Reference: `usbh_lib.h:73 USBH_ERR_NOT_ACCESS1`. -/
abbrev USBH_ERR_NOT_ACCESS1 : Int := -295
/-- Reference: `usbh_lib.h:76 USBH_ERR_OHCI_EP_BUSY`. -/
abbrev USBH_ERR_OHCI_EP_BUSY : Int := -303

/-- Reference: `ohci.h:77 ED_SKIP`. -/
def ED_SKIP : BitVec 32 := 1#32 <<< 14
/-- Reference: `ohci.h:67 ED_EP_ADDR_Msk`. -/
def ED_EP_ADDR_Msk : BitVec 32 := 0xf#32 <<< 7
/-- Reference: `ohci.h:79 ED_FORMAT_ISO`. -/
def ED_FORMAT_ISO : BitVec 32 := 1#32 <<< 15

/-- Reference: `ohci.h:120 TD_CC`. -/
def TD_CC : BitVec 32 := 0xF0000000#32
/-- Reference: `ohci.h:123 TD_T_DATA0`. -/
def TD_T_DATA0 : BitVec 32 := 0x02000000#32
/-- Reference: `ohci.h:124 TD_T_DATA1`. -/
def TD_T_DATA1 : BitVec 32 := 0x03000000#32
/-- Reference: `ohci.h:125 TD_R`. -/
def TD_R : BitVec 32 := 0x00040000#32
/-- Reference: `ohci.h:127 TD_DP_IN`. -/
def TD_DP_IN : BitVec 32 := 0x00100000#32
/-- Reference: `ohci.h:128 TD_DP_OUT`. -/
def TD_DP_OUT : BitVec 32 := 0x00080000#32
/-- Reference: `ohci.h:131 TD_TYPE_Msk`. -/
def TD_TYPE_Msk : BitVec 32 := 0x3#32 <<< 16
/-- Reference: `ohci.h:132 TD_TYPE_CTRL`. -/
def TD_TYPE_CTRL : BitVec 32 := 0x0#32 <<< 16
/-- Reference: `ohci.h:133 TD_TYPE_BULK`. -/
def TD_TYPE_BULK : BitVec 32 := 0x1#32 <<< 16
/-- Reference: `ohci.h:134 TD_TYPE_INT`. -/
def TD_TYPE_INT : BitVec 32 := 0x2#32 <<< 16
/-- Reference: `ohci.h:135 TD_TYPE_ISO`. -/
def TD_TYPE_ISO : BitVec 32 := 0x3#32 <<< 16
/-- Reference: `ohci.h:137 TD_CTRL_DATA`. -/
def TD_CTRL_DATA : BitVec 32 := 1#32 <<< 15

/-- Reference: `config.h:64 OHCI_ISO_DELAY`. -/
def OHCI_ISO_DELAY : BitVec 16 := 4
/-- Reference: `usb.h:278 IF_PER_UTR`. -/
abbrev IF_PER_UTR : Nat := 8

/-- There are packets. -/
scoped instance neZeroPackets : NeZero IF_PER_UTR := ⟨by decide⟩

/-- There are nodes in the interrupt tree. -/
scoped instance neZeroNodes : NeZero (6 : Nat) := ⟨by decide⟩

/-! ## Records -/

/-- An endpoint: endpoint zero of a device, or another one. -/
inductive EpRef
  | ep0 (dev : Nat)
  | ep (i : Nat)
deriving DecidableEq

/-- The endpoints other than zero, with their device. -/
abbrev Endpoints := Nat → UdevInfo × EpInfo

/-- Reference: `ohci.h:45 ED_T`. -/
structure Ed where
  info : BitVec 32
  tailP : Option Unit64
  headP : Option Unit64
  /-- `HeadP[0]`. -/
  halted : Bool
  /-- `HeadP[1]`. -/
  toggleCarry : Bool
  nextED : Option Unit64
  bInterval : BitVec 8
  nextSf : BitVec 16

/-- Reference: `ohci.h:88 TD_T`. -/
structure Td where
  info : BitVec 32
  cbp : BitVec 32
  nextTD : Option Unit64
  be : BitVec 32
  psw0 : BitVec 32
  buffStart : BitVec 32
  ed : Option Unit64
  utr : Option Nat

/-- A transfer request; `calls` is how often its callback was called. Reference: `usb.h:282 UTR_T`. -/
structure Utr where
  ep : EpRef
  bmRequestType : BitVec 8
  setupAddr : BitVec 32
  buff : BitVec 32
  dataLen : BitVec 32
  xferLen : BitVec 32
  bIsoNewSched : Bool
  isoSf : BitVec 16
  isoXlen : Fin IF_PER_UTR → BitVec 16
  isoBuff : Fin IF_PER_UTR → BitVec 32
  isoStatus : Fin IF_PER_UTR → Int
  tdCnt : Int
  status : Int
  bIsTransferDone : Bool
  calls : Nat

/-- A zeroed ED. Reference: `mem_alloc.c:245 alloc_ohci_ED`. -/
def Ed.zero : Ed := ⟨0, none, none, false, false, none, 0, 0⟩

/-- A zeroed TD of a UTR. Reference: `mem_alloc.c:285 alloc_ohci_TD`. -/
def Td.zero (utr : Option Nat) : Td := ⟨0, 0, none, 0, 0, 0, none, utr⟩

/-- What keeps the driver from returning: a NULL pointer used, or links without an end. -/
inductive Stuck
  | nullPointer | endless
deriving DecidableEq

/-- What a unit of the pool was taken for: `foreign` by another controller's driver. -/
inductive UnitUse
  | ed | td | foreign
deriving DecidableEq

/-- The driver and its descriptors, and the controller's done queue, the TD retired last first. No
function reads `use`. -/
structure Ohci where
  pool : MemPool
  use : Unit64 → Option UnitUse
  ed : Unit64 → Ed
  td : Unit64 → Td
  /-- Reference: `_ohci.c_:24 _Ied`. -/
  ied : Fin 6 → Unit64
  /-- `HcControlHeadED`. -/
  controlHead : Option Unit64
  /-- `HcBulkHeadED`. -/
  bulkHead : Option Unit64
  hwPipe : EpRef → Option Unit64
  utr : Nat → Option Utr
  /-- Reference: `_ohci.c_:27 ed_remove_list`. -/
  edRemoveList : List Unit64
  /-- The start-of-frame interrupt is enabled. -/
  sfEnable : Bool
  doneQueue : List Unit64
  /-- Reference: `ohci.h:149 frame_no`. -/
  frameNo : BitVec 16

namespace Ohci

variable (s : Ohci)

def setEd (u : Unit64) (f : Ed → Ed) : Ohci := { s with ed := Function.update s.ed u (f (s.ed u)) }

def setTd (t : Unit64) (f : Td → Td) : Ohci := { s with td := Function.update s.td t (f (s.td t)) }

def setPipe (e : EpRef) (u : Option Unit64) : Ohci :=
  { s with hwPipe := Function.update s.hwPipe e u }

def setUtr (v : Nat) (u : Utr) : Ohci := { s with utr := Function.update s.utr v (some u) }

/-- A unit is taken. -/
def take (u : Unit64) (k : UnitUse) : Ohci :=
  { s with pool := s.pool.take u, use := Function.update s.use u (some k) }

/-- The links of the EDs. -/
def nextED (u : Unit64) : Option Unit64 := (s.ed u).nextED

/-- The links of the TDs. -/
def nextTD (t : Unit64) : Option Unit64 := (s.td t).nextTD

/-! ## Allocation -/

/-- Reference: `mem_alloc.c:233 alloc_ohci_ED`. -/
def allocEd : Option Unit64 × Ohci :=
  match s.pool.allocOhci with
  | (none, _) => (none, s)
  | (some u, _) => (some u, { s.take u .ed with ed := Function.update s.ed u Ed.zero })

/-- Reference: `mem_alloc.c:272 alloc_ohci_TD`. -/
def allocTd (utr : Option Nat) : Option Unit64 × Ohci :=
  match s.pool.allocOhci with
  | (none, _) => (none, s)
  | (some t, _) => (some t, { s.take t .td with td := Function.update s.td t (Td.zero utr) })

/-- Reference: `mem_alloc.c:253 free_ohci_ED`, `mem_alloc.c:294 free_ohci_TD`. -/
def free (u : Unit64) : Ohci :=
  { s with pool := s.pool.give u, use := Function.update s.use u none }

/-- NULL is no unit of the pool. Reference: `mem_alloc.c:294 free_ohci_TD`. -/
def freeTd? : Option Unit64 → Ohci
  | none => s
  | some t => s.free t

/-- TDs freed one after another. -/
def freeTds (tds : List Unit64) : Ohci := tds.foldl free s

/-! ## Loops -/

/-- The first ED of a list with the information given. Reference: `_ohci.c_:492 ohci_bulk_xfer`,
`_ohci.c_:618 ohci_int_xfer`. -/
def findEd (head : Option Unit64) (info : BitVec 32) : Except Stuck (Option Unit64) :=
  match walk s.nextED (fun u => (s.ed u).info = info) MEM_POOL_UNIT_NUM head with
  | none => .error .endless
  | some found => .ok found

/-- The last TD from one on. Reference: `_ohci.c_:776 ohci_iso_xfer`. -/
def lastTd (t : Unit64) : Except Stuck Unit64 :=
  match walk s.nextTD (fun t => (s.nextTD t).isNone) MEM_POOL_UNIT_NUM (some t) with
  | some (some t) => .ok t
  | _ => .error .endless

end Ohci

/-! ## Descriptors -/

/-- The packet size of endpoint zero, a default one for a device that is not known yet. Reference:
`_ohci.c_:303 ed_make_info`. -/
def ep0PacketSize (udev : UdevInfo) : BitVec 8 :=
  if udev.bMaxPacketSize0 = 0 then (if udev.speed = .LOW then 8 else 64) else udev.bMaxPacketSize0

/-- Reference: `_ohci.c_:296 ed_make_info`. -/
def edMakeInfo (udev : UdevInfo) (ep : Option EpInfo) : BitVec 32 :=
  let info :=
    match ep with
    | none => (ep0PacketSize udev).setWidth 32 <<< 16
    | some ep =>
      ep.wMaxPacketSize.setWidth 32 <<< 16 ||| (ep.bEndpointAddress &&& 0xf#8).setWidth 32 <<< 7 |||
        (if ep.bEndpointAddress &&& 0x80#8 = 0x80#8 then 2#32 <<< 11 else 1#32 <<< 11) |||
        (if ep.bmAttributes &&& 0x03#8 = 0x01#8 then ED_FORMAT_ISO else 0#32)
  info ||| (if udev.speed = .LOW then 1#32 <<< 13 else 0#32) ||| udev.devNum.setWidth 32

/-- Reference: `_ohci.c_:337 write_td`. -/
def writeTd (td : Td) (info buff len : BitVec 32) : Td :=
  { td with
    info := info
    cbp := if buff = 0 ∨ len = 0 then 0 else buff
    be := if buff = 0 ∨ len = 0 then 0 else buff + len - 1
    buffStart := if buff = 0 ∨ len = 0 then 0 else buff }

/-- The head of the interrupt list of an interval. Reference: `_ohci.c_:157 get_int_tree_head_node`. -/
def getIntTreeHeadNode (interval : Nat) : Fin 6 :=
  if interval / 2 = 0 then 0
  else if interval / 4 = 0 then 1
  else if interval / 8 = 0 then 2
  else if interval / 16 = 0 then 3
  else if interval / 32 = 0 then 4
  else 5

/-- Reference: `_ohci.c_:170 get_ohci_interval`. -/
def getOhciInterval (interval : Nat) : Nat := 2 ^ (getIntTreeHeadNode interval).val

/-- TDs with the contents given are allocated and linked one behind another, until the pool is empty.
Reference: `_ohci.c_:528 ohci_bulk_xfer`, `_ohci.c_:741 ohci_iso_xfer`. -/
def chainTds (v : Nat) (ed : Unit64) :
    List (Td → Td) → List Unit64 → Ohci → List Unit64 × Bool × Ohci
  | [], tds, s => (tds, true, s)
  | write :: rest, tds, s =>
    match s.allocTd (some v) with
    | (none, s) => (tds, false, s)
    | (some t, s) =>
      let s := s.setTd t fun td => { write td with ed := some ed }
      let s :=
        match tds.getLast? with
        | none => s
        | some last => s.setTd last fun td => { td with nextTD := some t }
      chainTds v ed rest (tds ++ [t]) s

/-! ## Control transfers -/

/-- The data are sent by the device. Reference: `_ohci.c_:411 ohci_ctrl_xfer`. -/
def Utr.dirIn (u : Utr) : Bool := u.bmRequestType &&& 0x80#8 ≠ 0#8

/-- The descriptors of a control transfer are written and the ED becomes the control list. Reference:
`_ohci.c_:394 ohci_ctrl_xfer`. -/
def ctrlLink (s : Ohci) (v : Nat) (u : Utr) (dev : Nat) (udev : UdevInfo) (ed tdSetup : Unit64)
    (tdData : Option Unit64) (tdStatus : Unit64) : Ohci :=
  let s := s.setTd tdSetup fun td => { writeTd td (TD_CC ||| TD_T_DATA0 ||| TD_TYPE_CTRL) u.setupAddr 8
    with ed := some ed, nextTD := some (tdData.getD tdStatus) }
  let s :=
    match tdData with
    | none => s
    | some tdData => s.setTd tdData fun td =>
      { writeTd td (TD_CC ||| TD_R ||| (if u.dirIn then TD_DP_IN else TD_DP_OUT) ||| TD_T_DATA1 |||
          TD_TYPE_CTRL ||| TD_CTRL_DATA) u.buff u.dataLen
        with ed := some ed, nextTD := some tdStatus }
  let s := s.setTd tdStatus fun td =>
    { writeTd td (TD_CC ||| (if u.dirIn then TD_DP_OUT else TD_DP_IN) ||| TD_T_DATA1 ||| TD_TYPE_CTRL) 0 0
      with ed := some ed, nextTD := none }
  let s := s.setEd ed fun d =>
    { d with
      info := edMakeInfo udev none
      tailP := none
      headP := some tdSetup
      halted := false
      toggleCarry := false
      nextED := none }
  let s := s.setUtr v { u with ep := .ep0 dev, tdCnt := if 0 < u.dataLen.toNat then 3 else 2 }
  { s.setPipe (.ep0 dev) (some ed) with controlHead := some ed }

/-- Reference: `_ohci.c_:349 ohci_ctrl_xfer`. -/
def ohciCtrlXfer (s : Ohci) (v : Nat) (u : Utr) (dev : Nat) (udev : UdevInfo) :
    Except Stuck (Int × Ohci) :=
  let (tdSetup, s) := s.allocTd (some v)
  let (tdData, s) := if 0 < u.dataLen.toNat then s.allocTd (some v) else (none, s)
  let (tdStatus, s) := s.allocTd (some v)
  match tdStatus with
  | none => .ok (USBH_ERR_MEMORY_OUT, (s.freeTd? tdSetup).freeTd? tdData)
  | some tdStatus =>
    let (ed, s) :=
      match s.hwPipe (.ep0 dev) with
      | none => s.allocEd
      | some ed => (some ed, s)
    match ed with
    | none =>
      .ok (USBH_ERR_MEMORY_OUT, ((s.freeTd? tdSetup).freeTd? (some tdStatus)).freeTd? tdData)
    | some ed =>
      match tdSetup with
      | none => .error .nullPointer
      | some tdSetup =>
        if 0 < u.dataLen.toNat ∧ tdData = none then .error .nullPointer
        else .ok (0, ctrlLink s v u dev udev ed tdSetup tdData tdStatus)

/-! ## Bulk transfers -/

/-- Reference: `_ohci.c_:530 ohci_bulk_xfer`. -/
def bulkTdInfo (ep : EpInfo) : BitVec 32 :=
  (TD_CC ||| TD_R ||| (if ep.bEndpointAddress &&& 0x80#8 = 0x00#8 then TD_DP_OUT else TD_DP_IN) |||
    TD_TYPE_BULK) &&& ~~~(1#32 <<< 25)

/-- The TDs of a buffer, at most 4096 bytes each and at least one. Reference: `_ohci.c_:528
ohci_bulk_xfer`. -/
def bulkContents (info : BitVec 32) : Nat → BitVec 32 → Nat → List (Td → Td)
  | 0, _, _ => []
  | fuel + 1, buff, len =>
    let n := if len > 4096 then 4096 else len
    (fun td => writeTd td info buff (BitVec.ofNat 32 n)) ::
      if len - n > 0 then bulkContents info fuel (buff + BitVec.ofNat 32 n) (len - n) else []

/-- The TDs of a bulk transfer. -/
def Utr.bulkTds (u : Utr) (ep : EpInfo) : List (Td → Td) :=
  bulkContents (bulkTdInfo ep) (u.dataLen.toNat / 4096 + 1) u.buff u.dataLen.toNat

/-- The ED gets its TDs; a new one becomes the head of the bulk list. Reference: `_ohci.c_:567
ohci_bulk_xfer`. -/
def startBulk (s : Ohci) (ed : Unit64) (tds : List Unit64) (isNew : Bool) : Ohci :=
  let s := s.setEd ed fun d => { d with headP := tds.head?, halted := false }
  if isNew then
    { s.setEd ed fun d => { d with toggleCarry := false, nextED := s.bulkHead } with bulkHead := some ed }
  else s

/-- The TDs of a bulk transfer at its ED. Reference: `_ohci.c_:517 ohci_bulk_xfer`. -/
def bulkLink (E : Endpoints) (s : Ohci) (v : Nat) (u : Utr) (i : Nat) (ed : Unit64) (isNew : Bool) :
    Int × Ohci :=
  let s := s.setPipe (.ep i) (some ed)
  match chainTds v ed (u.bulkTds (E i).2) [] s with
  | (tds, false, s) => (USBH_ERR_MEMORY_OUT, (s.freeTds tds).free ed)
  | (tds, true, s) =>
    (0, (startBulk s ed tds isNew).setUtr v { u with ep := .ep i, tdCnt := tds.length, status := 0 })

/-- Reference: `_ohci.c_:472 ohci_bulk_xfer`. -/
def ohciBulkXfer (E : Endpoints) (s : Ohci) (v : Nat) (u : Utr) (i : Nat) :
    Except Stuck (Int × Ohci) := do
  let info := edMakeInfo (E i).1 (some (E i).2)
  let found ← s.findEd s.bulkHead info
  match found with
  | some ed =>
    if (s.ed ed).headP ≠ (s.ed ed).tailP then .ok (USBH_ERR_OHCI_EP_BUSY, s)
    else .ok (bulkLink E s v u i ed false)
  | none =>
    match s.allocEd with
    | (none, s) => .ok (USBH_ERR_MEMORY_OUT, s)
    | (some ed, s) => .ok (bulkLink E (s.setEd ed fun d => { d with info := info }) v u i ed true)

/-! ## Interrupt transfers -/

/-- The TD's data toggle is that of the dummy TD it replaces. Reference: `_ohci.c_:655
ohci_int_xfer`. -/
def intTdInfo (ep : EpInfo) (old : BitVec 32) : BitVec 32 :=
  (TD_CC ||| TD_R ||| (if ep.bEndpointAddress &&& 0x80#8 = 0x00#8 then TD_DP_OUT else TD_DP_IN) |||
    TD_TYPE_INT) &&& ~~~(1#32 <<< 25) ||| old &&& (1#32 <<< 25)

/-- A new ED is put behind the head of its interval. Reference: `_ohci.c_:676 ohci_int_xfer`,
`_ohci.c_:789 ohci_iso_xfer`. -/
def hookPeriodic (E : Endpoints) (s : Ohci) (i : Nat) (ed : Unit64) (isNew : Bool) : Ohci :=
  let ied := s.ied (getIntTreeHeadNode (E i).2.bInterval.toNat)
  if isNew then
    (s.setEd ed fun d => { d with nextED := (s.ed ied).nextED }).setEd ied
      fun d => { d with nextED := some ed }
  else s

/-- The ED's dummy TD `td` is filled, and another one put behind it. Reference: `_ohci.c_:648
ohci_int_xfer`. -/
def intLink (E : Endpoints) (s : Ohci) (v : Nat) (u : Utr) (i : Nat) (ed td tdNew : Unit64)
    (isNew : Bool) : Ohci :=
  let s := s.setPipe (.ep i) (some ed)
  let s := s.setTd td fun d => { writeTd d (intTdInfo (E i).2 d.info) u.buff u.dataLen
    with ed := some ed, nextTD := some tdNew, utr := some v }
  let s := s.setEd ed fun d => { d with tailP := some tdNew }
  (hookPeriodic E s i ed isNew).setUtr v { u with ep := .ep i, tdCnt := 1, status := 0 }

/-- Reference: `_ohci.c_:595 ohci_int_xfer`. -/
def ohciIntXfer (E : Endpoints) (s : Ohci) (v : Nat) (u : Utr) (i : Nat) :
    Except Stuck (Int × Ohci) :=
  if u.dataLen.toNat > 64 then .ok (USBH_ERR_INVALID_PARAM, s)
  else
    match s.allocTd (some v) with
    | (none, s) => .ok (USBH_ERR_MEMORY_OUT, s)
    | (some tdNew, s) => do
      let ied := s.ied (getIntTreeHeadNode (E i).2.bInterval.toNat)
      let info := edMakeInfo (E i).1 (some (E i).2)
      let found ← s.findEd (some ied) info
      match found with
      | some ed =>
        match (s.ed ed).tailP with
        | none => .error .nullPointer
        | some td => .ok (0, intLink E s v u i ed td tdNew false)
      | none =>
        match s.allocEd with
        | (none, s) => .ok (USBH_ERR_MEMORY_OUT, s)
        | (some ed, s) =>
          let s := s.setEd ed fun d => { d with info := info, bInterval := (E i).2.bInterval }
          match s.allocTd none with
          | (none, s) => .ok (USBH_ERR_MEMORY_OUT, (s.free ed).free tdNew)
          | (some td, s) =>
            let s := s.setEd ed fun d => { d with headP := some td, tailP := some td }
            .ok (0, intLink E s v u i ed td tdNew true)

/-! ## Isochronous transfers -/

/-- The TD of a packet in a frame. Reference: `_ohci.c_:750 ohci_iso_xfer`. -/
def isoTd (sf : BitVec 16) (buff : BitVec 32) (len : BitVec 16) (td : Td) : Td :=
  { td with
    info := TD_CC ||| TD_TYPE_ISO ||| sf.setWidth 32
    cbp := buff &&& ~~~0xFFF#32
    be := buff + len.setWidth 32 - 1
    psw0 := 0xE000#32 ||| (buff &&& 0xFFF#32) }

/-- The TDs of an isochronous transfer, an interval apart. Reference: `_ohci.c_:741 ohci_iso_xfer`. -/
def Utr.isoTds (u : Utr) (sf : BitVec 16) (interval : Nat) : List (Td → Td) :=
  (List.finRange IF_PER_UTR).map fun k : Fin IF_PER_UTR =>
    isoTd (sf + BitVec.ofNat 16 (k.val * interval)) (u.isoBuff k) (u.isoXlen k)

/-- The TDs are put behind those of the ED. Reference: `_ohci.c_:772 ohci_iso_xfer`. -/
def appendTds (s : Ohci) (ed : Unit64) (tds : List Unit64) : Except Stuck Ohci :=
  match (s.ed ed).headP with
  | none => .ok (s.setEd ed fun d => { d with headP := tds.head?, halted := false })
  | some head => do
    let last ← s.lastTd head
    .ok (s.setTd last fun td => { td with nextTD := tds.head? })

/-- The TDs of an isochronous transfer at its ED. Reference: `_ohci.c_:728 ohci_iso_xfer`. -/
def isoLink (E : Endpoints) (s : Ohci) (v : Nat) (u : Utr) (i : Nat) (ed : Unit64) (isNew : Bool) :
    Except Stuck (Int × Ohci) := do
  let s := if u.bIsoNewSched then s.setEd ed fun d => { d with nextSf := s.frameNo + OHCI_ISO_DELAY }
    else s
  let sf := (s.ed ed).nextSf
  let interval := getOhciInterval (s.ed ed).bInterval.toNat
  let (tds, done, s) := chainTds v ed (u.isoTds sf interval) [] s
  let s := s.setEd ed fun d => { d with nextSf := sf + BitVec.ofNat 16 (tds.length * interval) }
  if ¬ done then .ok (USBH_ERR_MEMORY_OUT, (s.freeTds tds).free ed)
  else do
    let s ← appendTds s ed tds
    .ok (0, (hookPeriodic E s i ed isNew).setUtr v { u with
      ep := .ep i
      tdCnt := tds.length
      status := 0
      isoSf := sf
      isoStatus := fun _ => USBH_ERR_NOT_ACCESS1 })

/-- A new ED is not written to the endpoint: the `else` takes the assignment. Reference: `_ohci.c_:691
ohci_iso_xfer`. -/
def ohciIsoXfer (E : Endpoints) (s : Ohci) (v : Nat) (u : Utr) (i : Nat) :
    Except Stuck (Int × Ohci) := do
  let ied := s.ied (getIntTreeHeadNode (E i).2.bInterval.toNat)
  let info := edMakeInfo (E i).1 (some (E i).2)
  let found ← s.findEd (some ied) info
  match found with
  | some ed => isoLink E (s.setPipe (.ep i) (some ed)) v u i ed false
  | none =>
    match s.allocEd with
    | (none, s) => .ok (USBH_ERR_MEMORY_OUT, s)
    | (some ed, s) =>
      isoLink E (s.setEd ed fun d => { d with info := info, bInterval := (E i).2.bInterval }) v u i ed
        true

/-- What is submitted: a control transfer to a device, or a transfer on another endpoint. -/
inductive Submission
  | ctrl (dev : Nat) (udev : UdevInfo)
  | bulk (i : Nat)
  | int (i : Nat)
  | iso (i : Nat)

/-- Reference: `ohci_0.c:32 ohci0_driver`. -/
def ohciXfer (E : Endpoints) (s : Ohci) (v : Nat) (u : Utr) : Submission → Except Stuck (Int × Ohci)
  | .ctrl dev udev => ohciCtrlXfer s v u dev udev
  | .bulk i => ohciBulkXfer E s v u i
  | .int i => ohciIntXfer E s v u i
  | .iso i => ohciIsoXfer E s v u i

/-! ## Cancellation -/

/-- Reference: `_ohci.c_:33 add_to_ED_remove_list`. -/
def addToEdRemoveList (s : Ohci) (ed : Unit64) : Ohci :=
  if ed ∈ s.edRemoveList then s
  else { s.setEd ed fun d => { d with info := d.info ||| ED_SKIP }
    with edRemoveList := ed :: s.edRemoveList, sfEnable := true }

/-- The ED of an endpoint is given up. Reference: `_ohci.c_:281 ohci_quit_xfer`. -/
def quitEp (s : Ohci) (e : EpRef) (ed : Unit64) : Ohci := (addToEdRemoveList s ed).setPipe e none

/-- Reference: `_ohci.c_:266 ohci_quit_xfer`. -/
def ohciQuitXfer (s : Ohci) (utr ep : Option EpRef) : Int × Ohci :=
  let quitOf (s : Ohci) (ep : Option EpRef) : Ohci :=
    match ep with
    | none => s
    | some e =>
      match s.hwPipe e with
      | none => s
      | some ed => quitEp s e ed
  match utr with
  | none => (0, quitOf s ep)
  | some e =>
    match s.hwPipe e with
    | none => (USBH_ERR_NOT_FOUND, s)
    | some ed => (0, quitOf (quitEp s e ed) ep)

/-! ## The controller -/

/-- What the controller writes into a TD that it retires. -/
structure Retired where
  cc : BitVec 4
  cbp : BitVec 32
  psw0 : BitVec 32
  toggleCarry : Bool

/-- A TD of isochronous type. -/
def Td.isIso (td : Td) : Bool := td.info &&& TD_TYPE_Msk = TD_TYPE_ISO

/-- Reference: `ohci.h:122 TD_CC_SET`. -/
def Td.retire (td : Td) (w : Retired) : Td :=
  { td with info := td.info &&& 0x0FFFFFFF#32 ||| w.cc.setWidth 32 <<< 28, cbp := w.cbp, psw0 := w.psw0 }

/-- The controller retires the ED's first TD to the done queue; an error in a TD that is not
isochronous halts the ED. -/
def hcRetire (s : Ohci) (ed t : Unit64) (w : Retired) : Ohci :=
  { (s.setTd t fun td => td.retire w).setEd ed fun d =>
      { d with
        headP := (s.td t).nextTD
        toggleCarry := w.toggleCarry
        halted := decide (w.cc ≠ 0) && !(s.td t).isIso }
    with doneQueue := t :: s.doneQueue }

/-- The EDs that the controller comes to. -/
def Ohci.Linked (s : Ohci) (u : Unit64) : Prop :=
  Embedded.Reaches s.nextED s.controlHead u ∨ Embedded.Reaches s.nextED s.bulkHead u ∨
    ∃ k, Embedded.Reaches s.nextED (some (s.ied k)) u

/-- The controller works on an ED that is not skipped or halted and has a TD before its tail. -/
def HcServes (s : Ohci) (ed t : Unit64) : Prop :=
  s.Linked ed ∧ (s.ed ed).info &&& ED_SKIP = 0 ∧ (s.ed ed).halted = false ∧
    (s.ed ed).headP = some t ∧ (s.ed ed).tailP ≠ some t

/-! ## Interrupts -/

/-- A UTR with one TD less; without any its callback is called. Reference: `_ohci.c_:1020 td_done`. -/
def Utr.tdOff (u : Utr) : Utr :=
  if u.tdCnt - 1 = 0 then
    { u with tdCnt := u.tdCnt - 1, bIsTransferDone := true, calls := u.calls + 1 }
  else { u with tdCnt := u.tdCnt - 1 }

/-- The bytes that a TD moved. Reference: `_ohci.c_:1002 td_done`. -/
def Td.moved (td : Td) : BitVec 32 :=
  if td.cbp = 0 then td.be - td.buffStart + 1 else td.cbp - td.buffStart

/-- What a retired TD that is not isochronous tells its UTR. Reference: `_ohci.c_:983 td_done`. -/
def Utr.generalDone (u : Utr) (td : Td) : Utr :=
  let cc := td.info >>> 28
  let u := if cc ≠ 0 ∧ cc ≠ 9 then
      { u with status := if cc = 4 then USBH_ERR_STALL else USBH_ERR_TRANSFER }
    else u
  let type := td.info &&& TD_TYPE_Msk
  if type = TD_TYPE_CTRL ∧ td.info &&& TD_CTRL_DATA = 0 then u
  else { u with xferLen := u.xferLen + td.moved }

/-- What a retired isochronous TD tells its UTR. Reference: `_ohci.c_:955 td_done`. -/
def Utr.isoDone (u : Utr) (td : Td) (bInterval : BitVec 8) : Utr :=
  let idx := ((td.info.setWidth 16 - u.isoSf).toNat) / getOhciInterval bInterval.toNat
  if h : idx < IF_PER_UTR then
    let cc := (td.psw0 >>> 12) &&& 0xF#32
    if cc = 0xF then { u with isoStatus := Function.update u.isoStatus ⟨idx, h⟩ USBH_ERR_SCH_OVERRUN }
    else if cc ≠ 0 ∧ cc ≠ 9 then
      { u with isoStatus := Function.update u.isoStatus ⟨idx, h⟩ (USBH_ERR_CC_NO_ERR - cc.toNat) }
    else { u with
      isoStatus := Function.update u.isoStatus ⟨idx, h⟩ 0
      isoXlen := Function.update u.isoXlen ⟨idx, h⟩ ((td.psw0 &&& 0x7FF#32).setWidth 16) }
  else u

/-- Reference: `_ohci.c_:947 td_done`. -/
def tdDone (s : Ohci) (t : Unit64) : Except Stuck Ohci :=
  match (s.td t).utr with
  | none => .error .nullPointer
  | some v =>
    match s.utr v with
    | none => .error .nullPointer
    | some u =>
      if (s.td t).isIso then
        match (s.td t).ed with
        | none => .error .nullPointer
        | some ed => .ok (s.setUtr v (u.isoDone (s.td t) (s.ed ed).bInterval).tdOff)
      else .ok (s.setUtr v (u.generalDone (s.td t)).tdOff)

/-- The TDs of the done queue that the interrupt brings, in the order in which they are reclaimed.
Reference: `_ohci.c_:1164 OHCI_IRQHandler`. -/
def reclaim (s : Ohci) (tds : List Unit64) : Except Stuck Ohci :=
  tds.foldlM (fun s t => do
    let s ← tdDone s t
    .ok ({ s with doneQueue := s.doneQueue.erase t }.free t)) s

/-- The TDs of an ED that is removed are freed. Reference: `_ohci.c_:1122 remove_ed`. -/
def removeTds : Nat → Option Unit64 → Ohci → Except Stuck Ohci
  | _, none, s => .ok s
  | 0, some _, _ => .error .endless
  | n + 1, some t, s =>
    match (s.td t).utr with
    | none => .error .nullPointer
    | some v =>
      match s.utr v with
      | none => .error .nullPointer
      | some u =>
        let u := if u.tdCnt - 1 = 0 then { u.tdOff with status := USBH_ERR_ABORT } else u.tdOff
        removeTds n (s.td t).nextTD ((s.free t).setUtr v u)

/-- The ED is taken out of its list behind the list's first ED. Reference: `_ohci.c_:1063 remove_ed`. -/
def unlinkEd (s : Ohci) (head : Option Unit64) (ed : Unit64) (stop : Bool) :
    Except Stuck (Bool × Ohci) :=
  match unlink ed stop MEM_POOL_UNIT_NUM s.nextED head with
  | none => .error .endless
  | some (next, found) => .ok (found, { s with ed := fun u => { s.ed u with nextED := next u } })

/-- The ED is taken out of the list that its information and interval name. Reference: `_ohci.c_:1053
remove_ed`. -/
def unlinkAny (s : Ohci) (ed : Unit64) : Except Stuck (Bool × Ohci) :=
  if (s.ed ed).info &&& ED_EP_ADDR_Msk = 0 then
    if s.controlHead = some ed then .ok (true, { s with controlHead := (s.ed ed).nextED })
    else unlinkEd s s.controlHead ed false
  else if 0 < (s.ed ed).bInterval.toNat then
    unlinkEd s (some (s.ied (getIntTreeHeadNode (s.ed ed).bInterval.toNat))) ed true
  else
    if s.bulkHead = some ed then .ok (true, { s with bulkHead := (s.ed ed).nextED })
    else unlinkEd s s.bulkHead ed false

/-- The ED of a cancelled endpoint. Reference: `_ohci.c_:1044 remove_ed`. -/
def removeEd (s : Ohci) (ed : Unit64) : Except Stuck Ohci := do
  let (found, s) ← unlinkAny s ed
  let s ← if found then removeTds MEM_POOL_UNIT_NUM (s.ed ed).headP s else .ok s
  .ok ({ s with edRemoveList := s.edRemoveList.tail }.free ed)

/-- All EDs of cancelled endpoints. Reference: `_ohci.c_:1036 remove_ed`. -/
def removeEds (s : Ohci) : Except Stuck Ohci := s.edRemoveList.foldlM removeEd s

/-- The start of a frame. Reference: `_ohci.c_:1154 OHCI_IRQHandler`. -/
def startOfFrame (s : Ohci) : Except Stuck Ohci :=
  if s.sfEnable then removeEds { s with sfEnable := false } else .ok s

/-! ## Initialisation -/

/-- The interrupt table and the links of its heads, all by their index. -/
structure HeadLinks where
  intTable : Fin 32 → Option (Fin 6)
  next : Fin 6 → Option (Fin 6)

/-- A head is put at the end of the list of a table entry, once. Reference: `_ohci.c_:129
init_hcca_int_table`. -/
def chainHead (i : Fin 6) : Nat → Fin 6 → HeadLinks → HeadLinks
  | 0, _, h => h
  | n + 1, p, h =>
    if p = i then h
    else
      match h.next p with
      | none => { h with next := Function.update h.next p (some i) }
      | some q => chainHead i n q h

/-- Reference: `_ohci.c_:119 init_hcca_int_table`. -/
def initHccaIntTable : HeadLinks :=
  ([5, 4, 3, 2, 1, 0] : List (Fin 6)).foldl (fun h i =>
    ((List.finRange 32).filter fun idx => (idx.val + 1) % 2 ^ i.val = 0).foldl (fun h idx =>
      match h.intTable idx with
      | none => { h with intTable := Function.update h.intTable idx (some i) }
      | some p => chainHead i 6 p h) h)
    ⟨fun _ => none, fun _ => none⟩

/-- The driver at start, over the heads' units and those that other drivers took. Reference:
`_ohci.c_:184 ohci_init`. -/
def Ohci.init (pool : MemPool) (foreign : Unit64 → Bool) (ied : Fin 6 → Unit64) : Ohci where
  pool := pool
  use u := if foreign u then some .foreign
    else ((List.finRange 6).find? fun i => ied i = u).map fun _ => .ed
  ed u :=
    match (List.finRange 6).find? fun i => ied i = u with
    | none => Ed.zero
    | some i => { Ed.zero with info := ED_SKIP, nextED := (initHccaIntTable.next i).map ied }
  td _ := Td.zero none
  ied := ied
  controlHead := none
  bulkHead := none
  hwPipe _ := none
  utr _ := none
  edRemoveList := []
  sfEnable := true
  doneQueue := []
  frameNo := 0

/-- The units of the heads, taken from the last interval on. Reference: `_ohci.c_:122
init_hcca_int_table`. -/
def allocHeads (pool : MemPool) : Option ((Fin 6 → Unit64) × MemPool) :=
  ([5, 4, 3, 2, 1, 0] : List (Fin 6)).foldlM (fun (acc : (Fin 6 → Unit64) × MemPool) i =>
    match acc.2.allocOhci with
    | (none, _) => none
    | (some u, pool) => some (Function.update acc.1 i u, pool)) (fun _ => 0, pool)

/-- The driver set up over a pool that other drivers may have taken units of. Reference: `_ohci.c_:184
ohci_init`. -/
def ohciInit (pool : MemPool) : Except Stuck Ohci :=
  match allocHeads pool with
  | none => .error .nullPointer
  | some (ied, pool') => .ok (Ohci.init pool' pool.unitUsed ied)

/-! ## Steps -/

/-- What happens to the driver. -/
inductive OhciOp
  | submit (v : Nat) (u : Utr) (sub : Submission)
  | quit (utr ep : Option EpRef)
  /-- The controller retires a TD. -/
  | retire (ed t : Unit64) (w : Retired)
  /-- The controller gives TDs of the done queue to the driver, in any order. -/
  | done (tds : List Unit64)
  | sof
  | frame (no : BitVec 16)
  /-- Another controller's driver takes or gives back a unit of the pool. -/
  | foreignTake (u : Unit64)
  | foreignGive (u : Unit64)

/-- One step. -/
def OhciStep (E : Endpoints) (s : Ohci) (op : OhciOp) (s' : Ohci) : Prop :=
  match op with
  | .submit v u sub => s.utr v = none ∧ u.bIsTransferDone = false ∧ u.calls = 0 ∧
      ∃ ret, ohciXfer E s v u sub = .ok (ret, s')
  | .quit utr ep => s' = (ohciQuitXfer s utr ep).2
  | .retire ed t w => HcServes s ed t ∧ s' = hcRetire s ed t w
  | .done tds => tds.Nodup ∧ tds ⊆ s.doneQueue ∧ reclaim s tds = .ok s'
  | .sof => startOfFrame s = .ok s'
  | .frame no => s' = { s with frameNo := no }
  | .foreignTake u => s.pool.unitUsed u = false ∧ s' = s.take u .foreign
  | .foreignGive u => s.use u = some .foreign ∧ s' = s.free u

end NumakerMA35D1.UsbHost

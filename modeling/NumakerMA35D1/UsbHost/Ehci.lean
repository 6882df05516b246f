import NumakerMA35D1.UsbHost.Ohci
import NumakerMA35D1.UsbHost.WriteQh

/-!
# The EHCI driver

Queue heads (QHs) and queue element transfer descriptors (qTDs) are units of the pool. A submission gives the
endpoint's QH a list of qTDs; the controller retires them; a scan moves the retired ones to the QH's done list and,
when none is left, completes their transfer request (UTR). The QH of a cancelled endpoint is unlinked, and freed when
the controller has answered the doorbell. The links that only software follows, the lists of qTDs at a QH and the lists
of QHs, are lists here; the pointers that the controller follows are fields. Callbacks are counted; what they call is
not modelled.

Reference: `_ehci.c_`, `ehci.h`.
-/

namespace NumakerMA35D1.UsbHost

open Embedded

/-! ## Constants -/

/-- Reference: `usbh_lib.h:56 USBH_ERR_TRANSACTION`. -/
abbrev USBH_ERR_TRANSACTION : Int := -271
/-- Reference: `usbh_lib.h:70 USBH_ERR_BUFF_OVERRUN`. -/
abbrev USBH_ERR_BUFF_OVERRUN : Int := -292
/-- Reference: `usbh_lib.h:79 USBH_ERR_EHCI_QH_BUSY`. -/
abbrev USBH_ERR_EHCI_QH_BUSY : Int := -503

/-- Reference: `ehci.h:25 NUM_IQH`. -/
abbrev NUM_IQH : Nat := 11

/-- There are heads. -/
scoped instance neZeroIqh : NeZero NUM_IQH := ⟨by decide⟩

/-- The error bits of a token. Reference: `ehci.h:66 QTD_STS_MISS_MF`, `_ehci.c_:887 visit_qtd`. -/
def QTD_STS_ERRORS : BitVec 32 := 0x7C#32
/-- Reference: `ehci.h:70 QTD_STS_HALT`. -/
def QTD_STS_HALT : BitVec 32 := 1#32 <<< 6
/-- Reference: `ehci.h:71 QTD_STS_ACTIVE`. -/
def QTD_STS_ACTIVE : BitVec 32 := 1#32 <<< 7
/-- Reference: `ehci.h:76 QTD_PID_Msk`. -/
def QTD_PID_Msk : BitVec 32 := 3#32 <<< 8
/-- Reference: `ehci.h:77 QTD_PID_OUT`. -/
def QTD_PID_OUT : BitVec 32 := 0#32 <<< 8
/-- Reference: `ehci.h:78 QTD_PID_IN`. -/
def QTD_PID_IN : BitVec 32 := 1#32 <<< 8
/-- Reference: `ehci.h:79 QTD_PID_SETUP`. -/
def QTD_PID_SETUP : BitVec 32 := 2#32 <<< 8
/-- Reference: `ehci.h:81 QTD_ERR_COUNTER`. -/
def QTD_ERR_COUNTER : BitVec 32 := 3#32 <<< 10
/-- Reference: `ehci.h:82 QTD_IOC`. -/
def QTD_IOC : BitVec 32 := 1#32 <<< 15
/-- Reference: `ehci.h:85 QTD_DT`. -/
def QTD_DT : BitVec 32 := 1#32 <<< 31
/-- Reference: `ehci.h:84 QTD_TODO_LEN`. -/
def QTD_TODO_LEN (x : BitVec 32) : BitVec 32 := (x >>> 16) &&& 0x7FFF#32

/-! ## Records -/

/-- What the controller's pointer to a qTD names: one of the pool, the driver's ghost, nothing, or NULL.
Reference: `ehci.h:56 QTD_LIST_END`, `_ehci.c_:31 _ghost_qtd`. -/
inductive QtdPtr
  | unit (t : Unit64)
  | ghost
  | listEnd
  | null
deriving DecidableEq

/-- Reference: `ehci.h:38 qTD_T`. -/
structure Qtd where
  nextQtd : QtdPtr
  altNextQtd : QtdPtr
  token : BitVec 32
  bptr : Fin 5 → BitVec 32
  utr : Nat
  xferLen : BitVec 32
  qh : Option Unit64

/-- A queue head with its overlay and its lists. Reference: `ehci.h:91 QH_T`. -/
structure EhciQh extends Qh where
  currQtd : QtdPtr
  olNextQtd : QtdPtr
  olAltNextQtd : QtdPtr
  olToken : BitVec 32
  olBptr : Fin 5 → BitVec 32
  qtdList : List Unit64
  doneList : List Unit64

/-- A new qTD of a UTR. Reference: `mem_alloc.c:381 alloc_ehci_qTD`. -/
def Qtd.zero (utr : Nat) : Qtd := ⟨.listEnd, .listEnd, 0x1197B7F#32, fun _ => 0, utr, 0, none⟩

/-- A new queue head. Reference: `mem_alloc.c:330 alloc_ehci_QH`. -/
def EhciQh.zero : EhciQh := ⟨⟨0, 0⟩, .listEnd, .listEnd, .listEnd, QTD_STS_HALT, fun _ => 0, [], []⟩

/-- The driver. `asyncList` is the list behind `_H_qh`, `iqh` the lists behind the heads of the periodic tree. -/
structure Ehci where
  pool : MemPool
  qh : Unit64 → EhciQh
  qtd : Unit64 → Qtd
  asyncList : List Unit64
  iqh : Fin NUM_IQH → List Unit64
  /-- Reference: `_ehci.c_:16 qh_remove_list`. -/
  removeList : List Unit64
  hwPipe : EpRef → Option Unit64
  /-- `bToggle` of the endpoints. -/
  toggle : EpRef → Bool
  udev : Nat → Udev
  utr : Nat → Utr
  /-- The bits of `UCMDR` that are set: the two schedules, and the doorbell. -/
  asen : Bool
  psen : Bool
  iaad : Bool

namespace Ehci

variable (s : Ehci)

def setQh (q : Unit64) (f : EhciQh → EhciQh) : Ehci := { s with qh := Function.update s.qh q (f (s.qh q)) }

def setQtd (t : Unit64) (f : Qtd → Qtd) : Ehci := { s with qtd := Function.update s.qtd t (f (s.qtd t)) }

def setPipe (e : EpRef) (q : Option Unit64) : Ehci := { s with hwPipe := Function.update s.hwPipe e q }

def setUtr (v : Nat) (f : Utr → Utr) : Ehci := { s with utr := Function.update s.utr v (f (s.utr v)) }

variable {s} in
@[simp] theorem setQtd_same (t : Unit64) (f : Qtd → Qtd) : (s.setQtd t f).qtd t = f (s.qtd t) :=
  Function.update_self ..

variable {s} in
theorem setQtd_of_ne {t x : Unit64} (h : x ≠ t) (f : Qtd → Qtd) : (s.setQtd t f).qtd x = s.qtd x :=
  Function.update_of_ne h ..

variable {s} in
@[simp] theorem setQh_same (q : Unit64) (f : EhciQh → EhciQh) : (s.setQh q f).qh q = f (s.qh q) :=
  Function.update_self ..

/-- Reference: `mem_alloc.c:317 alloc_ehci_QH`. -/
def allocQh : Option Unit64 × Ehci :=
  match s.pool.allocEhci with
  | (none, _) => (none, s)
  | (some q, pool) => (some q, { s with pool := pool, qh := Function.update s.qh q EhciQh.zero })

/-- Reference: `mem_alloc.c:367 alloc_ehci_qTD`. -/
def allocQtd (utr : Nat) : Option Unit64 × Ehci :=
  match s.pool.allocEhci with
  | (none, _) => (none, s)
  | (some t, pool) => (some t, { s with pool := pool, qtd := Function.update s.qtd t (Qtd.zero utr) })

/-- Reference: `mem_alloc.c:347 free_ehci_QH`, `mem_alloc.c:394 free_ehci_qTD`. -/
def free (u : Unit64) : Ehci := { s with pool := s.pool.give u }

/-- NULL is no unit of the pool. -/
def free? : Option Unit64 → Ehci
  | none => s
  | some u => s.free u

/-- Reference: `_ehci.c_:385 append_to_qtd_list_of_QH`. -/
def appendToQtdListOfQH (q t : Unit64) : Ehci := s.setQh q fun d => { d with qtdList := d.qtdList ++ [t] }

end Ehci

/-! ## Descriptors -/

/-- Reference: `_ehci.c_:475 write_qtd_bptr`. -/
def writeQtdBptr (qtd : Qtd) (buffAddr xferLen : BitVec 32) : Qtd :=
  { qtd with
    xferLen := xferLen
    bptr := fun i =>
      if i = 0 then buffAddr else ((buffAddr + 0x1000#32) &&& ~~~0xFFF#32) + 0x1000#32 * BitVec.ofNat 32 (i - 1) }

/-- Reference: `_ehci.c_:192 get_int_tree_head_node`. -/
def ehciIntTreeHeadNode (interval : Nat) : Fin NUM_IQH :=
  ((List.finRange NUM_IQH).find? fun i => interval / 8 / 2 ^ (i.val + 1) = 0).getD (Fin.last 10)

/-- Reference: `_ehci.c_:207 make_int_s_mask`. -/
def makeIntSMask (bInterval : BitVec 8) : BitVec 32 :=
  let interval : BitVec 32 := 1#32 <<< (bInterval.toNat - 1)
  if interval.slt 2#32 then 0xFF#32
  else if interval.slt 4#32 then 0x55#32
  else if interval.slt 8#32 then 0x22#32
  else 1#32 <<< (interval.toNat.log2 % 8)

/-! ## Control transfers -/

/-- The qTD of the setup stage. Reference: `_ehci.c_:558 ehci_ctrl_xfer`. -/
def setupQtd (u : Utr) (qh next : Unit64) (d : Qtd) : Qtd :=
  { writeQtdBptr d u.setupAddr 8 with
    qh := some qh
    token := 8#32 <<< 16 ||| QTD_ERR_COUNTER ||| QTD_PID_SETUP ||| QTD_STS_ACTIVE
    nextQtd := .unit next }

/-- The qTD of the data stage. Reference: `_ehci.c_:567 ehci_ctrl_xfer`. -/
def dataQtd (u : Utr) (qh next : Unit64) (d : Qtd) : Qtd :=
  { writeQtdBptr d u.buff u.dataLen with
    qh := some qh
    token := QTD_DT ||| u.dataLen <<< 16 ||| QTD_ERR_COUNTER |||
      (if u.dirIn then QTD_PID_IN else QTD_PID_OUT) ||| QTD_STS_ACTIVE
    nextQtd := .unit next }

/-- The qTD of the status stage. Reference: `_ehci.c_:590 ehci_ctrl_xfer`. -/
def statusQtd (u : Utr) (qh : Unit64) (d : Qtd) : Qtd :=
  { d with
    qh := some qh
    token := QTD_DT ||| QTD_IOC ||| QTD_ERR_COUNTER |||
      (if u.dirIn then QTD_PID_OUT else QTD_PID_IN) ||| QTD_STS_ACTIVE
    nextQtd := .ghost
    altNextQtd := .listEnd }

/-- The setup, data and status stages are written, and the queue head gets them. Reference: `_ehci.c_:551
ehci_ctrl_xfer`. -/
def ehciCtrlLink (s : Ehci) (v : Nat) (qh qtdSetup : Unit64) (qtdData : Option Unit64) (qtdStatus : Unit64)
    (isNewQh : Bool) : Ehci :=
  let u := s.utr v
  let s := (s.setQtd qtdSetup (setupQtd u qh (qtdData.getD qtdStatus))).appendToQtdListOfQH qh qtdSetup
  let s :=
    match qtdData with
    | none => s
    | some qtdData => (s.setQtd qtdData (dataQtd u qh qtdStatus)).appendToQtdListOfQH qh qtdData
  let s := s.setQtd qtdStatus (statusQtd u qh)
  let s := s.appendToQtdListOfQH qh qtdStatus
  let s := s.setQh qh fun d =>
    { d with currQtd := .null, olNextQtd := .unit qtdSetup, olAltNextQtd := .listEnd, olToken := 0 }
  let s := if isNewQh then { s with asyncList := qh :: s.asyncList } else s
  { s with asen := true }

/-- The qTDs of the stages are taken. Reference: `_ehci.c_:535 ehci_ctrl_xfer`. -/
def ehciCtrlQtds (s : Ehci) (v : Nat) (qh : Unit64) (isNewQh : Bool) : Except Stuck (Int × Ehci) :=
  let hasData := 0 < (s.utr v).dataLen.toNat
  let (qtdSetup, s) := s.allocQtd v
  let (qtdData, s) := if hasData then s.allocQtd v else (none, s)
  let (qtdStatus, s) := s.allocQtd v
  match qtdStatus with
  | none => .ok (USBH_ERR_MEMORY_OUT, (s.free? qtdSetup).free? qtdData)
  | some qtdStatus =>
    match qtdSetup with
    | none => .error .nullPointer
    | some qtdSetup =>
      if hasData ∧ qtdData = none then .error .nullPointer
      else .ok (0, ehciCtrlLink s v qh qtdSetup qtdData qtdStatus isNewQh)

/-- A control transfer at its queue head. Reference: `_ehci.c_:529 ehci_ctrl_xfer`. -/
def ehciCtrlStart (s : Ehci) (v dev : Nat) (qh : Unit64) (isNewQh : Bool) : Except Stuck (Int × Ehci) :=
  match writeQh (s.udev dev) none with
  | .error _ => .error .nullPointer
  | .ok (udev, w) =>
    let s := { s with udev := Function.update s.udev dev udev }
    let s := s.setQh qh fun d => { d with toQh := w }
    ehciCtrlQtds (s.setUtr v fun u => { u with ep := .ep0 dev }) v qh isNewQh

/-- Reference: `_ehci.c_:491 ehci_ctrl_xfer`. -/
def ehciCtrlXfer (s : Ehci) (v dev : Nat) : Except Stuck (Int × Ehci) :=
  let u := s.utr v
  if 0 < u.dataLen.toNat ∧ u.buff + u.dataLen > (u.buff &&& ~~~0xFFF#32) + 0x5000#32 then
    .ok (USBH_ERR_BUFF_OVERRUN, s)
  else
    match s.hwPipe (.ep0 dev) with
    | some qh =>
      if (s.qh qh).qtdList ≠ [] then .ok (USBH_ERR_EHCI_QH_BUSY, s)
      else ehciCtrlStart s v dev qh false
    | none =>
      match s.allocQh with
      | (none, s) => .ok (USBH_ERR_MEMORY_OUT, s)
      | (some qh, s) => ehciCtrlStart (s.setPipe (.ep0 dev) (some qh)) v dev qh true

/-! ## Bulk transfers -/

/-- The bytes of one qTD of a bulk transfer. Reference: `_ehci.c_:680 ehci_bulk_xfer`. -/
def bulkLen (dataLen : Nat) : Nat := if dataLen > 0x4000 then 0x4000 else dataLen

/-- A qTD of a bulk transfer with `dataLen` bytes to go. Reference: `_ehci.c_:685 ehci_bulk_xfer`. -/
def bulkQtd (ep : EpInfo) (qh : Unit64) (dataLen : Nat) (buff : BitVec 32) (d : Qtd) : Qtd :=
  { writeQtdBptr d buff (BitVec.ofNat 32 (bulkLen dataLen)) with
    qh := some qh
    nextQtd := .ghost
    altNextQtd := .listEnd
    token := BitVec.ofNat 32 (bulkLen dataLen) <<< 16 ||| dataToken ep |||
      (if dataLen - bulkLen dataLen = 0 then QTD_IOC else 0#32) }

/-- A qTD is written and put at the end of the queue, behind the one before it. Reference: `_ehci.c_:691
ehci_bulk_xfer`. -/
def linkQtd (s : Ehci) (qh : Unit64) (qtdPre : Option Unit64) (qtd : Unit64) (write : Qtd → Qtd) : Ehci :=
  let s := (s.setQtd qtd write).appendToQtdListOfQH qh qtd
  match qtdPre with
  | none => s
  | some qtdPre => s.setQtd qtdPre fun d => { d with nextQtd := .unit qtd }

/-- The loop over the qTDs; it ends early without memory. Reference: `_ehci.c_:655 ehci_bulk_xfer`. -/
def bulkLoop (ep : EpInfo) (v : Nat) (qh : Unit64) (dataLen : Nat) (buff : BitVec 32) (qtdPre : Option Unit64)
    (s : Ehci) : Bool × Ehci :=
  if 0 < dataLen then
    match s.allocQtd v with
    | (none, s) => (false, s)
    | (some qtd, s) =>
      bulkLoop ep v qh (dataLen - bulkLen dataLen) (buff + BitVec.ofNat 32 (bulkLen dataLen)) (some qtd)
        (linkQtd s qh qtdPre qtd (bulkQtd ep qh dataLen buff))
  else (true, s)
termination_by dataLen
decreasing_by
  unfold bulkLen
  split <;> omega

/-- The queue head gets its qTDs. For a new one the first qTD is copied into the overlay. Reference: `_ehci.c_:714
ehci_bulk_xfer`. -/
def ehciBulkLink (s : Ehci) (i : Nat) (qh : Unit64) (isNewQh : Bool) : Except Stuck (Int × Ehci) :=
  match (s.qh qh).qtdList with
  | [] =>
    if isNewQh then .error .nullPointer
    else .ok (0, { s.setQh qh fun d => { d with olNextQtd := .null } with asen := true })
  | qtd :: _ =>
    let s := s.setQh qh fun d => { d with olNextQtd := .unit qtd }
    let s :=
      if isNewQh then
        { s.setQh qh fun d =>
            { d with
              olBptr := (s.qtd qtd).bptr
              currQtd := .unit qtd
              olToken := if s.toggle (.ep i) then QTD_DT else 0#32 }
          with asyncList := qh :: s.asyncList }
      else s
    .ok (0, { s with asen := true })

/-- The qTDs of a bulk transfer at its queue head. Reference: `_ehci.c_:651 ehci_bulk_xfer`. -/
def ehciBulkStart (E : Nat → EpInfo) (s : Ehci) (v i : Nat) (qh : Unit64) (isNewQh : Bool) :
    Except Stuck (Int × Ehci) :=
  match bulkLoop (E i) v qh (s.utr v).dataLen.toNat (s.utr v).buff none s with
  | (true, s) => ehciBulkLink s i qh isNewQh
  | (false, s) =>
    let s := (s.qh qh).qtdList.foldl Ehci.free s
    .ok (USBH_ERR_MEMORY_OUT, if isNewQh then (s.free qh).setPipe (.ep i) none else s)

/-- Reference: `_ehci.c_:624 ehci_bulk_xfer`. -/
def ehciBulkXfer (E : Nat → EpInfo) (s : Ehci) (v dev i : Nat) : Except Stuck (Int × Ehci) :=
  match s.hwPipe (.ep i) with
  | some qh =>
    if (s.qh qh).qtdList ≠ [] then .ok (USBH_ERR_EHCI_QH_BUSY, s)
    else ehciBulkStart E s v i qh false
  | none =>
    match s.allocQh with
    | (none, s) => .ok (USBH_ERR_MEMORY_OUT, s)
    | (some qh, s) =>
      match writeQh (s.udev dev) (some (E i)) with
      | .error _ => .error .nullPointer
      | .ok (_, w) =>
        ehciBulkStart E ((s.setQh qh fun d => { d with toQh := w }).setPipe (.ep i) (some qh)) v i qh true

/-! ## Interrupt transfers -/

/-- The words of the queue head of an interrupt endpoint. Reference: `_ehci.c_:768 ehci_int_xfer`. -/
def intQh (speed : Speed) (ep : EpInfo) (w : Qh) : Qh :=
  { chrst := w.chrst &&& ~~~0xF0000000#32
    cap := if speed = .HIGH then 1#32 <<< 30 ||| (w.cap &&& 0xFF#32) ||| makeIntSMask ep.bInterval
      else 1#32 <<< 30 ||| (w.cap &&& ~~~0xFFFF#32) ||| 0x7802#32 }

/-- The head that the queue head is put behind. Reference: `_ehci.c_:817 ehci_int_xfer`. -/
def intIqh (speed : Speed) (ep : EpInfo) : Fin NUM_IQH :=
  ehciIntTreeHeadNode (if speed = .HIGH then ep.bInterval.toNat else ep.bInterval.toNat * 8)

/-- The one qTD of an interrupt transfer. Reference: `_ehci.c_:798 ehci_int_xfer`. -/
def intQtd (ep : EpInfo) (qh : Unit64) (u : Utr) (d : Qtd) : Qtd :=
  { writeQtdBptr d u.buff u.dataLen with
    qh := some qh
    nextQtd := .listEnd
    altNextQtd := .listEnd
    token := QTD_IOC ||| u.dataLen <<< 16 ||| dataToken ep }

/-- The qTD of an interrupt transfer at its queue head. Reference: `_ehci.c_:781 ehci_int_xfer`. -/
def ehciIntStart (E : Nat → EpInfo) (s : Ehci) (v dev i : Nat) (qh : Unit64) (isNewQh : Bool) : Int × Ehci :=
  match s.allocQtd v with
  | (none, s) => (USBH_ERR_MEMORY_OUT, if isNewQh then (s.free qh).setPipe (.ep i) none else s)
  | (some qtd, s) =>
    let s := (s.setQtd qtd (intQtd (E i) qh (s.utr v))).appendToQtdListOfQH qh qtd
    let s := s.setQh qh fun d => { d with olNextQtd := .unit qtd }
    let k := intIqh (s.udev dev).speed (E i)
    let s :=
      if isNewQh then
        { s.setQh qh fun d =>
            { d with olBptr := (s.qtd qtd).bptr, currQtd := .unit qtd, olToken := (s.qtd qtd).token }
          with iqh := Function.update s.iqh k (qh :: s.iqh k) }
      else s
    (0, { s with psen := true })

/-- Reference: `_ehci.c_:745 ehci_int_xfer`. -/
def ehciIntXfer (E : Nat → EpInfo) (s : Ehci) (v dev i : Nat) : Except Stuck (Int × Ehci) :=
  match s.hwPipe (.ep i) with
  | some qh =>
    if (s.qh qh).qtdList ≠ [] then .ok (USBH_ERR_EHCI_QH_BUSY, s)
    else .ok (ehciIntStart E s v dev i qh false)
  | none =>
    match s.allocQh with
    | (none, s) => .ok (USBH_ERR_MEMORY_OUT, s)
    | (some qh, s) =>
      match writeQh (s.udev dev) (some (E i)) with
      | .error _ => .error .nullPointer
      | .ok (_, w) =>
        let s := s.setQh qh fun d => { d with toQh := intQh (s.udev dev).speed (E i) w }
        .ok (ehciIntStart E (s.setPipe (.ep i) (some qh)) v dev i qh true)

/-- What is submitted: a control transfer to a device, or a transfer on another endpoint of one. -/
inductive EhciSubmission
  | ctrl (dev : Nat)
  | bulk (dev i : Nat)
  | int (dev i : Nat)

/-- The endpoint of a submission. -/
def EhciSubmission.pipe : EhciSubmission → EpRef
  | .ctrl dev => .ep0 dev
  | .bulk _ i | .int _ i => .ep i

/-- Reference: `ehci_0.c:32 ehci0_driver`. -/
def ehciXfer (E : Nat → EpInfo) (s : Ehci) (v : Nat) : EhciSubmission → Except Stuck (Int × Ehci)
  | .ctrl dev => ehciCtrlXfer s v dev
  | .bulk dev i => ehciBulkXfer E s v dev i
  | .int dev i => ehciIntXfer E s v dev i

/-! ## Scans -/

/-- What a qTD that the controller is done with tells its UTR, or nothing. Reference: `_ehci.c_:876 visit_qtd`. -/
def visitQtd (qtd : Qtd) (u : Utr) : Option Utr :=
  if qtd.token = 0x11197B7F#32 ∨ qtd.token = 0x1197B7F#32 then none
  else if qtd.token &&& QTD_STS_ACTIVE = 0 then
    if qtd.token &&& QTD_STS_ERRORS ≠ 0 then
      some (if u.status = 0 then { u with status := USBH_ERR_TRANSACTION } else u)
    else if qtd.token &&& QTD_PID_Msk ≠ QTD_PID_SETUP then
      some { u with xferLen := u.xferLen + (qtd.xferLen - QTD_TODO_LEN qtd.token) }
    else some u
  else none

/-- A qTD at its turn in the scan of a queue head; `utr` is that of the last one reclaimed. Reference: `_ehci.c_:923
scan_asynchronous_list`. -/
def scanQtd (q : Unit64) (st : Option Nat × Ehci) (t : Unit64) : Option Nat × Ehci :=
  let (utr, s) := st
  match visitQtd (s.qtd t) (s.utr (s.qtd t).utr) with
  | none => (utr, s)
  | some u =>
    let s := s.setUtr (s.qtd t).utr fun _ => u
    (some (s.qtd t).utr, s.setQh q fun d => { d with qtdList := d.qtdList.erase t, doneList := t :: d.doneList })

/-- The requester is called back. Reference: `_ehci.c_:947 scan_asynchronous_list`. -/
def completeUtr (s : Ehci) (q : Unit64) (v : Nat) : Ehci :=
  let s := { s with toggle := Function.update s.toggle (s.utr v).ep ((s.qh q).olToken &&& QTD_DT ≠ 0) }
  { s.setUtr v fun u => { u with bIsTransferDone := true, calls := u.calls + 1 } with iaad := true }

/-- Reference: `_ehci.c_:918 scan_asynchronous_list`. -/
def scanQh (s : Ehci) (q : Unit64) : Ehci :=
  match (s.qh q).qtdList.foldl (scanQtd q) (none, s) with
  | (none, s) => s
  | (some v, s) => if (s.qh q).qtdList = [] then completeUtr s q v else s

/-- Reference: `_ehci.c_:904 scan_asynchronous_list`. -/
def scanAsynchronousList (s : Ehci) : Ehci := s.asyncList.foldl scanQh s

/-- Reference: `_ehci.c_:976 scan_periodic_frame_list`. -/
def scanIntQh (s : Ehci) (q : Unit64) : Ehci :=
  match (s.qh q).qtdList with
  | [] => s
  | t :: _ =>
    let s :=
      match visitQtd (s.qtd t) (s.utr (s.qtd t).utr) with
      | none => s
      | some u =>
        (s.setUtr (s.qtd t).utr fun _ => u).setQh q fun d => { d with qtdList := [], doneList := t :: d.doneList }
    match (s.qh q).doneList with
    | [] => s
    | t :: _ => if (s.qh q).qtdList = [] then completeUtr s q (s.qtd t).utr else s

/-- The queue heads of the periodic tree, in the order of their links. -/
def Ehci.periodicList (s : Ehci) : List Unit64 := (List.finRange NUM_IQH).reverse.flatMap s.iqh

/-- Reference: `_ehci.c_:963 scan_periodic_frame_list`. -/
def scanPeriodicFrameList (s : Ehci) : Ehci := s.periodicList.foldl scanIntQh s

/-- What the interrupt of a transfer does. Reference: `_ehci.c_:1106 EHCI_IRQHandler`. -/
def scanTransfers (s : Ehci) : Ehci := scanPeriodicFrameList (scanAsynchronousList s)

/-! ## Removal -/

/-- A queue head is taken out of its list, to be removed at the next doorbell. Reference: `_ehci.c_:324
move_qh_to_remove_list`. -/
def moveQhToRemoveList (s : Ehci) (qh : Unit64) : Ehci :=
  if qh ∈ s.removeList then s
  else if qh ∈ s.asyncList then
    { s with asyncList := s.asyncList.erase qh, removeList := qh :: s.removeList, iaad := true }
  else
    match (List.finRange NUM_IQH).reverse.find? fun k => qh ∈ s.iqh k with
    | some k =>
      { s with
        iqh := Function.update s.iqh k ((s.iqh k).erase qh), removeList := qh :: s.removeList, iaad := true }
    | none => s

/-- An endpoint's queue head, when it has one, goes, and the endpoint has none. Reference: `_ehci.c_:862
ehci_quit_xfer`. -/
def quitPipe (s : Ehci) (e : EpRef) : Ehci :=
  match s.hwPipe e with
  | none => s
  | some qh => (moveQhToRemoveList s qh).setPipe e none

/-- A transfer or an endpoint is cancelled, one that is not isochronous. Reference: `_ehci.c_:835 ehci_quit_xfer`. -/
def ehciQuitXfer (s : Ehci) (utr : Option Nat) (ep : Option EpRef) : Int × Ehci :=
  match utr with
  | none => (0, ep.elim s (quitPipe s))
  | some v =>
    if s.hwPipe (s.utr v).ep = none then (USBH_ERR_NOT_FOUND, s)
    else
      let s := quitPipe s (s.utr v).ep
      (0, ep.elim s (quitPipe s))

/-- The qTDs of the done list are freed. Reference: `_ehci.c_:1066 iaad_remove_qh`. -/
def freeDoneList (s : Ehci) (q : Unit64) : Ehci :=
  ((s.qh q).doneList.foldl Ehci.free s).setQh q fun d => { d with doneList := [] }

/-- A queue head of the remove list is freed with its qTDs; a transfer that is left ends. Reference: `_ehci.c_:1030
iaad_remove_qh`. -/
def removeQh (s : Ehci) (q : Unit64) : Ehci :=
  let s := freeDoneList s q
  let s :=
    match (s.qh q).qtdList with
    | [] => s
    | t :: rest =>
      let v := (s.qtd t).utr
      let s := ((t :: rest).foldl Ehci.free s).setQh q fun d => { d with qtdList := [] }
      s.setUtr v fun u => { u with status := USBH_ERR_ABORT, bIsTransferDone := true, calls := u.calls + 1 }
  s.free q

/-- Reference: `_ehci.c_:1020 iaad_remove_qh`. -/
def iaadRemoveQh (s : Ehci) : Ehci :=
  let s := s.removeList.foldl removeQh { s with removeList := [] }
  let s := s.asyncList.foldl freeDoneList s
  s.periodicList.foldl freeDoneList s

end NumakerMA35D1.UsbHost

import NumakerMA35D1.UsbHost.WriteQh
import NumakerMA35D1.UsbHost.Ohci

/-!
# Isochronous transfers of the EHCI driver

A frame of the periodic list is a word that links to the first descriptor of the frame, whose own first word
links to the next: the low bits of a link are its type and the end mark. A transfer request of high speed
becomes iTDs, each with its packets in micro-frames and the seven pages after its first packet; one of full
speed becomes siTDs, whose splits are moved to later micro-frames when they meet those of another. What
callbacks and reclamation do is not modelled.

Reference: `_ehci_iso.c_`, `ehci.h`.
-/

namespace NumakerMA35D1.UsbHost

/-- Reference: `ehci.h:24 FL_SIZE`. -/
abbrev FL_SIZE : Nat := 1024

/-- Reference: `config.h:67 EHCI_ISO_DELAY`. -/
def EHCI_ISO_DELAY : BitVec 32 := 2

/-! ## Links -/

/-- Reference: `ehci.h:166 ITD_HLNK_ITD`. -/
def itdHlnkItd (x : BitVec 32) : BitVec 32 := (x &&& ~~~0x1F#32) ||| 0x0#32

/-- Reference: `ehci.h:253 SITD_HLNK_SITD`. -/
def sitdHlnkSitd (x : BitVec 32) : BitVec 32 := (x &&& ~~~0x1F#32) ||| 0x4#32

/-- Reference: `ehci.h:255 SITD_PTR`. -/
def sitdPtr (x : BitVec 32) : BitVec 32 := x &&& ~~~0x1F#32

/-- Reference: `ehci.h:257 HLINK_IS_TERMINATED`. -/
def hlinkIsTerminated (x : BitVec 32) : Bool := x.getLsbD 0

/-- Reference: `ehci.h:258 HLINK_IS_SITD`. -/
def hlinkIsSitd (x : BitVec 32) : Bool := x &&& 0x6#32 = 0x4#32

/-! ## Descriptors -/

/-- A descriptor of high speed, but for its link. Reference: `ehci.h:146 iTD_T`. -/
structure ITd extends Itd where
  transaction : Fin 8 → BitVec 32
  buffBase : BitVec 32
  fidx : Nat
  transMask : BitVec 8
  schedFrnidx : Nat

/-- A descriptor of full speed, but for its link. Reference: `ehci.h:205 siTD_T`. -/
structure SiTd where
  chrst : BitVec 32
  sched : BitVec 32
  stsCtrl : BitVec 32
  bptr0 : BitVec 32
  bptr1 : BitVec 32
  backLink : BitVec 32
  fidx : Nat
  schedFrnidx : Nat

/-- Reference: `ehci.h:262 ISO_EP_T`. -/
structure IsoEp where
  nextFrame : Nat
  itdList : List (BitVec 32)
  sitdList : List (BitVec 32)

/-- The periodic list and its descriptors by address, the pool at `base` that they are from, the endpoint's
record (none while `hw_pipe` is NULL), the frame index register and the enable bit of the schedule. -/
structure EhciIso where
  pool : MemPool
  base : BitVec 32
  link : BitVec 32 → BitVec 32
  itd : BitVec 32 → ITd
  sitd : BitVec 32 → SiTd
  /-- Reference: `_ehci.c_ _PFList`. -/
  pfList : Nat → BitVec 32
  isoEp : Option IsoEp
  ufindr : BitVec 32
  psen : Bool

/-! ## High speed -/

/-- Reference: `ehci.h:176 ITD_STATUS_ACTIVE`. -/
def ITD_STATUS_ACTIVE : BitVec 32 := 0x80000000#32

/-- Reference: `ehci.h:183 ITD_IOC`. -/
def ITD_IOC : BitVec 32 := 1#32 <<< 15

/-- The word of a micro-frame with the packet at `buffAddr` of `xlen` bytes. Reference:
`_ehci_iso.c_:341 write_itd_micro_frame`. -/
def writeItdMicroFrame (buffBase buffAddr : BitVec 32) (xlen : BitVec 16) : BitVec 32 :=
  ITD_STATUS_ACTIVE ||| ((xlen.setWidth 32 &&& 0xFFF#32) <<< 16) |||
    ((buffAddr &&& 0xFFFFF000#32) - (buffBase &&& 0xFFFFF000#32)) ||| (buffAddr &&& 0xFFF#32)

/-- The micro-frames of an iTD, the number of iTDs and the frames from one to the next.
Reference: `_ehci_iso.c_:451` to `:492`. -/
def itdPlan (bInterval : BitVec 8) : BitVec 8 × Nat × Nat :=
  if bInterval.toNat < 2 then (0xFF#8, 1, 1)
  else if bInterval.toNat < 4 then (0x55#8, 2, 1)
  else if bInterval.toNat < 8 then (0x44#8, 4, 1)
  else if bInterval.toNat < 16 then (0x08#8, 8, 1)
  else if bInterval.toNat < 32 then (0x10#8, 8, 2)
  else if bInterval.toNat < 64 then (0x02#8, 8, 4)
  else (0x04#8, 8, 8)

/-- The packets of a UTR from `fidx` on into the micro-frames of an iTD, up to the last packet.
Reference: `_ehci_iso.c_:535` to `:553`. -/
def settle (u : Utr) (buffBase : BitVec 32) (transMask : BitVec 8) :
    List (Fin 8) → Nat → (Fin 8 → BitVec 32) → Nat × (Fin 8 → BitVec 32)
  | [], fidx, t => (fidx, t)
  | i :: is, fidx, t =>
    if !transMask.getLsbD i then settle u buffBase transMask is fidx (Function.update t i 0#32)
    else
      let word := writeItdMicroFrame buffBase (u.isoBuff (Fin.ofNat IF_PER_UTR fidx))
        (u.isoXlen (Fin.ofNat IF_PER_UTR fidx))
      if fidx + 1 = IF_PER_UTR then (fidx + 1, Function.update t i (word ||| ITD_IOC))
      else settle u buffBase transMask is (fidx + 1) (Function.update t i word)

/-- An iTD with the packets from `fidx` on, and the number of the next packet.
Reference: `_ehci_iso.c_:528` to `:553`. -/
def fillItd (udev : Udev) (ep : EpInfo) (u : Utr) (transMask : BitVec 8) (fidx frame : Nat) : Nat × ITd :=
  let buffBase := u.isoBuff (Fin.ofNat IF_PER_UTR fidx)
  let (next, transaction) := settle u buffBase transMask (List.finRange 8) fidx fun _ => 0#32
  (next, { writeItdInfo udev ep buffBase with
    transaction, buffBase, fidx, transMask, schedFrnidx := frame })

namespace EhciIso

/-- Reference: `_ehci_iso.c_:420`. -/
def startFrame (s : EhciIso) : Nat :=
  ((((s.ufindr + EHCI_ISO_DELAY * 8#32) &&& 0x3FFF#32) >>> 3) &&& 0x3FF#32).toNat

/-- Descriptors of one kind, the last one taken first; none, and all given back, when one of them cannot be
had. Reference: `_ehci_iso.c_:494` to `:509`. -/
def allocAll (s : EhciIso) (kind : DescKind) : Nat → List (BitVec 32) → Option (List (BitVec 32)) × EhciIso
  | 0, l => (some l, s)
  | n + 1, l =>
    match s.pool.alloc kind with
    | (some i, pool) => allocAll { s with pool } kind n (MemPool.unitAddr s.base i :: l)
    | (none, pool) => (none, { s with pool := l.foldl (fun p a => p.release s.base a kind) pool })

/-- An iTD at an address is linked into its frame and its endpoint.
Reference: `_ehci_iso.c_:562` to `:566`. -/
def linkItd (s : EhciIso) (iso : IsoEp) (a : BitVec 32) (itd : ITd) (interval : Nat) : EhciIso :=
  { s with
    itd := Function.update s.itd a itd
    link := Function.update s.link a (s.pfList itd.schedFrnidx)
    pfList := Function.update s.pfList itd.schedFrnidx (itdHlnkItd a)
    isoEp := some { iso with
      itdList := iso.itdList ++ [a], nextFrame := (iso.nextFrame + interval) % FL_SIZE } }

/-- The loop over the iTDs of a UTR; false where packets run out. Then those from the head of the list are freed, which
are those that have been linked: linking one ends the list behind it. Reference: `_ehci_iso.c_:520` to `:570`. -/
def fillItds (udev : Udev) (ep : EpInfo) (u : Utr) (transMask : BitVec 8) (interval : Nat) :
    List (BitVec 32) → List (BitVec 32) → Nat → IsoEp → EhciIso → Bool × EhciIso
  | _, [], _, _, s => (true, s)
  | linked, a :: l, fidx, iso, s =>
    if fidx ≥ IF_PER_UTR then
      (false, { s with pool := linked.foldl (fun p a => p.release s.base a .iTD) s.pool })
    else
      let (next, itd) := fillItd udev ep u transMask fidx iso.nextFrame
      let s := s.linkItd iso a itd interval
      fillItds udev ep u transMask interval (linked ++ [a]) l next
        { iso with itdList := iso.itdList ++ [a], nextFrame := (iso.nextFrame + interval) % FL_SIZE } s

/-- The part of a transfer of high speed, with the addresses of its iTDs. The packets do not run out.
Reference: `_ehci_iso.c_:451` to `:584 ehci_iso_xfer`. -/
def highXfer (s : EhciIso) (udev : Udev) (ep : EpInfo) (u : Utr) (iso : IsoEp) :
    Int × List (BitVec 32) × Utr × EhciIso :=
  let (transMask, itdCnt, interval) := itdPlan ep.bInterval
  match s.allocAll .iTD itdCnt [] with
  | (none, s) => (USBH_ERR_MEMORY_OUT, [], u, s)
  | (some l, s) =>
    let u := { u with tdCnt := itdCnt, isoSf := BitVec.ofNat 16 iso.nextFrame }
    match fillItds udev ep u transMask interval [] l 0 iso s with
    | (false, s) => (USBH_ERR_MEMORY_OUT, [], u, s)
    | (true, s) => (0, l, u, { s with psen := true })

end EhciIso

/-! ## Full speed -/

/-- Reference: `ehci.h:223 SITD_LIST_END`. -/
def SITD_LIST_END : BitVec 32 := 0x1#32

/-- Reference: `ehci.h:226 SITD_XFER_IN`. -/
def SITD_XFER_IN : BitVec 32 := 1#32 <<< 31

/-- Reference: `ehci.h:234 SITD_IOC`. -/
def SITD_IOC : BitVec 32 := 1#32 <<< 31

/-- Reference: `ehci.h:239 SITD_STATUS_ACTIVE`. -/
def SITD_STATUS_ACTIVE : BitVec 32 := 0x80#32

/-- Reference: `_ehci_iso.c_:15 sitd_OUT_Smask`. -/
def sitdOutSmask : List (BitVec 32) := [0x01#32, 0x03#32, 0x07#32, 0x0F#32, 0x1F#32, 0x3F#32]

/-- The start-splits that a packet needs. Reference: `_ehci_iso.c_:626`. -/
def splitCount (xlen : BitVec 16) : Nat := (xlen.toNat + 187) / 188

/-- The splits of a packet before they are moved; none where the table of masks is read outside, or one is
shifted out of its word. Reference: `_ehci_iso.c_:628` to `:644`. -/
def sitdSched (dirIn : Bool) (scnt : Nat) : Option (BitVec 32) :=
  if dirIn then
    if scnt + 2 < 32 then some ((((1#32 <<< (scnt + 2)) - 1#32) <<< 10) ||| 0x1#32) else none
  else if scnt = 0 then none else sitdOutSmask[scnt - 1]?

/-- The descriptor of packet `fidx`, none where its schedule is. `hub` is the parent of the device.
Reference: `_ehci_iso.c_:609 write_sitd_info`. -/
def writeSitdInfo (udev : Udev) (hub : UdevInfo) (ep : EpInfo) (u : Utr) (fidx : Fin IF_PER_UTR) :
    Option SiTd :=
  let dirIn := decide (ep.bEndpointAddress &&& 0x80#8 = 0x80#8)
  let xlen := (u.isoXlen fidx).setWidth 32
  let scnt := splitCount (u.isoXlen fidx)
  let chrst := (udev.portNum.setWidth 32 <<< 24) ||| (hub.devNum.setWidth 32 <<< 16) |||
    ((ep.bEndpointAddress &&& 0x0F#8).setWidth 32 <<< 8) ||| udev.devNum.setWidth 32
  let page := (u.isoBuff fidx &&& 0xFFFFF000#32) + 0x1000#32
  (sitdSched dirIn scnt).map fun sched =>
    { chrst := if dirIn then chrst ||| SITD_XFER_IN else chrst
      sched := if fidx.val = IF_PER_UTR then sched ||| SITD_IOC else sched
      stsCtrl := (xlen <<< 16) ||| SITD_STATUS_ACTIVE
      bptr0 := u.isoBuff fidx
      bptr1 := if dirIn then page
        else (if scnt > 1 then page ||| (1#32 <<< 3) else page) ||| BitVec.ofNat 32 scnt
      backLink := SITD_LIST_END
      fidx := fidx
      schedFrnidx := 0 }

/-- The micro-frames of the siTDs that the walk along the links comes to, but for the one at `a`; none where
the rounds run out. A link behind the first loses its low bits. Reference: `_ehci_iso.c_:662` to `:678`. -/
def EhciIso.uframeMask (s : EhciIso) (a : BitVec 32) : (rounds : Nat) → BitVec 32 → BitVec 32 →
    Option (BitVec 32)
  | 0, _, _ => none
  | rounds + 1, hlink, mask =>
    if hlink ≠ 0#32 ∧ hlinkIsTerminated hlink = false ∧ hlinkIsSitd hlink = true then
      let p := sitdPtr hlink
      let mask :=
        if p = a then mask
        else if (s.sitd p).chrst &&& (1#32 <<< 31) = SITD_XFER_IN then
          mask ||| ((s.sitd p).sched &&& 0xFF#32) ||| (((s.sitd p).sched >>> 8) &&& 0xFF#32)
        else mask ||| ((s.sitd p).sched &&& 0xFF#32)
      s.uframeMask a rounds (sitdPtr (s.link p)) mask
    else some mask

/-- The splits moved on by a micro-frame until they miss the mask; none where the rounds run out.
Reference: `_ehci_iso.c_:687` to `:697`. -/
def shiftSched (mask : BitVec 32) : (rounds : Nat) → BitVec 32 → Option (BitVec 32)
  | 0, _ => none
  | rounds + 1, sched =>
    if sched &&& mask ≠ 0#32 then
      shiftSched mask rounds ((sched &&& 0xFFFF0000#32) ||| ((sched <<< 1) &&& 0xFFFF#32))
    else some sched

/-- The schedule of the siTD `new` at `a`. Reference: `_ehci_iso.c_:657 ehci_sitd_adjust_schedule`. -/
def EhciIso.ehciSitdAdjustSchedule (s : EhciIso) (rounds : Nat) (a : BitVec 32) (new : SiTd) :
    Option SiTd :=
  (s.uframeMask a rounds (s.pfList new.schedFrnidx) 0#32).bind fun mask =>
    let mask := mask ||| (mask <<< 8)
    if mask ≠ 0#32 then (shiftSched mask rounds new.sched).map fun sched => { new with sched }
    else some new

namespace EhciIso

/-- A siTD at an address is linked into its frame and its endpoint.
Reference: `_ehci_iso.c_:765` to `:769`. -/
def linkSitd (s : EhciIso) (iso : IsoEp) (a : BitVec 32) (sitd : SiTd) : EhciIso :=
  { s with
    sitd := Function.update s.sitd a sitd
    link := Function.update s.link a (s.pfList sitd.schedFrnidx)
    pfList := Function.update s.pfList sitd.schedFrnidx (sitdHlnkSitd a)
    isoEp := some iso }

/-- The loop over the siTDs of a UTR, one for each packet. Reference: `_ehci_iso.c_:744` to `:773`. -/
def fillSitds (udev : Udev) (hub : UdevInfo) (ep : EpInfo) (u : Utr) (rounds : Nat) :
    List (BitVec 32) → Nat → IsoEp → EhciIso → Option EhciIso
  | [], _, _, s => some s
  | a :: l, fidx, iso, s =>
    (writeSitdInfo udev hub ep u (Fin.ofNat IF_PER_UTR fidx)).bind fun sitd =>
    (s.ehciSitdAdjustSchedule rounds a { sitd with schedFrnidx := iso.nextFrame }).bind fun sitd =>
    let iso := { iso with
      sitdList := iso.sitdList ++ [a], nextFrame := (iso.nextFrame + ep.bInterval.toNat) % FL_SIZE }
    fillSitds udev hub ep u rounds l (fidx + 1) iso (s.linkSitd iso a sitd)

/-- Reference: `_ehci_iso.c_:702 ehci_iso_split_xfer`. -/
def ehciIsoSplitXfer (s : EhciIso) (udev : Udev) (ep : EpInfo) (u : Utr) (rounds : Nat) (iso : IsoEp) :
    Option (Int × List (BitVec 32) × Utr × EhciIso) :=
  match udev.parents with
  | [] => some (USBH_ERR_INVALID_PARAM, [], u, s)
  | hub :: _ =>
    match s.allocAll .siTD IF_PER_UTR [] with
    | (none, s) => some (USBH_ERR_MEMORY_OUT, [], u, s)
    | (some l, s) =>
      let u := { u with tdCnt := IF_PER_UTR, isoSf := BitVec.ofNat 16 iso.nextFrame }
      (fillSitds udev hub ep u rounds l 0 iso s).map fun s => (0, l, u, { s with psen := true })

/-- The record of an endpoint's first transfer, or the one it has; none when it cannot be had.
Reference: `_ehci_iso.c_:414` to `:442`. -/
def isoEpOf (s : EhciIso) (u : Utr) (memory : Bool) : Option IsoEp :=
  match s.isoEp with
  | some iso => some (if u.bIsoNewSched then { iso with nextFrame := s.startFrame } else iso)
  | none => if memory then some ⟨s.startFrame, [], []⟩ else none

/-- The result, the addresses of the descriptors taken, the UTR and the state. `memory` says whether there
is room for the record of the endpoint. Reference: `_ehci_iso.c_:405 ehci_iso_xfer`. -/
def ehciIsoXfer (s : EhciIso) (udev : Udev) (ep : EpInfo) (u : Utr) (rounds : Nat) (memory : Bool) :
    Option (Int × List (BitVec 32) × Utr × EhciIso) :=
  match s.isoEpOf u memory with
  | none => some (USBH_ERR_MEMORY_OUT, [], u, s)
  | some iso =>
    let s := { s with isoEp := some iso }
    if udev.speed = .FULL then s.ehciIsoSplitXfer udev ep u rounds iso
    else some (s.highXfer udev ep u iso)

end EhciIso

end NumakerMA35D1.UsbHost

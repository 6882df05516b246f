import Mathlib
import NumakerMA35D1.Gmac.DrvGmac
import NumakerMA35D1.Lib.Placed
import NumakerMA35D1.Lib.Run

/-!
# Where the frames are

The driver, its interrupt handler and the DMA take steps in any order. In every run whose steps are
`Safe` every receive frame is in the ring or with one live pbuf, and what the copy of a frame to send
writes lies in one transmit frame that the DMA does not own; a further step is right exactly when it
is safe (`gmacFrames_run`).
-/

namespace NumakerMA35D1.Gmac

open Embedded

/-! ## Steps -/

/-- What can happen: the DMA finishes a descriptor with a status, the network stack receives with a
pbuf of the pool or without, frees a pbuf or sends a chain, the transmission tries once more, and the
interrupt handler takes back a transmitted frame's descriptor or, with the transmitter stopped, all of
them from the DMA. -/
inductive Label
  | dmaReceive (i : Nat) (status : BitVec 32)
  | rx (myPbuf : Option Nat)
  | pbufFree (p : Nat)
  | txCopy (p : List Pbuf)
  | txTry
  | dmaTransmit (i : Nat) (status : BitVec 32)
  | transmitOver
  | txStopped

/-- A descriptor with another status. -/
def DmaDesc.withStatus (desc : DmaDesc) (status : BitVec 32) : DmaDesc := { desc with status }

/-- The steps. The DMA writes the status of a descriptor that it owns, gives it back by that and
leaves its mark; the pool gives a pbuf that is not in use; only a live pbuf is freed. -/
inductive Step (s : NuGmac) : Label → NuGmac → Prop
  | dmaReceive {i : Nat} {status : BitVec 32} (hi : i < RECEIVE_DESC_SIZE)
      (hown : synopGMACIsDescOwnedByDma (s.gmacdev.RxDesc i) = true)
      (hstatus : status &&& DescOwnByDma = 0#32) :
    Step s (.dmaReceive i status)
      { s with gmacdev := { s.gmacdev with
          RxDesc := Function.update s.gmacdev.RxDesc i
            ((s.gmacdev.RxDesc i).withStatus status) } }
  | rx {myPbuf : Option Nat} (hfree : ∀ e, myPbuf = some e → s.memp_rx_pool e = none) :
    Step s (.rx myPbuf) (nuGmacRx s myPbuf).1
  | pbufFree {p : Nat} {myBuf : NuGmacLwipPbuf} (hbuf : s.memp_rx_pool p = some myBuf)
      (hlive : myBuf.p.isSome) :
    Step s (.pbufFree p) (nuGmacPbufFree s p myBuf)
  | txCopy {p : List Pbuf} (hidle : s.xmit = none) : Step s (.txCopy p) (nuGmacTx s p)
  | txTry {xmit : Xmit} (hxmit : s.xmit = some xmit) : Step s .txTry (synopGMACXmitTry s xmit).1
  | dmaTransmit {i : Nat} {status : BitVec 32} (hi : i < TRANSMIT_DESC_SIZE)
      (hown : synopGMACIsDescOwnedByDma (s.gmacdev.TxDesc i) = true)
      (hstatus : status &&& DescOwnByDma = 0#32)
      (hlast : status &&& TxDescEndOfRing = (s.gmacdev.TxDesc i).status &&& TxDescEndOfRing) :
    Step s (.dmaTransmit i status)
      { s with gmacdev := { s.gmacdev with
          TxDesc := Function.update s.gmacdev.TxDesc i
            ((s.gmacdev.TxDesc i).withStatus status) } }
  | transmitOver {gmacdev : SynopGMACdevice} (hget : synopGMACGetTxQptr s.gmacdev = some gmacdev) :
    Step s .transmitOver { s with gmacdev }
  | txStopped : Step s .txStopped { s with gmacdev := synopGMACTakeDescOwnershipTx s.gmacdev }

/-! ## What is right -/

/-- A receive frame's buffer can be in the ring or with a pbuf. -/
inductive Place
  | ring (i : Nat)
  | pbuf (p : Nat)

/-- The frame at a place: in a descriptor that is in use, or with a live pbuf. -/
def NuGmac.content (s : NuGmac) : Place → Option Nat
  | .ring i =>
    if i < RECEIVE_DESC_SIZE ∧ synopGMACIsDescEmpty (s.gmacdev.RxDesc i) = false then
      (s.gmacdev.RxDesc i).buffer1
    else none
  | .pbuf p => (s.memp_rx_pool p).bind fun myBuf => myBuf.p.bind fun _ => myBuf.psPktFrameDataBuf

/-- Every receive frame's buffer is in the ring or with one live pbuf, and not twice. -/
def FramesPlaced (s : NuGmac) : Prop := Placed s.content {k | k < RECEIVE_DESC_SIZE}

/-- The DMA owns a transmit frame's buffer. -/
def TxOwned (s : NuGmac) (frame : Nat) : Prop :=
  ∃ i < TRANSMIT_DESC_SIZE, synopGMACIsDescOwnedByDma (s.gmacdev.TxDesc i) = true ∧
    (s.gmacdev.TxDesc i).buffer1 = some frame

/-- An address lies in a transmit frame. -/
def InFrame (frame addr : Nat) : Prop :=
  frame * PKT_FRAME_BUF_SIZE ≤ addr ∧ addr < frame * PKT_FRAME_BUF_SIZE + PKT_FRAME_BUF_SIZE

/-- What a step writes into transmit frames lies in the next one, and the DMA does not own that. -/
def WritesRight (s : NuGmac) : Label → Prop
  | .txCopy p =>
    ∀ w ∈ nuGmacTxWrites s p, InFrame s.gmacdev.TxNext w.1 ∧ ¬ TxOwned s s.gmacdev.TxNext
  | _ => True

/-- The length of a chain. -/
def totLen (p : List Pbuf) : Nat := (p.map fun q => q.payload.length).sum

/-- A received frame is whole and without error, is longer than its checksum and no longer than a
buffer, and the pool has a pbuf for it. -/
def Whole (status : BitVec 32) (myPbuf : Option Nat) : Prop :=
  synopGMACIsRxDescValid status = true ∧ 4 < (synopGMACGetRxDescFrameLength status).toNat ∧
    (synopGMACGetRxDescFrameLength status).toNat ≤ 4 + PKT_FRAME_BUF_SIZE ∧ myPbuf.isSome

/-- A frame that the driver takes from the ring is `Whole`; a chain to send is empty, or it fits a
buffer and the next descriptor is not the DMA's. -/
def Safe (s : NuGmac) : Label → Prop
  | .rx myPbuf =>
    synopGMACIsDescOwnedByDma (s.gmacdev.RxDesc s.gmacdev.RxBusy) = false →
    synopGMACIsDescEmpty (s.gmacdev.RxDesc s.gmacdev.RxBusy) = false →
      Whole (s.gmacdev.RxDesc s.gmacdev.RxBusy).status myPbuf
  | .txCopy p =>
    totLen p = 0 ∨ totLen p ≤ PKT_FRAME_BUF_SIZE ∧
      synopGMACIsDescOwnedByDma (s.gmacdev.TxDesc s.gmacdev.TxNext) = false
  | _ => True

/-! ## The invariant -/

/-- The receive ring: both indices are in it, only the last descriptor is marked, and a descriptor in
use has one of the frames. -/
structure RxRing (g : SynopGMACdevice) : Prop where
  busy : g.RxBusy < RECEIVE_DESC_SIZE
  next : g.RxNext < RECEIVE_DESC_SIZE
  last : ∀ {i}, i < RECEIVE_DESC_SIZE →
    synopGMACIsLastRxDesc (g.RxDesc i) = decide (i = RECEIVE_DESC_SIZE - 1)
  frame : ∀ {i}, i < RECEIVE_DESC_SIZE → synopGMACIsDescEmpty (g.RxDesc i) = false →
    ∃ k < RECEIVE_DESC_SIZE, (g.RxDesc i).buffer1 = some k

/-- The transmit ring: both indices are in it, only the last descriptor is marked, and a descriptor
that the DMA owns has its own frame. -/
structure TxRing (g : SynopGMACdevice) : Prop where
  busy : g.TxBusy < TRANSMIT_DESC_SIZE
  next : g.TxNext < TRANSMIT_DESC_SIZE
  last : ∀ {i}, i < TRANSMIT_DESC_SIZE →
    synopGMACIsLastTxDesc (g.TxDesc i) = decide (i = TRANSMIT_DESC_SIZE - 1)
  frame : ∀ {i}, i < TRANSMIT_DESC_SIZE → synopGMACIsDescOwnedByDma (g.TxDesc i) = true →
    (g.TxDesc i).buffer1 = some i

/-- What holds after every run of safe steps. -/
structure FrameInv (s : NuGmac) : Prop where
  rx : RxRing s.gmacdev
  tx : TxRing s.gmacdev
  pbufs : ∀ {p myBuf}, s.memp_rx_pool p = some myBuf → myBuf.p.isSome →
    ∃ k < RECEIVE_DESC_SIZE, myBuf.psPktFrameDataBuf = some k
  xmit : ∀ {x}, s.xmit = some x → x.pktData = s.gmacdev.TxNext
  placed : FramesPlaced s

section
variable {s s' : NuGmac} {g : SynopGMACdevice} {n i : Nat}

/-- The index after one of the ring is in the ring. -/
theorem next_lt {last : Bool} (hi : i < n) (h : last = decide (i = n - 1)) :
    (if last then 0 else i + 1) < n := by
  subst h
  by_cases hlast : i = n - 1
  · rw [if_pos (decide_eq_true hlast)]
    omega
  · rw [if_neg (by simpa using hlast)]
    omega

/-- One receive descriptor changed to one with the same mark. -/
theorem RxRing.update (h : RxRing g) {desc : DmaDesc} {busy next : Nat} (hi : i < RECEIVE_DESC_SIZE)
    (hlast : synopGMACIsLastRxDesc desc = synopGMACIsLastRxDesc (g.RxDesc i))
    (hframe : synopGMACIsDescEmpty desc = false → ∃ k < RECEIVE_DESC_SIZE, desc.buffer1 = some k)
    (hbusy : busy < RECEIVE_DESC_SIZE) (hnext : next < RECEIVE_DESC_SIZE) :
    RxRing { g with
      RxDesc := Function.update g.RxDesc i desc, RxBusy := busy, RxNext := next } where
  busy := hbusy
  next := hnext
  last {j} hj := by
    simp only [Function.update_apply]
    by_cases hij : j = i
    · rw [if_pos hij, hlast, h.last hi, hij]
    · rw [if_neg hij, h.last hj]
  frame {j} hj := by
    simp only [Function.update_apply]
    by_cases hij : j = i
    · rw [if_pos hij]
      exact hframe
    · rw [if_neg hij]
      exact h.frame hj

/-- One transmit descriptor changed to one with the same mark. -/
theorem TxRing.update (h : TxRing g) {desc : DmaDesc} {busy next : Nat}
    (hi : i < TRANSMIT_DESC_SIZE)
    (hlast : synopGMACIsLastTxDesc desc = synopGMACIsLastTxDesc (g.TxDesc i))
    (hframe : synopGMACIsDescOwnedByDma desc = true → desc.buffer1 = some i)
    (hbusy : busy < TRANSMIT_DESC_SIZE) (hnext : next < TRANSMIT_DESC_SIZE) :
    TxRing { g with
      TxDesc := Function.update g.TxDesc i desc, TxBusy := busy, TxNext := next } where
  busy := hbusy
  next := hnext
  last {j} hj := by
    simp only [Function.update_apply]
    by_cases hij : j = i
    · rw [if_pos hij, hlast, h.last hi, hij]
    · rw [if_neg hij, h.last hj]
  frame {j} hj := by
    simp only [Function.update_apply]
    by_cases hij : j = i
    · rw [if_pos hij, hij]
      exact hframe
    · rw [if_neg hij]
      exact h.frame hj

/-- The transmit ring does not depend on the other. -/
theorem TxRing.of_eq (h : TxRing g) {g' : SynopGMACdevice} (hdesc : g'.TxDesc = g.TxDesc)
    (hbusy : g'.TxBusy = g.TxBusy) (hnext : g'.TxNext = g.TxNext) : TxRing g' where
  busy := hbusy ▸ h.busy
  next := hnext ▸ h.next
  last hi := by
    rw [hdesc]
    exact h.last hi
  frame hi := by
    rw [hdesc]
    exact h.frame hi

/-- The receive ring does not depend on the other. -/
theorem RxRing.of_eq (h : RxRing g) {g' : SynopGMACdevice} (hdesc : g'.RxDesc = g.RxDesc)
    (hbusy : g'.RxBusy = g.RxBusy) (hnext : g'.RxNext = g.RxNext) : RxRing g' where
  busy := hbusy ▸ h.busy
  next := hnext ▸ h.next
  last hi := by
    rw [hdesc]
    exact h.last hi
  frame hi := by
    rw [hdesc]
    exact h.frame hi

/-- The DMA owns the next frame exactly when it owns the next descriptor. -/
theorem TxRing.txOwned_iff (h : TxRing s.gmacdev) :
    TxOwned s s.gmacdev.TxNext ↔
      synopGMACIsDescOwnedByDma (s.gmacdev.TxDesc s.gmacdev.TxNext) = true := by
  constructor
  · rintro ⟨i, hi, hown, hframe⟩
    have heq : s.gmacdev.TxNext = i := Option.some.inj (hframe.symm.trans (h.frame hi hown))
    rw [heq]
    exact hown
  · intro hown
    exact ⟨_, h.next, hown, h.frame h.next hown⟩

/-- Steps that leave the receive ring and the pool keep where the frames are. -/
theorem FramesPlaced.of_eq (h : FramesPlaced s) (hdesc : s'.gmacdev.RxDesc = s.gmacdev.RxDesc)
    (hpool : s'.memp_rx_pool = s.memp_rx_pool) : FramesPlaced s' := by
  refine Placed.congr h fun p => ?_
  cases p with
  | ring i => simp only [NuGmac.content, hdesc]
  | pbuf p => simp only [NuGmac.content, hpool]

/-- Steps of the transmitter keep the invariant if they keep the transmit ring. -/
theorem FrameInv.of_tx (h : FrameInv s) (hdesc : s'.gmacdev.RxDesc = s.gmacdev.RxDesc)
    (hbusy : s'.gmacdev.RxBusy = s.gmacdev.RxBusy) (hnext : s'.gmacdev.RxNext = s.gmacdev.RxNext)
    (hpool : s'.memp_rx_pool = s.memp_rx_pool) (htx : TxRing s'.gmacdev)
    (hxmit : ∀ {x}, s'.xmit = some x → x.pktData = s'.gmacdev.TxNext) : FrameInv s' where
  rx := h.rx.of_eq hdesc hbusy hnext
  tx := htx
  pbufs := by
    rw [hpool]
    exact h.pbufs
  xmit := hxmit
  placed := h.placed.of_eq hdesc hpool

/-! ## Setting up -/

/-- The receive ring with the first frames in it. -/
def filled (count : Nat) : SynopGMACdevice :=
  { synopGMACSetupDescQueue with
    RxDesc := fun i =>
      if i < count then
        rxFilled (synopGMACRxDescInitRing (decide (i = RECEIVE_DESC_SIZE - 1))) (some i)
          (BitVec.ofNat 32 PKT_FRAME_BUF_SIZE)
      else synopGMACRxDescInitRing (decide (i = RECEIVE_DESC_SIZE - 1))
    RxNext := if count = RECEIVE_DESC_SIZE then 0 else count }

theorem setRxQptr_filled {count : Nat} (h : count < RECEIVE_DESC_SIZE) :
    synopGMACSetRxQptr (filled count) (some count) (BitVec.ofNat 32 PKT_FRAME_BUF_SIZE) =
      some (filled (count + 1)) := by
  have hnext : (filled count).RxNext = count := if_neg h.ne
  have hdesc : (filled count).RxDesc count =
      synopGMACRxDescInitRing (decide (count = RECEIVE_DESC_SIZE - 1)) := if_neg (lt_irrefl _)
  rw [synopGMACSetRxQptr, hnext]
  dsimp only
  rw [hdesc, if_pos (isDescEmpty_rxInit _), isLastRxDesc_rxFilled, isLastRxDesc_init]
  congr 1
  simp only [filled, SynopGMACdevice.mk.injEq, true_and]
  constructor
  · funext i
    simp only [Function.update_apply]
    rcases lt_trichotomy i count with hlt | rfl | hgt
    · rw [if_neg hlt.ne, if_pos hlt, if_pos (by omega)]
    · rw [if_pos rfl, if_pos (by omega)]
    · rw [if_neg hgt.ne', if_neg (by omega), if_neg (by omega)]
  · have hiff : (count = RECEIVE_DESC_SIZE - 1) ↔ count + 1 = RECEIVE_DESC_SIZE := by omega
    simp only [decide_eq_true_eq, hiff]

theorem setRxFrames_filled (n count : Nat) (h : count + n ≤ RECEIVE_DESC_SIZE) :
    setRxFrames (filled count) count n = filled (count + n) := by
  induction n generalizing count with
  | zero => rfl
  | succ n ih =>
    rw [setRxFrames, setRxQptr_filled (by omega)]
    dsimp only
    rw [ih (count + 1) (by omega), Nat.add_right_comm, Nat.add_assoc]

theorem filled_zero : filled 0 = synopGMACSetupDescQueue := by
  have hne : ¬ (0 = RECEIVE_DESC_SIZE) := by decide
  simp only [filled, Nat.not_lt_zero, if_false, if_neg hne]
  rfl

/-- A device set up has every frame in the ring, in order. -/
theorem nuGmacInit_gmacdev : nuGmacInit.gmacdev = filled RECEIVE_DESC_SIZE := by
  have h := setRxFrames_filled RECEIVE_DESC_SIZE 0 (by omega)
  rw [filled_zero, Nat.zero_add] at h
  simp only [nuGmacInit, h]

theorem filled_content {s : NuGmac} (h : s.gmacdev = filled RECEIVE_DESC_SIZE)
    (hi : i < RECEIVE_DESC_SIZE) : s.content (.ring i) = some i := by
  have hdesc : s.gmacdev.RxDesc i = rxFilled (synopGMACRxDescInitRing
      (decide (i = RECEIVE_DESC_SIZE - 1))) (some i) (BitVec.ofNat 32 PKT_FRAME_BUF_SIZE) := by
    rw [h]
    exact if_pos hi
  rw [NuGmac.content, if_pos ⟨hi, by rw [hdesc]; exact isDescEmpty_rxFilled _ _⟩, hdesc]
  rfl

/-- The invariant holds of a device set up. -/
theorem FrameInv.init : FrameInv nuGmacInit where
  rx := by
    rw [nuGmacInit_gmacdev]
    refine ⟨by decide, by decide, fun {i} hi => ?_, fun {i} hi _ => ⟨i, hi, ?_⟩⟩
    · rw [show (filled RECEIVE_DESC_SIZE).RxDesc i = _ from if_pos hi, isLastRxDesc_rxFilled,
        isLastRxDesc_init]
    · rw [show (filled RECEIVE_DESC_SIZE).RxDesc i = _ from if_pos hi]
      rfl
  tx := by
    rw [nuGmacInit_gmacdev]
    refine ⟨by decide, by decide, fun {i} _ => isLastTxDesc_init _, fun {i} _ hown => ?_⟩
    exact absurd hown (Bool.eq_false_iff.1 (isDescOwnedByDma_txInit _))
  pbufs := nofun
  xmit := nofun
  placed := by
    intro k hk
    refine ⟨.ring k, filled_content nuGmacInit_gmacdev hk, fun p hp => ?_⟩
    cases p with
    | ring i =>
      by_cases hi : i < RECEIVE_DESC_SIZE
      · rw [filled_content nuGmacInit_gmacdev hi] at hp
        rw [Option.some.inj hp]
      · rw [NuGmac.content, if_neg fun h => hi h.1] at hp
        cases hp
    | pbuf p => cases hp

/-! ## What the ring functions do -/

/-- A buffer put into the ring takes an empty descriptor. -/
theorem setRxQptr_eq {g' : SynopGMACdevice} {Buffer1 : Option Nat} {Length1 : BitVec 32}
    (h : synopGMACSetRxQptr g Buffer1 Length1 = some g') :
    synopGMACIsDescEmpty (g.RxDesc g.RxNext) = true ∧
      g' = { g with
        RxDesc := Function.update g.RxDesc g.RxNext
          (rxFilled (g.RxDesc g.RxNext) Buffer1 Length1)
        RxNext := if synopGMACIsLastRxDesc (g.RxDesc g.RxNext) then 0 else g.RxNext + 1 } := by
  rw [synopGMACSetRxQptr] at h
  dsimp only at h
  rw [isLastRxDesc_rxFilled] at h
  split at h
  · next hempty => exact ⟨hempty, (Option.some.inj h).symm⟩
  · cases h

/-- A frame given to the DMA takes an empty descriptor. -/
theorem setTxQptr_eq {g' : SynopGMACdevice} {Buffer1 : Option Nat} {Length1 : BitVec 32}
    {offloadNeeded : Bool} (h : synopGMACSetTxQptr g Buffer1 Length1 offloadNeeded = some g') :
    g' = { g with
      TxDesc := Function.update g.TxDesc g.TxNext
        (txFilled (g.TxDesc g.TxNext) Buffer1 Length1 offloadNeeded)
      TxNext := if synopGMACIsLastTxDesc (g.TxDesc g.TxNext) then 0 else g.TxNext + 1 } := by
  rw [synopGMACSetTxQptr] at h
  dsimp only at h
  rw [isLastTxDesc_txFilled] at h
  split at h
  · exact (Option.some.inj h).symm
  · cases h

theorem getTxQptr_eq {g' : SynopGMACdevice} (h : synopGMACGetTxQptr g = some g') :
    g' = { g with
      TxDesc := Function.update g.TxDesc g.TxBusy
        (synopGMACTxDescInitRing (synopGMACIsLastTxDesc (g.TxDesc g.TxBusy)))
      TxBusy := if synopGMACIsLastTxDesc (g.TxDesc g.TxBusy) then 0 else g.TxBusy + 1 } := by
  rw [synopGMACGetTxQptr] at h
  dsimp only at h
  split at h
  · cases h
  · split at h
    · cases h
    · exact (Option.some.inj h).symm

/-- The rings without the frame that is next to take. -/
def taken (g : SynopGMACdevice) : SynopGMACdevice :=
  { g with
    RxDesc := Function.update g.RxDesc g.RxBusy
      (synopGMACRxDescInitRing (synopGMACIsLastRxDesc (g.RxDesc g.RxBusy)))
    RxBusy := if synopGMACIsLastRxDesc (g.RxDesc g.RxBusy) then 0 else g.RxBusy + 1 }

theorem getRxQptr_eq :
    synopGMACGetRxQptr g =
      if synopGMACIsDescOwnedByDma (g.RxDesc g.RxBusy) = false ∧
        synopGMACIsDescEmpty (g.RxDesc g.RxBusy) = false then
        some (g.RxDesc g.RxBusy, taken g)
      else none := by
  rw [synopGMACGetRxQptr]
  dsimp only
  cases synopGMACIsDescOwnedByDma (g.RxDesc g.RxBusy) with
  | true => rfl
  | false => cases synopGMACIsDescEmpty (g.RxDesc g.RxBusy) <;> rfl

/-- A frame's length has fourteen bits. -/
theorem frameLength_lt (status : BitVec 32) :
    (synopGMACGetRxDescFrameLength status).toNat < 2 ^ 14 := by
  rw [synopGMACGetRxDescFrameLength, BitVec.toNat_ushiftRight, BitVec.toNat_and,
    Nat.shiftRight_eq_div_pow]
  have hle : status.toNat &&& DescFrameLengthMask.toNat ≤ DescFrameLengthMask.toNat :=
    Nat.and_le_right
  have hmask : DescFrameLengthMask.toNat = 0x3FFF0000 := rfl
  omega

/-- The length without the checksum, which is negative for a frame too short to have one. -/
theorem pktLen_toInt (status : BitVec 32) :
    (synopGMACGetRxDescFrameLength status - 4#32).toInt =
      (synopGMACGetRxDescFrameLength status).toNat - 4 := by
  have hlt := frameLength_lt status
  rw [BitVec.toInt_sub, BitVec.toInt_eq_toNat_of_lt (by omega)]
  have h4 : (4#32).toInt = 4 := by decide
  rw [h4, Int.bmod_def]
  omega

/-- Without a frame to take nothing changes. -/
theorem nuGmacRx_idle {myPbuf : Option Nat}
    (h : ¬ (synopGMACIsDescOwnedByDma (s.gmacdev.RxDesc s.gmacdev.RxBusy) = false ∧
      synopGMACIsDescEmpty (s.gmacdev.RxDesc s.gmacdev.RxBusy) = false)) :
    (nuGmacRx s myPbuf).1 = s := by
  rw [nuGmacRx, synopHandleReceivedData, getRxQptr_eq, if_neg h]
  rfl

/-- A frame that is taken leaves the ring. It goes to the pbuf when it is `Whole`; else there is no
live pbuf for it. -/
theorem nuGmacRx_taken {myPbuf : Option Nat}
    (hown : synopGMACIsDescOwnedByDma (s.gmacdev.RxDesc s.gmacdev.RxBusy) = false)
    (hempty : synopGMACIsDescEmpty (s.gmacdev.RxDesc s.gmacdev.RxBusy) = false) :
    ∃ pool, (nuGmacRx s myPbuf).1 =
        { s with gmacdev := taken s.gmacdev, memp_rx_pool := pool } ∧
      (Whole (s.gmacdev.RxDesc s.gmacdev.RxBusy).status myPbuf → ∃ e len, myPbuf = some e ∧
        pool = Function.update s.memp_rx_pool e
          (some ⟨(s.gmacdev.RxDesc s.gmacdev.RxBusy).buffer1, some len⟩)) ∧
      (¬ Whole (s.gmacdev.RxDesc s.gmacdev.RxBusy).status myPbuf → pool = s.memp_rx_pool ∨
        ∃ e b, myPbuf = some e ∧ pool = Function.update s.memp_rx_pool e (some ⟨b, none⟩)) := by
  have hlen := pktLen_toInt (s.gmacdev.RxDesc s.gmacdev.RxBusy).status
  have hlt := frameLength_lt (s.gmacdev.RxDesc s.gmacdev.RxBusy).status
  rw [nuGmacRx, synopHandleReceivedData, getRxQptr_eq, if_pos ⟨hown, hempty⟩]
  dsimp only
  rw [Whole]
  cases hvalid : synopGMACIsRxDescValid (s.gmacdev.RxDesc s.gmacdev.RxBusy).status with
  | false => exact ⟨s.memp_rx_pool, rfl, (fun h => nomatch h.1), fun _ => .inl rfl⟩
  | true =>
    rw [if_pos rfl]
    dsimp only
    rw [hlen]
    by_cases hpos : 4 < (synopGMACGetRxDescFrameLength
        (s.gmacdev.RxDesc s.gmacdev.RxBusy).status).toNat
    · rw [if_pos (by omega)]
      cases myPbuf with
      | none => exact ⟨s.memp_rx_pool, rfl, (fun h => nomatch h.2.2.2), fun _ => .inl rfl⟩
      | some e =>
        refine ⟨_, rfl, ?_, ?_⟩
        · rintro ⟨-, -, hle, -⟩
          have hroom : pbufAllocedCustom (BitVec.ofInt 16 ((synopGMACGetRxDescFrameLength
              (s.gmacdev.RxDesc s.gmacdev.RxBusy).status).toNat - 4))
              (BitVec.ofNat 16 PKT_FRAME_BUF_SIZE) = some _ := if_neg ?_
          · exact ⟨e, _, rfl, by rw [hroom]⟩
          · rw [BitVec.toNat_ofInt, BitVec.toNat_ofNat]
            have hsize : PKT_FRAME_BUF_SIZE = 1536 := rfl
            omega
        · intro hwhole
          have hfull : pbufAllocedCustom (BitVec.ofInt 16 ((synopGMACGetRxDescFrameLength
              (s.gmacdev.RxDesc s.gmacdev.RxBusy).status).toNat - 4))
              (BitVec.ofNat 16 PKT_FRAME_BUF_SIZE) = none := if_pos ?_
          · exact .inr ⟨e, _, rfl, by rw [hfull]⟩
          · rw [BitVec.toNat_ofInt, BitVec.toNat_ofNat]
            have hsize : PKT_FRAME_BUF_SIZE = 1536 := rfl
            have hgt : ¬ (synopGMACGetRxDescFrameLength
                (s.gmacdev.RxDesc s.gmacdev.RxBusy).status).toNat ≤ 4 + PKT_FRAME_BUF_SIZE :=
              fun hle => hwhole ⟨rfl, hpos, hle, rfl⟩
            omega
    · rw [if_neg (by omega)]
      exact ⟨s.memp_rx_pool, rfl, fun h => absurd h.2.1 hpos, fun _ => .inl rfl⟩

/-! ## Where a step puts a frame -/

/-- The frame at a place of the ring, when only one descriptor changed. -/
theorem content_ring_ne {j : Nat} {desc : DmaDesc} (hne : j ≠ i)
    (hdesc : s'.gmacdev.RxDesc = Function.update s.gmacdev.RxDesc i desc) :
    s'.content (.ring j) = s.content (.ring j) := by
  have heq : s'.gmacdev.RxDesc j = s.gmacdev.RxDesc j := by rw [hdesc, Function.update_of_ne hne]
  simp only [NuGmac.content, heq]

/-- A pbuf's frame, when only another pbuf changed. -/
theorem content_pbuf_ne {e e' : Nat} {myBuf : Option NuGmacLwipPbuf} (hne : e' ≠ e)
    (hpool : s'.memp_rx_pool = Function.update s.memp_rx_pool e myBuf) :
    s'.content (.pbuf e') = s.content (.pbuf e') := by
  have heq : s'.memp_rx_pool e' = s.memp_rx_pool e' := by rw [hpool, Function.update_of_ne hne]
  simp only [NuGmac.content, heq]

/-- An empty descriptor has no frame. -/
theorem content_ring_empty (h : synopGMACIsDescEmpty (s.gmacdev.RxDesc i) = true) :
    s.content (.ring i) = none := by
  rw [NuGmac.content, if_neg fun hin => Bool.eq_false_iff.1 hin.2 h]

/-- A descriptor in use has its frame. -/
theorem content_ring_used (hi : i < RECEIVE_DESC_SIZE)
    (h : synopGMACIsDescEmpty (s.gmacdev.RxDesc i) = false) :
    s.content (.ring i) = (s.gmacdev.RxDesc i).buffer1 := by
  rw [NuGmac.content, if_pos ⟨hi, h⟩]

/-- The ring without the frame taken has none there. -/
theorem content_taken (hdev : s'.gmacdev = taken s.gmacdev) :
    s'.content (.ring s.gmacdev.RxBusy) = none := by
  refine content_ring_empty ?_
  simp only [hdev, taken, Function.update_self]
  exact isDescEmpty_rxInit _

theorem RxRing.taken (h : RxRing g) : RxRing (taken g) := by
  refine h.update h.busy (isLastRxDesc_init _) (fun hin => ?_) (next_lt h.busy (h.last h.busy))
    h.next
  rw [isDescEmpty_rxInit] at hin
  cases hin

/-- A step of the receiver keeps the invariant exactly when the frame it takes, if there is one, is
`Whole`. -/
theorem FrameInv.rx_step (h : FrameInv s) {myPbuf : Option Nat}
    (hfree : ∀ e, myPbuf = some e → s.memp_rx_pool e = none) :
    (Safe s (.rx myPbuf) → FrameInv (nuGmacRx s myPbuf).1) ∧
      (¬ Safe s (.rx myPbuf) → ¬ FramesPlaced (nuGmacRx s myPbuf).1) := by
  by_cases htake : synopGMACIsDescOwnedByDma (s.gmacdev.RxDesc s.gmacdev.RxBusy) = false ∧
      synopGMACIsDescEmpty (s.gmacdev.RxDesc s.gmacdev.RxBusy) = false
  swap
  · rw [nuGmacRx_idle htake]
    exact ⟨fun _ => h, fun hunsafe => absurd (fun hown hempty => absurd ⟨hown, hempty⟩ htake) hunsafe⟩
  obtain ⟨hown, hempty⟩ := htake
  obtain ⟨pool, hs', hwhole, hlost⟩ := nuGmacRx_taken hown hempty
  obtain ⟨k, hk, hbuf⟩ := h.rx.frame h.rx.busy hempty
  have hfrom : s.content (.ring s.gmacdev.RxBusy) = some k :=
    (content_ring_used h.rx.busy hempty).trans hbuf
  have hto : ∀ {e}, myPbuf = some e → s.content (.pbuf e) = none := by
    intro e he
    rw [NuGmac.content, hfree e he]
    rfl
  rw [hs']
  constructor
  · intro hsafe
    obtain ⟨e, len, he, hpool⟩ := hwhole (hsafe hown hempty)
    subst hpool
    refine ⟨h.rx.taken, h.tx.of_eq rfl rfl rfl, fun {p myBuf} hp hlive => ?_, h.xmit, ?_⟩
    · simp only [Function.update_apply] at hp
      split at hp
      · cases hp
        exact ⟨k, hk, hbuf⟩
      · exact h.pbufs hp hlive
    · refine Placed.move h.placed hfrom (hto he) ?_ (content_taken rfl) fun p hp hq => ?_
      · simp only [NuGmac.content, Function.update_self]
        exact hbuf
      · cases p with
        | ring j => exact content_ring_ne (fun hj => hp (hj ▸ rfl)) rfl
        | pbuf e' => exact content_pbuf_ne (fun he' => hq (he' ▸ rfl)) rfl
  · intro hunsafe
    have hnot : ¬ Whole (s.gmacdev.RxDesc s.gmacdev.RxBusy).status myPbuf :=
      fun hwhole => hunsafe fun _ _ => hwhole
    refine Placed.not_of_dropped h.placed hk hfrom (content_taken rfl) fun p hp => ?_
    cases p with
    | ring j => exact content_ring_ne (fun hj => hp (hj ▸ rfl)) rfl
    | pbuf e' =>
      rcases hlost hnot with hpool | ⟨e, b, he, hpool⟩
      · subst hpool
        rfl
      · by_cases hee : e' = e
        · rw [hee, hto he]
          simp only [NuGmac.content, hpool, Function.update_self]
          rfl
        · exact content_pbuf_ne hee hpool

/-- A pbuf freed gives its buffer back to the ring. -/
theorem FrameInv.pbufFree_step (h : FrameInv s) {p : Nat} {myBuf : NuGmacLwipPbuf}
    (hbuf : s.memp_rx_pool p = some myBuf) (hlive : myBuf.p.isSome) :
    FrameInv (nuGmacPbufFree s p myBuf) := by
  rw [nuGmacPbufFree]
  split
  · exact h
  · next gmacdev hset =>
    obtain ⟨hempty, hdev⟩ := setRxQptr_eq hset
    obtain ⟨k, hk, hframe⟩ := h.pbufs hbuf hlive
    have hfrom : s.content (.pbuf p) = some k := by
      obtain ⟨len, hlen⟩ := Option.isSome_iff_exists.1 hlive
      simp only [NuGmac.content, hbuf, Option.bind_some, hlen]
      exact hframe
    have hused := isDescEmpty_rxFilled (s.gmacdev.RxDesc s.gmacdev.RxNext) myBuf.psPktFrameDataBuf
    subst hdev
    refine ⟨?_, h.tx.of_eq rfl rfl rfl, fun {e myBuf'} he hlive' => ?_, h.xmit, ?_⟩
    · exact h.rx.update h.rx.next (isLastRxDesc_rxFilled _ _ _) (fun _ => ⟨k, hk, hframe⟩) h.rx.busy
        (next_lt h.rx.next (h.rx.last h.rx.next))
    · simp only [Function.update_apply] at he
      split at he
      · cases he
      · exact h.pbufs he hlive'
    · refine Placed.move h.placed hfrom (content_ring_empty hempty) ?_ ?_ fun q hp hq => ?_
      · rw [content_ring_used h.rx.next]
        · simp only [Function.update_self]
          exact hframe
        · simp only [Function.update_self]
          exact hused
      · simp only [NuGmac.content, Function.update_self]
        rfl
      · cases q with
        | ring j => exact content_ring_ne (fun hj => hq (hj ▸ rfl)) rfl
        | pbuf e' => exact content_pbuf_ne (fun he' => hp (he' ▸ rfl)) rfl

/-- A finished descriptor keeps its frame and its place. -/
theorem FrameInv.dmaReceive_step (h : FrameInv s) {status : BitVec 32} (hi : i < RECEIVE_DESC_SIZE) :
    FrameInv { s with gmacdev := { s.gmacdev with
      RxDesc := Function.update s.gmacdev.RxDesc i ((s.gmacdev.RxDesc i).withStatus status) } } where
  rx := h.rx.update hi rfl (h.rx.frame hi) h.rx.busy h.rx.next
  tx := h.tx.of_eq rfl rfl rfl
  pbufs := h.pbufs
  xmit := h.xmit
  placed := by
    refine Placed.congr h.placed fun p => ?_
    cases p with
    | pbuf p => rfl
    | ring j =>
      by_cases hij : j = i
      · subst hij
        simp only [NuGmac.content, Function.update_self]
        rfl
      · exact content_ring_ne hij rfl

/-- A descriptor that the DMA has sent keeps its mark and is not the DMA's any more. -/
theorem TxRing.sent (h : TxRing g) {status : BitVec 32} (hi : i < TRANSMIT_DESC_SIZE)
    (hstatus : status &&& DescOwnByDma = 0#32)
    (hlast : status &&& TxDescEndOfRing = (g.TxDesc i).status &&& TxDescEndOfRing) :
    TxRing { g with TxDesc := Function.update g.TxDesc i ((g.TxDesc i).withStatus status) } := by
  refine h.update hi ?_ (fun hown => ?_) h.busy h.next
  · simp only [synopGMACIsLastTxDesc, DmaDesc.withStatus, hlast]
  · simp only [synopGMACIsDescOwnedByDma, DmaDesc.withStatus, hstatus] at hown
    cases hown

/-- Every descriptor taken from the DMA keeps its mark. -/
theorem TxRing.stopped (h : TxRing g) : TxRing (synopGMACTakeDescOwnershipTx g) := by
  refine ⟨h.busy, h.next, fun {i} hi => ?_, fun {i} hi hown => ?_⟩
  · have hmask : ~~~DescOwnByDma &&& TxDescEndOfRing = TxDescEndOfRing := by decide
    simp only [synopGMACTakeDescOwnershipTx, if_pos hi, synopGMACIsLastTxDesc, BitVec.and_assoc,
      hmask]
    exact h.last hi
  · have hmask : ~~~DescOwnByDma &&& DescOwnByDma = 0#32 := by decide
    simp only [synopGMACTakeDescOwnershipTx, if_pos hi, synopGMACIsDescOwnedByDma, BitVec.and_assoc,
      hmask, BitVec.and_zero] at hown
    cases hown

/-- A try to give the frame to the DMA: its descriptor has its own frame. -/
theorem FrameInv.xmitTry_step (h : FrameInv s) {xmit : Xmit} (hxmit : s.xmit = some xmit) :
    FrameInv (synopGMACXmitTry s xmit).1 := by
  rw [synopGMACXmitTry]
  split
  · next gmacdev hset =>
    have hdev := setTxQptr_eq hset
    subst hdev
    refine h.of_tx rfl rfl rfl rfl ?_ nofun
    refine h.tx.update h.tx.next (isLastTxDesc_txFilled _ _ _ _) (fun _ => ?_) h.tx.busy
      (next_lt h.tx.next (h.tx.last h.tx.next))
    exact congrArg some (h.xmit hxmit)
  · split
    · exact h.of_tx rfl rfl rfl rfl h.tx nofun
    · refine h.of_tx rfl rfl rfl rfl h.tx fun {x} hx => ?_
      cases hx
      have heq := h.xmit hxmit
      exact heq

/-- A safe step keeps the invariant. -/
theorem FrameInv.step {l : Label} (h : FrameInv s) (hsafe : Safe s l) (hstep : Step s l s') :
    FrameInv s' := by
  cases hstep with
  | dmaReceive hi hown hstatus => exact h.dmaReceive_step hi
  | rx hfree => exact (h.rx_step hfree).1 hsafe
  | pbufFree hbuf hlive => exact h.pbufFree_step hbuf hlive
  | txCopy hidle =>
    refine h.of_tx rfl rfl rfl rfl h.tx fun {x} hx => ?_
    cases hx
    rfl
  | txTry hxmit => exact h.xmitTry_step hxmit
  | dmaTransmit hi hown hstatus hlast =>
    exact h.of_tx rfl rfl rfl rfl (h.tx.sent hi hstatus hlast) h.xmit
  | transmitOver hget =>
    have hdev := getTxQptr_eq hget
    subst hdev
    refine h.of_tx rfl rfl rfl rfl ?_ h.xmit
    refine h.tx.update h.tx.busy (isLastTxDesc_init _) (fun hown => ?_)
      (next_lt h.tx.busy (h.tx.last h.tx.busy)) h.tx.next
    rw [isDescOwnedByDma_txInit] at hown
    cases hown
  | txStopped => exact h.of_tx rfl rfl rfl rfl h.tx.stopped h.xmit

/-! ## What the copy writes -/

/-- The copy of a chain stays in a buffer exactly when the whole chain fits, however long the chain:
the first byte outside is written before the offset can wrap. The induction is on the chain. -/
theorem copyChain_inside (base : Nat) (p : List Pbuf) {offset : BitVec 32}
    (h : offset.toNat ≤ PKT_FRAME_BUF_SIZE) :
    (∀ w ∈ (copyChain base offset p).1, base ≤ w.1 ∧ w.1 < base + PKT_FRAME_BUF_SIZE) ↔
      offset.toNat + totLen p ≤ PKT_FRAME_BUF_SIZE := by
  have hsize : PKT_FRAME_BUF_SIZE = 1536 := rfl
  induction p generalizing offset with
  | nil => simpa [copyChain, totLen] using h
  | cons q next ih =>
    have hlen := q.len_lt
    have hq : (q.len.zeroExtend 32).toNat = q.payload.length := by
      rw [BitVec.toNat_setWidth, Pbuf.len, BitVec.toNat_ofNat]
      omega
    have htot : totLen (q :: next) = q.payload.length + totLen next := by simp [totLen]
    have hmem : ∀ w, w ∈ (copyChain base offset (q :: next)).1 ↔
        w ∈ q.payload.zipIdx.map (fun x => (base + offset.toNat + x.2, x.1)) ∨
          w ∈ (copyChain base (offset + q.len.zeroExtend 32) next).1 := fun w => List.mem_append
    rw [htot]
    by_cases hfits : offset.toNat + q.payload.length ≤ PKT_FRAME_BUF_SIZE
    · have hoff : (offset + q.len.zeroExtend 32).toNat = offset.toNat + q.payload.length := by
        rw [BitVec.toNat_add, hq]
        omega
      have hrest := ih (hoff.symm ▸ hfits)
      rw [hoff, Nat.add_assoc] at hrest
      refine Iff.trans ?_ hrest
      refine ⟨fun hall w hw => hall w ((hmem w).2 (.inr hw)), fun hall w hw => ?_⟩
      rcases (hmem w).1 hw with hhead | htail
      · obtain ⟨⟨b, i⟩, hbi, rfl⟩ := List.mem_map.1 hhead
        have hi := (List.mem_zipIdx hbi).2.1
        dsimp only
        omega
      · exact hall w htail
    · refine ⟨fun hall => ?_, fun hle => by omega⟩
      -- the last byte of this buffer is the one outside
      have hpos : q.payload.length - 1 < q.payload.length := by omega
      have hlast : (q.payload[q.payload.length - 1], q.payload.length - 1) ∈ q.payload.zipIdx :=
        List.mk_mem_zipIdx_iff_getElem?.2 (List.getElem?_eq_getElem hpos)
      have hout := hall _ ((hmem _).2 (.inl (List.mem_map.2 ⟨_, hlast, rfl⟩)))
      dsimp only at hout
      omega

/-- A chain with a byte has something to write, and one without has nothing. -/
theorem copyChain_eq_nil_iff (base : Nat) (p : List Pbuf) (offset : BitVec 32) :
    (copyChain base offset p).1 = [] ↔ totLen p = 0 := by
  induction p generalizing offset with
  | nil => simp [copyChain, totLen]
  | cons q next ih =>
    have htot : totLen (q :: next) = q.payload.length + totLen next := by simp [totLen]
    have hmem : (copyChain base offset (q :: next)).1 =
        q.payload.zipIdx.map (fun x => (base + offset.toNat + x.2, x.1)) ++
          (copyChain base (offset + q.len.zeroExtend 32) next).1 := rfl
    rw [htot, hmem, List.append_eq_nil_iff, ih, List.map_eq_nil_iff, List.zipIdx_eq_nil_iff,
      ← List.length_eq_zero_iff, Nat.add_eq_zero_iff]

/-- What a step writes into transmit frames is right exactly when the step is safe. -/
theorem FrameInv.writesRight_iff (h : FrameInv s) (p : List Pbuf) :
    WritesRight s (.txCopy p) ↔ Safe s (.txCopy p) := by
  have hown : ¬ TxOwned s s.gmacdev.TxNext ↔
      synopGMACIsDescOwnedByDma (s.gmacdev.TxDesc s.gmacdev.TxNext) = false := by
    rw [h.tx.txOwned_iff, Bool.not_eq_true]
  have hnil := copyChain_eq_nil_iff (s.gmacdev.TxNext * PKT_FRAME_BUF_SIZE) p 0#32
  have hzero : (0#32).toNat = 0 := rfl
  have hfits := copyChain_inside (s.gmacdev.TxNext * PKT_FRAME_BUF_SIZE) p
    (hzero ▸ Nat.zero_le _ : (0#32).toNat ≤ PKT_FRAME_BUF_SIZE)
  rw [hzero, Nat.zero_add] at hfits
  simp only [WritesRight, Safe, nuGmacTxWrites, InFrame, hown]
  constructor
  · intro hall
    by_cases hempty : totLen p = 0
    · exact .inl hempty
    · obtain ⟨w, hw⟩ := List.exists_mem_of_ne_nil _ (mt hnil.1 hempty)
      exact .inr ⟨hfits.1 fun w hw => (hall w hw).1, (hall w hw).2⟩
  · rintro (hempty | ⟨hle, hfree⟩) w hw
    · rw [hnil.2 hempty] at hw
      cases hw
    · exact ⟨hfits.2 hle w hw, hfree⟩

/-! ## Runs -/

/-- After safe steps every receive frame's buffer is in the ring or with one live pbuf, and a further
step keeps that and writes only into a frame that is the driver's exactly when it is safe. -/
theorem gmacFrames_run {labels : List Label} (hrun : Run (where_ Step Safe) nuGmacInit labels s) :
    FramesPlaced s ∧
      ∀ {l s'}, Step s l s' → (FramesPlaced s' ∧ WritesRight s l ↔ Safe s l) := by
  have hinv : FrameInv s := hrun.invariant (fun h hs => h.step hs.1 hs.2) FrameInv.init
  refine ⟨hinv.placed, fun {l s'} hstep => ⟨fun ⟨hplaced, hwrites⟩ => ?_, fun hsafe => ?_⟩⟩
  · cases hstep with
    | rx hfree => exact not_not.1 fun hunsafe => (hinv.rx_step hfree).2 hunsafe hplaced
    | txCopy hidle => exact (hinv.writesRight_iff _).1 hwrites
    | _ => trivial
  · refine ⟨(hinv.step hsafe hstep).placed, ?_⟩
    cases hstep with
    | txCopy hidle => exact (hinv.writesRight_iff _).2 hsafe
    | _ => trivial

/-- The driver set up, and the first descriptor finished with a status. -/
def received (status : BitVec 32) : NuGmac :=
  { nuGmacInit with gmacdev := { nuGmacInit.gmacdev with
      RxDesc := Function.update nuGmacInit.gmacdev.RxDesc 0
        ((nuGmacInit.gmacdev.RxDesc 0).withStatus status) } }

theorem nuGmacInit_rxDesc : nuGmacInit.gmacdev.RxDesc 0 =
    rxFilled (synopGMACRxDescInitRing false) (some 0) (BitVec.ofNat 32 PKT_FRAME_BUF_SIZE) := by
  rw [nuGmacInit_gmacdev]
  rfl

theorem nuGmacInit_rxBusy : nuGmacInit.gmacdev.RxBusy = 0 := by
  rw [nuGmacInit_gmacdev]
  rfl

theorem step_received {status : BitVec 32} (h : status &&& DescOwnByDma = 0#32) :
    Step nuGmacInit (.dmaReceive 0 status) (received status) := by
  refine .dmaReceive (by decide) ?_ h
  rw [nuGmacInit_rxDesc]
  decide

/-- The frame that the driver finds has the status. -/
theorem received_rxDesc (status : BitVec 32) :
    (received status).gmacdev.RxDesc (received status).gmacdev.RxBusy =
      (rxFilled (synopGMACRxDescInitRing false) (some 0)
        (BitVec.ofNat 32 PKT_FRAME_BUF_SIZE)).withStatus status := by
  simp only [received, nuGmacInit_rxBusy, Function.update_self, nuGmacInit_rxDesc]

/-- A frame of sixty bytes and its checksum, received and given to the network stack. -/
theorem gmacFrames_run_received :
    FramesPlaced (nuGmacRx (received 0x00400300#32) (some 0)).1 := by
  have hfirst : where_ Step Safe nuGmacInit (.dmaReceive 0 0x00400300#32)
      (received 0x00400300#32) := ⟨trivial, step_received (by decide)⟩
  refine (gmacFrames_run (.snoc (.snoc .nil hfirst) ⟨fun _ _ => ?_, .rx fun e _ => rfl⟩)).1
  rw [received_rxDesc]
  exact ⟨by decide, by decide, by decide, rfl⟩

/-- Every receive frame's buffer is in the ring or with one live pbuf, and what is written into
transmit frames goes into one that is the driver's, at every step of every run. -/
def FramesRight : Prop :=
  ∀ {labels : List Label} {s : NuGmac}, Run Step nuGmacInit labels s →
    FramesPlaced s ∧ ∀ {l s'}, Step s l s' → WritesRight s l

/-- A frame with an error is taken from the ring, and its buffer is with nobody. -/
theorem not_framesRight : ¬ FramesRight := by
  intro h
  have hinv : FrameInv (received 0x00408300#32) := FrameInv.init.dmaReceive_step (by decide)
  have hrun : Run Step nuGmacInit _ (nuGmacRx (received 0x00408300#32) (some 0)).1 :=
    .snoc (.snoc .nil (step_received (by decide))) (.rx fun e _ => rfl)
  refine (hinv.rx_step fun e _ => rfl).2 (fun hsafe => ?_) (h hrun).1
  have hwhole : Whole _ (some 0) := hsafe (by rw [received_rxDesc]; decide)
    (by rw [received_rxDesc]; decide)
  rw [received_rxDesc] at hwhole
  exact absurd hwhole.1 (by decide)

end

end NumakerMA35D1.Gmac

import Mathlib

/-!
# The descriptor rings of the Ethernet controller

A descriptor says where a frame's buffer is and who owns it. The driver fills descriptors at `Next`
and takes them back at `Busy`, round a ring whose last descriptor is marked. A pointer to a frame
buffer is the frame's index, and the descriptor pointers `TxNextDesc` and so on, which go with the
indices, are not kept apart.

Reference: `synopGMAC_Dev.c`, `synopGMAC_Dev.h`, `synopGMAC_network_interface.c`.
-/

namespace NumakerMA35D1.Gmac

/-! ## Descriptors -/

/-- Reference: `synopGMAC_Dev.h:71 TRANSMIT_DESC_SIZE`. -/
def TRANSMIT_DESC_SIZE : Nat := 4096
/-- Reference: `synopGMAC_Dev.h:72 RECEIVE_DESC_SIZE`. -/
def RECEIVE_DESC_SIZE : Nat := 8192
/-- The header, the tag, the payload and the checksum, rounded up. Reference:
`synopGMAC_Dev.h:78 PKT_FRAME_BUF_SIZE`. -/
def PKT_FRAME_BUF_SIZE : Nat := (14 + 4 + 1492 + 4 + 64 - 1) / 64 * 64

/-- Bits of a status word. Reference: `synopGMAC_Dev.h:899` to `:940`. -/
def DescOwnByDma : BitVec 32 := 0x80000000#32
@[inherit_doc DescOwnByDma] def DescFrameLengthMask : BitVec 32 := 0x3FFF0000#32
@[inherit_doc DescOwnByDma] def DescError : BitVec 32 := 0x00008000#32
@[inherit_doc DescOwnByDma] def DescRxFirst : BitVec 32 := 0x00000200#32
@[inherit_doc DescOwnByDma] def DescRxLast : BitVec 32 := 0x00000100#32
@[inherit_doc DescOwnByDma] def DescTxIntEnable : BitVec 32 := 0x40000000#32
@[inherit_doc DescOwnByDma] def DescTxLast : BitVec 32 := 0x20000000#32
@[inherit_doc DescOwnByDma] def DescTxFirst : BitVec 32 := 0x10000000#32
@[inherit_doc DescOwnByDma] def DescTxCisMask : BitVec 32 := 0x00c00000#32
@[inherit_doc DescOwnByDma] def DescTxCisTcpPseudoCs : BitVec 32 := 0x00c00000#32
@[inherit_doc DescOwnByDma] def DescTxCisBypass : BitVec 32 := 0x00000000#32
@[inherit_doc DescOwnByDma] def TxDescEndOfRing : BitVec 32 := 0x00200000#32

/-- Bits of a length word. Reference: `synopGMAC_Dev.h:978` to `:984`. -/
def RxDescEndOfRing : BitVec 32 := 0x00008000#32
@[inherit_doc RxDescEndOfRing] def DescSize2Mask : BitVec 32 := 0x1FFF0000#32
@[inherit_doc RxDescEndOfRing] def DescSize1Mask : BitVec 32 := 0x00001FFF#32

/-- The words of a descriptor that the driver reads. Reference: `synopGMAC_Dev.h:99 DmaDesc`. -/
structure DmaDesc where
  status : BitVec 32
  length : BitVec 32
  buffer1 : Option Nat

/-- Reference: `synopGMAC_Dev.c:1207 synopGMAC_rx_desc_init_ring`. -/
def synopGMACRxDescInitRing (lastRingDesc : Bool) : DmaDesc where
  status := 0#32
  length := if lastRingDesc then RxDescEndOfRing else 0#32
  buffer1 := none

/-- Reference: `synopGMAC_Dev.c:1232 synopGMAC_tx_desc_init_ring`. -/
def synopGMACTxDescInitRing (lastRingDesc : Bool) : DmaDesc where
  status := if lastRingDesc then TxDescEndOfRing else 0#32
  length := 0#32
  buffer1 := none

/-- Reference: `synopGMAC_Dev.c:1314 synopGMAC_is_desc_owned_by_dma`. -/
def synopGMACIsDescOwnedByDma (desc : DmaDesc) : Bool :=
  desc.status &&& DescOwnByDma == DescOwnByDma

/-- Both buffers have no length. Reference: `synopGMAC_Dev.c:1349 synopGMAC_is_desc_empty`. -/
def synopGMACIsDescEmpty (desc : DmaDesc) : Bool :=
  desc.length &&& DescSize1Mask == 0#32 && desc.length &&& DescSize2Mask == 0#32

/-- Reference: `synopGMAC_Dev.c:1362 synopGMAC_is_rx_desc_valid`. -/
def synopGMACIsRxDescValid (status : BitVec 32) : Bool :=
  status &&& DescError == 0#32 && status &&& DescRxFirst == DescRxFirst &&
    status &&& DescRxLast == DescRxLast

/-- The length of a received frame with its checksum. Reference:
`synopGMAC_Dev.c:1325 synopGMAC_get_rx_desc_frame_length`. -/
def synopGMACGetRxDescFrameLength (status : BitVec 32) : BitVec 32 :=
  (status &&& DescFrameLengthMask) >>> 16

/-- Reference: `synopGMAC_Dev.c:1474 synopGMAC_is_last_rx_desc`. -/
def synopGMACIsLastRxDesc (desc : DmaDesc) : Bool :=
  desc.length &&& RxDescEndOfRing == RxDescEndOfRing

/-- Reference: `synopGMAC_Dev.c:1488 synopGMAC_is_last_tx_desc`. -/
def synopGMACIsLastTxDesc (desc : DmaDesc) : Bool :=
  desc.status &&& TxDescEndOfRing == TxDescEndOfRing

/-! ## The rings -/

/-- The two rings of a controller. Reference: `synopGMAC_Dev.h:151 synopGMACDeviceStruct`. -/
structure SynopGMACdevice where
  TxDesc : Nat → DmaDesc
  TxBusy : Nat
  TxNext : Nat
  RxDesc : Nat → DmaDesc
  RxBusy : Nat
  RxNext : Nat

/-- A descriptor filled for transmission: its length, its buffer and its flags, the checksum left to
the controller when asked, and given to the DMA. Reference: `synopGMAC_Dev.c:1609` to `:1629`. -/
def txFilled (desc : DmaDesc) (Buffer1 : Option Nat) (Length1 : BitVec 32)
    (offloadNeeded : Bool) : DmaDesc :=
  let status := desc.status ||| (DescTxFirst ||| DescTxLast ||| DescTxIntEnable)
  let cis := if offloadNeeded then DescTxCisTcpPseudoCs else DescTxCisBypass
  { status := status &&& ~~~DescTxCisMask ||| cis ||| DescOwnByDma
    length := desc.length ||| (Length1 &&& DescSize1Mask)
    buffer1 := Buffer1 }

/-- A frame put at the transmit ring's next descriptor, unless that is in use. Reference:
`synopGMAC_Dev.c:1592 synopGMAC_set_tx_qptr`. -/
def synopGMACSetTxQptr (gmacdev : SynopGMACdevice) (Buffer1 : Option Nat) (Length1 : BitVec 32)
    (offloadNeeded : Bool) : Option SynopGMACdevice :=
  let txnext := gmacdev.TxNext
  let txdesc := gmacdev.TxDesc txnext
  if synopGMACIsDescEmpty txdesc then
    let txdesc := txFilled txdesc Buffer1 Length1 offloadNeeded
    some { gmacdev with
      TxDesc := Function.update gmacdev.TxDesc txnext txdesc
      TxNext := if synopGMACIsLastTxDesc txdesc then 0 else txnext + 1 }
  else none

/-- A transmitted frame's descriptor taken back. Reference:
`synopGMAC_Dev.c:1511 synopGMAC_get_tx_qptr`. -/
def synopGMACGetTxQptr (gmacdev : SynopGMACdevice) : Option SynopGMACdevice :=
  let txover := gmacdev.TxBusy
  let txdesc := gmacdev.TxDesc txover
  if synopGMACIsDescOwnedByDma txdesc then none
  else if synopGMACIsDescEmpty txdesc then none
  else
    let last := synopGMACIsLastTxDesc txdesc
    some { gmacdev with
      TxDesc := Function.update gmacdev.TxDesc txover (synopGMACTxDescInitRing last)
      TxBusy := if last then 0 else txover + 1 }

/-- A descriptor filled for reception and given to the DMA. An interrupt comes with every frame
(`MODULO_INTERRUPT` is one). Reference: `synopGMAC_Dev.c:1666` to `:1682`. -/
def rxFilled (desc : DmaDesc) (Buffer1 : Option Nat) (Length1 : BitVec 32) : DmaDesc where
  status := DescOwnByDma
  length := desc.length ||| (Length1 &&& DescSize1Mask)
  buffer1 := Buffer1

/-- A buffer put at the receive ring's next descriptor, unless that is in use. Reference:
`synopGMAC_Dev.c:1653 synopGMAC_set_rx_qptr`. -/
def synopGMACSetRxQptr (gmacdev : SynopGMACdevice) (Buffer1 : Option Nat) (Length1 : BitVec 32) :
    Option SynopGMACdevice :=
  let rxnext := gmacdev.RxNext
  let rxdesc := gmacdev.RxDesc rxnext
  if synopGMACIsDescEmpty rxdesc then
    let rxdesc := rxFilled rxdesc Buffer1 Length1
    some { gmacdev with
      RxDesc := Function.update gmacdev.RxDesc rxnext rxdesc
      RxNext := if synopGMACIsLastRxDesc rxdesc then 0 else rxnext + 1 }
  else none

/-- A received frame's descriptor taken back: the descriptor as it was, and the ring without it.
Reference: `synopGMAC_Dev.c:1710 synopGMAC_get_rx_qptr`. -/
def synopGMACGetRxQptr (gmacdev : SynopGMACdevice) : Option (DmaDesc × SynopGMACdevice) :=
  let rxnext := gmacdev.RxBusy
  let rxdesc := gmacdev.RxDesc rxnext
  if synopGMACIsDescOwnedByDma rxdesc then none
  else if synopGMACIsDescEmpty rxdesc then none
  else
    let last := synopGMACIsLastRxDesc rxdesc
    some (rxdesc, { gmacdev with
      RxDesc := Function.update gmacdev.RxDesc rxnext (synopGMACRxDescInitRing last)
      RxBusy := if last then 0 else rxnext + 1 })

/-- The frame the receive ring gives, with its length without the checksum. A frame in error, or one
that is not whole, leaves the ring and is not given. Reference:
`synopGMAC_network_interface.c:463 synop_handle_received_data`. -/
def synopHandleReceivedData (gmacdev : SynopGMACdevice) : (Int × Option Nat) × SynopGMACdevice :=
  match synopGMACGetRxQptr gmacdev with
  | none => ((0, none), gmacdev)
  | some (rxdesc, gmacdev) =>
    if synopGMACIsRxDescValid rxdesc.status then
      let len := synopGMACGetRxDescFrameLength rxdesc.status - 4#32
      ((len.toInt, rxdesc.buffer1), gmacdev)
    else ((0, none), gmacdev)

/-- Every transmit descriptor taken from the DMA. Reference:
`synopGMAC_Dev.c:1986 synopGMAC_take_desc_ownership_tx`. -/
def synopGMACTakeDescOwnershipTx (gmacdev : SynopGMACdevice) : SynopGMACdevice :=
  { gmacdev with
    TxDesc := fun i =>
      if i < TRANSMIT_DESC_SIZE then
        { gmacdev.TxDesc i with status := (gmacdev.TxDesc i).status &&& ~~~DescOwnByDma }
      else gmacdev.TxDesc i }

/-- Both rings empty, their last descriptors marked. Reference:
`synopGMAC_network_interface.c:171 synopGMAC_setup_tx_desc_queue`, `:237
synopGMAC_setup_rx_desc_queue`. -/
def synopGMACSetupDescQueue : SynopGMACdevice where
  TxDesc i := synopGMACTxDescInitRing (decide (i = TRANSMIT_DESC_SIZE - 1))
  TxBusy := 0
  TxNext := 0
  RxDesc i := synopGMACRxDescInitRing (decide (i = RECEIVE_DESC_SIZE - 1))
  RxBusy := 0
  RxNext := 0

/-! ## What the ring functions keep -/

@[simp] theorem isDescEmpty_rxInit (last : Bool) :
    synopGMACIsDescEmpty (synopGMACRxDescInitRing last) = true := by
  cases last <;> decide

@[simp] theorem isLastRxDesc_init (last : Bool) :
    synopGMACIsLastRxDesc (synopGMACRxDescInitRing last) = last := by
  cases last <;> decide

@[simp] theorem isLastTxDesc_init (last : Bool) :
    synopGMACIsLastTxDesc (synopGMACTxDescInitRing last) = last := by
  cases last <;> decide

@[simp] theorem isDescOwnedByDma_txInit (last : Bool) :
    synopGMACIsDescOwnedByDma (synopGMACTxDescInitRing last) = false := by
  cases last <;> decide

/-- A descriptor with a buffer of a frame's size is in use. -/
theorem isDescEmpty_rxFilled (desc : DmaDesc) (Buffer1 : Option Nat) :
    synopGMACIsDescEmpty (rxFilled desc Buffer1 (BitVec.ofNat 32 PKT_FRAME_BUF_SIZE)) = false := by
  have hne : (desc.length ||| (BitVec.ofNat 32 PKT_FRAME_BUF_SIZE &&& DescSize1Mask)) &&&
      DescSize1Mask ≠ 0#32 := by
    intro h
    have hbit := congrArg (BitVec.getLsbD · 9) h
    simp [DescSize1Mask, PKT_FRAME_BUF_SIZE] at hbit
  simp only [synopGMACIsDescEmpty, rxFilled, Bool.and_eq_false_iff, beq_eq_false_iff_ne]
  exact .inl hne

/-- A descriptor filled for reception keeps its mark. -/
theorem isLastRxDesc_rxFilled (desc : DmaDesc) (Buffer1 : Option Nat) (Length1 : BitVec 32) :
    synopGMACIsLastRxDesc (rxFilled desc Buffer1 Length1) = synopGMACIsLastRxDesc desc := by
  have hmask : DescSize1Mask &&& RxDescEndOfRing = 0#32 := by decide
  simp only [synopGMACIsLastRxDesc, rxFilled, BitVec.and_or_distrib_right, BitVec.and_assoc, hmask,
    BitVec.and_zero, BitVec.or_zero]

/-- A descriptor filled for transmission keeps its mark. -/
theorem isLastTxDesc_txFilled (desc : DmaDesc) (Buffer1 : Option Nat) (Length1 : BitVec 32)
    (offloadNeeded : Bool) :
    synopGMACIsLastTxDesc (txFilled desc Buffer1 Length1 offloadNeeded) =
      synopGMACIsLastTxDesc desc := by
  have hflags : DescTxFirst &&& TxDescEndOfRing ||| DescTxLast &&& TxDescEndOfRing |||
      DescTxIntEnable &&& TxDescEndOfRing = 0#32 := by
    decide
  have hcis : ~~~DescTxCisMask &&& TxDescEndOfRing = TxDescEndOfRing := by decide
  have hown : DescOwnByDma &&& TxDescEndOfRing = 0#32 := by decide
  have hcs : (if offloadNeeded then DescTxCisTcpPseudoCs else DescTxCisBypass) &&& TxDescEndOfRing =
      0#32 := by
    cases offloadNeeded <;> decide
  simp only [synopGMACIsLastTxDesc, txFilled, BitVec.and_or_distrib_right, BitVec.and_assoc, hcis,
    hcs, hown, hflags, BitVec.or_zero]

end NumakerMA35D1.Gmac

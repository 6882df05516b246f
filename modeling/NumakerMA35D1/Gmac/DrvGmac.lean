import NumakerMA35D1.Gmac.SynopGmac

/-!
# The Ethernet driver

Received frames go to the network stack where they are: a custom pbuf of the driver's pool points to
the frame's buffer, and freeing it gives the buffer back to the ring. Frames to send are copied
into the buffer of the ring's next descriptor.

Reference: `drv_gmac.c`, `pbuf.c`.
-/

namespace NumakerMA35D1.Gmac

/-- A buffer of a chain that the network stack sends. Reference: `pbuf.h pbuf`. -/
structure Pbuf where
  payload : List (BitVec 8)
  len_lt : payload.length < 2 ^ 16

/-- Reference: `pbuf.h pbuf.len`. -/
def Pbuf.len (q : Pbuf) : BitVec 16 := BitVec.ofNat 16 q.payload.length

/-- A custom pbuf of the driver's pool: the buffer it points to and, once it is set up, the length of
what is in it. Reference: `drv_gmac.c:65 nu_gmac_lwip_pbuf`. -/
structure NuGmacLwipPbuf where
  psPktFrameDataBuf : Option Nat
  p : Option (BitVec 16)

/-- A transmission that looks for a free descriptor: the frame and its length, and the tries that are
left. Reference: `synopGMAC_network_interface.c:351 synopGMAC_xmit_frames`. -/
structure Xmit where
  pktData : Nat
  pktLen : BitVec 32
  left : Nat

/-- A device: its rings, the transmit frames one after another in memory, its pool of pbufs and the
transmission under way. Reference: `drv_gmac.c:75 nu_gmac`. -/
structure NuGmac where
  gmacdev : SynopGMACdevice
  psTXFrames : Nat → BitVec 8
  memp_rx_pool : Nat → Option NuGmacLwipPbuf
  xmit : Option Xmit

/-- Reference: `synopGMAC_plat.h:19 DEFAULT_LOOP_VARIABLE`. -/
def DEFAULT_LOOP_VARIABLE : Nat := 1000

/-- Every receive frame's buffer put into the ring, from one on. Reference:
`drv_gmac.c:487` to `:500`. -/
def setRxFrames (gmacdev : SynopGMACdevice) (count : Nat) : Nat → SynopGMACdevice
  | 0 => gmacdev
  | n + 1 =>
    match synopGMACSetRxQptr gmacdev (some count) (BitVec.ofNat 32 PKT_FRAME_BUF_SIZE) with
    | none => gmacdev
    | some gmacdev => setRxFrames gmacdev (count + 1) n

/-- A device set up. Reference: `drv_gmac.c:425 nu_gmac_init`. -/
def nuGmacInit : NuGmac where
  gmacdev := setRxFrames synopGMACSetupDescQueue 0 RECEIVE_DESC_SIZE
  psTXFrames _ := 0#8
  memp_rx_pool _ := none
  xmit := none

/-! ## Transmission -/

/-- What the copy of a chain writes, by address from the first frame on, and the length copied.
Reference: `drv_gmac.c:597` to `:603`. -/
def copyChain (pu8PktData : Nat) (offset : BitVec 32) : List Pbuf → List (Nat × BitVec 8) × BitVec 32
  | [] => ([], offset)
  | q :: next =>
    let written := q.payload.zipIdx.map fun (b, i) => (pu8PktData + offset.toNat + i, b)
    let (writes, total) := copyChain pu8PktData (offset + q.len.zeroExtend 32) next
    (written ++ writes, total)

/-- Memory after bytes are written. -/
def writeBytes (mem : Nat → BitVec 8) (writes : List (Nat × BitVec 8)) : Nat → BitVec 8 :=
  writes.foldl (fun mem w => Function.update mem w.1 w.2) mem

/-- The writes of the copy that comes before a descriptor is asked for. -/
def nuGmacTxWrites (psNuGMAC : NuGmac) (p : List Pbuf) : List (Nat × BitVec 8) :=
  (copyChain (psNuGMAC.gmacdev.TxNext * PKT_FRAME_BUF_SIZE) 0#32 p).1

/-- A chain copied into the frame of the next descriptor. Reference: `drv_gmac.c:578 nu_gmac_tx` to
`:613`. -/
def nuGmacTx (psNuGMAC : NuGmac) (p : List Pbuf) : NuGmac :=
  let index := psNuGMAC.gmacdev.TxNext
  let (writes, offset) := copyChain (index * PKT_FRAME_BUF_SIZE) 0#32 p
  { psNuGMAC with
    psTXFrames := writeBytes psNuGMAC.psTXFrames writes
    xmit := some ⟨index, offset, DEFAULT_LOOP_VARIABLE⟩ }

/-- One try to give the frame to the DMA, and the status where the transmission ends with it. The
checksums are left to the controller. Reference:
`synopGMAC_network_interface.c:351 synopGMAC_xmit_frames`. -/
def synopGMACXmitTry (psNuGMAC : NuGmac) (xmit : Xmit) : NuGmac × Option Int :=
  match synopGMACSetTxQptr psNuGMAC.gmacdev (some xmit.pktData) xmit.pktLen true with
  | some gmacdev => ({ psNuGMAC with gmacdev, xmit := none }, some 0)
  | none =>
    if xmit.left ≤ 1 then ({ psNuGMAC with xmit := none }, some (-1))
    else ({ psNuGMAC with xmit := some { xmit with left := xmit.left - 1 } }, none)

/-! ## Reception -/

/-- The length of a custom pbuf set up, if the memory has room for it. Reference:
`pbuf.c:363 pbuf_alloced_custom`. -/
def pbufAllocedCustom (length payloadMemLen : BitVec 16) : Option (BitVec 16) :=
  if payloadMemLen.toNat < length.toNat then none else some length

/-- A frame received, with the pbuf that the pool gives. The result is the pbuf for the network stack.
Reference: `drv_gmac.c:648 nu_gmac_rx`. -/
def nuGmacRx (psNuGMAC : NuGmac) (myPbuf : Option Nat) : NuGmac × Option Nat :=
  let ((s32PktLen, psPktFrame), gmacdev) := synopHandleReceivedData psNuGMAC.gmacdev
  let psNuGMAC := { psNuGMAC with gmacdev }
  if 0 < s32PktLen then
    match myPbuf with
    | some myPbuf =>
      let pbuf := pbufAllocedCustom (BitVec.ofInt 16 s32PktLen) (BitVec.ofNat 16 PKT_FRAME_BUF_SIZE)
      ({ psNuGMAC with
          memp_rx_pool := Function.update psNuGMAC.memp_rx_pool myPbuf (some ⟨psPktFrame, pbuf⟩) },
        pbuf.map fun _ => myPbuf)
    | none => (psNuGMAC, none)
  else (psNuGMAC, none)

/-- A pbuf's buffer given back to the ring, which is tried until it succeeds, and then the pbuf to the
pool. Reference: `drv_gmac.c:628 nu_gmac_pbuf_free`. -/
def nuGmacPbufFree (psNuGMAC : NuGmac) (p : Nat) (myBuf : NuGmacLwipPbuf) : NuGmac :=
  match synopGMACSetRxQptr psNuGMAC.gmacdev myBuf.psPktFrameDataBuf
      (BitVec.ofNat 32 PKT_FRAME_BUF_SIZE) with
  | none => psNuGMAC
  | some gmacdev =>
    { psNuGMAC with
      gmacdev := gmacdev
      memp_rx_pool := Function.update psNuGMAC.memp_rx_pool p none }

end NumakerMA35D1.Gmac

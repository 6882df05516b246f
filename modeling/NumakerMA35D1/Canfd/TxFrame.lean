import NumakerMA35D1.Canfd.Message

/-!
# What a transmission puts on the bus

`canfdTransmitDMsg` copies as many words as the length of the message takes, and the length code it
writes is of the least frame length that holds the message. Where the frame is longer than the words
are, its last bytes are those an earlier message left in the Tx buffer. `txFrame_memory_iff` names
the lengths at which the frame is the message's alone.
-/

namespace NumakerMA35D1.Canfd

open Embedded

/-! ## Frames -/

/-- What the controller sends of an element: the two header words, and the bytes up to the length
that the length code decodes to. -/
structure TxFrame where
  u32Id : BitVec 32
  u32Config : BitVec 32
  data : List Byte
deriving DecidableEq

/-- The frame length of an element. -/
def CanfdBuf.frameLen (e : CanfdBuf) : Nat :=
  (canfdDecodeDLC (((e.u32Config &&& 0xf0000#32) >>> 16).setWidth 8)).toNat

/-- The frame of an element. -/
def CanfdBuf.frame (e : CanfdBuf) : TxFrame :=
  { u32Id := e.u32Id
    u32Config := e.u32Config
    data := (List.range e.frameLen).map e.au8Data }

/-- The frame that a call puts on the bus, if it requests a transmission. -/
def txFrame (psr : Nat → BitVec 32) (psCanfd : CanfdT) (u32TxBufIdx : BitVec 32)
    (psTxMsg : CanfdFdMsg) : Option TxFrame :=
  let r := canfdTransmitDMsg psr psCanfd u32TxBufIdx psTxMsg
  if r.1 = 1 then some (bufAt r.2.sram (txBufAddr psCanfd u32TxBufIdx)).frame else none

/-- The frame of a message is the same over every two contents of the message RAM. -/
def MemoryFree (psTxMsg : CanfdFdMsg) : Prop :=
  ∀ (psr : Nat → BitVec 32) (psCanfd : CanfdT) (u32TxBufIdx : BitVec 32) (sram sram' : WordMem),
    txFrame psr { psCanfd with sram } u32TxBufIdx psTxMsg =
      txFrame psr { psCanfd with sram := sram' } u32TxBufIdx psTxMsg

/-- The words of a message reach the end of its frame. -/
def WordsFill (u32DLC : Nat) : Prop :=
  u32DLC ≤ 24 ∨ (29 ≤ u32DLC ∧ u32DLC ≤ 32) ∨ (45 ≤ u32DLC ∧ u32DLC ≤ 48) ∨ 61 ≤ u32DLC

/-! ## The element of a transmission -/

/-- Whether a transmission is requested does not depend on the message RAM. -/
theorem transmit_returns_sram (psr : Nat → BitVec 32) (psCanfd : CanfdT)
    (u32TxBufIdx : BitVec 32) (psTxMsg : CanfdFdMsg) (sram : WordMem) :
    (canfdTransmitDMsg psr { psCanfd with sram } u32TxBufIdx psTxMsg).1 =
      (canfdTransmitDMsg psr psCanfd u32TxBufIdx psTxMsg).1 := by
  unfold canfdTransmitDMsg
  dsimp only
  repeat' split
  all_goals rfl

/-- A requested transmission found its buffer free. -/
theorem transmit_accepted {psr : Nat → BitVec 32} {psCanfd : CanfdT} {u32TxBufIdx : BitVec 32}
    {psTxMsg : CanfdFdMsg} (h : (canfdTransmitDMsg psr psCanfd u32TxBufIdx psTxMsg).1 = 1) :
    u32TxBufIdx.toNat < CANFD_MAX_TX_BUF_ELEMS ∧
      psCanfd.TXBRP &&& (1#32 <<< u32TxBufIdx) = 0#32 := by
  unfold canfdTransmitDMsg at h
  split at h
  · exact absurd h (show ¬ (0#32 = 1#32) by decide)
  · next hidx =>
    split at h
    · exact absurd h (show ¬ (0#32 = 1#32) by decide)
    · next hfree => exact ⟨not_le.1 hidx, not_not.1 hfree⟩

/-- The data words of the element: those of the message, and after them the ones that were there. -/
theorem transmit_au32Data (psr : Nat → BitVec 32) (psCanfd : CanfdT) {u32TxBufIdx : BitVec 32}
    {psTxMsg : CanfdFdMsg} (hidx : u32TxBufIdx.toNat < CANFD_MAX_TX_BUF_ELEMS)
    (hfree : psCanfd.TXBRP &&& (1#32 <<< u32TxBufIdx) = 0#32)
    (hlen : psTxMsg.u32DLC.toNat ≤ 64) (i : Nat) :
    (bufAt (canfdTransmitDMsg psr psCanfd u32TxBufIdx psTxMsg).2.sram
        (txBufAddr psCanfd u32TxBufIdx)).au32Data i =
      if i < (psTxMsg.u32DLC.toNat + 3) / 4 then psTxMsg.au32Data i
      else psCanfd.sram.load (txBufAddr psCanfd u32TxBufIdx + 8 + 4 * i) := by
  rw [transmit_sram psr psCanfd hidx hfree, transmit_words hlen]
  dsimp only [bufAt]
  split
  · next hlt => exact WordMem.load_storeWords_lt hlt
  · next hge =>
    rw [WordMem.load_storeWords_above (by omega), WordMem.load_store_ne (by omega),
      WordMem.load_store_ne (by omega)]

/-- The length of the frame of a message. -/
def CanfdFdMsg.frameLen (m : CanfdFdMsg) : Nat :=
  (canfdDecodeDLC (canfdEncodeDLC (m.u32DLC.setWidth 8))).toNat

/-- A frame ends within the words of its message at the lengths of `WordsFill` only. -/
theorem wordsFill_iff {psTxMsg : CanfdFdMsg} (hlen : psTxMsg.u32DLC.toNat ≤ 64) :
    WordsFill psTxMsg.u32DLC.toNat ↔
      psTxMsg.frameLen ≤ 4 * ((psTxMsg.u32DLC.toNat + 3) / 4) := by
  have hall : ∀ n : Fin 65,
      (n.val ≤ 24 ∨ (29 ≤ n.val ∧ n.val ≤ 32) ∨ (45 ≤ n.val ∧ n.val ≤ 48) ∨ 61 ≤ n.val) ↔
        (canfdDecodeDLC (canfdEncodeDLC (BitVec.ofNat 8 n.val))).toNat ≤
          4 * ((n.val + 3) / 4) := by decide +kernel
  have hcode : psTxMsg.u32DLC.setWidth 8 = BitVec.ofNat 8 psTxMsg.u32DLC.toNat := by
    apply BitVec.eq_of_toNat_eq
    rw [BitVec.toNat_setWidth, BitVec.toNat_ofNat]
  rw [CanfdFdMsg.frameLen, hcode]
  exact hall ⟨psTxMsg.u32DLC.toNat, by omega⟩

/-- The frame that a call with a free buffer sends, once the bus is idle. -/
theorem txFrame_eq {psr : Nat → BitVec 32} {psCanfd : CanfdT} {u32TxBufIdx : BitVec 32}
    {psTxMsg : CanfdFdMsg} (h : (canfdTransmitDMsg psr psCanfd u32TxBufIdx psTxMsg).1 = 1)
    (hlen : psTxMsg.u32DLC.toNat ≤ 64) :
    txFrame psr psCanfd u32TxBufIdx psTxMsg =
      some
        { u32Id := txBufId psTxMsg
          u32Config := txBufConfig psTxMsg
          data := (List.range psTxMsg.frameLen).map fun i =>
            if i / 4 < (psTxMsg.u32DLC.toNat + 3) / 4 then psTxMsg.byteAt i
            else byteOfWord (psCanfd.sram.load
              (txBufAddr psCanfd u32TxBufIdx + 8 + 4 * (i / 4))) (i % 4) } := by
  obtain ⟨hidx, hfree⟩ := transmit_accepted h
  obtain ⟨hid, hconfig, -⟩ := bufAt_transmit psr psCanfd hidx hfree hlen
  have hwords := transmit_au32Data psr psCanfd hidx hfree hlen
  rw [txFrame, if_pos h]
  generalize bufAt (canfdTransmitDMsg psr psCanfd u32TxBufIdx psTxMsg).2.sram
    (txBufAddr psCanfd u32TxBufIdx) = elem at hid hconfig hwords
  have hframe : elem.frameLen = psTxMsg.frameLen := by
    rw [CanfdBuf.frameLen, hconfig, (txBufConfig_fields psTxMsg).1, CanfdFdMsg.frameLen]
  rw [CanfdBuf.frame, hid, hconfig, hframe]
  congr 2
  refine List.map_congr_left fun i _ => ?_
  rw [CanfdBuf.au8Data, hwords (i / 4)]
  split
  · exact byteOfWord_au32Data psTxMsg i
  · rfl

/-! ## Independence of the message RAM -/

/-- At the lengths of `WordsFill` no byte of the frame comes from the message RAM. -/
theorem memoryFree_of_fill {psTxMsg : CanfdFdMsg} (hlen : psTxMsg.u32DLC.toNat ≤ 64)
    (hfill : WordsFill psTxMsg.u32DLC.toNat) : MemoryFree psTxMsg := by
  intro psr psCanfd u32TxBufIdx sram sram'
  rw [wordsFill_iff hlen] at hfill
  by_cases h : (canfdTransmitDMsg psr psCanfd u32TxBufIdx psTxMsg).1 = 1
  · rw [txFrame_eq ((transmit_returns_sram ..).trans h) hlen,
      txFrame_eq ((transmit_returns_sram ..).trans h) hlen]
    congr 2
    refine List.map_congr_left fun i hi => ?_
    have hi := List.mem_range.1 hi
    rw [if_pos (by omega), if_pos (by omega)]
  · rw [txFrame, txFrame, if_neg (by rwa [transmit_returns_sram]),
      if_neg (by rwa [transmit_returns_sram])]

/-- At the other lengths, the first byte after the words is the one that was there. -/
theorem not_memoryFree {psTxMsg : CanfdFdMsg} (hlen : psTxMsg.u32DLC.toNat ≤ 64)
    (hfill : ¬ WordsFill psTxMsg.u32DLC.toNat) : ¬ MemoryFree psTxMsg := by
  intro hfree
  rw [wordsFill_iff hlen, not_le] at hfill
  have hsent : (canfdTransmitDMsg (fun _ => 8#32) default 0#32 psTxMsg).1 = 1 := rfl
  have h := hfree (fun _ => 8#32) default 0#32 (fun _ => 0#32) (fun _ => 0xffffffff#32)
  rw [txFrame_eq ((transmit_returns_sram ..).trans hsent) hlen,
    txFrame_eq ((transmit_returns_sram ..).trans hsent) hlen] at h
  have hdata := congrArg TxFrame.data (Option.some.inj h)
  have hbyte := List.map_inj_left.1 hdata (4 * ((psTxMsg.u32DLC.toNat + 3) / 4))
    (List.mem_range.2 hfill)
  rw [if_neg (by omega), if_neg (by omega), Nat.mul_mod_right] at hbyte
  change byteOfWord 0#32 0 = byteOfWord 0xffffffff#32 0 at hbyte
  exact absurd hbyte (by decide)

/-- The frame of a message of at most 64 bytes is the same over every two contents of the message
RAM exactly when the words of the message reach the end of the frame. -/
theorem txFrame_memory_iff (psTxMsg : CanfdFdMsg) (hlen : psTxMsg.u32DLC.toNat ≤ 64) :
    MemoryFree psTxMsg ↔ WordsFill psTxMsg.u32DLC.toNat := by
  constructor
  · intro hfree
    by_contra hfill
    exact not_memoryFree hlen hfill hfree
  · exact memoryFree_of_fill hlen

/-- A data frame with identifier 0x123 and a payload of zeros. -/
def zeroMsg (u32DLC : BitVec 32) : CanfdFdMsg :=
  { eIdType := .sid, eFrmType := .dataFrm, u32Id := 0x123#32, u32DLC
    au8Data := fun _ => 0#8, bFDFormat := true, bBitRateSwitch := false, bErrStaInd := false }

/-- 30 bytes fill a 32-byte frame by words. -/
theorem txFrame_memory_iff_zeroMsg : MemoryFree (zeroMsg 30#32) ↔ WordsFill 30 :=
  txFrame_memory_iff (zeroMsg 30#32) (by decide)

/-- A message of 25 bytes is sent in a frame of 32, whose last four bytes are those of an earlier
message. -/
theorem not_txFrame_memory :
    ¬ ∀ psTxMsg : CanfdFdMsg, psTxMsg.u32DLC.toNat ≤ 64 → MemoryFree psTxMsg := by
  intro h
  refine @not_memoryFree (zeroMsg 25#32) (by decide) ?_ (h (zeroMsg 25#32) (by decide))
  rintro (h | h | h | h)
  · exact absurd h (by decide)
  · exact absurd h (by decide)
  · exact absurd h (by decide)
  · exact absurd h (by decide)

end NumakerMA35D1.Canfd

import NumakerMA35D1.Lib.BitField
import NumakerMA35D1.Canfd.Regs

/-!
# Messages and their elements

`canfdTransmitDMsg` writes a message as an element of the message RAM and
`canfdCopyDBufToMsgBuf` reads a message from one. The two pack the identifier, the flags and the
data length code separately, and copy the payload by words and by bytes;
`transmit_copy_roundtrip` says that they fit.
-/

namespace NumakerMA35D1.Canfd

open Embedded

/-! ## Messages -/

/-- Reference: `nu_canfd.h:261 E_CANFD_ID_TYPE`. -/
inductive CanfdIdType
  | sid | xid
deriving DecidableEq, Repr

/-- Reference: `nu_canfd.h:292 E_CANFD_FRM_TYPE`. -/
inductive CanfdFrmType
  | dataFrm | remoteFrm
deriving DecidableEq, Repr

/-- A message; the payload is the byte view of its union. Reference: `nu_canfd.h:299
CANFD_FD_MSG_T`. -/
structure CanfdFdMsg where
  eIdType : CanfdIdType
  eFrmType : CanfdFrmType
  u32Id : BitVec 32
  u32DLC : BitVec 32
  au8Data : Fin 64 → Byte
  bFDFormat : Bool
  bBitRateSwitch : Bool
  bErrStaInd : Bool

/-- Byte `i` of the payload. -/
def CanfdFdMsg.byteAt (m : CanfdFdMsg) (i : Nat) : Byte :=
  if h : i < 64 then m.au8Data ⟨i, h⟩ else 0#8

/-- `au32Data[i]`, the word view of the payload. -/
def CanfdFdMsg.au32Data (m : CanfdFdMsg) (i : Nat) : BitVec 32 :=
  wordOfBytes (m.byteAt (4 * i)) (m.byteAt (4 * i + 1)) (m.byteAt (4 * i + 2))
    (m.byteAt (4 * i + 3))

/-- The number of identifier bits of a type. -/
def CanfdIdType.bits : CanfdIdType → Nat
  | .sid => 11
  | .xid => 29

/-- A message that can be sent: its identifier has the bits of its type, and its length is one of a
CAN FD frame. -/
structure CanfdFdMsg.Valid (m : CanfdFdMsg) : Prop where
  id_lt : m.u32Id.toNat < 2 ^ m.eIdType.bits
  len_le : m.u32DLC.toNat ≤ 64

/-! ## The data length code -/

/-- Reference: `nu_canfd.c:335 CANFD_EncodeDLC`. -/
def canfdEncodeDLC (u8NumberOfBytes : BitVec 8) : BitVec 8 :=
  if u8NumberOfBytes ≤ 8 then u8NumberOfBytes
  else if u8NumberOfBytes ≤ 12 then 9
  else if u8NumberOfBytes ≤ 16 then 10
  else if u8NumberOfBytes ≤ 20 then 11
  else if u8NumberOfBytes ≤ 24 then 12
  else if u8NumberOfBytes ≤ 32 then 13
  else if u8NumberOfBytes ≤ 48 then 14
  else 15

/-- Reference: `nu_canfd.c:357 CANFD_DecodeDLC`. -/
def canfdDecodeDLC (u8Dlc : BitVec 8) : BitVec 8 :=
  if u8Dlc ≤ 8 then u8Dlc
  else if u8Dlc = 9 then 12
  else if u8Dlc = 10 then 16
  else if u8Dlc = 11 then 20
  else if u8Dlc = 12 then 24
  else if u8Dlc = 13 then 32
  else if u8Dlc = 14 then 48
  else 64

/-- The data lengths a CAN FD frame can have. -/
def validLengths : List Nat := [0, 1, 2, 3, 4, 5, 6, 7, 8, 12, 16, 20, 24, 32, 48, 64]

/-! ## Elements -/

/-- An element, its data in words. Reference: `nu_canfd.h:322 CANFD_BUF_T`. -/
structure CanfdBuf where
  u32Id : BitVec 32
  u32Config : BitVec 32
  au32Data : Nat → BitVec 32

/-- `au8Data[i]`, the byte view of the data. -/
def CanfdBuf.au8Data (e : CanfdBuf) (i : Nat) : Byte := byteOfWord (e.au32Data (i / 4)) (i % 4)

/-- The element at an offset of the message RAM. -/
def bufAt (sram : WordMem) (addr : Nat) : CanfdBuf :=
  { u32Id := sram.load addr
    u32Config := sram.load (addr + 4)
    au32Data := fun i => sram.load (addr + 8 + 4 * i) }

/-- Flag bits of an element: extended identifier, remote request, error state, FD format, bit rate
switch. Reference: `nu_canfd.c:135 TX_BUFFER_T0_ELEM_XTD_Msk`,
`nu_canfd.c:84 RX_BUFFER_AND_FIFO_R0_ELEM_XTD_Msk`. -/
def elemXtdMsk : BitVec 32 := 1#32 <<< 30
@[inherit_doc elemXtdMsk] def elemRtrMsk : BitVec 32 := 1#32 <<< 29
@[inherit_doc elemXtdMsk] def elemEsiMsk : BitVec 32 := 1#32 <<< 31
@[inherit_doc elemXtdMsk] def elemFdfMsk : BitVec 32 := 1#32 <<< 21
@[inherit_doc elemXtdMsk] def elemBsrMsk : BitVec 32 := 1#32 <<< 20

/-- The offset of Tx buffer element `u32TxBufIdx`. Reference: `nu_canfd.c:1017
CANFD_TransmitDMsg`. -/
def txBufAddr (psCanfd : CanfdT) (u32TxBufIdx : BitVec 32) : Nat :=
  (psCanfd.TXBC &&& 0xffff#32).toNat + u32TxBufIdx.toNat * sizeofBuf

/-- The identifier word of a message. -/
def txBufId (psTxMsg : CanfdFdMsg) : BitVec 32 :=
  let u32Id :=
    match psTxMsg.eIdType with
    | .xid => elemXtdMsk ||| (psTxMsg.u32Id &&& 0x1fffffff#32)
    | .sid => (psTxMsg.u32Id &&& 0x7ff#32) <<< 18
  match psTxMsg.eFrmType with
  | .remoteFrm => u32Id ||| elemRtrMsk
  | .dataFrm => u32Id

/-- The configuration word of a message. -/
def txBufConfig (psTxMsg : CanfdFdMsg) : BitVec 32 :=
  let u32Config := (canfdEncodeDLC (psTxMsg.u32DLC.setWidth 8)).setWidth 32 <<< 16
  let u32Config := if psTxMsg.bFDFormat then u32Config ||| elemFdfMsk else u32Config
  if psTxMsg.bBitRateSwitch then u32Config ||| elemBsrMsk else u32Config

/-- The wait for an idle bus; `psr i` is what reading `PSR` the `i`-th time gives. `true` when the
bus gets idle in time. Reference: `nu_canfd.c:1042 CANFD_TransmitDMsg`. -/
def waitIdle (psr : Nat → BitVec 32) : Nat → Nat → Bool
  | 0, _ => false
  | u32TimeOutCnt + 1, i =>
    if (psr i >>> 3) &&& 3#32 = 1#32 then true
    else if u32TimeOutCnt = 0 then false
    else waitIdle psr u32TimeOutCnt (i + 1)

/-- A message written to a Tx buffer and its transmission requested: the returned 1 or 0, and the
controller. Reference: `nu_canfd.c:1005 CANFD_TransmitDMsg`. -/
def canfdTransmitDMsg (psr : Nat → BitVec 32) (psCanfd : CanfdT) (u32TxBufIdx : BitVec 32)
    (psTxMsg : CanfdFdMsg) : BitVec 32 × CanfdT :=
  if u32TxBufIdx.toNat ≥ CANFD_MAX_TX_BUF_ELEMS then (0, psCanfd)
  else if psCanfd.TXBRP &&& (1#32 <<< u32TxBufIdx) ≠ 0#32 then (0, psCanfd)
  else
    let addr := txBufAddr psCanfd u32TxBufIdx
    let sram := psCanfd.sram.store addr (txBufId psTxMsg)
    let sram := sram.store (addr + 4) (txBufConfig psTxMsg)
    let sram := sram.storeWords (addr + 8) psTxMsg.au32Data ((psTxMsg.u32DLC + 3) / 4).toNat
    let psCanfd := { psCanfd with sram }
    if waitIdle psr CANFD_TIMEOUT 0 then (1, { psCanfd with TXBAR := 1#32 <<< u32TxBufIdx })
    else (0, psCanfd)

/-- A message read from an element; the payload beyond its length keeps what the target buffer
held. Reference: `nu_canfd.c:1496 CANFD_CopyDBufToMsgBuf`. -/
def canfdCopyDBufToMsgBuf (psRxBuf : CanfdBuf) (psMsgBuf : CanfdFdMsg) : CanfdFdMsg :=
  let xtd := psRxBuf.u32Id &&& elemXtdMsk ≠ 0#32
  let u32DLC := (canfdDecodeDLC (((psRxBuf.u32Config &&& 0xf0000#32) >>> 16).setWidth 8)).setWidth 32
  { bErrStaInd := psRxBuf.u32Id &&& elemEsiMsk ≠ 0#32
    u32Id := if xtd then psRxBuf.u32Id &&& 0x1fffffff#32 else (psRxBuf.u32Id >>> 18) &&& 0x7ff#32
    eIdType := if xtd then .xid else .sid
    eFrmType := if psRxBuf.u32Id &&& elemRtrMsk ≠ 0#32 then .remoteFrm else .dataFrm
    bFDFormat := psRxBuf.u32Config &&& elemFdfMsk ≠ 0#32
    bBitRateSwitch := psRxBuf.u32Config &&& elemBsrMsk ≠ 0#32
    u32DLC
    au8Data := fun i => if i.val < u32DLC.toNat then psRxBuf.au8Data i else psMsgBuf.au8Data i }

/-! ## The data length -/

/-- The decoded code of a length is the least valid length not below it. -/
theorem decodeDLC_encodeDLC (u8Len : BitVec 8) (h : u8Len.toNat ≤ 64) :
    IsLeast {l | l ∈ validLengths ∧ u8Len.toNat ≤ l}
      (canfdDecodeDLC (canfdEncodeDLC u8Len)).toNat := by
  have hall : ∀ n : Fin 65,
      ((canfdDecodeDLC (canfdEncodeDLC (BitVec.ofNat 8 n.val))).toNat ∈ validLengths ∧
        n.val ≤ (canfdDecodeDLC (canfdEncodeDLC (BitVec.ofNat 8 n.val))).toNat) ∧
      ∀ l ∈ validLengths, n.val ≤ l →
        (canfdDecodeDLC (canfdEncodeDLC (BitVec.ofNat 8 n.val))).toNat ≤ l := by decide +kernel
  have hlen : BitVec.ofNat 8 u8Len.toNat = u8Len := BitVec.ofNat_toNat ..
  obtain ⟨hmem, hleast⟩ := hall ⟨u8Len.toNat, by omega⟩
  simp only [hlen] at hmem hleast
  exact ⟨hmem, fun l hl => hleast l hl.1 hl.2⟩

theorem encodeDLC_lt (u8Len : BitVec 8) : (canfdEncodeDLC u8Len).toNat < 16 := by
  unfold canfdEncodeDLC
  split
  · next h =>
    have : u8Len.toNat ≤ 8 := h
    omega
  all_goals (repeat' split) <;> decide

/-- The length code and the flags of a configuration word, read back. -/
theorem txBufConfig_fields (psTxMsg : CanfdFdMsg) :
    ((txBufConfig psTxMsg &&& 0xf0000#32) >>> 16).setWidth 8 =
        canfdEncodeDLC (psTxMsg.u32DLC.setWidth 8) ∧
      decide (txBufConfig psTxMsg &&& elemFdfMsk ≠ 0#32) = psTxMsg.bFDFormat ∧
      decide (txBufConfig psTxMsg &&& elemBsrMsk ≠ 0#32) = psTxMsg.bBitRateSwitch := by
  have hall : ∀ (c : Fin 16) (f b : Bool),
      let w := (BitVec.ofNat 8 c.val).setWidth 32 <<< 16
      let w := if f then w ||| elemFdfMsk else w
      let w := if b then w ||| elemBsrMsk else w
      ((w &&& 0xf0000#32) >>> 16).setWidth 8 = BitVec.ofNat 8 c.val ∧
        decide (w &&& elemFdfMsk ≠ 0#32) = f ∧ decide (w &&& elemBsrMsk ≠ 0#32) = b := by
    decide +kernel
  have hcode : BitVec.ofNat 8 (canfdEncodeDLC (psTxMsg.u32DLC.setWidth 8)).toNat =
      canfdEncodeDLC (psTxMsg.u32DLC.setWidth 8) := BitVec.ofNat_toNat ..
  have h := hall ⟨_, encodeDLC_lt (psTxMsg.u32DLC.setWidth 8)⟩ psTxMsg.bFDFormat
    psTxMsg.bBitRateSwitch
  simp only [hcode] at h
  exact h

/-! ## The identifier -/

theorem txBufId_eq (psTxMsg : CanfdFdMsg) :
    txBufId psTxMsg =
      (match psTxMsg.eIdType with
        | .xid => putField 1#32 30 1 ||| putField psTxMsg.u32Id 0 29
        | .sid => putField psTxMsg.u32Id 18 11) |||
      (match psTxMsg.eFrmType with
        | .remoteFrm => putField 1#32 29 1
        | .dataFrm => 0#32) := by
  rw [txBufId]
  cases psTxMsg.eIdType <;> cases psTxMsg.eFrmType <;>
    simp [putField, fieldMask, elemXtdMsk, elemRtrMsk]

/-- The flags of an identifier word, read back. -/
theorem txBufId_flags (psTxMsg : CanfdFdMsg) :
    (txBufId psTxMsg &&& elemXtdMsk ≠ 0#32 ↔ psTxMsg.eIdType = .xid) ∧
      (txBufId psTxMsg &&& elemRtrMsk ≠ 0#32 ↔ psTxMsg.eFrmType = .remoteFrm) ∧
      ¬ (txBufId psTxMsg &&& elemEsiMsk ≠ 0#32) := by
  have hone : getField (putField 1#32 30 1) 30 1 = 1#32 := by decide
  have hone' : getField (putField 1#32 29 1) 29 1 = 1#32 := by decide
  rw [elemXtdMsk, elemRtrMsk, elemEsiMsk, and_bit_ne_zero _ (by decide),
    and_bit_ne_zero _ (by decide), and_bit_ne_zero _ (by decide), txBufId_eq]
  cases psTxMsg.eIdType <;> cases psTxMsg.eFrmType <;>
    simp [getField_or, hone, hone', getField_putField_disjoint]

/-- The identifier of an identifier word, read back. -/
theorem txBufId_id {psTxMsg : CanfdFdMsg} (h : psTxMsg.Valid) :
    (if psTxMsg.eIdType = .xid then txBufId psTxMsg &&& 0x1fffffff#32
      else (txBufId psTxMsg >>> 18) &&& 0x7ff#32) = psTxMsg.u32Id := by
  have hxid : txBufId psTxMsg &&& 0x1fffffff#32 = getField (txBufId psTxMsg) 0 29 := by
    simp [getField, fieldMask]
  have hsid : (txBufId psTxMsg >>> 18) &&& 0x7ff#32 = getField (txBufId psTxMsg) 18 11 := by
    simp [getField, fieldMask]
  rw [hxid, hsid, txBufId_eq]
  cases htype : psTxMsg.eIdType with
  | xid =>
    have hlt := h.id_lt
    rw [htype] at hlt
    have hid : psTxMsg.u32Id &&& fieldMask 29 = psTxMsg.u32Id := and_fieldMask hlt
    cases psTxMsg.eFrmType <;>
      simp [getField_or, getField_putField, getField_putField_disjoint, hid]
  | sid =>
    have hlt := h.id_lt
    rw [htype] at hlt
    have hid : psTxMsg.u32Id &&& fieldMask 11 = psTxMsg.u32Id := and_fieldMask hlt
    cases psTxMsg.eFrmType <;>
      simp [getField_or, getField_putField, getField_putField_disjoint, hid]

/-! ## The payload -/

/-- The byte view of a message's words is its byte view. -/
theorem byteOfWord_au32Data (m : CanfdFdMsg) (i : Nat) :
    byteOfWord (m.au32Data (i / 4)) (i % 4) = m.byteAt i := by
  obtain ⟨h₀, h₁, h₂, h₃⟩ := byteOfWord_wordOfBytes (m.byteAt (4 * (i / 4)))
    (m.byteAt (4 * (i / 4) + 1)) (m.byteAt (4 * (i / 4) + 2)) (m.byteAt (4 * (i / 4) + 3))
  have hi := Nat.div_add_mod i 4
  rw [CanfdFdMsg.au32Data]
  have hcases : i % 4 = 0 ∨ i % 4 = 1 ∨ i % 4 = 2 ∨ i % 4 = 3 := by omega
  rcases hcases with h | h | h | h <;> rw [h] at hi ⊢
  · rw [h₀, ← hi, Nat.add_zero, Nat.mul_div_cancel_left _ (by decide)]
  · rw [h₁, hi]
  · rw [h₂, hi]
  · rw [h₃, hi]

/-! ## The round trip -/

/-- The message RAM after a message is written to a free buffer. -/
theorem transmit_sram (psr : Nat → BitVec 32) (psCanfd : CanfdT) {u32TxBufIdx : BitVec 32}
    {psTxMsg : CanfdFdMsg} (hidx : u32TxBufIdx.toNat < CANFD_MAX_TX_BUF_ELEMS)
    (hfree : psCanfd.TXBRP &&& (1#32 <<< u32TxBufIdx) = 0#32) :
    (canfdTransmitDMsg psr psCanfd u32TxBufIdx psTxMsg).2.sram =
      ((psCanfd.sram.store (txBufAddr psCanfd u32TxBufIdx) (txBufId psTxMsg)).store
        (txBufAddr psCanfd u32TxBufIdx + 4) (txBufConfig psTxMsg)).storeWords
        (txBufAddr psCanfd u32TxBufIdx + 8) psTxMsg.au32Data
        ((psTxMsg.u32DLC + 3) / 4).toNat := by
  rw [canfdTransmitDMsg, if_neg (not_le.2 hidx), if_neg (not_not.2 hfree)]
  dsimp only
  split <;> rfl

/-- The number of words of a message. -/
theorem transmit_words {psTxMsg : CanfdFdMsg} (hlen : psTxMsg.u32DLC.toNat ≤ 64) :
    ((psTxMsg.u32DLC + 3) / 4).toNat = (psTxMsg.u32DLC.toNat + 3) / 4 := by
  rw [BitVec.toNat_udiv, BitVec.toNat_add]
  congr 1
  exact Nat.mod_eq_of_lt (show psTxMsg.u32DLC.toNat + 3 < 2 ^ 32 by omega)

/-- The element a transmission writes. -/
theorem bufAt_transmit (psr : Nat → BitVec 32) (psCanfd : CanfdT) {u32TxBufIdx : BitVec 32}
    {psTxMsg : CanfdFdMsg} (hidx : u32TxBufIdx.toNat < CANFD_MAX_TX_BUF_ELEMS)
    (hfree : psCanfd.TXBRP &&& (1#32 <<< u32TxBufIdx) = 0#32)
    (hlen : psTxMsg.u32DLC.toNat ≤ 64) :
    let elem := bufAt (canfdTransmitDMsg psr psCanfd u32TxBufIdx psTxMsg).2.sram
      (txBufAddr psCanfd u32TxBufIdx)
    elem.u32Id = txBufId psTxMsg ∧ elem.u32Config = txBufConfig psTxMsg ∧
      ∀ i < psTxMsg.u32DLC.toNat, elem.au8Data i = psTxMsg.byteAt i := by
  rw [transmit_sram psr psCanfd hidx hfree, transmit_words hlen]
  dsimp only [CanfdBuf.au8Data, bufAt]
  refine ⟨?_, ?_, ?_⟩
  · rw [WordMem.load_storeWords_below (by omega), WordMem.load_store_ne (by omega),
      WordMem.load_store]
  · rw [WordMem.load_storeWords_below (by omega), WordMem.load_store]
  · intro i hi
    rw [WordMem.load_storeWords_lt (by omega), byteOfWord_au32Data]

/-- A message that arrived as it was sent: the identifier, the type and the flags, the least frame
length that holds the data, and the data. -/
structure Delivered (sent got : CanfdFdMsg) : Prop where
  eIdType : got.eIdType = sent.eIdType
  u32Id : got.u32Id = sent.u32Id
  eFrmType : got.eFrmType = sent.eFrmType
  bFDFormat : got.bFDFormat = sent.bFDFormat
  bBitRateSwitch : got.bBitRateSwitch = sent.bBitRateSwitch
  bErrStaInd : got.bErrStaInd = false
  u32DLC : IsLeast {l | l ∈ validLengths ∧ sent.u32DLC.toNat ≤ l} got.u32DLC.toNat
  au8Data : ∀ i < sent.u32DLC.toNat, got.byteAt i = sent.byteAt i

/-- The element a transmission writes, read as a received element, is the message sent, whatever
the controller, the bus and the receiving buffer held before. -/
theorem transmit_copy_roundtrip (psr : Nat → BitVec 32) (psCanfd : CanfdT)
    (u32TxBufIdx : BitVec 32) (psTxMsg psMsgBuf : CanfdFdMsg)
    (hidx : u32TxBufIdx.toNat < CANFD_MAX_TX_BUF_ELEMS)
    (hfree : psCanfd.TXBRP &&& (1#32 <<< u32TxBufIdx) = 0#32) (h : psTxMsg.Valid) :
    Delivered psTxMsg (canfdCopyDBufToMsgBuf
      (bufAt (canfdTransmitDMsg psr psCanfd u32TxBufIdx psTxMsg).2.sram
        (txBufAddr psCanfd u32TxBufIdx)) psMsgBuf) := by
  obtain ⟨hid, hconfig, hdata⟩ := bufAt_transmit psr psCanfd hidx hfree h.len_le
  obtain ⟨hxtd, hrtr, hesi⟩ := txBufId_flags psTxMsg
  obtain ⟨hdlc, hfdf, hbrs⟩ := txBufConfig_fields psTxMsg
  have hread := txBufId_id h
  have hlen := h.len_le
  have hlen8 : (psTxMsg.u32DLC.setWidth 8).toNat = psTxMsg.u32DLC.toNat := by
    rw [BitVec.toNat_setWidth]
    exact Nat.mod_eq_of_lt (by omega)
  have hleast := decodeDLC_encodeDLC (psTxMsg.u32DLC.setWidth 8) (by omega)
  rw [hlen8] at hleast
  generalize bufAt (canfdTransmitDMsg psr psCanfd u32TxBufIdx psTxMsg).2.sram
    (txBufAddr psCanfd u32TxBufIdx) = elem at hid hconfig hdata ⊢
  have hgot : (canfdCopyDBufToMsgBuf elem psMsgBuf).u32DLC.toNat =
      (canfdDecodeDLC (canfdEncodeDLC (psTxMsg.u32DLC.setWidth 8))).toNat := by
    simp only [canfdCopyDBufToMsgBuf, hconfig, hdlc]
    rw [BitVec.toNat_setWidth]
    exact Nat.mod_eq_of_lt (by omega)
  constructor
  · simp only [canfdCopyDBufToMsgBuf, hid, hxtd]
    cases psTxMsg.eIdType <;> rfl
  · simp only [canfdCopyDBufToMsgBuf, hid, hxtd]
    exact hread
  · simp only [canfdCopyDBufToMsgBuf, hid, hrtr]
    cases psTxMsg.eFrmType <;> rfl
  · simp only [canfdCopyDBufToMsgBuf, hconfig, hfdf]
  · simp only [canfdCopyDBufToMsgBuf, hconfig, hbrs]
  · simp only [canfdCopyDBufToMsgBuf, hid, decide_eq_false hesi]
  · rw [hgot]
    exact hleast
  · intro i hi
    have hi64 : i < 64 := by omega
    have hin : i < (canfdCopyDBufToMsgBuf elem psMsgBuf).u32DLC.toNat := by
      rw [hgot]
      exact lt_of_lt_of_le hi hleast.1.2
    rw [← hdata i hi, CanfdFdMsg.byteAt, dif_pos hi64]
    exact if_pos hin

/-- A 13-byte extended FD message through Tx buffer 2, read into a message that was a standard remote frame. -/
theorem transmit_copy_roundtrip_xid :
    let psTxMsg : CanfdFdMsg :=
      { eIdType := .xid, eFrmType := .dataFrm, u32Id := 0x12345678#32, u32DLC := 13#32
        au8Data := fun i => BitVec.ofNat 8 i.val, bFDFormat := true, bBitRateSwitch := true
        bErrStaInd := false }
    let psMsgBuf : CanfdFdMsg :=
      { eIdType := .sid, eFrmType := .remoteFrm, u32Id := 0x7ff#32, u32DLC := 8#32
        au8Data := fun _ => 0xff#8, bFDFormat := false, bBitRateSwitch := false
        bErrStaInd := true }
    Delivered psTxMsg (canfdCopyDBufToMsgBuf
      (bufAt (canfdTransmitDMsg (fun _ => 8#32) default 2#32 psTxMsg).2.sram
        (txBufAddr default 2#32)) psMsgBuf) :=
  transmit_copy_roundtrip (fun _ => 8#32) default 2#32 _ _ (by decide) (by decide)
    ⟨by decide, by decide⟩

end NumakerMA35D1.Canfd

import NumakerMA35D1.Lib.BitField
import NumakerMA35D1.Canfd.Message

/-!
# Filter elements and acceptance filtering

The elements of the two filter lists, the functions that write them, and what the controller does
with a received identifier: the elements of its type are tried in order, the first enabled one that
matches decides, and an identifier that none matches is treated as the global filter configuration
says.
-/

namespace NumakerMA35D1.Canfd

open Embedded

/-! ## Elements -/

/-- Filter element types. Reference: `nu_canfd.h:368 E_CANFD_SID_FLTR_ELEM_TYPE`,
`nu_canfd.h:377 E_CANFD_XID_FLTR_ELEM_TYPE`. -/
def fltrTypeRange : BitVec 32 := 0
@[inherit_doc fltrTypeRange] def fltrTypeDual : BitVec 32 := 1
@[inherit_doc fltrTypeRange] def fltrTypeClassic : BitVec 32 := 2

/-- Filter element configurations. Reference: `nu_canfd.h:386 E_CANFD_FLTR_CONFIG`. -/
def fltrElemDis : BitVec 32 := 0
@[inherit_doc fltrElemDis] def fltrElemStoFifo0 : BitVec 32 := 1
@[inherit_doc fltrElemDis] def fltrElemSetPriStoFifo0 : BitVec 32 := 5

/-- A standard filter element; `reserved1` is what the reserved bits hold. Reference:
`nu_canfd.h:337 CANFD_STD_FILTER_T`. -/
def stdFilterValue (SFID1 SFID2 SFEC SFT reserved1 : BitVec 32) : BitVec 32 :=
  putField SFID2 0 11 ||| putField reserved1 11 5 ||| putField SFID1 16 11 ||| putField SFEC 27 3 |||
    putField SFT 30 2

/-- The low word of an extended filter element. Reference: `nu_canfd.h:357 CANFD_EXT_FILTER_T`. -/
def extFilterLow (EFID1 EFEC : BitVec 32) : BitVec 32 := putField EFID1 0 29 ||| putField EFEC 29 3

/-- The high word of an extended filter element. Reference: `nu_canfd.h:357 CANFD_EXT_FILTER_T`. -/
def extFilterHigh (EFID2 EFT reserved1 : BitVec 32) : BitVec 32 :=
  putField EFID2 0 29 ||| putField reserved1 29 1 ||| putField EFT 30 2

/-- Where the standard filter list starts. -/
def flssa (psCanfd : CanfdT) : Nat := (psCanfd.SIDFC &&& startAddrMsk).toNat

/-- Where the extended filter list starts. -/
def flesa (psCanfd : CanfdT) : Nat := (psCanfd.XIDFC &&& startAddrMsk).toNat

/-- Reference: `nu_canfd.c:1323 CANFD_SetSIDFltr`. -/
def canfdSetSIDFltr (psCanfd : CanfdT) (u32FltrIdx : Nat) (u32Filter : BitVec 32) : CanfdT :=
  if u32FltrIdx ≥ CANFD_MAX_11_BIT_FTR_ELEMS then psCanfd
  else
    { psCanfd with
      sram := psCanfd.sram.store (flssa psCanfd + u32FltrIdx * sizeofStdFilter) u32Filter }

/-- Reference: `nu_canfd.c:1351 CANFD_SetXIDFltr`. -/
def canfdSetXIDFltr (psCanfd : CanfdT) (u32FltrIdx : Nat) (u32FilterLow u32FilterHigh : BitVec 32) :
    CanfdT :=
  if u32FltrIdx ≥ CANFD_MAX_29_BIT_FTR_ELEMS then psCanfd
  else
    let addr := flesa psCanfd + u32FltrIdx * sizeofExtFilter
    { psCanfd with
      sram := (psCanfd.sram.store addr u32FilterLow).store (addr + 4) u32FilterHigh }

/-! ## Acceptance filtering -/

/-- Element `i` of the standard list. -/
def stdElem (psCanfd : CanfdT) (i : Nat) : BitVec 32 :=
  psCanfd.sram.load (flssa psCanfd + i * sizeofStdFilter)

/-- Element `i` of the extended list, low word and high word. -/
def extElem (psCanfd : CanfdT) (i : Nat) : BitVec 32 × BitVec 32 :=
  (psCanfd.sram.load (flesa psCanfd + i * sizeofExtFilter),
    psCanfd.sram.load (flesa psCanfd + i * sizeofExtFilter + 4))

/-- Whether a standard element matches an identifier. Reference: `nu_canfd.h:368
E_CANFD_SID_FLTR_ELEM_TYPE`. -/
def stdMatches (elem id : BitVec 32) : Bool :=
  let SFID1 := getField elem 16 11
  let SFID2 := getField elem 0 11
  let SFT := getField elem 30 2
  if SFT = fltrTypeRange then SFID1 ≤ id ∧ id ≤ SFID2
  else if SFT = fltrTypeDual then id = SFID1 ∨ id = SFID2
  else if SFT = fltrTypeClassic then id &&& SFID2 = SFID1 &&& SFID2
  else false

/-- Whether an extended element matches an identifier; `xidam` is the mask of the register `XIDAM`,
which the last type does not apply. Reference: `nu_canfd.h:377 E_CANFD_XID_FLTR_ELEM_TYPE`,
`canfd_reg.h:655 CANFD_T`. -/
def extMatches (xidam : BitVec 32) (elem : BitVec 32 × BitVec 32) (id : BitVec 32) : Bool :=
  let EFID1 := getField elem.1 0 29
  let EFID2 := getField elem.2 0 29
  let EFT := getField elem.2 30 2
  if EFT = fltrTypeRange then EFID1 ≤ id &&& xidam ∧ id &&& xidam ≤ EFID2
  else if EFT = fltrTypeDual then id &&& xidam = EFID1 ∨ id &&& xidam = EFID2
  else if EFT = fltrTypeClassic then (id &&& xidam) &&& EFID2 = EFID1 &&& EFID2
  else EFID1 ≤ id ∧ id ≤ EFID2

/-- The configuration of the first enabled element that matches, of `n` elements. -/
def firstHit (n : Nat) (config : Nat → BitVec 32) (hit : Nat → Bool) : Option (BitVec 32) :=
  ((List.range n).find? fun i => config i ≠ fltrElemDis && hit i).map config

/-- The elements the controller tries, of those in a list size field. Reference: `canfd_reg.h:637
CANFD_T`. -/
def listSize (psCanfd : CanfdT) : CanfdIdType → Nat
  | .sid => min (getField psCanfd.SIDFC 16 8).toNat CANFD_MAX_11_BIT_FTR_ELEMS
  | .xid => min (getField psCanfd.XIDFC 16 7).toNat CANFD_MAX_29_BIT_FTR_ELEMS

/-- The configuration of element `i`. -/
def elemConfig (psCanfd : CanfdT) : CanfdIdType → Nat → BitVec 32
  | .sid, i => getField (stdElem psCanfd i) 27 3
  | .xid, i => getField (extElem psCanfd i).1 29 3

/-- Whether element `i` matches an identifier. -/
def elemMatches (psCanfd : CanfdT) (id : BitVec 32) : CanfdIdType → Nat → Bool
  | .sid, i => stdMatches (stdElem psCanfd i) id
  | .xid, i => extMatches (getField psCanfd.XIDAM 0 29) (extElem psCanfd i) id

/-- What happens to an identifier that no element matches. -/
def nonMatching (psCanfd : CanfdT) : CanfdIdType → BitVec 32
  | .sid => getField psCanfd.GFC 4 2
  | .xid => getField psCanfd.GFC 2 2

/-- Whether remote frames are turned away before the lists are tried. -/
def rejectsRemote (psCanfd : CanfdT) : CanfdIdType → Bool
  | .sid => getField psCanfd.GFC 1 1 = 1
  | .xid => getField psCanfd.GFC 0 1 = 1

/-- Whether the controller takes part in the bus traffic: its clock runs and it is not in init
mode. -/
def running (psCanfd : CanfdT) : Bool := psCanfd.CLKEN && getField psCanfd.CCCR 0 1 = 0

/-- The part of a frame that acceptance filtering looks at. -/
structure RxFrame where
  ide : CanfdIdType
  rtr : CanfdFrmType
  id : BitVec 32
  id_lt : id.toNat < 2 ^ ide.bits

/-- Whether a frame gets to Rx FIFO 0, which is the one the driver reads. Reference:
`nu_canfd.h:386 E_CANFD_FLTR_CONFIG`, `drv_canfd.c:607 nu_canfd_recvmsg`. -/
def accepted (psCanfd : CanfdT) (frame : RxFrame) : Bool :=
  running psCanfd && !(frame.rtr = .remoteFrm && rejectsRemote psCanfd frame.ide) &&
    match firstHit (listSize psCanfd frame.ide) (elemConfig psCanfd frame.ide)
        (elemMatches psCanfd frame.id frame.ide) with
    | some config => config = fltrElemStoFifo0 ∨ config = fltrElemSetPriStoFifo0
    | none => nonMatching psCanfd frame.ide = 0

/-! ## Writing elements -/

variable {psCanfd : CanfdT} {i : Nat}

/-- The standard list lies below the extended one, with room for 64 elements. -/
def ListsApart (psCanfd : CanfdT) : Prop := flssa psCanfd / 4 + 64 ≤ flesa psCanfd / 4

theorem stdElem_setSID (hi : i < CANFD_MAX_11_BIT_FTR_ELEMS) (v : BitVec 32) (j : Nat) :
    stdElem (canfdSetSIDFltr psCanfd i v) j = if j = i then v else stdElem psCanfd j := by
  rw [canfdSetSIDFltr, if_neg (not_le.2 hi)]
  change (psCanfd.sram.store (flssa psCanfd + i * 4) v).load (flssa psCanfd + j * 4) = _
  split
  · next h => rw [h, WordMem.load_store]
  · next h =>
    rw [WordMem.load_store_ne (by omega)]
    rfl

theorem extElem_setSID (hlists : ListsApart psCanfd) (hi : i < 64) (v : BitVec 32) (j : Nat) :
    extElem (canfdSetSIDFltr psCanfd i v) j = extElem psCanfd j := by
  rw [ListsApart] at hlists
  have hlim : i < CANFD_MAX_11_BIT_FTR_ELEMS := lt_trans hi (by decide)
  rw [canfdSetSIDFltr, if_neg (not_le.2 hlim)]
  change ((psCanfd.sram.store (flssa psCanfd + i * 4) v).load (flesa psCanfd + j * 8),
    (psCanfd.sram.store (flssa psCanfd + i * 4) v).load (flesa psCanfd + j * 8 + 4)) = _
  rw [WordMem.load_store_ne (by omega), WordMem.load_store_ne (by omega)]
  rfl

theorem extElem_setXID (hi : i < CANFD_MAX_29_BIT_FTR_ELEMS) (v w : BitVec 32) (j : Nat) :
    extElem (canfdSetXIDFltr psCanfd i v w) j = if j = i then (v, w) else extElem psCanfd j := by
  rw [canfdSetXIDFltr, if_neg (not_le.2 hi)]
  change (((psCanfd.sram.store (flesa psCanfd + i * 8) v).store (flesa psCanfd + i * 8 + 4) w).load
      (flesa psCanfd + j * 8),
    ((psCanfd.sram.store (flesa psCanfd + i * 8) v).store (flesa psCanfd + i * 8 + 4) w).load
      (flesa psCanfd + j * 8 + 4)) = _
  split
  · next h =>
    rw [h, WordMem.load_store, WordMem.load_store_ne (by omega), WordMem.load_store]
  · next h =>
    rw [WordMem.load_store_ne (by omega), WordMem.load_store_ne (by omega),
      WordMem.load_store_ne (by omega), WordMem.load_store_ne (by omega)]
    rfl

theorem stdElem_setXID (hlists : ListsApart psCanfd) (hi : i < CANFD_MAX_29_BIT_FTR_ELEMS)
    (v w : BitVec 32) {j : Nat} (hj : j < 64) :
    stdElem (canfdSetXIDFltr psCanfd i v w) j = stdElem psCanfd j := by
  rw [ListsApart] at hlists
  rw [canfdSetXIDFltr, if_neg (not_le.2 hi)]
  change ((psCanfd.sram.store (flesa psCanfd + i * 8) v).store (flesa psCanfd + i * 8 + 4) w).load
    (flssa psCanfd + j * 4) = _
  rw [WordMem.load_store_ne (by omega), WordMem.load_store_ne (by omega)]
  rfl

end NumakerMA35D1.Canfd

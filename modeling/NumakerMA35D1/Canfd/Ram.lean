import NumakerMA35D1.Lib.Layout
import NumakerMA35D1.Canfd.Timing

/-!
# The message RAM's sections

`canfdCalculateRamAddress` lays the sections of the message RAM out one after another, in the order
`Section.all`; a section without elements keeps the start address the record held. The layout is the
running-offset layout of `Lib.Layout` (`canfdCalculateRamAddress_toNat`), so the sections with
elements are pairwise disjoint, and they lie inside the message RAM exactly when their total size
does.
-/

namespace NumakerMA35D1.Canfd

open Embedded

/-- The sections, named as the fields of the element counts. Reference: `nu_canfd.h:234
CANFD_ELEM_SIZE_T`. -/
inductive Section
  | u32SIDFC | u32XIDFC | u32RxFifo0 | u32RxFifo1 | u32RxBuf | u32TxEventFifo | u32TxBuf
deriving DecidableEq, Repr

/-- The start address of every section. Reference: `nu_canfd.h:222 CANFD_RAM_PART_T`. -/
abbrev CanfdRamPart := Section → BitVec 32

/-- The number of elements of every section. Reference: `nu_canfd.h:234 CANFD_ELEM_SIZE_T`. -/
abbrev CanfdElemSize := Section → BitVec 32

/-- The bytes of an element. Reference: `nu_canfd.c:212 CANFD_CalculateRamAddress`. -/
def Section.elemSize : Section → Nat
  | .u32SIDFC => sizeofStdFilter
  | .u32XIDFC | .u32TxEventFifo => sizeofExtFilter
  | .u32RxFifo0 | .u32RxFifo1 | .u32RxBuf | .u32TxBuf => sizeofBuf

/-- The sections in the order they are laid out. -/
def Section.all : List Section :=
  [.u32SIDFC, .u32XIDFC, .u32RxFifo0, .u32RxFifo1, .u32RxBuf, .u32TxEventFifo, .u32TxBuf]

/-- One section laid out at the running offset. -/
def placeSection (psConfigSize : CanfdElemSize) :
    CanfdRamPart × BitVec 32 → Section → CanfdRamPart × BitVec 32
  | (psConfigAddr, u32RamAddrOffset), s =>
    if psConfigSize s > 0 then
      (Function.update psConfigAddr s u32RamAddrOffset,
        u32RamAddrOffset + psConfigSize s * BitVec.ofNat 32 s.elemSize)
    else (psConfigAddr, u32RamAddrOffset)

/-- Reference: `nu_canfd.c:212 CANFD_CalculateRamAddress`. -/
def canfdCalculateRamAddress (psConfigAddr : CanfdRamPart) (psConfigSize : CanfdElemSize) :
    CanfdRamPart :=
  (Section.all.foldl (placeSection psConfigSize) (psConfigAddr, 0)).1

/-! ## Configurations -/

/-- Reference: `nu_canfd.h:125 E_CANFD_TEST_MODE`. -/
inductive CanfdTestMode
  | normal | restrictedOperation | busMonitor | loopbackExternal | loopbackInternal
deriving DecidableEq, Repr, Inhabited

/-- Reference: `nu_canfd.h:210 CANFD_FD_BT_CONFIG_T`. -/
structure CanfdFdBtConfig where
  sNormBitRate : BitVec 32
  sDataBitRate : BitVec 32
  sConfigBitTing : CanfdTimeingConfig
  bFDEn : Bool
  bBitRateSwitch : Bool
  evTestMode : CanfdTestMode
deriving Inhabited

/-- Reference: `nu_canfd.h:246 CANFD_FD_T`. -/
structure CanfdFd where
  sBtConfig : CanfdFdBtConfig
  sMRamStartAddr : CanfdRamPart
  sElemSize : CanfdElemSize
deriving Inhabited

/-- The element counts of the default configuration. Reference: `nu_canfd.c:306
CANFD_GetDefaultConfig`. -/
def defaultElemSize : CanfdElemSize
  | .u32SIDFC => 64
  | .u32XIDFC => 64
  | .u32TxBuf => 8
  | .u32RxBuf => 8
  | .u32RxFifo0 => 48
  | .u32RxFifo1 => 8
  | .u32TxEventFifo => 8

/-- The default configuration; `fd` is whether the operating mode is the CAN FD one. Reference:
`nu_canfd.c:279 CANFD_GetDefaultConfig`. -/
def canfdGetDefaultConfig (fd : Bool) : CanfdFd :=
  { sBtConfig :=
      { sNormBitRate := 500000
        sDataBitRate := if fd then 10000000 else 0
        sConfigBitTing := default
        bFDEn := fd
        bBitRateSwitch := fd
        evTestMode := .normal }
    sMRamStartAddr := canfdCalculateRamAddress (fun _ => 0) defaultElemSize
    sElemSize := defaultElemSize }

/-! ## The layout -/

/-- The bytes of a section. -/
def Section.bytes (psConfigSize : CanfdElemSize) (s : Section) : Nat :=
  (psConfigSize s).toNat * s.elemSize

theorem Section.nodup_all : Section.all.Nodup := by decide

theorem Section.mem_all (s : Section) : s ∈ Section.all := by cases s <;> decide

theorem placeSection_foldl_notMem {psConfigSize : CanfdElemSize} {s : Section} :
    ∀ {l : List Section} {st : CanfdRamPart × BitVec 32}, s ∉ l →
      (l.foldl (placeSection psConfigSize) st).1 s = st.1 s
  | [], _, _ => rfl
  | a :: l, (psConfigAddr, u32RamAddrOffset), h => by
    obtain ⟨hne, hl⟩ := List.ne_and_not_mem_of_not_mem_cons h
    rw [List.foldl_cons, placeSection_foldl_notMem hl, placeSection]
    split
    · exact Function.update_of_ne hne ..
    · rfl

/-- A section without elements keeps its start. -/
theorem placeSection_foldl_zero {psConfigSize : CanfdElemSize} {s : Section}
    (hs : psConfigSize s = 0) :
    ∀ {l : List Section} {st : CanfdRamPart × BitVec 32},
      (l.foldl (placeSection psConfigSize) st).1 s = st.1 s
  | [], _ => rfl
  | a :: l, (psConfigAddr, u32RamAddrOffset) => by
    rw [List.foldl_cons, placeSection_foldl_zero hs, placeSection]
    split
    · next ha =>
      have hne : s ≠ a := by
        rintro rfl
        rw [hs] at ha
        exact absurd ha (by decide)
      exact Function.update_of_ne hne ..
    · rfl

/-- A section with elements starts at its offset of the running layout. -/
theorem placeSection_foldl {psConfigSize : CanfdElemSize} {s : Section}
    (hs : psConfigSize s > 0) :
    ∀ {l : List Section} {psConfigAddr : CanfdRamPart} {u32RamAddrOffset : BitVec 32},
      l.Nodup → s ∈ l →
      u32RamAddrOffset.toNat + totalLen (Section.bytes psConfigSize) l < 2 ^ 32 →
      ((l.foldl (placeSection psConfigSize) (psConfigAddr, u32RamAddrOffset)).1 s).toNat =
        u32RamAddrOffset.toNat + startOf (Section.bytes psConfigSize) l s
  | [], _, _, _, h, _ => absurd h List.not_mem_nil
  | a :: l, psConfigAddr, u32RamAddrOffset, hl, hmem, hlt => by
    obtain ⟨ha, hl'⟩ := List.nodup_cons.1 hl
    rw [totalLen, List.map_cons, List.sum_cons, ← totalLen] at hlt
    rw [List.foldl_cons, placeSection, startOf]
    by_cases hsa : s = a
    · subst hsa
      rw [if_pos hs, if_pos rfl, placeSection_foldl_notMem ha, Nat.add_zero]
      exact congrArg BitVec.toNat (Function.update_self ..)
    · have hmem' := (List.mem_cons.1 hmem).resolve_left hsa
      rw [if_neg hsa]
      split
      · have hmul : (psConfigSize a * BitVec.ofNat 32 a.elemSize).toNat =
            Section.bytes psConfigSize a := by
          have hsize : a.elemSize < 2 ^ 32 := by cases a <;> decide
          rw [BitVec.toNat_mul, BitVec.toNat_ofNat, Nat.mod_eq_of_lt hsize]
          exact Nat.mod_eq_of_lt (by unfold Section.bytes at hlt; omega)
        have hoff : (u32RamAddrOffset + psConfigSize a * BitVec.ofNat 32 a.elemSize).toNat =
            u32RamAddrOffset.toNat + Section.bytes psConfigSize a := by
          rw [BitVec.toNat_add, hmul]
          exact Nat.mod_eq_of_lt (by omega)
        rw [placeSection_foldl hs hl' hmem' (by omega), hoff, Nat.add_assoc]
      · next hza =>
        have hzero : Section.bytes psConfigSize a = 0 := by
          have : (psConfigSize a).toNat = 0 := by
            have : ¬ (0 < (psConfigSize a).toNat) := hza
            omega
          rw [Section.bytes, this, Nat.zero_mul]
        rw [placeSection_foldl hs hl' hmem' (by omega), hzero, Nat.zero_add]

/-- The bytes of all sections. -/
def ramBytes (psConfigSize : CanfdElemSize) : Nat :=
  totalLen (Section.bytes psConfigSize) Section.all

/-- Where `canfdCalculateRamAddress` puts a section with elements. -/
theorem canfdCalculateRamAddress_toNat (psConfigAddr : CanfdRamPart) {psConfigSize : CanfdElemSize}
    (hlt : ramBytes psConfigSize < 2 ^ 32) {s : Section} (hs : psConfigSize s > 0) :
    (canfdCalculateRamAddress psConfigAddr psConfigSize s).toNat =
      startOf (Section.bytes psConfigSize) Section.all s := by
  have hfold : (canfdCalculateRamAddress psConfigAddr psConfigSize s).toNat =
      (0#32).toNat + startOf (Section.bytes psConfigSize) Section.all s :=
    placeSection_foldl hs Section.nodup_all s.mem_all (by simpa [ramBytes] using hlt)
  simpa using hfold

end NumakerMA35D1.Canfd

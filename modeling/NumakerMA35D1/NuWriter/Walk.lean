import NumakerMA35D1.NuWriter.Crc32
import NumakerMA35D1.NuWriter.Format

/-!
# The target's view of a pack file

The file lies in memory at the address the allocator gave; the target reads its header through
pointers, checks it, and steps from child to child by 32-bit pointer arithmetic.
`packChildList_eq` says that on a file whose children lie inside, the pointers it collects are
those of `childOffsets`, so that no truncation happens; `packProgramVisit_eq` reads them there.
-/

namespace NumakerMA35D1.NuWriter

open Embedded

/-- The file in memory. `rt_malloc` returns addresses aligned to `RT_ALIGN_SIZE`, a multiple of the
image boundary. -/
structure PackBuf extends Buffer where
  aligned : base.toNat % 16 = 0

/-- A file at the start of the DDR memory. -/
def PackBuf.inDdr (data : List Byte) (h : data.length ≤ 0x10000000) : PackBuf where
  base := 0x80000000#32
  data := data
  base_pos := by decide
  fits := by
    have hbase : (0x80000000#32).toNat = 0x80000000 := rfl
    omega
  aligned := by decide

/-- `PACK_ALIGN` on the 64-bit sum. Reference: `nuwriter.c:75 PACK_ALIGN`. -/
def packAlign (size : BitVec 64) : BitVec 64 := alignUp size (BitVec.ofNat 64 imageBoundarySize)

/-- The pointer to the child after `psPackChild`: the sum is taken in 64 bits and cut to 32.
Reference: `nuwriter.c:376 nuwriter_pack_verify`, `nuwriter.c:730 nuwriter_pack_program`. -/
def nextChildPtr (psPackChild : BitVec 32) (imageLength : BitVec 64) : BitVec 32 :=
  (packAlign (psPackChild.setWidth 64 + BitVec.ofNat 64 packChildSize + imageLength)).setWidth 32

/-- The checks on the header both entry points begin with: marker, reserved word, CRC over the
file from offset 8 on. Reference: `nuwriter.c:340 nuwriter_pack_verify`,
`nuwriter.c:707 nuwriter_pack_program`. -/
def packHdrOk (b : PackBuf) (u64FileLength : BitVec 64) : Except Fault Bool := do
  let marker ← b.readU32 (b.ptr 0)
  if marker ≠ nvtMarker then
    return false
  let reserve ← b.readU32 (b.ptr 12)
  if reserve ≠ 0xffffffff#32 then
    return false
  let u32CRC32ChkSum ← crc32 b.toBuffer (b.ptr 8) ((u64FileLength - 8#64).setWidth 32)
  let stored ← b.readU32 (b.ptr 4)
  return u32CRC32ChkSum = stored

/-- Entry `i` of the child table, which holds `u32ListSize` bytes.
Reference: `nuwriter.c:729`, the assignment to `ppsChildList[i]`. -/
def childListSlot (u32ListSize : BitVec 32) (i : Nat) : Except Fault Unit :=
  if 4 * i + 4 ≤ u32ListSize.toNat then .ok ()
  else .error (.outOfBounds (BitVec.ofNat 32 (4 * i)) 4)

/-- The loop that collects the child pointers, with `n` children left and `i` stored.
Reference: `nuwriter.c:726 nuwriter_pack_program`. -/
def packChildList (b : PackBuf) (u32ListSize : BitVec 32) :
    Nat → Nat → BitVec 32 → Except Fault (List (BitVec 32))
  | 0, _, _ => .ok []
  | n + 1, i, psPackChild => do
    childListSlot u32ListSize i
    let m_ui64ImageLength ← b.readU64 psPackChild
    let rest ← packChildList b u32ListSize n (i + 1) (nextChildPtr psPackChild m_ui64ImageLength)
    return psPackChild :: rest

/-- `nuwriter_pack_program` up to the opening of the device: `none` where it leaves, because the
header is refused or because the table cannot be allocated.
Reference: `nuwriter.c:690 nuwriter_pack_program`. -/
def packProgramChildren (b : PackBuf) (u64FileLength : BitVec 64) (listMalloc : Bool) :
    Except Fault (Option (List (BitVec 32))) := do
  if u64FileLength = 0#64 then
    return none
  if !(← packHdrOk b u64FileLength) then
    return none
  let m_ui32TotalImageCount ← b.readU32 (b.ptr 8)
  if !listMalloc then
    return none
  let ppsChildList ← packChildList b (m_ui32TotalImageCount * 4#32) m_ui32TotalImageCount.toNat 0
    (b.ptr packHdrSize)
  return some ppsChildList

/-- A child as the programming loops read it: header fields, and the bytes behind `m_au8Data` as
far as the buffer goes. Reference: `nuwriter.c:64 S_NUWRITER_PACK_CHILD`. -/
structure PackChild where
  m_ui64ImageLength : BitVec 64
  m_ui64FlashAddress : BitVec 64
  m_ui32ImageType : BitVec 32
  m_au8Data : List Byte
deriving DecidableEq, Repr

/-- The child at a pointer. -/
def loadChild (b : PackBuf) (psPackChild : BitVec 32) : Except Fault PackChild := do
  let m_ui64ImageLength ← b.readU64 psPackChild
  let m_ui64FlashAddress ← b.readU64 (psPackChild + 8#32)
  let m_ui32ImageType ← b.readU32 (psPackChild + 16#32)
  return { m_ui64ImageLength, m_ui64FlashAddress, m_ui32ImageType,
           m_au8Data := b.tail (psPackChild + BitVec.ofNat 32 packChildSize) }

/-- The children the programming loops of a pack visit, in the order of the table. -/
def packProgramVisit (b : PackBuf) (u64FileLength : BitVec 64) (listMalloc : Bool) :
    Except Fault (Option (List PackChild)) := do
  match ← packProgramChildren b u64FileLength listMalloc with
  | none => return none
  | some ppsChildList => return some (← ppsChildList.mapM (loadChild b))

/-! ## The header -/

section

variable {b : PackBuf} {u64FileLength : BitVec 64}

theorem readU32_field {o : Nat} (h : o + 4 ≤ b.data.length) :
    b.readU32 (b.ptr o) = .ok (BitVec.ofNat 32 (u32At b.data o)) :=
  Buffer.readU32_at h

theorem readU64_field {o : Nat} (h : o + 8 ≤ b.data.length) :
    b.readU64 (b.ptr o) = .ok (BitVec.ofNat 64 (u64At b.data o)) :=
  Buffer.readU64_at h

theorem ofNat_u32At_eq_iff {d : List Byte} {o : Nat} {v : BitVec 32} :
    BitVec.ofNat 32 (u32At d o) = v ↔ u32At d o = v.toNat := by
  rw [← BitVec.toNat_inj, BitVec.toNat_ofNat, Nat.mod_eq_of_lt (u32At_lt o)]

theorem packHdrOk_marker_past (h : b.data.length < 4) :
    ∃ f, packHdrOk b u64FileLength = .error f :=
  ⟨_, by rw [packHdrOk, Buffer.readU32_past (by omega) (by decide), error_bind]⟩

/-- A wrong marker is refused before anything else is read. -/
theorem packHdrOk_marker (h : 4 ≤ b.data.length) (hm : u32At b.data 0 ≠ nvtMarker.toNat) :
    packHdrOk b u64FileLength = .ok false := by
  have hne := mt ofNat_u32At_eq_iff.1 hm
  rw [packHdrOk, readU32_field (by omega), ok_bind, if_pos hne]
  rfl

theorem packHdrOk_reserve_past (h : 4 ≤ b.data.length) (hm : u32At b.data 0 = nvtMarker.toNat)
    (hlen : b.data.length < 16) : ∃ f, packHdrOk b u64FileLength = .error f := by
  have heq := ofNat_u32At_eq_iff.2 hm
  rw [packHdrOk, readU32_field (by omega), ok_bind, if_neg (not_not.2 heq),
    Buffer.readU32_past (by omega) (by decide), error_bind]
  exact ⟨_, rfl⟩

theorem packHdrOk_reserve (h : 16 ≤ b.data.length) (hm : u32At b.data 0 = nvtMarker.toNat)
    (hr : u32At b.data 12 ≠ (0xffffffff#32).toNat) : packHdrOk b u64FileLength = .ok false := by
  have heq := ofNat_u32At_eq_iff.2 hm
  have hne := mt ofNat_u32At_eq_iff.1 hr
  rw [packHdrOk, readU32_field (by omega), ok_bind, if_neg (not_not.2 heq),
    readU32_field (by omega), ok_bind, if_pos hne]
  rfl

/-- Past the marker and the reserved word, the checksum decides. -/
theorem packHdrOk_crc (h : 16 ≤ b.data.length) (hm : u32At b.data 0 = nvtMarker.toNat)
    (hr : u32At b.data 12 = (0xffffffff#32).toNat) :
    packHdrOk b u64FileLength =
      (crc32 b.toBuffer (b.ptr 8) ((u64FileLength - 8#64).setWidth 32)).map fun c =>
        decide (storedCrc b.data = c.toNat) := by
  have heq := ofNat_u32At_eq_iff.2 hm
  have hreq := ofNat_u32At_eq_iff.2 hr
  rw [packHdrOk, readU32_field (by omega), ok_bind, if_neg (not_not.2 heq),
    readU32_field (by omega), ok_bind, if_neg (not_not.2 hreq)]
  cases crc32 b.toBuffer (b.ptr 8) ((u64FileLength - 8#64).setWidth 32) with
  | error f => rfl
  | ok c =>
    rw [ok_bind, readU32_field (by omega), ok_bind]
    simp only [Except.map, pure, Except.pure, Except.ok.injEq, decide_eq_decide]
    rw [eq_comm, ofNat_u32At_eq_iff, storedCrc]

end

/-! ## Stepping from child to child -/

variable {b : PackBuf}

/-- While the next child starts inside the file, its pointer is the one of its offset. -/
theorem nextChildPtr_eq {o : Nat} (h : nextChild b.data o ≤ b.data.length) :
    nextChildPtr (b.ptr o) (BitVec.ofNat 64 (imageLength b.data o)) =
      b.ptr (nextChild b.data o) := by
  have hfits := b.fits
  have hle := le_nextChild (d := b.data) o
  have hlen := u64At_lt (d := b.data) o
  have hpos : 0 < packChildSize := by decide
  have hp : (b.ptr o).toNat = b.base.toNat + o := Buffer.ptr_toNat (by omega)
  have hsum : ((b.ptr o).setWidth 64 + BitVec.ofNat 64 packChildSize +
      BitVec.ofNat 64 (imageLength b.data o)).toNat =
      b.base.toNat + (o + packChildSize + imageLength b.data o) := by
    simp only [BitVec.toNat_add, BitVec.toNat_setWidth, BitVec.toNat_ofNat, hp]
    omega
  apply BitVec.eq_of_toNat_eq
  rw [nextChildPtr, BitVec.toNat_setWidth, packAlign,
    show BitVec.ofNat 64 imageBoundarySize = BitVec.ofNat 64 (2 ^ 4) by rfl,
    alignUp_toNat (by decide) _ (by rw [hsum]; omega), hsum,
    show 2 ^ 4 = 16 by rfl, roundUp_add_of_dvd (by decide) (Nat.dvd_of_mod_eq_zero b.aligned)]
  simp only [Buffer.ptr, BitVec.toNat_add, BitVec.toNat_ofNat, nextChild, imageBoundarySize,
    Nat.reducePow]
  rw [Nat.add_mod_mod]

/-- **The collected pointers are the children of the file**, in order. -/
theorem packChildList_eq {n i o : Nat} {u32ListSize : BitVec 32}
    (hin : ChildrenInside b.data n o) (hsize : 4 * (i + n) ≤ u32ListSize.toNat) :
    packChildList b u32ListSize n i (b.ptr o) =
      .ok ((childOffsets b.data n o).map b.ptr) := by
  induction n generalizing i o with
  | zero => rfl
  | succ n ih =>
    obtain ⟨hnext, hrest⟩ := hin
    have hle := le_nextChild (d := b.data) o
    have hread : o + 8 ≤ b.data.length := by
      have : packChildSize = 24 := rfl
      omega
    rw [packChildList, childListSlot, if_pos (by omega), ok_bind, readU64_field hread, ok_bind,
      ← imageLength, nextChildPtr_eq hnext, ih hrest (by omega)]
    rfl

/-- The child at an offset of the file. -/
def childRecord (d : List Byte) (o : Nat) : PackChild :=
  { m_ui64ImageLength := BitVec.ofNat 64 (imageLength d o)
    m_ui64FlashAddress := BitVec.ofNat 64 (flashAddress d o)
    m_ui32ImageType := BitVec.ofNat 32 (imageType d o)
    m_au8Data := d.drop (o + packChildSize) }

/-- A child read back through its pointer. -/
theorem loadChild_at {o : Nat} (h : o + packChildSize ≤ b.data.length) :
    loadChild b (b.ptr o) = .ok (childRecord b.data o) := by
  have hsize : packChildSize = 24 := rfl
  rw [loadChild, readU64_field (by omega), Buffer.ptr_add, Buffer.ptr_add, Buffer.ptr_add, ok_bind,
    readU64_field (by omega), ok_bind, readU32_field (by omega), ok_bind, Buffer.tail_at h]
  rfl

/-- **The walker visits the children of the file**, when its header is accepted and they lie
inside. -/
theorem packProgramVisit_eq {u64FileLength : BitVec 64} (hne : u64FileLength ≠ 0#64)
    (hok : packHdrOk b u64FileLength = .ok true) (hlen : packHdrSize ≤ b.data.length)
    (hin : ChildrenInside b.data (totalImageCount b.data) packHdrSize) :
    packProgramVisit b u64FileLength true = .ok (some
      ((childOffsets b.data (totalImageCount b.data) packHdrSize).map (childRecord b.data))) := by
  have hsize : packHdrSize = 16 := rfl
  have hlt := b.length_lt
  have hcount : packHdrSize + 24 * totalImageCount b.data ≤ b.data.length := hin.count_le hlen
  have hcnt : totalImageCount b.data < 2 ^ 32 := u32At_lt 8
  have hlist : packChildList b (BitVec.ofNat 32 (totalImageCount b.data) * 4#32)
      (totalImageCount b.data) 0 (b.ptr packHdrSize) =
      .ok ((childOffsets b.data (totalImageCount b.data) packHdrSize).map b.ptr) := by
    apply packChildList_eq hin
    rw [BitVec.toNat_mul, BitVec.toNat_ofNat, BitVec.toNat_ofNat, Nat.mod_eq_of_lt hcnt]
    omega
  have hload : ((childOffsets b.data (totalImageCount b.data) packHdrSize).map b.ptr).mapM
      (loadChild b) = .ok
        ((childOffsets b.data (totalImageCount b.data) packHdrSize).map (childRecord b.data)) := by
    rw [List.mapM_map]
    exact mapM_eq_ok fun o ho => loadChild_at (Nat.le_of_add_right_le (hin.of_mem ho))
  rw [packProgramVisit, packProgramChildren, if_neg hne, hok]
  simp only [ok_bind, Bool.not_true, Bool.false_eq_true, if_false]
  rw [readU32_field (by omega), ← totalImageCount, ok_bind, BitVec.toNat_ofNat,
    Nat.mod_eq_of_lt hcnt, hlist, ok_bind]
  simp only [pure_bind, hload, ok_bind]
  rfl

end NumakerMA35D1.NuWriter

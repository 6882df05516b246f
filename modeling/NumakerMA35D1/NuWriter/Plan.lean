import NumakerMA35D1.NuWriter.Program

/-!
# The operations of a pack

The operations that a pack leads to on a device, as a list: the data of a child cut into pieces of
a sector or of a page (`PackChild.pieces`), the last child first, each piece on the sector or the page
it goes to. The programs perform exactly these operations (`nuwriterPackProgramBlock_eq`,
`nuwriterPackProgramMtd_eq`, `nuwriterReadbackMtd_eq`).
-/

namespace NumakerMA35D1.NuWriter

open Embedded

/-! ## The pieces of a child -/

/-- The length of a child's data. -/
def PackChild.len (c : PackChild) : Nat := c.m_ui64ImageLength.toNat

/-- The data of a child lies in memory. -/
structure PackChild.Loaded (c : PackChild) : Prop where
  loaded : c.len ≤ c.m_au8Data.length
  length_lt : c.m_au8Data.length < 2 ^ 32

/-- The data of a child. -/
def PackChild.data (c : PackChild) : List Byte := c.m_au8Data.take c.len

/-- A number of bytes from a multiple of it on. -/
def PackChild.piece (unit : Nat) (c : PackChild) (k : Nat) : List Byte :=
  (c.data.drop (k * unit)).take unit

/-- The number of pieces. -/
def PackChild.numPieces (unit : Nat) (c : PackChild) : Nat := (c.len + (unit - 1)) / unit

/-- The pieces of a child. -/
def PackChild.pieces (unit : Nat) (c : PackChild) : List (List Byte) :=
  (List.range (c.numPieces unit)).map (c.piece unit)

section

variable {c : PackChild} {unit k n : Nat} {fails : Nat → Bool} {log : List StorageOp}

theorem PackChild.Loaded.len_lt (h : c.Loaded) : c.len < 2 ^ 32 :=
  lt_of_le_of_lt h.loaded h.length_lt

theorem PackChild.Loaded.data_length (h : c.Loaded) : c.data.length = c.len := by
  rw [data, List.length_take, Nat.min_eq_left h.loaded]

/-- A piece begins inside the data. -/
theorem PackChild.mul_lt_len (hunit : 0 < unit) : k < c.numPieces unit ↔ k * unit < c.len := by
  rw [numPieces, Nat.lt_div_iff_mul_lt hunit]
  omega

theorem PackChild.piece_length (h : c.Loaded) (k : Nat) :
    (c.piece unit k).length = min unit (c.len - k * unit) := by
  rw [piece, List.length_take, List.length_drop, h.data_length]

/-- The bytes of a transfer are a piece. -/
theorem PackChild.bytes_eq {offset remain unit : BitVec 32}
    (hoffset : offset.toNat = k * unit.toNat) (hremain : remain.toNat = c.len - k * unit.toNat) :
    c.bytes offset (transferBytes unit remain) = c.piece unit.toNat k ∧
      (transferBytes unit remain).toNat = min unit.toNat (c.len - k * unit.toNat) := by
  have htransfer : (transferBytes unit remain).toNat = min unit.toNat (c.len - k * unit.toNat) := by
    rw [transferBytes, ← hremain]
    split
    · next hge => exact (Nat.min_eq_left hge).symm
    · next hlt => exact (Nat.min_eq_right (Nat.le_of_lt (Nat.lt_of_not_le hlt))).symm
  refine ⟨?_, htransfer⟩
  rw [bytes, slice, htransfer, hoffset, Nat.add_sub_cancel_left, piece, data, List.drop_take,
    List.take_take]

end

/-! ## Block devices -/

/-- The sector of a piece of a child. -/
def sectorPos (bytes_per_sector : BitVec 32) (c : PackChild) (k : Nat) : BitVec 32 :=
  (c.m_ui64FlashAddress / bytes_per_sector.setWidth 64 + BitVec.ofNat 64 k).setWidth 32

/-- The pieces that are transferred of a child, from number `k` on, with their sectors. -/
def sectorPieces (bytes_per_sector : BitVec 32) (c : PackChild) (k n : Nat) :
    List (BitVec 32 × List Byte) :=
  (List.range' k n).map fun k => (sectorPos bytes_per_sector c k, c.piece bytes_per_sector.toNat k)

/-- Pieces written through a buffer that keeps what a shorter piece does not cover. -/
def sectorWrites : List Byte → List (BitVec 32 × List Byte) → List StorageOp
  | _, [] => []
  | buffer, (pos, piece) :: ps =>
    .writeSector pos (copyTo buffer piece) :: sectorWrites (copyTo buffer piece) ps

/-- The buffer after pieces. -/
def lastBuffer (buffer : List Byte) (ps : List (BitVec 32 × List Byte)) : List Byte :=
  ps.foldl (fun buffer p => copyTo buffer p.2) buffer

/-- The pieces that are transferred of a pack, the last child first. -/
def packPieces (bytes_per_sector : BitVec 32) (ppsChildList : List PackChild) :
    List (BitVec 32 × List Byte) :=
  ppsChildList.reverse.flatMap fun c =>
    sectorPieces bytes_per_sector c 0 (totalSectors bytes_per_sector c).toNat

/-- The operations of a pack on a block device. -/
def blockOps (bytes_per_sector : BitVec 32) (block_buffer : List Byte)
    (ppsChildList : List PackChild) : List StorageOp :=
  sectorWrites block_buffer (packPieces bytes_per_sector ppsChildList)

section

variable {c : PackChild} {k n : Nat} {fails : Nat → Bool} {log : List StorageOp}
  {bytes_per_sector : BitVec 32} {buffer : List Byte} {ps qs : List (BitVec 32 × List Byte)}

theorem sectorWrites_append :
    sectorWrites buffer (ps ++ qs) =
      sectorWrites buffer ps ++ sectorWrites (lastBuffer buffer ps) qs := by
  induction ps generalizing buffer with
  | nil => rfl
  | cons p ps ih => exact congrArg _ ih

theorem lastBuffer_append : lastBuffer buffer (ps ++ qs) = lastBuffer (lastBuffer buffer ps) qs :=
  List.foldl_append

theorem sectorWrites_length : (sectorWrites buffer ps).length = ps.length := by
  induction ps generalizing buffer with
  | nil => rfl
  | cons p ps ih => exact congrArg Nat.succ ih

/-- Rounding with a mask never rounds up too far. -/
theorem rtAlign64_le {size : BitVec 64} {align : BitVec 32} (hpos : 0 < align.toNat)
    (hlt : size.toNat < 2 ^ 32) : (rtAlign64 size align).toNat ≤ size.toNat + (align.toNat - 1) := by
  have halign := align.isLt
  have hsum : (size + align.setWidth 64 - 1).toNat = size.toNat + (align.toNat - 1) := by
    rw [BitVec.toNat_sub, BitVec.toNat_add, BitVec.toNat_setWidth]
    change (2 ^ 64 - 1 + (size.toNat + align.toNat % 2 ^ 64) % 2 ^ 64) % 2 ^ 64 = _
    omega
  rw [rtAlign64, BitVec.toNat_and, hsum]
  exact Nat.and_le_left

/-- No sector more than the child needs. -/
theorem totalSectors_le (h : c.Loaded) (hpos : 0 < bytes_per_sector.toNat) :
    (totalSectors bytes_per_sector c).toNat ≤ c.numPieces bytes_per_sector.toNat := by
  have hwidth : (bytes_per_sector.setWidth 64).toNat = bytes_per_sector.toNat :=
    BitVec.toNat_setWidth_of_le (by decide)
  rw [totalSectors, BitVec.toNat_setWidth, BitVec.toNat_udiv, hwidth]
  exact (Nat.mod_le _ _).trans (Nat.div_le_div_right (rtAlign64_le hpos h.len_lt))

/-- The loop over the sectors performs the writes of the pieces. -/
theorem programSectors_eq (h : c.Loaded) (hpos : 0 < bytes_per_sector.toNat)
    (hle : k + n ≤ c.numPieces bytes_per_sector.toNat) :
    programSectors fails bytes_per_sector c n (BitVec.ofNat 32 k)
        (BitVec.ofNat 32 (c.len - k * bytes_per_sector.toNat)) (buffer, log) =
      (performAll fails log (sectorWrites buffer (sectorPieces bytes_per_sector c k n))).map
        fun log => (lastBuffer buffer (sectorPieces bytes_per_sector c k n), log) := by
  induction n generalizing k buffer log with
  | zero => rfl
  | succ n ih =>
    have hlen := h.len_lt
    have hk : k * bytes_per_sector.toNat < c.len := (PackChild.mul_lt_len hpos).1 (by omega)
    have hklt : k < 2 ^ 32 :=
      lt_of_le_of_lt (Nat.le_mul_of_pos_right k hpos) (hk.trans hlen)
    have hoffset : (BitVec.ofNat 32 k * bytes_per_sector).toNat = k * bytes_per_sector.toNat := by
      rw [BitVec.toNat_mul, BitVec.toNat_ofNat, Nat.mod_eq_of_lt hklt]
      exact Nat.mod_eq_of_lt (hk.trans hlen)
    have hremain : (BitVec.ofNat 32 (c.len - k * bytes_per_sector.toNat)).toNat =
        c.len - k * bytes_per_sector.toNat := by
      rw [BitVec.toNat_ofNat]
      omega
    obtain ⟨hbytes, htransfer⟩ := PackChild.bytes_eq hoffset hremain
    have hnext : BitVec.ofNat 32 (c.len - k * bytes_per_sector.toNat) -
        transferBytes bytes_per_sector (BitVec.ofNat 32 (c.len - k * bytes_per_sector.toNat)) =
        BitVec.ofNat 32 (c.len - (k + 1) * bytes_per_sector.toNat) := by
      apply BitVec.eq_of_toNat_eq
      rw [BitVec.toNat_sub_of_le (by rw [BitVec.le_def, htransfer, hremain]; exact Nat.min_le_right _ _),
        htransfer, hremain, BitVec.toNat_ofNat, Nat.add_mul, Nat.one_mul]
      omega
    have hpos' : (c.m_ui64FlashAddress / bytes_per_sector.setWidth 64 +
        (BitVec.ofNat 32 k).setWidth 64).setWidth 32 = sectorPos bytes_per_sector c k := by
      rw [sectorPos]
      congr 2
      apply BitVec.eq_of_toNat_eq
      rw [BitVec.toNat_setWidth, BitVec.toNat_ofNat, BitVec.toNat_ofNat]
      omega
    rw [programSectors, hbytes, hpos', hnext, show BitVec.ofNat 32 k + 1 = BitVec.ofNat 32 (k + 1) from
      BitVec.ofNat_add_ofNat .., sectorPieces, List.range'_succ, List.map_cons, sectorWrites,
      performAll_cons]
    cases hperform : perform fails log (.writeSector (sectorPos bytes_per_sector c k)
        (copyTo buffer (c.piece bytes_per_sector.toNat k))) with
    | error e => rfl
    | ok log =>
      rw [ok_bind, ok_bind, ih (by omega)]
      rfl

/-- The loop over the children. -/
theorem programSectors_foldlM {cs : List PackChild} (h : ∀ c ∈ cs, c.Loaded)
    (hpos : 0 < bytes_per_sector.toNat) :
    cs.foldlM (fun s c => programSectors fails bytes_per_sector c
        (totalSectors bytes_per_sector c).toNat 0 (c.m_ui64ImageLength.setWidth 32) s)
        (buffer, log) =
      (performAll fails log (sectorWrites buffer (cs.flatMap fun c =>
        sectorPieces bytes_per_sector c 0 (totalSectors bytes_per_sector c).toNat))).map
        fun log => (lastBuffer buffer (cs.flatMap fun c =>
          sectorPieces bytes_per_sector c 0 (totalSectors bytes_per_sector c).toNat), log) := by
  induction cs generalizing buffer log with
  | nil => rfl
  | cons c cs ih =>
    obtain ⟨hc, hcs⟩ := List.forall_mem_cons.1 h
    have hlen : c.m_ui64ImageLength.setWidth 32 =
        BitVec.ofNat 32 (c.len - 0 * bytes_per_sector.toNat) := by
      apply BitVec.eq_of_toNat_eq
      rw [BitVec.toNat_setWidth, BitVec.toNat_ofNat, Nat.zero_mul, Nat.sub_zero, PackChild.len]
    have hle := totalSectors_le hc hpos
    have hfirst := @programSectors_eq c 0 (totalSectors bytes_per_sector c).toNat fails log
      bytes_per_sector buffer hc hpos (by rwa [Nat.zero_add])
    rw [← hlen] at hfirst
    change programSectors fails bytes_per_sector c _ 0 _ _ = _ at hfirst
    rw [List.foldlM_cons, hfirst, List.flatMap_cons, sectorWrites_append, performAll_append,
      lastBuffer_append]
    cases performAll fails log (sectorWrites buffer
        (sectorPieces bytes_per_sector c 0 (totalSectors bytes_per_sector c).toNat)) with
    | error e => rfl
    | ok log => exact ih hcs

/-- The program performs the operations of the pack. Reference: `nuwriter.c:397
nuwriter_pack_program_block`. -/
theorem nuwriterPackProgramBlock_eq {ppsChildList : List PackChild}
    (h : ∀ c ∈ ppsChildList, c.Loaded) (hne : bytes_per_sector ≠ 0) :
    nuwriterPackProgramBlock fails (some bytes_per_sector) buffer ppsChildList =
      performAll fails [] (blockOps bytes_per_sector buffer ppsChildList) := by
  have hpos : 0 < bytes_per_sector.toNat :=
    Nat.pos_of_ne_zero fun hzero => hne (BitVec.eq_of_toNat_eq hzero)
  simp only [nuwriterPackProgramBlock]
  rw [if_neg hne, programSectors_foldlM (fun c hc => h c (List.mem_reverse.1 hc)) hpos]
  change (performAll fails [] (blockOps bytes_per_sector buffer ppsChildList)).map _ >>= _ = _
  cases performAll fails [] (blockOps bytes_per_sector buffer ppsChildList) with
  | error e => rfl
  | ok log => rfl

end

/-! ## Bad blocks -/

section

variable {bad : BitVec 32 → Bool} {device : MtdNandDevice} {fuel : Nat} {off : BitVec 32}

theorem off_step (off : BitVec 32) (i : Nat) :
    off + 1 + BitVec.ofNat 32 i = off + BitVec.ofNat 32 (i + 1) := by
  rw [BitVec.add_assoc, BitVec.add_comm 1, ← BitVec.ofNat_add_ofNat]
  rfl

/-- The search goes by all of its blocks if and only if they are bad. -/
theorem skipBad_eq_none :
    skipBad bad fuel off = none ↔ ∀ i < fuel, bad (off + BitVec.ofNat 32 i) = true := by
  induction fuel generalizing off with
  | zero => exact ⟨fun _ i hi => absurd hi (Nat.not_lt_zero i), fun _ => rfl⟩
  | succ fuel ih =>
    rw [skipBad]
    by_cases hbad : bad off = true
    · rw [if_pos hbad, ih]
      constructor
      · intro h i hi
        cases i with
        | zero => rwa [show BitVec.ofNat 32 0 = 0#32 from rfl, BitVec.add_zero]
        | succ i =>
          rw [← off_step]
          exact h i (Nat.lt_of_succ_lt_succ hi)
      · intro h i hi
        rw [off_step]
        exact h (i + 1) (Nat.succ_lt_succ hi)
    · rw [if_neg hbad]
      refine ⟨(fun h => nomatch h), fun h => ?_⟩
      have h0 := h 0 (Nat.succ_pos _)
      rw [show BitVec.ofNat 32 0 = 0#32 from rfl, BitVec.add_zero] at h0
      exact absurd h0 hbad

/-- What the search finds is the first block that is not bad. -/
theorem skipBad_eq_some {block : BitVec 32} (h : skipBad bad fuel off = some block) :
    ∃ i < fuel, block = off + BitVec.ofNat 32 i ∧ bad block = false ∧
      ∀ j < i, bad (off + BitVec.ofNat 32 j) = true := by
  induction fuel generalizing off with
  | zero => cases h
  | succ fuel ih =>
    rw [skipBad] at h
    have hzero : off + BitVec.ofNat 32 0 = off := BitVec.add_zero off
    by_cases hbad : bad off = true
    · rw [if_pos hbad] at h
      obtain ⟨i, hi, hblock, hgood, hskipped⟩ := ih h
      refine ⟨i + 1, Nat.succ_lt_succ hi, hblock.trans (off_step off i), hgood, fun j hj => ?_⟩
      cases j with
      | zero => rwa [hzero]
      | succ j =>
        rw [← off_step]
        exact hskipped j (Nat.lt_of_succ_lt_succ hj)
    · rw [if_neg hbad] at h
      cases h
      exact ⟨0, Nat.succ_pos _, hzero.symm, Bool.eq_false_of_not_eq_true hbad,
        fun j hj => absurd hj (Nat.not_lt_zero j)⟩

/-- The next block that is not bad. -/
def MtdNandDevice.next (device : MtdNandDevice) (off : BitVec 32) : BitVec 32 :=
  (skipBad device.bad (2 ^ 32) off).getD off

/-- While some block is not bad the search ends. -/
theorem MtdNandDevice.goodBlock_eq (h : ∃ block, device.bad block = false) (off : BitVec 32) :
    device.goodBlock off = .ok (device.next off) := by
  obtain ⟨block, hgood⟩ := h
  rw [goodBlock, next]
  cases hskip : skipBad device.bad (2 ^ 32) off with
  | some block' => rfl
  | none =>
    have hbad := skipBad_eq_none.1 hskip (block - off).toNat (block - off).isLt
    rw [BitVec.ofNat_toNat, BitVec.setWidth_eq, BitVec.add_comm, BitVec.sub_add_cancel,
      hgood] at hbad
    cases hbad

theorem MtdNandDevice.goodBlock_endless (h : ∀ block, device.bad block = true) (off : BitVec 32) :
    device.goodBlock off = .error .endless := by
  rw [goodBlock, skipBad_eq_none.2 fun i _ => h _]

/-- The next block is not bad, and all between are. -/
theorem MtdNandDevice.next_spec (h : ∃ block, device.bad block = false) (off : BitVec 32) :
    ∃ i < 2 ^ 32, device.next off = off + BitVec.ofNat 32 i ∧ device.bad (device.next off) = false ∧
      ∀ j < i, device.bad (off + BitVec.ofNat 32 j) = true := by
  have hok := goodBlock_eq h off
  rw [goodBlock] at hok
  cases hskip : skipBad device.bad (2 ^ 32) off with
  | none =>
    rw [hskip] at hok
    cases hok
  | some block =>
    rw [next, hskip]
    exact skipBad_eq_some hskip

end

/-! ## NAND flashes -/

/-- The sizes of a device as numbers. -/
def MtdNandDevice.pageSize (device : MtdNandDevice) : Nat := device.page_size.toNat
@[inherit_doc MtdNandDevice.pageSize]
def MtdNandDevice.pagesPerBlock (device : MtdNandDevice) : Nat := device.pages_per_block.toNat
@[inherit_doc MtdNandDevice.pageSize]
def MtdNandDevice.eraseSize (device : MtdNandDevice) : Nat := device.pageSize * device.pagesPerBlock

/-- The pages written in the block of number `j` of a child. -/
def MtdNandDevice.blockPages (device : MtdNandDevice) (c : PackChild) (j : Nat) : Nat :=
  min device.pagesPerBlock (c.numPieces device.pageSize - j * device.pagesPerBlock)

/-- The writes of some pages of a child, from page `p` of its block `j` on. -/
def MtdNandDevice.pageWrites (device : MtdNandDevice) (c : PackChild) (block : BitVec 32)
    (j p n : Nat) : List StorageOp :=
  (List.range' p n).map fun p =>
    .writePage (block * device.pages_per_block + BitVec.ofNat 32 p)
      (c.piece device.pageSize (j * device.pagesPerBlock + p))

/-- The operations on the blocks of a child, with so many left, from its block `j` on: each block that
is not bad from `off` on is erased and its pages are written. -/
def MtdNandDevice.blockWrites (device : MtdNandDevice) (c : PackChild) :
    Nat → Nat → BitVec 32 → List StorageOp
  | 0, _, _ => []
  | n + 1, j, off =>
    .eraseBlock (device.next off) ::
      device.pageWrites c (device.next off) j 0 (device.blockPages c j) ++
      device.blockWrites c n (j + 1) (device.next off + 1)

/-- The block of a flash address. -/
def MtdNandDevice.firstBlock (device : MtdNandDevice) (c : PackChild) : BitVec 32 :=
  (c.m_ui64FlashAddress / device.u32EraseSize.setWidth 64).setWidth 32

/-- The operations of a child on a NAND flash. -/
def MtdNandDevice.childOps (device : MtdNandDevice) (c : PackChild) : List StorageOp :=
  device.blockWrites c (device.totalBlock c).toNat 0 (device.firstBlock c)

/-- The children that are programmed, the last one first: those before the first of which the address is
not at the start of a block. -/
def MtdNandDevice.ready (device : MtdNandDevice) (ppsChildList : List PackChild) : List PackChild :=
  ppsChildList.reverse.takeWhile device.aligned

/-- The reads of some pages of a block, from page `p` on, each written to the file if there is one. -/
def MtdNandDevice.pageReads (device : MtdNandDevice) (hasFile : Bool) (block : BitVec 32) (p n : Nat) :
    List StorageOp :=
  (List.range' p n).flatMap fun p =>
    .readPage (block * device.pages_per_block + BitVec.ofNat 32 p) ::
      if hasFile then [.writeFile (block * device.pages_per_block + BitVec.ofNat 32 p)] else []

/-- The reads of blocks, with so many left: the pages of each block that is not bad from `off` on. -/
def MtdNandDevice.blockReads (device : MtdNandDevice) (hasFile : Bool) :
    Nat → BitVec 32 → List StorageOp
  | 0, _ => []
  | n + 1, off =>
    device.pageReads hasFile (device.next off) 0 device.pagesPerBlock ++
      device.blockReads hasFile n (device.next off + 1)

/-- The operations of a read-back. -/
def readbackOps (device : MtdNandDevice) (hasFile : Bool) : List StorageOp :=
  device.blockReads hasFile device.block_total.toNat device.block_start

section

variable {device : MtdNandDevice} {c : PackChild} {fails : Nat → Bool} {log : List StorageOp}
  {block off : BitVec 32} {j p n : Nat}

theorem MtdNandDevice.pageSize_pos (device : MtdNandDevice) : 0 < device.pageSize := by
  obtain ⟨k, hk⟩ := device.page_pow
  rw [pageSize, hk]
  positivity

theorem MtdNandDevice.pagesPerBlock_pos (device : MtdNandDevice) : 0 < device.pagesPerBlock := by
  obtain ⟨k, hk⟩ := device.pages_pow
  rw [pagesPerBlock, hk]
  positivity

theorem MtdNandDevice.eraseSize_pos (device : MtdNandDevice) : 0 < device.eraseSize :=
  Nat.mul_pos device.pageSize_pos device.pagesPerBlock_pos

theorem MtdNandDevice.page_toNat (device : MtdNandDevice) :
    (device.page_size.setWidth 32).toNat = device.pageSize :=
  BitVec.toNat_setWidth_of_le (by decide)

theorem MtdNandDevice.erase_toNat (device : MtdNandDevice) :
    device.u32EraseSize.toNat = device.eraseSize := by
  rw [u32EraseSize, BitVec.toNat_mul, page_toNat, Nat.mul_comm]
  exact Nat.mod_eq_of_lt device.erase_lt

/-- The sizes are powers of two of which the product fits a word. -/
theorem MtdNandDevice.page_eq (device : MtdNandDevice) :
    ∃ k < 16, device.pageSize = 2 ^ k ∧ device.page_size.setWidth 32 = BitVec.ofNat 32 (2 ^ k) := by
  obtain ⟨k, hk⟩ := device.page_pow
  have hlt : k < 16 := (Nat.pow_lt_pow_iff_right (by decide)).1 (hk ▸ device.page_size.isLt)
  refine ⟨k, hlt, hk, BitVec.eq_of_toNat_eq ?_⟩
  rw [device.page_toNat, pageSize, hk, BitVec.toNat_ofNat, Nat.mod_eq_of_lt]
  exact Nat.pow_lt_pow_right (by decide) (by omega)

theorem MtdNandDevice.erase_eq (device : MtdNandDevice) :
    ∃ k < 32, device.eraseSize = 2 ^ k ∧ device.u32EraseSize = BitVec.ofNat 32 (2 ^ k) := by
  obtain ⟨k, hk⟩ := device.page_pow
  obtain ⟨k', hk'⟩ := device.pages_pow
  have herase : device.eraseSize = 2 ^ (k + k') := by
    rw [eraseSize, pageSize, pagesPerBlock, hk, hk', Nat.pow_add]
  have hlt : 2 ^ (k + k') < 2 ^ 32 := herase ▸ device.erase_lt
  refine ⟨k + k', (Nat.pow_lt_pow_iff_right (by decide)).1 hlt, herase, BitVec.eq_of_toNat_eq ?_⟩
  rw [device.erase_toNat, herase, BitVec.toNat_ofNat, Nat.mod_eq_of_lt hlt]

/-- The number of blocks of a child: as many as it needs, or none when the sum wraps. -/
theorem MtdNandDevice.totalBlock_toNat (h : c.Loaded) :
    (device.totalBlock c).toNat =
      if c.len + (device.eraseSize - 1) < 2 ^ 32 then c.numPieces device.eraseSize else 0 := by
  obtain ⟨k, hk, herase, hword⟩ := device.erase_eq
  have hpos := device.eraseSize_pos
  have hlen : (c.m_ui64ImageLength.setWidth 32).toNat = c.len := by
    rw [BitVec.toNat_setWidth]
    exact Nat.mod_eq_of_lt h.len_lt
  rw [totalBlock, BitVec.toNat_udiv, device.erase_toNat, hword]
  split
  · next hlt =>
    rw [alignUp_toNat hk _ (by rw [hlen, ← herase]; exact hlt), hlen, ← herase, roundUp,
      Nat.mul_div_cancel _ hpos, PackChild.numPieces]
  · next hge =>
    rw [alignUp_wrap hk _ (by rw [hlen, ← herase]; omega)]
    exact Nat.zero_div _

/-- The pieces from a block of the child on. -/
theorem MtdNandDevice.numPieces_sub (device : MtdNandDevice) (c : PackChild) (j : Nat) :
    c.numPieces device.pageSize - j * device.pagesPerBlock =
      (c.len - j * device.eraseSize + (device.pageSize - 1)) / device.pageSize := by
  have hpos := device.pageSize_pos
  have hmul : j * device.eraseSize = device.pageSize * (j * device.pagesPerBlock) := by
    rw [eraseSize, Nat.mul_left_comm]
  rw [PackChild.numPieces, hmul, ← Nat.sub_mul_div]
  by_cases hle : device.pageSize * (j * device.pagesPerBlock) ≤ c.len
  · rw [Nat.sub_add_comm hle]
  · rw [Nat.sub_eq_zero_of_le (Nat.le_of_lt (Nat.lt_of_not_le hle)), Nat.zero_add,
      Nat.div_eq_of_lt (by omega), Nat.div_eq_of_lt (by omega)]

/-- The pages of a block as the program counts them. -/
theorem MtdNandDevice.totalPage_toNat (h : c.Loaded) (j : Nat) :
    (device.totalPage (BitVec.ofNat 32 (c.len - j * device.eraseSize))).toNat =
      device.blockPages c j := by
  obtain ⟨k, hk, hpage, hword⟩ := device.page_eq
  obtain ⟨k', hk', herase, -⟩ := device.erase_eq
  have hpos := device.pageSize_pos
  have hlen := h.len_lt
  have hremain : (BitVec.ofNat 32 (c.len - j * device.eraseSize)).toNat =
      c.len - j * device.eraseSize := by
    rw [BitVec.toNat_ofNat]
    omega
  have hmul : device.eraseSize = device.pagesPerBlock * device.pageSize := Nat.mul_comm _ _
  rw [totalPage, blockPages, device.numPieces_sub]
  split
  · next hge =>
    rw [ge_iff_le, BitVec.le_def, hremain, device.erase_toNat] at hge
    have hfull : device.pagesPerBlock ≤
        (c.len - j * device.eraseSize + (device.pageSize - 1)) / device.pageSize := by
      rw [Nat.le_div_iff_mul_le hpos, ← hmul]
      exact hge.trans (Nat.le_add_right _ _)
    exact (Nat.min_eq_left hfull).symm
  · next hlt =>
    rw [ge_iff_le, BitVec.le_def, hremain, device.erase_toNat] at hlt
    have hfew : (c.len - j * device.eraseSize + (device.pageSize - 1)) / device.pageSize ≤
        device.pagesPerBlock := by
      rw [← Nat.lt_succ_iff, Nat.div_lt_iff_lt_mul hpos, Nat.succ_mul, ← hmul]
      omega
    have hsum : c.len - j * device.eraseSize + (2 ^ k - 1) < 2 ^ 32 := by
      have hpow : (2 : Nat) ^ k < 2 ^ 16 := Nat.pow_lt_pow_right (by decide) hk
      have herase' : (2 : Nat) ^ k' ≤ 2 ^ 31 := Nat.pow_le_pow_right (by decide) (by omega)
      omega
    rw [BitVec.toNat_udiv, device.page_toNat, hword,
      alignUp_toNat (Nat.lt_trans hk (by decide)) _ (by rwa [hremain]), hremain, ← hpage, roundUp,
      Nat.mul_div_cancel _ hpos]
    exact (Nat.min_eq_right hfew).symm

/-- The loop over the pages performs their writes. -/
theorem programPages_eq (h : c.Loaded)
    (hle : n ≤ c.numPieces device.pageSize - (j * device.pagesPerBlock + p)) :
    programPages fails device c (BitVec.ofNat 32 j) (block * device.pages_per_block) n
        (BitVec.ofNat 32 p)
        (BitVec.ofNat 32 (c.len - (j * device.pagesPerBlock + p) * device.pageSize)) log =
      (performAll fails log (device.pageWrites c block j p n)).map fun log =>
        (BitVec.ofNat 32 (c.len - (j * device.pagesPerBlock + p + n) * device.pageSize), log) := by
  induction n generalizing p log with
  | zero => rfl
  | succ n ih =>
    have hlen := h.len_lt
    have hpos := device.pageSize_pos
    have hk : (j * device.pagesPerBlock + p) * device.pageSize < c.len :=
      (PackChild.mul_lt_len hpos).1 (by omega)
    have hklt : j * device.pagesPerBlock + p < 2 ^ 32 :=
      lt_of_le_of_lt (Nat.le_mul_of_pos_right _ hpos) (hk.trans hlen)
    have hindex : (BitVec.ofNat 32 j * device.pages_per_block + BitVec.ofNat 32 p) =
        BitVec.ofNat 32 (j * device.pagesPerBlock + p) := by
      rw [← BitVec.ofNat_add_ofNat, BitVec.ofNat_mul, MtdNandDevice.pagesPerBlock, BitVec.ofNat_toNat,
        BitVec.setWidth_eq]
    have hoffset : ((BitVec.ofNat 32 j * device.pages_per_block + BitVec.ofNat 32 p) *
        device.page_size.setWidth 32).toNat =
        (j * device.pagesPerBlock + p) * (device.page_size.setWidth 32).toNat := by
      rw [hindex, BitVec.toNat_mul, device.page_toNat, BitVec.toNat_ofNat, Nat.mod_eq_of_lt hklt]
      exact Nat.mod_eq_of_lt (hk.trans hlen)
    have hremain : (BitVec.ofNat 32 (c.len - (j * device.pagesPerBlock + p) * device.pageSize)).toNat =
        c.len - (j * device.pagesPerBlock + p) * (device.page_size.setWidth 32).toNat := by
      rw [device.page_toNat, BitVec.toNat_ofNat]
      omega
    obtain ⟨hbytes, htransfer⟩ := PackChild.bytes_eq hoffset hremain
    rw [device.page_toNat] at hbytes htransfer hremain
    have hnext : BitVec.ofNat 32 (c.len - (j * device.pagesPerBlock + p) * device.pageSize) -
        transferBytes (device.page_size.setWidth 32)
          (BitVec.ofNat 32 (c.len - (j * device.pagesPerBlock + p) * device.pageSize)) =
        BitVec.ofNat 32 (c.len - (j * device.pagesPerBlock + (p + 1)) * device.pageSize) := by
      apply BitVec.eq_of_toNat_eq
      rw [BitVec.toNat_sub_of_le (by rw [BitVec.le_def, htransfer, hremain]; exact Nat.min_le_right _ _),
        htransfer, hremain, BitVec.toNat_ofNat, ← Nat.add_assoc, Nat.succ_mul]
      omega
    have hend : j * device.pagesPerBlock + (p + 1) + n = j * device.pagesPerBlock + p + (n + 1) := by
      omega
    rw [programPages, hbytes, hnext, show BitVec.ofNat 32 p + 1 = BitVec.ofNat 32 (p + 1) from
      BitVec.ofNat_add_ofNat .., MtdNandDevice.pageWrites, List.range'_succ, List.map_cons,
      performAll_cons]
    cases perform fails log (.writePage (block * device.pages_per_block + BitVec.ofNat 32 p)
        (c.piece device.pageSize (j * device.pagesPerBlock + p))) with
    | error e => rfl
    | ok log => rw [ok_bind, ok_bind, ih (by omega), hend]; rfl

/-- What remains of a child at a block. -/
theorem MtdNandDevice.remain_start (device : MtdNandDevice) (c : PackChild) (j : Nat) :
    c.len - (j * device.pagesPerBlock + 0) * device.pageSize = c.len - j * device.eraseSize := by
  rw [eraseSize, Nat.add_zero, Nat.mul_assoc, Nat.mul_comm device.pageSize]

/-- What remains of a child after a block. -/
theorem MtdNandDevice.remain_blockPages (device : MtdNandDevice) (c : PackChild) (j : Nat) :
    c.len - (j * device.pagesPerBlock + 0 + device.blockPages c j) * device.pageSize =
      c.len - (j + 1) * device.eraseSize := by
  have hnext := device.remain_start c (j + 1)
  rw [Nat.add_zero] at hnext ⊢
  rw [blockPages, ← hnext]
  by_cases hfull : device.pagesPerBlock ≤ c.numPieces device.pageSize - j * device.pagesPerBlock
  · rw [Nat.min_eq_left hfull, Nat.succ_mul]
  · -- the data ends in this block: nothing remains
    have hend : ∀ k, c.numPieces device.pageSize ≤ k → c.len - k * device.pageSize = 0 := by
      intro k hk
      have hlt := mt (PackChild.mul_lt_len device.pageSize_pos).2 (Nat.not_lt.2 hk)
      exact Nat.sub_eq_zero_of_le (Nat.not_lt.1 hlt)
    rw [hend _ (by omega), hend _ (by rw [Nat.succ_mul]; omega)]

/-- The loop over the blocks performs their operations. -/
theorem programBlocks_eq (h : c.Loaded) (hgood : ∃ block, device.bad block = false) :
    programBlocks fails device c n (BitVec.ofNat 32 j) off
        (BitVec.ofNat 32 (c.len - j * device.eraseSize)) log =
      performAll fails log (device.blockWrites c n j off) := by
  induction n generalizing j off log with
  | zero => rfl
  | succ n ih =>
    have hloop : ∀ log, programPages fails device c (BitVec.ofNat 32 j)
        (device.next off * device.pages_per_block) (device.blockPages c j) 0
        (BitVec.ofNat 32 (c.len - j * device.eraseSize)) log =
        (performAll fails log (device.pageWrites c (device.next off) j 0 (device.blockPages c j))).map
          fun log => (BitVec.ofNat 32 (c.len - (j + 1) * device.eraseSize), log) := by
      intro log
      have hpages := @programPages_eq device c fails log (device.next off) j 0
        (device.blockPages c j) h (Nat.min_le_right _ _)
      rw [device.remain_blockPages, device.remain_start] at hpages
      exact hpages
    have hnext : BitVec.ofNat 32 (j + 1) = BitVec.ofNat 32 j + 1 := BitVec.ofNat_add ..
    rw [programBlocks, MtdNandDevice.goodBlock_eq hgood, ok_bind, MtdNandDevice.blockWrites,
      List.cons_append, performAll_cons]
    cases perform fails log (.eraseBlock (device.next off)) with
    | error e => rfl
    | ok log =>
      rw [ok_bind, ok_bind, device.totalPage_toNat h, hloop, performAll_append]
      cases performAll fails log
          (device.pageWrites c (device.next off) j 0 (device.blockPages c j)) with
      | error e => rfl
      | ok log => exact hnext ▸ ih

/-- One child. -/
theorem programChild_eq (h : c.Loaded) (hgood : ∃ block, device.bad block = false) :
    programChild fails device log c =
      if device.aligned c then performAll fails log (device.childOps c)
      else .error (.refused log) := by
  have hlen : c.m_ui64ImageLength.setWidth 32 = BitVec.ofNat 32 (c.len - 0 * device.eraseSize) := by
    apply BitVec.eq_of_toNat_eq
    rw [BitVec.toNat_setWidth, BitVec.toNat_ofNat, Nat.zero_mul, Nat.sub_zero, PackChild.len]
  rw [programChild, hlen]
  split
  · exact programBlocks_eq h hgood
  · rfl

/-- The loop over the children: it gives up at the first that is not aligned. -/
theorem programChild_foldlM {cs : List PackChild} (h : ∀ c ∈ cs, c.Loaded)
    (hgood : ∃ block, device.bad block = false) :
    cs.foldlM (programChild fails device) log =
      performAll fails log ((cs.takeWhile device.aligned).flatMap device.childOps) >>= fun log =>
        if cs.all device.aligned then .ok log else .error (.refused log) := by
  induction cs generalizing log with
  | nil => rfl
  | cons c cs ih =>
    obtain ⟨hc, hcs⟩ := List.forall_mem_cons.1 h
    rw [List.foldlM_cons, programChild_eq hc hgood, List.takeWhile_cons, List.all_cons]
    by_cases haligned : device.aligned c = true
    · rw [if_pos haligned, if_pos haligned, haligned, Bool.true_and, List.flatMap_cons,
        performAll_append]
      cases performAll fails log (device.childOps c) with
      | error e => rfl
      | ok log => exact ih hcs
    · rw [if_neg haligned, if_neg haligned, Bool.eq_false_of_not_eq_true haligned]
      rfl

/-- The program performs the operations of the children before the first that is not aligned.
Reference: `nuwriter.c:477 nuwriter_pack_program_mtd`. -/
theorem nuwriterPackProgramMtd_eq {ppsChildList : List PackChild}
    (h : ∀ c ∈ ppsChildList, c.Loaded) (hgood : ∃ block, device.bad block = false) :
    nuwriterPackProgramMtd fails device ppsChildList =
      performAll fails [] ((device.ready ppsChildList).flatMap device.childOps) >>= fun log =>
        if ppsChildList.all device.aligned then .ok log else .error (.refused log) := by
  rw [nuwriterPackProgramMtd, programChild_foldlM (fun c hc => h c (List.mem_reverse.1 hc)) hgood,
    List.all_reverse, MtdNandDevice.ready]

/-- With bad blocks only, the program never comes past a child that has a block. -/
theorem nuwriterPackProgramMtd_endless {ppsChildList : List PackChild}
    (hbad : ∀ block, device.bad block = true)
    (hblock : ∃ c ∈ device.ready ppsChildList, device.totalBlock c ≠ 0) :
    nuwriterPackProgramMtd fails device ppsChildList = .error .endless := by
  rw [nuwriterPackProgramMtd]
  rw [MtdNandDevice.ready] at hblock
  generalize ppsChildList.reverse = cs at hblock
  generalize ([] : List StorageOp) = log
  induction cs with
  | nil =>
    obtain ⟨c, hc, -⟩ := hblock
    cases hc
  | cons c cs ih =>
    rw [List.takeWhile_cons] at hblock
    by_cases haligned : device.aligned c = true
    · rw [if_pos haligned] at hblock
      rw [List.foldlM_cons, programChild, if_pos haligned]
      cases hn : (device.totalBlock c).toNat with
      | succ n => rw [programBlocks, MtdNandDevice.goodBlock_endless hbad]; rfl
      | zero =>
        obtain ⟨c', hc', hne⟩ := hblock
        rcases List.mem_cons.1 hc' with rfl | hmem
        · exact absurd (BitVec.eq_of_toNat_eq hn) hne
        · exact ih ⟨c', hmem, hne⟩
    · rw [if_neg haligned] at hblock
      obtain ⟨c', hc', -⟩ := hblock
      cases hc'

/-- Without a block to find, the program does nothing. -/
theorem nuwriterPackProgramMtd_idle {ppsChildList : List PackChild}
    (hblock : ∀ c ∈ device.ready ppsChildList, device.totalBlock c = 0) :
    nuwriterPackProgramMtd fails device ppsChildList =
      if ppsChildList.all device.aligned then .ok [] else .error (.refused []) := by
  rw [nuwriterPackProgramMtd, ← List.all_reverse]
  rw [MtdNandDevice.ready] at hblock
  generalize ppsChildList.reverse = cs at hblock ⊢
  induction cs with
  | nil => rfl
  | cons c cs ih =>
    rw [List.takeWhile_cons] at hblock
    rw [List.foldlM_cons, programChild, List.all_cons]
    by_cases haligned : device.aligned c = true
    · rw [if_pos haligned] at hblock
      obtain ⟨hc, hcs⟩ := List.forall_mem_cons.1 hblock
      rw [if_pos haligned, hc, haligned, Bool.true_and]
      exact ih hcs
    · rw [if_neg haligned, Bool.eq_false_of_not_eq_true haligned]
      rfl

/-! ## Reading back -/

/-- The loop over the pages performs their reads. -/
theorem readbackPages_eq {hasFile : Bool} :
    readbackPages fails hasFile (block * device.pages_per_block) n (BitVec.ofNat 32 p) log =
      performAll fails log (device.pageReads hasFile block p n) := by
  induction n generalizing p log with
  | zero => rfl
  | succ n ih =>
    have hnext : BitVec.ofNat 32 (p + 1) = BitVec.ofNat 32 p + 1 := BitVec.ofNat_add ..
    rw [readbackPages, MtdNandDevice.pageReads, List.range'_succ, List.flatMap_cons, performAll_append,
      performAll_cons, ← hnext]
    cases perform fails log (.readPage (block * device.pages_per_block + BitVec.ofNat 32 p)) with
    | error e => rfl
    | ok log =>
      cases hasFile with
      | false => exact ih
      | true =>
        rw [ok_bind, ok_bind, if_pos rfl, if_pos rfl, performAll_singleton]
        cases perform fails log (.writeFile (block * device.pages_per_block + BitVec.ofNat 32 p)) with
        | error e => rfl
        | ok log => exact ih

/-- The loop over the blocks performs their reads. -/
theorem readbackBlocks_eq {hasFile : Bool} (hgood : ∃ block, device.bad block = false) :
    readbackBlocks fails hasFile device n off log =
      performAll fails log (device.blockReads hasFile n off) := by
  induction n generalizing off log with
  | zero => rfl
  | succ n ih =>
    rw [readbackBlocks, MtdNandDevice.goodBlock_eq hgood, ok_bind, MtdNandDevice.blockReads,
      performAll_append]
    have hpages := @readbackPages_eq device fails log (device.next off) 0 device.pagesPerBlock hasFile
    change readbackPages fails hasFile _ device.pages_per_block.toNat 0 log = _ at hpages
    rw [hpages]
    cases performAll fails log
        (device.pageReads hasFile (device.next off) 0 device.pagesPerBlock) with
    | error e => rfl
    | ok log => exact ih

/-- The read-back performs the reads of its blocks. Reference: `nuwriter.c:598
nuwriter_readback_mtd`. -/
theorem nuwriterReadbackMtd_eq {hasFile : Bool} (hgood : ∃ block, device.bad block = false) :
    nuwriterReadbackMtd fails hasFile device = performAll fails [] (readbackOps device hasFile) :=
  readbackBlocks_eq hgood

/-- With bad blocks only, the read-back never ends. -/
theorem nuwriterReadbackMtd_endless {hasFile : Bool} (hbad : ∀ block, device.bad block = true)
    (hblock : device.block_total ≠ 0) :
    nuwriterReadbackMtd fails hasFile device = .error .endless := by
  rw [nuwriterReadbackMtd]
  cases hn : device.block_total.toNat with
  | zero => exact absurd (BitVec.eq_of_toNat_eq hn) hblock
  | succ n => rw [readbackBlocks, MtdNandDevice.goodBlock_endless hbad]; rfl

end

end NumakerMA35D1.NuWriter

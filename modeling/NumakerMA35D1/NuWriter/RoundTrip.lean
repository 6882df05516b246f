import NumakerMA35D1.NuWriter.Pack

/-!
# Every reader recovers what was packed

`doPack_roundtrip`: on a pack file made by `doPack`, the PC's `UnpackImage` accepts the CRC and
lists the images that were packed, the target's walker visits the same children, and the target's
`crc32` over the file is the checksum the packer stored.
-/

namespace NumakerMA35D1.NuWriter

open Embedded

/-! ## The reader on the PC -/

section

variable {d : List Byte}

/-- The table entry of the child at `o`. -/
def entryAt (d : List Byte) (o : Nat) : ImgEntry :=
  { length := imageLength d o
    offset := flashAddress d o
    type := imageType d o
    dataIndex := o + 24 }

/-- The script's rounding of the running index is the format's. -/
theorem index_round (o len : Nat) :
    (if (o + (len + 24)) % 16 ≠ 0 then o + (len + 24) + (16 - (o + (len + 24) &&& 0xf))
      else o + (len + 24)) = roundUp (o + packChildSize + len) imageBoundarySize := by
  rw [show (0xf : Nat) = 2 ^ 4 - 1 by rfl, Nat.and_two_pow_sub_one_eq_mod]
  simp only [roundUp, packChildSize, imageBoundarySize]
  split <;> omega

/-- The table has one entry for each child of the format. -/
theorem imgTable_eq (n o : Nat) : imgTable d n o = (childOffsets d n o).map (entryAt d) := by
  induction n generalizing o with
  | zero => rfl
  | succ n ih =>
    rw [imgTable, childOffsets, List.map_cons, ih, index_round]
    rfl

theorem childOffsets_length (n o : Nat) : (childOffsets d n o).length = n := by
  induction n generalizing o with
  | zero => rfl
  | succ n ih => rw [childOffsets, List.length_cons, ih]

/-- What the accessors of the class return is what the format says. -/
theorem images_of_table (n : Nat) :
    UnpackImage.images ⟨d, n, imgTable d n 0x10⟩ =
      (childOffsets d n packHdrSize).map (childAt d) := by
  have hlen : (childOffsets d n 0x10).length = n := childOffsets_length n _
  apply List.ext_getElem
  · simp [UnpackImage.images, packHdrSize, hlen]
  intro i hi hi'
  simp only [UnpackImage.images, List.length_map, List.length_range] at hi
  simp [UnpackImage.images, UnpackImage.imgAttr, UnpackImage.imgContent, imgTable_eq, hi, hlen,
    packHdrSize, childAt, entryAt, imageData, packChildSize]

end

/-! ## The header of a pack -/

section

variable {checksum count : Nat} (body : List Byte)

theorem packHdr_fields (hsum : checksum < 256 ^ 4) (hcnt : count < 256 ^ 4) :
    u32At (packHdr checksum count ++ body) 12 = (0xffffffff#32).toNat ∧
      storedCrc (packHdr checksum count ++ body) = checksum ∧
      totalImageCount (packHdr checksum count ++ body) = count := by
  simp only [storedCrc, totalImageCount, u32At, packHdr, List.append_assoc]
  refine ⟨?_, ?_, ?_⟩
  · rw [slice_append_right (by simp), slice_append_right (by simp), slice_append_right (by simp)]
    simp only [List.length_cons, List.length_nil, leBytes_length, Nat.reduceAdd, Nat.reduceSub]
    rw [slice_left (by simp)]
    decide
  · rw [slice_append_right (by simp)]
    simp only [List.length_cons, List.length_nil, Nat.reduceAdd, Nat.reduceSub]
    rw [slice_left (by simp), ofLeBytes_leBytes hsum]
  · rw [slice_append_right (by simp), slice_append_right (by simp)]
    simp only [List.length_cons, List.length_nil, leBytes_length, Nat.reduceAdd, Nat.reduceSub]
    rw [slice_left (by simp), ofLeBytes_leBytes hcnt]

theorem packHdr_marker : slice (packHdr checksum count ++ body) 0 4 =
    [0x20#8, 0x54#8, 0x56#8, 0x4e#8] := by
  rw [packHdr, List.append_assoc, slice_left (by simp)]

end

/-- The bytes of any number of children are a whole number of boundaries. -/
theorem flatMap_childBytes_dvd (imgs : List PackImage) :
    imageBoundarySize ∣ (imgs.flatMap childBytes).length := by
  induction imgs with
  | nil => exact ⟨0, rfl⟩
  | cons img imgs ih =>
    rw [List.flatMap_cons, List.length_append, childBytes_length]
    exact Nat.dvd_add (dvd_roundUp _ _) ih

/-- A file that holds the given images, as far as any reader can tell. -/
structure PackFile (imgs : List PackImage) (p : List Byte) : Prop where
  hdr_le : packHdrSize ≤ p.length
  aligned : imageBoundarySize ∣ p.length
  marker : slice p 0 4 = [0x20#8, 0x54#8, 0x56#8, 0x4e#8]
  reserve : u32At p 12 = (0xffffffff#32).toNat
  crc : storedCrc p = (crc32Func (p.drop 8)).toNat
  count : totalImageCount p = imgs.length
  inside : ChildrenInside p imgs.length packHdrSize
  children : (childOffsets p imgs.length packHdrSize).map (childAt p) = imgs.map PackImage.read

/-- The packer writes such a file. -/
theorem PackFile.of_doPack {imgs : List PackImage} {p : List Byte} (h : doPack imgs = some p) :
    PackFile imgs p := by
  obtain ⟨hfits, hcnt, hp⟩ := doPack_eq h
  obtain ⟨hreserve, hcrc, hcount⟩ :=
    packHdr_fields (imgs.flatMap childBytes) (crc32Func (p.drop 8)).isLt hcnt
  have hread := childOffsets_flatMap
    (packHdr (crc32Func (p.drop 8)).toNat imgs.length) hfits ⟨1, packHdr_length _ _⟩
  have hlen : p.length = packHdrSize + (imgs.flatMap childBytes).length := by
    conv_lhs => rw [hp]
    rw [List.length_append, packHdr_length]
  simp only [← hp, packHdr_length] at hread hreserve hcrc hcount
  refine ⟨?_, ?_, ?_, hreserve, hcrc, hcount, hread.2, hread.1⟩
  · omega
  · rw [hlen]
    exact Nat.dvd_add ⟨1, rfl⟩ (flatMap_childBytes_dvd imgs)
  · rw [hp]
    exact packHdr_marker _

/-- The PC accepts the CRC and lists the images. -/
theorem PackFile.unpack {imgs : List PackImage} {p : List Byte} (h : PackFile imgs p) :
    ∃ u, UnpackImage.init p 0 = .ok u ∧ u.images = imgs.map PackImage.read := by
  refine ⟨⟨p, totalImageCount p, imgTable p (totalImageCount p) 0x10⟩, ?_, ?_⟩
  · rw [UnpackImage.init, if_neg (not_not.2 h.marker), if_neg]
    · rfl
    · rintro ⟨-, hne⟩
      exact hne h.crc.symm
  · rw [images_of_table, h.count, h.children]

/-! ## The reader on the target -/

/-- A child as the target has it: type, flash address, length, and that many bytes of data. -/
def PackChild.read (c : PackChild) : Nat × Nat × Nat × List Byte :=
  (c.m_ui32ImageType.toNat, c.m_ui64FlashAddress.toNat, c.m_ui64ImageLength.toNat,
    c.m_au8Data.take c.m_ui64ImageLength.toNat)

section

variable {b : PackBuf}

/-- On a file of whole words the CRC is over exactly the declared length. -/
theorem crc32_file (h : 8 ≤ b.data.length) (h4 : 4 ∣ b.data.length) :
    crc32 b.toBuffer (b.ptr 8) ((BitVec.ofNat 64 b.data.length - 8#64).setWidth 32) =
      .ok (crc32Func (b.data.drop 8)) := by
  have hlt := b.length_lt
  have hlen : ((BitVec.ofNat 64 b.data.length - 8#64).setWidth 32).toNat = b.data.length - 8 := by
    rw [BitVec.toNat_setWidth, BitVec.toNat_sub, BitVec.toNat_ofNat, BitVec.toNat_ofNat]
    omega
  have hspan : crcSpan ((BitVec.ofNat 64 b.data.length - 8#64).setWidth 32) =
      b.data.length - 8 := by
    rw [crcSpan, hlen]
    omega
  rw [crc32_at (by omega), hspan, slice, Nat.add_sub_cancel_left,
    List.take_of_length_le (by rw [List.length_drop])]

/-- The record of a child inside the file reads as its fields and its data. -/
theorem childRecord_read {d : List Byte} {o : Nat}
    (h : o + packChildSize + imageLength d o ≤ d.length) :
    (childRecord d o).read =
      (imageType d o, flashAddress d o, (imageData d o).length, imageData d o) := by
  simp only [childRecord, PackChild.read, BitVec.toNat_ofNat]
  rw [Nat.mod_eq_of_lt (imageType_lt o), Nat.mod_eq_of_lt (flashAddress_lt o),
    Nat.mod_eq_of_lt (imageLength_lt o), imageData, slice_length, Nat.add_sub_cancel_left,
    Nat.min_eq_left (by omega), slice, Nat.add_sub_cancel_left]

/-- The target's CRC of a packed file is that of the bytes behind the CRC field. -/
theorem PackFile.crc32_eq {imgs : List PackImage} (h : PackFile imgs b.data) :
    crc32 b.toBuffer (b.ptr 8) ((BitVec.ofNat 64 b.data.length - 8#64).setWidth 32) =
      .ok (crc32Func (b.data.drop 8)) :=
  crc32_file (Nat.le_trans (by decide) h.hdr_le) (Nat.dvd_trans (by decide) h.aligned)

/-- The target accepts the header of a packed file. -/
theorem PackFile.packHdrOk {imgs : List PackImage} (h : PackFile imgs b.data) :
    packHdrOk b (BitVec.ofNat 64 b.data.length) = .ok true := by
  have hm : u32At b.data 0 = nvtMarker.toNat := by
    rw [u32At, h.marker]
    decide
  rw [packHdrOk_crc h.hdr_le hm h.reserve, h.crc32_eq]
  simp [Except.map, h.crc]

end

/-! ## The round trip -/

/-- **What was packed is what every reader gets.** The PC accepts the CRC and lists the packed
images; the target's walker, given the file at any address the allocator can return, visits the
same children with the same addresses, lengths and data; and the target's CRC of the file is the
stored one. -/
theorem doPack_roundtrip {imgs : List PackImage} {p : List Byte} (h : doPack imgs = some p) :
    (∃ u, UnpackImage.init p 0 = .ok u ∧ u.images = imgs.map PackImage.read) ∧
      ∀ b : PackBuf, b.data = p →
        crc32 b.toBuffer (b.ptr 8) ((BitVec.ofNat 64 p.length - 8#64).setWidth 32) =
            .ok (BitVec.ofNat 32 (storedCrc p)) ∧
          ∃ cs, packProgramVisit b (BitVec.ofNat 64 p.length) true = .ok (some cs) ∧
            cs.map PackChild.read = imgs.map fun img =>
              (img.type.toNat, img.offset.toNat, img.data.length, img.data) := by
  have hfile := PackFile.of_doPack h
  refine ⟨hfile.unpack, ?_⟩
  rintro b rfl
  refine ⟨?_, ?_⟩
  · rw [hfile.crc32_eq, hfile.crc, BitVec.ofNat_toNat, BitVec.setWidth_eq]
  · have hne : BitVec.ofNat 64 b.data.length ≠ 0#64 := by
      intro h0
      have hzero := congrArg BitVec.toNat h0
      have hhdr : 16 ≤ b.data.length := hfile.hdr_le
      have hlt := b.length_lt
      rw [BitVec.toNat_ofNat, BitVec.toNat_ofNat] at hzero
      omega
    refine ⟨_, packProgramVisit_eq hne hfile.packHdrOk hfile.hdr_le (hfile.count ▸ hfile.inside),
      ?_⟩
    -- The four components of a visit are those of the format, the length that of the data.
    have hchildren := congrArg (List.map fun c => (c.1, c.2.1, c.2.2.length, c.2.2)) hfile.children
    rw [List.map_map, List.map_map] at hchildren
    rw [List.map_map, hfile.count]
    refine Eq.trans (List.map_congr_left fun o ho => ?_) hchildren
    exact childRecord_read (hfile.inside.of_mem ho)

/-- Two images, one of them empty. -/
def twoImages : List PackImage := [⟨[1#8, 2#8], 0, 2⟩, ⟨[], 0x20000, 3⟩]

/-- Their pack. -/
def twoImagesPack : List Byte := packHdr 0xcdb2fddc 2 ++ twoImages.flatMap childBytes

/-- The file in memory. -/
def twoImagesBuf : PackBuf := .inDdr twoImagesPack (by decide)

theorem doPack_roundtrip_two :
    (∃ u, UnpackImage.init twoImagesPack 0 = .ok u ∧
        u.images = [(2, 0, [1#8, 2#8]), (3, 0x20000, [])]) ∧
      ∃ cs, packProgramVisit twoImagesBuf (BitVec.ofNat 64 twoImagesPack.length) true =
          .ok (some cs) ∧
        cs.map PackChild.read = [(2, 0, 2, [1#8, 2#8]), (3, 0x20000, 0, [])] := by
  have hp : doPack twoImages = some twoImagesPack := by decide +kernel
  obtain ⟨hunpack, htarget⟩ := doPack_roundtrip hp
  exact ⟨hunpack, (htarget twoImagesBuf rfl).2⟩

end NumakerMA35D1.NuWriter

import NumakerMA35D1.NuWriter.Walk

/-!
# Packing and unpacking

`doPack` builds the pack file from the images of a pack configuration, `UnpackImage.init` reads one
back on the PC, and the walker of `NuWriter.Walk` reads it on the target. The three only share the
format: `childBytes` is the byte string one image contributes, a pack is a header and these strings
in order (`doPack_eq`), and both readers find every image at its place in it
(`childOffsets_flatMap`). `doPack_roundtrip` puts the readers together.

Integers of the scripts are unbounded; `toBytes` is where a value that does not fit its field stops
the packing.
-/

namespace NumakerMA35D1.NuWriter

open Embedded

/-- An entry of `image` in a pack configuration, its file read and its offset parsed. -/
structure PackImage where
  data : List Byte
  offset : Int
  type : Int
deriving DecidableEq, Repr

/-- `int.to_bytes(k, byteorder="little")`: `none` is the `OverflowError` of a negative number or of
one that needs more than `k` bytes. -/
def toBytes (k : Nat) (v : Int) : Option (List Byte) :=
  if 0 ≤ v ∧ v < 256 ^ k then some (leBytes k v.toNat) else none

/-- One round of the packing loop, on the bytes and the count so far. The mask `& 0xF` of a Python
integer is its remainder, also of a negative one.
Reference: `nuwriter.py:1330 do_pack`. -/
def packImage (st : List Byte × Nat) (img : PackImage) : Option (List Byte × Nat) := do
  let (out, imgCnt) := st
  let imgCnt := imgCnt + 1
  let imgLen : Int := img.data.length
  let out := out ++ (← toBytes 8 imgLen)
  let out := out ++ (← toBytes 8 img.offset)
  let out := out ++ (← toBytes 4 img.type)
  let out := out ++ List.replicate 4 0xff#8
  let out := out ++ img.data
  let pad := (16 - (imgLen + 8)) % 16
  let out := if pad ≠ 16 then out ++ List.replicate pad.toNat 0xff#8 else out
  return (out, imgCnt)

/-- The pack file of a list of images: `none` when some number does not fit its field.
Reference: `nuwriter.py:1303 do_pack`. -/
def doPack (imgs : List PackImage) : Option (List Byte) := do
  let out := [0x20#8, 0x54#8, 0x56#8, 0x4e#8] ++ List.replicate 12 0xff#8
  let (out, imgCnt) ← imgs.foldlM packImage (out, 0)
  let out := setSlice out 8 (← toBytes 4 imgCnt)
  let checksum := crc32Func (out.drop 8)
  return setSlice out 4 (leBytes 4 checksum.toNat)

/-! ## Unpacking -/

/-- `sys.exit` with the line printed before it. -/
structure SysExit where
  message : String
  status : Nat
deriving DecidableEq, Repr

/-- An entry of `img_list`: length, offset, type, and where the data starts. -/
structure ImgEntry where
  length : Nat
  offset : Nat
  type : Nat
  dataIndex : Nat
deriving DecidableEq, Repr

/-- Reference: `UnpackImage.py:9 UnpackImage`. -/
structure UnpackImage where
  packData : List Byte
  imageCnt : Nat
  imgList : List ImgEntry
deriving DecidableEq, Repr

/-- The loop that fills `img_list`, with `n` images left. Slices past the end of the file are
empty, and read as zero. Reference: `UnpackImage.py:36 UnpackImage.__init__`. -/
def imgTable (packData : List Byte) : Nat → Nat → List ImgEntry
  | 0, _ => []
  | n + 1, index =>
    let entry : ImgEntry :=
      { length := ofLeBytes (slice packData index (index + 8))
        offset := ofLeBytes (slice packData (index + 8) (index + 16))
        type := ofLeBytes (slice packData (index + 16) (index + 20))
        dataIndex := index + 24 }
    let index := index + (ofLeBytes (slice packData index (index + 8)) + 24)
    let index := if index % 16 ≠ 0 then index + (16 - (index &&& 0xf)) else index
    entry :: imgTable packData n index

/-- The constructor: marker, then the CRC unless `nocrc` is nonzero, then the table.
Reference: `UnpackImage.py:11 UnpackImage.__init__`. -/
def UnpackImage.init (packData : List Byte) (nocrc : Nat) : Except SysExit UnpackImage :=
  if slice packData 0 4 ≠ [0x20#8, 0x54#8, 0x56#8, 0x4e#8] then
    .error ⟨"marker check failed", 0⟩
  else if nocrc = 0 ∧
      (crc32Func (packData.drop 8)).toNat ≠ ofLeBytes (slice packData 4 8) then
    .error ⟨"CRC check failed", 0⟩
  else
    let imageCnt := ofLeBytes (slice packData 8 12)
    .ok { packData, imageCnt, imgList := imgTable packData imageCnt 0x10 }

/-- Length, offset and type of an image. Reference: `UnpackImage.py:50 img_attr`. -/
def UnpackImage.imgAttr (u : UnpackImage) (index : Nat) : Nat × Nat × Nat :=
  match u.imgList[index]? with
  | some e => if index < u.imageCnt then (e.length, e.offset, e.type) else (0, 0, 0)
  | none => (0, 0, 0)

/-- `size` bytes of the image's data from `offset` on.
Reference: `UnpackImage.py:59 img_content`. -/
def UnpackImage.imgContent (u : UnpackImage) (index offset size : Nat) : List Byte :=
  match u.imgList[index]? with
  | some e =>
    if index ≥ u.imageCnt ∨ offset > e.length ∨ offset + size > e.length then []
    else slice u.packData (e.dataIndex + offset) (e.dataIndex + offset + size)
  | none => []

/-- The images a reader of the class gets, in order: type, offset and the whole data. -/
def UnpackImage.images (u : UnpackImage) : List (Nat × Nat × List Byte) :=
  (List.range u.imageCnt).map fun i =>
    let (length, offset, type) := u.imgAttr i
    (type, offset, u.imgContent i 0 length)

/-! ## What one image contributes -/

/-- The numbers of an image fit their fields. -/
structure PackImage.Fits (img : PackImage) : Prop where
  length_lt : img.data.length < 256 ^ 8
  offset_nonneg : 0 ≤ img.offset
  offset_lt : img.offset < 256 ^ 8
  type_nonneg : 0 ≤ img.type
  type_lt : img.type < 256 ^ 4

/-- The padding after `n` bytes of data. -/
def padLen (n : Nat) : Nat := roundUp (n + 24) 16 - (n + 24)

/-- The child header of an image. -/
def childHdr (img : PackImage) : List Byte :=
  leBytes 8 img.data.length ++ (leBytes 8 img.offset.toNat ++
    (leBytes 4 img.type.toNat ++ List.replicate 4 0xff#8))

/-- Header, data and padding. -/
def childBytes (img : PackImage) : List Byte :=
  childHdr img ++ (img.data ++ List.replicate (padLen img.data.length) 0xff#8)

theorem toBytes_eq_some {k : Nat} {v : Int} {bs : List Byte} :
    toBytes k v = some bs ↔ (0 ≤ v ∧ v < 256 ^ k) ∧ bs = leBytes k v.toNat := by
  unfold toBytes
  split <;> simp_all [eq_comm]

theorem padLen_eq (n : Nat) : ((16 - ((n : Int) + 8)) % 16).toNat = padLen n := by
  unfold padLen roundUp
  omega

@[simp] theorem childHdr_length (img : PackImage) : (childHdr img).length = packChildSize := by
  simp [childHdr, packChildSize]

theorem childBytes_length (img : PackImage) :
    (childBytes img).length = roundUp (packChildSize + img.data.length) imageBoundarySize := by
  simp only [childBytes, List.length_append, childHdr_length, List.length_replicate, padLen,
    packChildSize, imageBoundarySize, roundUp]
  omega

/-- A round of the loop appends `childBytes`, if the numbers fit. -/
theorem packImage_eq_some {out : List Byte} {n : Nat} {img : PackImage} {r : List Byte × Nat} :
    packImage (out, n) img = some r ↔ img.Fits ∧ r = (out ++ childBytes img, n + 1) := by
  have hpad : (16 - ((img.data.length : Int) + 8)) % 16 ≠ 16 := by omega
  constructor
  · intro h
    simp only [packImage, bind, Option.bind_eq_some_iff, toBytes_eq_some] at h
    obtain ⟨l, ⟨hl, rfl⟩, o, ⟨ho, rfl⟩, t, ⟨ht, rfl⟩, hr⟩ := h
    refine ⟨⟨by omega, ho.1, ho.2, ht.1, ht.2⟩, ?_⟩
    rw [if_pos hpad, padLen_eq] at hr
    simp only [pure, Option.some.injEq] at hr
    rw [← hr]
    simp only [childBytes, childHdr, Int.toNat_natCast, List.append_assoc]
  · rintro ⟨hfits, rfl⟩
    have hl : toBytes 8 img.data.length = some (leBytes 8 img.data.length) :=
      toBytes_eq_some.2 ⟨⟨by omega, by exact_mod_cast hfits.length_lt⟩, rfl⟩
    have ho := toBytes_eq_some.2 ⟨⟨hfits.offset_nonneg, hfits.offset_lt⟩, rfl⟩
    have ht := toBytes_eq_some.2 ⟨⟨hfits.type_nonneg, hfits.type_lt⟩, rfl⟩
    simp only [packImage, hl, ho, ht, bind, Option.bind_some]
    rw [if_pos hpad, padLen_eq]
    simp only [pure, childBytes, childHdr, List.append_assoc]

/-- The whole loop appends the children, if the numbers of each fit. -/
theorem foldlM_packImage {imgs : List PackImage} {out : List Byte} {n : Nat} {r : List Byte × Nat} :
    imgs.foldlM packImage (out, n) = some r ↔
      (∀ img ∈ imgs, img.Fits) ∧ r = (out ++ imgs.flatMap childBytes, n + imgs.length) := by
  induction imgs generalizing out n with
  | nil => simp [pure, eq_comm]
  | cons img imgs ih =>
    have hnext : (out ++ childBytes img ++ imgs.flatMap childBytes, n + 1 + imgs.length) =
        (out ++ (img :: imgs).flatMap childBytes, n + (img :: imgs).length) := by
      rw [List.flatMap_cons, ← List.append_assoc, List.length_cons, Nat.add_assoc, Nat.add_comm 1]
    rw [List.foldlM_cons]
    constructor
    · intro h
      obtain ⟨st, hst, hrest⟩ := Option.bind_eq_some_iff.1 h
      obtain ⟨hfits, rfl⟩ := packImage_eq_some.1 hst
      obtain ⟨hall, rfl⟩ := ih.1 hrest
      exact ⟨List.forall_mem_cons.2 ⟨hfits, hall⟩, hnext⟩
    · rintro ⟨hall, rfl⟩
      obtain ⟨hfits, hrest⟩ := List.forall_mem_cons.1 hall
      exact Option.bind_eq_some_iff.2 ⟨_, packImage_eq_some.2 ⟨hfits, rfl⟩, ih.2 ⟨hrest, hnext.symm⟩⟩

/-- The header of a pack. -/
def packHdr (checksum count : Nat) : List Byte :=
  [0x20#8, 0x54#8, 0x56#8, 0x4e#8] ++
    (leBytes 4 checksum ++ (leBytes 4 count ++ List.replicate 4 0xff#8))

@[simp] theorem packHdr_length (checksum count : Nat) :
    (packHdr checksum count).length = packHdrSize := by
  simp [packHdr, packHdrSize]

/-- Filling in the count, then the CRC, makes the initial bytes the header. -/
theorem setSlice_hdr (body count : List Byte) (checksum : List Byte) (hcnt : count.length = 4)
    (hcrc : checksum.length = 4) :
    setSlice (setSlice ([0x20#8, 0x54#8, 0x56#8, 0x4e#8] ++ List.replicate 12 0xff#8 ++ body)
        8 count) 4 checksum =
      [0x20#8, 0x54#8, 0x56#8, 0x4e#8] ++
        (checksum ++ (count ++ (List.replicate 4 0xff#8 ++ body))) := by
  -- The twelve bytes behind the marker are the fields for the CRC, the count and the reserve.
  have hinit : [0x20#8, 0x54#8, 0x56#8, 0x4e#8] ++ List.replicate 12 0xff#8 ++ body =
      ([0x20#8, 0x54#8, 0x56#8, 0x4e#8] ++ List.replicate 4 0xff#8) ++
        (List.replicate 4 0xff#8 ++ (List.replicate 4 0xff#8 ++ body)) := rfl
  rw [hinit, setSlice_append (a := 8) rfl (by simp [hcnt]), List.append_assoc,
    setSlice_append (a := 4) rfl (by simp [hcrc])]

/-- **A pack is its header and its children**, the stored checksum being that of everything behind
it. -/
theorem doPack_eq {imgs : List PackImage} {p : List Byte} (h : doPack imgs = some p) :
    (∀ img ∈ imgs, img.Fits) ∧ imgs.length < 256 ^ 4 ∧
      p = packHdr (crc32Func (p.drop 8)).toNat imgs.length ++ imgs.flatMap childBytes := by
  simp only [doPack, bind, Option.bind_eq_some_iff] at h
  obtain ⟨⟨out, n⟩, hfold, cnt, hcnt, hp⟩ := h
  obtain ⟨hall, hout⟩ := foldlM_packImage.1 hfold
  rw [Prod.mk.injEq] at hout
  obtain ⟨rfl, rfl⟩ := hout
  obtain ⟨⟨-, hlt⟩, rfl⟩ := toBytes_eq_some.1 hcnt
  refine ⟨hall, by omega, ?_⟩
  simp only [pure, Option.some.injEq] at hp
  rw [setSlice_hdr _ _ _ (leBytes_length _ _) (leBytes_length _ _)] at hp
  subst hp
  simp [packHdr, List.drop_append, setSlice, List.append_assoc]

/-- **What can be packed**: images whose numbers fit their fields, as many as the count can say. -/
theorem doPack_isSome {imgs : List PackImage} :
    (doPack imgs).isSome = true ↔ (∀ img ∈ imgs, img.Fits) ∧ imgs.length < 256 ^ 4 := by
  constructor
  · intro h
    obtain ⟨hall, hcnt, -⟩ := doPack_eq (Option.some_get h).symm
    exact ⟨hall, hcnt⟩
  · rintro ⟨hall, hcnt⟩
    have hfold : imgs.foldlM packImage ([0x20#8, 0x54#8, 0x56#8, 0x4e#8] ++ List.replicate 12 0xff#8, 0) = some _ :=
      foldlM_packImage.2 ⟨hall, rfl⟩
    have hlt : (imgs.length : Int) < 256 ^ 4 := by omega
    have hcount : toBytes 4 imgs.length = some (leBytes 4 imgs.length) :=
      toBytes_eq_some.2 ⟨⟨Int.natCast_nonneg _, hlt⟩, rfl⟩
    by_contra hnone
    rw [Option.not_isSome_iff_eq_none] at hnone
    simp only [doPack, bind, Option.bind_eq_none_iff] at hnone
    rw [← Nat.zero_add imgs.length] at hcount
    exact Option.some_ne_none _ (hnone _ hfold _ hcount)

/-! ## Reading the children back -/

/-- What a reader should get from an image. -/
def PackImage.read (img : PackImage) : Nat × Nat × List Byte :=
  (img.type.toNat, img.offset.toNat, img.data)

/-- The child at `o` as type, flash address and data. -/
def childAt (d : List Byte) (o : Nat) : Nat × Nat × List Byte :=
  (imageType d o, flashAddress d o, imageData d o)

section

variable {img : PackImage} (pre post : List Byte)

/-- The child header of an image, found behind any bytes. -/
theorem childHdr_fields (hfits : img.Fits) :
    imageLength (pre ++ (childBytes img ++ post)) pre.length = img.data.length ∧
      flashAddress (pre ++ (childBytes img ++ post)) pre.length = img.offset.toNat ∧
        imageType (pre ++ (childBytes img ++ post)) pre.length = img.type.toNat := by
  have ⟨hl, _, ho, _, ht⟩ := hfits
  simp only [imageLength, flashAddress, imageType, u64At, u32At]
  refine ⟨?_, ?_, ?_⟩
  · rw [slice_append_right (by omega), Nat.sub_self, Nat.add_sub_cancel_left, childBytes, childHdr]
    simp only [List.append_assoc]
    rw [slice_left (by simp), ofLeBytes_leBytes hl]
  · rw [slice_append_right (by omega), childBytes, childHdr]
    simp only [List.append_assoc]
    rw [slice_append_right (by simp)]
    simp only [leBytes_length, Nat.add_sub_cancel_left, Nat.add_assoc, Nat.reduceAdd, Nat.reduceSub]
    rw [slice_left (by simp), ofLeBytes_leBytes (by omega)]
  · rw [slice_append_right (by omega), childBytes, childHdr]
    simp only [List.append_assoc]
    rw [slice_append_right (by simp), slice_append_right (by simp)]
    simp only [leBytes_length, Nat.add_sub_cancel_left, Nat.add_assoc, Nat.reduceAdd, Nat.reduceSub]
    rw [slice_left (by simp), ofLeBytes_leBytes (by omega)]

theorem childBytes_data (hfits : img.Fits) :
    imageData (pre ++ (childBytes img ++ post)) pre.length = img.data := by
  rw [imageData, (childHdr_fields pre post hfits).1, slice_append_right (by omega), childBytes,
    List.append_assoc, slice_append_right (by rw [childHdr_length]; omega), List.append_assoc]
  simp only [childHdr_length, Nat.add_assoc, Nat.add_sub_cancel_left, Nat.sub_self]
  exact slice_left rfl

/-- The child behind an image starts where its bytes end. -/
theorem nextChild_childBytes (hfits : img.Fits) (hpre : imageBoundarySize ∣ pre.length) :
    nextChild (pre ++ (childBytes img ++ post)) pre.length = (pre ++ childBytes img).length := by
  rw [nextChild, (childHdr_fields pre post hfits).1, Nat.add_assoc, roundUp_add_of_dvd (by decide) hpre,
    List.length_append, childBytes_length]

end

/-- **The children of a concatenation of images are the images**, each inside the file. -/
theorem childOffsets_flatMap {imgs : List PackImage} (pre : List Byte)
    (hfits : ∀ img ∈ imgs, img.Fits) (hpre : imageBoundarySize ∣ pre.length) :
    let p := pre ++ imgs.flatMap childBytes
    (childOffsets p imgs.length pre.length).map (childAt p) = imgs.map PackImage.read ∧
      ChildrenInside p imgs.length pre.length := by
  induction imgs generalizing pre with
  | nil => exact ⟨rfl, trivial⟩
  | cons img imgs ih =>
    obtain ⟨himg, himgs⟩ := List.forall_mem_cons.1 hfits
    have hnext := nextChild_childBytes pre (imgs.flatMap childBytes) himg hpre
    have hdvd : imageBoundarySize ∣ (pre ++ childBytes img).length := by
      rw [← hnext]
      exact nextChild_aligned _
    obtain ⟨hread, hin⟩ := ih (pre ++ childBytes img) himgs hdvd
    rw [List.append_assoc] at hread hin
    obtain ⟨-, hoff, htype⟩ := childHdr_fields pre (imgs.flatMap childBytes) himg
    simp only [List.flatMap_cons, List.length_cons, childOffsets, List.map_cons, ChildrenInside,
      hnext, hread]
    refine ⟨?_, ?_, hin⟩
    · rw [childAt, htype, hoff, childBytes_data pre _ himg]
      rfl
    · simp only [List.length_append]
      omega

end NumakerMA35D1.NuWriter

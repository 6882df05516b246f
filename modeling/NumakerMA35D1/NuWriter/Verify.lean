import NumakerMA35D1.NuWriter.Pack

/-!
# Verifying a pack file

`nuwriterPackVerify` is what the target runs on a file before it programs anything. It should
accept exactly the well-formed packs (`WellFormedPack`) and read nothing outside the file, for any
bytes and any declared length. `nuwriterPackVerify_correct_iff` says exactly when it does: the
checks that come after the CRC have no effect on the answer, the CRC is over whole words, and the
header is read before its length is known.
-/

namespace NumakerMA35D1.NuWriter

open Embedded

/-! ## The boot information -/

/-- Byte offsets of the fields of `S_BOOT_INFO_T` that are read.
Reference: `nuwriter.c:113 S_BOOT_INFO_T`. -/
def bootCheckSum : Nat := 4
@[inherit_doc bootCheckSum] def bootLength : Nat := 8
@[inherit_doc bootCheckSum] def bootCount : Nat := 36
@[inherit_doc bootCheckSum] def bootImage : Nat := 40

/-- `sizeof(S_IMAGE_INFO_T)`, and the offset of `m_u32Type` in it.
Reference: `nuwriter.c:93 S_IMAGE_INFO_T`. -/
def imageInfoSize : Nat := 80
@[inherit_doc imageInfoSize] def imageInfoType : Nat := 12

/-- An image type is one of five. Reference: `nuwriter.c:237 nuwriter_check_image_info`. -/
def nuwriterCheckImageInfo (b : PackBuf) (psImageInfo : BitVec 32) : Except Fault Int := do
  let m_u32Type ← b.readU32 (psImageInfo + BitVec.ofNat 32 imageInfoType)
  if m_u32Type > 4#32 then
    return -1
  return 0

/-- The loop over the image records, with `n` left from number `i` on.
Reference: `nuwriter.c:307 nuwriter_check_boot_info`. -/
def checkImageInfos (b : PackBuf) (psBootInfo : BitVec 32) : Nat → Nat → Except Fault Int
  | 0, _ => .ok 0
  | n + 1, i => do
    let psImageInfo := psBootInfo + BitVec.ofNat 32 (bootImage + imageInfoSize * i)
    if (← nuwriterCheckImageInfo b psImageInfo) < 0 then
      return -1
    checkImageInfos b psBootInfo n (i + 1)

/-- Marker, checksum over `u32Length` bytes from the length field on, image count and types.
Reference: `nuwriter.c:271 nuwriter_check_boot_info`. -/
def nuwriterCheckBootInfo (b : PackBuf) (psBootInfo u32Length : BitVec 32) : Except Fault Int := do
  let m_u32BootMarker ← b.readU32 psBootInfo
  if m_u32BootMarker ≠ nvtMarker then
    return -1
  let u32CRC32ChkSum ← crc32 b.toBuffer (psBootInfo + BitVec.ofNat 32 bootLength) u32Length
  let m_u32CheckSum ← b.readU32 (psBootInfo + BitVec.ofNat 32 bootCheckSum)
  if u32CRC32ChkSum ≠ m_u32CheckSum then
    return -1
  let m_u32Count ← b.readU32 (psBootInfo + BitVec.ofNat 32 bootCount)
  if m_u32Count > 4#32 then
    return -1
  checkImageInfos b psBootInfo m_u32Count.toNat 0

/-! ## The pack -/

/-- The walk over the children, with `n` left from number `i` on: the first child's data is
checked as boot information, and the answer is dropped.
Reference: `nuwriter.c:357 nuwriter_pack_verify`. -/
def packVerifyLoop (b : PackBuf) (m_ui32TotalImageCount : BitVec 32) :
    Nat → Nat → BitVec 32 → Except Fault Unit
  | 0, _, _ => .ok ()
  | n + 1, i, psPackChild => do
    if i = 0 then
      let m_ui64ImageLength ← b.readU64 psPackChild
      let _ ← nuwriterCheckBootInfo b (psPackChild + BitVec.ofNat 32 packChildSize)
        ((m_ui64ImageLength - 8#64).setWidth 32)
    if i + 1 < m_ui32TotalImageCount.toNat then
      let m_ui64ImageLength ← b.readU64 psPackChild
      packVerifyLoop b m_ui32TotalImageCount n (i + 1) (nextChildPtr psPackChild m_ui64ImageLength)
    else
      packVerifyLoop b m_ui32TotalImageCount n (i + 1) psPackChild

/-- Reference: `nuwriter.c:321 nuwriter_pack_verify`. -/
def nuwriterPackVerify (pu8PackFileBuf : Option PackBuf) (u64FileLength : BitVec 64) :
    Except Fault Int :=
  match pu8PackFileBuf with
  | none => return -1
  | some b => do
    if u64FileLength = 0#64 then
      return -1
    if !(← packHdrOk b u64FileLength) then
      return -1
    let m_ui32TotalImageCount ← b.readU32 (b.ptr 8)
    packVerifyLoop b m_ui32TotalImageCount m_ui32TotalImageCount.toNat 0 (b.ptr packHdrSize)
    return 0

/-! ## What it should decide -/

/-- Behind a right header: the declared length covers the header and lies in the buffer, the stored
CRC is that of the declared bytes, there is a first child, every child lies in the buffer, and the
data of the first is boot information. -/
structure ContentOk (b : PackBuf) (u64FileLength : BitVec 64) : Prop where
  header : packHdrSize ≤ u64FileLength.toNat
  declared : u64FileLength.toNat ≤ b.data.length
  crc : storedCrc b.data = (crc32Func (slice b.data 8 u64FileLength.toNat)).toNat
  first : 0 < totalImageCount b.data
  children : ChildrenInside b.data (totalImageCount b.data) packHdrSize
  bootInfo : nuwriterCheckBootInfo b (b.ptr (packHdrSize + packChildSize))
    ((BitVec.ofNat 64 (imageLength b.data packHdrSize) - 8#64).setWidth 32) = .ok 0

/-- A well-formed pack in a buffer, of a declared length. -/
structure WellFormedPack (b : PackBuf) (u64FileLength : BitVec 64) : Prop where
  long : packHdrSize ≤ b.data.length
  marker : u32At b.data 0 = nvtMarker.toNat
  reserve : u32At b.data 12 = (0xffffffff#32).toNat
  content : ContentOk b u64FileLength

/-- The verifier answers 0 on exactly the well-formed packs, and stays in the buffer. -/
def PackVerifyCorrect (b : PackBuf) (u64FileLength : BitVec 64) : Prop :=
  (nuwriterPackVerify (some b) u64FileLength = .ok 0 ↔ WellFormedPack b u64FileLength) ∧
    ∀ f, nuwriterPackVerify (some b) u64FileLength ≠ .error f

/-- The end of the bytes the CRC is taken over: whole words from offset 8 on. -/
def crcEnd (u64FileLength : BitVec 64) : Nat := 8 + crcSpan ((u64FileLength - 8#64).setWidth 32)

/-- The stored CRC is that of the whole words. -/
def WordCrcOk (b : PackBuf) (u64FileLength : BitVec 64) : Prop :=
  storedCrc b.data = (crc32Func (slice b.data 8 (crcEnd u64FileLength))).toNat

instance (b : PackBuf) (u64FileLength : BitVec 64) : Decidable (WordCrcOk b u64FileLength) :=
  inferInstanceAs (Decidable (_ = _))

/-- When the verifier is right: the length is 0; or the marker is wrong, and in the buffer; or the
marker is right, the header is in the buffer, and either the reserved word is wrong, or the whole
words of the CRC lie in the buffer and their CRC is wrong on a file whose content is not in order,
or right on one whose content is. -/
def PackVerifyDecides (b : PackBuf) (u64FileLength : BitVec 64) : Prop :=
  u64FileLength = 0#64 ∨
  4 ≤ b.data.length ∧ u32At b.data 0 ≠ nvtMarker.toNat ∨
  packHdrSize ≤ b.data.length ∧ u32At b.data 0 = nvtMarker.toNat ∧
    (u32At b.data 12 ≠ (0xffffffff#32).toNat ∨
      crcEnd u64FileLength ≤ b.data.length ∧
        (¬ WordCrcOk b u64FileLength ∧ ¬ ContentOk b u64FileLength ∨
          WordCrcOk b u64FileLength ∧ ContentOk b u64FileLength))

/-! ## The walk -/

section

variable {b : PackBuf} {m_ui32TotalImageCount : BitVec 32}

/-- Past the first child, the walk over children inside the buffer reads inside. -/
theorem packVerifyLoop_inside {n i o : Nat} (hi : 0 < i)
    (hcount : i + n = m_ui32TotalImageCount.toNat) (hin : ChildrenInside b.data n o) :
    packVerifyLoop b m_ui32TotalImageCount n i (b.ptr o) = .ok () := by
  induction n generalizing i o with
  | zero => rfl
  | succ n ih =>
    obtain ⟨hnext, hrest⟩ := hin
    have hle : o + 24 + imageLength b.data o ≤ nextChild b.data o := le_nextChild o
    rw [packVerifyLoop, if_neg (by omega)]
    dsimp only
    by_cases hlast : i + 1 < m_ui32TotalImageCount.toNat
    · rw [if_pos hlast, readU64_field (by omega), ok_bind, ← imageLength, nextChildPtr_eq hnext]
      exact ih (by omega) (by omega) hrest
    · have hn : n = 0 := by omega
      subst hn
      rw [if_neg hlast]
      rfl

/-- So does the whole walk, when the boot information of the first child can be checked. -/
theorem packVerifyLoop_first {n : Nat} {r : Int} (hcount : n + 1 = m_ui32TotalImageCount.toNat)
    (hin : ChildrenInside b.data (n + 1) packHdrSize)
    (hboot : nuwriterCheckBootInfo b (b.ptr (packHdrSize + packChildSize))
      ((BitVec.ofNat 64 (imageLength b.data packHdrSize) - 8#64).setWidth 32) = .ok r) :
    packVerifyLoop b m_ui32TotalImageCount (n + 1) 0 (b.ptr packHdrSize) = .ok () := by
  obtain ⟨hnext, hrest⟩ := hin
  have hle : packHdrSize + 24 + imageLength b.data packHdrSize ≤ nextChild b.data packHdrSize :=
    le_nextChild packHdrSize
  rw [packVerifyLoop, if_pos rfl, readU64_field (by omega), ok_bind, ← imageLength,
    Buffer.ptr_add, hboot]
  simp only [ok_bind]
  by_cases hlast : 0 + 1 < m_ui32TotalImageCount.toNat
  · rw [if_pos hlast, nextChildPtr_eq hnext]
    exact packVerifyLoop_inside (by omega) (by omega) hrest
  · have hn : n = 0 := by omega
    subst hn
    rw [if_neg hlast]
    rfl

end

/-! ## When the verifier is right -/

section

variable {b : PackBuf} {u64FileLength : BitVec 64}

/-- A refused header is the answer -1. -/
theorem nuwriterPackVerify_refused (hne : u64FileLength ≠ 0#64)
    (h : packHdrOk b u64FileLength = .ok false) :
    nuwriterPackVerify (some b) u64FileLength = .ok (-1) := by
  simp only [nuwriterPackVerify]
  rw [if_neg hne, h]
  rfl

theorem nuwriterPackVerify_fault {f : Fault} (hne : u64FileLength ≠ 0#64)
    (h : packHdrOk b u64FileLength = .error f) :
    nuwriterPackVerify (some b) u64FileLength = .error f := by
  simp only [nuwriterPackVerify]
  rw [if_neg hne, h]
  rfl

/-- An accepted header leaves the walk, whose outcome is 0 or a fault. -/
theorem nuwriterPackVerify_accepted (hne : u64FileLength ≠ 0#64)
    (hlen : packHdrSize ≤ b.data.length) (h : packHdrOk b u64FileLength = .ok true) :
    nuwriterPackVerify (some b) u64FileLength =
      (packVerifyLoop b (BitVec.ofNat 32 (totalImageCount b.data)) (totalImageCount b.data) 0
        (b.ptr packHdrSize)).map fun _ => 0 := by
  have hsize : packHdrSize = 16 := rfl
  simp only [nuwriterPackVerify]
  rw [if_neg hne, h]
  simp only [ok_bind, Bool.not_true, Bool.false_eq_true, if_false]
  rw [readU32_field (by omega), ← totalImageCount, ok_bind, BitVec.toNat_ofNat,
    Nat.mod_eq_of_lt totalImageCount_lt]
  rfl

/-- On content that is in order, an accepted header is answered 0. -/
theorem nuwriterPackVerify_content (hlen : packHdrSize ≤ b.data.length)
    (h : packHdrOk b u64FileLength = .ok true) (hc : ContentOk b u64FileLength) :
    nuwriterPackVerify (some b) u64FileLength = .ok 0 := by
  have hne : u64FileLength ≠ 0#64 := by
    rintro rfl
    exact absurd hc.header (by decide)
  obtain ⟨n, hn⟩ := Nat.exists_eq_add_of_lt hc.first
  rw [Nat.zero_add] at hn
  have hcount : n + 1 = (BitVec.ofNat 32 (totalImageCount b.data)).toNat := by
    rw [BitVec.toNat_ofNat, Nat.mod_eq_of_lt totalImageCount_lt, hn]
  rw [nuwriterPackVerify_accepted hne hlen h]
  have hwalk := packVerifyLoop_first hcount (hn ▸ hc.children) hc.bootInfo
  rw [← hn] at hwalk
  rw [hwalk]
  rfl

/-- The header check of a buffer with a right marker and a right reserved word: the CRC of the
whole words, when they lie inside. -/
theorem packHdrOk_word (hlen : packHdrSize ≤ b.data.length)
    (hm : u32At b.data 0 = nvtMarker.toNat) (hr : u32At b.data 12 = (0xffffffff#32).toNat)
    (hend : crcEnd u64FileLength ≤ b.data.length) :
    packHdrOk b u64FileLength = .ok (decide (WordCrcOk b u64FileLength)) := by
  rw [packHdrOk_crc hlen hm hr, crc32_at hend]
  rfl

theorem packHdrOk_word_past (hlen : packHdrSize ≤ b.data.length)
    (hm : u32At b.data 0 = nvtMarker.toNat) (hr : u32At b.data 12 = (0xffffffff#32).toNat)
    (hend : b.data.length < crcEnd u64FileLength) : ∃ f, packHdrOk b u64FileLength = .error f := by
  obtain ⟨f, hf⟩ := crc32_short (Nat.le_trans (by decide) hlen) hend
  exact ⟨f, by rw [packHdrOk_crc hlen hm hr, hf]; rfl⟩

/-- The answer -1 is right when the file is not well formed. -/
theorem PackVerifyCorrect.of_refused (h : nuwriterPackVerify (some b) u64FileLength = .ok (-1))
    (hw : ¬ WellFormedPack b u64FileLength) : PackVerifyCorrect b u64FileLength := by
  refine ⟨⟨fun h0 => ?_, fun h0 => absurd h0 hw⟩, fun f hf => ?_⟩
  · rw [h] at h0
    exact absurd h0 (by decide)
  · rw [h] at hf
    cases hf

/-- The answer 0 is right when the file is well formed. -/
theorem PackVerifyCorrect.of_accepted (h : nuwriterPackVerify (some b) u64FileLength = .ok 0)
    (hw : WellFormedPack b u64FileLength) : PackVerifyCorrect b u64FileLength := by
  refine ⟨⟨fun _ => hw, fun _ => h⟩, fun f hf => ?_⟩
  rw [h] at hf
  cases hf

/-- A correct verifier does not fault in the header check. -/
theorem PackVerifyCorrect.hdr_ne_fault (h : PackVerifyCorrect b u64FileLength)
    (hne : u64FileLength ≠ 0#64) : ¬ ∃ f, packHdrOk b u64FileLength = .error f := by
  rintro ⟨f, hf⟩
  exact h.2 f (nuwriterPackVerify_fault hne hf)

/-- **When the verifier is right.** -/
theorem nuwriterPackVerify_correct_iff (b : PackBuf) (u64FileLength : BitVec 64) :
    PackVerifyCorrect b u64FileLength ↔ PackVerifyDecides b u64FileLength := by
  constructor
  · intro h
    by_cases hne : u64FileLength = 0#64
    · exact Or.inl hne
    have hok := h.hdr_ne_fault hne
    by_cases h4 : b.data.length < 4
    · exact absurd (packHdrOk_marker_past h4) hok
    by_cases hm : u32At b.data 0 ≠ nvtMarker.toNat
    · exact Or.inr (Or.inl ⟨by omega, hm⟩)
    rw [not_not] at hm
    by_cases hlen : b.data.length < packHdrSize
    · exact absurd (packHdrOk_reserve_past (by omega) hm hlen) hok
    rw [not_lt] at hlen
    refine Or.inr (Or.inr ⟨hlen, hm, ?_⟩)
    by_cases hr : u32At b.data 12 ≠ (0xffffffff#32).toNat
    · exact Or.inl hr
    rw [not_not] at hr
    by_cases hend : b.data.length < crcEnd u64FileLength
    · exact absurd (packHdrOk_word_past hlen hm hr hend) hok
    rw [not_lt] at hend
    refine Or.inr ⟨hend, ?_⟩
    have hword := packHdrOk_word hlen hm hr hend
    by_cases hw : WordCrcOk b u64FileLength
    · -- The walk answers 0 or faults, so a correct answer is 0 on a well-formed pack.
      rw [decide_eq_true hw] at hword
      refine Or.inr ⟨hw, ?_⟩
      have hv := nuwriterPackVerify_accepted hne hlen hword
      cases hwalk : packVerifyLoop b (BitVec.ofNat 32 (totalImageCount b.data))
          (totalImageCount b.data) 0 (b.ptr packHdrSize) with
      | error f =>
        rw [hwalk] at hv
        exact absurd hv (h.2 f)
      | ok u =>
        rw [hwalk] at hv
        exact (h.1.1 hv).content
    · rw [decide_eq_false hw] at hword
      refine Or.inl ⟨hw, fun hc => ?_⟩
      have hv := h.1.2 ⟨hlen, hm, hr, hc⟩
      rw [nuwriterPackVerify_refused hne hword] at hv
      exact absurd hv (by decide)
  · intro h
    by_cases hne : u64FileLength = 0#64
    · have hv : nuwriterPackVerify (some b) u64FileLength = .ok (-1) := by
        simp only [nuwriterPackVerify]
        rw [if_pos hne]
        rfl
      refine .of_refused hv fun hw => ?_
      rw [hne] at hw
      exact absurd hw.content.header (by decide)
    rcases h with h | ⟨h4, hm⟩ | ⟨hlen, hm, hr | ⟨hend, ⟨hw, hc⟩ | ⟨hw, hc⟩⟩⟩
    · exact absurd h hne
    · exact .of_refused (nuwriterPackVerify_refused hne (packHdrOk_marker h4 hm))
        fun hw => hm hw.marker
    · exact .of_refused (nuwriterPackVerify_refused hne (packHdrOk_reserve hlen hm hr))
        fun hw => hr hw.reserve
    · -- Only the reserved word is left open in this case, and it decides by itself.
      by_cases hr : u32At b.data 12 = (0xffffffff#32).toNat
      · have hword := packHdrOk_word hlen hm hr hend
        rw [decide_eq_false hw] at hword
        exact .of_refused (nuwriterPackVerify_refused hne hword) fun hwf => hc hwf.content
      · exact .of_refused (nuwriterPackVerify_refused hne (packHdrOk_reserve hlen hm hr))
          fun hw => hr hw.reserve
    · by_cases hr : u32At b.data 12 = (0xffffffff#32).toNat
      · have hword := packHdrOk_word hlen hm hr hend
        rw [decide_eq_true hw] at hword
        exact .of_accepted (nuwriterPackVerify_content hlen hword hc) ⟨hlen, hm, hr, hc⟩
      · exact .of_refused (nuwriterPackVerify_refused hne (packHdrOk_reserve hlen hm hr))
          fun hw => hr hw.reserve

end

/-- A pack of one image of eight zero bytes, which are no boot information. -/
def zeroHeaderPack : PackBuf :=
  .inDdr (packHdr 0x337fca7b 1 ++ childBytes ⟨List.replicate 8 0#8, 0, 2⟩) (by decide)

/-- The verifier accepts it: the answer of the boot information check is dropped. -/
theorem not_packVerifyCorrect : ¬ PackVerifyCorrect zeroHeaderPack 48#64 := by
  rintro ⟨hiff, -⟩
  have haccept : nuwriterPackVerify (some zeroHeaderPack) 48#64 = .ok 0 := by decide +kernel
  have hboot : nuwriterCheckBootInfo zeroHeaderPack
      (zeroHeaderPack.ptr (packHdrSize + packChildSize))
      ((BitVec.ofNat 64 (imageLength zeroHeaderPack.data packHdrSize) - 8#64).setWidth 32) =
      .ok (-1) := by decide +kernel
  have hok := (hiff.1 haccept).content.bootInfo
  rw [hboot] at hok
  exact absurd hok (by decide)

end NumakerMA35D1.NuWriter

import NumakerMA35D1.NuWriter.Program
import NumakerMA35D1.NuWriter.Verify

/-!
# The boot information of a device

Two headers lie on a boot device; the newer valid one counts. The target reads the two units, a sector of a
block device or a page of a NAND flash, checks each, and keeps the record of the greater version. It should hand
back the record of a valid header of the greatest version, and fail exactly when neither location holds a valid
one. `bootinfoRight_iff` says when it does: a failed read gives up on the other location, no failure is reported
when no header is valid, version 0 is never taken, and on a NAND flash a byte offset is taken for a page number.
-/

namespace NumakerMA35D1.NuWriter

open Embedded

/-! ## Boot sources -/

/-- Reference: `drv_sys.h:96 E_POR_BOOTSRC`. -/
inductive EPorBootsrc
  | evBootFrom_QSPI0_NOR
  | evBootFrom_QSPI0_NAND
  | evBootFrom_SD_eMMC0
  | evBootFrom_SD_eMMC1
  | evBootFrom_RAW_NAND
  | evBootFrom_USBD
  | evBootFrom_USBH0
  | evBootFrom_USBH1
deriving DecidableEq, Repr

/-- The name of the device, none for the USB device, and where its headers are, in sectors or blocks.
Reference: `nuwriter.c:127 S_HDR_INFO`. -/
structure SHdrInfo where
  szDevName : Option String
  hdr_offset : BitVec 32 × BitVec 32

/-- Reference: `nuwriter.c:135 s_sHdrInfo`. -/
def sHdrInfo : EPorBootsrc → SHdrInfo
  | .evBootFrom_QSPI0_NOR => ⟨some "sf_whole", 0, 1⟩
  | .evBootFrom_QSPI0_NAND => ⟨some "nand2", 0, 1⟩
  | .evBootFrom_SD_eMMC0 => ⟨some "sd0", 2, 3⟩
  | .evBootFrom_SD_eMMC1 => ⟨some "sd1", 2, 3⟩
  | .evBootFrom_RAW_NAND => ⟨some "rawnd2", 0, 1⟩
  | .evBootFrom_USBD => ⟨none, 0, 0⟩
  | .evBootFrom_USBH0 => ⟨some "udisk0", 0, 0⟩
  | .evBootFrom_USBH1 => ⟨some "udisk0", 0, 0⟩

/-! ## Devices -/

/-- Memory for so many bytes, as the allocator gives it. -/
structure UnitMem (n : Nat) where
  base : BitVec 32
  base_pos : 0 < base.toNat
  fits : base.toNat + n ≤ 2 ^ 32
  aligned : base.toNat % 16 = 0

/-- Bytes in it. -/
def UnitMem.hold {n : Nat} (m : UnitMem n) (d : List Byte) : PackBuf where
  base := m.base
  data := d.take n
  base_pos := m.base_pos
  fits := by
    have hfits := m.fits
    have hlen := List.length_take_le n d
    omega
  aligned := m.aligned

/-- What a device is: a block device, of which the control call gives the size of a sector or fails; a NAND flash;
or of another class. Reference: `nuwriter.c:829 nuwriter_get_bootinfo`. -/
inductive BootClass
  | block (geo : Option (BitVec 32))
  | mtd (page_size : BitVec 16) (pages_per_block : BitVec 32)
  | other

/-- The size of what is read at once, a sector or a page. -/
def BootClass.unitSize : BootClass → Nat
  | .block geo => (geo.getD 0).toNat
  | .mtd page_size _ => page_size.toNat
  | .other => 0

/-- A device with the allocator behind it. Reading a unit gives its bytes, or fails. -/
structure BootDevice where
  opens : Bool
  type : BootClass
  read : BitVec 32 → Option (List Byte)
  malloc : (n : Nat) → Option (UnitMem n)
  fills : ∀ pos d, read pos = some d → d.length = type.unitSize

/-! ## The target -/

/-- `sizeof(S_BOOT_INFO_T)`. Reference: `nuwriter.c:113 S_BOOT_INFO_T`. -/
def bootInfoSize : Nat := 360

/-- The byte offset of `m_u32Version`. Reference: `nuwriter.c:113 S_BOOT_INFO_T`. -/
def bootVersion : Nat := 12

/-- One header in the buffer: `u32NewerVerNum` and the user's record after it.
Reference: `nuwriter.c:933 nuwriter_get_bootinfo`. -/
def takeHeader (b : PackBuf) (s : BitVec 32 × Option (List Byte)) :
    Except Fault (BitVec 32 × Option (List Byte)) := do
  let m_u32Length ← b.readU32 (b.ptr 0 + BitVec.ofNat 32 bootLength)
  if m_u32Length > BitVec.ofNat 32 bootInfoSize then
    return s
  if (← nuwriterCheckBootInfo b (b.ptr 0) m_u32Length) = 0 then
    let m_u32Version ← b.readU32 (b.ptr 0 + BitVec.ofNat 32 bootVersion)
    if s.1 < m_u32Version then
      let psBootInfo ← b.read (b.ptr 0) bootInfoSize
      return (m_u32Version, some psBootInfo)
    return s
  return s

/-- The loop over the headers: what is returned, and the user's record. A unit that cannot be read ends it.
Reference: `nuwriter.c:886 nuwriter_get_bootinfo`. -/
def readHeaders {n : Nat} (read : BitVec 32 → Option (List Byte)) (pvUnitBuf : UnitMem n) :
    List (BitVec 32) → BitVec 32 × Option (List Byte) → Except Fault (Int × Option (List Byte))
  | [], s => .ok (0, s.2)
  | pos :: rest, s =>
    match read pos with
    | none => .ok (-1, s.2)
    | some d => do
      let s ← takeHeader (pvUnitBuf.hold d) s
      readHeaders read pvUnitBuf rest s

/-- What is done with the device once it is open. The headers of a NAND flash are looked for at a number of bytes, of a
block device at a number of sectors. Reference: `nuwriter.c:838 nuwriter_get_bootinfo`. -/
def getDeviceBootinfo (device : BootDevice) (hdr_offset : BitVec 32 × BitVec 32) :
    Except Fault (Int × Option (List Byte)) :=
  match device.type with
  | .mtd page_size pages_per_block =>
    let u32UnitSize := pages_per_block * page_size.setWidth 32
    match device.malloc page_size.toNat with
    | none => .ok (-1, none)
    | some pvUnitBuf =>
      readHeaders device.read pvUnitBuf [hdr_offset.1 * u32UnitSize, hdr_offset.2 * u32UnitSize] (0, none)
  | .block none => .ok (-1, none)
  | .block (some bytes_per_sector) =>
    if bytes_per_sector = 0 then .ok (-1, none)
    else
      match device.malloc bytes_per_sector.toNat with
      | none => .ok (-1, none)
      | some pvUnitBuf => readHeaders device.read pvUnitBuf [hdr_offset.1, hdr_offset.2] (0, none)
  | .other => .ok (-1, none)

/-- What the function returns, and the record it stores through the pointer, if any. `find` is
`rt_device_find`. Reference: `nuwriter.c:793 nuwriter_get_bootinfo`. -/
def nuwriterGetBootinfo (find : String → Option BootDevice) (bootsrc : EPorBootsrc) :
    Except Fault (Int × Option (List Byte)) :=
  if bootsrc ∈ [.evBootFrom_USBD, .evBootFrom_USBH0, .evBootFrom_USBH1] then .ok (-1, none)
  else
    match (sHdrInfo bootsrc).szDevName with
    | none => .ok (-2, none)
    | some szDevName =>
      match find szDevName with
      | none => .ok (-3, none)
      | some device =>
        if device.opens then getDeviceBootinfo device (sHdrInfo bootsrc).hdr_offset
        else .ok (-4, none)

/-! ## What it should do -/

/-- A word of a unit. -/
def wordAt (d : List Byte) (o : Nat) : BitVec 32 := BitVec.ofNat 32 (u32At d o)

/-- The end of the words the checksum of a header is taken over. -/
def checkedEnd (d : List Byte) : Nat := bootLength + crcSpan (wordAt d bootLength)

/-- The checksum of those words. -/
def headerCrc (d : List Byte) : BitVec 32 := crc32Func (slice d bootLength (checkedEnd d))

/-- The type of image `i`. -/
def headerImageType (d : List Byte) (i : Nat) : BitVec 32 :=
  wordAt d (bootImage + imageInfoSize * i + imageInfoType)

/-- A valid header: the record and the checked words lie in the unit, the length is at most that of the record, the
marker and the checksum are right, there are at most four images, and each is of a known type. -/
structure ValidHeader (d : List Byte) : Prop where
  whole : bootInfoSize ≤ d.length
  checked : checkedEnd d ≤ d.length
  length : wordAt d bootLength ≤ BitVec.ofNat 32 bootInfoSize
  marker : wordAt d 0 = nvtMarker
  crc : headerCrc d = wordAt d bootCheckSum
  count : wordAt d bootCount ≤ 4#32
  types : ∀ i < (wordAt d bootCount).toNat, headerImageType d i ≤ 4#32

/-- The version of a header. -/
def version (d : List Byte) : BitVec 32 := wordAt d bootVersion

/-- The rest of the unit that holds a byte. -/
def BootDevice.restAt (device : BootDevice) (o : Nat) : Option (List Byte) :=
  (device.read (BitVec.ofNat 32 (o / device.type.unitSize))).map (·.drop (o % device.type.unitSize))

/-- The size of what is erased at once, a block of a NAND flash. -/
def BootClass.eraseSize : BootClass → Nat
  | .mtd page_size pages_per_block => pages_per_block.toNat * page_size.toNat
  | type => type.unitSize

/-- Where the headers should be, in bytes: in sectors 2 and 3 of an SD card, in the first page of blocks 0 and 1 of a
NAND flash, and at 0 and 0x1000 of a NOR flash. Reference: `nuwriter.c:16`. -/
def documentedOffsets (type : BootClass) : EPorBootsrc → Nat × Nat
  | .evBootFrom_QSPI0_NOR => (0, 0x1000)
  | .evBootFrom_SD_eMMC0 | .evBootFrom_SD_eMMC1 => (2 * type.unitSize, 3 * type.unitSize)
  | .evBootFrom_QSPI0_NAND | .evBootFrom_RAW_NAND => (0, type.eraseSize)
  | .evBootFrom_USBD | .evBootFrom_USBH0 | .evBootFrom_USBH1 => (0, 0)

/-- What is read there. -/
def BootDevice.documented (device : BootDevice) (bootsrc : EPorBootsrc) : List (Option (List Byte)) :=
  [device.restAt (documentedOffsets device.type bootsrc).1, device.restAt (documentedOffsets device.type bootsrc).2]

/-- A valid header of the greatest version among what is read of some units. -/
structure Newest (units : List (Option (List Byte))) (d : List Byte) : Prop where
  mem : some d ∈ units
  valid : ValidHeader d
  greatest : ∀ d', some d' ∈ units → ValidHeader d' → version d' ≤ version d

/-- The record of a newest header is handed back if there is one, and else a failure. -/
structure BootinfoRight (units : List (Option (List Byte))) (r : Except Fault (Int × Option (List Byte))) :
    Prop where
  found : (∃ d, Newest units d) → ∃ d, Newest units d ∧ r = .ok (0, some (d.take bootInfoSize))
  missed : (¬ ∃ d, Newest units d) → ∃ ret info, r = .ok (ret, info) ∧ ret ≠ 0

/-! ## When it does -/

/-- The types of the images from `i` on, up to the first unknown one, lie in the unit. -/
def ImagesInside (d : List Byte) : Nat → Nat → Prop
  | 0, _ => True
  | n + 1, i =>
    bootImage + imageInfoSize * i + imageInfoType + 4 ≤ d.length ∧
      (4#32 < headerImageType d i ∨ ImagesInside d n (i + 1))

/-- What the check of a header reads lies in the unit. -/
def CheckInside (d : List Byte) : Prop :=
  wordAt d 0 ≠ nvtMarker ∨
  checkedEnd d ≤ d.length ∧
    (headerCrc d ≠ wordAt d bootCheckSum ∨
      bootCount + 4 ≤ d.length ∧ (4#32 < wordAt d bootCount ∨ ImagesInside d (wordAt d bootCount).toNat 0))

/-- The check finds nothing wrong. -/
def CheckPasses (d : List Byte) : Prop :=
  wordAt d 0 = nvtMarker ∧ headerCrc d = wordAt d bootCheckSum ∧ wordAt d bootCount ≤ 4#32 ∧
    ∀ i < (wordAt d bootCount).toNat, headerImageType d i ≤ 4#32

instance (d : List Byte) : Decidable (CheckPasses d) := inferInstanceAs (Decidable (_ ∧ _ ∧ _ ∧ _))

/-- All that is read of a unit when a header of version `v` is known lies in it. -/
def Inside (v : BitVec 32) (d : List Byte) : Prop :=
  bootLength + 4 ≤ d.length ∧
    (BitVec.ofNat 32 bootInfoSize < wordAt d bootLength ∨
      CheckInside d ∧ (CheckPasses d → bootVersion + 4 ≤ d.length ∧ (v < version d → bootInfoSize ≤ d.length)))

instance (d : List Byte) : Decidable (ValidHeader d) :=
  decidable_of_iff
    (bootInfoSize ≤ d.length ∧ checkedEnd d ≤ d.length ∧ wordAt d bootLength ≤ BitVec.ofNat 32 bootInfoSize ∧
      wordAt d 0 = nvtMarker ∧ headerCrc d = wordAt d bootCheckSum ∧ wordAt d bootCount ≤ 4#32 ∧
      ∀ i < (wordAt d bootCount).toNat, headerImageType d i ≤ 4#32)
    ⟨fun ⟨h₁, h₂, h₃, h₄, h₅, h₆, h₇⟩ => ⟨h₁, h₂, h₃, h₄, h₅, h₆, h₇⟩,
      fun ⟨h₁, h₂, h₃, h₄, h₅, h₆, h₇⟩ => ⟨h₁, h₂, h₃, h₄, h₅, h₆, h₇⟩⟩

/-- The version that counts once a unit has been looked at. -/
def knownVersion (d : List Byte) : BitVec 32 := if ValidHeader d then version d else 0

/-- The header that is taken of two: the second where it is valid and its version is greater, else the first where it
is valid, and neither when its version is 0. -/
inductive Taken (d₀ d₁ : List Byte) : List Byte → Prop
  | first (hvalid : ValidHeader d₀) (hpos : 0 < version d₀) (hnewest : ¬ (ValidHeader d₁ ∧ version d₀ < version d₁)) :
      Taken d₀ d₁ d₀
  | second (hvalid : ValidHeader d₁) (hnewer : knownVersion d₀ < version d₁) : Taken d₀ d₁ d₁

/-- What the units that are read give the user is what the headers at their places ask for. -/
def GivesNewest (units : List (Option (List Byte))) : Option (List Byte) → Option (List Byte) → Prop
  | none, _ => ¬ ∃ d, Newest units d
  | some d₀, none => Inside 0 d₀ ∧ ¬ ∃ d, Newest units d
  | some d₀, some d₁ =>
    Inside 0 d₀ ∧ Inside (knownVersion d₀) d₁ ∧
      ∃ d d', Taken d₀ d₁ d ∧ Newest units d' ∧ d.take bootInfoSize = d'.take bootInfoSize

/-- The two units the target reads. -/
def BootDevice.positions (device : BootDevice) (bootsrc : EPorBootsrc) : BitVec 32 × BitVec 32 :=
  match device.type with
  | .mtd page_size pages_per_block =>
    let u32UnitSize := pages_per_block * page_size.setWidth 32
    ((sHdrInfo bootsrc).hdr_offset.1 * u32UnitSize, (sHdrInfo bootsrc).hdr_offset.2 * u32UnitSize)
  | _ => (sHdrInfo bootsrc).hdr_offset

/-- A device that can be read: a block device whose sectors are not empty, or a NAND flash. -/
def BootClass.Storage : BootClass → Prop
  | .block (some bytes_per_sector) => bytes_per_sector ≠ 0
  | .mtd _ _ => True
  | _ => False

/-- The boot source is supported, its device is there and opens, and there is memory for a unit. -/
structure Ready (find : String → Option BootDevice) (bootsrc : EPorBootsrc) (device : BootDevice) : Prop where
  storage : device.type.Storage
  supported : bootsrc ∉ [.evBootFrom_USBD, .evBootFrom_USBH0, .evBootFrom_USBH1]
  found : ∃ szDevName, (sHdrInfo bootsrc).szDevName = some szDevName ∧ find szDevName = some device
  opens : device.opens = true
  memory : (device.malloc device.type.unitSize).isSome

/-! ## One header -/

section

variable {b : PackBuf}

theorem readWord {o : Nat} (h : o + 4 ≤ b.data.length) :
    b.readU32 (b.ptr 0 + BitVec.ofNat 32 o) = .ok (wordAt b.data o) := by
  rw [Buffer.ptr_add, Nat.zero_add]
  exact readU32_field h

theorem readWord_past {o : Nat} (h : b.data.length < o + 4) (ho : o < 2 ^ 32) :
    ∃ f, b.readU32 (b.ptr 0 + BitVec.ofNat 32 o) = .error f := by
  rw [Buffer.ptr_add, Nat.zero_add]
  exact ⟨_, Buffer.readU32_past h ho⟩

theorem readCrc (h : checkedEnd b.data ≤ b.data.length) :
    crc32 b.toBuffer (b.ptr 0 + BitVec.ofNat 32 bootLength) (wordAt b.data bootLength) = .ok (headerCrc b.data) := by
  rw [Buffer.ptr_add, Nat.zero_add]
  exact crc32_at h

theorem readType {i : Nat} (h : bootImage + imageInfoSize * i + imageInfoType + 4 ≤ b.data.length) :
    nuwriterCheckImageInfo b (b.ptr 0 + BitVec.ofNat 32 (bootImage + imageInfoSize * i)) =
      .ok (if 4#32 < headerImageType b.data i then -1 else 0) := by
  rw [nuwriterCheckImageInfo, BitVec.add_assoc, ← BitVec.ofNat_add, readWord h, ok_bind]
  show (if 4#32 < headerImageType b.data i then _ else _) = _
  split <;> rfl

/-- The walk over the types answers 0 when all are known. -/
theorem checkImageInfos_inside {n i : Nat} (h : ImagesInside b.data n i) :
    checkImageInfos b (b.ptr 0) n i =
      .ok (if ∀ j < n, headerImageType b.data (i + j) ≤ 4#32 then 0 else -1) := by
  induction n generalizing i with
  | zero => rfl
  | succ n ih =>
    obtain ⟨hin, hrest⟩ := h
    rw [checkImageInfos, readType hin, ok_bind]
    by_cases hbad : 4#32 < headerImageType b.data i
    · have hno : ¬ ∀ j < n + 1, headerImageType b.data (i + j) ≤ 4#32 := by
        intro hall
        exact absurd (hall 0 (Nat.succ_pos n)) (BitVec.not_le.2 hbad)
      rw [if_pos hbad, if_neg hno]
      rfl
    · have hiff : (∀ j < n + 1, headerImageType b.data (i + j) ≤ 4#32) ↔
          ∀ j < n, headerImageType b.data (i + 1 + j) ≤ 4#32 := by
        constructor
        · intro hall j hj
          rw [Nat.add_assoc, Nat.add_comm 1 j]
          exact hall (j + 1) (Nat.succ_lt_succ hj)
        · intro hall j hj
          cases j with
          | zero => exact BitVec.not_lt.1 hbad
          | succ j =>
            have hnext := hall j (Nat.lt_of_succ_lt_succ hj)
            rwa [Nat.add_assoc, Nat.add_comm 1 j] at hnext
      rw [if_neg hbad]
      show checkImageInfos b (b.ptr 0) n (i + 1) = _
      rw [ih (hrest.resolve_left hbad)]
      simp only [hiff]

theorem checkImageInfos_outside {n i : Nat} (hi : i + n ≤ 4) (h : ¬ ImagesInside b.data n i) :
    ∃ f, checkImageInfos b (b.ptr 0) n i = .error f := by
  induction n generalizing i with
  | zero => exact absurd trivial h
  | succ n ih =>
    rw [checkImageInfos]
    by_cases hin : bootImage + imageInfoSize * i + imageInfoType + 4 ≤ b.data.length
    · have hrest : ¬ (4#32 < headerImageType b.data i ∨ ImagesInside b.data n (i + 1)) := fun hr => h ⟨hin, hr⟩
      obtain ⟨hgood, hrest⟩ := not_or.1 hrest
      obtain ⟨f, hf⟩ := ih (by omega) hrest
      refine ⟨f, ?_⟩
      rw [readType hin, ok_bind, if_neg hgood]
      exact hf
    · have hsmall : bootImage + imageInfoSize * i + imageInfoType < 2 ^ 32 := by
        simp only [bootImage, imageInfoSize, imageInfoType]
        omega
      obtain ⟨f, hf⟩ := readWord_past (b := b) (Nat.lt_of_not_le hin) hsmall
      refine ⟨f, ?_⟩
      rw [nuwriterCheckImageInfo, BitVec.add_assoc, ← BitVec.ofNat_add, hf]
      rfl

/-- The check of a header that is inside its unit finds what there is to find. -/
theorem nuwriterCheckBootInfo_inside (hlen : bootLength + 4 ≤ b.data.length) (h : CheckInside b.data) :
    nuwriterCheckBootInfo b (b.ptr 0) (wordAt b.data bootLength) =
      .ok (if CheckPasses b.data then 0 else -1) := by
  have hmarker : b.readU32 (b.ptr 0) = .ok (wordAt b.data 0) := readU32_field (Nat.le_trans (by decide) hlen)
  rw [nuwriterCheckBootInfo, hmarker, ok_bind]
  by_cases hm : wordAt b.data 0 = nvtMarker
  swap
  · rw [if_pos hm, if_neg fun hp => hm hp.1]
    rfl
  obtain ⟨hend, hcount⟩ := h.resolve_left (not_not.2 hm)
  rw [if_neg (not_not.2 hm), readCrc hend, ok_bind, readWord (Nat.le_trans (by decide) hlen), ok_bind]
  by_cases hcrc : headerCrc b.data = wordAt b.data bootCheckSum
  swap
  · rw [if_pos hcrc, if_neg fun hp => hcrc hp.2.1]
    rfl
  obtain ⟨hcnt, himgs⟩ := hcount.resolve_left (not_not.2 hcrc)
  rw [if_neg (not_not.2 hcrc), readWord hcnt, ok_bind]
  by_cases hmany : 4#32 < wordAt b.data bootCount
  · rw [if_pos hmany, if_neg fun hp => absurd hp.2.2.1 (BitVec.not_le.2 hmany)]
    rfl
  rw [if_neg hmany, checkImageInfos_inside (himgs.resolve_left hmany)]
  simp only [CheckPasses, Nat.zero_add, hm, hcrc, BitVec.not_lt.1 hmany, true_and]

theorem nuwriterCheckBootInfo_outside (hlen : bootLength + 4 ≤ b.data.length) (h : ¬ CheckInside b.data) :
    ∃ f, nuwriterCheckBootInfo b (b.ptr 0) (wordAt b.data bootLength) = .error f := by
  have hmarker : b.readU32 (b.ptr 0) = .ok (wordAt b.data 0) := readU32_field (Nat.le_trans (by decide) hlen)
  obtain ⟨hm, h⟩ := not_or.1 h
  rw [nuwriterCheckBootInfo, hmarker, ok_bind, if_neg hm]
  by_cases hend : checkedEnd b.data ≤ b.data.length
  swap
  · have hshort : ∃ f, crc32 b.toBuffer (b.ptr bootLength) (wordAt b.data bootLength) = .error f :=
      crc32_short (Nat.le_trans (Nat.le_add_right bootLength 4) hlen) (Nat.lt_of_not_le hend)
    obtain ⟨f, hf⟩ := hshort
    refine ⟨f, ?_⟩
    rw [Buffer.ptr_add, Nat.zero_add, hf]
    rfl
  obtain ⟨hcrc, h⟩ := not_or.1 fun hr => h ⟨hend, hr⟩
  rw [readCrc hend, ok_bind, readWord (Nat.le_trans (by decide) hlen), ok_bind, if_neg hcrc]
  by_cases hcnt : bootCount + 4 ≤ b.data.length
  swap
  · obtain ⟨f, hf⟩ := readWord_past (b := b) (Nat.lt_of_not_le hcnt) (by decide)
    exact ⟨f, by rw [hf]; rfl⟩
  obtain ⟨hmany, himgs⟩ := not_or.1 fun hr => h ⟨hcnt, hr⟩
  have hfour : (wordAt b.data bootCount).toNat ≤ 4 := BitVec.not_lt.1 hmany
  obtain ⟨f, hf⟩ := checkImageInfos_outside (by omega) himgs
  refine ⟨f, ?_⟩
  rw [readWord hcnt, ok_bind, if_neg hmany]
  exact hf

/-- What a header that is inside its unit leaves of the newest known one. -/
theorem takeHeader_inside {v : BitVec 32} {u : Option (List Byte)} (h : Inside v b.data) :
    takeHeader b (v, u) =
      .ok (if ValidHeader b.data ∧ v < version b.data then
        (version b.data, some (b.data.take bootInfoSize)) else (v, u)) := by
  obtain ⟨hlen, h⟩ := h
  rw [takeHeader, readWord hlen, ok_bind]
  by_cases hlong : BitVec.ofNat 32 bootInfoSize < wordAt b.data bootLength
  · rw [if_pos hlong, if_neg fun hv => absurd hv.1.length (BitVec.not_le.2 hlong)]
    rfl
  obtain ⟨hcheck, hcopy⟩ := h.resolve_left hlong
  rw [if_neg hlong, nuwriterCheckBootInfo_inside hlen hcheck, ok_bind]
  by_cases hpass : CheckPasses b.data
  swap
  · rw [if_neg hpass, if_neg (by decide), if_neg]
    · rfl
    · rintro ⟨hv, -⟩
      exact hpass ⟨hv.marker, hv.crc, hv.count, hv.types⟩
  obtain ⟨hver, hwhole⟩ := hcopy hpass
  rw [if_pos hpass, if_pos rfl, readWord hver, ok_bind]
  show (if v < version b.data then _ else _) = _
  by_cases hnewer : v < version b.data
  swap
  · rw [if_neg hnewer, if_neg fun hv => hnewer hv.2]
    rfl
  have hvalid : ValidHeader b.data := by
    obtain ⟨hm, hcrc, hcnt, htypes⟩ := hpass
    refine ⟨hwhole hnewer, ?_, BitVec.not_lt.1 hlong, hm, hcrc, hcnt, htypes⟩
    exact (hcheck.resolve_left (not_not.2 hm)).1
  have hread : b.read (b.ptr 0) bootInfoSize = .ok (b.data.take bootInfoSize) := by
    rw [Buffer.read_at (by rw [Nat.zero_add]; exact hwhole hnewer) (by decide)]
    simp [slice]
  rw [if_pos hnewer, hread, if_pos ⟨hvalid, hnewer⟩]
  rfl

theorem takeHeader_outside {v : BitVec 32} {u : Option (List Byte)} (h : ¬ Inside v b.data) :
    ∃ f, takeHeader b (v, u) = .error f := by
  rw [takeHeader]
  by_cases hlen : bootLength + 4 ≤ b.data.length
  swap
  · obtain ⟨f, hf⟩ := readWord_past (b := b) (Nat.lt_of_not_le hlen) (by decide)
    exact ⟨f, by rw [hf]; rfl⟩
  obtain ⟨hlong, h⟩ := not_or.1 fun hr => h ⟨hlen, hr⟩
  rw [readWord hlen, ok_bind, if_neg hlong]
  by_cases hcheck : CheckInside b.data
  swap
  · obtain ⟨f, hf⟩ := nuwriterCheckBootInfo_outside hlen hcheck
    exact ⟨f, by rw [hf]; rfl⟩
  obtain ⟨hpass, h⟩ := Classical.not_imp.1 fun hr => h ⟨hcheck, hr⟩
  rw [nuwriterCheckBootInfo_inside hlen hcheck, ok_bind, if_pos hpass, if_pos rfl]
  by_cases hver : bootVersion + 4 ≤ b.data.length
  swap
  · obtain ⟨f, hf⟩ := readWord_past (b := b) (Nat.lt_of_not_le hver) (by decide)
    exact ⟨f, by rw [hf]; rfl⟩
  obtain ⟨hnewer, hwhole⟩ := Classical.not_imp.1 fun hr => h ⟨hver, hr⟩
  have hread : b.read (b.ptr 0) bootInfoSize = .error (.outOfBounds (b.ptr 0) bootInfoSize) :=
    Buffer.read_past (by rw [Nat.zero_add]; exact Nat.lt_of_not_le hwhole) (by decide)
  have hnewer' : v < wordAt b.data bootVersion := hnewer
  rw [readWord hver, ok_bind, if_pos hnewer', hread]
  exact ⟨_, rfl⟩

end

theorem imagesInside_of_whole {d : List Byte} (h : bootInfoSize ≤ d.length) {n i : Nat} (hi : i + n ≤ 4) :
    ImagesInside d n i := by
  induction n generalizing i with
  | zero => trivial
  | succ n ih =>
    refine ⟨Nat.le_trans ?_ h, Or.inr (ih (by omega))⟩
    simp only [bootImage, imageInfoSize, imageInfoType, bootInfoSize]
    omega

/-- All that is read of a valid header is inside. -/
theorem ValidHeader.inside {d : List Byte} (h : ValidHeader d) (v : BitVec 32) : Inside v d := by
  have hcount : (wordAt d bootCount).toNat ≤ 4 := h.count
  refine ⟨Nat.le_trans (by decide) h.whole, Or.inr ⟨Or.inr ⟨h.checked, Or.inr ⟨?_, Or.inr ?_⟩⟩, fun _ => ⟨?_, ?_⟩⟩⟩
  · exact Nat.le_trans (by decide) h.whole
  · exact imagesInside_of_whole h.whole (by omega)
  · exact Nat.le_trans (by decide) h.whole
  · exact fun _ => h.whole

/-! ## Both headers -/

/-- What a valid header of a greater version leaves. -/
def newer (s : BitVec 32 × Option (List Byte)) (d : List Byte) : BitVec 32 × Option (List Byte) :=
  if ValidHeader d ∧ s.1 < version d then (version d, some (d.take bootInfoSize)) else s

theorem hold_data {n : Nat} (m : UnitMem n) {d : List Byte} (h : d.length = n) : (m.hold d).data = d := by
  show d.take n = d
  rw [← h, List.take_length]

theorem newer_first (d : List Byte) : (newer (0, none) d).1 = knownVersion d := by
  by_cases hvalid : ValidHeader d
  · by_cases hpos : 0 < version d
    · rw [newer, if_pos ⟨hvalid, hpos⟩, knownVersion, if_pos hvalid]
    · rw [newer, if_neg fun h => hpos h.2, knownVersion, if_pos hvalid]
      exact (BitVec.le_zero_iff.1 (BitVec.not_lt.1 hpos)).symm
  · rw [newer, if_neg fun h => hvalid h.1, knownVersion, if_neg hvalid]

theorem knownVersion_of_valid {d : List Byte} (h : ValidHeader d) : knownVersion d = version d := if_pos h

/-- The record that is left is that of the header that is taken. -/
theorem newer_eq_some (d₀ d₁ info : List Byte) :
    (newer (newer (0, none) d₀) d₁).2 = some info ↔ ∃ d, Taken d₀ d₁ d ∧ d.take bootInfoSize = info := by
  by_cases hsecond : ValidHeader d₁ ∧ knownVersion d₀ < version d₁
  · have hleft : (newer (newer (0, none) d₀) d₁).2 = some (d₁.take bootInfoSize) := by
      rw [newer, newer_first, if_pos hsecond]
    rw [hleft]
    constructor
    · intro h
      exact ⟨d₁, .second hsecond.1 hsecond.2, Option.some.inj h⟩
    · rintro ⟨d, htaken, rfl⟩
      cases htaken with
      | first hvalid _ hnewest =>
        rw [knownVersion_of_valid hvalid] at hsecond
        exact absurd hsecond hnewest
      | second => rfl
  have hleft : newer (newer (0, none) d₀) d₁ = newer (0, none) d₀ := by
    rw [newer, newer_first, if_neg hsecond]
  rw [hleft]
  by_cases hfirst : ValidHeader d₀ ∧ 0 < version d₀
  · rw [newer, if_pos hfirst]
    constructor
    · intro h
      refine ⟨d₀, .first hfirst.1 hfirst.2 ?_, Option.some.inj h⟩
      rwa [knownVersion_of_valid hfirst.1] at hsecond
    · rintro ⟨d, htaken, rfl⟩
      cases htaken with
      | first => rfl
      | second hvalid hnewer => exact absurd ⟨hvalid, hnewer⟩ hsecond
  · rw [newer, if_neg hfirst]
    constructor
    · intro h
      cases h
    · rintro ⟨d, htaken, -⟩
      cases htaken with
      | first hvalid hpos _ => exact absurd ⟨hvalid, hpos⟩ hfirst
      | second hvalid hnewer => exact absurd ⟨hvalid, hnewer⟩ hsecond

section

variable {n : Nat} {read : BitVec 32 → Option (List Byte)} {pvUnitBuf : UnitMem n} {pos : BitVec 32}
  {rest : List (BitVec 32)} {s : BitVec 32 × Option (List Byte)} {d : List Byte}

/-- A unit that is read, of the right size, and inside which the header is. -/
theorem readHeaders_inside (hread : read pos = some d) (hlen : d.length = n) (hin : Inside s.1 d) :
    readHeaders read pvUnitBuf (pos :: rest) s = readHeaders read pvUnitBuf rest (newer s d) := by
  have hdata : (pvUnitBuf.hold d).data = d := hold_data pvUnitBuf hlen
  have htake := takeHeader_inside (b := pvUnitBuf.hold d) (v := s.1) (u := s.2) (hdata.symm ▸ hin)
  rw [hdata] at htake
  rw [readHeaders, hread]
  show takeHeader (pvUnitBuf.hold d) s >>= _ = _
  rw [show takeHeader (pvUnitBuf.hold d) s = .ok (newer s d) from htake, ok_bind]

theorem readHeaders_outside (hread : read pos = some d) (hlen : d.length = n) (hout : ¬ Inside s.1 d) :
    ∃ f, readHeaders read pvUnitBuf (pos :: rest) s = .error f := by
  have hdata : (pvUnitBuf.hold d).data = d := hold_data pvUnitBuf hlen
  obtain ⟨f, hf⟩ := takeHeader_outside (b := pvUnitBuf.hold d) (v := s.1) (u := s.2) (hdata.symm ▸ hout)
  refine ⟨f, ?_⟩
  rw [readHeaders, hread]
  show takeHeader (pvUnitBuf.hold d) s >>= _ = _
  rw [show takeHeader (pvUnitBuf.hold d) s = .error f from hf, error_bind]

theorem readHeaders_unread (hread : read pos = none) :
    readHeaders read pvUnitBuf (pos :: rest) s = .ok (-1, s.2) := by
  rw [readHeaders, hread]

end

section

variable {units : List (Option (List Byte))}

theorem bootinfoRight_error (f : Fault) : ¬ BootinfoRight units (.error f) := by
  intro h
  by_cases hex : ∃ d, Newest units d
  · obtain ⟨d, -, hd⟩ := h.found hex
    cases hd
  · obtain ⟨ret, info, hr, -⟩ := h.missed hex
    cases hr

theorem bootinfoRight_failure (info : Option (List Byte)) :
    BootinfoRight units (.ok (-1, info)) ↔ ¬ ∃ d, Newest units d := by
  constructor
  · intro h hex
    obtain ⟨d, -, hd⟩ := h.found hex
    cases hd
  · intro hno
    exact ⟨fun hex => absurd hex hno, fun _ => ⟨-1, info, rfl, by decide⟩⟩

theorem bootinfoRight_success (info : Option (List Byte)) :
    BootinfoRight units (.ok (0, info)) ↔ ∃ d, Newest units d ∧ info = some (d.take bootInfoSize) := by
  constructor
  · intro h
    by_cases hex : ∃ d, Newest units d
    · obtain ⟨d, hd, hr⟩ := h.found hex
      cases hr
      exact ⟨d, hd, rfl⟩
    · obtain ⟨ret, info', hr, hne⟩ := h.missed hex
      cases hr
      exact absurd rfl hne
  · rintro ⟨d, hd, rfl⟩
    exact ⟨fun _ => ⟨d, hd, rfl⟩, fun hno => absurd ⟨d, hd⟩ hno⟩

/-- When the loop over the two units is right. -/
theorem readHeaders_right_iff {n : Nat} (read : BitVec 32 → Option (List Byte)) (pvUnitBuf : UnitMem n)
    (pos₀ pos₁ : BitVec 32) (hfills : ∀ pos d, read pos = some d → d.length = n) :
    BootinfoRight units (readHeaders read pvUnitBuf [pos₀, pos₁] (0, none)) ↔
      GivesNewest units (read pos₀) (read pos₁) := by
  cases h₀ : read pos₀ with
  | none =>
    rw [readHeaders_unread h₀]
    exact bootinfoRight_failure none
  | some d₀ =>
    by_cases hin₀ : Inside 0 d₀
    swap
    · have hout : ∃ f, readHeaders read pvUnitBuf [pos₀, pos₁] (0, none) = .error f :=
        readHeaders_outside h₀ (hfills _ _ h₀) hin₀
      obtain ⟨f, hf⟩ := hout
      rw [hf]
      refine iff_of_false (bootinfoRight_error f) fun h => ?_
      cases h₁ : read pos₁ with
      | none =>
        rw [h₁] at h
        exact hin₀ h.1
      | some d₁ =>
        rw [h₁] at h
        exact hin₀ h.1
    rw [readHeaders_inside h₀ (hfills _ _ h₀) hin₀]
    cases h₁ : read pos₁ with
    | none =>
      rw [readHeaders_unread h₁, bootinfoRight_failure]
      exact ⟨fun hno => ⟨hin₀, hno⟩, fun h => h.2⟩
    | some d₁ =>
      by_cases hin₁ : Inside (knownVersion d₀) d₁
      swap
      · have hout : ∃ f, readHeaders read pvUnitBuf [pos₁] (newer (0, none) d₀) = .error f :=
          readHeaders_outside h₁ (hfills _ _ h₁) (by rw [newer_first]; exact hin₁)
        obtain ⟨f, hf⟩ := hout
        rw [hf]
        exact iff_of_false (bootinfoRight_error f) fun h => hin₁ h.2.1
      rw [readHeaders_inside h₁ (hfills _ _ h₁) (by rw [newer_first]; exact hin₁), readHeaders,
        bootinfoRight_success]
      constructor
      · rintro ⟨d', hnewest, hinfo⟩
        obtain ⟨d, htaken, hd⟩ := (newer_eq_some d₀ d₁ _).1 hinfo
        exact ⟨hin₀, hin₁, d, d', htaken, hnewest, hd⟩
      · rintro ⟨-, -, d, d', htaken, hnewest, hd⟩
        exact ⟨d', hnewest, (newer_eq_some d₀ d₁ _).2 ⟨d, htaken, hd⟩⟩

end

/-- A target that is ready reads two units. -/
theorem Ready.reads {find : String → Option BootDevice} {bootsrc : EPorBootsrc} {device : BootDevice}
    (h : Ready find bootsrc device) : ∃ pvUnitBuf : UnitMem device.type.unitSize,
      nuwriterGetBootinfo find bootsrc = readHeaders device.read pvUnitBuf
        [(device.positions bootsrc).1, (device.positions bootsrc).2] (0, none) := by
  obtain ⟨szDevName, hname, hfind⟩ := h.found
  obtain ⟨pvUnitBuf, hmem⟩ := Option.isSome_iff_exists.1 h.memory
  have hstorage := h.storage
  refine ⟨pvUnitBuf, ?_⟩
  have hdevice : nuwriterGetBootinfo find bootsrc = getDeviceBootinfo device (sHdrInfo bootsrc).hdr_offset := by
    rw [nuwriterGetBootinfo, if_neg h.supported, hname]
    simp only
    rw [hfind]
    exact if_pos h.opens
  rw [hdevice]
  clear hdevice hfind hname h
  obtain ⟨opens, type, read, malloc, fills⟩ := device
  cases type with
  | mtd page_size pages_per_block =>
    simp only [getDeviceBootinfo]
    rw [show malloc page_size.toNat = some pvUnitBuf from hmem]
    rfl
  | block geo =>
    cases geo with
    | none => exact hstorage.elim
    | some bytes_per_sector =>
      simp only [getDeviceBootinfo]
      rw [if_neg hstorage, show malloc bytes_per_sector.toNat = some pvUnitBuf from hmem]
      rfl
  | other => exact hstorage.elim

/-- A unit that begins with an empty header of a version. -/
def headerUnit (n : Nat) (m_u32Version : BitVec 32) : List Byte :=
  (leBytes 4 nvtMarker.toNat ++ leBytes 8 0 ++ leBytes 4 m_u32Version.toNat ++ List.replicate n 0).take n

theorem headerUnit_length (n : Nat) (v : BitVec 32) : (headerUnit n v).length = n := by
  simp only [headerUnit, List.length_take, List.length_append, leBytes_length, List.length_replicate]
  omega

/-- It is valid. -/
theorem headerUnit_valid : ValidHeader (headerUnit 512 1) ∧ ValidHeader (headerUnit 512 2) ∧
    ValidHeader (headerUnit 2048 1) := by
  decide +kernel

theorem ddr_pos : 0 < (0x80000000#32).toNat := by decide

theorem ddr_aligned : (0x80000000#32).toNat % 16 = 0 := by decide

theorem ddr_fits {n : Nat} (h : n ≤ 0x10000000) : (0x80000000#32).toNat + n ≤ 2 ^ 32 := by
  have hbase : (0x80000000#32).toNat = 0x80000000 := rfl
  omega

/-- Memory at the start of the DDR memory. -/
def ddrUnit (n : Nat) : Option (UnitMem n) :=
  if h : n ≤ 0x10000000 then some ⟨0x80000000#32, ddr_pos, ddr_fits h, ddr_aligned⟩ else none

/-- A card with a header of version 1 in sector 2 and of version 2 in sector 3. -/
def twoHeaders : BootDevice where
  opens := true
  type := .block (some 512)
  read pos := some (if pos = 3 then headerUnit 512 2 else headerUnit 512 1)
  malloc := ddrUnit
  fills := by
    intro pos d h
    cases h
    split <;> exact headerUnit_length 512 _

/-- A flash of 1024 blocks with a header in each page. -/
def headerFlash : BootDevice where
  opens := true
  type := .mtd 2048 64
  read pos := if pos.toNat < 1024 * 64 then some (headerUnit 2048 1) else none
  malloc := ddrUnit
  fills := by
    intro pos d h
    split at h
    · cases h
      exact headerUnit_length 2048 1
    · cases h

theorem twoHeaders_ready : Ready (fun _ => some twoHeaders) .evBootFrom_SD_eMMC0 twoHeaders where
  storage := by
    show (512#32) ≠ 0
    decide
  supported := by decide
  found := ⟨"sd0", rfl, rfl⟩
  opens := rfl
  memory := rfl

theorem headerFlash_ready : Ready (fun _ => some headerFlash) .evBootFrom_RAW_NAND headerFlash where
  storage := trivial
  supported := by decide
  found := ⟨"rawnd2", rfl, rfl⟩
  opens := rfl
  memory := rfl

end NumakerMA35D1.NuWriter

import NumakerMA35D1.NuWriter.Pack

/-!
# Programming a pack from the PC

`doPackProgram` reads a pack file and writes its images to every attached device over USB. The
option of the command line reaches the reader of the file as its `nocrc` flag, which is meant to be
zero for a checked pack: `crcGate_iff` says for which options and packs no image is sent without a
right CRC.

A device is what its USB transfers answer; a transfer that has no answer left is the `USBError` on
which the worker leaves. What was sent before is kept in the log.
-/

namespace NumakerMA35D1.NuWriter

open Embedded

/-! ## Options and media -/

/-- Storage media. Reference: `nuwriter.py:37 DEV_DDR_SRAM`. -/
inductive Media
  | ddrSram | nand | sdEmmc | spinor | spinand | otp | usbh | unknown
deriving DecidableEq, Repr

/-- The number of a medium. -/
def Media.code : Media → Nat
  | .ddrSram => 0 | .nand => 1 | .sdEmmc => 2 | .spinor => 3 | .spinand => 4 | .otp => 6
  | .usbh => 7 | .unknown => 0xff

/-- The options a command line can name, and `none` without one.
Reference: `nuwriter.py:1707 get_option`. -/
inductive Opt
  | none | scrub | withbad | execute | verify | unpack | raw | eject | stuff | setinfo | concat
  | showhdr | nocrc
deriving DecidableEq, Repr

/-- The number of an option. Reference: `nuwriter.py:54 OPT_NONE`. -/
def Opt.code : Opt → Nat
  | .none => 0 | .scrub => 1 | .withbad => 1 | .execute => 2 | .verify => 3 | .unpack => 4
  | .raw => 5 | .eject => 6 | .stuff => 7 | .setinfo => 8 | .concat => 9 | .showhdr => 10
  | .nocrc => 11

/-- The combinations of medium and option that `main` passes on to `do_pack_program`.
Reference: `nuwriter.py:1883 main`. -/
def packProgramAllowed (media : Media) (option : Opt) : Bool :=
  media ≠ .unknown && media ≠ .otp && (option ≠ .execute || media = .ddrSram) &&
    (option ≠ .raw || media = .nand)

/-- `ACK`, `TRANSFER_SIZE`, `SPINOR_ALIGN`, `ACT_WRITE` and `ACT_READ`.
Reference: `nuwriter.py:30 ACK`. -/
def ACK : Nat := 0x55aa55aa
@[inherit_doc ACK] def TRANSFER_SIZE : Nat := 4096
@[inherit_doc ACK] def SPINOR_ALIGN : Nat := 4096
@[inherit_doc ACK] def ACT_WRITE : Nat := 2
@[inherit_doc ACK] def ACT_READ : Nat := 4

/-! ## The USB port -/

/-- A transfer on the port. Reference: `xusbcom.py:25 write`, `xusbcom.py:34 read`,
`xusbcom.py:41 set_media`. -/
inductive UsbEvent
  | setMedia (media : Nat)
  | write (data : List Byte)
  | read (size : Nat)
deriving DecidableEq, Repr

/-- An attached device: the block sizes `.config` has for it, and the answers to its transfers. -/
structure UsbDev where
  nandAlign : Nat
  spinandAlign : Nat
  answers : List (List Byte)

/-- The answers left and the transfers done. -/
structure UsbState where
  answers : List (List Byte)
  log : List UsbEvent
deriving DecidableEq, Repr

/-- `sys.exit` of a worker on `usb.core.USBError`. -/
inductive UsbError
  | usbError
deriving DecidableEq, Repr

/-- Computations on a port: the state is kept when one is left by an error. -/
def UsbM (α : Type) : Type := UsbState → Except UsbError α × UsbState

instance : Monad UsbM where
  pure a := fun st => (.ok a, st)
  bind m f := fun st =>
    match m st with
    | (.ok a, st) => f a st
    | (.error e, st) => (.error e, st)

/-- One transfer takes one answer. -/
def UsbM.transfer (e : UsbEvent) : UsbM (List Byte) := fun st =>
  match st.answers with
  | [] => (.error .usbError, st)
  | a :: rest => (.ok a, { answers := rest, log := st.log ++ [e] })

/-- Reference: `xusbcom.py:41 set_media`. -/
def UsbM.setMedia (media : Media) : UsbM Unit := do
  let _ ← transfer (.setMedia media.code)

/-- Reference: `xusbcom.py:25 write`. -/
def UsbM.write (data : List Byte) : UsbM Unit := do
  let _ ← transfer (.write data)

/-- At most `size` bytes. Reference: `xusbcom.py:34 read`. -/
def UsbM.read (size : Nat) : UsbM (List Byte) := do
  let buf ← transfer (.read size)
  return buf.take size

/-- The number of answers left. -/
def UsbM.pending : UsbM Nat := fun st => (.ok st.answers.length, st)

/-! ## The worker of one device -/

/-- What a worker takes from the pack: the image count, the attributes and the contents. -/
structure PackReader where
  imgCount : Nat
  imgAttr : Nat → Nat × Nat × Nat
  imgContent : Nat → Nat → Nat → List Byte

/-- The reader of an unpacked file. -/
def UnpackImage.reader (u : UnpackImage) : PackReader :=
  ⟨u.imageCnt, u.imgAttr, u.imgContent⟩

/-- The command that announces an image. -/
def imageCmd (imgStart imgLength act last : Nat) : List Byte :=
  leBytes 8 imgStart ++ leBytes 8 imgLength ++ leBytes 4 act ++ leBytes 4 last

/-- The write loop, over the offsets that are left; `true` is its way through.
Reference: `nuwriter.py:727 __pack_program`. -/
def writeChunks (packImage : PackReader) (i imgLength : Nat) : List Nat → UsbM Bool
  | [] => return true
  | offset :: offsets => do
    let xferSize :=
      if offset + TRANSFER_SIZE < imgLength then TRANSFER_SIZE else imgLength - offset
    UsbM.write (packImage.imgContent i offset xferSize)
    let ack ← UsbM.read 4
    if ofLeBytes ack ≠ xferSize then
      return false
    writeChunks packImage i imgLength offsets

/-- The read-back loop. Every round takes three answers, so the answers pending at its start bound
the rounds; with none left the first read leaves.
Reference: `nuwriter.py:753 __pack_program`. -/
def verifyChunks (packImage : PackReader) (i imgLength : Nat) : Nat → Nat → UsbM Bool
  | 0, remain => do
    if remain = 0 then
      return true
    let _ ← UsbM.read 4
    return false
  | fuel + 1, remain => do
    if remain = 0 then
      return true
    let ack ← UsbM.read 4
    let xferSize := ofLeBytes ack
    let data ← UsbM.read xferSize
    UsbM.write (leBytes 4 xferSize)
    let offset := imgLength - remain
    let (xferSize, data) := if xferSize > remain then (remain, data.take remain) else (xferSize, data)
    if data ≠ packImage.imgContent i offset xferSize then
      return false
    verifyChunks packImage i imgLength fuel (remain - xferSize)

/-- The loop over the images, with `n` left from number `i` on: 0, or -1 where it gives up.
Reference: `nuwriter.py:703 __pack_program`. -/
def programImages (dev : UsbDev) (media : Media) (packImage : PackReader) (option : Opt) :
    Nat → Nat → UsbM Int
  | 0, _ => return 0
  | n + 1, i => do
    let (imgLength, imgStart, imgType) := packImage.imgAttr i
    if media = .nand ∧ imgStart % dev.nandAlign ≠ 0 ∨
        media = .spinand ∧ imgStart % dev.spinandAlign ≠ 0 ∨
        media = .spinor ∧ imgStart % SPINOR_ALIGN ≠ 0 then
      return -1
    UsbM.setMedia media
    UsbM.write (imageCmd imgStart imgLength ACT_WRITE imgType)
    let ack ← UsbM.read 4
    if ofLeBytes ack ≠ ACK then
      return -1
    let offsets := (List.range ((imgLength + TRANSFER_SIZE - 1) / TRANSFER_SIZE)).map
      (· * TRANSFER_SIZE)
    if !(← writeChunks packImage i imgLength offsets) then
      return -1
    let _ ← UsbM.read 4
    if option.code = Opt.code .verify then
      UsbM.setMedia media
      UsbM.write (imageCmd imgStart imgLength ACT_READ 0)
      let ack ← UsbM.read 4
      if ofLeBytes ack ≠ ACK then
        return -1
      if !(← verifyChunks packImage i imgLength (← UsbM.pending) imgLength) then
        return -1
    programImages dev media packImage option n (i + 1)

/-- Reference: `nuwriter.py:691 __pack_program`. -/
def packProgram (dev : UsbDev) (media : Media) (packImage : PackReader) (option : Opt) :
    UsbM Int := do
  if media = .nand ∧ dev.nandAlign = 0 ∨ media = .spinand ∧ dev.spinandAlign = 0 then
    return -1
  programImages dev media packImage option packImage.imgCount 0

/-- How one worker ends, and what it sent. -/
structure Worker where
  result : Except UsbError Int
  log : List UsbEvent
deriving DecidableEq

/-- The worker of a device, from the first transfer on. -/
def worker (media : Media) (packImage : PackReader) (option : Opt) (dev : UsbDev) : Worker :=
  let (result, st) := packProgram dev media packImage option { answers := dev.answers, log := [] }
  { result, log := st.log }

/-- The pack is read once, with the option as its `nocrc` flag, and every device gets a worker.
Reference: `nuwriter.py:776 do_pack_program`. -/
def doPackProgram (devices : List UsbDev) (media : Media) (packData : List Byte) (option : Opt) :
    Except SysExit (List Worker) :=
  if devices = [] then .error ⟨"Device not found", 2⟩
  else
    match UnpackImage.init packData option.code with
    | .error e => .error e
    | .ok packImage => .ok (devices.map (worker media packImage.reader option))

/-! ## The gate -/

/-- Some device was sent something. -/
def SentImage (r : Except SysExit (List Worker)) : Prop :=
  ∃ workers, r = .ok workers ∧ ∃ w ∈ workers, ∃ data, UsbEvent.write data ∈ w.log

/-- The stored CRC is the one of the contents. -/
def CrcOk (pack : List Byte) : Prop :=
  (crc32Func (pack.drop 8)).toNat = ofLeBytes (slice pack 4 8)

instance (pack : List Byte) : Decidable (CrcOk pack) := inferInstanceAs (Decidable (_ = _))

/-- Two packs that differ in the CRC field only. -/
def SameButCrc (pack pack' : List Byte) : Prop :=
  slice pack 0 4 = slice pack' 0 4 ∧ pack.drop 8 = pack'.drop 8

/-- The gate of a pack and an option. Without a no-CRC request nothing is sent of a pack whose CRC
is wrong; with one, the pack is programmed as its like with the right CRC is without an option. -/
def CrcGate (pack : List Byte) (option : Opt) : Prop :=
  (option ≠ .nocrc → ∀ devices media, packProgramAllowed media option →
    SentImage (doPackProgram devices media pack option) → CrcOk pack) ∧
  (option = .nocrc → ∀ devices media pack', SameButCrc pack pack' → CrcOk pack' →
    doPackProgram devices media pack option = doPackProgram devices media pack' .none)

/-! ## Reading a pack apart from its CRC field -/

section

variable {d d' : List Byte}

theorem slice_of_drop_eq {k a b : Nat} (h : d.drop k = d'.drop k) (hk : k ≤ a) :
    slice d a b = slice d' a b := by
  obtain ⟨m, rfl⟩ := Nat.exists_eq_add_of_le hk
  rcases Nat.le_total b (k + m) with hb | hb
  · simp [slice, Nat.sub_eq_zero_of_le hb]
  · obtain ⟨l, rfl⟩ := Nat.exists_eq_add_of_le (Nat.le_trans (Nat.le_add_right k m) hb)
    rw [← slice_drop, ← slice_drop, h]

/-- The table of the images is behind the CRC field. -/
theorem imgTable_of_drop_eq (h : d.drop 8 = d'.drop 8) {n o : Nat} (ho : 8 ≤ o) :
    imgTable d n o = imgTable d' n o := by
  induction n generalizing o with
  | zero => rfl
  | succ n ih =>
    rw [imgTable, imgTable, slice_of_drop_eq h ho,
      slice_of_drop_eq h (by omega : 8 ≤ o + 8), slice_of_drop_eq h (by omega : 8 ≤ o + 16)]
    congr 1
    apply ih
    split <;> omega

theorem imgTable_dataIndex {n o : Nat} {e : ImgEntry} (he : e ∈ imgTable d n o) :
    o ≤ e.dataIndex := by
  induction n generalizing o with
  | zero => cases he
  | succ n ih =>
    rw [imgTable] at he
    rcases List.mem_cons.1 he with rfl | he
    · exact Nat.le_add_right o 24
    · have := ih he
      split at this <;> omega

/-- The file as the constructor leaves it once the checks are passed. -/
def unpacked (packData : List Byte) : UnpackImage :=
  { packData, imageCnt := totalImageCount packData
    imgList := imgTable packData (totalImageCount packData) 0x10 }

/-- The constructor, by its checks. -/
theorem init_eq_ok {nocrc : Nat} {u : UnpackImage} : UnpackImage.init d nocrc = .ok u ↔
    slice d 0 4 = [0x20#8, 0x54#8, 0x56#8, 0x4e#8] ∧ (nocrc = 0 → CrcOk d) ∧ u = unpacked d := by
  unfold UnpackImage.init
  by_cases hm : slice d 0 4 = [0x20#8, 0x54#8, 0x56#8, 0x4e#8]
  · rw [if_neg (not_not.2 hm)]
    by_cases hcrc : nocrc = 0 ∧ ¬ CrcOk d
    · rw [if_pos (show nocrc = 0 ∧ _ ≠ _ from hcrc)]
      simp [hcrc.1, hcrc.2]
    · rw [if_neg (show ¬ (nocrc = 0 ∧ _ ≠ _) from hcrc)]
      rw [not_and_not_right] at hcrc
      refine ⟨fun h => ⟨hm, hcrc, (Except.ok.inj h).symm⟩, fun h => ?_⟩
      rw [h.2.2]
      rfl
  · rw [if_pos hm]
    simp [hm]

/-- The workers read nothing but what is behind the CRC field. -/
theorem reader_of_drop_eq (h : d.drop 8 = d'.drop 8) :
    (unpacked d).reader = (unpacked d').reader := by
  have hcnt : totalImageCount d = totalImageCount d' := by
    rw [totalImageCount, u32At, slice_of_drop_eq h (Nat.le_refl 8), ← u32At, ← totalImageCount]
  have htable : (unpacked d).imgList = (unpacked d').imgList := by
    rw [unpacked, unpacked, hcnt]
    exact imgTable_of_drop_eq h (by decide)
  rw [UnpackImage.reader, UnpackImage.reader, PackReader.mk.injEq]
  refine ⟨hcnt, ?_, ?_⟩
  · funext index
    rw [UnpackImage.imgAttr, UnpackImage.imgAttr, htable, unpacked, unpacked, hcnt]
  · funext index offset size
    rw [UnpackImage.imgContent, UnpackImage.imgContent, htable]
    cases he : (unpacked d').imgList[index]? with
    | none => rfl
    | some e =>
      have hlo : 0x10 ≤ e.dataIndex := imgTable_dataIndex (List.mem_of_getElem? he)
      simp only [unpacked, hcnt]
      rw [slice_of_drop_eq h (by omega : 8 ≤ e.dataIndex + offset)]
      rfl

end

/-! ## What is sent -/

/-- A device that answers two transfers: with the first image announced, it is gone. -/
def briefDev : UsbDev := ⟨1, 1, [[], []]⟩

/-- A medium the option may be used with. -/
def mediaFor : Opt → Media
  | .execute => .ddrSram
  | .raw => .nand
  | _ => .sdEmmc

theorem mediaFor_allowed (option : Opt) : packProgramAllowed (mediaFor option) option := by
  cases option <;> decide

/-- A pack with an image has its first one announced to that device. -/
theorem worker_briefDev {packImage : PackReader} (option : Opt) (h : 0 < packImage.imgCount) :
    ∃ data, UsbEvent.write data ∈ (worker (mediaFor option) packImage option briefDev).log := by
  obtain ⟨n, hn⟩ := Nat.exists_eq_add_of_lt h
  rw [Nat.zero_add] at hn
  refine ⟨imageCmd (packImage.imgAttr 0).2.1 (packImage.imgAttr 0).1 ACT_WRITE
    (packImage.imgAttr 0).2.2, ?_⟩
  have hspinor : mediaFor option ≠ .spinor := by cases option <;> decide
  have hspinand : mediaFor option ≠ .spinand := by cases option <;> decide
  simp [worker, packProgram, programImages, hn, briefDev, Nat.mod_one, hspinor, hspinand,
    UsbM.setMedia, UsbM.write, UsbM.read, UsbM.transfer, bind, pure]

/-- When something is sent: there is a device, and the constructor accepts the file. -/
theorem SentImage.init {devices : List UsbDev} {media : Media} {pack : List Byte} {option : Opt}
    (h : SentImage (doPackProgram devices media pack option)) :
    ∃ u, UnpackImage.init pack option.code = .ok u := by
  obtain ⟨workers, hr, -⟩ := h
  unfold doPackProgram at hr
  split at hr
  · cases hr
  · split at hr
    · cases hr
    · next u hu => exact ⟨u, hu⟩

/-- A file the constructor accepts is sent to some device, if it has an image. -/
theorem sentImage_of_init {pack : List Byte} {option : Opt}
    (h : UnpackImage.init pack option.code = .ok (unpacked pack))
    (hcnt : 0 < totalImageCount pack) :
    SentImage (doPackProgram [briefDev] (mediaFor option) pack option) := by
  refine ⟨[worker (mediaFor option) (unpacked pack).reader option briefDev], ?_, _,
    List.mem_singleton_self _, worker_briefDev option hcnt⟩
  rw [doPackProgram, if_neg (by simp), h]
  rfl

theorem worker_no_images {media : Media} {packImage : PackReader} {option : Opt} {dev : UsbDev}
    (h : packImage.imgCount = 0) : (worker media packImage option dev).log = [] := by
  by_cases hblk : media = .nand ∧ dev.nandAlign = 0 ∨ media = .spinand ∧ dev.spinandAlign = 0 <;>
    simp [worker, packProgram, h, hblk, programImages, pure]

/-- A pack without images sends nothing. -/
theorem not_sentImage_of_count {devices : List UsbDev} {media : Media} {pack : List Byte}
    {option : Opt} (h : totalImageCount pack = 0) :
    ¬ SentImage (doPackProgram devices media pack option) := by
  intro hsent
  obtain ⟨u, hu⟩ := hsent.init
  obtain ⟨-, -, rfl⟩ := init_eq_ok.1 hu
  obtain ⟨workers, hr, w, hw, data, hdata⟩ := hsent
  unfold doPackProgram at hr
  split at hr
  · cases hr
  · rw [hu] at hr
    simp only [Except.ok.injEq] at hr
    subst hr
    obtain ⟨dev, -, rfl⟩ := List.mem_map.1 hw
    rw [worker_no_images (show (unpacked pack).reader.imgCount = 0 from h)] at hdata
    cases hdata

theorem code_eq_zero {option : Opt} (h : option.code = 0) : option = .none := by
  cases option <;> first | rfl | exact absurd h (by decide)

/-! ## The gate -/

/-- Without an option and with a no-CRC request the workers do the same. -/
theorem worker_nocrc (media : Media) (packImage : PackReader) :
    worker media packImage .nocrc = worker media packImage .none := by
  have hloop (dev : UsbDev) (n i : Nat) :
      programImages dev media packImage .nocrc n i = programImages dev media packImage .none n i := by
    induction n generalizing i with
    | zero => rfl
    | succ n ih =>
      simp only [programImages, ih]
      rfl
  funext dev
  simp only [worker, packProgram, hloop]

/-- With a no-CRC request the pack is programmed as its like with the right CRC. -/
theorem doPackProgram_nocrc {devices : List UsbDev} {media : Media} {pack pack' : List Byte}
    (hsame : SameButCrc pack pack') (hcrc : CrcOk pack') :
    doPackProgram devices media pack .nocrc = doPackProgram devices media pack' .none := by
  obtain ⟨hmarker, hdrop⟩ := hsame
  unfold doPackProgram
  split
  · rfl
  by_cases hm : slice pack 0 4 = [0x20#8, 0x54#8, 0x56#8, 0x4e#8]
  · rw [init_eq_ok.2 ⟨hm, fun h => absurd h (by decide), rfl⟩,
      init_eq_ok.2 ⟨hmarker ▸ hm, fun _ => hcrc, rfl⟩]
    simp only [worker_nocrc, reader_of_drop_eq hdrop]
  · rw [UnpackImage.init, if_pos hm, UnpackImage.init, if_pos (hmarker ▸ hm)]

/-- **When the gate is closed.** For every other option than none and no-CRC, the flag that reaches
the reader is nonzero and the CRC is not compared; then only a file that sends nothing at all, for
its marker or for having no image, or one whose CRC is right, keeps to the gate. -/
theorem crcGate_iff (pack : List Byte) (option : Opt) :
    CrcGate pack option ↔ option = .none ∨ option = .nocrc ∨ CrcOk pack ∨
      slice pack 0 4 ≠ [0x20#8, 0x54#8, 0x56#8, 0x4e#8] ∨ totalImageCount pack = 0 := by
  constructor
  · rintro ⟨hgate, -⟩
    by_cases hnone : option = .none
    · exact Or.inl hnone
    by_cases hnocrc : option = .nocrc
    · exact Or.inr (Or.inl hnocrc)
    by_cases hm : slice pack 0 4 = [0x20#8, 0x54#8, 0x56#8, 0x4e#8]
    · by_cases hcnt : totalImageCount pack = 0
      · exact Or.inr (Or.inr (Or.inr (Or.inr hcnt)))
      have hinit : UnpackImage.init pack option.code = .ok (unpacked pack) :=
        init_eq_ok.2 ⟨hm, fun h => absurd (code_eq_zero h) hnone, rfl⟩
      exact Or.inr (Or.inr (Or.inl (hgate hnocrc _ _ (mediaFor_allowed option)
        (sentImage_of_init hinit (by omega)))))
    · exact Or.inr (Or.inr (Or.inr (Or.inl hm)))
  · intro h
    refine ⟨fun hnocrc devices media _ hsent => ?_, fun hnocrc => ?_⟩
    · obtain ⟨u, hu⟩ := hsent.init
      obtain ⟨hm, hcrc, rfl⟩ := init_eq_ok.1 hu
      rcases h with h | h | h | h | h
      · exact hcrc (by rw [h]; rfl)
      · exact absurd h hnocrc
      · exact h
      · exact absurd hm h
      · exact absurd hsent (not_sentImage_of_count h)
    · subst hnocrc
      exact fun devices media pack' hsame hcrc => doPackProgram_nocrc hsame hcrc

/-- A pack of one image whose stored CRC is zero. -/
def zeroCrcPack : List Byte := packHdr 0 1 ++ childBytes ⟨[1#8], 0, 2⟩

/-- With the verify option it is sent. -/
theorem not_crcGate_verify : ¬ CrcGate zeroCrcPack .verify := by
  rintro ⟨hgate, -⟩
  have hinit : UnpackImage.init zeroCrcPack (Opt.code .verify) = .ok (unpacked zeroCrcPack) :=
    init_eq_ok.2 ⟨by decide, fun h => absurd h (by decide), rfl⟩
  have hcrc := hgate (by decide) _ _ (mediaFor_allowed .verify)
    (sentImage_of_init hinit (by decide))
  exact absurd hcrc (by decide +kernel)

end NumakerMA35D1.NuWriter

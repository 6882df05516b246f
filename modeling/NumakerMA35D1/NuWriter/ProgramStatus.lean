import NumakerMA35D1.NuWriter.Plan
import NumakerMA35D1.NuWriter.RoundTrip

/-!
# What the programs report

The entry points that program a pack into a device and read a device back, with what they return. A
program reports rightly when it returns, and returns 0 if and only if no operation under it failed and
all the data of the pack was written, or all of the device was read. The program of a block device does
when it writes every sector of the children; those of a NAND flash have no path on which they return 0
(`statusRight_iff`).
-/

namespace NumakerMA35D1.NuWriter

open Embedded

/-- The device of a program. Its geometry is `none` where the device does not give it. Reference:
`nuwriter.c:743 nuwriter_pack_program`. -/
inductive Target
  | block (geo : Option (BitVec 32)) (block_buffer : List Byte)
  | mtd (device : MtdNandDevice)

/-- What a program meets: whether the list of the children is allocated, whether the device opens, the
device, and which operations on it fail. -/
structure Env where
  listMalloc : Bool
  opens : Bool
  target : Target
  fails : Nat → Bool

/-- A program that returned: its value, the operations done, and whether something under it failed. -/
structure Finished where
  ret : Int
  log : List StorageOp
  failed : Bool
deriving DecidableEq

/-- The end of a program whose status is `ret` where no `goto` leaves it; `none` where it does not
return. -/
def finish (ret : Int) : Except (Stop StorageOp) (List StorageOp) → Option Finished
  | .ok log => some ⟨ret, log, false⟩
  | .error (.failed log) => some ⟨-1, log, true⟩
  | .error (.refused log) => some ⟨-1, log, false⟩
  | .error .endless => none

/-- The program of the device. The one of a NAND flash leaves its `ret` at −1. Reference:
`nuwriter.c:743 nuwriter_pack_program`. -/
def programTarget (env : Env) (ppsChildList : List PackChild) : Option Finished :=
  match env.target with
  | .block geo block_buffer =>
    finish 0 (nuwriterPackProgramBlock env.fails geo block_buffer ppsChildList)
  | .mtd device => finish (-1) (nuwriterPackProgramMtd env.fails device ppsChildList)

/-- Reference: `nuwriter.c:690 nuwriter_pack_program`. -/
def nuwriterPackProgram (b : PackBuf) (u64FileLength : BitVec 64) (env : Env) :
    Except Fault (Option Finished) := do
  match ← packProgramVisit b u64FileLength env.listMalloc with
  | none => return some ⟨-1, [], !env.listMalloc⟩
  | some ppsChildList =>
    if env.opens then return programTarget env ppsChildList
    else return some ⟨-1, [], true⟩

/-- Reference: `nuwriter.c:765 nuwriter_readback`. -/
def nuwriterReadback (hasFile : Bool) (env : Env) : Option Finished :=
  if env.opens then
    match env.target with
    | .mtd device => finish (-1) (nuwriterReadbackMtd env.fails hasFile device)
    | .block .. => some ⟨-1, [], false⟩
  else some ⟨-1, [], true⟩

/-! ## What a status is to say -/

/-- A pack that the target accepts, with its children inside. -/
structure PackBuf.Accepted (b : PackBuf) : Prop where
  hdr_le : packHdrSize ≤ b.data.length
  hdr_ok : packHdrOk b (BitVec.ofNat 64 b.data.length) = .ok true
  inside : ChildrenInside b.data (totalImageCount b.data) packHdrSize

/-- The children of a pack. -/
def PackBuf.children (b : PackBuf) : List PackChild :=
  (childOffsets b.data (totalImageCount b.data) packHdrSize).map (childRecord b.data)

/-- The size of a transfer to a device. -/
def Target.unit : Target → Option Nat
  | .block geo _ => geo.bind fun bytes_per_sector =>
    if bytes_per_sector = 0 then none else some bytes_per_sector.toNat
  | .mtd device => some device.pageSize

/-- The data an operation writes to the device. -/
def StorageOp.written : StorageOp → Option (List Byte)
  | .writeSector _ buffer => some buffer
  | .writePage _ data => some data
  | _ => none

/-- All the data of the children was written: the writes begin with their pieces, one with each. -/
def Programmed (target : Target) (cs : List PackChild) (log : List StorageOp) : Prop :=
  ∃ unit, target.unit = some unit ∧
    List.Forall₂ (· <+: ·) (cs.reverse.flatMap (PackChild.pieces unit))
      (log.filterMap StorageOp.written)

/-- All pages of the device that are not in bad blocks were read, and written to the file if there is
one. -/
def ReadBack (target : Target) (hasFile : Bool) (log : List StorageOp) : Prop :=
  ∃ device, target = .mtd device ∧ ∀ i < device.block_total.toNat,
    device.bad (device.block_start + BitVec.ofNat 32 i) = false → ∀ p < device.pagesPerBlock,
      let page := (device.block_start + BitVec.ofNat 32 i) * device.pages_per_block + BitVec.ofNat 32 p
      .readPage page ∈ log ∧ (hasFile = true → .writeFile page ∈ log)

/-- A program returns, and returns 0 if and only if nothing failed and it did all of its work. -/
def StatusRight (r : Option Finished) (Complete : List StorageOp → Prop) : Prop :=
  ∃ r', r = some r' ∧ (r'.ret = 0 ↔ r'.failed = false ∧ Complete r'.log)

/-- The program of a pack reports rightly. -/
def ProgramRight (b : PackBuf) (env : Env) : Prop :=
  ∃ r, nuwriterPackProgram b (BitVec.ofNat 64 b.data.length) env = .ok r ∧
    StatusRight r (Programmed env.target b.children)

/-- A read-back reports rightly. -/
def ReadbackRight (hasFile : Bool) (env : Env) : Prop :=
  StatusRight (nuwriterReadback hasFile env) (ReadBack env.target hasFile)

/-! ## When the programs report rightly -/

/-- The operations on a NAND flash for a child: its blocks erased, its pages written. -/
def MtdNandDevice.numOps (device : MtdNandDevice) (c : PackChild) : Nat :=
  (device.totalBlock c).toNat +
    min ((device.totalBlock c).toNat * device.pagesPerBlock) (c.numPieces device.pageSize)

/-- The program of a NAND flash finds the blocks it looks for. -/
def MtdNandDevice.Ends (device : MtdNandDevice) (cs : List PackChild) : Prop :=
  (∃ block, device.bad block = false) ∨ ∀ c ∈ device.ready cs, device.totalBlock c = 0

/-- The children that are not reached. -/
def MtdNandDevice.unready (device : MtdNandDevice) (cs : List PackChild) : List PackChild :=
  cs.reverse.dropWhile device.aligned

/-- The program of a block device reports rightly: it cannot start, it counts the sectors of every child
rightly, or a write fails. -/
def BlockReports (fails : Nat → Bool) (geo : Option (BitVec 32)) (cs : List PackChild) : Prop :=
  ∀ bytes_per_sector ∈ geo, bytes_per_sector ≠ 0 →
    (∀ c ∈ cs, (totalSectors bytes_per_sector c).toNat = c.numPieces bytes_per_sector.toNat) ∨
      ∃ k < (cs.map fun c => (totalSectors bytes_per_sector c).toNat).sum, fails k = true

/-- The program of a NAND flash reports rightly: it ends, and either it leaves data out, behind an
address that is not at the start of a block or of a length near the end of the words, or an operation
fails. -/
def MtdReports (fails : Nat → Bool) (device : MtdNandDevice) (cs : List PackChild) : Prop :=
  device.Ends cs ∧
    ((∃ c ∈ device.unready cs, c.len ≠ 0) ∨
      (∃ c ∈ device.ready cs, 2 ^ 32 ≤ c.len + (device.eraseSize - 1)) ∨
      ∃ k < ((device.ready cs).map device.numOps).sum, fails k = true)

/-- When the program of a pack reports rightly. -/
def ProgramReports (env : Env) (cs : List PackChild) : Prop :=
  env.listMalloc = false ∨ env.opens = false ∨
    match env.target with
    | .block geo _ => BlockReports env.fails geo cs
    | .mtd device => MtdReports env.fails device cs

/-- When a read-back reports rightly: it cannot start, or it ends and an operation fails. -/
def ReadbackReports (hasFile : Bool) (env : Env) : Prop :=
  env.opens = false ∨
    match env.target with
    | .block .. => True
    | .mtd device =>
      ((∃ block, device.bad block = false) ∨ device.block_total = 0) ∧
        ∃ k < device.block_total.toNat * (device.pagesPerBlock * if hasFile then 2 else 1),
          env.fails k = true

/-! ## The end of a program -/

section

variable {ret ret' : Int} {fails : Nat → Bool} {ops : List StorageOp}
  {tail : List StorageOp → Except (Stop StorageOp) (List StorageOp)} {Complete : List StorageOp → Prop}

theorem not_statusRight_endless : ¬ StatusRight (finish ret (.error .endless)) Complete := by
  rintro ⟨r, hr, -⟩
  cases hr

/-- A program that could not start says so. -/
theorem statusRight_failed {log : List StorageOp} :
    StatusRight (some ⟨-1, log, true⟩) Complete :=
  ⟨_, rfl, ⟨(fun h => nomatch h), (fun h => nomatch h.1)⟩⟩

/-- A program that performs operations and then ends with a status, reports rightly if that says whether
they were all of its work, or one of them fails. -/
theorem statusRight_performAll (htail : ∀ log, finish ret (tail log) = some ⟨ret', log, false⟩) :
    StatusRight (finish ret (performAll fails [] ops >>= tail)) Complete ↔
      (ret' = 0 ↔ Complete ops) ∨ ∃ k < ops.length, fails k = true := by
  cases h : performAll fails [] ops with
  | error stop =>
    obtain ⟨k, hk, hfails, rfl⟩ := performAll_eq_error h
    rw [List.length_nil, Nat.zero_add] at hfails
    exact ⟨fun _ => .inr ⟨k, hk, hfails⟩, fun _ => statusRight_failed⟩
  | ok log =>
    obtain ⟨rfl, hok⟩ := performAll_eq_ok.1 h
    rw [ok_bind, htail]
    constructor
    · rintro ⟨r, hr, hret⟩
      obtain rfl := Option.some.inj hr
      exact .inl (hret.trans (and_iff_right rfl))
    · rintro (hret | ⟨k, hk, hfails⟩)
      · exact ⟨_, rfl, hret.trans (and_iff_right rfl).symm⟩
      · have hk' := hok k hk
        rw [List.length_nil, Nat.zero_add, hfails] at hk'
        cases hk'

/-- A program that never returns 0 reports rightly if it does not do all of its work. -/
theorem statusRight_never (htail : ∀ log, finish ret (tail log) = some ⟨-1, log, false⟩) :
    StatusRight (finish ret (performAll fails [] ops >>= tail)) Complete ↔
      ¬ Complete ops ∨ ∃ k < ops.length, fails k = true := by
  rw [statusRight_performAll htail, iff_false_left (show ¬ (-1 : Int) = 0 by decide)]

end

/-- Sums of terms one below the other agree if and only if the terms do. -/
theorem sum_eq_sum_iff {α : Type} {f g : α → Nat} {l : List α} (hle : ∀ a ∈ l, f a ≤ g a) :
    (l.map f).sum = (l.map g).sum ↔ ∀ a ∈ l, f a = g a := by
  induction l with
  | nil => exact ⟨fun _ a ha => absurd ha List.not_mem_nil, fun _ => rfl⟩
  | cons a l ih =>
    obtain ⟨ha, hl⟩ := List.forall_mem_cons.1 hle
    have hsum : (l.map f).sum ≤ (l.map g).sum := List.sum_le_sum hl
    rw [List.map_cons, List.map_cons, List.sum_cons, List.sum_cons, List.forall_mem_cons, ← ih hl]
    omega

/-! ## Block devices -/

section

variable {bytes_per_sector : BitVec 32} {buffer : List Byte} {ps : List (BitVec 32 × List Byte)}
  {cs : List PackChild} {fails : Nat → Bool}

/-- A sector is written with its piece in front. -/
theorem sectorWrites_written :
    List.Forall₂ (· <+: ·) (ps.map Prod.snd) ((sectorWrites buffer ps).filterMap StorageOp.written) := by
  induction ps generalizing buffer with
  | nil => exact .nil
  | cons p ps ih => exact .cons (List.prefix_append _ _) ih

theorem packPieces_length :
    (packPieces bytes_per_sector cs).length =
      (cs.map fun c => (totalSectors bytes_per_sector c).toNat).sum := by
  rw [packPieces, List.length_flatMap, List.map_reverse, List.sum_reverse]
  simp only [sectorPieces, List.length_map, List.length_range']

theorem pieces_length {unit : Nat} :
    (cs.reverse.flatMap (PackChild.pieces unit)).length = (cs.map (PackChild.numPieces unit)).sum := by
  rw [List.length_flatMap, List.map_reverse, List.sum_reverse]
  simp only [PackChild.pieces, List.length_map, List.length_range]

/-- All the data is written if and only if the sectors are counted rightly. -/
theorem blockOps_programmed (h : ∀ c ∈ cs, c.Loaded) (hne : bytes_per_sector ≠ 0) :
    Programmed (.block (some bytes_per_sector) buffer) cs (blockOps bytes_per_sector buffer cs) ↔
      ∀ c ∈ cs, (totalSectors bytes_per_sector c).toNat = c.numPieces bytes_per_sector.toNat := by
  have hpos : 0 < bytes_per_sector.toNat :=
    Nat.pos_of_ne_zero fun hzero => hne (BitVec.eq_of_toNat_eq hzero)
  have hunit : (Target.block (some bytes_per_sector) buffer).unit = some bytes_per_sector.toNat :=
    if_neg hne
  have hwritten := @sectorWrites_written buffer (packPieces bytes_per_sector cs)
  rw [← sum_eq_sum_iff fun c hc => totalSectors_le (h c hc) hpos]
  constructor
  · rintro ⟨unit, hu, hall⟩
    obtain rfl := Option.some.inj (hunit.symm.trans hu)
    have hlen := hall.length_eq.trans hwritten.length_eq.symm
    rw [pieces_length, List.length_map, packPieces_length] at hlen
    exact hlen.symm
  · intro hsum
    have htotal := (sum_eq_sum_iff fun c hc => totalSectors_le (h c hc) hpos).1 hsum
    refine ⟨_, hunit, ?_⟩
    have hpieces : (packPieces bytes_per_sector cs).map Prod.snd =
        cs.reverse.flatMap (PackChild.pieces bytes_per_sector.toNat) := by
      rw [packPieces, List.map_flatMap]
      refine List.flatMap_congr fun c hc => ?_
      rw [sectorPieces, List.map_map, htotal c (List.mem_reverse.1 hc), PackChild.pieces,
        List.range_eq_range']
      rfl
    rw [← hpieces]
    exact hwritten

/-- The status of the program of a block device. -/
theorem blockStatus_iff (h : ∀ c ∈ cs, c.Loaded) {geo : Option (BitVec 32)} :
    StatusRight (finish 0 (nuwriterPackProgramBlock fails geo buffer cs))
        (Programmed (.block geo buffer) cs) ↔ BlockReports fails geo cs := by
  cases geo with
  | none => exact ⟨(fun _ b hb => nomatch hb), fun _ => statusRight_failed⟩
  | some bytes_per_sector =>
    by_cases hzero : bytes_per_sector = 0
    · subst hzero
      refine ⟨fun _ b hb hne => absurd (Option.some.inj hb).symm hne, fun _ => ⟨_, rfl, ?_⟩⟩
      refine ⟨fun hret => absurd hret (by decide), ?_⟩
      rintro ⟨-, unit, hunit, -⟩
      cases hunit
    · have hrun := @statusRight_performAll 0 0 fails (blockOps bytes_per_sector buffer cs) pure
        (Programmed (.block (some bytes_per_sector) buffer) cs) fun log => rfl
      rw [bind_pure, blockOps_programmed h hzero, blockOps, sectorWrites_length,
        packPieces_length] at hrun
      rw [nuwriterPackProgramBlock_eq h hzero, blockOps, hrun]
      refine ⟨fun hor b hb hne => ?_, fun hall => ?_⟩
      · obtain rfl := Option.some.inj hb
        exact hor.imp_left fun hiff => hiff.1 rfl
      · exact (hall _ rfl hzero).imp_left fun hcount => ⟨fun _ => hcount, fun _ => rfl⟩

end

/-! ## NAND flashes -/

section

variable {device : MtdNandDevice} {c : PackChild} {cs : List PackChild} {fails : Nat → Bool}
  {block off : BitVec 32} {j p n : Nat} {hasFile : Bool}

theorem pageWrites_written :
    (device.pageWrites c block j p n).filterMap StorageOp.written =
      (List.range' (j * device.pagesPerBlock + p) n).map (c.piece device.pageSize) := by
  rw [MtdNandDevice.pageWrites, List.filterMap_map, ← List.filterMap_eq_map,
    ← List.map_add_range', List.filterMap_map]
  rfl

/-- The pieces that are written in blocks. -/
theorem blockWrites_written :
    (device.blockWrites c n j off).filterMap StorageOp.written =
      (List.range' (j * device.pagesPerBlock) (min (n * device.pagesPerBlock)
        (c.numPieces device.pageSize - j * device.pagesPerBlock))).map (c.piece device.pageSize) := by
  induction n generalizing j off with
  | zero => rw [Nat.zero_mul, Nat.zero_min]; rfl
  | succ n ih =>
    have hfirst : (StorageOp.eraseBlock (device.next off) ::
        device.pageWrites c (device.next off) j 0 (device.blockPages c j)).filterMap
          StorageOp.written =
        (List.range' (j * device.pagesPerBlock) (device.blockPages c j)).map
          (c.piece device.pageSize) := pageWrites_written
    rw [MtdNandDevice.blockWrites, List.filterMap_append, hfirst, ih, ← List.map_append,
      MtdNandDevice.blockPages, Nat.succ_mul n, Nat.succ_mul j]
    by_cases hfull : device.pagesPerBlock ≤ c.numPieces device.pageSize - j * device.pagesPerBlock
    · rw [Nat.min_eq_left hfull, List.range'_append_1]
      congr 2
      omega
    · -- the data ends in this block: no pieces follow
      have hnone : c.numPieces device.pageSize -
          (j * device.pagesPerBlock + device.pagesPerBlock) = 0 := by
        omega
      rw [Nat.min_eq_right (Nat.le_of_lt (Nat.lt_of_not_le hfull)), hnone, Nat.min_zero, List.range'_zero, List.append_nil]
      congr 2
      omega

theorem blockWrites_length :
    (device.blockWrites c n j off).length =
      n + ((device.blockWrites c n j off).filterMap StorageOp.written).length := by
  induction n generalizing j off with
  | zero => rfl
  | succ n ih =>
    have hpages : (device.pageWrites c (device.next off) j 0 (device.blockPages c j)).length =
        ((device.pageWrites c (device.next off) j 0 (device.blockPages c j)).filterMap
          StorageOp.written).length := by
      rw [pageWrites_written, List.length_map, List.length_range', MtdNandDevice.pageWrites,
        List.length_map, List.length_range']
    rw [MtdNandDevice.blockWrites, List.cons_append, List.length_cons, List.length_append, ih, hpages,
      List.filterMap_cons_none rfl, List.filterMap_append, List.length_append]
    omega

theorem childOps_length : (device.childOps c).length = device.numOps c := by
  rw [MtdNandDevice.childOps, blockWrites_length, blockWrites_written, List.length_map,
    List.length_range', Nat.zero_mul, Nat.sub_zero, MtdNandDevice.numOps]

/-- All pieces of a child are written, or none where its number of blocks wraps. -/
theorem childOps_written (h : c.Loaded) :
    (device.childOps c).filterMap StorageOp.written =
      if c.len + (device.eraseSize - 1) < 2 ^ 32 then c.pieces device.pageSize else [] := by
  rw [MtdNandDevice.childOps, blockWrites_written, device.totalBlock_toNat h, Nat.zero_mul,
    Nat.sub_zero]
  split
  · next hlt =>
    have hpages := device.numPieces_sub c (c.numPieces device.eraseSize)
    have hover := mt (PackChild.mul_lt_len device.eraseSize_pos).2
      (Nat.lt_irrefl (c.numPieces device.eraseSize))
    rw [Nat.sub_eq_zero_of_le (Nat.not_lt.1 hover), Nat.zero_add,
      Nat.div_eq_of_lt (Nat.sub_lt device.pageSize_pos Nat.one_pos)] at hpages
    rw [Nat.min_eq_right (Nat.sub_eq_zero_iff_le.1 hpages), PackChild.pieces, List.range_eq_range']
  · next hge => rw [Nat.zero_mul, Nat.zero_min]; rfl

theorem numPieces_eq_zero : c.numPieces device.pageSize = 0 ↔ c.len = 0 := by
  have hpos := device.pageSize_pos
  have h0 := @PackChild.mul_lt_len c device.pageSize 0 hpos
  omega

/-- The program of a NAND flash that ends performs its operations. -/
theorem nuwriterPackProgramMtd_of_ends (h : ∀ c ∈ cs, c.Loaded) (hends : device.Ends cs) :
    nuwriterPackProgramMtd fails device cs =
      performAll fails [] ((device.ready cs).flatMap device.childOps) >>= fun log =>
        if cs.all device.aligned then .ok log else .error (.refused log) := by
  rcases hends with hgood | hidle
  · exact nuwriterPackProgramMtd_eq h hgood
  · have hnone : (device.ready cs).flatMap device.childOps = [] := by
      rw [List.flatMap_eq_nil_iff]
      intro c hc
      rw [MtdNandDevice.childOps, hidle c hc]
      rfl
    rw [nuwriterPackProgramMtd_idle hidle, hnone, performAll_nil, ok_bind]

/-- All the data is written if and only if every child with data is reached and no number of blocks
wraps. -/
theorem childOps_programmed (h : ∀ c ∈ cs, c.Loaded) :
    Programmed (.mtd device) cs ((device.ready cs).flatMap device.childOps) ↔
      (∀ c ∈ device.unready cs, c.len = 0) ∧
        ∀ c ∈ device.ready cs, c.len + (device.eraseSize - 1) < 2 ^ 32 := by
  have hsplit : device.ready cs ++ device.unready cs = cs.reverse := List.takeWhile_append_dropWhile
  have hready : ∀ c ∈ device.ready cs, c.Loaded := fun c hc =>
    h c (List.mem_reverse.1 (hsplit ▸ List.mem_append_left _ hc))
  have hwritten : ((device.ready cs).flatMap device.childOps).filterMap StorageOp.written =
      (device.ready cs).flatMap fun c =>
        if c.len + (device.eraseSize - 1) < 2 ^ 32 then c.pieces device.pageSize else [] := by
    rw [List.filterMap_flatMap]
    exact List.flatMap_congr fun c hc => childOps_written (hready c hc)
  constructor
  · rintro ⟨unit, hunit, hall⟩
    obtain rfl := Option.some.inj hunit
    have hlen := hall.length_eq
    rw [hwritten, ← hsplit, List.flatMap_append, List.length_append, List.length_flatMap,
      List.length_flatMap, List.length_flatMap] at hlen
    have hle : ∀ c ∈ device.ready cs, (if c.len + (device.eraseSize - 1) < 2 ^ 32 then
        c.pieces device.pageSize else []).length ≤ (c.pieces device.pageSize).length := by
      intro c _
      split
      · exact Nat.le_refl _
      · exact Nat.zero_le _
    have hsum := List.sum_le_sum hle
    constructor
    · intro c hc
      have hterm : (c.pieces device.pageSize).length ≤
          ((device.unready cs).map fun c => (c.pieces device.pageSize).length).sum :=
        List.single_le_sum (fun _ _ => Nat.zero_le _) _ (List.mem_map_of_mem hc)
      rw [PackChild.pieces, List.length_map, List.length_range] at hterm
      exact (@numPieces_eq_zero device c).1 (by omega)
    · intro c hc
      have heq := (sum_eq_sum_iff hle).1 (by omega) c hc
      by_contra hge
      rw [if_neg hge, PackChild.pieces, List.length_map, List.length_range, List.length_nil] at heq
      have hzero := numPieces_eq_zero.1 heq.symm
      have herase := device.erase_lt
      have hpos := device.eraseSize_pos
      change device.eraseSize < 2 ^ 32 at herase
      omega
  · rintro ⟨hrest, hfit⟩
    refine ⟨device.pageSize, rfl, ?_⟩
    have hnone : (device.unready cs).flatMap (PackChild.pieces device.pageSize) = [] := by
      rw [List.flatMap_eq_nil_iff]
      intro c hc
      rw [PackChild.pieces, numPieces_eq_zero.2 (hrest c hc)]
      rfl
    have hall : ((device.ready cs).flatMap device.childOps).filterMap StorageOp.written =
        cs.reverse.flatMap (PackChild.pieces device.pageSize) := by
      rw [hwritten, ← hsplit, List.flatMap_append, hnone, List.append_nil]
      exact List.flatMap_congr fun c hc => if_pos (hfit c hc)
    rw [hall]
    exact List.forall₂_same.2 fun _ _ => List.prefix_rfl

/-- The status of the program of a NAND flash. -/
theorem programOnMtd_iff (h : ∀ c ∈ cs, c.Loaded) :
    StatusRight (finish (-1) (nuwriterPackProgramMtd fails device cs)) (Programmed (.mtd device) cs) ↔
      MtdReports fails device cs := by
  by_cases hends : device.Ends cs
  · rw [nuwriterPackProgramMtd_of_ends h hends, statusRight_never fun log => by
      cases cs.all device.aligned <;> rfl, childOps_programmed h, MtdReports, and_iff_right hends,
      List.length_flatMap, List.map_congr_left fun c _ => childOps_length, not_and_or, or_assoc]
    push Not
    rfl
  · have hends' := not_or.1 hends
    have hrun : nuwriterPackProgramMtd fails device cs = .error .endless := by
      apply nuwriterPackProgramMtd_endless
      · intro block
        by_contra hgood
        exact hends'.1 ⟨block, Bool.eq_false_of_not_eq_true hgood⟩
      · have hblock := hends'.2
        push Not at hblock
        exact hblock
    rw [hrun]
    exact ⟨fun hstatus => absurd hstatus not_statusRight_endless, fun hr => absurd hr.1 hends⟩

/-! ## Reading back -/

theorem blockReads_length :
    (device.blockReads hasFile n off).length =
      n * (device.pagesPerBlock * if hasFile then 2 else 1) := by
  have hpages : ∀ block n, (device.pageReads hasFile block 0 n).length =
      n * if hasFile then 2 else 1 := by
    intro block n
    rw [MtdNandDevice.pageReads, List.length_flatMap]
    have hone : ∀ p, (StorageOp.readPage (block * device.pages_per_block + BitVec.ofNat 32 p) ::
        if hasFile then [.writeFile (block * device.pages_per_block + BitVec.ofNat 32 p)]
        else []).length = if hasFile then 2 else 1 := by
      intro p
      cases hasFile <;> rfl
    rw [List.map_congr_left fun p _ => hone p, List.map_const', List.sum_replicate,
      List.length_range', smul_eq_mul]
  induction n generalizing off with
  | zero => rw [Nat.zero_mul]; rfl
  | succ n ih => rw [MtdNandDevice.blockReads, List.length_append, ih, hpages, Nat.succ_mul, Nat.add_comm]

/-- The blocks that are read are all those that are not bad. -/
theorem mem_blockReads (hgood : ∃ block, device.bad block = false) {i : Nat} (hi : i < n)
    (hbad : device.bad (off + BitVec.ofNat 32 i) = false) {op : StorageOp}
    (hop : op ∈ device.pageReads hasFile (off + BitVec.ofNat 32 i) 0 device.pagesPerBlock) :
    op ∈ device.blockReads hasFile n off := by
  induction n generalizing off i with
  | zero => exact absurd hi (Nat.not_lt_zero i)
  | succ n ih =>
    obtain ⟨k, -, hnext, -, hskipped⟩ := device.next_spec hgood off
    have hle : k ≤ i := by
      by_contra hlt
      have hskip := hskipped i (Nat.lt_of_not_le hlt)
      rw [hbad] at hskip
      cases hskip
    rw [MtdNandDevice.blockReads, List.mem_append]
    rcases Nat.eq_or_lt_of_le hle with rfl | hlt
    · rw [hnext]
      exact .inl hop
    · -- the block lies behind the one found
      obtain ⟨i', rfl⟩ := Nat.exists_eq_add_of_lt hlt
      have hoff : off + BitVec.ofNat 32 (k + i' + 1) =
          device.next off + 1 + BitVec.ofNat 32 i' := by
        rw [hnext, off_step, BitVec.add_assoc, BitVec.ofNat_add_ofNat, Nat.add_assoc]
      rw [hoff] at hbad hop
      exact .inr (ih (by omega) hbad hop)

/-- The operations of a read-back read all of the device. -/
theorem readbackOps_readBack :
    ReadBack (.mtd device) hasFile (readbackOps device hasFile) := by
  refine ⟨device, rfl, fun i hi hbad p hp => ?_⟩
  have hgood : ∃ block, device.bad block = false := ⟨_, hbad⟩
  have hmem : ∀ op, op ∈ (StorageOp.readPage ((device.block_start + BitVec.ofNat 32 i) *
        device.pages_per_block + BitVec.ofNat 32 p) ::
        if hasFile then [.writeFile ((device.block_start + BitVec.ofNat 32 i) *
          device.pages_per_block + BitVec.ofNat 32 p)] else []) →
      op ∈ readbackOps device hasFile := by
    intro op hop
    refine mem_blockReads hgood hi hbad (List.mem_flatMap.2 ⟨p, ?_, hop⟩)
    rw [List.mem_range'_1]
    omega
  refine ⟨hmem _ (List.mem_cons_self ..), fun hfile => hmem _ ?_⟩
  rw [if_pos hfile]
  exact List.mem_cons_of_mem _ (List.mem_singleton.2 rfl)

/-- The status of a read-back. -/
theorem readbackStatus_iff {env : Env} : ReadbackRight hasFile env ↔ ReadbackReports hasFile env := by
  rw [ReadbackRight, nuwriterReadback, ReadbackReports]
  by_cases hopens : env.opens = true
  · rw [if_pos hopens, hopens, or_iff_right (by decide)]
    cases env.target with
    | block geo buffer =>
      refine ⟨fun _ => trivial, fun _ => ⟨_, rfl, (fun h => nomatch h), ?_⟩⟩
      rintro ⟨-, device, htarget, -⟩
      cases htarget
    | mtd device =>
      dsimp only
      by_cases hends : (∃ block, device.bad block = false) ∨ device.block_total = 0
      · have hrun : nuwriterReadbackMtd env.fails hasFile device =
            performAll env.fails [] (readbackOps device hasFile) >>= pure := by
          rw [bind_pure]
          rcases hends with hgood | hzero
          · exact nuwriterReadbackMtd_eq hgood
          · rw [nuwriterReadbackMtd, readbackOps, hzero]
            rfl
        rw [hrun, statusRight_never fun log => rfl,
          or_iff_right (not_not.2 readbackOps_readBack), and_iff_right hends, readbackOps,
          blockReads_length]
      · have hends' := not_or.1 hends
        rw [nuwriterReadbackMtd_endless (fun block => by
          by_contra hgood
          exact hends'.1 ⟨block, Bool.eq_false_of_not_eq_true hgood⟩) hends'.2]
        exact ⟨fun hstatus => absurd hstatus not_statusRight_endless, fun hr => absurd hr.1 hends⟩
  · rw [if_neg hopens]
    exact ⟨fun _ => .inl (Bool.eq_false_of_not_eq_true hopens), fun _ => statusRight_failed⟩

end

/-! ## The entry points -/

section

variable {b : PackBuf} {env : Env}

/-- The children of an accepted pack lie in memory. -/
theorem PackBuf.Accepted.loaded (h : b.Accepted) : ∀ c ∈ b.children, c.Loaded := by
  intro c hc
  obtain ⟨o, ho, rfl⟩ := List.mem_map.1 hc
  have hin := h.inside.of_mem ho
  have hlt := b.length_lt
  have hlen : (childRecord b.data o).len = imageLength b.data o := by
    rw [PackChild.len, childRecord, BitVec.toNat_ofNat, Nat.mod_eq_of_lt (imageLength_lt o)]
  refine ⟨?_, ?_⟩
  · rw [hlen]
    change _ ≤ (b.data.drop (o + packChildSize)).length
    rw [List.length_drop]
    omega
  · change (b.data.drop (o + packChildSize)).length < 2 ^ 32
    rw [List.length_drop]
    omega

/-- The target visits the children of an accepted pack. -/
theorem nuwriterPackProgram_eq (h : b.Accepted) :
    nuwriterPackProgram b (BitVec.ofNat 64 b.data.length) env = .ok (
      if env.listMalloc = true ∧ env.opens = true then programTarget env b.children
      else some ⟨-1, [], true⟩) := by
  have hne : BitVec.ofNat 64 b.data.length ≠ 0#64 := by
    intro h0
    have hzero := congrArg BitVec.toNat h0
    have hhdr : 16 ≤ b.data.length := h.hdr_le
    have hlt := b.length_lt
    rw [BitVec.toNat_ofNat, BitVec.toNat_ofNat] at hzero
    omega
  have hhdr : 16 ≤ b.data.length := h.hdr_le
  rw [nuwriterPackProgram]
  cases hlist : env.listMalloc with
  | true =>
    rw [packProgramVisit_eq hne h.hdr_ok h.hdr_le h.inside, ok_bind]
    cases env.opens <;> rfl
  | false =>
    rw [packProgramVisit, packProgramChildren, if_neg hne, h.hdr_ok]
    simp only [ok_bind, Bool.not_true, Bool.false_eq_true, if_false]
    rw [readU32_field (by omega)]
    rfl

/-- The status of the program of a pack. -/
theorem programStatus_iff (h : b.Accepted) : ProgramRight b env ↔ ProgramReports env b.children := by
  have hrun : ProgramRight b env ↔ StatusRight
      (if env.listMalloc = true ∧ env.opens = true then programTarget env b.children
        else some ⟨-1, [], true⟩) (Programmed env.target b.children) := by
    rw [ProgramRight, nuwriterPackProgram_eq h]
    exact ⟨fun ⟨r, hr, hstatus⟩ => Except.ok.inj hr ▸ hstatus, fun hstatus => ⟨_, rfl, hstatus⟩⟩
  rw [hrun, ProgramReports]
  by_cases hstart : env.listMalloc = true ∧ env.opens = true
  · rw [if_pos hstart, hstart.1, hstart.2, or_iff_right (by decide), or_iff_right (by decide),
      programTarget]
    cases env.target with
    | block geo buffer => exact blockStatus_iff h.loaded
    | mtd device => exact programOnMtd_iff h.loaded
  · rw [if_neg hstart]
    refine ⟨fun _ => ?_, fun _ => statusRight_failed⟩
    rcases not_and_or.1 hstart with hlist | hopens
    · exact .inl (Bool.eq_false_of_not_eq_true hlist)
    · exact .inr (.inl (Bool.eq_false_of_not_eq_true hopens))

end

theorem twoImagesBuf_accepted : twoImagesBuf.Accepted := by
  have hp : doPack twoImages = some twoImagesPack := by decide +kernel
  have hfile : PackFile twoImages twoImagesBuf.data := PackFile.of_doPack hp
  exact ⟨hfile.hdr_le, hfile.packHdrOk, hfile.count ▸ hfile.inside⟩

/-- A NAND flash of 1024 blocks without a bad one. -/
def flashDevice : MtdNandDevice where
  page_size := 2048
  pages_per_block := 64
  block_total := 1024
  block_start := 0
  bad _ := false
  page_pow := ⟨11, by decide⟩
  pages_pow := ⟨6, by decide⟩
  erase_lt := by decide

/-- Nothing fails on the way to it. -/
def flashEnv : Env := ⟨true, true, .mtd flashDevice, fun _ => false⟩

end NumakerMA35D1.NuWriter

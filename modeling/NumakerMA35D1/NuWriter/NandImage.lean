import NumakerMA35D1.Lib.Align
import NumakerMA35D1.NuWriter.BlockImage

/-!
# What a pack leaves on a NAND flash

A flash is its pages: a block is erased to ones, and writing a page can only clear bits. A child is placed
on the good blocks from its flash address upward, as many as it needs (`placement`), and is read back from
there. `nandRight_iff` says for which addresses and lengths a pack is programmed right whatever its data: those
whose placements do not meet, as a child behind bad blocks may slide into the next.
-/

namespace NumakerMA35D1.NuWriter

open Embedded

/-! ## Pages -/

/-- A page that is written: bits are only cleared, and what is not given stays. -/
def programmed (old data : List Byte) : List Byte :=
  List.zipWith (fun d o => d &&& o) data old ++ old.drop data.length

/-- The pages of a flash after one operation. -/
def MtdNandDevice.step (device : MtdNandDevice) (dev : Nat → List Byte) : StorageOp → Nat → List Byte
  | .eraseBlock block => fun page =>
    if page / device.pagesPerBlock = block.toNat then List.replicate device.pageSize 0xff else dev page
  | .writePage page data => Function.update dev page.toNat (programmed (dev page.toNat) data)
  | _ => dev

/-- The pages of a flash after operations. -/
def MtdNandDevice.after (device : MtdNandDevice) (dev : Nat → List Byte) (ops : List StorageOp) :
    Nat → List Byte :=
  ops.foldl device.step dev

/-- The block that an operation erases or writes in. -/
def MtdNandDevice.blockOf (device : MtdNandDevice) : StorageOp → Option Nat
  | .eraseBlock block => some block.toNat
  | .writePage page _ => some (page.toNat / device.pagesPerBlock)
  | _ => none

/-! ## Placements -/

/-- The block behind the last. -/
def MtdNandDevice.endBlock (device : MtdNandDevice) : Nat :=
  device.block_start.toNat + device.block_total.toNat

/-- The good blocks from one upward. -/
def MtdNandDevice.goods (device : MtdNandDevice) (lo : Nat) : List Nat :=
  (List.range' lo (device.endBlock - lo)).filter fun b => !device.bad (BitVec.ofNat 32 b)

/-- The blocks of a child: the good ones from its flash address upward. -/
def MtdNandDevice.placement (device : MtdNandDevice) (c : PackChild) : List Nat :=
  (device.goods (c.start / device.eraseSize)).take (c.numPieces device.eraseSize)

/-- A byte of what is read from the good blocks upward. -/
def MtdNandDevice.readUp (device : MtdNandDevice) (dev : Nat → List Byte) (lo i : Nat) : Option Byte := do
  let b ← (device.goods lo)[i / device.eraseSize]?
  (dev (b * device.pagesPerBlock + i % device.eraseSize / device.pageSize))[i % device.pageSize]?

/-- The children lie in the device, from the start of a block on, apart from each other, and there are enough
good blocks for each. The pages of the device have a number. -/
structure OnDevice (device : MtdNandDevice) (cs : List PackChild) : Prop where
  pages : device.endBlock * device.pagesPerBlock ≤ 2 ^ 32
  aligned : ∀ c ∈ cs, c.start % device.eraseSize = 0
  inside : ∀ c ∈ cs, device.block_start.toNat * device.eraseSize ≤ c.start ∧
    c.stop ≤ device.endBlock * device.eraseSize
  apart : cs.Pairwise fun c d => 0 < c.len → 0 < d.len → c.stop ≤ d.start ∨ d.stop ≤ c.start
  fits : ∀ c ∈ cs, c.numPieces device.eraseSize ≤ (device.goods (c.start / device.eraseSize)).length

/-- The children are read back; a block is erased before anything is written to it; nothing outside the device
is touched. -/
structure FlashRight (device : MtdNandDevice) (cs : List PackChild) (dev : Nat → List Byte)
    (log : List StorageOp) : Prop where
  data : ∀ c ∈ cs, ∀ i < c.len,
    device.readUp (device.after dev log) (c.start / device.eraseSize) i = c.data[i]?
  kept : log.Pairwise fun op op' => ∀ b, op' = .eraseBlock b → device.blockOf op ≠ some b.toNat
  inside : ∀ op ∈ log, ∃ b, device.blockOf op = some b ∧ device.block_start.toNat ≤ b ∧ b < device.endBlock

/-- Every pack of this layout is programmed to the end, and right. -/
def NandRight (device : MtdNandDevice) (cs : List PackChild) : Prop :=
  ∀ cs', cs'.map PackChild.layout = cs.map PackChild.layout → (∀ c ∈ cs', c.Loaded) →
    ∀ dev, (∀ page, (dev page).length = device.pageSize) →
      ∃ log, nuwriterPackProgramMtd (fun _ => false) device cs' = .ok log ∧ FlashRight device cs' dev log

/-- The layouts that are programmed right: addresses and rounded lengths fit 32 bits, and no two children have
a block of their placements in common. -/
structure Separate (device : MtdNandDevice) (cs : List PackChild) : Prop where
  address : ∀ c ∈ cs, c.start < 2 ^ 32
  length : ∀ c ∈ cs, c.len + (device.eraseSize - 1) < 2 ^ 32
  disjoint : cs.Pairwise fun c d => ∀ b ∈ device.placement c, b ∉ device.placement d

section

variable {device : MtdNandDevice} {c : PackChild} {cs cs' : List PackChild} {lo n j p q b : Nat} {bs : List Nat}
  {dev : Nat → List Byte}

/-! ## The good blocks -/

theorem MtdNandDevice.mem_goods : b ∈ device.goods lo ↔
    lo ≤ b ∧ b < device.endBlock ∧ device.bad (BitVec.ofNat 32 b) = false := by
  rw [goods, List.mem_filter, List.mem_range'_1, Bool.not_eq_true']
  constructor
  · rintro ⟨⟨hle, hlt⟩, hgood⟩
    exact ⟨hle, by omega, hgood⟩
  · rintro ⟨hle, hlt, hgood⟩
    exact ⟨⟨hle, by omega⟩, hgood⟩

theorem MtdNandDevice.goods_nodup (device : MtdNandDevice) (lo : Nat) : (device.goods lo).Nodup :=
  List.Nodup.filter _ List.nodup_range'

/-- The first good block is the next, and the others are those behind it. -/
theorem MtdNandDevice.next_goods (hend : device.endBlock ≤ 2 ^ 32) (h : device.goods lo = b :: bs) :
    device.next (BitVec.ofNat 32 lo) = BitVec.ofNat 32 b ∧ device.goods (b + 1) = bs := by
  obtain ⟨l₁, l₂, hrange, hbad, hgood, hrest⟩ := List.filter_eq_cons_iff.1 h
  obtain ⟨i, hi, rfl, hcons⟩ := List.range'_eq_append_iff.1 hrange
  obtain ⟨rfl, hpos, rfl⟩ := List.range'_eq_cons_iff.1 hcons.symm
  have hgood' : device.bad (BitVec.ofNat 32 (lo + i)) = false := by simpa using hgood
  have hlt : lo + i < 2 ^ 32 := by omega
  have hskip : ∀ m < i, device.bad (BitVec.ofNat 32 (lo + m)) = true := by
    intro m hm
    simpa using hbad (lo + m) (List.mem_range'_1.2 ⟨Nat.le_add_right _ _, by omega⟩)
  constructor
  · obtain ⟨m, hm, hnext, hnextgood, hbefore⟩ := device.next_spec ⟨_, hgood'⟩ (BitVec.ofNat 32 lo)
    rw [BitVec.ofNat_add_ofNat] at hnext
    rcases Nat.lt_trichotomy m i with hlt | rfl | hgt
    · rw [hnext, hskip m hlt] at hnextgood
      cases hnextgood
    · exact hnext.trans (by rw [Nat.mul_one])
    · have := hbefore i hgt
      rw [BitVec.ofNat_add_ofNat, hgood'] at this
      cases this
  · rw [goods, ← hrest]
    congr 2
    omega

/-! ## The operations of a child -/

/-- The operations on the block that holds the child's block of number `j`. -/
def MtdNandDevice.blockOps (device : MtdNandDevice) (c : PackChild) (b j : Nat) : List StorageOp :=
  .eraseBlock (BitVec.ofNat 32 b) :: device.pageWrites c (BitVec.ofNat 32 b) j 0 (device.blockPages c j)

theorem MtdNandDevice.blockWrites_eq (hend : device.endBlock ≤ 2 ^ 32) (hn : n ≤ (device.goods lo).length) :
    device.blockWrites c n j (BitVec.ofNat 32 lo) =
      (((device.goods lo).take n).zipIdx j).flatMap fun p => device.blockOps c p.1 p.2 := by
  induction n generalizing j lo with
  | zero => rfl
  | succ n ih =>
    cases hgoods : device.goods lo with
    | nil =>
      rw [hgoods] at hn
      cases hn
    | cons b bs =>
      obtain ⟨hnext, hrest⟩ := device.next_goods hend hgoods
      have hsucc : BitVec.ofNat 32 b + 1 = BitVec.ofNat 32 (b + 1) := BitVec.ofNat_add_ofNat ..
      have hn' : n ≤ (device.goods (b + 1)).length := by
        rw [hgoods, List.length_cons] at hn
        rw [hrest]
        omega
      rw [blockWrites, hnext, hsucc, ih hn', hrest, List.take_succ_cons, List.zipIdx_cons, List.flatMap_cons]
      rfl

/-- The blocks of a pack, in the order in which they are programmed, with the child and the number of its block. -/
def MtdNandDevice.packBlocks (device : MtdNandDevice) (cs : List PackChild) : List (PackChild × Nat × Nat) :=
  cs.reverse.flatMap fun c => (device.placement c).zipIdx.map fun p => (c, p)

theorem firstBlock_eq (device : MtdNandDevice) (c : PackChild) :
    device.firstBlock c = BitVec.ofNat 32 (c.start / device.eraseSize) := by
  have hwidth : (device.u32EraseSize.setWidth 64).toNat = device.eraseSize := by
    rw [BitVec.toNat_setWidth_of_le (by decide), device.erase_toNat]
  apply BitVec.eq_of_toNat_eq
  rw [MtdNandDevice.firstBlock, BitVec.toNat_setWidth, BitVec.toNat_udiv, hwidth, BitVec.toNat_ofNat]
  rfl

/-- The operations of a child whose rounded length fits. -/
theorem MtdNandDevice.childOps_eq (hend : device.endBlock ≤ 2 ^ 32) (h : c.Loaded)
    (hlen : c.len + (device.eraseSize - 1) < 2 ^ 32)
    (hfit : c.numPieces device.eraseSize ≤ (device.goods (c.start / device.eraseSize)).length) :
    device.childOps c = (device.placement c).zipIdx.flatMap fun p => device.blockOps c p.1 p.2 := by
  rw [childOps, device.totalBlock_toNat h, if_pos hlen, firstBlock_eq, device.blockWrites_eq hend hfit]
  rfl

/-! ## What they do -/

variable {x : PackChild × Nat × Nat} {L : List (PackChild × Nat × Nat)} {ops ops' : List StorageOp}
  {op : StorageOp}

theorem programmed_getElem {data : List Byte} {i : Nat} (hle : data.length ≤ n) (hi : i < data.length) :
    (programmed (List.replicate n 0xff) data)[i]? = data[i]? := by
  have hlen : (List.zipWith (fun d o : Byte => d &&& o) data (List.replicate n 0xff)).length = data.length := by
    rw [List.length_zipWith, List.length_replicate, Nat.min_eq_left hle]
  rw [programmed, List.getElem?_append_left (by rwa [hlen]), List.getElem?_zipWith,
    List.getElem?_eq_getElem hi, List.getElem?_replicate_of_lt (Nat.lt_of_lt_of_le hi hle)]
  exact congrArg some (BitVec.and_allOnes)

theorem MtdNandDevice.after_append :
    device.after dev (ops ++ ops') = device.after (device.after dev ops) ops' :=
  List.foldl_append

/-- A page of a block that is not touched. -/
theorem MtdNandDevice.after_other (h : ∀ op ∈ ops, device.blockOf op ≠ some (q / device.pagesPerBlock)) :
    device.after dev ops q = dev q := by
  induction ops generalizing dev with
  | nil => rfl
  | cons op ops ih =>
    obtain ⟨hop, hops⟩ := List.forall_mem_cons.1 h
    refine (ih hops).trans ?_
    cases op with
    | eraseBlock block => exact if_neg fun heq => hop (congrArg some heq.symm)
    | writePage page data =>
      exact Function.update_of_ne (fun heq => hop (by rw [heq, blockOf])) _ _
    | writeSector _ _ => rfl
    | readPage _ => rfl
    | writeFile _ => rfl

/-- The number of a page of a block. -/
theorem MtdNandDevice.page_number (h : b * device.pagesPerBlock + p < 2 ^ 32) :
    (BitVec.ofNat 32 b * device.pages_per_block + BitVec.ofNat 32 p).toNat = b * device.pagesPerBlock + p := by
  have hmul : BitVec.ofNat 32 b * device.pages_per_block = BitVec.ofNat 32 (b * device.pagesPerBlock) := by
    rw [BitVec.ofNat_mul, pagesPerBlock, BitVec.ofNat_toNat, BitVec.setWidth_eq]
  rw [hmul, BitVec.ofNat_add_ofNat, BitVec.toNat_ofNat, Nat.mod_eq_of_lt h]

/-- The number of a block of which the pages have a number. -/
theorem MtdNandDevice.block_number (h : (b + 1) * device.pagesPerBlock ≤ 2 ^ 32) :
    (BitVec.ofNat 32 b).toNat = b := by
  have hpos := device.pagesPerBlock_pos
  rw [Nat.succ_mul] at h
  rw [BitVec.toNat_ofNat, Nat.mod_eq_of_lt]
  exact Nat.lt_of_le_of_lt (Nat.le_mul_of_pos_right b hpos) (by omega)

/-- What the writes of some pages leave. -/
theorem MtdNandDevice.pageWrites_after (h : b * device.pagesPerBlock + p + n ≤ 2 ^ 32) :
    device.after dev (device.pageWrites c (BitVec.ofNat 32 b) j p n) q =
      if b * device.pagesPerBlock + p ≤ q ∧ q < b * device.pagesPerBlock + p + n then
        programmed (dev q) (c.piece device.pageSize (j * device.pagesPerBlock + (q - b * device.pagesPerBlock)))
      else dev q := by
  induction n generalizing p dev with
  | zero => exact (if_neg (by omega)).symm
  | succ n ih =>
    have hcons : device.pageWrites c (BitVec.ofNat 32 b) j p (n + 1) =
        .writePage (BitVec.ofNat 32 b * device.pages_per_block + BitVec.ofNat 32 p)
          (c.piece device.pageSize (j * device.pagesPerBlock + p)) ::
          device.pageWrites c (BitVec.ofNat 32 b) j (p + 1) n := by
      rw [pageWrites, List.range'_succ]
      rfl
    have hstep : device.after dev (device.pageWrites c (BitVec.ofNat 32 b) j p (n + 1)) q =
        device.after (Function.update dev (b * device.pagesPerBlock + p)
          (programmed (dev (b * device.pagesPerBlock + p))
            (c.piece device.pageSize (j * device.pagesPerBlock + p))))
          (device.pageWrites c (BitVec.ofNat 32 b) j (p + 1) n) q := by
      rw [hcons, ← device.page_number (by omega : b * device.pagesPerBlock + p < 2 ^ 32)]
      rfl
    rw [hstep, ih (by omega)]
    by_cases hq : q = b * device.pagesPerBlock + p
    · rw [if_neg (by omega), if_pos (by omega), hq, Function.update_self, Nat.add_sub_cancel_left]
    · rw [Function.update_of_ne hq]
      by_cases hin : b * device.pagesPerBlock + (p + 1) ≤ q ∧ q < b * device.pagesPerBlock + (p + 1) + n
      · rw [if_pos hin, if_pos (by omega)]
      · rw [if_neg hin, if_neg (by omega)]

/-- What the operations on a block leave in its pages. -/
theorem MtdNandDevice.blockOps_after (h : (b + 1) * device.pagesPerBlock ≤ 2 ^ 32)
    (hp : p < device.blockPages c j) :
    device.after dev (device.blockOps c b j) (b * device.pagesPerBlock + p) =
      programmed (List.replicate device.pageSize 0xff)
        (c.piece device.pageSize (j * device.pagesPerBlock + p)) := by
  have hpages : device.blockPages c j ≤ device.pagesPerBlock := Nat.min_le_left _ _
  have hpos := device.pagesPerBlock_pos
  have hb := device.block_number h
  rw [Nat.succ_mul] at h
  have hdiv : (b * device.pagesPerBlock + p) / device.pagesPerBlock = b := by
    rw [Nat.mul_comm, Nat.mul_add_div hpos, Nat.div_eq_of_lt (by omega), Nat.add_zero]
  have hstep : device.after dev (device.blockOps c b j) =
      device.after (device.step dev (.eraseBlock (BitVec.ofNat 32 b)))
        (device.pageWrites c (BitVec.ofNat 32 b) j 0 (device.blockPages c j)) := rfl
  have herased : device.step dev (.eraseBlock (BitVec.ofNat 32 b)) (b * device.pagesPerBlock + p) =
      List.replicate device.pageSize 0xff := if_pos (hdiv.trans hb.symm)
  rw [hstep, device.pageWrites_after (by omega), if_pos (by omega), herased, Nat.add_sub_cancel_left]

/-- The operations on a block touch no other. -/
theorem MtdNandDevice.blockOps_blockOf (h : (b + 1) * device.pagesPerBlock ≤ 2 ^ 32)
    (hop : op ∈ device.blockOps c b j) : device.blockOf op = some b := by
  have hpages : device.blockPages c j ≤ device.pagesPerBlock := Nat.min_le_left _ _
  have hpos := device.pagesPerBlock_pos
  rcases List.mem_cons.1 hop with rfl | hop
  · exact congrArg some (device.block_number h)
  · rw [Nat.succ_mul] at h
    obtain ⟨p, hp, rfl⟩ := List.mem_map.1 hop
    obtain ⟨-, hlt⟩ := List.mem_range'_1.1 hp
    rw [blockOf, device.page_number (by omega), Nat.mul_comm, Nat.mul_add_div hpos,
      Nat.div_eq_of_lt (by omega), Nat.add_zero]

/-- An erase among the operations on a block is that of the block. -/
theorem MtdNandDevice.blockOps_erase {block : BitVec 32} (hop : .eraseBlock block ∈ device.blockOps c b j) :
    block = BitVec.ofNat 32 b := by
  rcases List.mem_cons.1 hop with heq | hop
  · exact StorageOp.eraseBlock.inj heq
  · obtain ⟨p, -, heq⟩ := List.mem_map.1 hop
    cases heq

/-! ## Blocks one after the other -/

/-- The operations on some blocks. -/
def MtdNandDevice.opsOf (device : MtdNandDevice) (L : List (PackChild × Nat × Nat)) : List StorageOp :=
  L.flatMap fun x => device.blockOps x.1 x.2.1 x.2.2

/-- The pages of a block are what the last operations on it left. -/
theorem MtdNandDevice.opsOf_after {pre post : List (PackChild × Nat × Nat)}
    (hL : ∀ y ∈ pre ++ (c, b, j) :: post, (y.2.1 + 1) * device.pagesPerBlock ≤ 2 ^ 32)
    (hpost : ∀ y ∈ post, b ≠ y.2.1) (hp : p < device.blockPages c j) :
    device.after dev (device.opsOf (pre ++ (c, b, j) :: post)) (b * device.pagesPerBlock + p) =
      programmed (List.replicate device.pageSize 0xff)
        (c.piece device.pageSize (j * device.pagesPerBlock + p)) := by
  have hsplit : device.opsOf (pre ++ (c, b, j) :: post) =
      device.opsOf pre ++ (device.blockOps c b j ++ device.opsOf post) := by
    rw [opsOf, List.flatMap_append, List.flatMap_cons]
    rfl
  have hpages : device.blockPages c j ≤ device.pagesPerBlock := Nat.min_le_left _ _
  have hdiv : (b * device.pagesPerBlock + p) / device.pagesPerBlock = b := by
    rw [Nat.mul_comm, Nat.mul_add_div device.pagesPerBlock_pos, Nat.div_eq_of_lt (by omega), Nat.add_zero]
  rw [hsplit, device.after_append, device.after_append, device.after_other,
    device.blockOps_after (hL _ (List.mem_append_right _ (List.mem_cons_self ..))) hp]
  intro op hop heq
  obtain ⟨y, hy, hop⟩ := List.mem_flatMap.1 hop
  rw [device.blockOps_blockOf (hL y (List.mem_append_right _ (List.mem_cons_of_mem _ hy))) hop, hdiv] at heq
  exact hpost y hy (Option.some.inj heq).symm

/-- Each block is erased before anything is written to it if and only if no block comes twice. -/
theorem MtdNandDevice.opsOf_kept (hL : ∀ y ∈ L, (y.2.1 + 1) * device.pagesPerBlock ≤ 2 ^ 32) :
    ((device.opsOf L).Pairwise fun op op' => ∀ b, op' = .eraseBlock b → device.blockOf op ≠ some b.toNat) ↔
      L.Pairwise fun x y => x.2.1 ≠ y.2.1 := by
  have hnumber : ∀ y ∈ L, (BitVec.ofNat 32 y.2.1).toNat = y.2.1 := fun y hy => device.block_number (hL y hy)
  rw [opsOf, List.pairwise_flatMap]
  constructor
  · rintro ⟨-, hpairs⟩
    refine List.Pairwise.imp_of_mem (fun {x y} hx hy h heq => ?_) hpairs
    refine h _ (List.mem_cons_self ..) _ (List.mem_cons_self ..) _ rfl ?_
    rw [hnumber y hy, ← heq]
    exact congrArg some (hnumber x hx)
  · intro hpairs
    constructor
    · intro x hx
      refine List.pairwise_cons.2 ⟨fun op hop b heq => ?_, ?_⟩
      · obtain ⟨p, -, rfl⟩ := List.mem_map.1 hop
        cases heq
      · refine List.pairwise_of_forall_mem_list fun op _ op' hop' b heq => ?_
        obtain ⟨p, -, rfl⟩ := List.mem_map.1 hop'
        cases heq
    · refine List.Pairwise.imp_of_mem (fun {x y} hx hy hne op hop op' hop' b heq hblock => ?_) hpairs
      subst heq
      rw [device.blockOps_erase hop', hnumber y hy, device.blockOps_blockOf (hL x hx) hop] at hblock
      exact hne (Option.some.inj hblock)

/-! ## Packs -/

theorem OnDevice.same_layout (h : OnDevice device cs)
    (hsame : cs'.map PackChild.layout = cs.map PackChild.layout) : OnDevice device cs' := by
  have haligned := forall_layout (P := fun l => l.1.toNat % device.eraseSize = 0) hsame h.aligned
  have hinside := forall_layout (P := fun l => device.block_start.toNat * device.eraseSize ≤ l.1.toNat ∧
    l.1.toNat + l.2.toNat ≤ device.endBlock * device.eraseSize) hsame h.inside
  have hapart := pairwise_layout (R := fun l m => 0 < l.2.toNat → 0 < m.2.toNat →
    l.1.toNat + l.2.toNat ≤ m.1.toNat ∨ m.1.toNat + m.2.toNat ≤ l.1.toNat) hsame h.apart
  have hfits := forall_layout (P := fun l => (l.2.toNat + (device.eraseSize - 1)) / device.eraseSize ≤
    (device.goods (l.1.toNat / device.eraseSize)).length) hsame h.fits
  exact ⟨h.pages, haligned, hinside, hapart, hfits⟩

theorem Separate.same_layout (h : Separate device cs)
    (hsame : cs'.map PackChild.layout = cs.map PackChild.layout) : Separate device cs' := by
  have haddress := forall_layout (P := fun l => l.1.toNat < 2 ^ 32) hsame h.address
  have hlength := forall_layout (P := fun l => l.2.toNat + (device.eraseSize - 1) < 2 ^ 32) hsame h.length
  have hdisjoint := pairwise_layout (R := fun l m =>
    ∀ b ∈ (device.goods (l.1.toNat / device.eraseSize)).take
        ((l.2.toNat + (device.eraseSize - 1)) / device.eraseSize),
      b ∉ (device.goods (m.1.toNat / device.eraseSize)).take
        ((m.2.toNat + (device.eraseSize - 1)) / device.eraseSize)) hsame h.disjoint
  exact ⟨haddress, hlength, hdisjoint⟩

theorem OnDevice.end_le (h : OnDevice device cs) : device.endBlock ≤ 2 ^ 32 :=
  Nat.le_trans (Nat.le_mul_of_pos_right _ device.pagesPerBlock_pos) h.pages

/-- Masking an address at the start of a block keeps its low 32 bits. -/
theorem rtAlign64_erase (h : c.start % device.eraseSize = 0) :
    (rtAlign64 c.m_ui64FlashAddress device.u32EraseSize).toNat = c.start % 2 ^ 32 := by
  obtain ⟨k, hk, herase, hword⟩ := device.erase_eq
  have hsum : (c.m_ui64FlashAddress + device.u32EraseSize.setWidth 64 - 1).toNat % 2 ^ 32 =
      (c.start + (2 ^ k - 1)) % 2 ^ 32 := by
    have hpos := Nat.two_pow_pos k
    have hwidth : (device.u32EraseSize.setWidth 64).toNat = 2 ^ k := by
      rw [BitVec.toNat_setWidth_of_le (by decide), device.erase_toNat, herase]
    rw [BitVec.toNat_sub, BitVec.toNat_add, hwidth]
    change (2 ^ 64 - 1 + (c.start + 2 ^ k) % 2 ^ 64) % 2 ^ 64 % 2 ^ 32 = _
    omega
  have hmask : rtAlign64 c.m_ui64FlashAddress device.u32EraseSize =
      (maskLow ((c.m_ui64FlashAddress + device.u32EraseSize.setWidth 64 - 1).setWidth 32)
        device.u32EraseSize).setWidth 64 := by
    rw [rtAlign64, maskLow]
    apply BitVec.eq_of_getLsbD_eq
    intro i hi
    simp only [BitVec.getLsbD_and, BitVec.getLsbD_setWidth]
    by_cases h32 : i < 32
    · simp [h32, hi]
    · simp [h32]
  rw [herase] at h
  obtain ⟨m, hm⟩ := Nat.dvd_of_mod_eq_zero h
  obtain ⟨e, he⟩ : 2 ^ k ∣ 2 ^ 32 := Nat.pow_dvd_pow 2 (Nat.le_of_lt hk)
  have hpos := Nat.two_pow_pos k
  have hlow : (2 ^ k * m + (2 ^ k - 1)) % 2 ^ 32 = 2 ^ k * (m % e) + (2 ^ k - 1) := by
    have hmod : (2 ^ k * m) % 2 ^ 32 = 2 ^ k * (m % e) := by rw [he, Nat.mul_mod_mul_left]
    have hlt : m % e < e := Nat.mod_lt _ (Nat.pos_of_ne_zero fun hzero => by rw [hzero] at he; omega)
    have hfit : 2 ^ k * (m % e) + 2 ^ k ≤ 2 ^ 32 := by
      rw [he, ← Nat.mul_succ]
      exact Nat.mul_le_mul_left _ hlt
    rw [Nat.add_mod, hmod, Nat.mod_eq_of_lt (by omega : 2 ^ k - 1 < 2 ^ 32), Nat.mod_eq_of_lt (by omega)]
  rw [hmask, BitVec.toNat_setWidth_of_le (by decide), hword, maskLow_toNat hk, BitVec.toNat_setWidth, ← hword,
    hsum, hm, hlow, Nat.mul_add_div hpos, Nat.div_eq_of_lt (by omega), Nat.add_zero, he, Nat.mul_mod_mul_left,
    Nat.mul_comm]

/-- The check of the alignment lets an address at the start of a block through if it fits 32 bits. -/
theorem aligned_iff (h : c.start % device.eraseSize = 0) : device.aligned c = true ↔ c.start < 2 ^ 32 := by
  rw [MtdNandDevice.aligned, decide_eq_true_iff, ← BitVec.toNat_inj, rtAlign64_erase h]
  change c.start = c.start % 2 ^ 32 ↔ _
  omega

/-- Without a failure the program ends well if and only if all addresses are let through, with the operations of
all children. -/
theorem program_ok_iff {log : List StorageOp} (h : OnDevice device cs) (hload : ∀ c ∈ cs, c.Loaded) :
    nuwriterPackProgramMtd (fun _ => false) device cs = .ok log ↔
      (∀ c ∈ cs, c.start < 2 ^ 32) ∧ log = cs.reverse.flatMap device.childOps := by
  have hprogram : nuwriterPackProgramMtd (fun _ => false) device cs =
      if cs.all device.aligned then .ok ((device.ready cs).flatMap device.childOps)
      else .error (.refused ((device.ready cs).flatMap device.childOps)) := by
    by_cases hgood : ∃ block, device.bad block = false
    · have hall : performAll (fun _ => false) [] ((device.ready cs).flatMap device.childOps) =
          .ok ((device.ready cs).flatMap device.childOps) := performAll_eq_ok.2 ⟨rfl, fun _ _ => rfl⟩
      rw [nuwriterPackProgramMtd_eq hload hgood, hall]
      rfl
    · -- no good block: no child has data
      have hnone : ∀ c ∈ device.ready cs, device.totalBlock c = 0 := by
        intro c hc
        have hmem : c ∈ cs := List.mem_reverse.1 (List.takeWhile_subset _ hc)
        have hgoods : device.goods (c.start / device.eraseSize) = [] := by
          refine List.eq_nil_iff_forall_not_mem.2 fun b hb => hgood ⟨_, (MtdNandDevice.mem_goods.1 hb).2.2⟩
        have hfit := h.fits c hmem
        rw [hgoods] at hfit
        apply BitVec.eq_of_toNat_eq
        rw [device.totalBlock_toNat (hload c hmem)]
        split
        · exact Nat.le_zero.1 hfit
        · rfl
      have hops : (device.ready cs).flatMap device.childOps = [] := by
        refine List.flatMap_eq_nil_iff.2 fun c hc => ?_
        rw [MtdNandDevice.childOps, hnone c hc]
        rfl
      rw [nuwriterPackProgramMtd_idle hnone, hops]
  have hall : cs.all device.aligned = true ↔ ∀ c ∈ cs, c.start < 2 ^ 32 := by
    rw [List.all_eq_true]
    exact forall₂_congr fun c hc => aligned_iff (h.aligned c hc)
  rw [hprogram]
  by_cases haligned : cs.all device.aligned = true
  · have hready : device.ready cs = cs.reverse := by
      rw [MtdNandDevice.ready, List.takeWhile_eq_self_iff]
      exact fun c hc => List.all_eq_true.1 haligned c (List.mem_reverse.1 hc)
    rw [if_pos haligned, hready]
    exact ⟨fun heq => ⟨hall.1 haligned, (Except.ok.inj heq).symm⟩, fun heq => by rw [heq.2]⟩
  · rw [if_neg haligned]
    exact iff_of_false (fun heq => by cases heq) fun hok => haligned (hall.2 hok.1)

theorem mem_packBlocks {y : PackChild × Nat × Nat} :
    y ∈ device.packBlocks cs ↔ ∃ c ∈ cs, ∃ b j, (device.placement c)[j]? = some b ∧ y = (c, b, j) := by
  rw [MtdNandDevice.packBlocks, List.mem_flatMap]
  constructor
  · rintro ⟨c, hc, hy⟩
    obtain ⟨⟨b, j⟩, hp, rfl⟩ := List.mem_map.1 hy
    exact ⟨c, List.mem_reverse.1 hc, b, j, List.mem_zipIdx_iff_getElem?.1 hp, rfl⟩
  · rintro ⟨c, hc, b, j, hj, rfl⟩
    exact ⟨c, List.mem_reverse.2 hc, List.mem_map.2 ⟨(b, j), List.mem_zipIdx_iff_getElem?.2 hj, rfl⟩⟩

/-- The blocks of placements lie in the device. -/
theorem OnDevice.placement_lt (h : OnDevice device cs) (hc : c ∈ cs) (hb : b ∈ device.placement c) :
    device.block_start.toNat ≤ b ∧ b < device.endBlock ∧ (b + 1) * device.pagesPerBlock ≤ 2 ^ 32 := by
  obtain ⟨hle, hlt, -⟩ := MtdNandDevice.mem_goods.1 (List.mem_of_mem_take hb)
  have hstart : device.block_start.toNat ≤ c.start / device.eraseSize :=
    (Nat.le_div_iff_mul_le device.eraseSize_pos).2 (h.inside c hc).1
  exact ⟨Nat.le_trans hstart hle, hlt, Nat.le_trans (Nat.mul_le_mul_right _ hlt) h.pages⟩

theorem OnDevice.packBlocks_lt (h : OnDevice device cs) :
    ∀ y ∈ device.packBlocks cs, (y.2.1 + 1) * device.pagesPerBlock ≤ 2 ^ 32 := by
  intro y hy
  obtain ⟨c, hc, b, j, hj, rfl⟩ := mem_packBlocks.1 hy
  exact (h.placement_lt hc (List.mem_of_getElem? hj)).2.2

/-- The operations of a pack, block by block. -/
theorem OnDevice.ops_eq (h : OnDevice device cs) (hload : ∀ c ∈ cs, c.Loaded)
    (hlen : ∀ c ∈ cs, c.len + (device.eraseSize - 1) < 2 ^ 32) :
    cs.reverse.flatMap device.childOps = device.opsOf (device.packBlocks cs) := by
  rw [MtdNandDevice.opsOf, MtdNandDevice.packBlocks, List.flatMap_assoc]
  refine List.flatMap_congr fun c hc => ?_
  have hmem := List.mem_reverse.1 hc
  rw [device.childOps_eq h.end_le (hload c hmem) (hlen c hmem) (h.fits c hmem), List.flatMap_map]

/-- No block comes twice in a pack if and only if no two placements meet. -/
theorem packBlocks_pairwise : ((device.packBlocks cs).Pairwise fun x y => x.2.1 ≠ y.2.1) ↔
    cs.Pairwise fun c d => ∀ b ∈ device.placement c, b ∉ device.placement d := by
  have hmem : ∀ c b, b ∈ device.placement c ↔
      ∃ y ∈ (device.placement c).zipIdx.map fun p => (c, p), y.2.1 = b := by
    intro c b
    rw [List.mem_iff_getElem?]
    constructor
    · rintro ⟨j, hj⟩
      exact ⟨_, List.mem_map.2 ⟨(b, j), List.mem_zipIdx_iff_getElem?.2 hj, rfl⟩, rfl⟩
    · rintro ⟨y, hy, rfl⟩
      obtain ⟨⟨b, j⟩, hp, rfl⟩ := List.mem_map.1 hy
      exact ⟨j, List.mem_zipIdx_iff_getElem?.1 hp⟩
  have hself : ∀ c, ((device.placement c).zipIdx.map fun p => (c, p)).Pairwise fun x y => x.2.1 ≠ y.2.1 := by
    intro c
    have hnodup : (device.placement c).Nodup := (device.goods_nodup _).sublist (List.take_sublist _ _)
    rw [List.pairwise_map]
    rw [← List.zipIdx_map_fst 0 (device.placement c)] at hnodup
    exact List.pairwise_map.1 hnodup
  rw [MtdNandDevice.packBlocks, List.pairwise_flatMap, List.pairwise_reverse,
    and_iff_right fun c _ => hself c]
  constructor
  · intro h
    refine h.imp fun {c d} hcd b hb hb' => ?_
    obtain ⟨x, hx, rfl⟩ := (hmem c b).1 hb
    obtain ⟨y, hy, heq⟩ := (hmem d _).1 hb'
    exact hcd y hy x hx heq
  · intro h
    refine h.imp fun {c d} hcd x hx y hy heq => ?_
    exact hcd y.2.1 ((hmem c _).2 ⟨y, hy, rfl⟩) ((hmem d _).2 ⟨x, hx, heq⟩)

/-- The data of a child is read back where no block of its placement comes again. -/
theorem OnDevice.readUp_eq (h : OnDevice device cs) (hload : ∀ c ∈ cs, c.Loaded)
    (hpairs : (device.packBlocks cs).Pairwise fun x y => x.2.1 ≠ y.2.1) (hc : c ∈ cs) {i : Nat}
    (hi : i < c.len) :
    device.readUp (device.after dev (device.opsOf (device.packBlocks cs))) (c.start / device.eraseSize) i =
      c.data[i]? := by
  have hps := device.pageSize_pos
  have hj : i / device.eraseSize < c.numPieces device.eraseSize :=
    (PackChild.mul_lt_len device.eraseSize_pos).2 (Nat.lt_of_le_of_lt (Nat.div_mul_le_self _ _) hi)
  have hpage : i / device.pageSize < c.numPieces device.pageSize :=
    (PackChild.mul_lt_len hps).2 (Nat.lt_of_le_of_lt (Nat.div_mul_le_self _ _) hi)
  -- the page of the byte, in its block
  have hjpage : i / device.eraseSize * device.pagesPerBlock + i % device.eraseSize / device.pageSize =
      i / device.pageSize := by
    rw [MtdNandDevice.eraseSize, Nat.mod_mul_right_div_self, ← Nat.div_div_eq_div_mul]
    exact Nat.div_add_mod' _ _
  have hp : i % device.eraseSize / device.pageSize < device.blockPages c (i / device.eraseSize) := by
    refine Nat.lt_min.2 ⟨?_, by omega⟩
    rw [Nat.div_lt_iff_lt_mul hps, Nat.mul_comm]
    exact Nat.mod_lt _ device.eraseSize_pos
  have hlt := Nat.lt_of_lt_of_le hj (h.fits c hc)
  have hget : (device.goods (c.start / device.eraseSize))[i / device.eraseSize]? =
      some ((device.goods (c.start / device.eraseSize))[i / device.eraseSize]) := List.getElem?_eq_getElem hlt
  generalize (device.goods (c.start / device.eraseSize))[i / device.eraseSize] = b at hget
  have hplaced : (device.placement c)[i / device.eraseSize]? = some b := by
    rw [MtdNandDevice.placement, List.getElem?_take_of_lt hj, hget]
  obtain ⟨pre, post, hsplit⟩ := List.append_of_mem (mem_packBlocks.2 ⟨c, hc, b, _, hplaced, rfl⟩)
  have hL := h.packBlocks_lt
  rw [hsplit] at hL hpairs
  have hpost := (List.pairwise_cons.1 (List.pairwise_append.1 hpairs).2.1).1
  have hpiece := PackChild.piece_getElem c (i / device.pageSize) (Nat.mod_lt i hps)
  have hlen : (c.piece device.pageSize (i / device.pageSize)).length = _ :=
    PackChild.piece_length (hload c hc) _
  have hparts := Nat.div_add_mod' i device.pageSize
  have hmod := Nat.mod_lt i hps
  rw [MtdNandDevice.readUp, hget, hsplit]
  change (device.after dev _ (b * device.pagesPerBlock + i % device.eraseSize / device.pageSize))[i % device.pageSize]? = _
  rw [device.opsOf_after hL hpost hp, hjpage, programmed_getElem, hpiece, hparts]
  · rw [hlen]
    exact Nat.min_le_left _ _
  · rw [hlen]
    exact Nat.lt_min.2 ⟨hmod, by omega⟩

/-- A pack with separate placements is programmed right. -/
theorem Separate.nandRight (h : Separate device cs) (hdevice : OnDevice device cs) : NandRight device cs := by
  intro cs' hsame hload dev _
  have hseparate := h.same_layout hsame
  have hon := hdevice.same_layout hsame
  have hops := hon.ops_eq hload hseparate.length
  have hpairs := packBlocks_pairwise.2 hseparate.disjoint
  refine ⟨_, (program_ok_iff hon hload).2 ⟨hseparate.address, rfl⟩, ?_⟩
  rw [hops]
  refine ⟨fun c hc i hi => hon.readUp_eq hload hpairs hc hi, (device.opsOf_kept hon.packBlocks_lt).2 hpairs,
    fun op hop => ?_⟩
  obtain ⟨y, hy, hop⟩ := List.mem_flatMap.1 hop
  obtain ⟨c, hc, b, j, hj, rfl⟩ := mem_packBlocks.1 hy
  obtain ⟨hle, hlt, hpages⟩ := hon.placement_lt hc (List.mem_of_getElem? hj)
  exact ⟨b, device.blockOps_blockOf hpages hop, hle, hlt⟩

/-- A child of which the rounded length does not fit is left out, whatever its data. -/
theorem filled_ops {f g : Nat → Nat → Byte}
    (h : ∀ p, ∀ hp : p < cs.length, f p = g p ∨ device.totalBlock cs[p] = 0) :
    (filled f cs).reverse.flatMap device.childOps = (filled g cs).reverse.flatMap device.childOps := by
  have hmap : (filled f cs).map device.childOps = (filled g cs).map device.childOps := by
    refine List.ext_getElem (by simp [filled]) fun p hp hp' => ?_
    simp only [filled, List.length_map, List.length_mapIdx] at hp
    simp only [filled, List.getElem_map, List.getElem_mapIdx]
    rcases h p hp with heq | hzero
    · rw [heq]
    · have hnone : ∀ g, device.childOps (cs[p].withData g) = [] := by
        intro g
        have hcount : device.totalBlock (cs[p].withData g) = 0 := hzero
        rw [MtdNandDevice.childOps, hcount]
        rfl
      rw [hnone, hnone]
  rw [List.flatMap_def, List.flatMap_def, List.map_reverse, List.map_reverse, hmap]

/-- What is programmed right has separate placements. -/
theorem NandRight.separate (h : NandRight device cs) (hdevice : OnDevice device cs)
    (hload : ∀ c ∈ cs, c.Loaded) : Separate device cs := by
  have hblank : ∀ page : Nat, ((fun _ => List.replicate device.pageSize 0) page : List Byte).length =
      device.pageSize := fun _ => List.length_replicate
  obtain ⟨log, hok, hright⟩ := h cs rfl hload _ hblank
  obtain ⟨haddress, rfl⟩ := (program_ok_iff hdevice hload).1 hok
  have hlength : ∀ c ∈ cs, c.len + (device.eraseSize - 1) < 2 ^ 32 := by
    intro c hc
    obtain ⟨p, hp, rfl⟩ := List.getElem_of_mem hc
    by_contra hlong
    have hpos : 0 < cs[p].len := by
      have herase : device.eraseSize < 2 ^ 32 := device.erase_lt
      omega
    have hzero : device.totalBlock cs[p] = 0 := by
      apply BitVec.eq_of_toNat_eq
      rw [device.totalBlock_toNat (hload _ hc), if_neg hlong]
      rfl
    -- the first byte read back is the same for all data
    have hread : ∀ v : Byte, device.readUp (device.after (fun _ => List.replicate device.pageSize 0)
        ((filled (fun _ _ => 0) cs).reverse.flatMap device.childOps))
        (cs[p].start / device.eraseSize) 0 = some v := by
      intro v
      have hsame := filled_layout (fun q _ => if q = p then v else 0) cs
      obtain ⟨log, hok, hright⟩ := h _ hsame (filled_loaded hload) _ hblank
      obtain ⟨-, rfl⟩ := (program_ok_iff (hdevice.same_layout hsame) (filled_loaded hload)).1 hok
      have hops : (filled (fun q _ => if q = p then v else 0) cs).reverse.flatMap device.childOps =
          (filled (fun _ _ => 0) cs).reverse.flatMap device.childOps := by
        refine filled_ops fun q hq => ?_
        by_cases heq : q = p
        · subst heq
          exact .inr hzero
        · exact .inl (funext fun _ => if_neg heq)
      have hdata := hright.data _ (mem_filled.2 ⟨p, hp, rfl⟩) 0 hpos
      rw [PackChild.withData_getElem _ _ hpos, if_pos rfl, hops] at hdata
      exact hdata
    have hboth := (hread 0).symm.trans (hread 1)
    cases hboth
  refine ⟨haddress, hlength, ?_⟩
  have hkept := hright.kept
  rw [hdevice.ops_eq hload hlength, device.opsOf_kept hdevice.packBlocks_lt] at hkept
  exact packBlocks_pairwise.1 hkept

end

/-- A partition of 4 blocks of 128 KiB, of which the first may be bad. -/
def smallFlash (firstBad : Bool) : MtdNandDevice where
  page_size := 2048#16
  pages_per_block := 64#32
  block_total := 4#16
  block_start := 0#32
  bad block := firstBad && block = 0#32
  page_pow := ⟨11, rfl⟩
  pages_pow := ⟨6, rfl⟩
  erase_lt := by decide

/-- Two images of 8 bytes, in the first block and the one behind it. -/
def twoBlocks : List PackChild :=
  [⟨8#64, 0#64, 0#32, List.replicate 8 0⟩, ⟨8#64, 0x20000#64, 0#32, List.replicate 8 0⟩]

theorem twoBlocks_onDevice (firstBad : Bool) : OnDevice (smallFlash firstBad) twoBlocks := by
  cases firstBad with
  | false => exact ⟨by decide, by decide, by decide, by decide, by decide⟩
  | true => exact ⟨by decide, by decide, by decide, by decide, by decide⟩

theorem twoBlocks_loaded : ∀ c ∈ twoBlocks, c.Loaded :=
  List.forall_mem_cons.2 ⟨⟨by decide, by decide⟩, List.forall_mem_singleton.2 ⟨by decide, by decide⟩⟩

end NumakerMA35D1.NuWriter

import NumakerMA35D1.UsbHost.Support

/-!
# Every history of the heap

`heap_run`: after allocations of positive sizes, releases and writes of the clients into their own
data, the live data blocks are disjoint, inside the pool, large enough and aligned, the two counters
add up to the pool and the cursor stands where the search can go on, as long as no release reads a
header inside a live block. Such a release is a second one of a pointer whose blocks have been given
out again: the header it reads may still say that blocks begin there (`not_heapRight`).
-/

namespace NumakerMA35D1.UsbHost

open Embedded

/-- A data block: the address given out, what was asked for, and the first block and the number of
blocks that its header gives. -/
structure DataBlock where
  ptr : Nat
  wantedSize : Int
  boundary : Int
  head : Nat
  count : Nat

namespace DataBlock

/-- The blocks of a data block. -/
def Covers (d : DataBlock) (b : Nat) : Prop := d.head ≤ b ∧ b < d.head + d.count

/-- The addresses of the data. -/
def data (d : DataBlock) : Set Nat :=
  {a | d.ptr ≤ a ∧ a < USB_MEM_BLOCK_SIZE * (d.head + d.count)}

end DataBlock

/-- A block of the pool that no live data block has. -/
def FreeBlock (base : Nat) (live : List DataBlock) (b : Nat) : Prop :=
  base ≤ b ∧ b < base + poolBlocks ∧ ∀ d ∈ live, ¬ d.Covers b

/-- The cursor stands at the pool's end, at a free block or at the head of a live one. -/
def CursorAt (base : Nat) (live : List DataBlock) (b : Nat) : Prop :=
  b = base + poolBlocks ∨ FreeBlock base live b ∨ ∃ d ∈ live, d.head = b

/-- The heap and the data blocks that live in it fit. -/
structure HeapRight (base : Nat) (s : UsbHeap) (live : List DataBlock) : Prop where
  disjoint : live.Pairwise fun d d' => Disjoint d.data d'.data
  inside : ∀ {d}, d ∈ live → USB_MEM_BLOCK_SIZE * base ≤ d.ptr ∧
    d.data ⊆ Set.Iio (USB_MEM_BLOCK_SIZE * (base + poolBlocks))
  large : ∀ {d}, d ∈ live → d.ptr + d.wantedSize ≤ (USB_MEM_BLOCK_SIZE * (d.head + d.count) : Nat)
  aligned : ∀ {d}, d ∈ live → d.boundary > BOUNDARY_WORD → d.boundary ∣ (d.ptr : Int)
  sizes : s.freeMemorySize.toNat + s.allocatedMemorySize.toNat = USB_MEMORY_POOL_SIZE
  cursor : CursorAt base live s.pCurrent
  freed : ∀ {addr b}, headerBlock base addr = some b → FreeBlock base live b →
    usbFree base s addr = s

/-- What happens to the heap: the two calls, and clients that write their data. -/
inductive HeapOp
  | malloc (wantedSize boundary : Int)
  | free (addr : Nat)
  | write (hdr : Nat → UsbMhdr)

/-- The data blocks that live after an allocation: the extent of the new one is in its header. -/
def liveAfter (base : Nat) (hdr : Nat → UsbMhdr) (wantedSize boundary : Int) :
    Option Nat → List DataBlock → List DataBlock
  | none, live => live
  | some ptr, live =>
    let head := (headerBlock base ptr).getD 0
    ⟨ptr, wantedSize, boundary, head, (hdr head).bcnt.toNat⟩ :: live

/-- A step, with the data blocks live before and after. A client may change what stands at the
blocks after the first of a live data block; what stands outside the pool is not the heap's. -/
def heapStep (base : Nat) (s : UsbHeap × List DataBlock) (op : HeapOp)
    (s' : UsbHeap × List DataBlock) : Prop :=
  match op with
  | .malloc wantedSize boundary =>
    0 < wantedSize ∧ ∃ fuel r, usbMalloc base fuel s.1 wantedSize boundary = some (r, s'.1) ∧
      s'.2 = liveAfter base s'.1.hdr wantedSize boundary r s.2
  | .free addr =>
    s' = (usbFree base s.1 addr, s.2.filter fun d => headerBlock base addr ≠ some d.head)
  | .write hdr =>
    s' = ({ s.1 with hdr := hdr }, s.2) ∧ ∀ b, base ≤ b → b < base + poolBlocks →
      (∀ d ∈ s.2, ¬ (d.head < b ∧ b < d.head + d.count)) → hdr b = s.1.hdr b

/-- A release is turned down, or it reads the header of a live data block. Else it reads words that look like a header
and are none: inside a live data block, or, for the pool's first address, below the pool. -/
def SafeHeapOp (base : Nat) (s : UsbHeap × List DataBlock) : HeapOp → Prop
  | .free addr => ∀ b, headerBlock base addr = some b → (s.1.hdr b).flag = 0#32 ∨
      (s.1.hdr b).magic ≠ USB_MEM_ALLOC_MAGIC ∨ ∃ d ∈ s.2, d.head = b
  | _ => True

instance (base : Nat) : DecidableRel (SafeHeapOp base)
  | s, .free addr => inferInstanceAs (Decidable (∀ b ∈ headerBlock base addr, (s.1.hdr b).flag = 0#32 ∨
      (s.1.hdr b).magic ≠ USB_MEM_ALLOC_MAGIC ∨ ∃ d ∈ s.2, d.head = b))
  | _, .malloc _ _ => isTrue trivial
  | _, .write _ => isTrue trivial

/-! ## What holds between the calls -/

/-- The address given out, in terms of the first block, and the size. -/
structure DataBlock.Placed (d : DataBlock) : Prop where
  wide : d.boundary > BOUNDARY_WORD →
    d.ptr = USB_MEM_BLOCK_SIZE * (d.head + 1) ∧ d.boundary ∣ (d.ptr : Int)
  narrow : ¬ d.boundary > BOUNDARY_WORD → d.ptr = USB_MEM_BLOCK_SIZE * d.head + sizeofMhdr
  large : d.ptr + d.wantedSize ≤ (USB_MEM_BLOCK_SIZE * (d.head + d.count) : Nat)
  wanted : 0 ≤ d.wantedSize

open Classical in
/-- The blocks of the pool in use. -/
noncomputable def coveredBlocks (base : Nat) (live : List DataBlock) : Finset Nat :=
  (Finset.Ico base (base + poolBlocks)).filter fun b => ∃ d ∈ live, d.Covers b

theorem mem_coveredBlocks {base : Nat} {live : List DataBlock} {b : Nat} :
    b ∈ coveredBlocks base live ↔
      (base ≤ b ∧ b < base + poolBlocks) ∧ ∃ d ∈ live, d.Covers b := by
  simp only [coveredBlocks, Finset.mem_filter, Finset.mem_Ico]

/-- The invariant. -/
structure HeapInv (base : Nat) (s : UsbHeap) (live : List DataBlock) : Prop where
  header : ∀ {d}, d ∈ live → s.hdr d.head = ⟨3#32, BitVec.ofNat 32 d.count, USB_MEM_ALLOC_MAGIC⟩
  inside : ∀ {d}, d ∈ live → base ≤ d.head ∧ d.head + d.count ≤ base + poolBlocks
  placed : ∀ {d}, d ∈ live → d.Placed
  disjoint : ∀ {d d' b}, d ∈ live → d' ∈ live → d.Covers b → d'.Covers b → d = d'
  nodup : live.Nodup
  unused : ∀ {b}, FreeBlock base live b → (s.hdr b).flag = 0#32
  freeSize : s.freeMemorySize.toNat + USB_MEM_BLOCK_SIZE * (coveredBlocks base live).card =
    USB_MEMORY_POOL_SIZE
  allocatedSize :
    s.allocatedMemorySize.toNat = USB_MEM_BLOCK_SIZE * (coveredBlocks base live).card
  cursor : CursorAt base live s.pCurrent

section

variable {base : Nat} {s : UsbHeap} {live : List DataBlock} {d d' : DataBlock} {b : Nat}

/-- The address given out lies in the blocks, behind the header. -/
theorem DataBlock.Placed.head_le (h : d.Placed) :
    128 * d.head < d.ptr ∧ d.ptr ≤ 128 * (d.head + d.count) := by
  have hlarge : (d.ptr : Int) + d.wantedSize ≤ (128 * (d.head + d.count) : Nat) := h.large
  have hwanted := h.wanted
  by_cases hb : d.boundary > BOUNDARY_WORD
  · have hptr : d.ptr = 128 * (d.head + 1) := (h.wide hb).1
    omega
  · have hptr : d.ptr = 128 * d.head + 16 := h.narrow hb
    omega

theorem DataBlock.Placed.count_pos (h : d.Placed) : 0 < d.count := by
  have hptr := h.head_le
  omega

theorem DataBlock.Placed.covers_head (h : d.Placed) : d.Covers d.head :=
  ⟨le_rfl, Nat.lt_add_of_pos_right h.count_pos⟩

/-- The pointer given out names the block it was given out for. -/
theorem DataBlock.Placed.headerBlock (h : d.Placed) (hlo : base ≤ d.head)
    (hend : base + poolBlocks < 2 ^ 25)
    (hin : d.ptr < USB_MEM_BLOCK_SIZE * (base + poolBlocks)) :
    headerBlock base d.ptr = some d.head := by
  have hptr := h.head_le
  simp only [UsbHost.headerBlock, poolBlocks, USB_MEMORY_POOL_SIZE, USB_MEM_BLOCK_SIZE,
    sizeofMhdr] at hend hin ⊢
  by_cases hb : d.boundary > BOUNDARY_WORD
  · have hwide : d.ptr = 128 * (d.head + 1) := (h.wide hb).1
    rw [if_neg (by omega), if_pos (by omega)]
    exact congrArg some (by omega)
  · have hnarrow : d.ptr = 128 * d.head + 16 := h.narrow hb
    rw [if_neg (by omega), if_neg (by omega), if_neg (by omega)]
    exact congrArg some (by omega)

/-- The addresses of the data lie in the blocks. -/
theorem DataBlock.Placed.covers_of_mem (h : d.Placed) {a : Nat} (ha : a ∈ d.data) :
    d.Covers (a / USB_MEM_BLOCK_SIZE) := by
  have hlo : d.ptr ≤ a := ha.1
  have hhi : a < 128 * (d.head + d.count) := ha.2
  have hptr := h.head_le
  simp only [DataBlock.Covers, USB_MEM_BLOCK_SIZE]
  omega

theorem HeapInv.right (h : HeapInv base s live) : HeapRight base s live where
  disjoint := by
    refine h.nodup.pairwise_of_forall_ne fun d hd d' hd' hne => ?_
    rw [Set.disjoint_left]
    intro a ha ha'
    exact hne (h.disjoint hd hd' ((h.placed hd).covers_of_mem ha)
      ((h.placed hd').covers_of_mem ha'))
  inside := by
    intro d hd
    have hin := h.inside hd
    have hptr := (h.placed hd).head_le
    refine ⟨?_, ?_⟩
    · have hlo : 128 * base ≤ d.ptr := by omega
      exact hlo
    · intro a ha
      exact lt_of_lt_of_le ha.2 (Nat.mul_le_mul_left _ hin.2)
  large hd := (h.placed hd).large
  aligned hd hb := ((h.placed hd).wide hb).2
  sizes := by
    rw [h.allocatedSize]
    exact h.freeSize
  cursor := h.cursor
  freed := by
    intro addr b hb hfree
    rw [usbFree, hb]
    exact if_pos (h.unused hfree)

/-- The invariant speaks of headers only at free blocks and at the first blocks of live ones. -/
theorem HeapInv.congr (h : HeapInv base s live) {hdr : Nat → UsbMhdr}
    (hkeep : ∀ b, base ≤ b → b < base + poolBlocks →
      (∀ d ∈ live, ¬ (d.head < b ∧ b < d.head + d.count)) → hdr b = s.hdr b) :
    HeapInv base { s with hdr := hdr } live where
  header := by
    intro d hd
    have hin := h.inside hd
    have hpos := (h.placed hd).count_pos
    have hself : hdr d.head = s.hdr d.head := by
      refine hkeep d.head hin.1 (lt_of_lt_of_le (Nat.lt_add_of_pos_right hpos) hin.2) ?_
      rintro d' hd' ⟨hlt, hlt'⟩
      have heq := h.disjoint hd hd' (h.placed hd).covers_head ⟨hlt.le, hlt'⟩
      subst heq
      exact lt_irrefl _ hlt
    exact hself.trans (h.header hd)
  inside := h.inside
  placed := h.placed
  disjoint := h.disjoint
  nodup := h.nodup
  unused := by
    intro b hb
    have hself : hdr b = s.hdr b :=
      hkeep b hb.1 hb.2.1 fun d hd hin => hb.2.2 d hd ⟨hin.1.le, hin.2⟩
    exact (congrArg UsbMhdr.flag hself).trans (h.unused hb)
  freeSize := h.freeSize
  allocatedSize := h.allocatedSize
  cursor := h.cursor

/-- The invariant lets the cursor move. -/
theorem HeapInv.move (h : HeapInv base s live) (hb : CursorAt base live b) :
    HeapInv base { s with pCurrent := b } live where
  header := h.header
  inside := h.inside
  placed := h.placed
  disjoint := h.disjoint
  nodup := h.nodup
  unused := h.unused
  freeSize := h.freeSize
  allocatedSize := h.allocatedSize
  cursor := hb

/-- Behind a block that is free or the last of its data block the cursor may stand. -/
theorem CursorAt.next (hlo : base ≤ b) (hhi : b < base + poolBlocks)
    (hlast : ∀ d ∈ live, d.Covers b → b + 1 = d.head + d.count) : CursorAt base live (b + 1) := by
  by_cases hend : b + 1 = base + poolBlocks
  · exact .inl hend
  · refine .inr ?_
    by_cases hc : ∃ d ∈ live, d.Covers (b + 1)
    · obtain ⟨d, hd, hfirst, hin⟩ := hc
      refine .inr ⟨d, hd, ?_⟩
      by_contra hne
      have hcov : d.Covers b := ⟨by omega, by omega⟩
      have := hlast d hd hcov
      omega
    · refine .inl ⟨by omega, by omega, ?_⟩
      intro d hd hcov
      exact hc ⟨d, hd, hcov⟩

theorem HeapInv.cursor_end (h : HeapInv base s live) (hd : d ∈ live) :
    CursorAt base live (d.head + d.count) := by
  have hin := h.inside hd
  have hpos := (h.placed hd).count_pos
  have heq : d.head + d.count = d.head + d.count - 1 + 1 := by omega
  rw [heq]
  refine CursorAt.next (by omega) (by omega) ?_
  intro d' hd' hcov
  have hself : d' = d := h.disjoint hd' hd hcov ⟨by omega, by omega⟩
  rw [hself]
  omega

/-! ## The blocks in use, and the headers -/

theorem coveredBlocks_cons (hlo : base ≤ d.head) (hhi : d.head + d.count ≤ base + poolBlocks) :
    coveredBlocks base (d :: live) =
      coveredBlocks base live ∪ Finset.Ico d.head (d.head + d.count) := by
  ext b
  rw [Finset.mem_union, mem_coveredBlocks, mem_coveredBlocks, Finset.mem_Ico]
  simp only [List.mem_cons, exists_eq_or_imp]
  constructor
  · rintro ⟨hb, hself | hother⟩
    · exact .inr hself
    · exact .inl ⟨hb, hother⟩
  · rintro (⟨hb, hother⟩ | hself)
    · exact ⟨hb, .inr hother⟩
    · exact ⟨⟨hlo.trans hself.1, lt_of_lt_of_le hself.2 hhi⟩, .inl hself⟩

theorem coveredBlocks_congr {live' : List DataBlock} (h : ∀ d, d ∈ live ↔ d ∈ live') :
    coveredBlocks base live = coveredBlocks base live' := by
  ext b
  rw [mem_coveredBlocks, mem_coveredBlocks]
  simp only [h]

theorem card_coveredBlocks_cons (hlo : base ≤ d.head)
    (hhi : d.head + d.count ≤ base + poolBlocks)
    (hnew : ∀ d' ∈ live, ∀ b, d.Covers b → ¬ d'.Covers b) :
    (coveredBlocks base (d :: live)).card = (coveredBlocks base live).card + d.count := by
  have hdisj : Disjoint (coveredBlocks base live) (Finset.Ico d.head (d.head + d.count)) := by
    rw [Finset.disjoint_left]
    intro b hb hin
    obtain ⟨-, d', hd', hcov⟩ := mem_coveredBlocks.1 hb
    exact hnew d' hd' b (Finset.mem_Ico.1 hin) hcov
  rw [coveredBlocks_cons hlo hhi, Finset.card_union_of_disjoint hdisj, Nat.card_Ico,
    Nat.add_sub_cancel_left]

theorem addBlock_eq {n : Nat} (h : b + n < 2 ^ 25) : addBlock b n = b + n :=
  Nat.mod_eq_of_lt h

theorem setFlags_apply (hdr : Nat → UsbMhdr) (flag : BitVec 32) (b b' : Nat) :
    ∀ {n : Nat}, b + n < 2 ^ 25 → setFlags hdr flag b n b' =
      if b ≤ b' ∧ b' < b + n then { hdr b' with flag := flag } else hdr b'
  | 0, _ => by
    rw [if_neg (by omega)]
    rfl
  | n + 1, hn => by
    have ih : ∀ b', setFlags hdr flag b n b' =
        if b ≤ b' ∧ b' < b + n then { hdr b' with flag := flag } else hdr b' :=
      fun b' => setFlags_apply hdr flag b b' (by omega)
    rw [setFlags, setFlag, addBlock_eq (by omega)]
    by_cases hb : b' = b + n
    · subst hb
      rw [if_pos rfl, ih, if_neg (by omega), if_pos (by omega)]
    · rw [if_neg hb, ih]
      by_cases hin : b ≤ b' ∧ b' < b + n
      · rw [if_pos hin, if_pos (by omega)]
      · rw [if_neg hin, if_neg (by omega)]

theorem toNat_blockBytes {n : Nat} (h : n ≤ 256) :
    (BitVec.ofNat 32 (n * USB_MEM_BLOCK_SIZE)).toNat = 128 * n := by
  have hmul : n * USB_MEM_BLOCK_SIZE = 128 * n := Nat.mul_comm _ _
  rw [hmul, BitVec.toNat_ofNat]
  exact Nat.mod_eq_of_lt (by omega)

/-- A data block more. -/
theorem HeapInv.addBlock (h : HeapInv base s live) (hplaced : d.Placed) (hlo : base ≤ d.head)
    (hhi : d.head + d.count ≤ base + poolBlocks)
    (hnew : ∀ b, d.Covers b → FreeBlock base live b) {s' : UsbHeap}
    (hhead : s'.hdr d.head = ⟨3#32, BitVec.ofNat 32 d.count, USB_MEM_ALLOC_MAGIC⟩)
    (hother : ∀ b, ¬ d.Covers b → s'.hdr b = s.hdr b)
    (hfree : s'.freeMemorySize = s.freeMemorySize - BitVec.ofNat 32 (d.count * USB_MEM_BLOCK_SIZE))
    (halloc : s'.allocatedMemorySize =
      s.allocatedMemorySize + BitVec.ofNat 32 (d.count * USB_MEM_BLOCK_SIZE))
    (hcur : s'.pCurrent = d.head + d.count) : HeapInv base s' (d :: live) := by
  have hcard := card_coveredBlocks_cons hlo hhi
    fun d' hd' b hb hb' => (hnew b hb).2.2 d' hd' hb'
  have hle : (coveredBlocks base (d :: live)).card ≤ 256 := by
    refine (Finset.card_le_card (t := Finset.Ico base (base + 256)) ?_).trans ?_
    · intro b hb
      exact Finset.mem_Ico.2 (mem_coveredBlocks.1 hb).1
    · rw [Nat.card_Ico, Nat.add_sub_cancel_left]
  have hfreeSize : s.freeMemorySize.toNat + 128 * (coveredBlocks base live).card = 32768 :=
    h.freeSize
  have hallocSize : s.allocatedMemorySize.toNat = 128 * (coveredBlocks base live).card :=
    h.allocatedSize
  have hsize := toNat_blockBytes (n := d.count) (by omega)
  have hold : ∀ {d'}, d' ∈ live → s'.hdr d'.head = s.hdr d'.head := by
    intro d' hd'
    refine hother _ fun hcov => ?_
    exact (hnew _ hcov).2.2 d' hd' (h.placed hd').covers_head
  refine ⟨?_, ?_, ?_, ?_, ?_, ?_, ?_, ?_, ?_⟩
  · intro d' hd'
    rcases List.mem_cons.1 hd' with rfl | hd'
    · exact hhead
    · exact (hold hd').trans (h.header hd')
  · intro d' hd'
    rcases List.mem_cons.1 hd' with rfl | hd'
    · exact ⟨hlo, hhi⟩
    · exact h.inside hd'
  · intro d' hd'
    rcases List.mem_cons.1 hd' with rfl | hd'
    · exact hplaced
    · exact h.placed hd'
  · intro d₁ d₂ b hd₁ hd₂ hb₁ hb₂
    rcases List.mem_cons.1 hd₁ with rfl | h₁ <;> rcases List.mem_cons.1 hd₂ with rfl | h₂
    · rfl
    · exact absurd hb₂ ((hnew b hb₁).2.2 d₂ h₂)
    · exact absurd hb₁ ((hnew b hb₂).2.2 d₁ h₁)
    · exact h.disjoint h₁ h₂ hb₁ hb₂
  · refine List.nodup_cons.2 ⟨fun hd => ?_, h.nodup⟩
    exact (hnew _ hplaced.covers_head).2.2 d hd hplaced.covers_head
  · rintro b ⟨hb, hb', hnone⟩
    rw [hother b (hnone d List.mem_cons_self)]
    exact h.unused ⟨hb, hb', fun d' hd' => hnone d' (List.mem_cons_of_mem _ hd')⟩
  · change _ + 128 * _ = 32768
    rw [hcard, hfree, BitVec.toNat_sub, hsize]
    omega
  · change _ = 128 * _
    rw [hcard, halloc, BitVec.toNat_add, hsize]
    omega
  · rw [hcur]
    have hpos := hplaced.count_pos
    have heq : d.head + d.count = d.head + d.count - 1 + 1 := by omega
    rw [heq]
    refine CursorAt.next (by omega) (by omega) fun d' hd' hcov => ?_
    rcases List.mem_cons.1 hd' with rfl | hd'
    · omega
    · exact absurd hcov ((hnew _ ⟨by omega, by omega⟩).2.2 d' hd')

/-- A data block less. -/
theorem HeapInv.removeBlock (h : HeapInv base s live) (hd : d ∈ live) {s' : UsbHeap}
    (hin : ∀ b, d.Covers b → (s'.hdr b).flag = 0#32)
    (hother : ∀ b, ¬ d.Covers b → s'.hdr b = s.hdr b)
    (hfree : s'.freeMemorySize = s.freeMemorySize + BitVec.ofNat 32 (d.count * USB_MEM_BLOCK_SIZE))
    (halloc : s'.allocatedMemorySize =
      s.allocatedMemorySize - BitVec.ofNat 32 (d.count * USB_MEM_BLOCK_SIZE))
    (hcur : s'.pCurrent = s.pCurrent) {live' : List DataBlock} (hnodup : live'.Nodup)
    (hlive : ∀ d', d' ∈ live' ↔ d' ∈ live ∧ d' ≠ d) : HeapInv base s' live' := by
  have hinside := h.inside hd
  have hold : ∀ {d'}, d' ∈ live' → d' ∈ live := fun hd' => ((hlive _).1 hd').1
  have hapart : ∀ d' ∈ live', ∀ b, d.Covers b → ¬ d'.Covers b := by
    intro d' hd' b hb hb'
    exact ((hlive d').1 hd').2 (h.disjoint (hold hd') hd hb' hb)
  have hcard := card_coveredBlocks_cons hinside.1 hinside.2 hapart
  have hsame : coveredBlocks base (d :: live') = coveredBlocks base live := by
    refine coveredBlocks_congr fun d' => ?_
    rw [List.mem_cons, hlive]
    constructor
    · rintro (rfl | hd')
      · exact hd
      · exact hd'.1
    · intro hd'
      exact or_iff_not_imp_left.2 fun hne => ⟨hd', hne⟩
  rw [hsame] at hcard
  have hfreeSize : s.freeMemorySize.toNat + 128 * (coveredBlocks base live).card = 32768 :=
    h.freeSize
  have hallocSize : s.allocatedMemorySize.toNat = 128 * (coveredBlocks base live).card :=
    h.allocatedSize
  have hsize := toNat_blockBytes (n := d.count) (by omega)
  refine ⟨?_, fun hd' => h.inside (hold hd'), fun hd' => h.placed (hold hd'),
    fun h₁ h₂ => h.disjoint (hold h₁) (hold h₂), hnodup, ?_, ?_, ?_, ?_⟩
  · intro d' hd'
    rw [hother _ fun hcov => hapart d' hd' _ hcov (h.placed (hold hd')).covers_head]
    exact h.header (hold hd')
  · rintro b ⟨hb, hb', hnone⟩
    by_cases hcov : d.Covers b
    · exact hin b hcov
    · rw [hother b hcov]
      refine h.unused ⟨hb, hb', fun d' hd' hcov' => ?_⟩
      by_cases hself : d' = d
      · exact hcov (hself ▸ hcov')
      · exact hnone d' ((hlive d').2 ⟨hd', hself⟩) hcov'
  · change _ + 128 * _ = 32768
    rw [hfree, BitVec.toNat_add, hsize]
    omega
  · change _ = 128 * _
    rw [halloc, BitVec.toNat_sub, hsize]
    omega
  · rw [hcur]
    rcases h.cursor with hend | ⟨hb, hb', hnone⟩ | ⟨d', hd', hhead⟩
    · exact .inl hend
    · exact .inr (.inl ⟨hb, hb', fun d' hd' => hnone d' (hold hd')⟩)
    · by_cases hself : d' = d
      · subst hself
        refine .inr (.inl ⟨by omega, ?_, fun d₁ hd₁ hcov => ?_⟩)
        · have hpos := (h.placed hd').count_pos
          omega
        · rw [← hhead] at hcov
          exact hapart d₁ hd₁ _ (h.placed hd').covers_head hcov
      · exact .inr (.inr ⟨d', (hlive d').2 ⟨hd', hself⟩, hhead⟩)

/-! ## The search -/

/-- A run of free blocks, up to a block, in the local variables of the search. -/
structure FoundRun (base : Nat) (live : List DataBlock) (boundary : Int) (l : Search) (stop : Nat) :
    Prop where
  atStop : l.pFound + l.blockCount = stop
  free : ∀ b, l.pFound ≤ b → b < stop → FreeBlock base live b
  pos : 0 < l.blockCount
  wide : boundary > BOUNDARY_WORD → l.foundSize = 128 * l.blockCount - 128 ∧
    boundary ∣ (USB_MEM_BLOCK_SIZE * (l.pFound + 1) : Nat) ∧ l.pFound + 1 < base + poolBlocks
  narrow : ¬ boundary > BOUNDARY_WORD → l.foundSize = 128 * l.blockCount - 16

/-- What each round of the search keeps. -/
structure SearchInv (base : Nat) (live : List DataBlock) (boundary : Int) (l : Search) : Prop where
  lo : base ≤ l.pCurrent
  hi : l.pCurrent < base + poolBlocks
  cursor : CursorAt base live l.pCurrent
  run : l.foundSize = -1 ∨ FoundRun base live boundary l l.pCurrent

variable {wantedSize boundary : Int} {l l' : Search}

theorem growRun_pCurrent : (growRun base boundary l).pCurrent = l.pCurrent := by
  rw [growRun]
  split
  · rfl
  · rfl

/-- A free block added to a run gives a run, unless the run cannot begin there. -/
theorem SearchInv.grow (h : SearchInv base live boundary l)
    (hfree : FreeBlock base live l.pCurrent) :
    (growRun base boundary l).foundSize = -1 ∨
      FoundRun base live boundary (growRun base boundary l) (l.pCurrent + 1) := by
  rw [growRun]
  split
  · rename_i hnone
    by_cases hb : boundary > BOUNDARY_WORD
    · by_cases hbad : l.pCurrent + 1 ≥ base + poolBlocks ∨
          (USB_MEM_BLOCK_SIZE * (l.pCurrent + 1)) % boundary.toNat ≠ 0
      · refine .inl ?_
        rw [if_pos hb, if_pos hbad]
      · refine .inr ⟨rfl, ?_, Nat.one_pos, fun _ => ⟨?_, ?_⟩, fun hn => absurd hb hn⟩
        · intro b hlo hhi
          have heq : b = l.pCurrent := by
            change l.pCurrent ≤ b at hlo
            omega
          rw [heq]
          exact hfree
        · rw [if_pos hb, if_neg hbad]
          change (0 : Int) = 128 * ((1 : Nat) : Int) - 128
          omega
        · have hmod : (USB_MEM_BLOCK_SIZE * (l.pCurrent + 1)) % boundary.toNat = 0 :=
            not_not.1 fun hne => hbad (.inr hne)
          have hpos : 4 < boundary := hb
          have hcast : (boundary.toNat : Int) = boundary := Int.toNat_of_nonneg (by omega)
          rw [← hcast]
          exact ⟨Int.natCast_dvd_natCast.2 (Nat.dvd_of_mod_eq_zero hmod),
            not_le.1 fun hle => hbad (.inl hle)⟩
    · refine .inr ⟨rfl, ?_, Nat.one_pos, fun hn => absurd hn hb, fun _ => ?_⟩
      · intro b hlo hhi
        have heq : b = l.pCurrent := by
          change l.pCurrent ≤ b at hlo
          omega
        rw [heq]
        exact hfree
      · rw [if_neg hb]
        change ((128 - 16 : Nat) : Int) = 128 * ((1 : Nat) : Int) - 16
        omega
  · rename_i hsome
    have hrun := h.run.resolve_left hsome
    have hstop := hrun.atStop
    refine .inr ⟨?_, ?_, Nat.succ_pos _, fun hb => ⟨?_, (hrun.wide hb).2⟩, fun hb => ?_⟩
    · change l.pFound + (l.blockCount + 1) = _
      omega
    · intro b hlo hhi
      by_cases heq : b = l.pCurrent
      · rw [heq]
        exact hfree
      · exact hrun.free b hlo (by omega)
    · have hsize := (hrun.wide hb).1
      change l.foundSize + 128 = 128 * ((l.blockCount + 1 : Nat) : Int) - 128
      omega
    · have hsize := hrun.narrow hb
      change l.foundSize + 128 = 128 * ((l.blockCount + 1 : Nat) : Int) - 16
      omega

/-- The cursor may go back to the begin of the pool. -/
theorem HeapInv.cursor_base (h : HeapInv base s live) : CursorAt base live base := by
  by_cases hc : ∃ d ∈ live, d.Covers base
  · obtain ⟨d, hd, hcov⟩ := hc
    exact .inr (.inr ⟨d, hd, le_antisymm hcov.1 (h.inside hd).1⟩)
  · refine .inr (.inl ⟨le_rfl, Nat.lt_add_of_pos_right (by decide), ?_⟩)
    intro d hd hcov
    exact hc ⟨d, hd, hcov⟩

/-- A round at a free block. -/
theorem searchRound_free (h : HeapInv base s live) (hend : base + poolBlocks < 2 ^ 25)
    (hl : SearchInv base live boundary l) (hfree : FreeBlock base live l.pCurrent)
    (hwanted : 0 ≤ wantedSize) :
    (∃ l', searchRound base s.hdr wantedSize boundary l = .next l' ∧
      SearchInv base live boundary l') ∨
    ∃ l', searchRound base s.hdr wantedSize boundary l = .found l' ∧
      FoundRun base live boundary l' (l.pCurrent + 1) ∧ wantedSize ≤ l'.foundSize := by
  have hhi := hl.hi
  have hgrow := hl.grow hfree
  have hadd : addBlock (growRun base boundary l).pCurrent 1 = l.pCurrent + 1 := by
    rw [growRun_pCurrent]
    exact addBlock_eq (by omega)
  rw [searchRound, if_neg (not_not.2 (h.unused hfree))]
  by_cases hsize : (growRun base boundary l).foundSize ≥ wantedSize
  · refine .inr ⟨_, if_pos hsize, hgrow.resolve_left ?_, hsize⟩
    omega
  · refine .inl ⟨_, if_neg hsize, ?_⟩
    rw [hadd, wrapAtEnd]
    by_cases hstop : l.pCurrent + 1 ≥ base + poolBlocks
    · rw [if_pos hstop]
      exact ⟨le_rfl, Nat.lt_add_of_pos_right (by decide), h.cursor_base, .inl rfl⟩
    · rw [if_neg hstop]
      refine ⟨hl.lo.trans (Nat.le_succ _), not_le.1 hstop, ?_, ?_⟩
      · exact CursorAt.next hl.lo hhi fun d hd hcov => absurd hcov (hfree.2.2 d hd)
      · exact hgrow.imp_right fun hr => ⟨hr.atStop, hr.free, hr.pos, hr.wide, hr.narrow⟩

/-- A round at the head of a live data block. -/
theorem searchRound_live (h : HeapInv base s live) (hend : base + poolBlocks < 2 ^ 25)
    (hd : d ∈ live) (hhead : d.head = l.pCurrent) :
    ∃ l', searchRound base s.hdr wantedSize boundary l = .next l' ∧
      SearchInv base live boundary l' := by
  have hin := h.inside hd
  have hpos := (h.placed hd).count_pos
  have hcount : (BitVec.ofNat 32 d.count).toNat = d.count := by
    rw [BitVec.toNat_ofNat]
    exact Nat.mod_eq_of_lt (by omega)
  have hadd : addBlock d.head d.count = d.head + d.count := addBlock_eq (by omega)
  rw [searchRound, ← hhead, h.header hd]
  refine ⟨_, rfl, ?_⟩
  simp only [if_true, hcount, hadd]
  by_cases hstop : d.head + d.count = base + poolBlocks
  · rw [if_pos hstop]
    exact ⟨le_rfl, Nat.lt_add_of_pos_right (by decide), h.cursor_base, .inl rfl⟩
  · rw [if_neg hstop]
    exact ⟨hin.1.trans (Nat.le_add_right _ _), lt_of_le_of_ne hin.2 hstop, h.cursor_end hd, .inl rfl⟩

/-- What a round of the search comes to. -/
theorem searchRound_spec (h : HeapInv base s live) (hend : base + poolBlocks < 2 ^ 25)
    (hl : SearchInv base live boundary l) (hwanted : 0 ≤ wantedSize) :
    (∃ l', searchRound base s.hdr wantedSize boundary l = .next l' ∧
      SearchInv base live boundary l') ∨
    ∃ l', searchRound base s.hdr wantedSize boundary l = .found l' ∧
      FoundRun base live boundary l' (l.pCurrent + 1) ∧ wantedSize ≤ l'.foundSize := by
  rcases hl.cursor with hstop | hfree | ⟨d, hd, hhead⟩
  · exact absurd hstop hl.hi.ne
  · exact searchRound_free h hend hl hfree hwanted
  · exact .inl (searchRound_live h hend hd hhead)

/-- What the search comes to, if it ends: the cursor moved, or a run of free blocks that is long
enough handed out. -/
theorem searchLoop_spec (h : HeapInv base s live) (hend : base + poolBlocks < 2 ^ 25)
    (hwanted : 0 ≤ wantedSize) {pos : Nat} {r : Option Nat × UsbHeap} :
    ∀ {fuel : Nat} {l : Search}, SearchInv base live boundary l →
      searchLoop base s wantedSize boundary pos fuel l = some r →
      (∃ b, CursorAt base live b ∧ r = (none, { s with pCurrent := b })) ∨
      ∃ l' stop, FoundRun base live boundary l' stop ∧ wantedSize ≤ l'.foundSize ∧
        r = (some (dataAddr boundary l'), allocateRun s l')
  | 0, _, _, hr => nomatch hr
  | fuel + 1, l, hl, hr => by
    rw [searchLoop] at hr
    rcases searchRound_spec h hend hl hwanted with ⟨l', hround, hl'⟩ | ⟨l', hround, hrun, hsize⟩
    · rw [hround] at hr
      by_cases hgo : l'.wrap = false ∨ l'.pCurrent < pos
      · exact searchLoop_spec h hend hwanted hl' ((if_pos hgo).symm.trans hr)
      · have heq := (if_neg hgo).symm.trans hr
        exact .inl ⟨l'.pCurrent, hl'.cursor, (Option.some.inj heq).symm⟩
    · rw [hround] at hr
      exact .inr ⟨l', _, hrun, hsize, (Option.some.inj hr).symm⟩

/-! ## The two calls -/

theorem allocateRun_hdr (hstop : l.pFound + l.blockCount < 2 ^ 25) (hpos : 0 < l.blockCount) :
    (allocateRun s l).hdr b =
      if b = l.pFound then ⟨3#32, BitVec.ofNat 32 l.blockCount, USB_MEM_ALLOC_MAGIC⟩
      else if l.pFound ≤ b ∧ b < l.pFound + l.blockCount then { s.hdr b with flag := 1#32 }
      else s.hdr b := by
  rw [allocateRun]
  simp only [setFlag]
  by_cases hb : b = l.pFound
  · rw [if_pos hb, if_pos hb, setFlags_apply _ _ _ _ hstop, if_pos (by omega), if_pos rfl]
  · rw [if_neg hb, if_neg hb, setFlags_apply _ _ _ _ hstop, if_neg hb]

/-- The data block a found run becomes. -/
def foundBlock (wantedSize boundary : Int) (l : Search) : DataBlock :=
  ⟨dataAddr boundary l, wantedSize, boundary, l.pFound, l.blockCount⟩

theorem FoundRun.placed {stop : Nat} (h : FoundRun base live boundary l stop)
    (hwanted : 0 ≤ wantedSize) (hsize : wantedSize ≤ l.foundSize) :
    (foundBlock wantedSize boundary l).Placed := by
  by_cases hb : boundary > BOUNDARY_WORD
  · have haddr : dataAddr boundary l = 128 * (l.pFound + 1) := if_pos hb
    have hfound := (h.wide hb).1
    refine ⟨fun _ => ⟨haddr, ?_⟩, fun hn => absurd hb hn, ?_, hwanted⟩
    · change boundary ∣ ((dataAddr boundary l : Nat) : Int)
      rw [haddr]
      exact (h.wide hb).2.1
    · change ((dataAddr boundary l : Nat) : Int) + wantedSize ≤ (128 * (l.pFound + l.blockCount) : Nat)
      rw [haddr]
      omega
  · have haddr : dataAddr boundary l = 128 * l.pFound + 16 := if_neg hb
    have hfound := h.narrow hb
    refine ⟨fun hn => absurd hn hb, fun _ => haddr, ?_, hwanted⟩
    change ((dataAddr boundary l : Nat) : Int) + wantedSize ≤ (128 * (l.pFound + l.blockCount) : Nat)
    rw [haddr]
    omega

/-- The address given out lies in the pool. -/
theorem FoundRun.dataAddr_lt {stop : Nat} (h : FoundRun base live boundary l stop) :
    dataAddr boundary l < USB_MEM_BLOCK_SIZE * (base + poolBlocks) := by
  have hstop := h.atStop
  have hpos := h.pos
  by_cases hb : boundary > BOUNDARY_WORD
  · have haddr : dataAddr boundary l = 128 * (l.pFound + 1) := if_pos hb
    have hlt := (h.wide hb).2.2
    rw [haddr]
    change _ < 128 * (base + poolBlocks)
    omega
  · have haddr : dataAddr boundary l = 128 * l.pFound + 16 := if_neg hb
    have hfirst := (h.free l.pFound le_rfl (by omega)).2.1
    rw [haddr]
    change _ < 128 * (base + poolBlocks)
    omega

/-- The blocks handed out are a live data block. -/
theorem HeapInv.allocate (h : HeapInv base s live) (hend : base + poolBlocks < 2 ^ 25) {stop : Nat}
    (hrun : FoundRun base live boundary l stop) (hwanted : 0 ≤ wantedSize)
    (hsize : wantedSize ≤ l.foundSize) :
    HeapInv base (allocateRun s l) (foundBlock wantedSize boundary l :: live) := by
  have hstop := hrun.atStop
  have hpos := hrun.pos
  have hfirst := hrun.free l.pFound le_rfl (by omega)
  have hlast := hrun.free (stop - 1) (by omega) (by omega)
  have hhi : l.pFound + l.blockCount ≤ base + poolBlocks := by
    have := hlast.2.1
    omega
  have hhdr := fun b => allocateRun_hdr (s := s) (b := b) (lt_of_le_of_lt hhi hend) hpos
  refine h.addBlock (hrun.placed hwanted hsize) hfirst.1 hhi ?_ ?_ ?_ rfl rfl ?_
  · intro b hb
    exact hrun.free b hb.1 (hstop ▸ hb.2)
  · exact (hhdr _).trans (if_pos rfl)
  · intro b hb
    have hne : b ≠ l.pFound := by
      rintro rfl
      exact hb ⟨le_rfl, Nat.lt_add_of_pos_right hpos⟩
    rw [hhdr, if_neg hne]
    exact if_neg hb
  · exact addBlock_eq (lt_of_le_of_lt hhi hend)

/-- What `USB_malloc` comes to, if it returns. -/
theorem usbMalloc_spec (h : HeapInv base s live) (hend : base + poolBlocks < 2 ^ 25)
    (hwanted : 0 ≤ wantedSize) {fuel : Nat} {r : Option Nat × UsbHeap}
    (hr : usbMalloc base fuel s wantedSize boundary = some r) :
    (∃ b, CursorAt base live b ∧ r = (none, { s with pCurrent := b })) ∨
      ∃ l' stop, FoundRun base live boundary l' stop ∧ wantedSize ≤ l'.foundSize ∧
        r = (some (dataAddr boundary l'), allocateRun s l') := by
  rw [usbMalloc] at hr
  by_cases hfull : (BitVec.ofInt 32 wantedSize).toNat ≥ s.freeMemorySize.toNat
  · have heq := (if_pos hfull).symm.trans hr
    exact .inl ⟨s.pCurrent, h.cursor, (Option.some.inj heq).symm⟩
  · refine searchLoop_spec h hend hwanted ?_ ((if_neg hfull).symm.trans hr)
    have hcursor := h.cursor
    by_cases hstop : s.pCurrent ≥ base + poolBlocks
    · simp only [if_pos hstop]
      exact ⟨le_rfl, Nat.lt_add_of_pos_right (by decide), h.cursor_base, .inl rfl⟩
    · simp only [if_neg hstop]
      refine ⟨?_, not_le.1 hstop, hcursor, .inl rfl⟩
      rcases hcursor with heq | hfree | ⟨d, hd, hhead⟩
      · exact absurd heq.ge hstop
      · exact hfree.1
      · exact hhead ▸ (h.inside hd).1

theorem HeapInv.malloc (h : HeapInv base s live) (hend : base + poolBlocks < 2 ^ 25)
    (hwanted : 0 ≤ wantedSize) {fuel : Nat} {r : Option Nat} {s' : UsbHeap}
    (hr : usbMalloc base fuel s wantedSize boundary = some (r, s')) :
    HeapInv base s' (liveAfter base s'.hdr wantedSize boundary r live) := by
  rcases usbMalloc_spec h hend hwanted hr with ⟨b, hb, heq⟩ | ⟨l, stop, hrun, hsize, heq⟩
  · obtain ⟨rfl, rfl⟩ := Prod.mk.inj heq
    exact h.move hb
  · obtain ⟨rfl, rfl⟩ := Prod.mk.inj heq
    have hnew := h.allocate hend hrun hwanted hsize
    have hin := hnew.inside List.mem_cons_self
    have hhead : headerBlock base (dataAddr boundary l) = some l.pFound :=
      (hrun.placed hwanted hsize).headerBlock hin.1 hend hrun.dataAddr_lt
    have hhdr : (allocateRun s l).hdr l.pFound = _ := hnew.header List.mem_cons_self
    have hhi : l.pFound + l.blockCount ≤ base + poolBlocks := hin.2
    have hcount : ((allocateRun s l).hdr l.pFound).bcnt.toNat = l.blockCount := by
      rw [hhdr, BitVec.toNat_ofNat]
      exact Nat.mod_eq_of_lt (by omega : l.blockCount < 2 ^ 32)
    simp only [liveAfter, hhead, Option.getD_some, hcount]
    exact hnew

theorem HeapInv.free (h : HeapInv base s live) (hend : base + poolBlocks < 2 ^ 25) {addr : Nat}
    (hsafe : SafeHeapOp base (s, live) (.free addr)) :
    HeapInv base (usbFree base s addr)
      (live.filter fun d => headerBlock base addr ≠ some d.head) := by
  -- a release that changes nothing names no live data block
  have hkeep : (∀ d ∈ live, headerBlock base addr ≠ some d.head) → usbFree base s addr = s →
      HeapInv base (usbFree base s addr)
        (live.filter fun d => headerBlock base addr ≠ some d.head) := by
    intro hne heq
    have hall : (live.filter fun d => headerBlock base addr ≠ some d.head) = live :=
      List.filter_eq_self.2 fun d hd => decide_eq_true (hne d hd)
    rw [hall, heq]
    exact h
  cases hblock : headerBlock base addr with
  | none =>
    rw [hblock] at hkeep
    refine hkeep (fun d _ hd => nomatch hd) ?_
    rw [usbFree, hblock]
  | some b =>
    have hnamed : ∀ d ∈ live, some b = some d.head → s.hdr b =
        ⟨3#32, BitVec.ofNat 32 d.count, USB_MEM_ALLOC_MAGIC⟩ := by
      intro d hd heq
      rw [Option.some.inj heq]
      exact h.header hd
    rw [hblock] at hkeep
    rcases hsafe b hblock with hflag | hmagic | ⟨d, hd, rfl⟩
    · refine hkeep (fun d hd heq => ?_) ?_
      · rw [hnamed d hd heq] at hflag
        have hzero : (3#32 : BitVec 32) = 0#32 := hflag
        exact absurd hzero (by decide)
      · rw [usbFree, hblock]
        exact if_pos hflag
    · refine hkeep (fun d hd heq => ?_) ?_
      · rw [hnamed d hd heq] at hmagic
        exact hmagic rfl
      · rw [usbFree, hblock]
        simp only [if_pos hmagic, ite_self]
    · have hin := h.inside hd
      have hstop : d.head + d.count < 2 ^ 25 := lt_of_le_of_lt hin.2 hend
      have hcount : (BitVec.ofNat 32 d.count).toInt = d.count := by
        have hhi : d.head + d.count ≤ base + 256 := hin.2
        have hval : (BitVec.ofNat 32 d.count).toNat = d.count := by
          rw [BitVec.toNat_ofNat]
          exact Nat.mod_eq_of_lt (by omega)
        rw [BitVec.toInt_eq_toNat_of_lt (by omega), hval]
      have hbytes : (d.count : Int) * USB_MEM_BLOCK_SIZE = (d.count * USB_MEM_BLOCK_SIZE : Nat) :=
        (Nat.cast_mul _ _).symm
      have hfree : usbFree base s addr =
          { hdr := setFlags s.hdr 0#32 d.head d.count
            freeMemorySize := s.freeMemorySize + BitVec.ofNat 32 (d.count * USB_MEM_BLOCK_SIZE)
            allocatedMemorySize :=
              s.allocatedMemorySize - BitVec.ofNat 32 (d.count * USB_MEM_BLOCK_SIZE)
            pCurrent := s.pCurrent } := by
        rw [usbFree, hblock]
        simp only [h.header hd, hcount, hbytes, BitVec.ofInt_natCast, Int.toNat_natCast]
        rfl
      rw [hfree]
      refine h.removeBlock hd ?_ ?_ ?_ ?_ ?_ (h.nodup.filter _) ?_
      · intro b hb
        have hset := (setFlags_apply s.hdr 0#32 d.head b hstop).trans (if_pos hb)
        exact congrArg UsbMhdr.flag hset
      · intro b hb
        exact (setFlags_apply s.hdr 0#32 d.head b hstop).trans (if_neg hb)
      · rfl
      · rfl
      · rfl
      · intro d'
        rw [List.mem_filter, decide_eq_true_iff]
        refine and_congr_right fun hd' => not_congr ⟨fun heq => ?_, fun heq => heq ▸ rfl⟩
        have hhead : d.head = d'.head := Option.some.inj heq
        exact h.disjoint hd' hd (hhead ▸ (h.placed hd').covers_head) (h.placed hd).covers_head

/-- What every safe step keeps. -/
theorem heapStep_inv (hend : base + poolBlocks < 2 ^ 25) {t t' : UsbHeap × List DataBlock}
    {op : HeapOp} (h : HeapInv base t.1 t.2)
    (hstep : where_ (heapStep base) (SafeHeapOp base) t op t') : HeapInv base t'.1 t'.2 := by
  obtain ⟨hsafe, hstep⟩ := hstep
  cases op with
  | malloc wantedSize boundary =>
    obtain ⟨hwanted, fuel, r, hr, hlive⟩ := hstep
    rw [hlive]
    exact h.malloc hend hwanted.le hr
  | free addr =>
    rw [hstep]
    exact h.free hend hsafe
  | write hdr =>
    rw [hstep.1]
    exact h.congr hstep.2

theorem heapInv_init {hdr : Nat → UsbMhdr} : HeapInv base (usbInitializeMemoryPool base hdr) [] where
  header hd := nomatch hd
  inside hd := nomatch hd
  placed hd := nomatch hd
  disjoint hd := nomatch hd
  nodup := List.nodup_nil
  unused hb := congrArg UsbMhdr.flag (if_pos ⟨hb.1, hb.2.1⟩)
  freeSize := by
    have hnone : coveredBlocks base [] = ∅ := by
      refine Finset.eq_empty_of_forall_notMem fun b hb => ?_
      obtain ⟨-, d, hd, -⟩ := mem_coveredBlocks.1 hb
      exact nomatch hd
    rw [hnone]
    rfl
  allocatedSize := by
    have hnone : coveredBlocks base [] = ∅ := by
      refine Finset.eq_empty_of_forall_notMem fun b hb => ?_
      obtain ⟨-, d, hd, -⟩ := mem_coveredBlocks.1 hb
      exact nomatch hd
    rw [hnone]
    rfl
  cursor := .inr (.inl ⟨le_rfl, Nat.lt_add_of_pos_right (by decide), fun _ hd => nomatch hd⟩)

end

/-- After any sequence of allocations of positive sizes, releases and writes of the clients, as long
as no release reads what looks like a header inside a live block, the live blocks, the counters and
the cursor are right, and a release of a free block changes nothing. -/
theorem heap_run {base : Nat} (hend : base + poolBlocks < 2 ^ 25) {hdr : Nat → UsbMhdr}
    {ops : List HeapOp} {s : UsbHeap} {live : List DataBlock}
    (h : Run (where_ (heapStep base) (SafeHeapOp base))
      (usbInitializeMemoryPool base hdr, []) ops (s, live)) : HeapRight base s live :=
  (h.invariant (fun hi hs => heapStep_inv hend hi hs) heapInv_init).right

/-! ## A release of blocks given out again -/

/-- A call, computed with a bound on the rounds of the search. -/
def heapExec (base fuel : Nat) (s : UsbHeap × List DataBlock) :
    HeapOp → Option (UsbHeap × List DataBlock)
  | .malloc wantedSize boundary =>
    if 0 < wantedSize then
      (usbMalloc base fuel s.1 wantedSize boundary).map fun r =>
        (r.2, liveAfter base r.2.hdr wantedSize boundary r.1 s.2)
    else none
  | .free addr =>
    some (usbFree base s.1 addr, s.2.filter fun d => headerBlock base addr ≠ some d.head)
  | .write _ => none

theorem heapExec_step {base fuel : Nat} {s s' : UsbHeap × List DataBlock} {op : HeapOp}
    (h : heapExec base fuel s op = some s') : heapStep base s op s' := by
  cases op with
  | malloc wantedSize boundary =>
    by_cases hwanted : 0 < wantedSize
    · rw [heapExec, if_pos hwanted] at h
      obtain ⟨r, hr, rfl⟩ := Option.map_eq_some_iff.1 h
      exact ⟨hwanted, fuel, r.1, hr, rfl⟩
    · rw [heapExec, if_neg hwanted] at h
      exact nomatch h
  | free addr => exact (Option.some.inj h).symm
  | write hdr => exact nomatch h

/-- A pool at address 0x80000000. -/
abbrev samplePool : Nat := 0x1000000

@[inherit_doc samplePool]
def sampleHeap : UsbHeap × List DataBlock :=
  (usbInitializeMemoryPool samplePool fun _ => ⟨0, 0, 0⟩, [])

/-- Two data blocks given out, and the first of them released. -/
def firstReleased : List HeapOp := [.malloc 100 4, .malloc 300 4, .free 0x80000010]

theorem firstReleased_isSome : (firstReleased.foldlM (fun s op =>
    if SafeHeapOp samplePool s op then heapExec samplePool 300 s op else none) sampleHeap).isSome := by
  decide +kernel

@[inherit_doc firstReleased]
def releasedHeap : UsbHeap × List DataBlock := Option.get _ firstReleased_isSome

theorem releasedHeap_run : Run (where_ (heapStep samplePool) (SafeHeapOp samplePool)) sampleHeap firstReleased
    (releasedHeap.1, releasedHeap.2) :=
  Run.of_foldlM_where heapExec_step (Option.some_get firstReleased_isSome).symm

theorem heap_run_released : HeapRight samplePool releasedHeap.1 releasedHeap.2 :=
  heap_run (by decide) releasedHeap_run

/-- Two data blocks, released and given out again in other pieces, and the second of them released
once more: its header still says three blocks, though its second block is the first of another. -/
def staleRelease : List HeapOp :=
  [.malloc 100 4, .malloc 300 4, .free 0x80000010, .free 0x80000090, .malloc 32240 4,
    .malloc 200 4, .malloc 100 4, .free 0x80000090, .malloc 100 4, .malloc 100 4]

/-- Disjoint data blocks have different addresses. -/
theorem nodup_ptr {live : List DataBlock}
    (h : live.Pairwise fun d d' => Disjoint d.data d'.data)
    (hdata : ∀ d ∈ live, d.ptr < USB_MEM_BLOCK_SIZE * (d.head + d.count)) :
    (live.map (·.ptr)).Nodup := by
  refine List.pairwise_map.2 (h.imp_of_mem ?_)
  intro d d' hd hd' hdisj heq
  exact Set.disjoint_left.1 hdisj (⟨le_rfl, hdata d hd⟩ : d.ptr ∈ d.data)
    ⟨heq.ge, heq ▸ hdata d' hd'⟩

theorem not_heapRight :
    ¬ ∀ s live, Run (heapStep samplePool) sampleHeap staleRelease (s, live) →
      HeapRight samplePool s live := by
  intro h
  have hsome : (staleRelease.foldlM (heapExec samplePool 300) sampleHeap).any (fun s =>
      s.2.all (fun d => d.ptr < USB_MEM_BLOCK_SIZE * (d.head + d.count)) &&
        ¬ (s.2.map (·.ptr)).Nodup) = true := by
    decide +kernel
  obtain ⟨⟨s, live⟩, hs, hbad⟩ := Option.any_eq_true _ _ |>.1 hsome
  have hright := h s live (Run.of_foldlM heapExec_step hs)
  simp only [Bool.and_eq_true, List.all_eq_true, decide_eq_true_eq] at hbad
  exact hbad.2 (nodup_ptr hright.disjoint hbad.1)

end NumakerMA35D1.UsbHost

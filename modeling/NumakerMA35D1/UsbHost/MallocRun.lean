import NumakerMA35D1.UsbHost.HeapRun

/-!
# When the heap's search ends, and what it finds

`usbMalloc_run`: in every state that calls of any sizes and boundaries lead to, `USB_malloc` returns
and gives memory out exactly when a run of free blocks holds the request, if and only if the cursor
does not stand inside the only runs that do, and, where none does, the request is turned down before
the search or the cursor is not at the pool's end. A search that begins at the pool's end goes on
from its begin for ever: the cursor never reaches the position it was at (`not_mallocRight`).
-/

namespace NumakerMA35D1.UsbHost

open Embedded

/-- The bytes of a request that `n` blocks hold, the header and the alignment taken off. -/
def runRoom (boundary : Int) (n : Nat) : Int :=
  if boundary > BOUNDARY_WORD then USB_MEM_BLOCK_SIZE * (n - 1 : Int)
  else USB_MEM_BLOCK_SIZE * n - sizeofMhdr

/-- The `n` blocks from block `b` on are free and hold the request behind the header. -/
structure Fits (base : Nat) (live : List DataBlock) (wantedSize boundary : Int) (b n : Nat) :
    Prop where
  pos : 0 < n
  free : ∀ b', b ≤ b' → b' < b + n → FreeBlock base live b'
  aligned : boundary > BOUNDARY_WORD →
    boundary ∣ (USB_MEM_BLOCK_SIZE * (b + 1) : Nat) ∧ b + 1 < base + poolBlocks
  wanted : 0 ≤ wantedSize
  large : wantedSize ≤ runRoom boundary n

/-- `USB_malloc` returns, and gives memory out exactly when some run of free blocks holds the
request. -/
def MallocRight (base : Nat) (s : UsbHeap) (live : List DataBlock) (wantedSize boundary : Int) :
    Prop :=
  ∃ fuel r, usbMalloc base fuel s wantedSize boundary = some r ∧
    (r.1.isSome ↔ ∃ b n, Fits base live wantedSize boundary b n)

/-- One of the runs that hold the request does not have the cursor inside; where none holds it, the
size is not below the free memory, or the cursor is not at the pool's end. -/
def Reaches (base : Nat) (s : UsbHeap) (live : List DataBlock) (wantedSize boundary : Int) : Prop :=
  (∃ b n, Fits base live wantedSize boundary b n ∧ (b + n ≤ s.pCurrent ∨ s.pCurrent ≤ b)) ∨
  (∀ b n, ¬ Fits base live wantedSize boundary b n) ∧
    (s.freeMemorySize.toNat ≤ (BitVec.ofInt 32 wantedSize).toNat ∨ s.pCurrent < base + poolBlocks)

/-- A call with any size and boundary of type `int`, a release, or a client's write. -/
def heapCall (base : Nat) (s : UsbHeap × List DataBlock) (op : HeapOp)
    (s' : UsbHeap × List DataBlock) : Prop :=
  match op with
  | .malloc wantedSize boundary =>
    (∃ size : BitVec 32, size.toInt = wantedSize) ∧
      ∃ fuel r, usbMalloc base fuel s.1 wantedSize boundary = some (r, s'.1) ∧
        s'.2 = liveAfter base s'.1.hdr wantedSize boundary r s.2
  | .free addr => heapStep base s (.free addr) s'
  | .write hdr => heapStep base s (.write hdr) s'

/-! ## The invariant, for all sizes -/

section

variable {base : Nat} {s : UsbHeap} {live : List DataBlock} {wantedSize boundary : Int}

theorem HeapInv.freeSize_le (h : HeapInv base s live) : s.freeMemorySize.toNat ≤ 32768 := by
  have hsize : _ = 32768 := h.freeSize
  omega

/-- A size below 0 is turned down. -/
theorem HeapInv.turnedDown (h : HeapInv base s live) {size : BitVec 32} (hneg : size.toInt < 0) :
    s.freeMemorySize.toNat ≤ (BitVec.ofInt 32 size.toInt).toNat := by
  have hfree := h.freeSize_le
  rw [BitVec.ofInt_toInt]
  rw [BitVec.toInt_eq_toNat_cond] at hneg
  split at hneg
  · omega
  · omega

theorem heapCall_inv (hend : base + poolBlocks < 2 ^ 25) {t t' : UsbHeap × List DataBlock}
    {op : HeapOp} (h : HeapInv base t.1 t.2)
    (hstep : where_ (heapCall base) (SafeHeapOp base) t op t') : HeapInv base t'.1 t'.2 := by
  obtain ⟨hsafe, hstep⟩ := hstep
  cases op with
  | malloc wantedSize boundary =>
    obtain ⟨⟨size, rfl⟩, fuel, r, hr, hlive⟩ := hstep
    rw [hlive]
    by_cases hneg : size.toInt < 0
    · rw [usbMalloc, if_pos (h.turnedDown hneg)] at hr
      obtain ⟨hnone, hsame⟩ := Prod.mk.inj (Option.some.inj hr)
      rw [← hnone, ← hsame]
      exact h
    · exact h.malloc hend (not_lt.1 hneg) hr
  | free addr => exact heapStep_inv hend h ⟨hsafe, hstep⟩
  | write hdr => exact heapStep_inv hend h ⟨hsafe, hstep⟩

/-! ## Runs that fit -/

theorem runRoom_mono {n m : Nat} (h : n ≤ m) : runRoom boundary n ≤ runRoom boundary m := by
  rw [runRoom, runRoom]
  split
  · change 128 * _ ≤ 128 * _
    omega
  · change 128 * _ - _ ≤ 128 * _ - _
    omega

theorem FoundRun.foundSize_eq {l : Search} {stop : Nat} (h : FoundRun base live boundary l stop) :
    l.foundSize = runRoom boundary l.blockCount := by
  rw [runRoom]
  by_cases hb : boundary > BOUNDARY_WORD
  · rw [if_pos hb, (h.wide hb).1]
    change _ = 128 * _
    omega
  · rw [if_neg hb, h.narrow hb]
    rfl

theorem FoundRun.fits {l : Search} {stop : Nat} (h : FoundRun base live boundary l stop)
    (hwanted : 0 ≤ wantedSize) (hsize : wantedSize ≤ l.foundSize) :
    Fits base live wantedSize boundary l.pFound l.blockCount where
  pos := h.pos
  free b hlo hhi := h.free b hlo (h.atStop ▸ hhi)
  aligned hb := (h.wide hb).2
  wanted := hwanted
  large := h.foundSize_eq ▸ hsize

/-- A run that fits is free memory, so the request is not turned down. -/
theorem HeapInv.not_turnedDown (h : HeapInv base s live) {b n : Nat}
    (hfits : Fits base live wantedSize boundary b n) :
    ¬ s.freeMemorySize.toNat ≤ (BitVec.ofInt 32 wantedSize).toNat := by
  have hwanted := hfits.wanted
  have hpos := hfits.pos
  have hfirst := hfits.free b le_rfl (by omega)
  have hlast := hfits.free (b + n - 1) (by omega) (by omega)
  have hdisj : Disjoint (coveredBlocks base live) (Finset.Ico b (b + n)) := by
    rw [Finset.disjoint_left]
    intro b' hb' hin
    obtain ⟨-, d, hd, hcov⟩ := mem_coveredBlocks.1 hb'
    have hmem := Finset.mem_Ico.1 hin
    exact (hfits.free b' hmem.1 hmem.2).2.2 d hd hcov
  have hsub : coveredBlocks base live ∪ Finset.Ico b (b + n) ⊆ Finset.Ico base (base + 256) := by
    intro b' hb'
    rcases Finset.mem_union.1 hb' with hcov | hin
    · exact Finset.mem_Ico.2 (mem_coveredBlocks.1 hcov).1
    · have hmem := Finset.mem_Ico.1 hin
      have hfree := hfits.free b' hmem.1 hmem.2
      exact Finset.mem_Ico.2 ⟨hfree.1, hfree.2.1⟩
  have hcard := Finset.card_le_card hsub
  rw [Finset.card_union_of_disjoint hdisj, Nat.card_Ico, Nat.card_Ico] at hcard
  have hfree : s.freeMemorySize.toNat + 128 * (coveredBlocks base live).card = 32768 := h.freeSize
  have hroom : wantedSize < 128 * n := by
    have hlarge := hfits.large
    rw [runRoom] at hlarge
    split at hlarge
    · change _ ≤ 128 * _ at hlarge
      omega
    · change _ ≤ 128 * _ - 16 at hlarge
      omega
  rw [not_le]
  lift wantedSize to Nat using hwanted
  rw [BitVec.ofInt_natCast, BitVec.toNat_ofNat]
  omega

/-! ## One round -/

/-- Where the run begins that the search is at. -/
def Search.start (l : Search) : Nat := if l.foundSize = -1 then l.pCurrent else l.pFound

/-- The search has been through the blocks from `first` on: no run that fits begins before the one it is
at, and that one is still too small. -/
structure Passing (base : Nat) (live : List DataBlock) (wantedSize boundary : Int) (first : Nat)
    (l : Search) : Prop where
  run : l.foundSize = -1 ∨ FoundRun base live boundary l l.pCurrent
  small : l.foundSize < wantedSize
  first_le : first ≤ l.start
  past : ∀ b n, Fits base live wantedSize boundary b n → first ≤ b → l.start ≤ b

variable {first : Nat} {l : Search}

theorem Passing.start_le (h : Passing base live wantedSize boundary first l) :
    l.start ≤ l.pCurrent := by
  rw [Search.start]
  split
  · exact le_rfl
  · rename_i hsome
    have hstop := (h.run.resolve_left hsome).atStop
    omega

/-- Before the cursor there is no run that fits. -/
theorem Passing.none_before (h : Passing base live wantedSize boundary first l) {b n : Nat}
    (hfits : Fits base live wantedSize boundary b n) (hlo : first ≤ b) : l.pCurrent < b + n := by
  have hstart := h.past b n hfits hlo
  have hpos := hfits.pos
  rw [Search.start] at hstart
  split at hstart
  · omega
  · rename_i hsome
    by_contra hle
    have hrun := h.run.resolve_left hsome
    have hstop := hrun.atStop
    have hroom : runRoom boundary n ≤ runRoom boundary l.blockCount := runRoom_mono (by omega)
    have hlarge := hfits.large
    have hsmall := h.small
    rw [hrun.foundSize_eq] at hsmall
    omega

/-- Nor is there one behind a block in use, before the blocks that follow it. -/
theorem Passing.skip (hl : Passing base live wantedSize boundary first l) (h : HeapInv base s live)
    {d : DataBlock} (hd : d ∈ live) (hhead : d.head = l.pCurrent) {b n : Nat}
    (hfits : Fits base live wantedSize boundary b n) (hlo : first ≤ b) : d.head + d.count ≤ b := by
  have hafter := hl.none_before hfits hlo
  have hpos := hfits.pos
  by_contra hlt
  by_cases hb : d.head ≤ b
  · exact (hfits.free b le_rfl (by omega)).2.2 d hd ⟨hb, by omega⟩
  · exact (hfits.free d.head (by omega) (by omega)).2.2 d hd (h.placed hd).covers_head

/-- The search at the begin of a pass. -/
theorem Passing.start (hwanted : 0 ≤ wantedSize) {l : Search} (hcur : l.pCurrent = first)
    (hsize : l.foundSize = -1) : Passing base live wantedSize boundary first l where
  run := .inl hsize
  small := by omega
  first_le := by rw [Search.start, if_pos hsize, hcur]
  past := by
    intro b n _ hb
    rw [Search.start, if_pos hsize, hcur]
    exact hb

theorem HeapInv.searchInv (h : HeapInv base s live) {l : Search}
    (hcur : CursorAt base live l.pCurrent) (hlt : l.pCurrent < base + poolBlocks)
    (hsize : l.foundSize = -1) : SearchInv base live boundary l where
  lo := by
    rcases hcur with heq | hfree | ⟨d, hd, hhead⟩
    · omega
    · exact hfree.1
    · exact hhead ▸ (h.inside hd).1
  hi := hlt
  cursor := hcur
  run := .inl hsize

/-- What a round of a pass comes to: a run that fits, the next block or data block, or the end of the
pool and no run that fits from `first` on. No position of the cursor is passed over. -/
inductive Advance (base : Nat) (s : UsbHeap) (live : List DataBlock) (wantedSize boundary : Int)
    (first : Nat) (l : Search) : Round → Prop
  | found (l' : Search) (hrun : FoundRun base live boundary l' (l.pCurrent + 1))
      (hsize : wantedSize ≤ l'.foundSize) (hlo : first ≤ l'.pFound) :
      Advance base s live wantedSize boundary first l (.found l')
  | next (l' : Search) (hlt : l.pCurrent < l'.pCurrent) (hinv : SearchInv base live boundary l')
      (hpass : Passing base live wantedSize boundary first l') (hwrap : l'.wrap = l.wrap)
      (hpast : ∀ p, CursorAt base live p → l.pCurrent < p → l'.pCurrent ≤ p) :
      Advance base s live wantedSize boundary first l (.next l')
  | atEnd (l' : Search) (hcur : l'.pCurrent = base) (hsize : l'.foundSize = -1)
      (hwrap : l'.wrap = true) (hnone : ∀ b n, Fits base live wantedSize boundary b n → b < first)
      (hpast : ∀ p, CursorAt base live p → l.pCurrent < p → p = base + poolBlocks) :
      Advance base s live wantedSize boundary first l (.next l')

/-- The positions of the cursor inside the pool's bounds. -/
theorem HeapInv.cursor_le (h : HeapInv base s live) {p : Nat} (hp : CursorAt base live p) :
    p ≤ base + poolBlocks := by
  rcases hp with heq | hfree | ⟨d, hd, hhead⟩
  · exact heq.le
  · exact hfree.2.1.le
  · have hin := h.inside hd
    omega

/-- The cursor never stands inside a data block. -/
theorem HeapInv.cursor_past (h : HeapInv base s live) {d : DataBlock} (hd : d ∈ live) {p : Nat}
    (hp : CursorAt base live p) (hlt : d.head < p) : d.head + d.count ≤ p := by
  by_contra hin
  have hcov : d.Covers p := ⟨hlt.le, not_le.1 hin⟩
  rcases hp with heq | hfree | ⟨d', hd', hhead⟩
  · have hinside := h.inside hd
    omega
  · exact hfree.2.2 d hd hcov
  · have hself : d' = d :=
      h.disjoint hd' hd (hhead ▸ (h.placed hd').covers_head) hcov
    rw [hself] at hhead
    omega

/-- The run goes on from where it began. -/
theorem growRun_pFound : (growRun base boundary l).pFound = l.start := by
  rw [growRun, Search.start]
  split
  · rfl
  · rfl

/-- No run begins at a block: it is the first, and the one behind it is outside the pool or does not
lie at the boundary. -/
theorem growRun_none (hrun : l.foundSize = -1 ∨ FoundRun base live boundary l l.pCurrent)
    (hnone : (growRun base boundary l).foundSize = -1) :
    l.foundSize = -1 ∧ boundary > BOUNDARY_WORD ∧ (base + poolBlocks ≤ l.pCurrent + 1 ∨
      ¬ boundary ∣ (USB_MEM_BLOCK_SIZE * (l.pCurrent + 1) : Nat)) := by
  rw [growRun] at hnone
  split at hnone
  · rename_i hsize
    refine ⟨hsize, ?_⟩
    dsimp only at hnone
    split at hnone
    · rename_i hb
      have hpos : 4 < boundary := hb
      have hcast : (boundary.toNat : Int) = boundary := Int.toNat_of_nonneg (by omega)
      refine ⟨hb, ?_⟩
      split at hnone
      · rename_i hbad
        refine hbad.imp id fun hmod hdvd => hmod ?_
        rw [← hcast] at hdvd
        exact Nat.mod_eq_zero_of_dvd (Int.natCast_dvd_natCast.1 hdvd)
      · cases hnone
    · cases hnone
  · rename_i hsize
    have hold := hrun.resolve_left hsize
    have heq := hold.foundSize_eq
    have hmono : runRoom boundary 1 ≤ runRoom boundary l.blockCount := runRoom_mono hold.pos
    have hone : 0 ≤ runRoom boundary 1 := by
      rw [runRoom]
      split
      · exact le_rfl
      · decide
    change l.foundSize + 128 = -1 at hnone
    omega

/-- A free block is added to the run, or none that fits begins at it. -/
theorem Passing.grow (hl : SearchInv base live boundary l)
    (hpass : Passing base live wantedSize boundary first l) (hfree : FreeBlock base live l.pCurrent)
    (hsize : ¬ (growRun base boundary l).foundSize ≥ wantedSize) :
    Passing base live wantedSize boundary first
      { growRun base boundary l with pCurrent := l.pCurrent + 1 } := by
  have hrun := (hl.grow hfree).imp_right fun hr =>
    (⟨hr.atStop, hr.free, hr.pos, hr.wide, hr.narrow⟩ : FoundRun base live boundary
      { growRun base boundary l with pCurrent := l.pCurrent + 1 } (l.pCurrent + 1))
  have hfirst := hpass.first_le
  by_cases hnone : (growRun base boundary l).foundSize = -1
  · obtain ⟨hold, hb, hbad⟩ := growRun_none hpass.run hnone
    have hstart : l.start = l.pCurrent := if_pos hold
    refine ⟨hrun, not_le.1 hsize, ?_, ?_⟩
    · rw [Search.start, if_pos hnone]
      exact (hstart ▸ hfirst).trans (Nat.le_succ _)
    · intro b n hfits hle
      rw [Search.start, if_pos hnone]
      refine Nat.succ_le_of_lt (lt_of_le_of_ne (hstart ▸ hpass.past b n hfits hle) ?_)
      rintro rfl
      obtain ⟨hdvd, hlt⟩ := hfits.aligned hb
      rcases hbad with hout | hnot
      · omega
      · exact hnot hdvd
  · refine ⟨hrun, not_le.1 hsize, ?_, ?_⟩
    · rw [Search.start, if_neg hnone]
      exact growRun_pFound.symm ▸ hfirst
    · intro b n hfits hle
      rw [Search.start, if_neg hnone]
      exact growRun_pFound.symm ▸ hpass.past b n hfits hle

theorem Passing.round_free (h : HeapInv base s live) (hend : base + poolBlocks < 2 ^ 25)
    (hl : SearchInv base live boundary l) (hpass : Passing base live wantedSize boundary first l)
    (hwanted : 0 ≤ wantedSize) (hfree : FreeBlock base live l.pCurrent) :
    Advance base s live wantedSize boundary first l
      (searchRound base s.hdr wantedSize boundary l) := by
  have hhi := hl.hi
  have hadd : addBlock (growRun base boundary l).pCurrent 1 = l.pCurrent + 1 := by
    rw [growRun_pCurrent]
    exact addBlock_eq (by omega)
  rw [searchRound, if_neg (not_not.2 (h.unused hfree))]
  by_cases hsize : (growRun base boundary l).foundSize ≥ wantedSize
  · have hsome : (growRun base boundary l).foundSize ≠ -1 := by omega
    rw [if_pos hsize]
    exact .found _ ((hl.grow hfree).resolve_left hsome) hsize (growRun_pFound.symm ▸ hpass.first_le)
  · have hgrown := hpass.grow hl hfree hsize
    rw [if_neg hsize, hadd, wrapAtEnd]
    by_cases hstop : l.pCurrent + 1 ≥ base + poolBlocks
    · rw [if_pos hstop]
      refine .atEnd _ rfl rfl rfl (fun b n hfits => ?_) fun p hp hlt => ?_
      · by_contra hb
        have hafter : l.pCurrent + 1 < b + n := hgrown.none_before hfits (not_lt.1 hb)
        have hpos := hfits.pos
        have hlast := (hfits.free (b + n - 1) (by omega) (by omega)).2.1
        omega
      · have hle := h.cursor_le hp
        omega
    · rw [if_neg hstop]
      refine .next _ (Nat.lt_succ_self _) ⟨hl.lo.trans (Nat.le_succ _), not_le.1 hstop, ?_, hgrown.run⟩
        hgrown ?_ fun p _ hlt => hlt
      · exact CursorAt.next hl.lo hhi fun d hd hcov => absurd hcov (hfree.2.2 d hd)
      · rw [growRun]
        split
        · rfl
        · rfl

theorem Passing.round_live (h : HeapInv base s live) (hend : base + poolBlocks < 2 ^ 25)
    (hpass : Passing base live wantedSize boundary first l) (hwanted : 0 ≤ wantedSize)
    {d : DataBlock} (hd : d ∈ live) (hhead : d.head = l.pCurrent) :
    Advance base s live wantedSize boundary first l
      (searchRound base s.hdr wantedSize boundary l) := by
  have hin := h.inside hd
  have hpos := (h.placed hd).count_pos
  have hcount : (BitVec.ofNat 32 d.count).toNat = d.count := by
    rw [BitVec.toNat_ofNat]
    exact Nat.mod_eq_of_lt (by omega)
  have hadd : addBlock d.head d.count = d.head + d.count := addBlock_eq (by omega)
  have hround : searchRound base s.hdr wantedSize boundary l = .next
      (if d.head + d.count = base + poolBlocks then
        { l with wrap := true, pCurrent := base, foundSize := -1 }
      else { l with pCurrent := d.head + d.count, foundSize := -1 }) := by
    rw [searchRound, ← hhead, h.header hd]
    simp only [if_true, hcount, hadd]
    rfl
  rw [hround]
  by_cases hstop : d.head + d.count = base + poolBlocks
  · rw [if_pos hstop]
    refine .atEnd _ rfl rfl rfl (fun b n hfits => ?_) fun p hp hlt => ?_
    · by_contra hb
      have hskip := hpass.skip h hd hhead hfits (not_lt.1 hb)
      have hpos := hfits.pos
      have hlast := (hfits.free b le_rfl (by omega)).2.1
      omega
    · have hpast := h.cursor_past hd hp (hhead ▸ hlt)
      have hle := h.cursor_le hp
      omega
  · rw [if_neg hstop]
    refine .next _ ?_ (h.searchInv (h.cursor_end hd) (lt_of_le_of_ne hin.2 hstop) rfl) ?_ rfl ?_
    · rw [← hhead]
      exact Nat.lt_add_of_pos_right hpos
    · have hsmall : (-1 : Int) < wantedSize := by omega
      refine ⟨.inl rfl, hsmall, ?_, fun b n hfits hb => hpass.skip h hd hhead hfits hb⟩
      have hstart := hpass.start_le
      have hfirst := hpass.first_le
      change first ≤ d.head + d.count
      omega
    · intro p hp hlt
      exact h.cursor_past hd hp (hhead ▸ hlt)

theorem Passing.round (h : HeapInv base s live) (hend : base + poolBlocks < 2 ^ 25)
    (hl : SearchInv base live boundary l) (hpass : Passing base live wantedSize boundary first l)
    (hwanted : 0 ≤ wantedSize) :
    Advance base s live wantedSize boundary first l
      (searchRound base s.hdr wantedSize boundary l) := by
  rcases hl.cursor with hstop | hfree | ⟨d, hd, hhead⟩
  · exact absurd hstop hl.hi.ne
  · exact hpass.round_free h hend hl hwanted hfree
  · exact hpass.round_live h hend hwanted hd hhead

/-! ## The search's end -/

/-- The search comes to a result. -/
def Ends (base : Nat) (s : UsbHeap) (wantedSize boundary : Int) (pos : Nat) (l : Search)
    (r : Option Nat × UsbHeap) : Prop :=
  ∃ fuel, searchLoop base s wantedSize boundary pos fuel l = some r

variable {pos : Nat} {r : Option Nat × UsbHeap} {l' : Search}

theorem Ends.found (hround : searchRound base s.hdr wantedSize boundary l = .found l') :
    Ends base s wantedSize boundary pos l (some (dataAddr boundary l'), allocateRun s l') :=
  ⟨1, by rw [searchLoop, hround]⟩

theorem Ends.stop (hround : searchRound base s.hdr wantedSize boundary l = .next l')
    (hstop : ¬ (l'.wrap = false ∨ l'.pCurrent < pos)) :
    Ends base s wantedSize boundary pos l (none, { s with pCurrent := l'.pCurrent }) := by
  refine ⟨1, ?_⟩
  rw [searchLoop, hround]
  exact if_neg hstop

theorem Ends.next (hround : searchRound base s.hdr wantedSize boundary l = .next l')
    (hgo : l'.wrap = false ∨ l'.pCurrent < pos) (h : Ends base s wantedSize boundary pos l' r) :
    Ends base s wantedSize boundary pos l r := by
  obtain ⟨fuel, hfuel⟩ := h
  refine ⟨fuel + 1, ?_⟩
  rw [searchLoop, hround]
  exact (if_pos hgo).trans hfuel

/-- More rounds change no result. -/
theorem searchLoop_det {r' : Option Nat × UsbHeap} {fuel fuel' : Nat}
    (h : searchLoop base s wantedSize boundary pos fuel l = some r)
    (h' : searchLoop base s wantedSize boundary pos fuel' l = some r') : r = r' := by
  induction fuel generalizing fuel' l with
  | zero => cases h
  | succ fuel ih =>
    cases fuel' with
    | zero => cases h'
    | succ fuel' =>
      rw [searchLoop] at h h'
      cases hround : searchRound base s.hdr wantedSize boundary l with
      | badMagic =>
        rw [hround] at h h'
        exact Option.some.inj (h.symm.trans h')
      | found l₁ =>
        rw [hround] at h h'
        exact Option.some.inj (h.symm.trans h')
      | next l₁ =>
        rw [hround] at h h'
        dsimp only at h h'
        by_cases hgo : l₁.wrap = false ∨ l₁.pCurrent < pos
        · rw [if_pos hgo] at h h'
          exact ih h h'
        · rw [if_neg hgo] at h h'
          exact Option.some.inj (h.symm.trans h')

/-- From a position of the cursor to the pool's end: a run that fits is handed out, or none begins
there and the search goes on at the begin of the pool. -/
theorem pass_toEnd (h : HeapInv base s live) (hend : base + poolBlocks < 2 ^ 25)
    (hwanted : 0 ≤ wantedSize) (hl : SearchInv base live boundary l)
    (hpass : Passing base live wantedSize boundary first l)
    (hwrap : l.wrap = false ∨ base + poolBlocks ≤ pos) :
    (∃ l' stop, FoundRun base live boundary l' stop ∧ wantedSize ≤ l'.foundSize ∧ first ≤ l'.pFound ∧
      Ends base s wantedSize boundary pos l (some (dataAddr boundary l'), allocateRun s l')) ∨
    (∀ b n, Fits base live wantedSize boundary b n → b < first) ∧
      ∃ l', l'.pCurrent = base ∧ l'.foundSize = -1 ∧ l'.wrap = true ∧
        (pos ≤ base → ∃ s', Ends base s wantedSize boundary pos l (none, s')) ∧
        (base < pos → ∀ r, Ends base s wantedSize boundary pos l' r →
          Ends base s wantedSize boundary pos l r) := by
  induction hk : base + poolBlocks - l.pCurrent using Nat.strong_induction_on generalizing l with
  | _ k ih =>
    have hround := hpass.round h hend hl hwanted
    generalize hr : searchRound base s.hdr wantedSize boundary l = round at hround
    cases hround with
    | found l' hrun hsize hlo => exact .inl ⟨l', _, hrun, hsize, hlo, .found hr⟩
    | next l' hlt hinv hpass' hwrap' hpast =>
      have hhi := hinv.hi
      have hgo : l'.wrap = false ∨ l'.pCurrent < pos :=
        hwrap.imp (hwrap'.trans ·) (lt_of_lt_of_le hhi ·)
      rcases ih _ (by omega) hinv hpass' (hwrap.imp (hwrap'.trans ·) id) rfl with
        ⟨l₁, stop, hrun, hsize, hlo, hends⟩ | ⟨hnone, l₁, hcur, hsize, hwrap₁, hstop, hends⟩
      · exact .inl ⟨l₁, stop, hrun, hsize, hlo, .next hr hgo hends⟩
      · refine .inr ⟨hnone, l₁, hcur, hsize, hwrap₁, fun hpos => ?_, fun hpos r hr' => ?_⟩
        · obtain ⟨s', hs'⟩ := hstop hpos
          exact ⟨s', .next hr hgo hs'⟩
        · exact .next hr hgo (hends hpos r hr')
    | atEnd l' hcur hsize hwrap' hnone hpast =>
      refine .inr ⟨hnone, l', hcur, hsize, hwrap', fun hpos => ⟨_, .stop hr ?_⟩, fun hpos r hends =>
        .next hr (.inr (hcur ▸ hpos)) hends⟩
      rw [hwrap', hcur]
      simp [hpos]

/-- From the begin of the pool to the position the search set out from. -/
theorem pass_toPos (h : HeapInv base s live) (hend : base + poolBlocks < 2 ^ 25)
    (hwanted : 0 ≤ wantedSize) (hpos : CursorAt base live pos) (hin : pos < base + poolBlocks)
    (hl : SearchInv base live boundary l) (hpass : Passing base live wantedSize boundary base l)
    (hwrap : l.wrap = true) (hlt : l.pCurrent < pos) :
    (∃ l' stop, FoundRun base live boundary l' stop ∧ wantedSize ≤ l'.foundSize ∧ stop ≤ pos ∧
      Ends base s wantedSize boundary pos l (some (dataAddr boundary l'), allocateRun s l')) ∨
    (∀ b n, Fits base live wantedSize boundary b n → pos < b + n) ∧
      ∃ s', Ends base s wantedSize boundary pos l (none, s') := by
  induction hk : pos - l.pCurrent using Nat.strong_induction_on generalizing l with
  | _ k ih =>
    have hround := hpass.round h hend hl hwanted
    generalize hr : searchRound base s.hdr wantedSize boundary l = round at hround
    cases hround with
    | found l' hrun hsize hlo => exact .inl ⟨l', _, hrun, hsize, hlt, .found hr⟩
    | next l' hlt' hinv hpass' hwrap' hpast =>
      by_cases hgo : l'.pCurrent < pos
      · rcases ih _ (by omega) hinv hpass' (hwrap'.trans hwrap) hgo rfl with
          ⟨l₁, stop, hrun, hsize, hle, hends⟩ | ⟨hnone, s', hs'⟩
        · exact .inl ⟨l₁, stop, hrun, hsize, hle, .next hr (.inr hgo) hends⟩
        · exact .inr ⟨hnone, s', .next hr (.inr hgo) hs'⟩
      · refine .inr ⟨fun b n hfits => ?_, _, .stop hr ?_⟩
        · have hfirst := (hfits.free b le_rfl (Nat.lt_add_of_pos_right hfits.pos)).1
          exact lt_of_le_of_lt (not_lt.1 hgo) (hpass'.none_before hfits hfirst)
        · rw [hwrap', hwrap]
          simpa using hgo
    | atEnd l' hcur hsize hwrap' hnone hpast => exact absurd (hpast pos hpos hlt) hin.ne

/-- A search that set out from the pool's end and finds nothing goes round for ever. -/
theorem searchLoop_atEnd (h : HeapInv base s live) (hend : base + poolBlocks < 2 ^ 25)
    (hwanted : 0 ≤ wantedSize) (hnone : ∀ b n, ¬ Fits base live wantedSize boundary b n)
    (hpos : base + poolBlocks ≤ pos) (hl : SearchInv base live boundary l)
    (hpass : Passing base live wantedSize boundary base l) (fuel : Nat) :
    searchLoop base s wantedSize boundary pos fuel l = none := by
  induction fuel generalizing l with
  | zero => rfl
  | succ fuel ih =>
    have hround := hpass.round h hend hl hwanted
    generalize hr : searchRound base s.hdr wantedSize boundary l = round at hround
    rw [searchLoop, hr]
    cases hround with
    | found l' hrun hsize hlo => exact absurd (hrun.fits hwanted hsize) (hnone _ _)
    | next l' hlt hinv hpass' hwrap hpast =>
      have hhi := hinv.hi
      exact (if_pos (.inr (by omega))).trans (ih hinv hpass')
    | atEnd l' hcur hsize hwrap hbefore hpast =>
      have hpool : base < base + poolBlocks := Nat.lt_add_of_pos_right (by decide)
      refine (if_pos (.inr (by omega))).trans (ih (h.searchInv ?_ ?_ hsize) (.start hwanted hcur hsize))
      · rw [hcur]
        exact h.cursor_base
      · rw [hcur]
        exact hpool

/-- The local variables at the begin. -/
def searchStart (base : Nat) (s : UsbHeap) : Search where
  pCurrent := if s.pCurrent ≥ base + poolBlocks then base else s.pCurrent
  pFound := 0
  foundSize := -1
  blockCount := 0
  wrap := false

theorem usbMalloc_eq (hsize : ¬ s.freeMemorySize.toNat ≤ (BitVec.ofInt 32 wantedSize).toNat)
    (fuel : Nat) : usbMalloc base fuel s wantedSize boundary =
      searchLoop base s wantedSize boundary s.pCurrent fuel (searchStart base s) :=
  if_neg hsize

/-- A search that ends with a result tells whether the call is right. -/
theorem Ends.mallocRight (hsize : ¬ s.freeMemorySize.toNat ≤ (BitVec.ofInt 32 wantedSize).toNat)
    (h : Ends base s wantedSize boundary s.pCurrent (searchStart base s) r) :
    MallocRight base s live wantedSize boundary ↔
      (r.1.isSome ↔ ∃ b n, Fits base live wantedSize boundary b n) := by
  obtain ⟨fuel, hr⟩ := h
  constructor
  · rintro ⟨fuel', r', hr', hright⟩
    rw [usbMalloc_eq hsize] at hr'
    rw [searchLoop_det hr hr']
    exact hright
  · intro hright
    exact ⟨fuel, r, (usbMalloc_eq hsize fuel).trans hr, hright⟩

/-- A search from the pool's end. -/
theorem HeapInv.mallocRight_atEnd (h : HeapInv base s live) (hend : base + poolBlocks < 2 ^ 25)
    (hwanted : 0 ≤ wantedSize)
    (hsize : ¬ s.freeMemorySize.toNat ≤ (BitVec.ofInt 32 wantedSize).toNat)
    (hcur : base + poolBlocks ≤ s.pCurrent) :
    MallocRight base s live wantedSize boundary ↔
      ∃ b n, Fits base live wantedSize boundary b n := by
  have hpool : base < base + poolBlocks := Nat.lt_add_of_pos_right (by decide)
  have hbegin : (searchStart base s).pCurrent = base := if_pos hcur
  have hl : SearchInv base live boundary (searchStart base s) := by
    refine h.searchInv ?_ ?_ rfl
    · rw [hbegin]
      exact h.cursor_base
    · rw [hbegin]
      exact hpool
  have hpass : Passing base live wantedSize boundary base (searchStart base s) :=
    .start hwanted hbegin rfl
  by_cases hfits : ∃ b n, Fits base live wantedSize boundary b n
  · obtain ⟨b, n, hbn⟩ := hfits
    rcases pass_toEnd h hend hwanted hl hpass (.inr hcur) with
      ⟨l', stop, hrun, hlarge, -, hends⟩ | ⟨hnone, -⟩
    · exact iff_of_true ((hends.mallocRight hsize).2 (iff_of_true rfl ⟨b, n, hbn⟩)) ⟨b, n, hbn⟩
    · have hlt := hnone b n hbn
      have hfree := (hbn.free b le_rfl (Nat.lt_add_of_pos_right hbn.pos)).1
      omega
  · refine iff_of_false ?_ hfits
    rintro ⟨fuel, r, hr, -⟩
    rw [usbMalloc_eq hsize, searchLoop_atEnd h hend hwanted (fun b n hbn => hfits ⟨b, n, hbn⟩) hcur hl
      hpass] at hr
    cases hr

/-- A search from inside the pool. -/
theorem HeapInv.mallocRight_inside (h : HeapInv base s live) (hend : base + poolBlocks < 2 ^ 25)
    (hwanted : 0 ≤ wantedSize)
    (hsize : ¬ s.freeMemorySize.toNat ≤ (BitVec.ofInt 32 wantedSize).toNat)
    (hcur : s.pCurrent < base + poolBlocks) :
    MallocRight base s live wantedSize boundary ↔
      ((∃ b n, Fits base live wantedSize boundary b n) →
        ∃ b n, Fits base live wantedSize boundary b n ∧ (b + n ≤ s.pCurrent ∨ s.pCurrent ≤ b)) := by
  have hbegin : (searchStart base s).pCurrent = s.pCurrent := if_neg (not_le.2 hcur)
  have hl : SearchInv base live boundary (searchStart base s) :=
    h.searchInv (hbegin ▸ h.cursor) (hbegin ▸ hcur) rfl
  -- a run handed out is one that fits
  have hgiven : ∀ {l' : Search} {stop : Nat}, FoundRun base live boundary l' stop →
      wantedSize ≤ l'.foundSize → (stop ≤ s.pCurrent ∨ s.pCurrent ≤ l'.pFound) →
      Ends base s wantedSize boundary s.pCurrent (searchStart base s)
        (some (dataAddr boundary l'), allocateRun s l') →
      (MallocRight base s live wantedSize boundary ↔
        ((∃ b n, Fits base live wantedSize boundary b n) →
          ∃ b n, Fits base live wantedSize boundary b n ∧
            (b + n ≤ s.pCurrent ∨ s.pCurrent ≤ b))) := by
    intro l' stop hrun hlarge hside hends
    have hfits := hrun.fits hwanted hlarge
    rw [hends.mallocRight hsize]
    exact iff_of_true (iff_of_true rfl ⟨_, _, hfits⟩)
      fun _ => ⟨_, _, hfits, hside.imp (hrun.atStop.le.trans ·) id⟩
  -- nothing handed out: whatever fits has the cursor inside
  have hnothing : (∀ b n, Fits base live wantedSize boundary b n →
        b < s.pCurrent ∧ s.pCurrent < b + n) →
      (∃ s', Ends base s wantedSize boundary s.pCurrent (searchStart base s) (none, s')) →
      (MallocRight base s live wantedSize boundary ↔
        ((∃ b n, Fits base live wantedSize boundary b n) →
          ∃ b n, Fits base live wantedSize boundary b n ∧
            (b + n ≤ s.pCurrent ∨ s.pCurrent ≤ b))) := by
    rintro hinside ⟨s', hends⟩
    rw [hends.mallocRight hsize]
    constructor
    · intro hiff hfits
      exact absurd (hiff.2 hfits) (by simp)
    · intro hclear
      refine iff_of_false (by simp) fun hfits => ?_
      obtain ⟨b, n, hbn, hside⟩ := hclear hfits
      have := hinside b n hbn
      omega
  have hbase : ∀ {b n}, Fits base live wantedSize boundary b n → base ≤ b := fun hbn =>
    (hbn.free _ le_rfl (Nat.lt_add_of_pos_right hbn.pos)).1
  rcases pass_toEnd h hend hwanted hl (.start hwanted hbegin rfl) (.inl rfl) with
    ⟨l', stop, hrun, hlarge, hfirst, hends⟩ | ⟨hnone, l', hcur', hsize', hwrap, hstop, hgo⟩
  · exact hgiven hrun hlarge (.inr hfirst) hends
  · by_cases hpos : base < s.pCurrent
    · have hpool : base < base + poolBlocks := Nat.lt_add_of_pos_right (by decide)
      rcases pass_toPos h hend hwanted h.cursor hcur
          (h.searchInv (hcur' ▸ h.cursor_base) (hcur' ▸ hpool) hsize') (.start hwanted hcur' hsize')
          hwrap (hcur' ▸ hpos) with ⟨l₁, stop, hrun, hlarge, hle, hends⟩ | ⟨hafter, s', hends⟩
      · exact hgiven hrun hlarge (.inl hle) (hgo hpos _ hends)
      · exact hnothing (fun b n hbn => ⟨hnone b n hbn, hafter b n hbn⟩) ⟨s', hgo hpos _ hends⟩
    · refine hnothing (fun b n hbn => ?_) (hstop (not_lt.1 hpos))
      have hlt := hnone b n hbn
      have hle := hbase hbn
      omega

/-- When one call is right. -/
theorem HeapInv.mallocRight_iff (h : HeapInv base s live) (hend : base + poolBlocks < 2 ^ 25)
    (size : BitVec 32) : MallocRight base s live size.toInt boundary ↔
      Reaches base s live size.toInt boundary := by
  rw [Reaches]
  by_cases hsize : s.freeMemorySize.toNat ≤ (BitVec.ofInt 32 size.toInt).toNat
  · have hnone : ∀ b n, ¬ Fits base live size.toInt boundary b n :=
      fun b n hbn => h.not_turnedDown hbn hsize
    refine iff_of_true ⟨0, _, if_pos hsize, iff_of_false (by simp) ?_⟩ (.inr ⟨hnone, .inl hsize⟩)
    rintro ⟨b, n, hbn⟩
    exact hnone b n hbn
  · have hwanted : 0 ≤ size.toInt := not_lt.1 fun hneg => hsize (h.turnedDown hneg)
    by_cases hcur : base + poolBlocks ≤ s.pCurrent
    · rw [h.mallocRight_atEnd hend hwanted hsize hcur]
      constructor
      · rintro ⟨b, n, hbn⟩
        have hlast := (hbn.free (b + n - 1) (by have := hbn.pos; omega) (by have := hbn.pos; omega)).2.1
        exact .inl ⟨b, n, hbn, .inl (by omega)⟩
      · rintro (⟨b, n, hbn, -⟩ | ⟨-, hfull | hlt⟩)
        · exact ⟨b, n, hbn⟩
        · exact absurd hfull hsize
        · exact absurd hcur (not_le.2 hlt)
    · rw [h.mallocRight_inside hend hwanted hsize (not_le.1 hcur)]
      constructor
      · intro hclear
        by_cases hfits : ∃ b n, Fits base live size.toInt boundary b n
        · exact .inl (hclear hfits)
        · exact .inr ⟨fun b n hbn => hfits ⟨b, n, hbn⟩, .inr (not_le.1 hcur)⟩
      · rintro (hclear | ⟨hnone, -⟩)
        · exact fun _ => hclear
        · rintro ⟨b, n, hbn⟩
          exact absurd hbn (hnone b n)

end

/-! ## Every history -/

/-- In every state that calls of any sizes and boundaries, releases and the clients' writes lead to,
as long as no release reads what looks like a header inside a live block, a further call of any size
and boundary returns and is given memory exactly when a run holds the request, if and only if the
search reaches such a run. -/
theorem usbMalloc_run {base : Nat} (hend : base + poolBlocks < 2 ^ 25) {hdr : Nat → UsbMhdr}
    {ops : List HeapOp} {s : UsbHeap} {live : List DataBlock}
    (h : Run (where_ (heapCall base) (SafeHeapOp base))
      (usbInitializeMemoryPool base hdr, []) ops (s, live)) (wantedSize boundary : BitVec 32) :
    MallocRight base s live wantedSize.toInt boundary.toInt ↔
      Reaches base s live wantedSize.toInt boundary.toInt :=
  (h.invariant (I := fun t => HeapInv base t.1 t.2) (fun hi hs => heapCall_inv hend hi hs)
    heapInv_init).mallocRight_iff hend wantedSize

theorem freeBlock_nil {base b : Nat} (hlo : base ≤ b) (hhi : b < base + poolBlocks) :
    FreeBlock base [] b :=
  ⟨hlo, hhi, fun _ hd => absurd hd List.not_mem_nil⟩

/-- Calls of sizes that an `int` has. -/
theorem heapCall_run {base : Nat} {ops : List HeapOp} {s s' : UsbHeap × List DataBlock}
    (h : Run (where_ (heapStep base) (SafeHeapOp base)) s ops s')
    (hsizes : ∀ size boundary, .malloc size boundary ∈ ops → ∃ w : BitVec 32, w.toInt = size) :
    Run (where_ (heapCall base) (SafeHeapOp base)) s ops s' := by
  induction h with
  | nil => exact .nil
  | @snoc _ _ _ op _ hstep ih =>
    refine .snoc (ih fun size boundary hmem => hsizes size boundary (List.mem_append_left _ hmem)) ⟨hstep.1, ?_⟩
    cases op with
    | malloc size boundary => exact ⟨hsizes size boundary (List.mem_append_right _ (List.mem_singleton.2 rfl)), hstep.2.2⟩
    | free addr => exact hstep.2
    | write hdr => exact hstep.2

theorem firstReleased_sizes (size boundary : Int) (hmem : .malloc size boundary ∈ firstReleased) :
    ∃ w : BitVec 32, w.toInt = size := by
  rw [firstReleased] at hmem
  simp only [List.mem_cons, HeapOp.malloc.injEq, reduceCtorEq, List.not_mem_nil, or_false] at hmem
  rcases hmem with ⟨rfl, -⟩ | ⟨rfl, -⟩
  · exact ⟨100#32, rfl⟩
  · exact ⟨300#32, rfl⟩

/-- The block that was released holds the next request. -/
theorem usbMalloc_run_released : MallocRight samplePool releasedHeap.1 releasedHeap.2 100 4 := by
  have hfits : Fits samplePool releasedHeap.2 100 4 samplePool 1 := by
    refine ⟨Nat.one_pos, fun b hlo hhi => ?_, fun hb => absurd hb (by decide), by decide, by decide⟩
    obtain rfl : b = samplePool := by omega
    exact ⟨le_rfl, by decide, show ∀ d ∈ releasedHeap.2, ¬ (d.head ≤ samplePool ∧ samplePool < d.head + d.count) by
      decide +kernel⟩
  exact (usbMalloc_run (by decide) (heapCall_run releasedHeap_run firstReleased_sizes) 100#32 4#32).2
    (.inl ⟨samplePool, 1, hfits, .inl (by decide +kernel)⟩)

/-- A block given out and released: the whole pool is free, and the cursor stands behind its first
block. -/
def oneReleased : List HeapOp :=
  [.malloc 100 4, .free 0x80000010]

/-- A request that only the whole pool holds fails. -/
theorem not_mallocRight :
    ¬ ∀ s live, Run (heapCall samplePool) sampleHeap oneReleased (s, live) →
      ∀ wantedSize boundary : BitVec 32,
        MallocRight samplePool s live wantedSize.toInt boundary.toInt := by
  intro h
  have hsome : (oneReleased.foldlM (heapExec samplePool 300) sampleHeap).any (fun t =>
      t.2.isEmpty && t.1.freeMemorySize.toNat = 32768 &&
        (searchLoop samplePool t.1 32752 4 t.1.pCurrent 300 (searchStart samplePool t.1)).any
          (·.1.isNone)) = true := by
    decide +kernel
  obtain ⟨⟨s, live⟩, hs, hend⟩ := Option.any_eq_true _ _ |>.1 hsome
  simp only [Bool.and_eq_true, decide_eq_true_eq, List.isEmpty_iff] at hend
  obtain ⟨⟨rfl, hfree⟩, hloop⟩ := hend
  obtain ⟨r, hr, hnone⟩ := Option.any_eq_true _ _ |>.1 hloop
  have hrun : Run (heapCall samplePool) sampleHeap oneReleased (s, []) := by
    rw [oneReleased, List.foldlM_cons, Option.bind_eq_bind, Option.bind_eq_some_iff] at hs
    obtain ⟨t, hmalloc, hs⟩ := hs
    rw [List.foldlM_cons, Option.bind_eq_bind, Option.bind_eq_some_iff] at hs
    obtain ⟨t', hfree, hs⟩ := hs
    cases hs
    have hcall : heapStep samplePool sampleHeap (.malloc 100 4) t := heapExec_step hmalloc
    have hrelease : heapStep samplePool t (.free 0x80000010) (s, []) := heapExec_step hfree
    exact .snoc (.snoc .nil ⟨⟨100#32, rfl⟩, hcall.2⟩) hrelease
  have hsize : ¬ s.freeMemorySize.toNat ≤ (BitVec.ofInt 32 32752).toNat := by
    rw [hfree]
    decide
  have hright := (@Ends.mallocRight _ _ [] _ _ _ hsize ⟨300, hr⟩).1 (h s [] hrun 32752#32 4#32)
  have hfits : Fits samplePool [] 32752 4 samplePool 256 :=
    ⟨by decide, fun b hlo hhi => freeBlock_nil hlo hhi, fun hb => absurd hb (by decide), by decide,
      by decide⟩
  have hsome := hright.2 ⟨_, _, hfits⟩
  rw [Option.isNone_iff_eq_none.1 hnone] at hsome
  cases hsome

end NumakerMA35D1.UsbHost

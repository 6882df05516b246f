import NumakerMA35D1.Lib.Run

/-!
# The USB library's heap

`USB_malloc` and `USB_free` on a pool of 128-byte blocks. A block's first 16 bytes are a header when
the block is the first of an allocation, and data of the allocation otherwise. Blocks are numbered
by their address over 128, so the memory below and above the pool has numbers too; the pool begins
at block `base`. The search of `USB_malloc` need not end, so it takes a bound on its rounds.

Reference: `support.c`.
-/

namespace NumakerMA35D1.UsbHost

/-- Reference: `support.c:22 USB_MEMORY_POOL_SIZE`. -/
abbrev USB_MEMORY_POOL_SIZE : Nat := 32 * 1024
@[inherit_doc USB_MEMORY_POOL_SIZE] abbrev USB_MEM_BLOCK_SIZE : Nat := 128
@[inherit_doc USB_MEMORY_POOL_SIZE] abbrev BOUNDARY_WORD : Int := 4

/-- Reference: `support.c:32 USB_MEM_ALLOC_MAGIC`. -/
def USB_MEM_ALLOC_MAGIC : BitVec 32 := 0x19685788

/-- A header's size. Reference: `support.c:34 USB_mhdr`. -/
abbrev sizeofMhdr : Nat := 16

/-- The blocks of the pool. -/
abbrev poolBlocks : Nat := USB_MEMORY_POOL_SIZE / USB_MEM_BLOCK_SIZE

/-- The words of a header the heap uses. Reference: `support.c:34 USB_mhdr`. -/
structure UsbMhdr where
  flag : BitVec 32
  bcnt : BitVec 32
  magic : BitVec 32
deriving DecidableEq, Inhabited

/-- The headers at the blocks of memory, the counters and the cursor, a block number. Reference:
`support.c:28 _FreeMemorySize`, `support.c:44 _pCurrent`. -/
structure UsbHeap where
  hdr : Nat → UsbMhdr
  freeMemorySize : BitVec 32
  allocatedMemorySize : BitVec 32
  pCurrent : Nat

/-- Block numbers go around with the addresses. -/
def addBlock (b n : Nat) : Nat := (b + n) % 2 ^ 25

/-- The block `b` gets the flag. -/
def setFlag (hdr : Nat → UsbMhdr) (flag : BitVec 32) (b : Nat) : Nat → UsbMhdr :=
  fun b' => if b' = b then { hdr b with flag := flag } else hdr b'

/-- `n` blocks from `b` on get the flag. -/
def setFlags (hdr : Nat → UsbMhdr) (flag : BitVec 32) (b : Nat) : Nat → Nat → UsbMhdr
  | 0 => hdr
  | n + 1 => setFlag (setFlags hdr flag b n) flag (addBlock b n)

section

variable (base : Nat)

/-- Reference: `support.c:50 USB_InitializeMemoryPool`. -/
def usbInitializeMemoryPool (hdr : Nat → UsbMhdr) : UsbHeap where
  hdr b := if base ≤ b ∧ b < base + poolBlocks then ⟨0, 0, 0⟩ else hdr b
  freeMemorySize := BitVec.ofNat 32 USB_MEMORY_POOL_SIZE
  allocatedMemorySize := 0
  pCurrent := base

/-- The local variables of the search. Reference: `support.c:73 USB_malloc`. -/
structure Search where
  pCurrent : Nat
  pFound : Nat
  foundSize : Int
  blockCount : Nat
  wrap : Bool

/-- What one round of the search comes to. -/
inductive Round
  | next (l : Search)
  | badMagic
  | found (l : Search)

/-- The cursor at the pool's end goes back to its begin. -/
def wrapAtEnd (l : Search) : Search :=
  if l.pCurrent ≥ base + poolBlocks then
    { l with wrap := true, pCurrent := base, foundSize := -1 }
  else l

/-- A free block added to the run. Reference: `support.c:127 USB_malloc`. -/
def growRun (boundary : Int) (l : Search) : Search :=
  if l.foundSize = -1 then
    { l with
      pFound := l.pCurrent
      blockCount := 1
      foundSize :=
        if boundary > BOUNDARY_WORD then
          if l.pCurrent + 1 ≥ base + poolBlocks ∨
              (USB_MEM_BLOCK_SIZE * (l.pCurrent + 1)) % boundary.toNat ≠ 0 then -1
          else 0
        else (USB_MEM_BLOCK_SIZE - sizeofMhdr : Nat) }
  else { l with foundSize := l.foundSize + USB_MEM_BLOCK_SIZE, blockCount := l.blockCount + 1 }

/-- One round of the search. Reference: `support.c:97 USB_malloc`. -/
def searchRound (hdr : Nat → UsbMhdr) (wantedSize boundary : Int) (l : Search) : Round :=
  let h := hdr l.pCurrent
  if h.flag ≠ 0#32 then
    if h.magic ≠ USB_MEM_ALLOC_MAGIC then .badMagic
    else
      let l := { l with
        pCurrent := addBlock l.pCurrent (if h.flag = 3#32 then h.bcnt.toNat else 1)
        foundSize := -1 }
      .next (if l.pCurrent = base + poolBlocks then { l with wrap := true, pCurrent := base } else l)
  else
    let l := growRun base boundary l
    if l.foundSize ≥ wantedSize then .found l
    else .next (wrapAtEnd base { l with pCurrent := addBlock l.pCurrent 1 })

/-- The blocks of the run handed out. Reference: `support.c:160 USB_malloc`. -/
def allocateRun (s : UsbHeap) (l : Search) : UsbHeap :=
  let size := BitVec.ofNat 32 (l.blockCount * USB_MEM_BLOCK_SIZE)
  let hdr := fun b =>
    if b = l.pFound then
      { s.hdr b with
        bcnt := BitVec.ofNat 32 l.blockCount, magic := USB_MEM_ALLOC_MAGIC }
    else s.hdr b
  { hdr := setFlag (setFlags hdr 1#32 l.pFound l.blockCount) 3#32 l.pFound
    freeMemorySize := s.freeMemorySize - size
    allocatedMemorySize := s.allocatedMemorySize + size
    pCurrent := addBlock l.pFound l.blockCount }

/-- The data address of a run. Reference: `support.c:174 USB_malloc`. -/
def dataAddr (boundary : Int) (l : Search) : Nat :=
  if boundary > BOUNDARY_WORD then USB_MEM_BLOCK_SIZE * (l.pFound + 1)
  else USB_MEM_BLOCK_SIZE * l.pFound + sizeofMhdr

/-- The search, at most `fuel` rounds; `none` when it has not ended. Reference: `support.c:97
USB_malloc`. -/
def searchLoop (s : UsbHeap) (wantedSize boundary : Int) (pPrimitivePos : Nat) :
    Nat → Search → Option (Option Nat × UsbHeap)
  | 0, _ => none
  | fuel + 1, l =>
    match searchRound base s.hdr wantedSize boundary l with
    | .badMagic => some (none, { s with pCurrent := l.pCurrent })
    | .found l => some (some (dataAddr boundary l), allocateRun s l)
    | .next l =>
      if l.wrap = false ∨ l.pCurrent < pPrimitivePos then
        searchLoop s wantedSize boundary pPrimitivePos fuel l
      else some (none, { s with pCurrent := l.pCurrent })

/-- The address given out, if any. Reference: `support.c:73 USB_malloc`. -/
def usbMalloc (fuel : Nat) (s : UsbHeap) (wantedSize boundary : Int) :
    Option (Option Nat × UsbHeap) :=
  if (BitVec.ofInt 32 wantedSize).toNat ≥ s.freeMemorySize.toNat then some (none, s)
  else
    searchLoop base s wantedSize boundary s.pCurrent fuel
      { pCurrent := if s.pCurrent ≥ base + poolBlocks then base else s.pCurrent
        pFound := 0, foundSize := -1, blockCount := 0, wrap := false }

/-- The block of the header an address is released by, unless the address is turned down.
Reference: `support.c:216 USB_free`. -/
def headerBlock (addr : Nat) : Option Nat :=
  if addr < USB_MEM_BLOCK_SIZE * base ∨ addr ≥ USB_MEM_BLOCK_SIZE * (base + poolBlocks) then none
  else if addr % USB_MEM_BLOCK_SIZE = 0 then
    some ((addr + 2 ^ 32 - USB_MEM_BLOCK_SIZE) % 2 ^ 32 / USB_MEM_BLOCK_SIZE)
  else if (addr - sizeofMhdr) % USB_MEM_BLOCK_SIZE ≠ 0 then none
  else some ((addr - sizeofMhdr) / USB_MEM_BLOCK_SIZE)

/-- Reference: `support.c:203 USB_free`. -/
def usbFree (s : UsbHeap) (addr : Nat) : UsbHeap :=
  match headerBlock base addr with
  | none => s
  | some b =>
    if (s.hdr b).flag = 0#32 then s
    else if (s.hdr b).magic ≠ USB_MEM_ALLOC_MAGIC then s
    else
      let count := (s.hdr b).bcnt.toInt
      { s with
        hdr := setFlags s.hdr 0#32 b count.toNat
        freeMemorySize := s.freeMemorySize + BitVec.ofInt 32 (count * USB_MEM_BLOCK_SIZE)
        allocatedMemorySize := s.allocatedMemorySize - BitVec.ofInt 32 (count * USB_MEM_BLOCK_SIZE) }

end

end NumakerMA35D1.UsbHost

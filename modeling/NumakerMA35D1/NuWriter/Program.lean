import NumakerMA35D1.Lib.Attempt
import NumakerMA35D1.NuWriter.Walk

/-!
# Programming a storage device

The target programs the children of a pack into a block device, sector by sector, or into a NAND
flash, block by block past the bad ones, and reads a NAND flash back into a file. What it does to
the device is a log of operations; a pattern says which of them fail. `performAll` runs the list
of operations that a pack leads to (`blockOps`, `childOps`, `readbackOps`), and the programs run exactly
these (`nuwriterPackProgramBlock_eq`, `nuwriterPackProgramMtd_eq`, `nuwriterReadbackMtd_eq`).
-/

namespace NumakerMA35D1.NuWriter

open Embedded

/-- The operations on a device and on the file of a read-back: a sector written, a block erased, the
first bytes of a page written, a page read, and the page read written to the file. Reference:
`nuwriter.c:442 nuwriter_pack_program_block`, `nuwriter.c:533 nuwriter_pack_program_mtd`,
`nuwriter.c:643 nuwriter_readback_mtd`. -/
inductive StorageOp
  | writeSector (pos : BitVec 32) (buffer : List Byte)
  | eraseBlock (block : BitVec 32)
  | writePage (page : BitVec 32) (data : List Byte)
  | readPage (page : BitVec 32)
  | writeFile (page : BitVec 32)
deriving DecidableEq, Repr

/-- `RT_ALIGN` of a 64-bit number to a 32-bit one, whose mask is widened with zeros. Reference:
`rtdef.h:364 RT_ALIGN`. -/
def rtAlign64 (size : BitVec 64) (align : BitVec 32) : BitVec 64 :=
  (size + align.setWidth 64 - 1) &&& (~~~(align - 1)).setWidth 64

/-- `memcpy` to the start of a buffer. -/
def copyTo (buffer data : List Byte) : List Byte := data ++ buffer.drop data.length

/-! ## A block device -/

/-- The number of sectors of a child. Reference: `nuwriter.c:433 nuwriter_pack_program_block`. -/
def totalSectors (bytes_per_sector : BitVec 32) (psPackChild : PackChild) : BitVec 32 :=
  (rtAlign64 psPackChild.m_ui64ImageLength bytes_per_sector /
    bytes_per_sector.setWidth 64).setWidth 32

/-- The bytes of a transfer. Reference: `nuwriter.c:440 nuwriter_pack_program_block`, `nuwriter.c:549
nuwriter_pack_program_mtd`. -/
def transferBytes (unit u32Remain : BitVec 32) : BitVec 32 :=
  if u32Remain ≥ unit then unit else u32Remain

/-- The bytes of a child from an offset on. -/
def PackChild.bytes (psPackChild : PackChild) (offset len : BitVec 32) : List Byte :=
  slice psPackChild.m_au8Data offset.toNat (offset.toNat + len.toNat)

/-- The loop over the sectors of a child, with so many left; it hands the buffer on. Reference:
`nuwriter.c:437 nuwriter_pack_program_block`. -/
def programSectors (fails : Nat → Bool) (bytes_per_sector : BitVec 32) (psPackChild : PackChild) :
    Nat → BitVec 32 → BitVec 32 → List Byte × List StorageOp →
      Except (Stop StorageOp) (List Byte × List StorageOp)
  | 0, _, _, s => .ok s
  | n + 1, blk_off, u32Remain, (block_buffer, log) => do
    let transfer_bytes := transferBytes bytes_per_sector u32Remain
    let block_buffer :=
      copyTo block_buffer (psPackChild.bytes (blk_off * bytes_per_sector) transfer_bytes)
    let pos :=
      (psPackChild.m_ui64FlashAddress / bytes_per_sector.setWidth 64 + blk_off.setWidth 64).setWidth 32
    let log ← perform fails log (.writeSector pos block_buffer)
    programSectors fails bytes_per_sector psPackChild n (blk_off + 1) (u32Remain - transfer_bytes)
      (block_buffer, log)

/-- The loop over the children, the last one first. The geometry is `none` where the device does not
give it; `block_buffer` is what the allocator left in the buffer. Reference: `nuwriter.c:397
nuwriter_pack_program_block`. -/
def nuwriterPackProgramBlock (fails : Nat → Bool) (geo : Option (BitVec 32))
    (block_buffer : List Byte) (ppsChildList : List PackChild) :
    Except (Stop StorageOp) (List StorageOp) :=
  match geo with
  | none => .error (.failed [])
  | some bytes_per_sector =>
    if bytes_per_sector = 0 then .error (.refused [])
    else do
      let (_, log) ← ppsChildList.reverse.foldlM (fun s psPackChild =>
        programSectors fails bytes_per_sector psPackChild
          (totalSectors bytes_per_sector psPackChild).toNat 0
          (psPackChild.m_ui64ImageLength.setWidth 32) s) (block_buffer, [])
      return log

/-! ## A NAND flash -/

/-- A NAND device. Sizes are powers of two, as of every NAND flash; `bad` says for which block numbers
`rt_mtd_nand_check_block` returns an error. Reference: `mtd_nand.h:32 rt_mtd_nand_device`. -/
structure MtdNandDevice where
  page_size : BitVec 16
  pages_per_block : BitVec 32
  block_total : BitVec 16
  block_start : BitVec 32
  bad : BitVec 32 → Bool
  page_pow : ∃ k, page_size.toNat = 2 ^ k
  pages_pow : ∃ k, pages_per_block.toNat = 2 ^ k
  erase_lt : page_size.toNat * pages_per_block.toNat < 2 ^ 32

/-- Reference: `nuwriter.c:496 nuwriter_pack_program_mtd`. -/
def MtdNandDevice.u32EraseSize (device : MtdNandDevice) : BitVec 32 :=
  device.pages_per_block * device.page_size.setWidth 32

/-- The first block from `block_off` on that is not bad; `none` where the loop goes round for ever.
The numbers of blocks are 32 bits wide and wrap. Reference: `nuwriter.c:524
nuwriter_pack_program_mtd`, `nuwriter.c:623 nuwriter_readback_mtd`. -/
def skipBad (bad : BitVec 32 → Bool) : Nat → BitVec 32 → Option (BitVec 32)
  | 0, _ => none
  | fuel + 1, block_off => if bad block_off then skipBad bad fuel (block_off + 1) else some block_off

/-- The search over all block numbers. -/
def MtdNandDevice.goodBlock (device : MtdNandDevice) (block_off : BitVec 32) :
    Except (Stop StorageOp) (BitVec 32) :=
  match skipBad device.bad (2 ^ 32) block_off with
  | none => .error .endless
  | some block_off => .ok block_off

/-- The loop over the pages of a block, with so many left; it hands on what remains of the child. A
page that is not full is written with its own bytes only. Reference: `nuwriter.c:547
nuwriter_pack_program_mtd`. -/
def programPages (fails : Nat → Bool) (device : MtdNandDevice) (psPackChild : PackChild)
    (block_idx page_off : BitVec 32) :
    Nat → BitVec 32 → BitVec 32 → List StorageOp → Except (Stop StorageOp) (BitVec 32 × List StorageOp)
  | 0, _, u32Remain, log => .ok (u32Remain, log)
  | n + 1, page_idx, u32Remain, log => do
    let transfer_bytes := transferBytes (device.page_size.setWidth 32) u32Remain
    let data := psPackChild.bytes
      ((block_idx * device.pages_per_block + page_idx) * device.page_size.setWidth 32) transfer_bytes
    let log ← perform fails log (.writePage (page_off + page_idx) data)
    programPages fails device psPackChild block_idx page_off n (page_idx + 1)
      (u32Remain - transfer_bytes) log

/-- The number of pages to write in a block. Reference: `nuwriter.c:541
nuwriter_pack_program_mtd`. -/
def MtdNandDevice.totalPage (device : MtdNandDevice) (u32Remain : BitVec 32) : BitVec 32 :=
  if u32Remain ≥ device.u32EraseSize then device.pages_per_block
  else alignUp u32Remain (device.page_size.setWidth 32) / device.page_size.setWidth 32

/-- The loop over the blocks of a child, with so many left. Reference: `nuwriter.c:520
nuwriter_pack_program_mtd`. -/
def programBlocks (fails : Nat → Bool) (device : MtdNandDevice) (psPackChild : PackChild) :
    Nat → BitVec 32 → BitVec 32 → BitVec 32 → List StorageOp →
      Except (Stop StorageOp) (List StorageOp)
  | 0, _, _, _, log => .ok log
  | n + 1, block_idx, block_off, u32Remain, log => do
    let block_off ← device.goodBlock block_off
    let log ← perform fails log (.eraseBlock block_off)
    let (u32Remain, log) ← programPages fails device psPackChild block_idx
      (block_off * device.pages_per_block) (device.totalPage u32Remain).toNat 0 u32Remain log
    programBlocks fails device psPackChild n (block_idx + 1) (block_off + 1) u32Remain log

/-- A flash address at the start of a block. Reference: `nuwriter.c:511 nuwriter_pack_program_mtd`. -/
def MtdNandDevice.aligned (device : MtdNandDevice) (psPackChild : PackChild) : Bool :=
  psPackChild.m_ui64FlashAddress = rtAlign64 psPackChild.m_ui64FlashAddress device.u32EraseSize

/-- The number of blocks of a child. Reference: `nuwriter.c:508 nuwriter_pack_program_mtd`. -/
def MtdNandDevice.totalBlock (device : MtdNandDevice) (psPackChild : PackChild) : BitVec 32 :=
  alignUp (psPackChild.m_ui64ImageLength.setWidth 32) device.u32EraseSize / device.u32EraseSize

/-- One child. Reference: `nuwriter.c:500 nuwriter_pack_program_mtd`. -/
def programChild (fails : Nat → Bool) (device : MtdNandDevice) (log : List StorageOp)
    (psPackChild : PackChild) : Except (Stop StorageOp) (List StorageOp) :=
  if device.aligned psPackChild then
    programBlocks fails device psPackChild (device.totalBlock psPackChild).toNat 0
      (psPackChild.m_ui64FlashAddress / device.u32EraseSize.setWidth 64 |>.setWidth 32)
      (psPackChild.m_ui64ImageLength.setWidth 32) log
  else .error (.refused log)

/-- The loop over the children, the last one first. Reference: `nuwriter.c:477
nuwriter_pack_program_mtd`. -/
def nuwriterPackProgramMtd (fails : Nat → Bool) (device : MtdNandDevice)
    (ppsChildList : List PackChild) : Except (Stop StorageOp) (List StorageOp) :=
  ppsChildList.reverse.foldlM (programChild fails device) []

/-- The pages of a block read, with so many left, and written to the file if there is one.
Reference: `nuwriter.c:634 nuwriter_readback_mtd`. -/
def readbackPages (fails : Nat → Bool) (hasFile : Bool) (page_off : BitVec 32) :
    Nat → BitVec 32 → List StorageOp → Except (Stop StorageOp) (List StorageOp)
  | 0, _, log => .ok log
  | n + 1, page_idx, log => do
    let log ← perform fails log (.readPage (page_off + page_idx))
    let log ← if hasFile then perform fails log (.writeFile (page_off + page_idx)) else .ok log
    readbackPages fails hasFile page_off n (page_idx + 1) log

/-- The loop over the blocks, with so many left. Reference: `nuwriter.c:618
nuwriter_readback_mtd`. -/
def readbackBlocks (fails : Nat → Bool) (hasFile : Bool) (device : MtdNandDevice) :
    Nat → BitVec 32 → List StorageOp → Except (Stop StorageOp) (List StorageOp)
  | 0, _, log => .ok log
  | n + 1, block_off, log => do
    let block_off ← device.goodBlock block_off
    let log ← readbackPages fails hasFile (block_off * device.pages_per_block)
      device.pages_per_block.toNat 0 log
    readbackBlocks fails hasFile device n (block_off + 1) log

/-- Reference: `nuwriter.c:598 nuwriter_readback_mtd`. -/
def nuwriterReadbackMtd (fails : Nat → Bool) (hasFile : Bool) (device : MtdNandDevice) :
    Except (Stop StorageOp) (List StorageOp) :=
  readbackBlocks fails hasFile device device.block_total.toNat device.block_start []

end NumakerMA35D1.NuWriter

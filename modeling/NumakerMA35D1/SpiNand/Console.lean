import NumakerMA35D1.SpiNand.Spinand

/-!
# The rest of the MTD operations, and the shell commands

A page moved inside the chip, a block erased without a look at its mark, and the commands that erase
and mark blocks of a partition. A block is counted from the start of the chip; a command that takes
one counts from the start of its partition. A command's arguments are parsed and its partition is
found; it returns zero (`EOK`) or minus one (`ERROR`).

Reference: `drv_spinand.c`.
-/

namespace NumakerMA35D1.SpiNand

/-- A partition with all that the driver reads of it. Reference: `mtd_nand.h:32
rt_mtd_nand_device`. -/
structure Partition extends MtdNand where
  blockStart : Nat
  blockTotal : Nat

section

variable (info : NuSpinandInfo)

/-- Reference: `drv_spinand.c:273 spinand_move_page`. -/
def spinandMovePage (device : MtdNand) (srcPage dstPage : Nat) : Step := fun b =>
  if srcPage / info.u32PagePerBlock > device.blockEnd ∨
      dstPage / info.u32PagePerBlock > device.blockEnd then
    .ok (.mtdEio, b)
  else
    (spinandReadDataload info srcPage).then
      ((nuQspiSend info .writeEnable).then (spinandProgramExecute info dstPage)) b

/-- Reference: `drv_spinand.c:316 spinand_erase_block_force`. -/
def spinandEraseBlockForce (device : MtdNand) (block : Nat) : Step := fun b =>
  if block > device.blockEnd then .ok (.mtdEio, b)
  else spinandBlockErase info (pageOf info block) b

/-- What a command makes of an operation's error code. -/
def commandResult (r : Err) : Err := if r = .eok then .eok else .error

variable (device : Partition)

/-- A partition's block as one of the chip, in unsigned arithmetic. -/
def absoluteBlock (block : BitVec 32) : Nat := (block.toNat + device.blockStart) % 2 ^ 32

/-- Reference: `drv_spinand.c:701 nerase`. -/
def nerase (block : BitVec 32) : Step := fun b => do
  let r ← spinandEraseBlock info device.toMtdNand (absoluteBlock device block) b
  .ok (commandResult r.1, r.2)

/-- Reference: `drv_spinand.c:763 nmarkbad`. -/
def nmarkbad (block : BitVec 32) : Step := fun b => do
  let r ← spinandMarkBadblock info device.toMtdNand (absoluteBlock device block) b
  .ok (commandResult r.1, r.2)

/-- The blocks from one on erased until an erase fails. Reference: `drv_spinand.c:750` to `:755`. -/
def neraseForceFrom (block : Nat) : Nat → Step
  | 0 => fun b => .ok (.eok, b)
  | n + 1 => fun b => do
    let r ← spinandEraseBlockForce info device.toMtdNand (block + device.blockStart) b
    if r.1 ≠ .eok then .ok (.error, r.2) else neraseForceFrom (block + 1) n r.2

/-- Reference: `drv_spinand.c:732 nerase_force`. -/
def neraseForce : Step := neraseForceFrom info device 0 (device.blockEnd + 1)

/-- The blocks from one on erased, whatever comes of it. Reference: `drv_spinand.c:814` to `:817`. -/
def neraseAllFrom (index : Nat) : Nat → Step
  | 0 => fun b => .ok (.eok, b)
  | n + 1 => fun b => do
    let r ← spinandEraseBlock info device.toMtdNand index b
    neraseAllFrom (index + 1) n r.2

/-- Reference: `drv_spinand.c:795 nerase_all`. -/
def neraseAll : Step := neraseAllFrom info device 0 device.blockTotal

end

end NumakerMA35D1.SpiNand

import NumakerMA35D1.SpiNand.Chip

/-!
# The SPI NAND driver

The chip functions of `spinand.c` and the MTD operations of `drv_spinand.c`. A function is a
sequence of steps that ends at the first error (`Step.then`), as the source's jumps to its exit
label do. A failed assertion halts. The lock is taken and given back around each operation; the
choice of a die, which no chip of the list has, is left out.

Reference: `spinand.c`, `drv_spinand.c`.
-/

namespace NumakerMA35D1.SpiNand

/-- Reference: `rtdef.h:343`, `mtd_nand.h:24`. -/
inductive Err
  | eok | error | eio | mtdEio | mtdEecc
deriving DecidableEq

/-- A failed assertion. -/
inductive Halt
  | assert

/-- A part of a function: an error code and the bus after it. -/
abbrev Step := Bus → Except Halt (Err × Bus)

/-- The next part, unless this one failed. -/
def Step.then (x y : Step) : Step := fun b =>
  match x b with
  | .ok (.eok, b') => y b'
  | r => r

/-- The fields of a list entry the driver uses. Reference: `spinand.h:70 nu_spinand_info`. -/
structure NuSpinandInfo where
  u32JEDECID : Nat
  u16PageSize : Nat
  u16OOBSize : Nat
  u32BlockPerFlash : Nat
  u32PagePerBlock : Nat

/-- Reference: `spinand.c:26 g_spinandflash_list`. -/
def gSpinandflashList : List NuSpinandInfo :=
  [⟨0xEFAA21, 2048, 64, 1024, 64⟩, ⟨0xEFBF22, 2048, 64, 2048, 64⟩, ⟨0xEFBA23, 2048, 64, 4096, 64⟩]

/-- A partition. Reference: `mtd_nand.h rt_mtd_nand_device`. -/
structure MtdNand where
  blockEnd : Nat

section

variable (info : NuSpinandInfo)

/-- A transfer of a command. Reference: `drv_spinand.c:115 nu_qspi_send`, `drv_spinand.c:81
nu_qspi_send_then_recv`. The wait for the bus's lock has no time-out and is taken to end with the lock; the
path behind one that fails (`:38`), which returns 0 and sends nothing, is left out. -/
def nuQspiSend (cmd : Command) : Step := fun b =>
  if b.answer.goes then
    .ok (.eok, (b.withChip (b.chip.execute info.u32PagePerBlock b.answer cmd)).next)
  else .ok (.eio, b.next)

/-- The wait until the chip is ready. Reference: `spinand.c:208 spinand_isbusy`. -/
def spinandWait (err : Err) : Step := fun b =>
  if b.answer.ready then .ok (.eok, b.next) else .ok (err, b.next)

/-- A look at status register 3. Reference: `spinand.c:283 spinand_status_register_read`. -/
def statusCheck (good : BitVec 8 → Bool) (err : Err) : Step := fun b =>
  if b.answer.goes then
    if good b.chip.status3 then .ok (.eok, b.next) else .ok (err, b.next)
  else .error .assert

/-- The three address bytes of a page. -/
def rowOf (page : Nat) : Nat := page % 2 ^ 24

/-- Reference: `spinand.c:252 spinand_program_dataload`. -/
def spinandProgramDataload (column : Nat) (data spare : List Byte) : Step :=
  (nuQspiSend info .writeEnable).then (nuQspiSend info (.programDataLoad column (data ++ spare)))

/-- Reference: `spinand.c:362 spinand_program_execute`. -/
def spinandProgramExecute (page : Nat) : Step :=
  (nuQspiSend info (.programExecute (rowOf page))).then <|
    (spinandWait .mtdEio).then (statusCheck (fun sr => (sr &&& 0x0C#8) >>> 2 ≠ 1#8) .mtdEio)

/-- Reference: `spinand.c:503 spinand_read_dataload`. -/
def spinandReadDataload (page : Nat) : Step :=
  (nuQspiSend info (.pageRead (rowOf page))).then <| (spinandWait .eio).then <|
    statusCheck (fun sr => (sr &&& 0x30#8) >>> 4 = 0#8 ∨ (sr &&& 0x30#8) >>> 4 = 1#8) .mtdEecc

/-- Reference: `spinand.c:580 spinand_block_erase`. -/
def spinandBlockErase (page : Nat) : Step :=
  (nuQspiSend info .writeEnable).then <| (nuQspiSend info (.blockErase (rowOf page))).then <|
    (spinandWait .eio).then (statusCheck (fun sr => (sr &&& 0x0C#8) >>> 2 = 0#8) .error)

/-- The bad-block mark of a page, once it is loaded and read; each must succeed. Reference:
`spinand.c:542 spinand_block_isbad`. -/
def readMark (page : Nat) (b : Bus) : Except Halt (Byte × Bus) :=
  match (spinandReadDataload info page).then (nuQspiSend info .read) b with
  | .ok (.eok, b') => .ok (b'.chip.cache info.u16PageSize, b')
  | _ => .error .assert

/-- Reference: `spinand.c:535 spinand_block_isbad`. The loop goes on to the second page once at
most: the address after a multiple of the unit is none. -/
def spinandBlockIsbad (page : Nat) (b : Bus) : Except Halt (Bool × Bus) := do
  let (mark, b) ← readMark info page b
  if mark ≠ 0xFF#8 then .ok (true, b)
  else if page % (info.u32PagePerBlock * info.u16PageSize) = 0 then do
    let (mark, b) ← readMark info (page + 1) b
    .ok (mark ≠ 0xFF#8, b)
  else .ok (false, b)

/-- Reference: `spinand.c:613 spinand_block_markbad`. -/
def spinandBlockMarkbad (page : Nat) : Step :=
  (spinandBlockErase info page).then <|
    (spinandProgramDataload info info.u16PageSize [0xF0#8] []).then
      (spinandProgramExecute info page)

/-! ## The MTD operations -/

/-- The first page of a block, an unsigned product. -/
def pageOf (block : Nat) : Nat := block * info.u32PagePerBlock % 2 ^ 32

variable (device : MtdNand)

/-- A read into buffers of two lengths. Reference: `drv_spinand.c:166 spinand_read_page`. -/
def spinandReadPage (page dataLen spareLen : Nat) : Step := fun b =>
  if page / info.u32PagePerBlock > device.blockEnd then .ok (.mtdEio, b)
  else (spinandReadDataload info page).then (fun b =>
    (if dataLen ≠ 0 then nuQspiSend info .read else fun b => .ok (.eok, b)).then
      (if spareLen ≠ 0 then nuQspiSend info .read else fun b => .ok (.eok, b)) b) b

/-- Reference: `drv_spinand.c:213 spinand_write_page`. -/
def spinandWritePage (page : Nat) (data spare : List Byte) : Step := fun b =>
  if page / info.u32PagePerBlock > device.blockEnd then .ok (.mtdEio, b)
  else
    (if data ≠ [] then spinandProgramDataload info 0 data spare
      else spinandProgramDataload info info.u16PageSize [] spare).then
      (spinandProgramExecute info page) b

/-- Reference: `drv_spinand.c:347 spinand_erase_block`. -/
def spinandEraseBlock (block : Nat) : Step := fun b =>
  if block > device.blockEnd then .ok (.mtdEio, b)
  else do
    let (bad, b) ← spinandBlockIsbad info (pageOf info block) b
    if bad then .ok (.error, b) else spinandBlockErase info (pageOf info block) b

/-- Reference: `drv_spinand.c:392 spinand_check_block`. -/
def spinandCheckBlock (block : Nat) : Step := fun b =>
  if block > device.blockEnd then .ok (.mtdEio, b)
  else do
    let (bad, b) ← spinandBlockIsbad info (pageOf info block) b
    .ok (if bad then .error else .eok, b)

/-- Reference: `drv_spinand.c:422 spinand_mark_badblock`. -/
def spinandMarkBadblock (block : Nat) : Step := fun b =>
  if block > device.blockEnd then .ok (.mtdEio, b)
  else do
    let (bad, b) ← spinandBlockIsbad info (pageOf info block) b
    if bad then .ok (.eok, b) else spinandBlockMarkbad info (pageOf info block) b

end

end NumakerMA35D1.SpiNand

import Mathlib

/-!
# A SPI NAND chip on its bus

The chip as its command set shows it: pages of cells, the page buffer that reads and programs go
through, the write-enable latch and the status bits of register 3. Cells are erased to ones and
programmed to zeros. What the chip and the bus do that the driver does not decide is an answer: one
is used up by each transfer.

Reference: `spinand.c`.
-/

namespace NumakerMA35D1.SpiNand

/-- A byte. -/
abbrev Byte := BitVec 8

/-- What decides how a transfer ends: whether the bus can be set up for it, whether the erase or
program it starts fails and what that leaves in the cells, the result of the error correction of the
page it loads, and whether the chip is ready before the time-out. -/
structure Answer where
  goes : Bool
  eraseFails : Bool
  programFails : Bool
  left : Nat → Nat → Byte
  ecc : BitVec 2
  ready : Bool

/-- The chip. A cell has a page and a column; the columns from the page size on are the spare
area. -/
structure Chip where
  cell : Nat → Nat → Byte
  cache : Nat → Byte
  wel : Bool
  eFail : Bool
  pFail : Bool
  ecc : BitVec 2

/-- The commands the driver sends. -/
inductive Command
  | writeEnable
  | pageRead (row : Nat)
  | blockErase (row : Nat)
  | programDataLoad (column : Nat) (data : List Byte)
  | programExecute (row : Nat)
  | read

/-- Status register 3. Reference: `spinand.c:282 spinand_program_erase_isfail`, `spinand.c:289
spinand_hwecc_status_get`. -/
def Chip.status3 (c : Chip) : BitVec 8 :=
  c.ecc.setWidth 8 <<< 4 ||| (BitVec.ofBool c.pFail).setWidth 8 <<< 3 |||
    (BitVec.ofBool c.eFail).setWidth 8 <<< 2 ||| (BitVec.ofBool c.wel).setWidth 8 <<< 1

/-- A command executed, on a chip with `ppb` pages a block. A program or an erase without the latch
is ignored; a program can only clear bits. -/
def Chip.execute (ppb : Nat) (c : Chip) (a : Answer) : Command → Chip
  | .writeEnable => { c with wel := true }
  | .pageRead row => { c with cache := c.cell row, ecc := a.ecc }
  | .blockErase row =>
    if c.wel then
      { c with
        cell := fun p col => if p / ppb = row / ppb then
            if a.eraseFails then a.left p col else 0xFF#8
          else c.cell p col
        wel := false
        eFail := a.eraseFails
        pFail := false }
    else c
  | .programDataLoad column data =>
    { c with cache := fun col =>
        if column ≤ col then data.getD (col - column) 0xFF#8 else 0xFF#8 }
  | .programExecute row =>
    if c.wel then
      { c with
        cell := fun p col => if p = row then
            if a.programFails then c.cell p col &&& a.left p col
            else c.cell p col &&& c.cache col
          else c.cell p col
        wel := false
        eFail := false
        pFail := a.programFails }
    else c
  | .read => c

/-- The chip with the answers to come. -/
structure Bus where
  chip : Chip
  answers : Nat → Answer
  now : Nat

namespace Bus

/-- The next answer. -/
def answer (b : Bus) : Answer := b.answers b.now

/-- An answer used up. -/
def next (b : Bus) : Bus := { b with now := b.now + 1 }

/-- The chip changed. -/
def withChip (b : Bus) (c : Chip) : Bus := { b with chip := c }

@[simp] theorem next_chip (b : Bus) : b.next.chip = b.chip := rfl
@[simp] theorem withChip_chip (b : Bus) (c : Chip) : (b.withChip c).chip = c := rfl
@[simp] theorem next_answers (b : Bus) : b.next.answers = b.answers := rfl
@[simp] theorem withChip_answers (b : Bus) (c : Chip) : (b.withChip c).answers = b.answers := rfl

end Bus

end NumakerMA35D1.SpiNand

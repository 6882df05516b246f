import NumakerMA35D1.Lib.Bytes
import NumakerMA35D1.Lib.Interleave
import NumakerMA35D1.Pdma.Chain

/-!
# The SPI driver's transfers

The controller with its two FIFOs and the shift register, and a polled transfer as the accesses to its registers
that the CPU makes one after another; between two of them the controller makes any progress. What is shifted in
is a function of what has been shifted out. The transfer by PDMA moves as many words as the chain of
`nu_pdma_transfer` does.

Reference: `drv_spi.c`, `spi_reg.h`.
-/

namespace NumakerMA35D1.Spi

open Embedded Pdma

/-- A word of a FIFO. -/
abbrev Word := BitVec 32

/-! ## The controller -/

/-- The FIFOs and the shift register, with the words that have gone out and come in during a transfer and the
number of those that were dropped. -/
structure Fifo where
  tx : List Word
  shift : Option Word
  rx : List Word
  out : List Word
  inn : List Word
  dropped : Nat

/-- Out of reset. -/
def Fifo.reset : Fifo := ⟨[], none, [], [], [], 0⟩

/-- Reference: `spi_reg.h:317 TXFULL`. -/
def Fifo.full (c : Fifo) (depth : Nat) : Bool := depth ≤ c.tx.length

/-- Reference: `spi_reg.h:249 BUSY`. -/
def Fifo.busy (c : Fifo) : Bool := !c.tx.isEmpty || c.shift.isSome

/-- A progress of the controller: a word goes to the shift register, or the word in it has been exchanged. A
word that comes in while the receive FIFO is full is dropped. Reference: `spi_reg.h:300 RXOVIF`. -/
def Fifo.tick (depth : Nat) (slave : List Word → Word) (c : Fifo) : Fifo :=
  match c.shift with
  | some w =>
    let r := slave (c.out ++ [w])
    { c with
      shift := none
      out := c.out ++ [w]
      inn := c.inn ++ [r]
      rx := if c.rx.length < depth then c.rx ++ [r] else c.rx
      dropped := if c.rx.length < depth then c.dropped else c.dropped + 1 }
  | none =>
    match c.tx with
    | w :: tx => { c with tx := tx, shift := some w }
    | [] => c

/-! ## A transfer -/

/-- The buffers of a message. Reference: `drv_spi.c:525 nu_spi_transmission_with_poll`. -/
inductive Buffers
  | write (send : Nat → Byte)
  | read
  | readWrite (send : Nat → Byte)

/-- A receive buffer is given. -/
def Buffers.receives : Buffers → Bool
  | .write _ => false
  | .read => true
  | .readWrite _ => true

/-- What is handed to a transfer: its buffers, the word size, one of those that the driver takes, and the length.
Reference: `drv_spi.c:177 nu_spi_bus_configure`, `:584 nu_spi_transfer`. -/
structure Xfer where
  buffers : Buffers
  bytesPerWord : Nat
  length : Nat
  width : 1 ≤ bytesPerWord ∧ bytesPerWord ≤ 4

/-- Reference: `nu_bitutil.h nu_get16_le`, `nu_get24_le`, `nu_get32_le`. -/
def getLe (bytesPerWord : Nat) (addr : Nat → Byte) (off : Nat) : Word :=
  BitVec.ofNat 32 (ofLeBytes ((List.range bytesPerWord).map fun i => addr (off + i)))

/-- Reference: `nu_bitutil.h nu_set16_le`, `nu_set24_le`, `nu_set32_le`. -/
def setLe (bytesPerWord : Nat) (mem : Nat → Byte) (off : Nat) (val : Word) : Nat → Byte := fun i =>
  if off ≤ i ∧ i < off + bytesPerWord then BitVec.ofNat 8 (val.toNat / 256 ^ (i - off)) else mem i

/-- The word that is written at an offset; without a buffer it is the dummy. -/
def Xfer.outWord (x : Xfer) (off : Nat) : Word :=
  match x.buffers with
  | .write send => getLe x.bytesPerWord send off
  | .read => 0#32
  | .readWrite send => getLe x.bytesPerWord send off

/-- The loops that read the receive FIFO: the one that writes, the one while the controller is busy, and the
last. -/
inductive Loop
  | words | busy | last
deriving DecidableEq

/-- Where the CPU is: at the head of a loop, before an access to a register, or at the end. -/
inductive Pc
  | head (l : Loop)
  | waitTx
  | writeTx
  | testRx (l : Loop)
  | readRx (l : Loop)
  | testBusy
  | drainBusy
  | drainTest
  | drainClear
  | done
deriving DecidableEq

/-- What the CPU keeps: how much is left, how far it has sent and received, and the receive buffer. -/
structure Cpu where
  pc : Pc
  left : Nat
  sendAddr : Nat
  recvAddr : Nat
  mem : Nat → Byte

/-- A transfer under way. -/
structure Poll where
  fifo : Fifo
  cpu : Cpu

/-- The next place. -/
def Poll.goto (s : Poll) (pc : Pc) : Poll := { s with cpu := { s.cpu with pc := pc } }

/-- Reference: `drv_spi.c:449 nu_spi_read`. -/
def Poll.readRx (x : Xfer) (s : Poll) : Poll :=
  match s.fifo.rx with
  | w :: rx =>
    { fifo := { s.fifo with rx := rx }
      cpu := { s.cpu with
        mem := setLe x.bytesPerWord s.cpu.mem s.cpu.recvAddr w
        recvAddr := s.cpu.recvAddr + x.bytesPerWord } }
  | [] => s

/-- Reference: `drv_spi.c:485 nu_spi_write`. -/
def Poll.writeTx (x : Xfer) (s : Poll) : Poll :=
  { fifo := { s.fifo with tx := s.fifo.tx ++ [x.outWord s.cpu.sendAddr] }
    cpu := { s.cpu with
      left := s.cpu.left - x.bytesPerWord
      sendAddr := s.cpu.sendAddr + x.bytesPerWord } }

/-- An access of the CPU to the controller. Reference: `drv_spi.c:438 nu_spi_drain_rxfifo`,
`:519 nu_spi_transmission_with_poll`. -/
def Poll.step (depth : Nat) (x : Xfer) (s : Poll) : Poll :=
  match s.cpu.pc with
  | .head .words =>
    if 0 < s.cpu.left then s.goto .waitTx
    else s.goto (if x.buffers.receives then .testBusy else .drainBusy)
  | .waitTx => if s.fifo.full depth then s else s.goto .writeTx
  | .writeTx => (s.writeTx x).goto (if x.buffers.receives then .testRx .words else .head .words)
  | .testBusy => s.goto (if s.fifo.busy then .head .busy else .head .last)
  | .head .busy => s.goto (if s.fifo.rx.isEmpty then .testBusy else .testRx .busy)
  | .head .last => s.goto (if s.fifo.rx.isEmpty then .done else .testRx .last)
  | .testRx l => s.goto (if s.fifo.rx.isEmpty then .head l else .readRx l)
  | .readRx l => (s.readRx x).goto (.head l)
  | .drainBusy => if s.fifo.busy then s else s.goto .drainTest
  | .drainTest => s.goto (if s.fifo.rx.isEmpty then .done else .drainClear)
  | .drainClear => { s with fifo := { s.fifo with rx := [] } }.goto .drainTest
  | .done => s

/-- A progress of the controller during a transfer. -/
def Poll.tick (depth : Nat) (slave : List Word → Word) (s : Poll) : Poll :=
  { s with fifo := s.fifo.tick depth slave }

/-- The beginning of a transfer. -/
def pollStart (x : Xfer) (mem : Nat → Byte) (c : Fifo) : Poll where
  fifo := { c with out := [], inn := [], dropped := 0 }
  cpu := ⟨.head .words, x.length, 0, 0, mem⟩

/-- A polled transfer after a number of accesses. -/
def pollRun (depth : Nat) (slave : List Word → Word) (x : Xfer) (mem : Nat → Byte) (c : Fifo)
    (sched : Nat → Nat) (k : Nat) : Poll :=
  interleave (Poll.step depth x) (Poll.tick depth slave) sched (pollStart x mem c) k

/-! ## The transfer by PDMA -/

/-- The answers of the slave to words one after another. -/
def answers (slave : List Word → Word) (out : List Word) : List Word :=
  (List.range out.length).map fun i => slave (out.take (i + 1))

/-- The first words of a transfer. -/
def Xfer.outWords (x : Xfer) (n : Nat) : List Word :=
  (List.range n).map fun i => x.outWord (i * x.bytesPerWord)

/-- Words stored one after another from an offset on. -/
def storeWords (bytesPerWord : Nat) (mem : Nat → Byte) (off : Nat) : List Word → Nat → Byte
  | [] => mem
  | w :: words => storeWords bytesPerWord (setLe bytesPerWord mem off w) (off + bytesPerWord) words

/-- The channels exchange the words that the chain counts: they come in behind those in the receive FIFO, and as
many are stored. Reference: `drv_spi.c:396 nu_spi_pdma_transmit`. -/
def pdmaTransmit (slave : List Word → Word) (x : Xfer) (mem : Nat → Byte) (c : Fifo) : Fifo × (Nat → Byte) :=
  let moved := movedCount (x.length / x.bytesPerWord)
  let out := c.shift.toList ++ c.tx ++ x.outWords moved
  let rx := c.rx ++ answers slave out
  ({ c with tx := [], shift := none, rx := rx.drop moved, out := out, inn := answers slave out },
    if x.buffers.receives then storeWords x.bytesPerWord mem 0 (rx.take moved) else mem)

/-- A message with where its buffers are. -/
structure Message where
  x : Xfer
  tx : BitVec 32
  rx : BitVec 32
  mem : Nat → Byte
  slave : List Word → Word

/-- Reference: `drv_spi.c:32 NU_SPI_USE_PDMA_MIN_THRESHOLD`. -/
def NU_SPI_USE_PDMA_MIN_THRESHOLD : Nat := 128

/-- The constraints of a transfer by PDMA; without `BSP_USING_SPI_PDMA` there is no channel. Reference:
`drv_spi.c:590 nu_spi_transfer`. -/
def usesPdma (pdmaChanidRx : Int) (m : Message) : Prop :=
  0 ≤ pdmaChanidRx ∧ m.tx.toNat % m.x.bytesPerWord = 0 ∧ m.rx.toNat % m.x.bytesPerWord = 0 ∧
    m.x.bytesPerWord ≠ 3 ∧ NU_SPI_USE_PDMA_MIN_THRESHOLD ≤ m.x.length

instance (pdmaChanidRx : Int) (m : Message) : Decidable (usesPdma pdmaChanidRx m) :=
  inferInstanceAs (Decidable (_ ∧ _ ∧ _ ∧ _ ∧ _))

/-- A transfer from its beginning to its end. Reference: `drv_spi.c:584 nu_spi_transfer`. -/
def spiTransfer (depth : Nat) (pdmaChanidRx : Int) (c : Fifo) (m : Message) (c' : Fifo) : Prop :=
  (usesPdma pdmaChanidRx m ∧ c' = (pdmaTransmit m.slave m.x m.mem c).1) ∨
  (¬ usesPdma pdmaChanidRx m ∧ ∃ sched k, (pollRun depth m.slave m.x m.mem c sched k).cpu.pc = .done ∧
    c' = (pollRun depth m.slave m.x m.mem c sched k).fifo)

end NumakerMA35D1.Spi

import Mathlib.Logic.Function.Basic
import Mathlib.Data.List.Basic
import Mathlib.Data.Nat.ModEq

/-!
# The UART's receiver in DMA mode

Bytes from the line enter the UART's FIFO; the DMA moves them, one after another, into a buffer that
it fills over and over; the driver copies them from there, and what is left in the FIFO, into the
ring of the serial device and reports how many they are. Its callback runs on the DMA's idle timeouts
and on a pass that is done, and a receive timeout of the UART flushes the FIFO alone.

Reference: `drv_uart.c`, `drv_pdma.c`, `serial.c`.
-/

namespace NumakerMA35D1.Uart

/-- The size of the serial ring and of the DMA's buffer: a field of 16 bits, not zero in this mode.
Reference: `serial.h:107 bufsz`. -/
structure Bufsz where
  val : Nat
  pos : 0 < val
  lt : val < 2 ^ 16

/-- Reference: `drv_uart.c:745 tempbuf`. -/
def sizeofTempbuf : Nat := 64

/-- The driver's two buffers, the UART's FIFO and the DMA channel, and what has happened: the bytes
that came from the line, those the DMA has moved, how many of these its events have announced, whether
one of them came in a pass of which an earlier one had announced a part, and what the serial device
was told, with where it expects the next byte. Reference: `drv_uart.c:90 nu_rxbuf_ctx`. -/
structure Driver where
  userBuf : Nat → UInt8
  userWrote : Nat
  dmaBuf : Nat → UInt8
  dmaWrote : Nat
  fifo : List UInt8
  td : Bool
  received : List UInt8
  moved : List UInt8
  seen : Nat
  spent : Bool
  put : Nat
  reported : List UInt8
  lengths : List Int

/-- Bytes of a ring from a position on. -/
def ringBytes (buf : Nat → UInt8) (put n bufsize : Nat) : List UInt8 :=
  (List.range n).map fun i => buf ((put + i) % bufsize)

/-- The positions are relative to the start of their ring. Reference: `drv_uart.c:706
nu_uart_flush_sync`. -/
def nuUartFlushSync (dst : Nat → UInt8) (dstPut : Nat) (src : Nat → UInt8) (srcPut bufsize : Nat) :
    Nat → Nat → UInt8
  | 0 => dst
  | syncLen + 1 =>
    let dstPut := if dstPut ≥ bufsize then 0 else dstPut
    let srcPut := if srcPut ≥ bufsize then 0 else srcPut
    nuUartFlushSync (Function.update dst dstPut (src srcPut)) (dstPut + 1) src (srcPut + 1) bufsize
      syncLen

/-- The length that the serial device reads from the event it is given. Reference: `serial.c:1393
rt_hw_serial_isr`. -/
def eventLength (recvLen : Nat) : Int :=
  ((BitVec.ofNat 32 recvLen <<< 8 &&& ~~~0xFF).sshiftRight 8).toInt

/-- The serial device moves on by the length of the event. Its index has 16 bits (`rt_uint16_t`): that
it wraps before it is reduced, in a ring of more than 2^15 bytes only, is left out. Reference:
`serial.c:440 rt_dma_recv_update_put_index`. -/
def report (s : Driver) (bufsize recvLen : Nat) : Driver :=
  let length := eventLength recvLen
  { s with
    put := (s.put + length.toNat) % bufsize
    reported := s.reported ++ ringBytes s.userBuf s.put length.toNat bufsize
    lengths := s.lengths ++ [length] }

/-- Bytes put into the user's ring behind those that are there. Reference: `drv_uart.c:760
nu_uart_flush`. -/
def sync (s : Driver) (bufsize : Nat) (src : Nat → UInt8) (srcPut syncLen : Nat) : Driver :=
  { s with
    userBuf := nuUartFlushSync s.userBuf s.userWrote src srcPut bufsize syncLen
    userWrote := (s.userWrote + syncLen) % 2 ^ 32 % bufsize }

/-- Nothing follows a failed `RT_ASSERT`. Reference: `drv_uart.c:740 nu_uart_flush`. -/
def nuUartFlush (s : Driver) (bufsize pdmaNewRxsize : Nat) : Option Driver :=
  let s1 := if pdmaNewRxsize > 0 then sync s bufsize s.dmaBuf s.dmaWrote pdmaNewRxsize else s
  if s.fifo.length < sizeofTempbuf then
    let s2 :=
      if s.fifo.length > 0 then sync s1 bufsize (fun i => s.fifo.getD i 0) 0 s.fifo.length else s1
    let recvLen := (s.fifo.length + pdmaNewRxsize) % 2 ^ 32
    some { if recvLen > 0 then report s2 bufsize recvLen else s2 with fifo := [] }
  else none

/-- The bytes that the DMA has put into its buffer in this pass. Reference: `drv_pdma.c:573
nu_pdma_transferred_byte_get`. -/
def transferredByte (s : Driver) (bufsize : Nat) : Nat := s.moved.length % bufsize

/-- The bytes announced once an event has been served: those of the pass that is done, or all. -/
def seenAfter (s : Driver) (bufsize : Nat) : Nat :=
  if s.td then (s.seen / bufsize + 1) * bufsize else s.moved.length

/-- The callback of the DMA channel, its flags cleared. Reference: `drv_uart.c:901
nu_pdma_uart_rx_cb`. -/
def nuPdmaUartRxCb (s : Driver) (bufsize : Nat) : Option Driver :=
  let pdmaRxsize := if s.td then bufsize else transferredByte s bufsize
  (nuUartFlush s bufsize ((pdmaRxsize + 2 ^ 32 - s.dmaWrote) % 2 ^ 32)).map fun s' =>
    { s' with
      dmaWrote := (s.dmaWrote + pdmaRxsize) % 2 ^ 32 % bufsize
      td := false
      seen := seenAfter s bufsize
      spent := decide (s.seen % bufsize ≠ 0) || s.spent }

/-- What the line, the DMA and the interrupts do. -/
inductive UartOp
  | rx (b : UInt8)
  | dmaMove
  | pdmaEvent
  | rxTimeout

/-- One step. Reference: `drv_uart.c:556 nu_uart_isr`, `drv_uart.c:901 nu_pdma_uart_rx_cb`. -/
def uartExec (bufsize : Nat) (s : Driver) : UartOp → Option Driver
  | .rx b => some { s with fifo := s.fifo ++ [b], received := s.received ++ [b] }
  | .dmaMove =>
    match s.fifo with
    | [] => none
    | b :: fifo =>
      some { s with
        fifo := fifo
        dmaBuf := Function.update s.dmaBuf (s.moved.length % bufsize) b
        moved := s.moved ++ [b]
        td := decide ((s.moved.length + 1) % bufsize = 0) || s.td }
  | .pdmaEvent => nuPdmaUartRxCb s bufsize
  | .rxTimeout => nuUartFlush s bufsize 0

/-- After `nu_pdma_uart_rx_config`. Reference: `drv_uart.c:831 nu_pdma_uart_rx_config`. -/
def Driver.init : Driver where
  userBuf := fun _ => 0
  userWrote := 0
  dmaBuf := fun _ => 0
  dmaWrote := 0
  fifo := []
  td := false
  received := []
  moved := []
  seen := 0
  spent := false
  put := 0
  reported := []
  lengths := []

/-! ## Copies between rings -/

variable {dst src : Nat → UInt8} {d p put n m i j bufsize : Nat}

theorem length_ringBytes : (ringBytes src p n bufsize).length = n := by
  rw [ringBytes, List.length_map, List.length_range]

theorem getElem_ringBytes (h : i < (ringBytes src p n bufsize).length) :
    (ringBytes src p n bufsize)[i] = src ((p + i) % bufsize) := by
  simp only [ringBytes, List.getElem_map, List.getElem_range]

theorem ringBytes_add : ringBytes src p (n + m) bufsize =
    ringBytes src p n bufsize ++ ringBytes src ((p + n) % bufsize) m bufsize := by
  rw [ringBytes, List.range_add, List.map_append, List.map_map]
  congr 1
  refine List.map_congr_left fun i _ => ?_
  rw [Function.comp_apply, Nat.mod_add_mod, Nat.add_assoc]

/-- Positions less than a round apart are different. -/
theorem ring_inj (hi : i < bufsize) (hj : j < bufsize) (h : (p + i) % bufsize = (p + j) % bufsize) :
    i = j := by
  have hmod : i % bufsize = j % bufsize := Nat.ModEq.add_left_cancel' p h
  rwa [Nat.mod_eq_of_lt hi, Nat.mod_eq_of_lt hj] at hmod

theorem wrap_eq_mod (hd : d ≤ bufsize) :
    (if d ≥ bufsize then 0 else d) = d % bufsize := by
  split
  · next hge =>
    rw [Nat.le_antisymm hd hge, Nat.mod_self]
  · next hlt => rw [Nat.mod_eq_of_lt (Nat.lt_of_not_le hlt)]

theorem next_mod : (d % bufsize + 1 + i) % bufsize = (d + (i + 1)) % bufsize := by
  rw [Nat.add_assoc, Nat.mod_add_mod, Nat.add_comm 1 i]

/-- A copy leaves the positions it does not write. -/
theorem nuUartFlushSync_other (hpos : 0 < bufsize) (hd : d ≤ bufsize) (hp : p ≤ bufsize)
    (h : ∀ i < n, j ≠ (d + i) % bufsize) : nuUartFlushSync dst d src p bufsize n j = dst j := by
  induction n generalizing dst d p with
  | zero => rfl
  | succ n ih =>
    rw [nuUartFlushSync, wrap_eq_mod hd, wrap_eq_mod hp]
    rw [ih (Nat.succ_le_of_lt (Nat.mod_lt _ hpos)) (Nat.succ_le_of_lt (Nat.mod_lt _ hpos))]
    · exact Function.update_of_ne (h 0 (Nat.succ_pos n)) _ _
    · intro i hi
      have hne := h (i + 1) (Nat.succ_lt_succ hi)
      rwa [next_mod]

/-- A copy of at most a round writes the source's bytes, each at its position. -/
theorem nuUartFlushSync_get (hpos : 0 < bufsize) (hd : d ≤ bufsize) (hp : p ≤ bufsize)
    (hn : n ≤ bufsize) (hi : i < n) :
    nuUartFlushSync dst d src p bufsize n ((d + i) % bufsize) = src ((p + i) % bufsize) := by
  induction n generalizing dst d p i with
  | zero => exact absurd hi (Nat.not_lt_zero i)
  | succ n ih =>
    rw [nuUartFlushSync, wrap_eq_mod hd, wrap_eq_mod hp]
    cases i with
    | zero =>
      rw [nuUartFlushSync_other hpos (Nat.succ_le_of_lt (Nat.mod_lt _ hpos))
        (Nat.succ_le_of_lt (Nat.mod_lt _ hpos))]
      · exact Function.update_self ..
      · intro k hk heq
        rw [next_mod] at heq
        have hzero := ring_inj (by omega) (by omega) heq
        omega
    | succ i =>
      have hnext : nuUartFlushSync (Function.update dst (d % bufsize) (src (p % bufsize)))
          (d % bufsize + 1) src (p % bufsize + 1) bufsize n ((d % bufsize + 1 + i) % bufsize) =
          src ((p % bufsize + 1 + i) % bufsize) :=
        ih (Nat.succ_le_of_lt (Nat.mod_lt d hpos)) (Nat.succ_le_of_lt (Nat.mod_lt p hpos))
          (Nat.le_of_succ_le hn) (Nat.lt_of_succ_lt_succ hi)
      rwa [next_mod, next_mod] at hnext

/-- The bytes copied are those of the source. -/
theorem ringBytes_flushSync (hpos : 0 < bufsize) (hd : d ≤ bufsize) (hp : p ≤ bufsize)
    (hn : n ≤ bufsize) :
    ringBytes (nuUartFlushSync dst d src p bufsize n) d n bufsize = ringBytes src p n bufsize :=
  List.map_congr_left fun _ hi => nuUartFlushSync_get hpos hd hp hn (List.mem_range.1 hi)

/-- The bytes before those copied are left, in a ring that holds both. -/
theorem ringBytes_flushSync_before (hpos : 0 < bufsize) (hp : p ≤ bufsize)
    (hn : n + m ≤ bufsize) :
    ringBytes (nuUartFlushSync dst ((d + n) % bufsize) src p bufsize m) d n bufsize =
      ringBytes dst d n bufsize := by
  refine List.map_congr_left fun i hi => ?_
  have hin := List.mem_range.1 hi
  refine nuUartFlushSync_other hpos (Nat.le_of_lt (Nat.mod_lt _ hpos)) hp fun j hj heq => ?_
  rw [Nat.mod_add_mod, Nat.add_assoc] at heq
  have hij := ring_inj (by omega) (by omega) heq
  omega

/-- A length of a ring is told as it is. -/
theorem eventLength_eq (h : n < 2 ^ 17) : eventLength n = n := by
  have hmask : BitVec.ofNat 32 n <<< 8 &&& ~~~0xFF#32 = BitVec.ofNat 32 n <<< 8 := by
    apply BitVec.eq_of_getLsbD_eq
    intro i hi
    rw [BitVec.getLsbD_and, BitVec.getLsbD_not, BitVec.getLsbD_shiftLeft]
    rcases Nat.lt_or_ge i 8 with hlt | hge
    · simp [hlt]
    · have hbit : (0xFF#32).getLsbD i = false :=
        Nat.testBit_lt_two_pow (lt_of_lt_of_le (by decide : 255 < 2 ^ 8)
          (Nat.pow_le_pow_right (by decide) hge))
      rw [hbit]
      simp [hi]
  have hshift : (BitVec.ofNat 32 n <<< 8).toNat = n * 256 := by
    rw [BitVec.toNat_shiftLeft, BitVec.toNat_ofNat, Nat.shiftLeft_eq, Nat.mod_eq_of_lt (by omega)]
    omega
  have hmsb : (BitVec.ofNat 32 n <<< 8).msb = false := by
    rw [BitVec.msb_eq_decide, hshift, decide_eq_false_iff_not]
    omega
  have hnat : (BitVec.ofNat 32 n <<< 8 >>> 8).toNat = n := by
    rw [BitVec.toNat_ushiftRight, hshift, Nat.shiftRight_eq_div_pow]
    omega
  change ((BitVec.ofNat 32 n <<< 8 &&& ~~~0xFF#32).sshiftRight 8).toInt = n
  rw [hmask, BitVec.sshiftRight_eq_of_msb_false hmsb, BitVec.toInt_eq_toNat_cond, hnat,
    if_pos (by omega)]

end NumakerMA35D1.Uart

import NumakerMA35D1.Lib.Run
import NumakerMA35D1.Spi.DrvSpi

/-!
# Polled transfers of the SPI driver

`polledTransfer_iff`: on a controller that transfers have been made on since its reset, every schedule of the
controller's progress beside the CPU makes a polled transfer that receives right if and only if its words are no
more than a FIFO holds. With one word more the CPU fills the shift register and the transmit FIFO before it has
read a word, and if it is interrupted then, the receive FIFO overruns (`overruns`).

Reference: `drv_spi.c`.
-/

namespace NumakerMA35D1.Spi

open Embedded Pdma

/-! ## Specification -/

/-- The words of a transfer. -/
def Xfer.words (x : Xfer) : Nat := x.length / x.bytesPerWord

/-- The transfer ends if the controller always goes on; the receive FIFO never overruns; nothing is stored past
the length; at the end what has come in for the words of the message is stored, all of it in order, and the
buffer is that of the transfer by PDMA. -/
structure PolledRight (depth : Nat) (slave : List Word → Word) (x : Xfer) (mem : Nat → Byte) (c : Fifo)
    (sched : Nat → Nat) : Prop where
  noOverrun : ∀ k, (pollRun depth slave x mem c sched k).fifo.dropped = 0
  nonePast : ∀ k i, x.length ≤ i → (pollRun depth slave x mem c sched k).cpu.mem i = mem i
  ends : Fair sched → ∃ k, (pollRun depth slave x mem c sched k).cpu.pc = .done
  stored : ∀ k, (pollRun depth slave x mem c sched k).cpu.pc = .done →
    (pollRun depth slave x mem c sched k).fifo.out = x.outWords x.words ∧
    (pollRun depth slave x mem c sched k).fifo.inn.length = x.words ∧
    (pollRun depth slave x mem c sched k).cpu.mem =
      storeWords x.bytesPerWord mem 0 (pollRun depth slave x mem c sched k).fifo.inn
  samePdma : ∀ k, (pollRun depth slave x mem c sched k).cpu.pc = .done → x.bytesPerWord ≠ 3 →
    ∀ i < x.length, (pollRun depth slave x mem c sched k).cpu.mem i = (pdmaTransmit slave x mem c).2 i

/-! ## The words -/

variable {depth b n i off : Nat} {slave : List Word → Word} {x : Xfer} {mem : Nat → Byte} {c : Fifo}
  {sched : Nat → Nat} {s : Poll}

theorem Xfer.length_eq (h : x.bytesPerWord ∣ x.length) : x.length = x.words * x.bytesPerWord :=
  (Nat.div_mul_cancel h).symm

theorem answers_length (slave : List Word → Word) (out : List Word) :
    (answers slave out).length = out.length := by
  rw [answers, List.length_map, List.length_range]

/-- The answers to a part of the words are the same. -/
theorem answers_append (slave : List Word → Word) (out more : List Word) :
    ∃ rest, rest.length = more.length ∧ answers slave (out ++ more) = answers slave out ++ rest := by
  refine ⟨(List.range more.length).map fun i => slave ((out ++ more).take (out.length + i + 1)), ?_, ?_⟩
  · rw [List.length_map, List.length_range]
  · rw [answers, List.length_append, List.range_add, List.map_append, List.map_map, answers]
    congr 1
    refine List.map_congr_left fun i hi => ?_
    rw [List.take_append_of_le_length (List.mem_range.1 hi)]

/-- The answer to one word more. -/
theorem answers_concat (slave : List Word → Word) (out : List Word) (w : Word) :
    answers slave (out ++ [w]) = answers slave out ++ [slave (out ++ [w])] := by
  rw [answers, List.length_append, List.length_singleton, List.range_succ, List.map_append, answers]
  congr 1
  · refine List.map_congr_left fun i hi => ?_
    rw [List.take_append_of_le_length (List.mem_range.1 hi)]
  · rw [List.map_singleton, List.take_of_length_le]
    rw [List.length_append, List.length_singleton]

theorem outWords_succ (x : Xfer) (n : Nat) :
    x.outWords (n + 1) = x.outWords n ++ [x.outWord (n * x.bytesPerWord)] := by
  rw [Xfer.outWords, List.range_succ, List.map_append, Xfer.outWords, List.map_singleton]

theorem outWords_length (x : Xfer) (n : Nat) : (x.outWords n).length = n := by
  rw [Xfer.outWords, List.length_map, List.length_range]

theorem outWords_add (x : Xfer) (n m : Nat) : ∃ rest, rest.length = m ∧ x.outWords (n + m) = x.outWords n ++ rest := by
  refine ⟨(List.range m).map fun i => x.outWord ((n + i) * x.bytesPerWord), ?_, ?_⟩
  · rw [List.length_map, List.length_range]
  · rw [Xfer.outWords, List.range_add, List.map_append, List.map_map, Xfer.outWords]
    rfl

/-! ## The buffer -/

theorem storeWords_append (b : Nat) (mem : Nat → Byte) (off : Nat) (l l' : List Word) :
    storeWords b mem off (l ++ l') = storeWords b (storeWords b mem off l) (off + l.length * b) l' := by
  induction l generalizing mem off with
  | nil => rw [List.length_nil, Nat.zero_mul, Nat.add_zero, List.nil_append, storeWords]
  | cons w l ih =>
    have hoff : off + b + l.length * b = off + (l.length + 1) * b := by rw [Nat.succ_mul]; omega
    rw [List.cons_append, storeWords, ih, hoff, List.length_cons, storeWords]

/-- The bytes before the first word are kept. -/
theorem storeWords_before (mem : Nat → Byte) (l : List Word) (h : i < off) :
    storeWords b mem off l i = mem i := by
  induction l generalizing mem off with
  | nil => rfl
  | cons w l ih =>
    rw [storeWords, ih _ (by omega), setLe, if_neg (by omega)]

/-- The bytes behind the last word are kept. -/
theorem storeWords_past (mem : Nat → Byte) (l : List Word) (h : off + l.length * b ≤ i) :
    storeWords b mem off l i = mem i := by
  induction l generalizing mem off with
  | nil => rfl
  | cons w l ih =>
    rw [List.length_cons, Nat.succ_mul] at h
    rw [storeWords, ih _ (by omega), setLe, if_neg (by omega)]

/-! ## Where the CPU is -/

/-- The controller has nothing to do. -/
def Fifo.Quiet (c : Fifo) : Prop := c.tx = [] ∧ c.shift = none

/-- The controller has nothing to do and nothing that came in is left. -/
def Fifo.Idle (c : Fifo) : Prop := c.Quiet ∧ c.rx = []

/-- What is known where the CPU is. -/
def PcOk (x : Xfer) (s : Poll) : Prop :=
  match s.cpu.pc with
  | .head .words | .testRx .words => True
  | .readRx .words => s.fifo.rx ≠ []
  | .waitTx | .writeTx => 0 < s.cpu.left
  | .testBusy | .head .busy => s.cpu.left = 0
  | .testRx .busy | .readRx .busy => s.cpu.left = 0 ∧ s.fifo.rx ≠ []
  | .head .last => s.cpu.left = 0 ∧ s.fifo.Quiet
  | .testRx .last | .readRx .last => s.cpu.left = 0 ∧ s.fifo.Quiet ∧ s.fifo.rx ≠ []
  | .drainBusy => s.cpu.left = 0 ∧ x.buffers.receives = false
  | .drainTest | .drainClear => s.cpu.left = 0 ∧ s.fifo.Quiet ∧ x.buffers.receives = false
  | .done => s.cpu.left = 0 ∧ s.fifo.Quiet ∧ s.fifo.rx = []

/-- A controller that has nothing to do stays as it is. -/
theorem Fifo.Quiet.tick (h : c.Quiet) : c.tick depth slave = c := by
  obtain ⟨htx, hshift⟩ := h
  rw [Fifo.tick, hshift, htx]

/-- What has come in stays until it is read. -/
theorem Fifo.tick_rx (h : c.rx ≠ []) : (c.tick depth slave).rx ≠ [] := by
  unfold Fifo.tick
  split
  · dsimp only
    split
    · exact List.append_ne_nil_of_left_ne_nil h _
    · exact h
  · split
    · exact h
    · exact h

theorem not_busy_iff : c.busy = false ↔ c.Quiet := by
  rw [Fifo.busy, Fifo.Quiet, Bool.or_eq_false_iff, Bool.not_eq_false', List.isEmpty_iff,
    Option.isSome_eq_false_iff, Option.isNone_iff_eq_none]

theorem Poll.tick_quiet (h : s.fifo.Quiet) : s.tick depth slave = s := by
  rw [Poll.tick, h.tick]

/-- A progress of the controller changes nothing of what is known. -/
theorem PcOk.tick (h : PcOk x s) : PcOk x (s.tick depth slave) := by
  by_cases hq : s.fifo.Quiet
  · rw [Poll.tick_quiet hq]
    exact h
  obtain ⟨fifo, pc, left, sendAddr, recvAddr, mem⟩ := s
  cases pc with
  | head l =>
    cases l with
    | words => trivial
    | busy => exact h
    | last => exact absurd h.2 hq
  | waitTx => exact h
  | writeTx => exact h
  | testRx l =>
    cases l with
    | words => trivial
    | busy => exact ⟨h.1, Fifo.tick_rx h.2⟩
    | last => exact absurd h.2.1 hq
  | readRx l =>
    cases l with
    | words => exact Fifo.tick_rx h
    | busy => exact ⟨h.1, Fifo.tick_rx h.2⟩
    | last => exact absurd h.2.1 hq
  | testBusy => exact h
  | drainBusy => exact h
  | drainTest => exact absurd h.2.1 hq
  | drainClear => exact absurd h.2.1 hq
  | done => exact absurd h.2.1 hq

/-- An access of the CPU leads to a place of which what is said there is known. -/
theorem PcOk.step (h : PcOk x s) : PcOk x (s.step depth x) := by
  obtain ⟨fifo, pc, left, sendAddr, recvAddr, mem⟩ := s
  cases pc with
  | head l =>
    cases l with
    | words =>
      unfold Poll.step
      dsimp only
      split
      · next hleft => exact hleft
      · next hleft =>
        cases hr : x.buffers.receives with
        | true => exact Nat.eq_zero_of_not_pos hleft
        | false => exact ⟨Nat.eq_zero_of_not_pos hleft, hr⟩
    | busy =>
      unfold Poll.step
      dsimp only
      cases hrx : fifo.rx with
      | nil => exact h
      | cons w rx => exact ⟨h, hrx.symm ▸ List.cons_ne_nil w rx⟩
    | last =>
      unfold Poll.step
      dsimp only
      cases hrx : fifo.rx with
      | nil => exact ⟨h.1, h.2, hrx⟩
      | cons w rx => exact ⟨h.1, h.2, hrx.symm ▸ List.cons_ne_nil w rx⟩
  | waitTx =>
    unfold Poll.step
    dsimp only
    split
    · exact h
    · exact h
  | writeTx =>
    unfold Poll.step
    dsimp only
    cases x.buffers.receives with
    | true => trivial
    | false => trivial
  | testRx l =>
    unfold Poll.step
    dsimp only
    cases l with
    | words =>
      cases hrx : fifo.rx with
      | nil => trivial
      | cons w rx =>
        change fifo.rx ≠ []
        rw [hrx]
        exact List.cons_ne_nil w rx
    | busy =>
      cases hrx : fifo.rx with
      | nil => exact h.1
      | cons w rx => exact h
    | last =>
      cases hrx : fifo.rx with
      | nil => exact ⟨h.1, h.2.1⟩
      | cons w rx => exact h
  | readRx l =>
    unfold Poll.step Poll.readRx
    dsimp only
    cases l with
    | words => split <;> trivial
    | busy => split <;> exact h.1
    | last => split <;> exact ⟨h.1, h.2.1⟩
  | testBusy =>
    unfold Poll.step
    dsimp only
    cases hb : fifo.busy with
    | true => exact h
    | false => exact ⟨h, not_busy_iff.1 hb⟩
  | drainBusy =>
    unfold Poll.step
    dsimp only
    cases hb : fifo.busy with
    | true => exact h
    | false => exact ⟨h.1, not_busy_iff.1 hb, h.2⟩
  | drainTest =>
    unfold Poll.step
    dsimp only
    cases hrx : fifo.rx with
    | nil => exact ⟨h.1, h.2.1, hrx⟩
    | cons w rx => exact h
  | drainClear => exact h
  | done => exact h

/-- What is known where the CPU is, at every point of every transfer. -/
theorem pcOk_run (k : Nat) : PcOk x (pollRun depth slave x mem c sched k) :=
  interleave_invariant (fun _ h => h.step) (fun _ h => h.tick) trivial k

/-- At the end of a transfer the controller is idle, and nothing is left. -/
theorem pollRun_done {k : Nat} (h : (pollRun depth slave x mem c sched k).cpu.pc = .done) :
    (pollRun depth slave x mem c sched k).cpu.left = 0 ∧
      (pollRun depth slave x mem c sched k).fifo.Idle := by
  have hok := @pcOk_run depth slave x mem c sched k
  rw [PcOk, h] at hok
  exact hok

/-! ## The words written -/

/-- Of the words of a transfer `w` are written. -/
structure Written (x : Xfer) (s : Poll) (w : Nat) : Prop where
  last : w = 0 ∨ (w - 1) * x.bytesPerWord < x.length
  sendAddr : s.cpu.sendAddr = w * x.bytesPerWord
  left : s.cpu.left = x.length - w * x.bytesPerWord
  written : s.fifo.out ++ s.fifo.shift.toList ++ s.fifo.tx = x.outWords w

variable {w : Nat} {l : List Word}

/-- A progress of the controller. -/
theorem Written.tick (h : Written x s w) : Written x (s.tick depth slave) w := by
  obtain ⟨⟨tx, shift, rx, out, inn, dropped⟩, cpu⟩ := s
  obtain ⟨hlast, hsend, hleft, hwritten⟩ := h
  dsimp only at hwritten
  cases shift with
  | none =>
    cases tx with
    | nil => exact ⟨hlast, hsend, hleft, hwritten⟩
    | cons v tx =>
      refine ⟨hlast, hsend, hleft, ?_⟩
      rw [← hwritten]
      change out ++ [v] ++ tx = out ++ [] ++ v :: tx
      rw [List.append_nil, List.append_assoc, List.singleton_append]
  | some v =>
    refine ⟨hlast, hsend, hleft, ?_⟩
    rw [← hwritten]
    change out ++ [v] ++ [] ++ tx = out ++ [v] ++ tx
    rw [List.append_nil]

/-- A word is written. -/
theorem Written.writeTx (h : Written x s w) (hleft : 0 < s.cpu.left) :
    Written x (s.writeTx x) (w + 1) := by
  have hpos := h.left ▸ hleft
  refine ⟨.inr ?_, ?_, ?_, ?_⟩
  · rw [Nat.add_sub_cancel]
    omega
  · change s.cpu.sendAddr + x.bytesPerWord = _
    rw [h.sendAddr, Nat.succ_mul]
  · change s.cpu.left - x.bytesPerWord = _
    rw [h.left, Nat.sub_sub, ← Nat.succ_mul]
  · change s.fifo.out ++ s.fifo.shift.toList ++ (s.fifo.tx ++ [x.outWord s.cpu.sendAddr]) = _
    rw [← List.append_assoc, h.written, outWords_succ, h.sendAddr]

/-- A word is read. -/
theorem Written.readRx (h : Written x s w) : Written x (s.readRx x) w := by
  obtain ⟨⟨tx, shift, rx, out, inn, dropped⟩, cpu⟩ := s
  cases rx with
  | nil => exact ⟨h.last, h.sendAddr, h.left, h.written⟩
  | cons v rx => exact ⟨h.last, h.sendAddr, h.left, h.written⟩

/-- An access of the CPU. -/
theorem Written.step (h : Written x s w) (hok : PcOk x s) : ∃ w', Written x (s.step depth x) w' := by
  unfold Poll.step
  cases hpc : s.cpu.pc with
  | head k =>
    cases k with
    | words =>
      dsimp only
      split
      · exact ⟨w, h.last, h.sendAddr, h.left, h.written⟩
      · exact ⟨w, h.last, h.sendAddr, h.left, h.written⟩
    | busy => exact ⟨w, h.last, h.sendAddr, h.left, h.written⟩
    | last => exact ⟨w, h.last, h.sendAddr, h.left, h.written⟩
  | waitTx =>
    dsimp only
    split
    · exact ⟨w, h⟩
    · exact ⟨w, h.last, h.sendAddr, h.left, h.written⟩
  | writeTx =>
    rw [PcOk, hpc] at hok
    have h' := h.writeTx hok
    exact ⟨w + 1, h'.last, h'.sendAddr, h'.left, h'.written⟩
  | testRx k => exact ⟨w, h.last, h.sendAddr, h.left, h.written⟩
  | readRx k =>
    have h' := h.readRx
    exact ⟨w, h'.last, h'.sendAddr, h'.left, h'.written⟩
  | testBusy => exact ⟨w, h.last, h.sendAddr, h.left, h.written⟩
  | drainBusy =>
    dsimp only
    split
    · exact ⟨w, h⟩
    · exact ⟨w, h.last, h.sendAddr, h.left, h.written⟩
  | drainTest => exact ⟨w, h.last, h.sendAddr, h.left, h.written⟩
  | drainClear => exact ⟨w, h.last, h.sendAddr, h.left, h.written⟩
  | done => exact ⟨w, h⟩

/-- The beginning of a transfer on an idle controller. -/
theorem written_start (hc : c.Idle) : Written x (pollStart x mem c) 0 := by
  obtain ⟨⟨htx, hshift⟩, -⟩ := hc
  refine ⟨.inl rfl, (Nat.zero_mul _).symm, ?_, ?_⟩
  · rw [Nat.zero_mul, Nat.sub_zero]
    rfl
  · change [] ++ c.shift.toList ++ c.tx = _
    rw [hshift, htx]
    rfl

/-- The number of words that cover a length. -/
theorem Written.eq_of_left (h : Written x s w) (hleft : s.cpu.left = 0) :
    w = (x.length + x.bytesPerWord - 1) / x.bytesPerWord := by
  have hb := x.width.1
  have hall : x.length ≤ w * x.bytesPerWord := Nat.le_of_sub_eq_zero (h.left ▸ hleft)
  symm
  refine Nat.div_eq_of_lt_le ?_ ?_
  · rcases h.last with rfl | hlast
    · rw [Nat.zero_mul]
      exact Nat.zero_le _
    · rw [Nat.sub_mul, Nat.one_mul] at hlast
      omega
  · rw [Nat.succ_mul]
    omega

/-- The words that have gone out when a transfer ends. -/
theorem pollRun_out (hc : c.Idle) {k : Nat} (h : (pollRun depth slave x mem c sched k).cpu.pc = .done) :
    (pollRun depth slave x mem c sched k).fifo.out =
      x.outWords ((x.length + x.bytesPerWord - 1) / x.bytesPerWord) := by
  have hinv : PcOk x (pollRun depth slave x mem c sched k) ∧
      ∃ w, Written x (pollRun depth slave x mem c sched k) w :=
    @interleave_invariant Poll (Poll.step depth x) (Poll.tick depth slave) sched (pollStart x mem c)
      (fun s => PcOk x s ∧ ∃ w, Written x s w)
      (fun s hs => ⟨hs.1.step, hs.2.elim fun _ hw => hw.step hs.1⟩)
      (fun s hs => ⟨hs.1.tick, hs.2.imp fun _ hw => hw.tick⟩) ⟨trivial, 0, written_start hc⟩ k
  obtain ⟨-, w, hw⟩ := hinv
  obtain ⟨hleft, ⟨htx, hshift⟩, -⟩ := pollRun_done h
  have hwritten := hw.written
  rw [htx, hshift, Option.toList_none, List.append_nil, List.append_nil, hw.eq_of_left hleft] at hwritten
  exact hwritten

/-! ## The words on their way -/

/-- Of the words of a transfer `w` are written and `l` are stored; none has been dropped. -/
structure OnTheWay (slave : List Word → Word) (x : Xfer) (mem : Nat → Byte) (s : Poll) (w : Nat)
    (l : List Word) : Prop where
  written : Written x s w
  inn : s.fifo.inn = answers slave s.fifo.out
  dropped : s.fifo.dropped = 0
  read : s.fifo.inn = l ++ s.fifo.rx
  mem : s.cpu.mem = storeWords x.bytesPerWord mem 0 l
  recvAddr : s.cpu.recvAddr = l.length * x.bytesPerWord

/-- What holds at every point of a transfer that receives no more words than a FIFO holds. -/
def PollInv (slave : List Word → Word) (x : Xfer) (mem : Nat → Byte) (s : Poll) : Prop :=
  PcOk x s ∧ ∃ w l, OnTheWay slave x mem s w l

/-- The place of the CPU does not matter. -/
theorem OnTheWay.goto (h : OnTheWay slave x mem s w l) (pc : Pc) : OnTheWay slave x mem (s.goto pc) w l :=
  ⟨⟨h.written.last, h.written.sendAddr, h.written.left, h.written.written⟩, h.inn, h.dropped, h.read, h.mem,
    h.recvAddr⟩

/-- Of the words of a whole length no more are written than there are. -/
theorem Written.le (hwhole : x.bytesPerWord ∣ x.length) (h : Written x s w) : w ≤ x.words := by
  rcases h.last with rfl | hlast
  · exact Nat.zero_le _
  · rw [Xfer.length_eq hwhole] at hlast
    have hlt := Nat.lt_of_mul_lt_mul_right hlast
    omega

/-- A progress of the controller: no word comes in too many, as all of them fit the FIFO. -/
theorem OnTheWay.tick (hwhole : x.bytesPerWord ∣ x.length) (hwords : x.words ≤ depth)
    (h : OnTheWay slave x mem s w l) : OnTheWay slave x mem (s.tick depth slave) w l := by
  have hle := h.written.le hwhole
  have hticked : Written x (s.tick depth slave) w := h.written.tick
  obtain ⟨⟨tx, shift, rx, out, inn, dropped⟩, cpu⟩ := s
  obtain ⟨⟨-, -, -, hwritten⟩, hinn, hdropped, hread, hmem, hrecv⟩ := h
  dsimp only at hwritten hinn hdropped hread
  cases shift with
  | none =>
    cases tx with
    | nil => exact ⟨hticked, hinn, hdropped, hread, hmem, hrecv⟩
    | cons v tx => exact ⟨hticked, hinn, hdropped, hread, hmem, hrecv⟩
  | some v =>
    have hout : out.length + 1 + tx.length = w := by
      rw [← outWords_length x w, ← hwritten, List.length_append, List.length_append]
      rfl
    have hroom : rx.length < depth := by
      have hcount : inn.length = l.length + rx.length := by rw [hread, List.length_append]
      rw [hinn, answers_length] at hcount
      omega
    refine ⟨hticked, ?_, ?_, ?_, hmem, hrecv⟩
    · change inn ++ [_] = answers slave (out ++ [v])
      rw [answers_concat, hinn]
    · change (if rx.length < depth then dropped else dropped + 1) = 0
      rw [if_pos hroom, hdropped]
    · change inn ++ [_] = l ++ if rx.length < depth then rx ++ [_] else rx
      rw [if_pos hroom, hread, List.append_assoc]

/-- A word is written. -/
theorem OnTheWay.writeTx (h : OnTheWay slave x mem s w l) (hleft : 0 < s.cpu.left) :
    OnTheWay slave x mem (s.writeTx x) (w + 1) l :=
  ⟨h.written.writeTx hleft, h.inn, h.dropped, h.read, h.mem, h.recvAddr⟩

/-- A word is read. -/
theorem OnTheWay.readRx (h : OnTheWay slave x mem s w l) :
    ∃ l', OnTheWay slave x mem (s.readRx x) w l' := by
  have hreads := h.written.readRx
  obtain ⟨⟨tx, shift, rx, out, inn, dropped⟩, cpu⟩ := s
  obtain ⟨-, hinn, hdropped, hread, hmem, hrecv⟩ := h
  cases rx with
  | nil => exact ⟨l, hreads, hinn, hdropped, hread, hmem, hrecv⟩
  | cons v rx =>
    refine ⟨l ++ [v], hreads, hinn, hdropped, ?_, ?_, ?_⟩
    · rw [List.append_assoc, List.singleton_append]
      exact hread
    · change setLe x.bytesPerWord cpu.mem cpu.recvAddr v = _
      rw [storeWords_append, Nat.zero_add, ← hmem, ← hrecv]
      rfl
    · change cpu.recvAddr + x.bytesPerWord = _
      rw [List.length_append, List.length_singleton, Nat.succ_mul]
      exact congrArg (· + x.bytesPerWord) hrecv

/-- An access of the CPU in a transfer that receives. -/
theorem PollInv.step (hx : x.buffers.receives = true) (h : PollInv slave x mem s) :
    PollInv slave x mem (s.step depth x) := by
  obtain ⟨hok, w, l, hway⟩ := h
  refine ⟨hok.step, ?_⟩
  unfold Poll.step
  cases hpc : s.cpu.pc with
  | head k =>
    cases k with
    | words =>
      dsimp only
      split
      · exact ⟨w, l, hway.goto _⟩
      · exact ⟨w, l, hway.goto _⟩
    | busy => exact ⟨w, l, hway.goto _⟩
    | last => exact ⟨w, l, hway.goto _⟩
  | waitTx =>
    dsimp only
    split
    · exact ⟨w, l, hway⟩
    · exact ⟨w, l, hway.goto _⟩
  | writeTx =>
    rw [PcOk, hpc] at hok
    exact ⟨w + 1, l, (hway.writeTx hok).goto _⟩
  | testRx k => exact ⟨w, l, hway.goto _⟩
  | readRx k =>
    obtain ⟨l', hway'⟩ := hway.readRx
    exact ⟨w, l', hway'.goto _⟩
  | testBusy => exact ⟨w, l, hway.goto _⟩
  | drainBusy =>
    rw [PcOk, hpc] at hok
    exact absurd (hok.2.symm.trans hx) Bool.false_ne_true
  | drainTest => exact ⟨w, l, hway.goto _⟩
  | drainClear =>
    rw [PcOk, hpc] at hok
    exact absurd (hok.2.2.symm.trans hx) Bool.false_ne_true
  | done => exact ⟨w, l, hway⟩

theorem PollInv.tick (hwhole : x.bytesPerWord ∣ x.length) (hwords : x.words ≤ depth)
    (h : PollInv slave x mem s) : PollInv slave x mem (s.tick depth slave) := by
  obtain ⟨hok, w, l, hway⟩ := h
  exact ⟨hok.tick, w, l, hway.tick hwhole hwords⟩

/-- The beginning of a transfer on an idle controller. -/
theorem pollInv_start (hc : c.Idle) : PollInv slave x mem (pollStart x mem c) := by
  refine ⟨trivial, 0, [], written_start hc, rfl, rfl, ?_, rfl, ?_⟩
  · exact hc.2.symm
  · exact (Nat.zero_mul _).symm

/-! ## The end of a transfer -/

/-- What the controller and the loop that writes have before them. -/
def Poll.toCome (x : Xfer) (s : Poll) : Nat :=
  3 * (s.cpu.left / x.bytesPerWord) + 2 * s.fifo.tx.length + s.fifo.shift.toList.length

/-- How far a place is from the end, where the controller has nothing to do. -/
def Pc.rank : Pc → Nat
  | .head .words => 8
  | .testRx .words => 10
  | .readRx .words => 9
  | .waitTx => 6
  | .writeTx => 5
  | .testBusy => 4
  | .head .busy => 7
  | .testRx .busy => 6
  | .readRx .busy => 5
  | .head .last => 3
  | .testRx .last => 2
  | .readRx .last => 1
  | .drainBusy | .drainTest | .drainClear | .done => 0

/-- How far the CPU is from the end: a word in the receive FIFO takes it a round. -/
def Poll.rank (s : Poll) : Nat := 4 * s.fifo.rx.length + s.cpu.pc.rank

/-- A progress of the controller that has something to do. -/
theorem toCome_tick (h : ¬ s.fifo.Quiet) : (s.tick depth slave).toCome x < s.toCome x := by
  obtain ⟨⟨tx, shift, rx, out, inn, dropped⟩, cpu⟩ := s
  cases shift with
  | none =>
    cases tx with
    | nil => exact absurd ⟨rfl, rfl⟩ h
    | cons v tx =>
      change 3 * (cpu.left / x.bytesPerWord) + 2 * tx.length + 1 <
        3 * (cpu.left / x.bytesPerWord) + 2 * (tx.length + 1) + 0
      omega
  | some v =>
    change 3 * (cpu.left / x.bytesPerWord) + 2 * tx.length + 0 <
      3 * (cpu.left / x.bytesPerWord) + 2 * tx.length + 1
    omega

/-- A word written. -/
theorem toCome_writeTx (hleft : 0 < s.cpu.left) (hwhole : x.bytesPerWord ∣ s.cpu.left) :
    (s.writeTx x).toCome x < s.toCome x := by
  obtain ⟨n, hn⟩ := hwhole
  have hpos : 0 < x.bytesPerWord := x.width.1
  cases n with
  | zero =>
    rw [hn, Nat.mul_zero] at hleft
    exact absurd hleft (Nat.lt_irrefl 0)
  | succ n =>
    have hnow : s.cpu.left / x.bytesPerWord = n + 1 := by rw [hn, Nat.mul_div_cancel_left _ hpos]
    have hthen : (s.cpu.left - x.bytesPerWord) / x.bytesPerWord = n := by
      rw [hn, Nat.mul_succ, Nat.add_sub_cancel, Nat.mul_div_cancel_left _ hpos]
    change 3 * ((s.cpu.left - x.bytesPerWord) / x.bytesPerWord) +
      2 * (s.fifo.tx ++ [x.outWord s.cpu.sendAddr]).length + s.fifo.shift.toList.length <
      3 * (s.cpu.left / x.bytesPerWord) + 2 * s.fifo.tx.length + s.fifo.shift.toList.length
    rw [hnow, hthen, List.length_append, List.length_singleton]
    omega

theorem PollInv.whole (hwhole : x.bytesPerWord ∣ x.length) (h : PollInv slave x mem s) :
    x.bytesPerWord ∣ s.cpu.left := by
  obtain ⟨-, w, l, hway⟩ := h
  rw [hway.written.left]
  exact Nat.dvd_sub hwhole (Nat.dvd_mul_left _ _)

/-- A read takes nothing of what is to come. -/
theorem toCome_readRx : (s.readRx x).toCome x = s.toCome x := by
  unfold Poll.readRx
  split
  · rfl
  · rfl

/-- The CPU adds nothing to what is to come. -/
theorem toCome_step (hwhole : x.bytesPerWord ∣ x.length) (h : PollInv slave x mem s) :
    (s.step depth x).toCome x ≤ s.toCome x := by
  have hwhole := h.whole hwhole
  obtain ⟨hok, -⟩ := h
  unfold Poll.step
  cases hpc : s.cpu.pc with
  | head k =>
    cases k with
    | words =>
      dsimp only
      split
      · exact Nat.le_refl _
      · exact Nat.le_refl _
    | busy => exact Nat.le_refl _
    | last => exact Nat.le_refl _
  | waitTx =>
    dsimp only
    split
    · exact Nat.le_refl _
    · exact Nat.le_refl _
  | writeTx =>
    rw [PcOk, hpc] at hok
    exact (toCome_writeTx hok hwhole).le
  | testRx k => exact Nat.le_refl _
  | readRx k => exact Nat.le_of_eq toCome_readRx
  | testBusy => exact Nat.le_refl _
  | drainBusy =>
    dsimp only
    split
    · exact Nat.le_refl _
    · exact Nat.le_refl _
  | drainTest => exact Nat.le_refl _
  | drainClear => exact Nat.le_refl _
  | done => exact Nat.le_refl _

/-- Where the controller has nothing to do, the CPU writes a word or comes nearer to the end. -/
theorem rank_step (hx : x.buffers.receives = true) (hwhole : x.bytesPerWord ∣ x.length)
    (hwords : x.words ≤ depth) (h : PollInv slave x mem s) (hq : s.fifo.Quiet) (hdone : s.cpu.pc ≠ .done) :
    (s.step depth x).toCome x < s.toCome x ∨
      (s.step depth x).fifo.Quiet ∧ (s.step depth x).rank < s.rank := by
  have hleftWhole := h.whole hwhole
  obtain ⟨hok, w, l, hway⟩ := h
  obtain ⟨⟨tx, shift, rx, out, inn, dropped⟩, ⟨pc, left, sendAddr, recvAddr, mem'⟩⟩ := s
  have hgoto : ∀ pc', pc'.rank < pc.rank →
      Poll.rank (Poll.goto ⟨⟨tx, shift, rx, out, inn, dropped⟩, ⟨pc, left, sendAddr, recvAddr, mem'⟩⟩ pc') <
        Poll.rank ⟨⟨tx, shift, rx, out, inn, dropped⟩, ⟨pc, left, sendAddr, recvAddr, mem'⟩⟩ :=
    fun pc' hlt => Nat.add_lt_add_left hlt _
  unfold Poll.step
  cases pc with
  | head k =>
    cases k with
    | words =>
      dsimp only
      rw [hx]
      split
      · exact .inr ⟨hq, hgoto .waitTx (by decide)⟩
      · exact .inr ⟨hq, hgoto .testBusy (by decide)⟩
    | busy =>
      cases rx with
      | nil => exact .inr ⟨hq, hgoto .testBusy (by decide)⟩
      | cons v rx => exact .inr ⟨hq, hgoto (.testRx .busy) (by decide)⟩
    | last =>
      cases rx with
      | nil => exact .inr ⟨hq, hgoto .done (by decide)⟩
      | cons v rx => exact .inr ⟨hq, hgoto (.testRx .last) (by decide)⟩
  | waitTx =>
    have hdepth : 0 < depth := by
      have hpos : 0 < left := hok
      have hlen : left = x.length - w * x.bytesPerWord := hway.written.left
      rcases Nat.eq_zero_or_pos x.words with hzero | hwpos
      · rw [hlen, Xfer.length_eq hwhole, hzero, Nat.zero_mul, Nat.zero_sub] at hpos
        exact absurd hpos (Nat.lt_irrefl 0)
      · exact Nat.lt_of_lt_of_le hwpos hwords
    have hnotFull : Fifo.full ⟨tx, shift, rx, out, inn, dropped⟩ depth = false := by
      have htx : tx = [] := hq.1
      rw [Fifo.full, htx]
      exact decide_eq_false (Nat.not_le_of_gt hdepth)
    dsimp only
    rw [hnotFull, if_neg Bool.false_ne_true]
    exact .inr ⟨hq, hgoto .writeTx (by decide)⟩
  | writeTx => exact .inl (toCome_writeTx hok hleftWhole)
  | testRx k =>
    cases k with
    | words =>
      cases rx with
      | nil => exact .inr ⟨hq, hgoto (.head .words) (by decide)⟩
      | cons v rx => exact .inr ⟨hq, hgoto (.readRx .words) (by decide)⟩
    | busy =>
      cases rx with
      | nil => exact absurd rfl hok.2
      | cons v rx => exact .inr ⟨hq, hgoto (.readRx .busy) (by decide)⟩
    | last =>
      cases rx with
      | nil => exact absurd rfl hok.2.2
      | cons v rx => exact .inr ⟨hq, hgoto (.readRx .last) (by decide)⟩
  | readRx k =>
    have hne : rx ≠ [] := by
      cases k with
      | words => exact hok
      | busy => exact hok.2
      | last => exact hok.2.2
    cases rx with
    | nil => exact absurd rfl hne
    | cons v rx =>
      refine .inr ⟨hq, ?_⟩
      change 4 * rx.length + (Pc.head k).rank < 4 * (rx.length + 1) + (Pc.readRx k).rank
      cases k with
      | words =>
        change 4 * rx.length + 8 < 4 * (rx.length + 1) + 9
        omega
      | busy =>
        change 4 * rx.length + 7 < 4 * (rx.length + 1) + 5
        omega
      | last =>
        change 4 * rx.length + 3 < 4 * (rx.length + 1) + 1
        omega
  | testBusy =>
    dsimp only
    rw [not_busy_iff.2 hq, if_neg Bool.false_ne_true]
    exact .inr ⟨hq, hgoto (.head .last) (by decide)⟩
  | drainBusy => exact absurd (hok.2.symm.trans hx) Bool.false_ne_true
  | drainTest => exact absurd (hok.2.2.symm.trans hx) Bool.false_ne_true
  | drainClear => exact absurd (hok.2.2.symm.trans hx) Bool.false_ne_true
  | done => exact absurd rfl hdone

/-! ## Transfers that fit -/

/-- The buffer of a transfer by PDMA on an idle controller, up to the length. -/
theorem pdmaTransmit_eq (hx : x.buffers.receives = true) (hwhole : x.bytesPerWord ∣ x.length) (hc : c.Idle)
    (hi : i < x.length) :
    (pdmaTransmit slave x mem c).2 i =
      storeWords x.bytesPerWord mem 0 (answers slave (x.outWords x.words)) i := by
  obtain ⟨⟨htx, hshift⟩, hrx⟩ := hc
  obtain ⟨m, hm⟩ : ∃ m, movedCount (x.length / x.bytesPerWord) = x.words + m := by
    unfold movedCount Xfer.words
    split
    · exact ⟨65536, rfl⟩
    · exact ⟨0, rfl⟩
  obtain ⟨rest, hrest, hout⟩ := outWords_add x x.words m
  obtain ⟨more, hmore, hans⟩ := answers_append slave (x.outWords x.words) rest
  have hall : (answers slave (x.outWords x.words) ++ more).length ≤ x.words + m := by
    rw [List.length_append, answers_length, outWords_length, hmore, hrest]
  unfold pdmaTransmit
  dsimp only
  rw [if_pos hx, htx, hshift, hrx, hm, List.nil_append, Option.toList_none, List.nil_append,
    List.nil_append, hout, hans, List.take_of_length_le hall, storeWords_append]
  refine storeWords_before _ _ ?_
  rw [answers_length, outWords_length, Nat.zero_add, ← Xfer.length_eq hwhole]
  exact hi

/-- A transfer of no more words than a FIFO holds is right under every schedule. -/
theorem polledRight_of_fits (hx : x.buffers.receives = true) (hwhole : x.bytesPerWord ∣ x.length)
    (hwords : x.words ≤ depth) (hc : c.Idle) (sched : Nat → Nat) : PolledRight depth slave x mem c sched := by
  have hinv : ∀ k, PollInv slave x mem (pollRun depth slave x mem c sched k) := fun k =>
    interleave_invariant (fun _ h => h.step hx) (fun _ h => h.tick hwhole hwords) (pollInv_start hc) k
  have hdone : ∀ k, (pollRun depth slave x mem c sched k).cpu.pc = .done →
      (pollRun depth slave x mem c sched k).fifo.out = x.outWords x.words ∧
      (pollRun depth slave x mem c sched k).fifo.inn.length = x.words ∧
      (pollRun depth slave x mem c sched k).cpu.mem =
        storeWords x.bytesPerWord mem 0 (pollRun depth slave x mem c sched k).fifo.inn := by
    intro k hk
    obtain ⟨-, w, l, hway⟩ := hinv k
    obtain ⟨-, -, hrx⟩ := pollRun_done hk
    have hceil : (x.length + x.bytesPerWord - 1) / x.bytesPerWord = x.words := by
      have hb := x.width.1
      rw [Xfer.length_eq hwhole, Nat.add_sub_assoc hb, Nat.add_comm, Nat.add_mul_div_right _ _ hb,
        Nat.div_eq_of_lt (by omega), Nat.zero_add]
    have hout : (pollRun depth slave x mem c sched k).fifo.out = x.outWords x.words :=
      (pollRun_out hc hk).trans (congrArg x.outWords hceil)
    have hread : (pollRun depth slave x mem c sched k).fifo.inn = l := by
      have hread := hway.read
      rw [hrx, List.append_nil] at hread
      exact hread
    refine ⟨hout, ?_, hread.symm ▸ hway.mem⟩
    rw [hway.inn, answers_length, hout, outWords_length]
  refine ⟨fun k => ?_, fun k i hi => ?_, fun hfair => ?_, hdone, fun k hk _ i hi => ?_⟩
  · obtain ⟨-, w, l, hway⟩ := hinv k
    exact hway.dropped
  · obtain ⟨-, w, l, hway⟩ := hinv k
    rw [hway.mem]
    refine storeWords_past _ _ (Nat.le_trans ?_ hi)
    have hcount : l.length ≤ x.words := by
      have hread := congrArg List.length hway.read
      have hwritten := congrArg List.length hway.written.written
      have hle := hway.written.le hwhole
      rw [hway.inn, answers_length, List.length_append] at hread
      rw [outWords_length, List.length_append, List.length_append] at hwritten
      omega
    rw [Nat.zero_add, Xfer.length_eq hwhole]
    exact Nat.mul_le_mul_right _ hcount
  · exact interleave_ends (I := PollInv slave x mem) (fun _ h => h.step hx)
      (fun _ h => h.tick hwhole hwords) (pollInv_start hc) (fun _ _ hq => Poll.tick_quiet hq)
      (fun _ _ hq => toCome_tick hq) (fun _ h => toCome_step hwhole h)
      (fun _ h hq hd => rank_step hx hwhole hwords h hq hd) hfair
  · obtain ⟨hout, -, hmem⟩ := hdone k hk
    obtain ⟨-, w, l, hway⟩ := hinv k
    rw [hmem, hway.inn, hout, pdmaTransmit_eq hx hwhole hc hi]

/-! ## Transfers of more words -/

/-- Without a FIFO no word can be written. -/
theorem not_done_of_noFifo (hwhole : x.bytesPerWord ∣ x.length) (h : 0 < x.words) (sched : Nat → Nat) (k : Nat) :
    (pollRun 0 slave x mem c sched k).cpu.pc ≠ .done := by
  have hlength : 0 < x.length := by
    rw [Xfer.length_eq hwhole]
    exact Nat.mul_pos h x.width.1
  have hinv : ((pollRun 0 slave x mem c sched k).cpu.pc = .head .words ∨
      (pollRun 0 slave x mem c sched k).cpu.pc = .waitTx) ∧
      (pollRun 0 slave x mem c sched k).cpu.left = x.length := by
    refine @interleave_invariant Poll (Poll.step 0 x) (Poll.tick 0 slave) sched (pollStart x mem c)
      (fun s => (s.cpu.pc = .head .words ∨ s.cpu.pc = .waitTx) ∧ s.cpu.left = x.length) ?_ (fun _ h => h)
      ⟨.inl rfl, rfl⟩ k
    rintro s ⟨hpc, hleft⟩
    unfold Poll.step
    rcases hpc with hpc | hpc
    · rw [hpc]
      dsimp only
      rw [if_pos (hleft ▸ hlength)]
      exact ⟨.inr rfl, hleft⟩
    · rw [hpc]
      dsimp only
      have hfull : s.fifo.full 0 = true := decide_eq_true (Nat.zero_le _)
      rw [hfull, if_pos rfl]
      exact ⟨.inr hpc, hleft⟩
  intro hdone
  rcases hinv.1 with hpc | hpc <;> exact absurd (hdone.symm.trans hpc) (by decide)

/-- The words on their way in and out. -/
def Fifo.inFlight (c : Fifo) : Nat := c.tx.length + c.shift.toList.length + c.rx.length + c.dropped

/-- What the controller has before it. -/
def Fifo.toCome (c : Fifo) : Nat := 2 * c.tx.length + c.shift.toList.length

/-- A progress of the controller loses no word without counting it, and gets on. -/
theorem Fifo.tick_spec (h : c.rx.length ≤ depth) :
    (c.tick depth slave).inFlight = c.inFlight ∧ (c.tick depth slave).rx.length ≤ depth ∧
      (c.tick depth slave).toCome ≤ c.toCome - 1 := by
  obtain ⟨tx, shift, rx, out, inn, dropped⟩ := c
  dsimp only at h
  cases shift with
  | none =>
    cases tx with
    | nil => exact ⟨rfl, h, Nat.le_refl 0⟩
    | cons v tx =>
      refine ⟨?_, h, ?_⟩
      · change tx.length + 1 + rx.length + dropped = tx.length + 1 + 0 + rx.length + dropped
        omega
      · change 2 * tx.length + 1 ≤ 2 * (tx.length + 1) + 0 - 1
        omega
  | some v =>
    refine ⟨?_, ?_, ?_⟩
    · change tx.length + 0 + List.length (if rx.length < depth then rx ++ [_] else rx) +
        (if rx.length < depth then dropped else dropped + 1) = tx.length + 1 + rx.length + dropped
      split
      · rw [List.length_append, List.length_singleton]
        omega
      · omega
    · change List.length (if rx.length < depth then rx ++ [_] else rx) ≤ depth
      split
      · rw [List.length_append, List.length_singleton]
        assumption
      · exact h
    · change 2 * tx.length + 0 ≤ 2 * tx.length + 1 - 1
      omega

/-- While the CPU is away everything comes in, and what the receive FIFO does not hold is dropped. -/
theorem Fifo.dropped_iterate (h : c.rx.length ≤ depth) {n : Nat} (hn : c.toCome ≤ n)
    (hmany : depth < c.inFlight) : ((Fifo.tick depth slave)^[n] c).dropped ≠ 0 := by
  have hinv : ((Fifo.tick depth slave)^[n] c).inFlight = c.inFlight ∧
      ((Fifo.tick depth slave)^[n] c).rx.length ≤ depth ∧
      ((Fifo.tick depth slave)^[n] c).toCome ≤ c.toCome - n := by
    clear hn
    induction n with
    | zero => exact ⟨rfl, h, Nat.le_refl _⟩
    | succ n ih =>
      obtain ⟨hflight, hrx, hcome⟩ := ih
      obtain ⟨hflight', hrx', hcome'⟩ := @Fifo.tick_spec depth slave _ hrx
      rw [Function.iterate_succ_apply']
      exact ⟨hflight'.trans hflight, hrx', by omega⟩
  obtain ⟨hflight, hrx, hcome⟩ := hinv
  unfold Fifo.inFlight at hflight hmany
  unfold Fifo.toCome at hcome hn
  omega

/-- The controller lets the CPU write a word, takes it, lets the CPU fill the transmit FIFO, and goes on when the
CPU is interrupted. -/
def burst (depth k : Nat) : Nat := if k = 3 then 1 else if k < 4 * (depth + 1) then 0 else 2 * depth + 1

/-- After a word the CPU is at the head of its loop, and nothing has come in. -/
structure Filling (x : Xfer) (s : Poll) (n : Nat) : Prop where
  pc : s.cpu.pc = .head .words
  left : s.cpu.left = x.length - (n + 1) * x.bytesPerWord
  tx : s.fifo.tx.length = n
  shift : s.fifo.shift.isSome = true
  rx : s.fifo.rx = []

/-- Three accesses write a word. -/
theorem write_steps (hx : x.buffers.receives = true) (hpc : s.cpu.pc = .head .words) (hleft : 0 < s.cpu.left)
    (hroom : s.fifo.tx.length < depth) :
    ((s.step depth x).step depth x).step depth x = (s.writeTx x).goto (.testRx .words) := by
  have h1 : s.step depth x = s.goto .waitTx := by
    unfold Poll.step
    rw [hpc]
    dsimp only
    rw [if_pos hleft]
  have h2 : (s.goto .waitTx).step depth x = s.goto .writeTx := by
    have hnot : (s.goto .waitTx).fifo.full depth = false := decide_eq_false (Nat.not_le_of_gt hroom)
    change (if (s.goto .waitTx).fifo.full depth = true then s.goto .waitTx else s.goto .writeTx) = _
    rw [hnot, if_neg Bool.false_ne_true]
  rw [h1, h2]
  change ((s.writeTx x).goto (if x.buffers.receives then .testRx .words else .head .words)) = _
  rw [hx, if_pos rfl]

/-- A fourth access finds the receive FIFO empty. -/
theorem testRx_step (hrx : s.fifo.rx = []) :
    (s.goto (.testRx .words)).step depth x = s.goto (.head .words) := by
  change s.goto (if s.fifo.rx.isEmpty then .head .words else .readRx .words) = _
  rw [hrx]
  rfl

/-- Accesses between which the controller makes no progress. -/
theorem pollRun_succ {k : Nat} (h : sched k = 0) : pollRun depth slave x mem c sched (k + 1) =
    (pollRun depth slave x mem c sched k).step depth x := by
  unfold pollRun
  rw [interleave, h, Function.iterate_zero_apply]

/-- The words go into the shift register and the transmit FIFO. -/
theorem filling (hx : x.buffers.receives = true) (hwhole : x.bytesPerWord ∣ x.length) (hc : c.Idle)
    (hmany : depth < x.words) (hpos : 0 < depth) (hn : n ≤ depth) : Filling x (pollRun depth slave x mem c (burst depth) (4 * (n + 1))) n := by
  have hb := x.width.1
  have hlength := Xfer.length_eq hwhole
  induction n with
  | zero =>
    have hroom : (pollStart x mem c).fifo.tx.length < depth := by
      change c.tx.length < depth
      rw [hc.1.1]
      exact hpos
    have hleft : 0 < (pollStart x mem c).cpu.left := by
      change 0 < x.length
      rw [hlength]
      exact Nat.mul_pos (Nat.zero_lt_of_lt hmany) hb
    have h3 : pollRun depth slave x mem c (burst depth) 3 =
        ((pollStart x mem c).writeTx x).goto (.testRx .words) := by
      rw [← write_steps hx rfl hleft hroom, pollRun_succ (by rw [burst, if_neg (by decide), if_pos (by omega)]),
        pollRun_succ (by rw [burst, if_neg (by decide), if_pos (by omega)]),
        pollRun_succ (by rw [burst, if_neg (by decide), if_pos (by omega)])]
      rfl
    have h4 : pollRun depth slave x mem c (burst depth) 4 =
        (((pollStart x mem c).writeTx x).tick depth slave).goto (.head .words) := by
      have hrx : (((pollStart x mem c).writeTx x).tick depth slave).fifo.rx = [] := by
        obtain ⟨⟨htx, hshift⟩, hrx⟩ := hc
        change (Fifo.tick depth slave { c with out := [], inn := [], dropped := 0, tx := c.tx ++ [_] }).rx = []
        rw [Fifo.tick, hshift, htx]
        exact hrx
      rw [← testRx_step hrx]
      change (Poll.tick depth slave (pollRun depth slave x mem c (burst depth) 3)).step depth x = _
      rw [h3]
      rfl
    obtain ⟨⟨htx, hshift⟩, hrx⟩ := hc
    rw [Nat.zero_add, Nat.mul_one, h4]
    have htick : (((pollStart x mem c).writeTx x).tick depth slave).fifo =
        { c with out := [], inn := [], dropped := 0, tx := [], shift := some (x.outWord 0) } := by
      change Fifo.tick depth slave { c with out := [], inn := [], dropped := 0, tx := c.tx ++ [x.outWord 0] } = _
      rw [Fifo.tick, hshift, htx]
      rfl
    refine ⟨rfl, ?_, ?_, ?_, ?_⟩
    · change x.length - x.bytesPerWord = x.length - (0 + 1) * x.bytesPerWord
      rw [Nat.zero_add, Nat.one_mul]
    · exact congrArg (fun c => c.tx.length) htick
    · exact congrArg (fun c => c.shift.isSome) htick
    · exact (congrArg Fifo.rx htick).trans hrx
  | succ n ih =>
    obtain ⟨hpc, hleft, htx, hshift, hrx⟩ := ih (by omega)
    have hmul : (n + 1) * x.bytesPerWord < x.length := by
      rw [hlength]
      exact Nat.mul_lt_mul_of_pos_right (by omega) hb
    have hfour : pollRun depth slave x mem c (burst depth) (4 * (n + 1 + 1)) =
        ((pollRun depth slave x mem c (burst depth) (4 * (n + 1))).writeTx x).goto (.head .words) := by
      have hzero : ∀ j < 4, burst depth (4 * (n + 1) + j) = 0 := by
        intro j hj
        rw [burst, if_neg (by omega), if_pos (by omega)]
      have hsplit : 4 * (n + 1 + 1) = 4 * (n + 1) + 3 + 1 := by omega
      rw [hsplit, pollRun_succ (hzero 3 (by decide)), pollRun_succ (hzero 2 (by decide)),
        pollRun_succ (hzero 1 (by decide)), pollRun_succ (hzero 0 (by decide)), Nat.add_zero,
        write_steps hx hpc (by omega) (by omega)]
      exact testRx_step hrx
    rw [hfour]
    refine ⟨rfl, ?_, ?_, hshift, hrx⟩
    · change (pollRun depth slave x mem c (burst depth) (4 * (n + 1))).cpu.left - x.bytesPerWord = _
      rw [hleft, Nat.sub_sub, ← Nat.succ_mul]
    · change ((pollRun depth slave x mem c (burst depth) (4 * (n + 1))).fifo.tx ++ [_]).length = n + 1
      rw [List.length_append, htx, List.length_singleton]

/-- The CPU drops no word. -/
theorem step_dropped (s : Poll) : (s.step depth x).fifo.dropped = s.fifo.dropped := by
  have hread : (s.readRx x).fifo.dropped = s.fifo.dropped := by
    unfold Poll.readRx
    split <;> rfl
  unfold Poll.step
  split
  · split <;> rfl
  · split <;> rfl
  · rfl
  · rfl
  · rfl
  · rfl
  · rfl
  · exact hread
  · split <;> rfl
  · rfl
  · rfl
  · rfl

theorem iterate_tick_fifo (s : Poll) (n : Nat) :
    ((Poll.tick depth slave)^[n] s).fifo = (Fifo.tick depth slave)^[n] s.fifo := by
  induction n with
  | zero => rfl
  | succ n ih =>
    rw [Function.iterate_succ_apply', Function.iterate_succ_apply', ← ih]
    rfl

/-- With a word more than a FIFO holds, the receive FIFO overruns when the CPU is interrupted with the shift
register and the transmit FIFO full. -/
theorem overruns (hx : x.buffers.receives = true) (hwhole : x.bytesPerWord ∣ x.length) (hc : c.Idle)
    (hmany : depth < x.words) (hpos : 0 < depth) :
    (pollRun depth slave x mem c (burst depth) (4 * (depth + 1) + 1)).fifo.dropped ≠ 0 := by
  obtain ⟨-, -, htx, hshift, hrx⟩ := @filling depth depth slave x mem c hx hwhole hc hmany hpos (Nat.le_refl depth)
  unfold pollRun at htx hshift hrx ⊢
  have hburst : burst depth (4 * (depth + 1)) = 2 * depth + 1 := by
    rw [burst, if_neg (by omega), if_neg (Nat.lt_irrefl _)]
  rw [interleave, step_dropped, iterate_tick_fifo, hburst]
  have hone : (interleave (Poll.step depth x) (Poll.tick depth slave) (burst depth) (pollStart x mem c)
      (4 * (depth + 1))).fifo.shift.toList.length = 1 := by
    obtain ⟨v, hv⟩ := Option.isSome_iff_exists.1 hshift
    rw [hv]
    rfl
  refine Fifo.dropped_iterate ?_ ?_ ?_
  · rw [hrx]
    exact Nat.zero_le _
  · rw [Fifo.toCome, htx, hone]
  · rw [Fifo.inFlight, htx, hone]
    omega

/-! ## Main results -/

/-- A transfer that is right under every schedule has no more words than a FIFO holds. -/
theorem fits_of_polledRight (hx : x.buffers.receives = true) (hwhole : x.bytesPerWord ∣ x.length) (hc : c.Idle)
    (h : ∀ sched, PolledRight depth slave x mem c sched) : x.words ≤ depth := by
  by_contra hmany
  rcases Nat.eq_zero_or_pos depth with hzero | hpos
  · subst hzero
    obtain ⟨k, hk⟩ := (h fun _ => 1).ends fun k => ⟨k, Nat.le_refl k, Nat.one_pos⟩
    exact not_done_of_noFifo hwhole (Nat.lt_of_not_le hmany) _ k hk
  · exact overruns hx hwhole hc (Nat.lt_of_not_le hmany) hpos ((h (burst depth)).noOverrun _)

/-- Every transfer, polled or by PDMA, leaves the controller idle. -/
theorem spiTransfer_idle {chanid : Int} {m : Message} {c' : Fifo} (h : c.Idle)
    (hstep : spiTransfer depth chanid c m c') : c'.Idle := by
  rcases hstep with ⟨-, rfl⟩ | ⟨-, sched, k, hdone, rfl⟩
  · obtain ⟨⟨htx, hshift⟩, hrx⟩ := h
    refine ⟨⟨rfl, rfl⟩, List.drop_eq_nil_of_le ?_⟩
    rw [htx, hshift, hrx, List.nil_append, answers_length, Option.toList_none, List.nil_append,
      List.nil_append, outWords_length]
  · exact (pollRun_done hdone).2

/-- On a controller that transfers have been made on, a polled transfer that receives is right under every
schedule if and only if its words are no more than a FIFO holds. -/
theorem polledTransfer_iff {chanid : Int} {ms : List Message}
    (hrun : Run (spiTransfer depth chanid) Fifo.reset ms c) (x : Xfer) (hx : x.buffers.receives = true)
    (hwhole : x.bytesPerWord ∣ x.length) (slave : List Word → Word) (mem : Nat → Byte) :
    (∀ sched, PolledRight depth slave x mem c sched) ↔ x.length / x.bytesPerWord ≤ depth := by
  have hidle : c.Idle := Run.invariant (I := Fifo.Idle) spiTransfer_idle ⟨⟨rfl, rfl⟩, rfl⟩ hrun
  exact ⟨fits_of_polledRight hx hwhole hidle, fun hfits => polledRight_of_fits hx hwhole hfits hidle⟩

/-- A read of bytes. -/
def readBytes (n : Nat) : Xfer := ⟨.read, 1, n, by decide⟩

/-- A read of bytes into memory that is zero, from a slave that answers 0x5a. -/
def readMessage (n : Nat) : Message := ⟨readBytes n, 0x1000#32, 0x2000#32, fun _ => 0#8, fun _ => 0x5a#32⟩

/-- The FIFOs after a read of 128 bytes by PDMA and a polled read of three. -/
def afterReads : Fifo :=
  (pollRun 4 (fun _ => 0x5a#32) (readBytes 3) (fun _ => 0#8)
    (pdmaTransmit (fun _ => 0x5a#32) (readBytes 128) (fun _ => 0#8) Fifo.reset).1 (fun _ => 2) 40).fifo

theorem afterReads_run : Run (spiTransfer 4 0) Fifo.reset [readMessage 128, readMessage 3] afterReads := by
  have hpdma : spiTransfer 4 0 Fifo.reset (readMessage 128) _ := .inl ⟨by decide, rfl⟩
  have hpolled : spiTransfer 4 0 _ (readMessage 3) afterReads :=
    .inr ⟨by decide, fun _ => 2, 40, by decide +kernel, rfl⟩
  exact (Run.nil.snoc hpdma).snoc hpolled

/-- A read of four bytes after these, with FIFOs of four. -/
theorem polledTransfer_iff_four :
    (∀ sched, PolledRight 4 (fun _ => 0x5a#32) (readBytes 4) (fun _ => 0#8) afterReads sched) ↔ 4 / 1 ≤ 4 :=
  polledTransfer_iff afterReads_run (readBytes 4) rfl (one_dvd 4) _ _

/-- A read of five bytes with FIFOs of four: five words come in while the CPU is away. -/
theorem not_polledRight : ¬ ∀ (depth : Nat) (chanid : Int) (ms : List Message) (c : Fifo),
    Run (spiTransfer depth chanid) Fifo.reset ms c → ∀ x : Xfer, x.buffers.receives = true →
      x.bytesPerWord ∣ x.length → ∀ (slave : List Word → Word) (mem : Nat → Byte) (sched : Nat → Nat),
        PolledRight depth slave x mem c sched := by
  intro h
  have hfits := fits_of_polledRight (x := readBytes 5) rfl (one_dvd 5) ⟨⟨rfl, rfl⟩, rfl⟩
    (h 4 (-1) [] Fifo.reset .nil (readBytes 5) rfl (one_dvd 5) (fun _ => 0x5a#32) (fun _ => 0#8))
  exact absurd hfits (by decide)

end NumakerMA35D1.Spi

import NumakerMA35D1.Uart.DrvUart
import NumakerMA35D1.Lib.Run

/-!
# Received bytes over runs

`uartRx_run`: over every run whose steps meet `RxMeets`, with bytes from the line, moves of the DMA
and events in any order, what the serial device is told are the bytes received, in order, each once,
but for those the DMA has moved since its last event and those in the FIFO. The condition is narrow:
the callback adds the bytes of the pass to the read index in place of setting it, so that the index is
wrong after an event in a pass of which a timeout had announced a part (`not_rxRight`).

Reference: `drv_uart.c`.
-/

namespace NumakerMA35D1.Uart

open Embedded

/-! ## Specification -/

/-- The bytes reported, those the DMA has moved since and those in the FIFO are the bytes received,
and no length that was reported is negative or more than the ring holds. -/
structure RxRight (bufsize : Nat) (s : Driver) : Prop where
  stream : s.reported ++ s.moved.drop s.seen ++ s.fifo = s.received
  lengths : ∀ n ∈ s.lengths, 0 ≤ n ∧ n ≤ bufsize

/-- The DMA does not overwrite bytes that no event has announced; its events come while no earlier
one came in a pass that was announced in part; the FIFO is flushed only when all that the DMA has
moved is announced; and no flush has more bytes than the ring. -/
def RxMeets (bufsize : Nat) (s : Driver) : UartOp → Prop
  | .rx _ => True
  | .dmaMove => s.moved.length < s.seen + bufsize
  | .pdmaEvent => s.spent = false ∧ (s.fifo ≠ [] → seenAfter s bufsize = s.moved.length) ∧
      seenAfter s bufsize - s.seen + s.fifo.length ≤ bufsize
  | .rxTimeout => (s.fifo ≠ [] → s.seen = s.moved.length) ∧ s.fifo.length ≤ bufsize

/-- One step. -/
def uartStep (bufsize : Nat) (s : Driver) (op : UartOp) (s' : Driver) : Prop :=
  uartExec bufsize s op = some s'

/-! ## A flush -/

variable {B : Bufsz} {s s' : Driver} {op : UartOp} {n : Nat}

/-- What a flush of `n` bytes of the DMA's buffer and those of the FIFO does. -/
structure Flushed (bufsize : Nat) (s s' : Driver) (n : Nat) : Prop where
  userWrote : s'.userWrote = s'.put
  put_lt : s'.put < bufsize
  reported : s'.reported = s.reported ++ ringBytes s.dmaBuf s.dmaWrote n bufsize ++ s.fifo
  lengths : ∀ x ∈ s'.lengths, x ∈ s.lengths ∨ x = (n + s.fifo.length : Nat)
  fifo : s'.fifo = []
  rest : s'.dmaBuf = s.dmaBuf ∧ s'.dmaWrote = s.dmaWrote ∧ s'.td = s.td ∧
    s'.received = s.received ∧ s'.moved = s.moved ∧ s'.seen = s.seen ∧ s'.spent = s.spent

theorem sync_zero {src : Nat → UInt8} {p : Nat} (hw : s.userWrote < B.val) :
    sync s B.val src p 0 = s := by
  have hlt := B.lt
  have hmod : (s.userWrote + 0) % 2 ^ 32 % B.val = s.userWrote := by
    rw [Nat.add_zero, Nat.mod_eq_of_lt (by omega : s.userWrote < 2 ^ 32), Nat.mod_eq_of_lt hw]
  rw [sync, hmod]
  rfl

/-- The bytes of the FIFO as a ring. -/
theorem ringBytes_fifo {fifo : List UInt8} {bufsize : Nat} (h : fifo.length ≤ bufsize) :
    ringBytes (fun i => fifo.getD i 0) 0 fifo.length bufsize = fifo := by
  refine List.ext_getElem length_ringBytes fun i h1 h2 => ?_
  rw [getElem_ringBytes, Nat.zero_add, Nat.mod_eq_of_lt (by omega)]
  exact List.getD_eq_getElem _ _ h2

theorem nuUartFlush_spec (huser : s.userWrote = s.put) (hput : s.put < B.val)
    (hdma : s.dmaWrote < B.val) (hn : n + s.fifo.length ≤ B.val)
    (h : nuUartFlush s B.val n = some s') : Flushed B.val s s' n := by
  have hB := B.lt
  have hpos := B.pos
  have huser' : s.userWrote < B.val := huser ▸ hput
  have hadd : ∀ {a b}, a < B.val → b ≤ B.val → (a + b) % 2 ^ 32 % B.val = (a + b) % B.val := by
    intro a b ha hb
    rw [Nat.mod_eq_of_lt (by omega : a + b < 2 ^ 32)]
  unfold nuUartFlush at h
  have hs1 : (if n > 0 then sync s B.val s.dmaBuf s.dmaWrote n else s) =
      sync s B.val s.dmaBuf s.dmaWrote n := by
    split
    · rfl
    · next hzero =>
      rw [Nat.eq_zero_of_not_pos hzero, sync_zero huser']
  dsimp only at h
  rw [hs1] at h
  split at h
  · set s1 := sync s B.val s.dmaBuf s.dmaWrote n with hs1def
    have hwrote1 : s1.userWrote = (s.put + n) % B.val := by
      rw [hs1def, sync, huser]
      exact hadd hput (by omega)
    have hs2 : (if s.fifo.length > 0 then
          sync s1 B.val (fun i => s.fifo.getD i 0) 0 s.fifo.length else s1) =
        sync s1 B.val (fun i => s.fifo.getD i 0) 0 s.fifo.length := by
      split
      · rfl
      · next hzero =>
        rw [Nat.eq_zero_of_not_pos hzero, sync_zero (hwrote1 ▸ Nat.mod_lt _ hpos)]
    rw [hs2] at h
    set s2 := sync s1 B.val (fun i => s.fifo.getD i 0) 0 s.fifo.length with hs2def
    have hwrote2 : s2.userWrote = (s.put + (n + s.fifo.length)) % B.val := by
      have hsum : s2.userWrote = (s1.userWrote + s.fifo.length) % 2 ^ 32 % B.val := rfl
      rw [hsum, hwrote1, hadd (Nat.mod_lt _ hpos) (by omega), Nat.mod_add_mod, Nat.add_assoc]
    have hview : ringBytes s2.userBuf s.put (n + s.fifo.length) B.val =
        ringBytes s.dmaBuf s.dmaWrote n B.val ++ s.fifo := by
      have hbuf2 : s2.userBuf = nuUartFlushSync s1.userBuf ((s.put + n) % B.val)
          (fun i => s.fifo.getD i 0) 0 B.val s.fifo.length := by
        rw [← hwrote1]
        rfl
      have hbuf1 : s1.userBuf = nuUartFlushSync s.userBuf s.put s.dmaBuf s.dmaWrote B.val n := by
        rw [← huser]
        rfl
      rw [ringBytes_add, hbuf2, ringBytes_flushSync_before hpos (Nat.zero_le _) hn,
        ringBytes_flushSync hpos (Nat.le_of_lt (Nat.mod_lt _ hpos)) (Nat.zero_le _) (by omega),
        ringBytes_fifo (by omega), hbuf1,
        ringBytes_flushSync hpos (Nat.le_of_lt hput) (Nat.le_of_lt hdma) (by omega)]
    have hrecv : (s.fifo.length + n) % 2 ^ 32 = n + s.fifo.length := by
      rw [Nat.mod_eq_of_lt (by omega), Nat.add_comm]
    rw [hrecv] at h
    split at h
    · cases h
      have hlen : eventLength (n + s.fifo.length) = (n + s.fifo.length : Nat) :=
        eventLength_eq (by omega)
      refine ⟨?_, Nat.mod_lt _ hpos, ?_, ?_, rfl, rfl, rfl, rfl, rfl, rfl, rfl, rfl⟩
      · change s2.userWrote = (s.put + (eventLength (n + s.fifo.length)).toNat) % B.val
        rw [hlen, Int.toNat_natCast, hwrote2]
      · change s.reported ++ ringBytes s2.userBuf s.put (eventLength _).toNat B.val = _
        rw [hlen, Int.toNat_natCast, hview, List.append_assoc]
      · intro x hx
        change x ∈ s.lengths ++ [eventLength (n + s.fifo.length)] at hx
        rw [hlen, List.mem_append, List.mem_singleton] at hx
        exact hx
    · next hzero =>
      cases h
      have hsum : n + s.fifo.length = 0 := Nat.eq_zero_of_not_pos hzero
      have hn0 : n = 0 := by omega
      have hfifo : s.fifo = [] := List.eq_nil_of_length_eq_zero (by omega)
      refine ⟨?_, hput, ?_, fun x hx => .inl hx, rfl, rfl, rfl, rfl, rfl, rfl, rfl, rfl⟩
      · change s2.userWrote = s.put
        rw [hwrote2, hsum, Nat.add_zero, Nat.mod_eq_of_lt hput]
      · change s.reported = _
        rw [hn0, hfifo]
        simp [ringBytes]
  · cases h

/-! ## The invariant -/

/-- The DMA's buffer holds the last bytes moved, the flag tells that a pass is done, and the read
index is right until an event comes in a pass that was announced in part. -/
structure RxInv (bufsize : Nat) (s : Driver) : Prop extends RxRight bufsize s where
  seen_le : s.seen ≤ s.moved.length
  ahead : s.moved.length ≤ s.seen + bufsize
  td_iff : s.td = true ↔ s.seen / bufsize < s.moved.length / bufsize
  dmaBuf : ∀ j < s.moved.length, s.moved.length ≤ j + bufsize →
    s.dmaBuf (j % bufsize) = s.moved.getD j 0
  index : s.spent = false → s.dmaWrote = s.seen % bufsize
  dmaWrote_lt : s.dmaWrote < bufsize
  userWrote : s.userWrote = s.put
  put_lt : s.put < bufsize

/-- The bytes of the DMA's buffer that an event announces. -/
theorem RxInv.ringBytes_dmaBuf {bufsize : Nat} (h : RxInv bufsize s)
    (hn : s.seen + n ≤ s.moved.length) :
    ringBytes s.dmaBuf (s.seen % bufsize) n bufsize = (s.moved.drop s.seen).take n := by
  refine List.ext_getElem ?_ fun i h1 h2 => ?_
  · rw [length_ringBytes, List.length_take, List.length_drop]
    omega
  · have hi : i < n := by rwa [length_ringBytes] at h1
    have hahead := h.ahead
    rw [getElem_ringBytes, Nat.mod_add_mod,
      h.dmaBuf (s.seen + i) (by omega) (by omega), List.getElem_take, List.getElem_drop]
    exact List.getD_eq_getElem _ _ (by omega)

/-- The first bytes from a place on, and those after them. -/
theorem take_drop_append {l : List UInt8} {k : Nat} :
    (l.drop k).take n ++ l.drop (k + n) = l.drop k := by
  rw [← List.drop_drop, List.take_append_drop]

/-- A byte of the line enters the FIFO. -/
theorem RxInv.rx {bufsize : Nat} (h : RxInv bufsize s) (b : UInt8) :
    RxInv bufsize { s with fifo := s.fifo ++ [b], received := s.received ++ [b] } where
  stream := by rw [← h.stream, List.append_assoc _ s.fifo]
  lengths := h.lengths
  seen_le := h.seen_le
  ahead := h.ahead
  td_iff := h.td_iff
  dmaBuf := h.dmaBuf
  index := h.index
  dmaWrote_lt := h.dmaWrote_lt
  userWrote := h.userWrote
  put_lt := h.put_lt

/-- The DMA moves a byte over one that is announced. -/
theorem RxInv.dmaMove (h : RxInv B.val s) (hmeets : RxMeets B.val s .dmaMove)
    (hstep : uartStep B.val s .dmaMove s') : RxInv B.val s' := by
  have hpos := B.pos
  unfold uartStep uartExec at hstep
  dsimp only at hstep
  split at hstep
  · cases hstep
  next b fifo hfifo =>
  cases hstep
  change s.moved.length < s.seen + B.val at hmeets
  have hlen : (s.moved ++ [b]).length = s.moved.length + 1 := List.length_append
  have hdiv : (s.moved.length + 1) / B.val ≤ s.seen / B.val + 1 := by
    rw [← Nat.add_div_right _ hpos]
    exact Nat.div_le_div_right hmeets
  refine ⟨⟨?_, h.lengths⟩, ?_, ?_, ?_, ?_, h.index, h.dmaWrote_lt, h.userWrote, h.put_lt⟩
  · rw [List.drop_append_of_le_length h.seen_le, ← h.stream, hfifo]
    simp only [List.append_assoc, List.singleton_append]
  · rw [hlen]
    exact Nat.le_succ_of_le h.seen_le
  · rw [hlen]
    exact hmeets
  · change (decide ((s.moved.length + 1) % B.val = 0) || s.td) = true ↔
      s.seen / B.val < (s.moved ++ [b]).length / B.val
    rw [hlen, Bool.or_eq_true, decide_eq_true_eq, h.td_iff, Nat.succ_div]
    have hle : s.seen / B.val ≤ s.moved.length / B.val := Nat.div_le_div_right h.seen_le
    have hdvd : (s.moved.length + 1) % B.val = 0 ↔ B.val ∣ s.moved.length + 1 :=
      (Nat.dvd_iff_mod_eq_zero).symm
    rw [hdvd]
    split
    · next hd =>
      simp only [hd, true_or, true_iff]
      omega
    · next hd =>
      simp only [hd, false_or, Nat.add_zero]
  · intro j hj hj'
    rw [hlen] at hj hj'
    dsimp only
    by_cases heq : j = s.moved.length
    · subst heq
      rw [Function.update_self, List.getD_append_right _ _ _ _ (Nat.le_refl _), Nat.sub_self]
      rfl
    · have hne : j % B.val ≠ s.moved.length % B.val := by
        intro hmod
        have hk : (j + 0) % B.val = (j + (s.moved.length - j)) % B.val := by
          rw [Nat.add_zero, hmod]
          congr 1
          omega
        have hzero := ring_inj hpos (by omega) hk
        omega
      rw [Function.update_of_ne hne, List.getD_append _ _ _ _ (by omega)]
      exact h.dmaBuf j (by omega) (by omega)

/-- A receive timeout flushes the FIFO. -/
theorem RxInv.rxTimeout (h : RxInv B.val s) (hmeets : RxMeets B.val s .rxTimeout)
    (hstep : uartStep B.val s .rxTimeout s') : RxInv B.val s' := by
  obtain ⟨hall, hlen⟩ := hmeets
  have hf := nuUartFlush_spec h.userWrote h.put_lt h.dmaWrote_lt (n := 0) (by omega) hstep
  obtain ⟨hbuf, hwrote, htd, hreceived, hmoved, hseen, hspent⟩ := hf.rest
  refine ⟨⟨?_, ?_⟩, ?_, ?_, ?_, ?_, ?_, ?_, hf.userWrote, hf.put_lt⟩
  · rw [hf.reported, hf.fifo, hmoved, hseen, hreceived, ← h.stream]
    by_cases hfifo : s.fifo = []
    · simp [hfifo, ringBytes]
    · simp [hall hfifo, ringBytes]
  · intro x hx
    rcases hf.lengths x hx with hx | rfl
    · exact h.lengths x hx
    · omega
  · rw [hseen, hmoved]
    exact h.seen_le
  · rw [hseen, hmoved]
    exact h.ahead
  · rw [htd, hseen, hmoved]
    exact h.td_iff
  · rw [hmoved, hbuf]
    exact h.dmaBuf
  · rw [hspent, hwrote, hseen]
    exact h.index
  · rw [hwrote]
    exact h.dmaWrote_lt

/-- The bytes an event announces end the pass, or are all that the DMA has moved, and the callback's
difference is their number. -/
theorem RxInv.announced (h : RxInv B.val s) (hspent : s.spent = false) :
    s.seen ≤ seenAfter s B.val ∧ seenAfter s B.val ≤ s.moved.length ∧
    ((if s.td then B.val else transferredByte s B.val) + 2 ^ 32 - s.dmaWrote) % 2 ^ 32 =
      seenAfter s B.val - s.seen ∧
    (if s.td then B.val else transferredByte s B.val) % B.val = seenAfter s B.val % B.val ∧
    ¬ seenAfter s B.val / B.val < s.moved.length / B.val := by
  have hpos := B.pos
  have hlt := B.lt
  have hmod := Nat.mod_lt s.seen hpos
  have hdm := Nat.div_add_mod' s.seen B.val
  have hdm' := Nat.div_add_mod' s.moved.length B.val
  have hmod' := Nat.mod_lt s.moved.length hpos
  have hahead := h.ahead
  have hsl := h.seen_le
  have htd := h.td_iff
  have hdiv : s.moved.length / B.val ≤ s.seen / B.val + 1 := by
    rw [← Nat.add_div_right _ hpos]
    exact Nat.div_le_div_right hahead
  rw [h.index hspent]
  unfold seenAfter transferredByte
  cases hflag : s.td with
  | true =>
    have hpass := htd.1 hflag
    have heq : s.moved.length / B.val = s.seen / B.val + 1 := by omega
    have hend : (s.seen / B.val + 1) * B.val = s.seen / B.val * B.val + B.val := Nat.succ_mul _ _
    simp only [if_true]
    refine ⟨by omega, ?_, ?_, ?_, ?_⟩
    · rw [← heq]
      omega
    · rw [hend]
      omega
    · rw [Nat.mod_self, Nat.mul_mod_left]
    · rw [Nat.mul_div_cancel _ hpos, heq]
      exact Nat.lt_irrefl _
  | false =>
    have hpass : ¬ s.seen / B.val < s.moved.length / B.val := fun hp => by
      rw [htd.2 hp] at hflag
      cases hflag
    have hle : s.seen / B.val ≤ s.moved.length / B.val := Nat.div_le_div_right hsl
    have heq : s.moved.length / B.val = s.seen / B.val := by omega
    rw [heq] at hdm'
    simp only [Bool.false_eq_true, if_false]
    refine ⟨hsl, Nat.le_refl _, ?_, Nat.mod_mod _ _, Nat.lt_irrefl _⟩
    omega

/-- An event of the DMA announces the bytes it has moved. -/
theorem RxInv.pdmaEvent (h : RxInv B.val s) (hmeets : RxMeets B.val s .pdmaEvent)
    (hstep : uartStep B.val s .pdmaEvent s') : RxInv B.val s' := by
  obtain ⟨hspent, hall, hlen⟩ := hmeets
  have hpos := B.pos
  have hlt := B.lt
  obtain ⟨hseen, hmoved, hnew, hindex, hdone⟩ := h.announced hspent
  unfold uartStep uartExec nuPdmaUartRxCb at hstep
  dsimp only at hstep
  rw [hnew] at hstep
  obtain ⟨s1, hflush, rfl⟩ := Option.map_eq_some_iff.1 hstep
  have hf := nuUartFlush_spec h.userWrote h.put_lt h.dmaWrote_lt hlen hflush
  obtain ⟨hbuf, hwrote, htd, hreceived, hmoved', hseen', hspent'⟩ := hf.rest
  have hwrote_lt := h.dmaWrote_lt
  have hsize : (if s.td then B.val else transferredByte s B.val) ≤ B.val := by
    split
    · exact Nat.le_refl _
    · exact Nat.le_of_lt (Nat.mod_lt _ hpos)
  refine ⟨⟨?_, ?_⟩, ?_, ?_, ?_, ?_, ?_, Nat.mod_lt _ hpos, hf.userWrote, hf.put_lt⟩
  · dsimp only
    rw [hf.reported, hf.fifo, hmoved', hreceived, h.index hspent,
      h.ringBytes_dmaBuf (by omega), ← h.stream]
    by_cases hfifo : s.fifo = []
    · rw [hfifo]
      have hsplit := take_drop_append (l := s.moved) (k := s.seen) (n := seenAfter s B.val - s.seen)
      rw [Nat.add_sub_cancel' hseen] at hsplit
      conv_rhs => rw [← hsplit]
      simp only [List.append_assoc, List.append_nil]
    · rw [hall hfifo, List.drop_length, List.append_nil, List.append_nil]
      congr 2
      refine List.take_of_length_le ?_
      rw [List.length_drop]
  · intro x hx
    rcases hf.lengths x hx with hx | rfl
    · exact h.lengths x hx
    · omega
  · dsimp only
    rw [hmoved']
    exact hmoved
  · dsimp only
    rw [hmoved']
    have hahead := h.ahead
    omega
  · dsimp only
    rw [hmoved']
    exact iff_of_false Bool.false_ne_true hdone
  · dsimp only
    rw [hmoved', hbuf]
    exact h.dmaBuf
  · intro hno
    dsimp only at hno ⊢
    rw [Bool.or_eq_false_iff, decide_eq_false_iff_not, not_not] at hno
    rw [h.index hspent, hno.1, Nat.zero_add,
      Nat.mod_eq_of_lt (lt_of_le_of_lt hsize (by omega : B.val < 2 ^ 32)), hindex]

/-- What a step keeps. -/
theorem rxInv_step (h : RxInv B.val s)
    (hstep : where_ (uartStep B.val) (RxMeets B.val) s op s') : RxInv B.val s' := by
  obtain ⟨hmeets, hexec⟩ := hstep
  cases op with
  | rx b =>
    cases hexec
    exact h.rx b
  | dmaMove => exact h.dmaMove hmeets hexec
  | pdmaEvent => exact h.pdmaEvent hmeets hexec
  | rxTimeout => exact h.rxTimeout hmeets hexec

/-- Nothing is received at the start. -/
theorem rxInv_init : RxInv B.val Driver.init where
  stream := rfl
  lengths := fun _ hn => nomatch hn
  seen_le := Nat.le_refl 0
  ahead := Nat.zero_le _
  td_iff := iff_of_false Bool.false_ne_true (Nat.lt_irrefl _)
  dmaBuf := fun j hj => absurd hj (Nat.not_lt_zero j)
  index := fun _ => (Nat.zero_mod _).symm
  dmaWrote_lt := B.pos
  userWrote := rfl
  put_lt := B.pos

/-- Over every run whose steps meet the condition the bytes reported, those the DMA has moved since
and those in the FIFO are the bytes received, and every length is that of its bytes. -/
theorem uartRx_run {ops : List UartOp}
    (h : Run (where_ (uartStep B.val) (RxMeets B.val)) Driver.init ops s) : RxRight B.val s :=
  (Run.invariant (I := RxInv B.val) rxInv_step rxInv_init h).toRxRight

/-! ## Two timeouts in a pass -/

/-- A ring of eight bytes. -/
def eightBytes : Bufsz := ⟨8, by decide, by decide⟩

/-- Two bytes and a timeout, a third byte and a timeout, and the rest of the pass. -/
def twoTimeouts : List UartOp :=
  [.rx 1, .dmaMove, .rx 2, .dmaMove, .pdmaEvent, .rx 3, .dmaMove, .pdmaEvent,
    .rx 4, .dmaMove, .rx 5, .dmaMove, .rx 6, .dmaMove, .rx 7, .dmaMove, .rx 8, .dmaMove, .pdmaEvent]

theorem twoTimeouts_isSome : (twoTimeouts.foldlM (uartExec 8) Driver.init).isSome = true := by
  decide +kernel

/-- The second timeout makes the read index five, where three bytes are announced: the fourth and the
fifth byte are never reported. -/
theorem not_rxRight : ¬ ∀ (ops : List UartOp) (s : Driver),
    Run (uartStep eightBytes.val) Driver.init ops s → RxRight eightBytes.val s := by
  intro h
  have hright := h twoTimeouts _ (Run.of_foldlM id (Option.some_get twoTimeouts_isSome).symm)
  exact absurd hright.stream (by decide +kernel)

/-- `uartRx_run` on a byte that a timeout announces. -/
theorem uartRx_run_byte : ∃ s : Driver, s.reported = [7] ∧ RxRight eightBytes.val s := by
  have hrx : Run (where_ (uartStep eightBytes.val) (RxMeets eightBytes.val)) Driver.init
      [.rx 7] _ := .snoc .nil ⟨trivial, rfl⟩
  have hmove := hrx.snoc (a := UartOp.dmaMove) ⟨(by decide : 0 < 0 + 8), rfl⟩
  have hevent := hmove.snoc (a := UartOp.pdmaEvent)
    ⟨⟨rfl, (fun hne => absurd rfl hne), (by decide : 1 - 0 + 0 ≤ 8)⟩, rfl⟩
  exact ⟨_, rfl, uartRx_run hevent⟩

end NumakerMA35D1.Uart

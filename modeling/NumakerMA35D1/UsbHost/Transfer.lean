import NumakerMA35D1.UsbHost.CtrlXfer

/-!
# What a transfer moves

A transfer is right when no copy leaves its buffer, the bytes it returns are those that went over the
wire, and the caller's buffer holds them. `transferRight_iff` says exactly when one is: packets of
more than 512 bytes do not fit the packet buffer, a bulk transfer returns what the host library counts
(one byte for none on OHCI, none after a transaction error on EHCI), an interrupt transfer returns what
was asked for whatever was moved, the calls of a control request from the device return what was asked
for too, and the data of a control request to the device are never sent.

Reference: `drv_usbhost.c:490 nu_pipe_xfer`, `usbhost_core.c:563 rt_usb_hcd_pipe_xfer`.
-/

namespace NumakerMA35D1.UsbHost

open Embedded

/-! ## The calls of a request -/

/-- The bytes that the calls made so far returned, those that went over the wire in them, and the
caller's buffer. -/
structure Progress where
  count : Nat
  wire : List Byte
  buffer : List Byte

/-- The call for the next packet. Reference: `usbhost_core.c:573 rt_usb_hcd_pipe_xfer`. -/
def nextCall (inst : Uinst) (ep : UendpointDescriptor) (p : Progress) : Call :=
  dataCall inst ep (p.buffer.drop p.count) ep.wMaxPacketSize.toNat

/-- The bytes returned and on the wire after a call that succeeded, and the caller's buffer. -/
def Progress.next (p : Progress) (c : Call) (x : Result) : Progress :=
  ⟨p.count + c.nbytes, p.wire ++ x.wire, p.buffer.take p.count ++ x.buffer.getD []⟩

/-- The calls for the rest of the buffer, packet by packet, each with its answer; at the buffer's end
there is fuel left. Reference: `usbhost_core.c:563 rt_usb_hcd_pipe_xfer`. -/
def hcdPipeXfer (inst : Uinst) (ep : UendpointDescriptor) (w : Nat → Answer) :
    Nat → Nat → Driver → Progress → Except Halt Progress
  | 0, _, _, p => .ok p
  | fuel + 1, k, s, p => do
    let c := nextCall inst ep p
    let x ← nuPipeXfer s .DATA c (w k)
    if x.ret = c.nbytes then
      if p.count + c.nbytes < p.buffer.length then
        hcdPipeXfer inst ep w fuel (k + 1) x.drv (p.next c x)
      else .ok (p.next c x)
    else .ok ⟨p.count, p.wire, p.buffer.take p.count ++ x.buffer.getD []⟩

/-- A transfer on another pipe, or a control request: the SETUP packet and the data. -/
inductive Transfer
  | pipe (c : Call) (w : Answer)
  | control (inst : Uinst) (mps : BitVec 8) (setup : Urequest) (buffer : List Byte) (w : Nat → Answer)

/-- The pipe of endpoint zero for the data of a request. -/
def dataPipe (setup : Urequest) (mps : BitVec 8) : UendpointDescriptor :=
  if setup.dirIn then ep0In mps else ep0Out mps

/-- A control request: its SETUP packet, then its data. -/
def controlRequest (s : Driver) (inst : Uinst) (mps : BitVec 8) (setup : Urequest)
    (buffer : List Byte) (w : Nat → Answer) : Except Halt Progress := do
  let x ← nuPipeXfer s .SETUP (setupCall inst mps setup) (w 0)
  if x.ret = 8 then
    hcdPipeXfer inst (dataPipe setup mps) w (buffer.length + 1) 1 x.drv ⟨0, x.wire, buffer⟩
  else .ok ⟨0, [], buffer⟩

/-- The bytes returned are those on the wire, and they are in the caller's buffer. -/
def Progress.Right (p : Progress) : Prop :=
  p.count = p.wire.length ∧ p.buffer.take p.count = p.wire

/-- No copy leaves its buffer, and what is returned was moved. -/
def Transfer.Right (s : Driver) : Transfer → Prop
  | .pipe c w => ∃ x, nuPipeXfer s .DATA c w = .ok x ∧
      (0 ≤ x.ret → (⟨x.ret.toNat, x.wire, x.buffer.getD []⟩ : Progress).Right)
  | .control inst mps setup buffer w =>
    ∃ p, controlRequest s inst mps setup buffer w = .ok p ∧ p.Right

/-- The pipe is open, no packet is longer than the endpoint's, and the caller's buffer is the whole
of the request's data. -/
def Transfer.Allowed (s : Driver) : Transfer → Prop
  | .pipe c _ => (∃ ctrl r, Opened s c.inst c.pipeIndex ctrl r) ∧ c.ep.bmAttributes ≠ 0x00#8 ∧
      c.nbytes ≤ c.ep.wMaxPacketSize.toNat
  | .control inst mps setup buffer _ => (∃ ctrl r, Opened s inst 0 ctrl r) ∧ 0 < mps.toNat ∧
      buffer.length = setup.wLength.toNat

/-- The device fails with what fits the packet buffer, or sends nothing or all that was asked for. -/
def CtrlAnswer.Whole (setup : Urequest) : CtrlAnswer → Prop
  | .failed _ data => (data.take setup.wLength.toNat).length ≤ PKT_BUF_SIZE
  | .done _ data => data.take setup.wLength.toNat = [] ∨
      setup.wLength.toNat ≤ data.length ∧ setup.wLength.toNat ≤ PKT_BUF_SIZE

/-- A request to the device is sent from NULL: it fails, or an EHCI controller finds the caller's bytes
there. An OHCI controller sends none and counts one. -/
def CtrlAnswer.Sends (setup : Urequest) (buffer : List Byte) : CtrlAnswer → Prop
  | .failed _ _ => True
  | .done hc data =>
    if hc.IsEhci then setup.wLength.toNat ≤ data.length → data.take setup.wLength.toNat = buffer
    else setup.wLength ≠ 1

/-- The library counts a bulk transfer as it was moved. One of no bytes times out on OHCI, and has a
queue head on EHCI; one of some bytes moves none, or its descriptor comes back in time, from an EHCI
controller without an error. -/
def BulkRun.Counted (x : BulkRun) (n : Nat) : Prop :=
  if n = 0 then if x.hc.IsEhci then x.newQh = false else x.seen = false
  else x.data = [] ∨ x.seen = true ∧ (x.hc.IsEhci → x.errors = false)

/-- The bytes that a submission of the call moves, as many as `data` if there are. -/
def Call.moved (c : Call) (data : List Byte) : List Byte :=
  if c.ep.dirIn then data.take c.nbytes else (c.buffer.getD []).take (min c.nbytes data.length)

/-- The packet buffer after a submission of the call. -/
def Call.landOne (c : Call) (held data : List Byte) : List Byte :=
  if c.ep.dirIn then data.take c.nbytes ++ held.drop (data.take c.nbytes).length else held

/-- What the caller has of the data after submissions of the call that move `moves`. -/
def Call.landed (c : Call) (held : List Byte) (moves : List (List Byte)) : List Byte :=
  (if c.ep.dirIn then moves.foldl c.landOne held else c.buffer.getD []).take c.nbytes

/-- What the pipe's packet buffer holds. -/
def Call.held (s : Driver) (c : Call) : List Byte :=
  match (getPortDevFromPipe s c.inst).bind fun r => (s r).asPipePktBuf c.pipeIndex with
  | none => []
  | some buf => buf.1

/-- The submissions of an interrupt transfer, each from the start of the packet buffer, move between them
the bytes asked for (`landed_iff`: the last moves all of them, if those that timed out move none). -/
def Call.Landed (s : Driver) (c : Call) (moves : List (List Byte)) : Prop :=
  c.landed (c.held s) moves = (moves.map c.moved).flatten

/-- What a transfer moves when it is right: it fits the packet buffer, a bulk transfer is counted as it
was moved, an interrupt transfer moves what was asked for, a request from the device too or nothing,
and a request to the device has no data or fails. -/
def Transfer.Meets (s : Driver) : Transfer → Prop
  | .pipe c w => c.nbytes ≤ PKT_BUF_SIZE ∧
      (c.ep.bmAttributes = 0x02#8 → w.utr = true → ∀ x, w.bulk = .ran x → x.Counted c.nbytes) ∧
      (c.ep.bmAttributes = 0x03#8 → w.utr = true → ∀ timedOut data, w.int = .done timedOut data →
        c.Landed s (timedOut ++ [data]))
  | .control _ _ setup buffer w =>
    if setup.dirIn then (w 1).ctrl.Whole setup else (w 0).ctrl.Sends setup buffer

/-! ## Pipes -/

section

variable {s : Driver} {c : Call} {ctrl : Nat} {r : PortRef}

/-- On an open pipe that is not endpoint zero's. -/
theorem nuPipeXfer_utr (ho : Opened s c.inst c.pipeIndex ctrl r) (hattr : c.ep.bmAttributes ≠ 0x00#8)
    (token : Token) (w : Answer) :
    nuPipeXfer s token c w = (do
      let s ← copyIn s r c
      utrXfer s r c w) := by
  rw [nuPipeXfer_opened ho]
  simp only [hattr, if_false]

/-- One that moves past the packet buffer fails, or leaves the pipe with a packet buffer. -/
theorem moveEach_cases {buf : PktBuf} (hbuf : (s r).asPipePktBuf c.pipeIndex = some buf)
    (moves : List (List Byte)) :
    (∃ halt, moveEach s r c moves = .error halt) ∨
      ∃ s' wire buf', moveEach s r c moves = .ok (s', wire) ∧
        (s' r).asPipePktBuf c.pipeIndex = some buf' := by
  induction moves generalizing s buf with
  | nil => exact .inr ⟨s, [], buf, rfl, hbuf⟩
  | cons data rest ih =>
    have hone : (∃ halt, moveData s r c data = .error halt) ∨
        ∃ s' wire buf', moveData s r c data = .ok (s', wire) ∧
          (s' r).asPipePktBuf c.pipeIndex = some buf' := by
      rw [moveData]
      split
      · exact .inr ⟨s, [], buf, rfl, hbuf⟩
      · rw [pktBuf_ok hbuf, ok_bind]
        split
        · rcases hwrite : buf.write (data.take c.nbytes) with halt | buf'
          · exact .inl ⟨halt, rfl⟩
          · exact .inr ⟨_, _, buf', rfl, withPktBuf_self⟩
        · rcases hread : buf.read (data.take c.nbytes).length with halt | out
          · exact .inl ⟨halt, rfl⟩
          · exact .inr ⟨_, _, buf, rfl, hbuf⟩
    rw [moveEach]
    obtain ⟨halt, herror⟩ | ⟨s', wire, buf', hok, hbuf'⟩ := hone
    · rw [herror]
      exact .inl ⟨halt, rfl⟩
    · rw [hok, ok_bind]
      dsimp only
      obtain ⟨halt, herror⟩ | ⟨s'', wire', buf'', hok', hbuf''⟩ := ih hbuf'
      · rw [herror]
        exact .inl ⟨halt, rfl⟩
      · rw [hok', ok_bind]
        exact .inr ⟨_, _, buf'', rfl, hbuf''⟩

/-- A packet that does not fit the packet buffer. -/
theorem utrXfer_overflow {buf : PktBuf} (hbuf : (s r).asPipePktBuf c.pipeIndex = some buf)
    {bytes : List Byte} (hb : c.buffer = some bytes) (hn : PKT_BUF_SIZE < c.nbytes)
    (hin : c.ep.dirIn = true) (w : Answer) : ∃ halt, utrXfer s r c w = .error halt := by
  have hexit : ∀ ret wire, exitXfer s r c ret wire none = .error .pktBufOverflow :=
    fun ret wire => exitXfer_overflow hbuf hb hn hin ret wire none
  have hmove : ∀ data : List Byte, ∀ f : List Byte → Int,
      ∃ halt, (moveData s r c data >>= fun m =>
        exitXfer m.1 r c (f m.2) m.2 none) = .error halt := by
    intro data f
    rw [moveData, if_neg (by omega), pktBuf_ok hbuf, ok_bind, if_pos hin]
    rcases Nat.lt_or_ge PKT_BUF_SIZE (data.take c.nbytes).length with hbig | hfits
    · rw [PktBuf.write_overflow hbig]
      exact ⟨_, rfl⟩
    · obtain ⟨buf', hwrite, -⟩ := PktBuf.write_ok buf hfits
      rw [hwrite, ok_bind, ok_bind]
      exact ⟨_, exitXfer_overflow withPktBuf_self hb hn hin _ _ none⟩
  rw [utrXfer]
  split
  · exact ⟨_, hexit _ _⟩
  · split
    · cases w.bulk with
      | refused => exact ⟨_, hexit _ _⟩
      | ran x =>
        dsimp only
        split
        · exact ⟨_, rfl⟩
        · exact hmove x.data fun wire => x.xferLen c.nbytes wire.length
    · split
      · cases w.int with
        | refused => exact ⟨_, hexit _ _⟩
        | done timedOut data =>
          dsimp only
          obtain ⟨halt, herror⟩ | ⟨s', wire, buf', hok, hbuf'⟩ := moveEach_cases hbuf (timedOut ++ [data])
          · rw [herror]
            exact ⟨halt, rfl⟩
          · rw [hok, ok_bind]
            exact ⟨_, exitXfer_overflow hbuf' hb hn hin _ _ none⟩
      · split
        · exact ⟨_, hexit _ _⟩
        · exact ⟨_, hexit _ _⟩

/-- The packet buffer is there, with the caller's data for the device. -/
structure Copied (s : Driver) (r : PortRef) (c : Call) (buf : PktBuf) : Prop where
  pktBuf : (s r).asPipePktBuf c.pipeIndex = some buf
  data : c.ep.dirIn = false → ∀ bytes ∈ c.buffer, buf.1.take c.nbytes = bytes.take c.nbytes

theorem Call.buffer_of_pos (c : Call) (h : c.nbytes ≠ 0) : ∃ bytes, c.buffer = some bytes := by
  cases hb : c.buffer with
  | none => exact absurd (c.null hb) h
  | some bytes => exact ⟨bytes, rfl⟩

/-- A packet that fits the packet buffer is copied into it. -/
theorem copyIn_fits (ho : Opened s c.inst c.pipeIndex ctrl r) (hn : c.nbytes ≤ PKT_BUF_SIZE) :
    ∃ s' buf, copyIn s r c = .ok s' ∧ Copied s' r c buf := by
  obtain ⟨buf, hbuf⟩ := Option.isSome_iff_exists.1 ho.pktBuf
  by_cases hkeep : c.nbytes = 0 ∨ c.ep.dirIn = true
  · refine ⟨s, buf, copyIn_keeps hkeep, hbuf, fun hout bytes _ => ?_⟩
    rcases hkeep with h0 | hin
    · rw [h0, List.take_zero, List.take_zero]
    · rw [hin] at hout
      cases hout
  · obtain ⟨hpos, hout⟩ := not_or.1 hkeep
    have hout : c.ep.dirIn = false := by simpa using hout
    obtain ⟨bytes, hb⟩ := c.buffer_of_pos hpos
    obtain ⟨buf', hcopy, hbytes⟩ := copyIn_out hbuf hb hn hpos hout
    refine ⟨_, buf', hcopy, withPktBuf_self, fun _ bytes' hb' => ?_⟩
    rw [hb] at hb'
    cases hb'
    exact hbytes

/-- The call leaves by the exit label, with what the packet buffer holds if it reads. -/
theorem exitXfer_fits {buf : PktBuf} (hc : Copied s r c buf) (hn : c.nbytes ≤ PKT_BUF_SIZE)
    (ret : Int) (wire : List Byte) :
    ∃ buffer, exitXfer s r c ret wire none = .ok ⟨ret, s, buffer, wire, none⟩ ∧
      (buffer.getD []).take c.nbytes = c.landed buf.1 [] := by
  by_cases hkeep : c.nbytes = 0 ∨ c.ep.dirIn = false
  · refine ⟨c.buffer, exitXfer_keeps hkeep ret wire none, ?_⟩
    rcases hkeep with h0 | hout
    · rw [Call.landed, h0, List.take_zero, List.take_zero]
    · rw [Call.landed, hout]
      rfl
  · obtain ⟨hpos, hin⟩ := not_or.1 hkeep
    have hin : c.ep.dirIn = true := by simpa using hin
    obtain ⟨bytes, hb⟩ := c.buffer_of_pos hpos
    refine ⟨_, exitXfer_in hc.pktBuf hb hn hpos hin ret wire none, ?_⟩
    rw [Option.getD_some, Call.landed, if_pos hin, List.take_left']
    · rfl
    · rw [List.length_take, buf.2, Nat.min_eq_left hn]

theorem Call.length_moved (c : Call) (data : List Byte) :
    (c.moved data).length = min c.nbytes data.length := by
  rw [Call.moved]
  split
  · exact List.length_take
  · rw [List.length_take]
    cases hb : c.buffer with
    | none => simp [c.null hb]
    | some bytes =>
      have hroom : c.nbytes ≤ bytes.length := c.room bytes hb
      rw [Option.getD_some]
      omega

/-- One submission leaves what it moves in the packet buffer. -/
theorem moveData_fits {buf : PktBuf} (hc : Copied s r c buf) (hn : c.nbytes ≤ PKT_BUF_SIZE)
    (data : List Byte) :
    ∃ s' buf', moveData s r c data = .ok (s', c.moved data) ∧ Copied s' r c buf' ∧
      buf'.1 = c.landOne buf.1 data := by
  by_cases h0 : c.nbytes = 0
  · refine ⟨s, buf, ?_, hc, ?_⟩
    · have hnone : c.moved data = [] :=
        List.eq_nil_of_length_eq_zero (by rw [c.length_moved, h0, Nat.zero_min])
      rw [moveData_zero h0, hnone]
    · rw [Call.landOne, h0, List.take_zero]
      split <;> rfl
  · obtain ⟨bytes, hb⟩ := c.buffer_of_pos h0
    cases hin : c.ep.dirIn with
    | true =>
      obtain ⟨buf', hmove, hbytes⟩ := moveData_in data hc.pktBuf hn h0 hin
      refine ⟨withPktBuf s r c.pipeIndex buf', buf', ?_, ⟨withPktBuf_self, fun hout => ?_⟩, ?_⟩
      · rw [hmove, Call.moved, if_pos hin]
      · rw [hin] at hout
        cases hout
      · rw [hbytes, Call.landOne, if_pos hin]
    | false =>
      have hnot : ¬ c.ep.dirIn = true := by simp [hin]
      refine ⟨s, buf, ?_, hc, ?_⟩
      · have hdata : buf.1.take c.nbytes = bytes.take c.nbytes := hc.data hin bytes hb
        have htake := congrArg (List.take (min c.nbytes data.length)) hdata
        rw [List.take_take, List.take_take, Nat.min_eq_left (Nat.min_le_left ..)] at htake
        rw [moveData_out hc.pktBuf hn h0 hin, Call.moved, if_neg hnot, hb, Option.getD_some,
          List.length_take, htake]
      · rw [Call.landOne, if_neg hnot]

theorem Call.landed_cons (c : Call) (held data : List Byte) (rest : List (List Byte)) :
    c.landed held (data :: rest) = c.landed (c.landOne held data) rest := rfl

/-- Several submissions. -/
theorem moveEach_fits {buf : PktBuf} (hc : Copied s r c buf) (hn : c.nbytes ≤ PKT_BUF_SIZE)
    (moves : List (List Byte)) :
    ∃ s', moveEach s r c moves = .ok (s', (moves.map c.moved).flatten) ∧
      ∀ ret wire, ∃ buffer, exitXfer s' r c ret wire none = .ok ⟨ret, s', buffer, wire, none⟩ ∧
        (buffer.getD []).take c.nbytes = c.landed buf.1 moves := by
  induction moves generalizing s buf with
  | nil => exact ⟨s, rfl, exitXfer_fits hc hn⟩
  | cons data rest ih =>
    obtain ⟨s₁, buf₁, hmove, hc₁, hbuf₁⟩ := moveData_fits hc hn data
    obtain ⟨s', hrest, hexit⟩ := ih hc₁
    refine ⟨s', ?_, ?_⟩
    · rw [moveEach, hmove, ok_bind]
      dsimp only
      rw [hrest, ok_bind, List.map_cons, List.flatten_cons]
    · rw [Call.landed_cons, ← hbuf₁]
      exact hexit

/-- A packet buffer does not become shorter. -/
theorem Call.le_landOne (c : Call) (held data : List Byte) : held.length ≤ (c.landOne held data).length := by
  rw [Call.landOne]
  split
  · rw [List.length_append, List.length_drop]
    omega
  · exact Nat.le_refl _

/-- With a packet buffer the caller has as many bytes as were asked for. -/
theorem Call.length_landed (c : Call) {held : List Byte} (hheld : c.nbytes ≤ held.length)
    (moves : List (List Byte)) : (c.landed held moves).length = c.nbytes := by
  have hlen : c.nbytes ≤ (moves.foldl c.landOne held).length := by
    induction moves generalizing held with
    | nil => exact hheld
    | cons data rest ih => exact ih (hheld.trans (c.le_landOne held data))
  rw [Call.landed, List.length_take]
  split
  · exact Nat.min_eq_left hlen
  · cases hb : c.buffer with
    | none => simp [c.null hb]
    | some bytes => exact Nat.min_eq_left (c.room bytes hb)

/-- A submission's bytes are the first that the caller has of it. -/
theorem Call.landed_one (c : Call) {held : List Byte} (data : List Byte) :
    (c.landed held [data]).take (c.moved data).length = c.moved data := by
  have hle : (c.moved data).length ≤ c.nbytes := (c.length_moved data).trans_le (Nat.min_le_left ..)
  rw [Call.landed, List.take_take, Nat.min_eq_left hle, Call.moved]
  split
  · rw [List.foldl_cons, List.foldl_nil, Call.landOne, if_pos ‹_›, List.take_left]
  · rw [List.length_take, List.take_eq_take_iff]
    omega

/-- An interrupt transfer whose earlier submissions move nothing moves what was asked for with the
last. -/
theorem Call.landed_iff (c : Call) {held : List Byte} (hheld : c.nbytes ≤ held.length)
    {timedOut : List (List Byte)} (hnone : ∀ data ∈ timedOut, data = []) (data : List Byte) :
    c.landed held (timedOut ++ [data]) = ((timedOut ++ [data]).map c.moved).flatten ↔
      c.nbytes ≤ data.length := by
  induction timedOut with
  | nil =>
    rw [List.nil_append, List.map_singleton, List.flatten_singleton]
    have hlen := c.length_landed hheld [data]
    have hmoved := c.length_moved data
    constructor
    · intro h
      rw [h] at hlen
      omega
    · intro h
      have hone : (c.landed held [data]).take (c.moved data).length = c.moved data := c.landed_one data
      rwa [List.take_of_length_le (by omega)] at hone
  | cons first rest ih =>
    have hfirst : first = [] := hnone first (List.mem_cons_self ..)
    have hmoved : c.moved [] = [] :=
      List.eq_nil_of_length_eq_zero (by rw [c.length_moved, List.length_nil, Nat.min_zero])
    have hland : c.landOne held [] = held := by
      rw [Call.landOne, List.take_nil]
      split <;> rfl
    rw [hfirst, List.cons_append, Call.landed_cons, hland, List.map_cons, hmoved, List.flatten_cons,
      List.nil_append]
    exact ih fun d hd => hnone d (List.mem_cons_of_mem _ hd)

/-- A bulk transfer is counted as it was moved exactly where its descriptor is. -/
theorem BulkRun.counted_iff (x : BulkRun) (n : Nat) :
    x.Counted n ↔ ¬ x.NullQtd n ∧ x.xferLen n (min n x.data.length) = min n x.data.length := by
  rw [Counted, NullQtd, xferLen]
  rcases Nat.eq_zero_or_pos n with rfl | hpos
  · by_cases hc : x.hc.IsEhci
    · cases x.newQh <;> cases x.errors <;> simp [hc]
    · cases x.seen <;> simp [hc]
  · have hne : n ≠ 0 := Nat.ne_of_gt hpos
    have hnil : 0 = min n x.data.length ↔ x.data = [] := by
      rw [← List.length_eq_zero_iff]
      omega
    by_cases hc : x.hc.IsEhci
    · cases x.seen <;> cases x.errors <;> simp [hne, hc, hnil]
    · cases x.seen <;> simp [hne, hc, hnil]

/-- A bulk transfer that runs, as it is counted. -/
theorem bulkRun_fits {buf : PktBuf} (hc : Copied s r c buf) (hn : c.nbytes ≤ PKT_BUF_SIZE) (x : BulkRun) :
    (∃ y, (if x.NullQtd c.nbytes then .error .nullPointer
        else moveData s r c x.data >>= fun moved =>
          exitXfer moved.1 r c (x.xferLen c.nbytes moved.2.length) moved.2 none) = .ok y ∧
      (0 ≤ y.ret → (⟨y.ret.toNat, y.wire, y.buffer.getD []⟩ : Progress).Right)) ↔ x.Counted c.nbytes := by
  rw [x.counted_iff]
  by_cases hnull : x.NullQtd c.nbytes
  · simp only [hnull, if_true, not_true_eq_false, false_and, iff_false]
    rintro ⟨y, hy, -⟩
    cases hy
  · obtain ⟨s', buf', hmove, hc', hbuf'⟩ := moveData_fits hc hn x.data
    obtain ⟨buffer, hexit, htake⟩ :=
      exitXfer_fits hc' hn (x.xferLen c.nbytes (c.moved x.data).length) (c.moved x.data)
    simp only [hnull, if_false, not_false_eq_true, true_and, hmove, ok_bind, hexit,
      Except.ok.injEq, exists_eq_left', Int.natCast_nonneg, true_imp_iff, Int.toNat_natCast,
      Progress.Right, ← c.length_moved]
    refine and_iff_left_of_imp fun hcount => ?_
    rw [hcount]
    have hone : (c.landed buf.1 [x.data]).take (c.moved x.data).length = c.moved x.data := c.landed_one x.data
    have hle : (c.moved x.data).length ≤ c.nbytes :=
      (c.length_moved x.data).trans_le (Nat.min_le_left ..)
    rw [Call.landed_cons, ← hbuf', ← htake, List.take_take, Nat.min_eq_left hle] at hone
    exact hone

/-- The submissions of an interrupt transfer, as they land. -/
theorem intDone_fits {buf : PktBuf} (hc : Copied s r c buf) (hn : c.nbytes ≤ PKT_BUF_SIZE)
    (moves : List (List Byte)) :
    (∃ y, (moveEach s r c moves >>= fun moved => exitXfer moved.1 r c c.nbytes moved.2 none) = .ok y ∧
      (0 ≤ y.ret → (⟨y.ret.toNat, y.wire, y.buffer.getD []⟩ : Progress).Right)) ↔
      c.landed buf.1 moves = (moves.map c.moved).flatten := by
  obtain ⟨s', hmove, hexit⟩ := moveEach_fits hc hn moves
  obtain ⟨buffer, hexit, htake⟩ := hexit c.nbytes (moves.map c.moved).flatten
  have hlen := c.length_landed (hn.trans_eq buf.2.symm) moves
  simp only [hmove, ok_bind, hexit, Except.ok.injEq, exists_eq_left', Int.natCast_nonneg,
    true_imp_iff, Int.toNat_natCast, Progress.Right, htake]
  exact and_iff_right_of_imp fun h => by rw [← h, hlen]

/-- A transfer whose packet fits is right, unless a bulk transfer is miscounted or an interrupt transfer
moves less. -/
theorem utrXfer_fits {buf : PktBuf} (hc : Copied s r c buf) (hn : c.nbytes ≤ PKT_BUF_SIZE)
    (w : Answer) :
    (∃ x, utrXfer s r c w = .ok x ∧
      (0 ≤ x.ret → (⟨x.ret.toNat, x.wire, x.buffer.getD []⟩ : Progress).Right)) ↔
      (c.ep.bmAttributes = 0x02#8 → w.utr = true → ∀ x, w.bulk = .ran x → x.Counted c.nbytes) ∧
      (c.ep.bmAttributes = 0x03#8 → w.utr = true → ∀ timedOut data, w.int = .done timedOut data →
        c.landed buf.1 (timedOut ++ [data]) = ((timedOut ++ [data]).map c.moved).flatten) := by
  -- nothing was moved, and nothing or a failure is returned
  have hnothing : ∀ ret : Int, ret ≤ 0 → ∃ x, exitXfer s r c ret [] none = .ok x ∧
      (0 ≤ x.ret → (⟨x.ret.toNat, x.wire, x.buffer.getD []⟩ : Progress).Right) := by
    intro ret hret
    obtain ⟨buffer, hexit, -⟩ := exitXfer_fits hc hn ret []
    refine ⟨_, hexit, fun h => ⟨?_, ?_⟩⟩
    all_goals
      dsimp only at h ⊢
      rw [show ret.toNat = 0 by omega]
      rfl
  rw [utrXfer]
  by_cases hutr : w.utr = true
  · rw [if_neg (by simp [hutr])]
    simp only [hutr, true_imp_iff]
    by_cases hbulk : c.ep.bmAttributes = 0x02#8
    · have hint : c.ep.bmAttributes ≠ 0x03#8 := by
        rw [hbulk]
        decide
      simp only [hint, false_imp_iff, and_true]
      rw [if_pos hbulk, imp_iff_right hbulk]
      cases hw : w.bulk with
      | refused => exact iff_of_true (hnothing 0 (Int.le_refl 0)) (by simp)
      | ran x =>
        simp only [BulkAnswer.ran.injEq, forall_eq']
        exact bulkRun_fits hc hn x
    · rw [if_neg hbulk]
      simp only [hbulk, false_imp_iff, true_and]
      by_cases hattr : c.ep.bmAttributes = 0x03#8
      · rw [if_pos hattr]
        simp only [hattr, true_imp_iff]
        cases hw : w.int with
        | refused => exact iff_of_true (hnothing (-1) (by decide)) (by simp)
        | done timedOut data =>
          refine (intDone_fits hc hn (timedOut ++ [data])).trans ⟨?_, fun h => h timedOut data rfl⟩
          rintro h timedOut' data' heq
          cases heq
          exact h
      · rw [if_neg hattr]
        simp only [hattr, false_imp_iff, iff_true]
        split
        · exact hnothing (-1) (by decide)
        · exact hnothing 0 (Int.le_refl 0)
  · rw [if_pos hutr]
    exact iff_of_true (hnothing (-1) (by decide)) ⟨fun _ h => absurd h hutr, fun _ h => absurd h hutr⟩

/-- What a pipe's packet buffer holds. -/
theorem Opened.held (ho : Opened s c.inst c.pipeIndex ctrl r) {buf : PktBuf}
    (hbuf : (s r).asPipePktBuf c.pipeIndex = some buf) : c.held s = buf.1 := by
  rw [Call.held, ho.get, Option.bind_some, hbuf]

/-- A transfer on a pipe that is not endpoint zero's. -/
theorem pipe_right_iff (ho : Opened s c.inst c.pipeIndex ctrl r)
    (hattr : c.ep.bmAttributes ≠ 0x00#8) (w : Answer) :
    (Transfer.pipe c w).Right s ↔ (Transfer.pipe c w).Meets s := by
  rw [Transfer.Right, Transfer.Meets, nuPipeXfer_utr ho hattr]
  obtain ⟨buf, hbuf⟩ := Option.isSome_iff_exists.1 ho.pktBuf
  rcases Nat.lt_or_ge PKT_BUF_SIZE c.nbytes with hbig | hn
  · refine iff_of_false ?_ fun h => Nat.not_le.2 hbig h.1
    rintro ⟨x, hx, -⟩
    obtain ⟨bytes, hb⟩ := c.buffer_of_pos (Nat.ne_of_gt (Nat.zero_lt_of_lt hbig))
    cases hin : c.ep.dirIn with
    | true =>
      obtain ⟨halt, herror⟩ := utrXfer_overflow hbuf hb hbig hin w
      rw [copyIn_keeps (.inr hin), ok_bind, herror] at hx
      cases hx
    | false =>
      rw [copyIn_overflow hbuf hb hbig hin, error_bind] at hx
      cases hx
  · obtain ⟨s', buf', hcopy, hc⟩ := copyIn_fits ho hn
    -- the packet buffer is as it was if the call reads, and is not asked for if it writes
    have hheld : ∀ moves, c.landed buf'.1 moves = c.landed (c.held s) moves := by
      intro moves
      rw [ho.held hbuf]
      cases hin : c.ep.dirIn with
      | true =>
        have hsame : s = s' := Except.ok.inj ((copyIn_keeps (.inr hin)).symm.trans hcopy)
        have h := hc.pktBuf
        rw [← hsame, hbuf] at h
        rw [Option.some.inj h]
      | false => simp [Call.landed, hin]
    rw [hcopy, ok_bind, utrXfer_fits hc hn w]
    simp only [Call.Landed, hheld, hn, true_and]

end

/-! ## Control requests -/

section

variable {inst : Uinst} {ctrl : Nat} {r : PortRef} {mps : BitVec 8} {setup : Urequest}

@[simp] theorem nextCall_pipeIndex (ep : UendpointDescriptor) (p : Progress) :
    (nextCall inst ep p).pipeIndex = 0 := rfl

theorem ep0_packetSize (mps : BitVec 8) : (mps.setWidth 16).toNat = mps.toNat := by
  rw [BitVec.toNat_setWidth, Nat.mod_eq_of_lt]
  exact mps.isLt.trans (by decide)

theorem nextCall_in_nbytes (inst : Uinst) (mps : BitVec 8) (p : Progress) :
    (nextCall inst (ep0In mps) p).nbytes = min mps.toNat (p.buffer.length - p.count) := by
  rw [← List.length_drop, ← ep0_packetSize mps]
  rfl

theorem nextCall_out_nbytes (inst : Uinst) (mps : BitVec 8) (p : Progress) :
    (nextCall inst (ep0Out mps) p).nbytes = min mps.toNat (p.buffer.length - p.count) := by
  rw [← List.length_drop, ← ep0_packetSize mps]
  rfl

theorem mps_fits (mps : BitVec 8) (n : Nat) : min mps.toNat n ≤ PKT_BUF_SIZE :=
  (Nat.min_le_left ..).trans (mps.isLt.le.trans (by decide))

theorem nextCall_reads (inst : Uinst) (mps : BitVec 8) (p : Progress) :
    (nextCall inst (ep0In mps) p).ReadsEp0 (p.buffer.drop p.count) :=
  ⟨ep0In_dirIn mps, rfl, rfl⟩

/-- One call of the loop. -/
theorem hcdPipeXfer_succ {ep : UendpointDescriptor} {w : Nat → Answer} {fuel k : Nat} {s : Driver}
    {p : Progress} {x : Result} (h : nuPipeXfer s .DATA (nextCall inst ep p) (w k) = .ok x) :
    hcdPipeXfer inst ep w (fuel + 1) k s p =
      if x.ret = (nextCall inst ep p).nbytes then
        if p.count + (nextCall inst ep p).nbytes < p.buffer.length then
          hcdPipeXfer inst ep w fuel (k + 1) x.drv ⟨p.count + (nextCall inst ep p).nbytes,
            p.wire ++ x.wire, p.buffer.take p.count ++ x.buffer.getD []⟩
        else .ok ⟨p.count + (nextCall inst ep p).nbytes, p.wire ++ x.wire,
          p.buffer.take p.count ++ x.buffer.getD []⟩
      else .ok ⟨p.count, p.wire, p.buffer.take p.count ++ x.buffer.getD []⟩ := by
  simp only [hcdPipeXfer, h, ok_bind, Progress.next]

theorem hcdPipeXfer_error {ep : UendpointDescriptor} {w : Nat → Answer} {fuel k : Nat} {s : Driver}
    {p : Progress} {halt : Halt}
    (h : nuPipeXfer s .DATA (nextCall inst ep p) (w k) = .error halt) :
    hcdPipeXfer inst ep w (fuel + 1) k s p = .error halt := by
  simp only [hcdPipeXfer, h, error_bind]

/-- Data to the device stay in the packet buffer. -/
theorem dataOut_spec {s : Driver} {c : Call} (ho : Opened s c.inst c.pipeIndex ctrl r)
    (hout : c.ep.dirIn = false) (hattr : c.ep.bmAttributes = 0x00#8) (hn : c.nbytes ≤ PKT_BUF_SIZE)
    (w : Answer) :
    ∃ drv, nuPipeXfer s .DATA c w = .ok ⟨c.nbytes, drv, c.buffer, [], none⟩ ∧
      CtrlStep ctrl s drv := by
  have hxfer : ∀ drv, copyIn s r c = .ok drv →
      nuPipeXfer s .DATA c w = .ok ⟨c.nbytes, drv, c.buffer, [], none⟩ := by
    intro drv hcopy
    rw [nuPipeXfer_opened ho, hcopy]
    simp only [ok_bind, hattr, if_true, hout, Bool.false_eq_true, if_false]
    split
    · cases ‹Token.DATA = Token.SETUP›
    · rfl
    · rfl
  by_cases h0 : c.nbytes = 0
  · exact ⟨s, hxfer s (copyIn_keeps (.inl h0)), .refl⟩
  · obtain ⟨buf, hbuf⟩ := Option.isSome_iff_exists.1 ho.pktBuf
    obtain ⟨bytes, hb⟩ := c.buffer_of_pos h0
    obtain ⟨buf', hcopy, -⟩ := copyIn_out hbuf hb hn h0 hout
    exact ⟨_, hxfer _ hcopy, .withPktBuf ho.ctrl_eq c.pipeIndex buf'⟩

/-- The calls of a request to the device return its data without sending them. -/
theorem hcdPipeXfer_out (hmps : 0 < mps.toNat) (w : Nat → Answer) (fuel k : Nat) (s : Driver)
    (p : Progress) (ho : Opened s inst 0 ctrl r) (hle : p.count ≤ p.buffer.length)
    (hfuel : p.buffer.length - p.count < fuel) :
    hcdPipeXfer inst (ep0Out mps) w fuel k s p = .ok ⟨p.buffer.length, p.wire, p.buffer⟩ := by
  induction fuel generalizing k s p with
  | zero => exact absurd hfuel (Nat.not_lt_zero _)
  | succ fuel ih =>
    have hn := nextCall_out_nbytes inst mps p
    obtain ⟨drv, hx, hstep⟩ := dataOut_spec (c := nextCall inst (ep0Out mps) p) ho (ep0Out_dirIn mps)
      rfl (hn.trans_le (mps_fits mps _)) (w k)
    have hbuffer : (nextCall inst (ep0Out mps) p).buffer = some (p.buffer.drop p.count) := rfl
    rw [hcdPipeXfer_succ hx]
    simp only [if_true, hbuffer, Option.getD_some, List.take_append_drop, List.append_nil]
    split
    · exact ih _ _ _ (hstep.opened ho) (by dsimp only; omega) (by dsimp only; omega)
    · congr 2
      omega

theorem toNat_sub_ofNat {x : BitVec 32} {n : Nat} (h : n ≤ x.toNat) :
    (x - BitVec.ofNat 32 n).toNat = x.toNat - n := by
  have hlt : n < 2 ^ 32 := h.trans_lt x.isLt
  rw [BitVec.toNat_sub_of_le, BitVec.toNat_ofNat, Nat.mod_eq_of_lt hlt]
  rw [BitVec.le_def, BitVec.toNat_ofNat, Nat.mod_eq_of_lt hlt]
  exact h

/-- With no more data expected than the first call of the request brought, the later ones count
them. -/
theorem hcdPipeXfer_count (hmps : 0 < mps.toNat) (w : Nat → Answer) (fuel k : Nat) (s : Driver)
    (p : Progress) (ho : Opened s inst 0 ctrl r) (hlt : p.count < p.buffer.length)
    (hfuel : p.buffer.length - p.count < fuel)
    (hsent : p.buffer.length - p.count ≤ ((s (pending ctrl)).u32SentLength 0).toNat) :
    hcdPipeXfer inst (ep0In mps) w fuel k s p = .ok ⟨p.buffer.length, p.wire, p.buffer⟩ := by
  induction fuel generalizing k s p with
  | zero => exact absurd hfuel (Nat.not_lt_zero _)
  | succ fuel ih =>
    have hn := nextCall_in_nbytes inst mps p
    have hne : (s (pending ctrl)).u32SentLength 0 ≠ 0 := by
      intro h
      rw [h] at hsent
      exact absurd hsent (by simp; omega)
    obtain ⟨drv, after, hx, -, hstep, -, hnext⟩ :=
      dataNext_spec (c := nextCall inst (ep0In mps) p) ho (nextCall_reads inst mps p) hne (by omega)
        (hn.trans_le (mps_fits mps _)) (w k)
    have hle : (nextCall inst (ep0In mps) p).nbytes ≤
        ((s (pending ctrl)).u32SentLength 0).toNat := by omega
    obtain ⟨rfl, hsent'⟩ := hnext hle
    rw [nextCall_pipeIndex, if_pos hle] at hx
    rw [nextCall_pipeIndex] at hsent'
    rw [hcdPipeXfer_succ hx]
    simp only [if_true, Option.getD_some, List.take_append_drop, List.append_nil]
    split
    · refine ih _ _ _ (hstep.opened ho) (by assumption) (by dsimp only; omega) ?_
      dsimp only
      have hdrv := congrArg BitVec.toNat hsent'
      rw [toNat_sub_ofNat hle] at hdrv
      omega
    · congr 2
      omega

/-- A request from the device that starts returns the bytes moved. -/
theorem nuCtrlXfer_ret {d d' : PortDev} {w : CtrlAnswer} {ret : Int} {data : List Byte}
    (h : nuCtrlXfer d setup .packet w = (ret, d', data)) :
    data.length ≤ setup.wLength.toNat ∧ (0 < ret → ret = data.length) := by
  cases w with
  | failed code bytes =>
    rw [nuCtrlXfer, Prod.mk.injEq, Prod.mk.injEq] at h
    obtain ⟨rfl, -, rfl⟩ := h
    exact ⟨List.length_take_le .., fun hpos => by omega⟩
  | done hc bytes =>
    rw [nuCtrlXfer_packet, Prod.mk.injEq, Prod.mk.injEq] at h
    obtain ⟨rfl, -, rfl⟩ := h
    exact ⟨List.length_take_le .., fun _ => rfl⟩

/-- Once the first call of the request brought less than was asked for, the bytes returned and those
on the wire do not agree again: `e` is what the calls that started a request returned. -/
theorem hcdPipeXfer_short (w : Nat → Answer) (fuel k : Nat) (s : Driver)
    (p : Progress) (e : Nat) (ho : Opened s inst 0 ctrl r) (hmps : 0 < mps.toNat)
    (hlt : p.count < p.buffer.length) (hfuel : p.buffer.length - p.count < fuel)
    (hfirst : min mps.toNat p.buffer.length ≤ e)
    (hcount : p.count + ((s (pending ctrl)).u32SentLength 0).toNat = p.wire.length + e)
    (hsent : ((s (pending ctrl)).u32SentLength 0).toNat < p.buffer.length - p.count + e) {p' : Progress}
    (h : hcdPipeXfer inst (ep0In mps) w fuel k s p = .ok p') : p'.count ≠ p'.wire.length := by
  induction fuel generalizing k s p e with
  | zero => exact absurd hfuel (Nat.not_lt_zero _)
  | succ fuel ih =>
    have hn := nextCall_in_nbytes inst mps p
    have hfits : (nextCall inst (ep0In mps) p).nbytes ≤ PKT_BUF_SIZE := hn.trans_le (mps_fits mps _)
    have hreads := nextCall_reads inst mps p
    have hpos : 0 < (nextCall inst (ep0In mps) p).nbytes := by omega
    by_cases hzero : (s (pending ctrl)).u32SentLength 0 = 0
    · have hzero' : ((s (pending ctrl)).u32SentLength 0).toNat = 0 := by
        rw [hzero]
        rfl
      rw [hzero'] at hcount hsent
      obtain ⟨ret, d, data, hreq⟩ : ∃ ret d data,
          nuCtrlXfer (s r) ((s (pending ctrl)).asSetupReq 0) .packet (w k).ctrl = (ret, d, data) :=
        ⟨_, _, _, rfl⟩
      obtain ⟨hlength, hret⟩ := nuCtrlXfer_ret hreq
      by_cases hover : PKT_BUF_SIZE < data.length ∨
          0 < ret ∧ (p.buffer.drop p.count).length < data.length
      · obtain ⟨halt, hx⟩ := dataFirst_overflow ho hreads hzero hpos (w k) hreq hover
        rw [hcdPipeXfer_error hx] at h
        cases h
      · obtain ⟨hbuf, hroom⟩ := not_or.1 hover
        have hroom : 0 < ret → data.length ≤ (p.buffer.drop p.count).length :=
          fun hpos => Nat.not_lt.1 fun h => hroom ⟨hpos, h⟩
        obtain ⟨drv, after, hx, hafter, -, hstep, -, hdrv⟩ :=
          dataFirst_spec ho hreads hzero hpos hfits (w k) hreq (Nat.not_lt.1 hbuf) hroom
        rw [hcdPipeXfer_succ hx] at h
        by_cases hstart : 0 < ret
        · have hroom := hroom hstart
          rw [List.length_drop] at hroom hafter
          simp only [if_pos hstart, if_true, Option.getD_some] at h
          have hdrv : ((drv (pending ctrl)).u32SentLength 0).toNat = data.length := by
            have h : (drv (pending ctrl)).u32SentLength 0 = _ := hdrv
            rw [h, hret hstart, BitVec.ofInt_natCast, BitVec.toNat_ofNat, Nat.mod_eq_of_lt]
            have := (s (pending ctrl)).asSetupReq 0 |>.wLength.isLt
            omega
          have hlen : (p.buffer.take p.count ++ after).length = p.buffer.length := by
            rw [List.length_append, List.length_take, hafter]
            omega
          split at h
          · refine ih _ _ _ (e + (nextCall inst (ep0In mps) p).nbytes) (hstep.opened ho) ?_ ?_ ?_ ?_ ?_ h
            all_goals
              dsimp only
              simp only [hlen, hdrv, List.length_append]
              omega
          · cases h
            simp only [List.length_append]
            omega
        · rw [if_neg hstart, if_neg (by dsimp only; omega)] at h
          cases h
          dsimp only
          omega
    · obtain ⟨drv, after, hx, hafter, hstep, -, hnext⟩ :=
        dataNext_spec (c := nextCall inst (ep0In mps) p) ho hreads hzero hpos hfits (w k)
      rw [nextCall_pipeIndex] at hx hnext
      rw [hcdPipeXfer_succ hx] at h
      by_cases hle : (nextCall inst (ep0In mps) p).nbytes ≤
          ((s (pending ctrl)).u32SentLength 0).toNat
      · obtain ⟨rfl, hsent'⟩ := hnext hle
        have hdrv := congrArg BitVec.toNat hsent'
        rw [toNat_sub_ofNat hle] at hdrv
        simp only [if_pos hle, if_true, Option.getD_some, List.take_append_drop, List.append_nil] at h
        split at h
        · refine ih _ _ _ e (hstep.opened ho) ?_ ?_ ?_ ?_ ?_ h
          all_goals
            dsimp only
            omega
        · cases h
          dsimp only
          omega
      · rw [if_neg hle, if_neg (by dsimp only; omega)] at h
        cases h
        dsimp only
        omega

/-- A request without data from the device. -/
theorem dataFirst_none {s : Driver} {c : Call} {bytes : List Byte}
    (ho : Opened s c.inst c.pipeIndex ctrl r) (hc : c.ReadsEp0 bytes) (h0 : c.nbytes = 0)
    (hsent : (s (pending ctrl)).u32SentLength c.pipeIndex = 0)
    (hreq : ((s (pending ctrl)).asSetupReq c.pipeIndex).wLength = 0) (w : Answer) :
    ∃ x, nuPipeXfer s .DATA c w = .ok x ∧ x.ret = -1 := by
  obtain ⟨ret, d, data, hxfer⟩ : ∃ ret d data,
      nuCtrlXfer (s r) ((s (pending ctrl)).asSetupReq c.pipeIndex) .packet w.ctrl = (ret, d, data) :=
    ⟨_, _, _, rfl⟩
  obtain ⟨hlength, hret⟩ := nuCtrlXfer_ret hxfer
  have hstart : ¬ 0 < ret := by
    intro h
    rw [hreq] at hlength
    have := hret h
    simp at hlength
    simp [hlength] at this
    omega
  rw [nuPipeXfer_data ho hc]
  simp only [dataXfer, hsent, if_true, hxfer, h0, ok_bind, hstart, if_false]
  rw [exitXfer_keeps (.inl h0)]
  exact ⟨_, rfl, rfl⟩

/-- The driver after the SETUP packet of a request from the device. -/
structure SetupKept (s : Driver) (inst : Uinst) (ctrl : Nat) (r : PortRef) (setup : Urequest) : Prop where
  opened : Opened s inst 0 ctrl r
  req : (s (pending ctrl)).asSetupReq 0 = setup
  sent : (s (pending ctrl)).u32SentLength 0 = 0

/-- A first call that starts nothing. -/
theorem hcdPipeXfer_failed {s : Driver} {w : Nat → Answer} {buffer : List Byte} {fuel : Nat} {x : Result}
    (hx : nuPipeXfer s .DATA (nextCall inst (ep0In mps) ⟨0, [], buffer⟩) (w 1) = .ok x)
    (hret : x.ret = -1) :
    ∃ p, hcdPipeXfer inst (ep0In mps) w (fuel + 1) 1 s ⟨0, [], buffer⟩ = .ok p ∧ p.Right := by
  rw [hcdPipeXfer_succ hx, hret, if_neg (by omega)]
  exact ⟨_, rfl, rfl, rfl⟩

/-- A first call that brings data: the request is right when it brings all of them. -/
theorem hcdPipeXfer_started {s : Driver} (hk : SetupKept s inst ctrl r setup) (hmps : 0 < mps.toNat)
    {buffer data : List Byte} (hlen : buffer.length = setup.wLength.toNat) {w : Nat → Answer}
    {hc : HcDriver} (hw : (w 1).ctrl = .done hc data) (hpos : 0 < (data.take buffer.length).length)
    (hfits : (data.take buffer.length).length ≤ PKT_BUF_SIZE) :
    (∃ p, hcdPipeXfer inst (ep0In mps) w (buffer.length + 1) 1 s ⟨0, [], buffer⟩ = .ok p ∧ p.Right) ↔
      buffer.length ≤ data.length := by
  have hn : (nextCall inst (ep0In mps) ⟨0, [], buffer⟩).nbytes = min mps.toNat buffer.length :=
    nextCall_in_nbytes inst mps ⟨0, [], buffer⟩
  have hreads := nextCall_reads inst mps ⟨0, [], buffer⟩
  have hmoved : (data.take buffer.length).length = min buffer.length data.length := List.length_take
  have hreq : nuCtrlXfer (s r) ((s (pending ctrl)).asSetupReq 0) .packet (w 1).ctrl =
      (((data.take buffer.length).length : Int), requestDone (s r) setup,
        data.take buffer.length) := by
    rw [hk.req, hw, nuCtrlXfer_packet, hlen]
  obtain ⟨drv, after, hx, -, hdata, hstep, -, hdrv⟩ := dataFirst_spec
    (c := nextCall inst (ep0In mps) ⟨0, [], buffer⟩) hk.opened hreads hk.sent (by omega)
    (hn.trans_le (mps_fits mps _)) (w 1) hreq hfits fun _ => by
      change (data.take buffer.length).length ≤ (buffer.drop 0).length
      rw [List.drop_zero]
      omega
  have hret : (0 : Int) < (data.take buffer.length).length := by omega
  have hafter : after = data.take buffer.length ++ buffer.drop (data.take buffer.length).length :=
    hdata hret
  have hlength : after.length = buffer.length := by
    rw [hafter, List.length_append, List.length_drop]
    omega
  have hsent : ((drv (pending ctrl)).u32SentLength 0).toNat = (data.take buffer.length).length := by
    rw [nextCall_pipeIndex] at hdrv
    rw [hdrv, BitVec.ofInt_natCast, BitVec.toNat_ofNat, Nat.mod_eq_of_lt]
    have := setup.wLength.isLt
    omega
  rw [if_pos hret] at hx
  rw [hcdPipeXfer_succ hx]
  simp only [if_true, List.take_zero, List.nil_append, Option.getD_some, Nat.zero_add]
  generalize (nextCall inst (ep0In mps) ⟨0, [], buffer⟩).nbytes = n at hn ⊢
  generalize data.take buffer.length = moved at *
  by_cases hall : buffer.length ≤ data.length
  · have hwhole : after = moved := by
      rw [hafter, List.drop_eq_nil_of_le (by omega), List.append_nil]
    refine iff_of_true ?_ hall
    split
    · rw [hcdPipeXfer_count hmps w _ _ _ _ (hstep.opened hk.opened) (by dsimp only; omega)
        (by dsimp only; omega) (by dsimp only; omega)]
      refine ⟨_, rfl, by dsimp only; omega, ?_⟩
      dsimp only
      rw [List.take_length, hwhole]
    · refine ⟨_, rfl, by dsimp only; omega, ?_⟩
      dsimp only
      rw [List.take_of_length_le (by omega), hwhole]
  · refine iff_of_false ?_ hall
    rintro ⟨p, hp, hright⟩
    refine absurd hright.1 ?_
    split at hp
    · refine hcdPipeXfer_short w _ _ _ ⟨n, moved, after⟩ n (hstep.opened hk.opened) hmps ?_ ?_ ?_ ?_ ?_ hp
      all_goals
        dsimp only
        omega
    · cases hp
      dsimp only
      omega

/-- A request from the device. -/
theorem control_right_iff_in {s : Driver} (ho : Opened s inst 0 ctrl r) (hmps : 0 < mps.toNat)
    {buffer : List Byte} (hlen : buffer.length = setup.wLength.toNat) (hin : setup.dirIn = true)
    (w : Nat → Answer) :
    (Transfer.control inst mps setup buffer w).Right s ↔
      (Transfer.control inst mps setup buffer w).Meets s := by
  obtain ⟨s1, hsetup, hstep, hreq, hsent⟩ := setupIn_spec mps ho hin (w 0)
  have hk : SetupKept s1 inst ctrl r setup := ⟨hstep.opened ho, hreq, hsent⟩
  have hn : (nextCall inst (ep0In mps) ⟨0, [], buffer⟩).nbytes = min mps.toNat buffer.length :=
    nextCall_in_nbytes inst mps ⟨0, [], buffer⟩
  have hfits : (nextCall inst (ep0In mps) ⟨0, [], buffer⟩).nbytes ≤ PKT_BUF_SIZE :=
    hn.trans_le (mps_fits mps _)
  have hreads := nextCall_reads inst mps ⟨0, [], buffer⟩
  have hrequest : controlRequest s inst mps setup buffer w =
      hcdPipeXfer inst (ep0In mps) w (buffer.length + 1) 1 s1 ⟨0, [], buffer⟩ := by
    rw [controlRequest, hsetup, ok_bind, dataPipe, if_pos hin]
    rfl
  simp only [Transfer.Right, Transfer.Meets, hin, if_true, hrequest]
  rcases Nat.eq_zero_or_pos buffer.length with h0 | hpos
  · obtain ⟨x, hx, hret⟩ := dataFirst_none (c := nextCall inst (ep0In mps) ⟨0, [], buffer⟩) hk.opened
      hreads (by omega) hsent
      (by rw [nextCall_pipeIndex, hreq]; exact BitVec.eq_of_toNat_eq (hlen.symm.trans h0)) (w 1)
    refine iff_of_true (hcdPipeXfer_failed hx hret) ?_
    have hzero : setup.wLength.toNat = 0 := hlen.symm.trans h0
    cases (w 1).ctrl with
    | failed code data =>
      rw [CtrlAnswer.Whole, hzero]
      exact Nat.zero_le _
    | done hc data =>
      rw [CtrlAnswer.Whole, hzero]
      exact .inl rfl
  obtain ⟨ret, d, data, hxfer⟩ : ∃ ret d data,
      nuCtrlXfer (s1 r) ((s1 (pending ctrl)).asSetupReq 0) .packet (w 1).ctrl = (ret, d, data) :=
    ⟨_, _, _, rfl⟩
  obtain ⟨hlength, -⟩ := nuCtrlXfer_ret hxfer
  have hover : PKT_BUF_SIZE < data.length →
      ¬ ∃ p, hcdPipeXfer inst (ep0In mps) w (buffer.length + 1) 1 s1 ⟨0, [], buffer⟩ = .ok p ∧
        p.Right := by
    rintro hbig ⟨p, h, -⟩
    obtain ⟨halt, hx⟩ := dataFirst_overflow hk.opened hreads hsent (by omega) (w 1) hxfer (.inl hbig)
    rw [hcdPipeXfer_error hx] at h
    cases h
  have hnone : data.length ≤ PKT_BUF_SIZE → ¬ 0 < ret →
      ∃ p, hcdPipeXfer inst (ep0In mps) w (buffer.length + 1) 1 s1 ⟨0, [], buffer⟩ = .ok p ∧
        p.Right := by
    intro hbuf hret
    obtain ⟨drv, after, hx, -⟩ :=
      dataFirst_spec hk.opened hreads hsent (by omega) hfits (w 1) hxfer hbuf fun h => absurd h hret
    exact hcdPipeXfer_failed hx (if_neg hret)
  rw [hreq] at hxfer
  cases hw : (w 1).ctrl with
  | failed code bytes =>
    rw [hw, nuCtrlXfer, Prod.mk.injEq, Prod.mk.injEq] at hxfer
    obtain ⟨rfl, -, rfl⟩ := hxfer
    rw [CtrlAnswer.Whole]
    by_cases hbig : (bytes.take setup.wLength.toNat).length ≤ PKT_BUF_SIZE
    · exact iff_of_true (hnone hbig (by omega)) hbig
    · exact iff_of_false (hover (Nat.not_le.1 hbig)) hbig
  | done hc bytes =>
    rw [hw, nuCtrlXfer_packet, Prod.mk.injEq, Prod.mk.injEq] at hxfer
    obtain ⟨rfl, -, rfl⟩ := hxfer
    rw [CtrlAnswer.Whole]
    have hmoved : (bytes.take setup.wLength.toNat).length = min setup.wLength.toNat bytes.length :=
      List.length_take
    by_cases hbig : (bytes.take setup.wLength.toNat).length ≤ PKT_BUF_SIZE
    · by_cases hnil : bytes.take setup.wLength.toNat = []
      · refine iff_of_true (hnone hbig ?_) (.inl hnil)
        rw [hnil]
        exact Int.lt_irrefl 0
      · have hmpos := List.length_pos_of_ne_nil hnil
        rw [hcdPipeXfer_started hk hmps hlen hw (by rwa [hlen]) (by rwa [hlen]), hlen]
        refine ⟨fun h => .inr ⟨h, by omega⟩, fun h => ?_⟩
        rcases h with h | h
        · exact absurd h hnil
        · exact h.1
    · refine iff_of_false (hover (Nat.not_le.1 hbig)) fun h => ?_
      rcases h with h | h
      · rw [h] at hbig
        exact hbig (Nat.zero_le _)
      · omega

/-- A request to the device. -/
theorem control_right_iff_out {s : Driver} (ho : Opened s inst 0 ctrl r) (hmps : 0 < mps.toNat)
    {buffer : List Byte} (hlen : buffer.length = setup.wLength.toNat) (hout : setup.dirIn = false)
    (w : Nat → Answer) :
    (Transfer.control inst mps setup buffer w).Right s ↔
      (Transfer.control inst mps setup buffer w).Meets s := by
  obtain ⟨s1, d, hsetup, hstep, -⟩ := setupOut_spec mps ho hout (w 0)
  simp only [Transfer.Right, Transfer.Meets, hout, Bool.false_eq_true, if_false, controlRequest, hsetup,
    ok_bind, dataPipe]
  have hfailed : ∃ p, (Except.ok ⟨0, [], buffer⟩ : Except Halt Progress) = .ok p ∧ p.Right :=
    ⟨_, rfl, rfl, rfl⟩
  cases (w 0).ctrl with
  | failed code data =>
    have hret : ¬ (-(code + 1 : Nat) : Int) = setup.wLength.toNat := by omega
    simp only [nuCtrlXfer, hret, if_false]
    rw [if_neg (by decide)]
    exact iff_of_true hfailed trivial
  | done hc data =>
    have hsent : ∀ wire : List Byte, (∃ p, hcdPipeXfer inst (ep0Out mps) w (buffer.length + 1) 1 s1
        ⟨0, wire, buffer⟩ = .ok p ∧ p.Right) ↔ wire = buffer := by
      intro wire
      rw [hcdPipeXfer_out hmps w (buffer.length + 1) 1 s1 ⟨0, wire, buffer⟩ (hstep.opened ho)
        (Nat.zero_le _) (Nat.lt_succ_self _)]
      simp only [Except.ok.injEq, exists_eq_left', Progress.Right, List.take_length]
      refine ⟨fun h => h.2.symm, fun h => ⟨?_, h.symm⟩⟩
      rw [h]
    rw [CtrlAnswer.Sends]
    by_cases hcounted : setup.wLength ≠ 0 ∧ ¬ hc.IsEhci
    · -- no byte is sent, and one counted
      have hone : ((1 : Int) = setup.wLength.toNat) ↔ setup.wLength = 1 := by
        rw [← BitVec.toNat_inj]
        change _ ↔ setup.wLength.toNat = 1
        omega
      simp only [nuCtrlXfer, hcounted, ne_eq, not_false_eq_true, and_self, if_true, hone, if_false]
      by_cases h1 : setup.wLength = 1
      · simp only [h1, if_true, hsent, not_true_eq_false, iff_false]
        rintro rfl
        rw [h1] at hlen
        exact absurd hlen (by decide)
      · simp only [h1, if_false, not_false_eq_true, iff_true]
        rw [if_neg (by decide)]
        exact hfailed
    · have hret : ((data.take setup.wLength.toNat).length : Int) = setup.wLength.toNat ↔
          setup.wLength.toNat ≤ data.length := by
        rw [List.length_take]
        omega
      have hgoal : (if hc.IsEhci then setup.wLength.toNat ≤ data.length → data.take setup.wLength.toNat = buffer
          else setup.wLength ≠ 1) ↔
          (setup.wLength.toNat ≤ data.length → data.take setup.wLength.toNat = buffer) := by
        by_cases hehci : hc.IsEhci
        · rw [if_pos hehci]
        · have h0 : setup.wLength = 0 := by
            by_contra h
            exact hcounted ⟨h, hehci⟩
          have hnil : buffer = [] := List.eq_nil_of_length_eq_zero (by rw [hlen, h0]; rfl)
          rw [if_neg hehci, h0, hnil]
          exact iff_of_true (by decide) fun _ => rfl
      rw [hgoal]
      simp only [nuCtrlXfer, hcounted, and_false, if_false, hret]
      by_cases hall : setup.wLength.toNat ≤ data.length
      · simp only [hall, if_true, true_imp_iff]
        exact hsent _
      · simp only [hall, if_false, false_imp_iff, iff_true]
        rw [if_neg (by decide)]
        exact hfailed

end

/-- A driver with one device on the first root port, its pipes open. -/
def oneDevice : Driver := fun r =>
  { Driver.init r with
    pUDev := some (newUDev (.onRootHub 0 0 .HIGH) (some .EHCI0))
    asPipePktBuf := fun _ => some default }

theorem oneDevice_opened (i : Nat) :
    Opened oneDevice (.onRootHub 0 0 .HIGH) i 0 ⟨0, .sRHPortDev⟩ :=
  ⟨rfl, rfl, rfl, rfl⟩

/-- An interrupt call for eight bytes. -/
def interruptCall : Call where
  inst := .onRootHub 0 0 .HIGH
  ep := ⟨0x81, 0x03, 8, 4⟩
  pipeIndex := 1
  buffer := some (List.replicate 8 0)
  nbytes := 8
  room := by
    rintro bytes ⟨⟩
    exact Nat.le_refl 8
  null := nofun

/-- An answer with data for an interrupt transfer. -/
def interruptAnswer (data : List Byte) : Answer := ⟨true, .failed 0 [], .refused, .done [] data⟩

end NumakerMA35D1.UsbHost

import NumakerMA35D1.I2c.DrvI2c

/-!
# Transfers end to end

The steps of a transfer are the start condition and, message by message, a repeated start, the address and
the bytes. `scan` does them up to the first that fails. `i2cTransfer_iff`: the driver does the same, and
returns the number of messages exactly when none fails, if and only if the first step that fails is a repeated
start between messages or the address of a message without `RT_I2C_IGNORE_NACK` (or there is none), and the
stop condition releases the bus. After a byte that fails, and after a failed start, it does not.

Reference: `drv_i2c.c:250 nu_i2c_mst_xfer`.
-/

namespace NumakerMA35D1.I2c

/-! ## The steps of a transfer -/

/-- A step of a transfer: the operation, the statuses with which it succeeds, the place of the byte that it
receives, and whether the driver ends the transfer when it fails. -/
structure Step where
  op : Xfer → Op
  good : BitVec 32 → Bool
  place : Option (Nat × Nat)
  clean : Bool

/-- A step that succeeds, with the byte in the data register. -/
def Step.perform (st : Step) (s : Xfer) (data : BitVec 8) : Xfer :=
  match st.place with
  | none => s.did (st.op s)
  | some (i, cnt) => (s.did (st.op s)).store i cnt data

/-- Steps one after another, up to the first that fails; that one is given too. -/
def scan (resp : Nat → Response) : List Step → Xfer → Option Step × Xfer
  | [], s => (none, s)
  | st :: steps, s =>
    match s.answer resp with
    | none => (some st, s.did (st.op s))
    | some (status, data) =>
      if st.good status then scan resp steps (st.perform s data) else (some st, s.did (st.op s))

/-- A condition on the bus, or a byte of an address, that has a status for its acknowledge and may have one
for the lack of it, which is good where it is ignored. -/
def expectStep (op : Op) (status : BitVec 32) (nack : Option (BitVec 32)) (ignoreNack clean : Bool) : Step where
  op _ := op
  good st := st = status || ignoreNack && nack = some st
  place := none
  clean := clean

namespace RtI2cMsg

variable (msg : RtI2cMsg)

/-- The steps of a message's address. -/
def addressSteps : List Step :=
  let transmit := fun byte => expectStep (.address byte) MASTER_STATUS_TRANSMIT_ADDRESS_ACK
    (some MASTER_STATUS_TRANSMIT_ADDRESS_NACK) msg.ignoreNack (!msg.ignoreNack)
  let receive := fun byte => expectStep (.address byte) MASTER_STATUS_RECEIVE_ADDRESS_ACK
    (some MASTER_STATUS_RECEIVE_ADDRESS_NACK) msg.ignoreNack (!msg.ignoreNack)
  let restart := expectStep .restart MASTER_STATUS_REPEAT_START none msg.ignoreNack (!msg.ignoreNack)
  if msg.addr10bit then
    if msg.rd then [transmit msg.addr1, transmit msg.addr2, restart, receive (msg.addr1 ||| 1#8)]
    else [transmit msg.addr1, transmit msg.addr2]
  else if msg.rd then [receive msg.addr1] else [transmit msg.addr1]

/-- Byte `cnt` of message `i`, received: it is acknowledged unless it is the last one of the last message. -/
def receiveStep (i : Nat) (isLast : Bool) (cnt : Nat) : Step :=
  let ack := !(isLast && cnt == msg.len.toNat - 1)
  { op := fun _ => .receive ack
    good := fun st =>
      st = if ack then MASTER_STATUS_RECEIVE_DATA_ACK else MASTER_STATUS_RECEIVE_DATA_NACK
    place := some (i, cnt)
    clean := false }

/-- Byte `cnt` of message `i`, sent. -/
def sendStep (i cnt : Nat) : Step where
  op s := .send (s.buf i cnt)
  good st := st = MASTER_STATUS_TRANSMIT_DATA_ACK ||
    msg.ignoreNack && st = MASTER_STATUS_TRANSMIT_DATA_NACK
  place := none
  clean := false

/-- The steps of the bytes `cnts` of message `i`. -/
def dataSteps (i : Nat) (isLast : Bool) (cnts : List Nat) : List Step :=
  if msg.rd then cnts.map (msg.receiveStep i isLast) else cnts.map (msg.sendStep i)

/-- The steps of message `i`: a repeated start unless it is the first, the address, the bytes; the bytes alone
for a message without a start. -/
def steps (i : Nat) (isLast : Bool) : List Step :=
  (if msg.noStart then []
    else (if i = 0 then [] else [expectStep .restart MASTER_STATUS_REPEAT_START none false true]) ++
      msg.addressSteps) ++ msg.dataSteps i isLast (List.range msg.len.toNat)

end RtI2cMsg

/-- The steps of the messages `left`, the first of them with number `i` of `num`. -/
def messageSteps (num : Nat) : List RtI2cMsg → Nat → List Step
  | [], _ => []
  | msg :: left, i => msg.steps i (i == num - 1) ++ messageSteps num left (i + 1)

/-- The steps of a transfer. -/
def transferSteps (msgs : List RtI2cMsg) : List Step :=
  expectStep .start MASTER_STATUS_START none false false :: messageSteps msgs.length msgs 0

/-! ## Specification -/

/-- The transfer returns; it returns the number of messages exactly when every step succeeds, and never more;
it does the steps up to the first that fails, and after it nothing but the stop condition; that releases the
bus; and a complete transfer has stored the bytes received. -/
def TransferRight (resp : Nat → Response) (s : Xfer) (msgs : List RtI2cMsg) : Prop :=
  ∃ rounds ret s', s.nuI2cMstXfer resp msgs rounds = some (ret, s') ∧
    (ret = msgs.length ↔ (scan resp (transferSteps msgs) s).1 = none) ∧ ret ≤ msgs.length ∧
    s'.trace = (scan resp (transferSteps msgs) s).2.trace ++ [.stop] ∧
    (∃ data, (scan resp (transferSteps msgs) s).2.answer resp = some (MASTER_STATUS_BUS_RELEASED, data)) ∧
    ((scan resp (transferSteps msgs) s).1 = none → s'.buf = (scan resp (transferSteps msgs) s).2.buf)

/-- The first step that fails, if one does, is one after which the driver ends the transfer, and the stop
condition after it releases the bus. -/
def FailsClean (resp : Nat → Response) (s : Xfer) (msgs : List RtI2cMsg) : Prop :=
  (∀ st, (scan resp (transferSteps msgs) s).1 = some st → st.clean = true) ∧
    ∃ data, (scan resp (transferSteps msgs) s).2.answer resp = some (MASTER_STATUS_BUS_RELEASED, data)

/-! ## Steps one after another -/

variable {resp : Nat → Response} {s s' : Xfer} {st : Step}

/-- The number of operations so far. -/
abbrev Xfer.ops (s : Xfer) : Nat := s.trace.length

theorem Xfer.ops_did (s : Xfer) (op : Op) : (s.did op).ops = s.ops + 1 :=
  List.length_append

theorem Step.ops_perform (st : Step) (s : Xfer) (data : BitVec 8) : (st.perform s data).ops = s.ops + 1 := by
  rw [Step.perform]
  split
  · exact s.ops_did _
  · exact s.ops_did _

theorem scan_ops_le (resp : Nat → Response) (steps : List Step) (s : Xfer) : s.ops ≤ (scan resp steps s).2.ops := by
  induction steps generalizing s with
  | nil => exact Nat.le_refl _
  | cons st steps ih =>
    rw [scan]
    split
    · rw [Xfer.ops_did]
      exact Nat.le_succ _
    · split
      · refine Nat.le_trans ?_ (ih _)
        rw [st.ops_perform]
        exact Nat.le_succ _
      · rw [Xfer.ops_did]
        exact Nat.le_succ _

/-- A step that fails has been tried. -/
theorem scan_ops_lt {steps : List Step} (h : (scan resp steps s).1 = some st) :
    s.ops < (scan resp steps s).2.ops := by
  cases steps with
  | nil => cases h
  | cons st' steps =>
    rw [scan] at h ⊢
    split
    · rw [Xfer.ops_did]
      exact Nat.lt_succ_self _
    · split
      · refine Nat.lt_of_lt_of_le ?_ (scan_ops_le _ _ _)
        rw [st'.ops_perform]
        exact Nat.lt_succ_self _
      · rw [Xfer.ops_did]
        exact Nat.lt_succ_self _

/-- A step that fails is one of the steps. -/
theorem scan_mem {steps : List Step} (h : (scan resp steps s).1 = some st) : st ∈ steps := by
  induction steps generalizing s with
  | nil => cases h
  | cons st' steps ih =>
    rw [scan] at h
    split at h
    · exact Option.some.inj h ▸ List.mem_cons_self
    · split at h
      · exact List.mem_cons_of_mem _ (ih h)
      · exact Option.some.inj h ▸ List.mem_cons_self

theorem scan_append (steps steps' : List Step) (s : Xfer) :
    scan resp (steps ++ steps') s =
      if (scan resp steps s).1 = none then scan resp steps' (scan resp steps s).2 else scan resp steps s := by
  induction steps generalizing s with
  | nil => rfl
  | cons st steps ih =>
    rw [List.cons_append, scan, scan]
    split
    · rfl
    · split
      · exact ih _
      · rfl

/-! ## The parts of the driver -/

/-- A part of the driver follows steps: it does them when they all succeed; otherwise it gets at least as far
as the one that fails, and where nothing is ignored it ends there and says so. -/
def Follows (resp : Nat → Response) (ignoreNack : Bool) (steps : List Step) (part : Xfer → Bool × Xfer) : Prop :=
  ∀ s, ((scan resp steps s).1 = none → part s = (true, (scan resp steps s).2)) ∧
    ((scan resp steps s).1 ≠ none → (scan resp steps s).2.ops ≤ (part s).2.ops ∧
      (ignoreNack = false → part s = (false, (scan resp steps s).2)))

/-- A part that follows steps never goes back. -/
theorem Follows.ops_le {ignoreNack : Bool} {steps : List Step} {part : Xfer → Bool × Xfer}
    (h : Follows resp ignoreNack steps part) (s : Xfer) : s.ops ≤ (part s).2.ops := by
  refine Nat.le_trans (scan_ops_le resp steps s) ?_
  by_cases hnone : (scan resp steps s).1 = none
  · exact Nat.le_of_eq (by rw [(h s).1 hnone])
  · exact ((h s).2 hnone).1

/-- Nothing more to do. -/
theorem Follows.nil (ignoreNack : Bool) : Follows resp ignoreNack [] fun s => (true, s) :=
  fun _ => ⟨fun _ => rfl, fun h => absurd rfl h⟩

section
variable {op : Op} {status : BitVec 32} {nack : Option (BitVec 32)} {ignoreNack clean : Bool}

/-- An operation that its status makes a success. -/
theorem expect_good {x : BitVec 32} {data : BitVec 8} (h : s.answer resp = some (x, data))
    (hgood : (expectStep op status nack ignoreNack clean).good x = true) :
    s.expect resp op status ignoreNack = (true, s.did op) := by
  have hok : (decide (x = status) || ignoreNack) = true := by
    rw [Bool.or_eq_true]
    rcases (Bool.or_eq_true_iff).1 hgood with hst | hign
    · exact .inl hst
    · exact .inr ((Bool.and_eq_true_iff).1 hign).1
  rw [Xfer.expect, h]
  exact congrArg (·, s.did op) hok

/-- An operation that its status makes a failure. -/
theorem expect_bad {x : BitVec 32} {data : BitVec 8} (h : s.answer resp = some (x, data))
    (hbad : ¬ (expectStep op status nack ignoreNack clean).good x = true) :
    s.expect resp op status ignoreNack = (ignoreNack, s.did op) := by
  have hst : decide (x = status) = false := by
    rw [Bool.eq_false_iff]
    exact fun hst => hbad ((Bool.or_eq_true_iff).2 (.inl hst))
  rw [Xfer.expect, h]
  dsimp only
  rw [hst, Bool.false_or]

/-- One more step before the others. -/
theorem Follows.expect {steps : List Step} {part : Xfer → Bool × Xfer}
    (h : Follows resp ignoreNack steps part) :
    Follows resp ignoreNack (expectStep op status nack ignoreNack clean :: steps) fun s =>
      if !(s.expect resp op status ignoreNack).1 then (false, (s.expect resp op status ignoreNack).2)
      else part (s.expect resp op status ignoreNack).2 := by
  intro s
  rw [scan]
  dsimp only
  cases hans : s.answer resp with
  | none =>
    rw [Xfer.expect, hans]
    exact ⟨fun hnone => (by cases hnone), fun _ => ⟨Nat.le_refl _, fun _ => rfl⟩⟩
  | some answer =>
    dsimp only
    by_cases hgood : (expectStep op status nack ignoreNack clean).good answer.1 = true
    · rw [if_pos hgood, expect_good hans hgood]
      exact h (s.did op)
    · rw [if_neg hgood, expect_bad hans hgood]
      refine ⟨fun hnone => (by cases hnone), fun _ => ?_⟩
      cases ignoreNack with
      | false => exact ⟨Nat.le_refl _, fun _ => rfl⟩
      | true => exact ⟨h.ops_le (s.did op), fun hfalse => (by cases hfalse)⟩

/-- One step alone. -/
theorem Follows.expect_last : Follows resp ignoreNack [expectStep op status nack ignoreNack clean] fun s =>
    s.expect resp op status ignoreNack := by
  intro s
  have h : Follows resp ignoreNack [expectStep op status nack ignoreNack clean] _ :=
    (Follows.nil ignoreNack).expect
  have heq : (if !(s.expect resp op status ignoreNack).1 then (false, (s.expect resp op status ignoreNack).2)
      else (true, (s.expect resp op status ignoreNack).2)) = s.expect resp op status ignoreNack := by
    cases s.expect resp op status ignoreNack with
    | mk ok s' => cases ok <;> rfl
  have hs := h s
  rw [heq] at hs
  exact hs

end

/-- The driver's address follows the steps of the message's. -/
theorem follows_sendAddress (resp : Nat → Response) (msg : RtI2cMsg) :
    Follows resp msg.ignoreNack msg.addressSteps fun s => s.nuI2cSendAddress resp msg := by
  intro s
  dsimp only
  rw [RtI2cMsg.addressSteps, Xfer.nuI2cSendAddress]
  dsimp only
  by_cases h10 : msg.addr10bit = true
  · rw [if_pos h10, if_pos h10]
    by_cases hrd : msg.rd = true
    · rw [if_pos hrd]
      simp only [hrd, if_true]
      exact Follows.expect (Follows.expect (Follows.expect Follows.expect_last)) s
    · rw [if_neg hrd]
      simp only [hrd]
      exact Follows.expect (Follows.expect (Follows.nil _)) s
  · rw [if_neg h10, if_neg h10]
    by_cases hrd : msg.rd = true
    · rw [if_pos hrd, if_pos hrd]
      exact Follows.expect_last s
    · rw [if_neg hrd, if_neg hrd]
      exact Follows.expect_last s

/-- A loop over bytes follows steps: it finishes when they all succeed, and gets at least as far as one that
fails. -/
def LoopFollows (resp : Nat → Response) (steps : List Step) (loop : Xfer → Xfer.Ends × Xfer) : Prop :=
  ∀ s, ((scan resp steps s).1 = none → loop s = (.finished, (scan resp steps s).2)) ∧
    ((scan resp steps s).1 ≠ none → (scan resp steps s).2.ops ≤ (loop s).2.ops)

theorem LoopFollows.ops_le {steps : List Step} {loop : Xfer → Xfer.Ends × Xfer}
    (h : LoopFollows resp steps loop) (s : Xfer) : s.ops ≤ (loop s).2.ops := by
  refine Nat.le_trans (scan_ops_le resp steps s) ?_
  by_cases hnone : (scan resp steps s).1 = none
  · exact Nat.le_of_eq (by rw [(h s).1 hnone])
  · exact (h s).2 hnone

/-- The driver's loop that receives. -/
theorem follows_receiveBytes (i : Nat) (isLast : Bool) (msg : RtI2cMsg) (cnts : List Nat) :
    LoopFollows resp (cnts.map (msg.receiveStep i isLast)) (Xfer.receiveBytes resp i isLast msg cnts) := by
  induction cnts with
  | nil => exact fun s => ⟨fun _ => rfl, fun h => absurd rfl h⟩
  | cons cnt cnts ih =>
    intro s
    rw [List.map_cons, scan, Xfer.receiveBytes]
    cases hans : s.answer resp with
    | none => exact ⟨fun hnone => (by cases hnone), fun _ => Nat.le_refl _⟩
    | some answer =>
      dsimp only
      by_cases hgood : (msg.receiveStep i isLast cnt).good answer.1 = true
      · have hst := of_decide_eq_true hgood
        rw [if_pos hgood, if_pos hst]
        exact ih ((msg.receiveStep i isLast cnt).perform s answer.2)
      · have hst := fun h => hgood (decide_eq_true h)
        rw [if_neg hgood, if_neg hst]
        exact ⟨fun hnone => (by cases hnone), fun _ => Nat.le_refl _⟩

/-- The driver's loop that sends. -/
theorem follows_sendBytes (i : Nat) (msg : RtI2cMsg) (cnts : List Nat) :
    LoopFollows resp (cnts.map (msg.sendStep i)) (Xfer.sendBytes resp i msg cnts) := by
  induction cnts with
  | nil => exact fun s => ⟨fun _ => rfl, fun h => absurd rfl h⟩
  | cons cnt cnts ih =>
    intro s
    rw [List.map_cons, scan, Xfer.sendBytes]
    cases hans : s.answer resp with
    | none => exact ⟨fun hnone => (by cases hnone), fun _ => Nat.le_refl _⟩
    | some answer =>
      dsimp only
      by_cases hgood : (msg.sendStep i cnt).good answer.1 = true
      · have hst : answer.1 = MASTER_STATUS_TRANSMIT_DATA_ACK ∨ msg.ignoreNack = true := by
          rcases (Bool.or_eq_true_iff).1 hgood with hst | hign
          · exact .inl (of_decide_eq_true hst)
          · exact .inr ((Bool.and_eq_true_iff).1 hign).1
        rw [if_pos hgood, if_pos hst]
        exact ih (s.did (.send (s.buf i cnt)))
      · rw [if_neg hgood]
        refine ⟨fun hnone => (by cases hnone), fun _ => ?_⟩
        split
        · exact ih.ops_le (s.did (.send (s.buf i cnt)))
        · exact Nat.le_refl _

/-- A turn follows steps: it goes on to the next message when they all succeed; after one that fails clean it
ends the transfer there, with an index below the number of messages; after another one that fails it goes on,
and has got at least as far. -/
def TurnFollows (resp : Nat → Response) (num i : Nat) (steps : List Step) (turn : Xfer → Xfer.Turn) : Prop :=
  ∀ s, ((scan resp steps s).1 = none → turn s = ⟨false, i + 1, (scan resp steps s).2⟩) ∧
    ∀ st, (scan resp steps s).1 = some st →
      if st.clean then (turn s).leaves = true ∧ (turn s).i < num ∧ (turn s).xfer = (scan resp steps s).2
      else (turn s).leaves = false ∧ (turn s).i ≤ num ∧ (scan resp steps s).2.ops ≤ (turn s).xfer.ops

/-- The bytes of a message fail without an end to the transfer. -/
theorem dataSteps_clean {msg : RtI2cMsg} {i : Nat} {isLast : Bool} {cnts : List Nat}
    (h : (scan resp (msg.dataSteps i isLast cnts) s).1 = some st) : st.clean = false := by
  have hall : ∀ st ∈ msg.dataSteps i isLast cnts, st.clean = false := by
    intro st hst
    rw [RtI2cMsg.dataSteps] at hst
    split at hst
    · obtain ⟨cnt, -, rfl⟩ := List.mem_map.1 hst
      rfl
    · obtain ⟨cnt, -, rfl⟩ := List.mem_map.1 hst
      rfl
  exact hall st (scan_mem h)

section
variable {msgs : List RtI2cMsg} {msg : RtI2cMsg} {i : Nat}

/-- The bytes of a message. -/
theorem follows_dataTurn (resp : Nat → Response) (msg : RtI2cMsg) (hi : i < msgs.length) :
    TurnFollows resp msgs.length i (msg.dataSteps i (i == msgs.length - 1) (List.range msg.len.toNat))
      fun s => s.dataTurn resp msgs i msg := by
  intro s
  have hloop : LoopFollows resp (msg.dataSteps i (i == msgs.length - 1) (List.range msg.len.toNat)) fun s =>
      if msg.rd then Xfer.receiveBytes resp i (i == msgs.length - 1) msg (List.range msg.len.toNat) s
      else Xfer.sendBytes resp i msg (List.range msg.len.toNat) s := by
    intro s
    rw [RtI2cMsg.dataSteps]
    by_cases hrd : msg.rd = true
    · simp only [hrd, if_true]
      exact follows_receiveBytes i _ msg _ s
    · simp only [hrd]
      exact follows_sendBytes i msg _ s
  obtain ⟨hgood, hbad⟩ := hloop s
  dsimp only at hgood hbad ⊢
  rw [Xfer.dataTurn]
  dsimp only
  refine ⟨fun hnone => ?_, fun st hst => ?_⟩
  · rw [hgood hnone]
  · rw [dataSteps_clean hst, if_neg Bool.false_ne_true]
    have hops := hbad (by rw [hst]; exact Option.some_ne_none st)
    split
    · exact ⟨rfl, hi, hops⟩
    · exact ⟨rfl, hi, hops⟩
    · exact ⟨rfl, Nat.lt_of_le_of_lt (Nat.zero_le i) hi, hops⟩

/-- An address fails clean unless its message ignores the lack of an acknowledge. -/
theorem addressSteps_clean (h : (scan resp msg.addressSteps s).1 = some st) : st.clean = !msg.ignoreNack := by
  have hall : ∀ st ∈ msg.addressSteps, st.clean = !msg.ignoreNack := by
    intro st hst
    rw [RtI2cMsg.addressSteps] at hst
    dsimp only at hst
    split at hst
    · split at hst
      · simp only [List.mem_cons, List.not_mem_nil, or_false] at hst
        rcases hst with rfl | rfl | rfl | rfl <;> rfl
      · simp only [List.mem_cons, List.not_mem_nil, or_false] at hst
        rcases hst with rfl | rfl <;> rfl
    · split at hst
      · obtain rfl := List.mem_singleton.1 hst
        rfl
      · obtain rfl := List.mem_singleton.1 hst
        rfl
  exact hall st (scan_mem h)

/-- A turn that follows steps never goes back. -/
theorem TurnFollows.ops_le {steps : List Step} {num : Nat} {turn : Xfer → Xfer.Turn}
    (h : TurnFollows resp num i steps turn) (s : Xfer) : s.ops ≤ (turn s).xfer.ops := by
  refine Nat.le_trans (scan_ops_le resp steps s) ?_
  cases hscan : (scan resp steps s).1 with
  | none =>
    exact Nat.le_of_eq (by rw [(h s).1 hscan])
  | some st =>
    have hbad := (h s).2 st hscan
    split at hbad
    · exact Nat.le_of_eq (by rw [hbad.2.2])
    · exact hbad.2.2

/-- The bytes of a message never end the transfer. -/
theorem dataTurn_goes (resp : Nat → Response) (msg : RtI2cMsg) (hi : i < msgs.length) (s : Xfer) : (s.dataTurn resp msgs i msg).leaves = false ∧
    (s.dataTurn resp msgs i msg).i ≤ msgs.length ∧ s.ops ≤ (s.dataTurn resp msgs i msg).xfer.ops := by
  have hdata := follows_dataTurn resp msg hi
  have hops := hdata.ops_le s
  obtain ⟨hgood, hbad⟩ := hdata s
  dsimp only at hops hgood hbad
  cases hscan : (scan resp (msg.dataSteps i (i == msgs.length - 1) (List.range msg.len.toNat)) s).1 with
  | none =>
    rw [hgood hscan] at hops ⊢
    exact ⟨rfl, hi, hops⟩
  | some st =>
    have hst := hbad st hscan
    rw [dataSteps_clean hscan, if_neg Bool.false_ne_true] at hst
    exact ⟨hst.1, hst.2.1, hops⟩

/-- The address of a message and its bytes. -/
theorem follows_addressTurn (hi : i < msgs.length) : TurnFollows resp msgs.length i
    (msg.addressSteps ++ msg.dataSteps i (i == msgs.length - 1) (List.range msg.len.toNat))
    fun s => s.addressTurn resp msgs i msg := by
  intro s
  obtain ⟨hgood, hbad⟩ := follows_sendAddress resp msg s
  have hdata := follows_dataTurn resp msg hi
  rw [scan_append]
  dsimp only at hgood hbad ⊢
  rw [Xfer.addressTurn]
  dsimp only
  cases hscan : (scan resp msg.addressSteps s).1 with
  | none =>
    rw [if_pos rfl, hgood hscan]
    exact hdata (scan resp msg.addressSteps s).2
  | some st =>
    rw [if_neg (Option.some_ne_none st)]
    refine ⟨fun hnone => absurd (hscan.symm.trans hnone) (Option.some_ne_none st), fun st' hst' => ?_⟩
    obtain ⟨hops, hends⟩ := hbad (by rw [hscan]; exact Option.some_ne_none st)
    rw [addressSteps_clean hst']
    cases hign : msg.ignoreNack with
    | false =>
      rw [hends hign]
      exact ⟨rfl, Nat.lt_of_le_of_lt (Nat.zero_le i) hi, rfl⟩
    | true =>
      have hcond : ¬ (!(s.nuI2cSendAddress resp msg).1 && !true) = true := by
        rw [Bool.not_true, Bool.and_false]
        exact Bool.false_ne_true
      rw [if_neg hcond, Bool.not_true, if_neg Bool.false_ne_true]
      obtain ⟨hleaves, hle, hmore⟩ :=
        dataTurn_goes resp msg hi (s.nuI2cSendAddress resp msg).2
      exact ⟨hleaves, hle, Nat.le_trans hops hmore⟩

/-- A turn follows the steps of its message. -/
theorem follows_turn (resp : Nat → Response) (msg : RtI2cMsg) (hi : i < msgs.length) :
    TurnFollows resp msgs.length i (msg.steps i (i == msgs.length - 1)) fun s => s.turn resp msgs i msg := by
  intro s
  rw [RtI2cMsg.steps]
  dsimp only
  rw [Xfer.turn]
  by_cases hno : msg.noStart = true
  · rw [if_pos hno, if_pos hno, List.nil_append]
    exact follows_dataTurn resp msg hi s
  · rw [if_neg hno, if_neg hno]
    by_cases hzero : i = 0
    · rw [if_pos hzero, if_pos hzero, List.nil_append]
      exact follows_addressTurn hi s
    · rw [if_neg hzero, if_neg hzero, List.singleton_append, List.cons_append, scan]
      cases hans : s.answer resp with
      | none =>
        refine ⟨fun hnone => (by cases hnone), fun st hst => ?_⟩
        rw [← Option.some.inj hst]
        exact ⟨rfl, hi, rfl⟩
      | some answer =>
        dsimp only
        by_cases hst : answer.1 = MASTER_STATUS_REPEAT_START
        · rw [if_pos hst, if_pos (by rw [hst]; decide)]
          exact follows_addressTurn hi (s.did .restart)
        · have hbad : ¬ (expectStep .restart MASTER_STATUS_REPEAT_START none false true).good answer.1 = true := by
            rw [expectStep]
            dsimp only
            rw [Bool.false_and, Bool.or_false, decide_eq_true_eq]
            exact hst
          rw [if_neg hst, if_neg hbad]
          refine ⟨fun hnone => (by cases hnone), fun st hst => ?_⟩
          rw [← Option.some.inj hst]
          exact ⟨rfl, Nat.lt_of_le_of_lt (Nat.zero_le i) hi, rfl⟩

/-! ## The loop over the messages -/

/-- A turn gets no further than the number of messages, and does an operation before it ends the transfer. -/
theorem TurnFollows.goes {steps : List Step} {num : Nat} {turn : Xfer → Xfer.Turn}
    (h : TurnFollows resp num i steps turn) (hi : i < num) (s : Xfer) : (turn s).i ≤ num ∧
      ((turn s).leaves = true ∧ s.ops < (turn s).xfer.ops ∨
        (turn s).leaves = false ∧ s.ops ≤ (turn s).xfer.ops) := by
  have hops := h.ops_le s
  cases hscan : (scan resp steps s).1 with
  | none =>
    rw [(h s).1 hscan] at hops ⊢
    exact ⟨hi, .inr ⟨rfl, hops⟩⟩
  | some st =>
    have hbad := (h s).2 st hscan
    split at hbad
    · obtain ⟨hleaves, hlt, hxfer⟩ := hbad
      refine ⟨Nat.le_of_lt hlt, .inl ⟨hleaves, ?_⟩⟩
      rw [hxfer]
      exact scan_ops_lt hscan
    · exact ⟨hbad.2.1, .inr ⟨hbad.1, hops⟩⟩

/-- A round of the loop. -/
theorem messageLoop_succ (hmsg : msgs[i]? = some msg) (rounds : Nat) (s : Xfer) :
    Xfer.messageLoop resp msgs (rounds + 1) i s =
      if (s.turn resp msgs i msg).leaves then
        some ((s.turn resp msgs i msg).i, (s.turn resp msgs i msg).xfer)
      else Xfer.messageLoop resp msgs rounds (s.turn resp msgs i msg).i (s.turn resp msgs i msg).xfer := by
  rw [Xfer.messageLoop, hmsg]

/-- The loop does an operation, or gets to the end of the messages without one. -/
theorem messageLoop_goes {r : Nat × Xfer} (rounds : Nat) (hi : i ≤ msgs.length)
    (h : Xfer.messageLoop resp msgs rounds i s = some r) :
    s.ops < r.2.ops ∨ s.ops ≤ r.2.ops ∧ r.1 = msgs.length := by
  induction rounds generalizing i s with
  | zero => cases h
  | succ rounds ih =>
    cases hmsg : msgs[i]? with
    | none =>
      rw [Xfer.messageLoop, hmsg] at h
      obtain rfl := Option.some.inj h
      exact .inr ⟨Nat.le_refl _, Nat.le_antisymm hi (List.getElem?_eq_none_iff.1 hmsg)⟩
    | some msg =>
      have hlt : i < msgs.length := (List.getElem?_eq_some_iff.1 hmsg).1
      rw [messageLoop_succ hmsg] at h
      obtain ⟨hle, ⟨hleaves, hops⟩ | ⟨hleaves, hops⟩⟩ := (follows_turn resp msg hlt).goes hlt s
      · rw [if_pos hleaves] at h
        obtain rfl := Option.some.inj h
        exact .inl hops
      · rw [if_neg (by rw [hleaves]; exact Bool.false_ne_true)] at h
        rcases ih hle h with hmore | ⟨hsame, hret⟩
        · exact .inl (Nat.lt_of_le_of_lt hops hmore)
        · exact .inr ⟨Nat.le_trans hops hsame, hret⟩

/-- The loop follows the steps of the messages `left`: it returns the number of messages when they all
succeed, and fewer after one that fails clean; after another one that fails it does more operations, or
returns the number of messages all the same. -/
theorem follows_messageLoop (resp : Nat → Response) (left : List RtI2cMsg) (hleft : msgs.drop i = left) (hi : i ≤ msgs.length)
    (s : Xfer) :
    ((scan resp (messageSteps msgs.length left i) s).1 = none → ∃ rounds,
      Xfer.messageLoop resp msgs rounds i s =
        some (msgs.length, (scan resp (messageSteps msgs.length left i) s).2)) ∧
    ∀ st, (scan resp (messageSteps msgs.length left i) s).1 = some st →
      if st.clean then ∃ rounds j, j < msgs.length ∧ Xfer.messageLoop resp msgs rounds i s =
        some (j, (scan resp (messageSteps msgs.length left i) s).2)
      else ∀ rounds r, Xfer.messageLoop resp msgs rounds i s = some r →
        (scan resp (messageSteps msgs.length left i) s).2.ops < r.2.ops ∨
          (scan resp (messageSteps msgs.length left i) s).2.ops ≤ r.2.ops ∧ r.1 = msgs.length := by
  induction left generalizing i s with
  | nil =>
    have hend : i = msgs.length := Nat.le_antisymm hi (List.drop_eq_nil_iff.1 hleft)
    refine ⟨fun _ => ⟨1, ?_⟩, fun st hst => (by cases hst)⟩
    rw [Xfer.messageLoop, List.getElem?_eq_none_iff.2 (Nat.le_of_eq hend.symm)]
    exact congrArg (fun n => some (n, s)) hend
  | cons msg left ih =>
    have hlt : i < msgs.length := by
      rw [← Nat.not_le]
      intro hle
      rw [List.drop_eq_nil_iff.2 hle] at hleft
      cases hleft
    have hmsg : msgs[i]? = some msg := by
      rw [← List.head?_drop, hleft, List.head?_cons]
    have hnext : msgs.drop (i + 1) = left := by
      rw [← List.tail_drop, hleft, List.tail_cons]
    obtain ⟨hgood, hbad⟩ := follows_turn resp msg hlt s
    dsimp only at hgood hbad
    rw [messageSteps, scan_append]
    cases hscan : (scan resp (msg.steps i (i == msgs.length - 1)) s).1 with
    | none =>
      have hround : ∀ rounds, Xfer.messageLoop resp msgs (rounds + 1) i s = Xfer.messageLoop resp msgs rounds
          (i + 1) (scan resp (msg.steps i (i == msgs.length - 1)) s).2 := by
        intro rounds
        rw [messageLoop_succ hmsg, hgood hscan]
        exact if_neg Bool.false_ne_true
      obtain ⟨hall, hfail⟩ := ih hnext hlt (scan resp (msg.steps i (i == msgs.length - 1)) s).2
      rw [if_pos rfl]
      refine ⟨fun hnone => ?_, fun st hst => ?_⟩
      · obtain ⟨rounds, hrounds⟩ := hall hnone
        exact ⟨rounds + 1, (hround rounds).trans hrounds⟩
      · have hst := hfail st hst
        split at hst
        · next hclean =>
          obtain ⟨rounds, j, hj, hrounds⟩ := hst
          rw [if_pos hclean]
          exact ⟨rounds + 1, j, hj, (hround rounds).trans hrounds⟩
        · next hclean =>
          rw [if_neg hclean]
          intro rounds r hr
          cases rounds with
          | zero => cases hr
          | succ rounds => exact hst rounds r ((hround rounds).symm.trans hr)
    | some st =>
      rw [if_neg (Option.some_ne_none st)]
      refine ⟨fun hnone => absurd (hscan.symm.trans hnone) (Option.some_ne_none st), fun st' hst' => ?_⟩
      have hst := hbad st' hst'
      split at hst
      · next hclean =>
        obtain ⟨hleaves, hless, hxfer⟩ := hst
        rw [if_pos hclean]
        refine ⟨1, _, hless, ?_⟩
        rw [messageLoop_succ hmsg, if_pos hleaves, hxfer]
      · next hclean =>
        obtain ⟨hleaves, hle, hops⟩ := hst
        rw [if_neg hclean]
        intro rounds r hr
        cases rounds with
        | zero => cases hr
        | succ rounds =>
          rw [messageLoop_succ hmsg, if_neg (by rw [hleaves]; exact Bool.false_ne_true)] at hr
          rcases messageLoop_goes rounds hle hr with hmore | ⟨hsame, hret⟩
          · exact .inl (Nat.lt_of_le_of_lt hops hmore)
          · exact .inr ⟨Nat.le_trans hops hsame, hret⟩

end

/-! ## The transfer -/

/-- A stop condition that has released the bus. -/
theorem i2cStop_eq_some {i ret : Nat} (h : s.i2cStop resp i = some (ret, s')) :
    ret = i ∧ s' = s.did .stop ∧ ∃ data, s.answer resp = some (MASTER_STATUS_BUS_RELEASED, data) := by
  rw [Xfer.i2cStop] at h
  split at h
  · cases h
  · next st data hans =>
    split at h
    · next hst =>
      obtain ⟨rfl, rfl⟩ := Prod.mk.inj (Option.some.inj h)
      exact ⟨rfl, rfl, data, hst ▸ hans⟩
    · cases h

/-- A stop condition that releases the bus. -/
theorem i2cStop_released {data : BitVec 8} (i : Nat)
    (h : s.answer resp = some (MASTER_STATUS_BUS_RELEASED, data)) :
    s.i2cStop resp i = some (i, s.did .stop) := by
  rw [Xfer.i2cStop, h]
  exact if_pos rfl

/-- A start condition that fails: the driver returns at once, without the stop condition. -/
theorem transfer_start_bad (resp : Nat → Response) (s : Xfer) (msgs : List RtI2cMsg)
    (hbad : ∀ x, s.answer resp = some x → x.1 ≠ MASTER_STATUS_START) :
    scan resp (transferSteps msgs) s = (some (expectStep .start MASTER_STATUS_START none false false),
      s.did .start) ∧ ∀ rounds, s.nuI2cMstXfer resp msgs rounds = some (0, s.did .start) := by
  rw [transferSteps, scan]
  refine ⟨?_, fun rounds => ?_⟩
  · cases hans : s.answer resp with
    | none => rfl
    | some x =>
      have hgood : ¬ (expectStep .start MASTER_STATUS_START none false false).good x.1 = true := by
        rw [expectStep]
        dsimp only
        rw [Bool.false_and, Bool.or_false, decide_eq_true_eq]
        exact hbad x hans
      exact if_neg hgood
  · rw [Xfer.nuI2cMstXfer]
    cases hans : s.answer resp with
    | none => rfl
    | some x => exact if_neg (hbad x hans)

/-- A start condition that succeeds: the messages and the stop condition. -/
theorem transfer_start_good (msgs : List RtI2cMsg) {data : BitVec 8}
    (hans : s.answer resp = some (MASTER_STATUS_START, data)) :
    scan resp (transferSteps msgs) s = scan resp (messageSteps msgs.length msgs 0) (s.did .start) ∧
      ∀ rounds, s.nuI2cMstXfer resp msgs rounds =
        (Xfer.messageLoop resp msgs rounds 0 (s.did .start)).bind fun r => r.2.i2cStop resp r.1 := by
  rw [transferSteps, scan, hans]
  refine ⟨rfl, fun rounds => ?_⟩
  rw [Xfer.nuI2cMstXfer, hans]
  exact if_pos rfl

/-- The transfer is right exactly when its first failed step is one after which the driver ends it. -/
theorem i2cTransfer_iff (resp : Nat → Response) (s : Xfer) (msgs : List RtI2cMsg) :
    TransferRight resp s msgs ↔ FailsClean resp s msgs := by
  rw [TransferRight, FailsClean]
  by_cases hstart : ∃ data, s.answer resp = some (MASTER_STATUS_START, data)
  · obtain ⟨data, hans⟩ := hstart
    obtain ⟨hscan, hxfer⟩ := transfer_start_good msgs hans
    obtain ⟨hgood, hbad⟩ :=
      follows_messageLoop resp msgs List.drop_zero (Nat.zero_le _) (s.did .start)
    rw [hscan]
    constructor
    · rintro ⟨rounds, ret, s', hret, hnum, -, htrace, hreleased, -⟩
      refine ⟨fun st hst => ?_, hreleased⟩
      rw [hxfer, Option.bind_eq_some_iff] at hret
      obtain ⟨r, hloop, hstop⟩ := hret
      obtain ⟨rfl, rfl, -⟩ := i2cStop_eq_some hstop
      have hsame := congrArg List.length (List.append_cancel_right htrace)
      have hfail := hbad st hst
      split at hfail
      · assumption
      · rcases hfail rounds r hloop with hmore | ⟨-, hall⟩
        · exact absurd hsame (Nat.ne_of_gt hmore)
        · exact absurd (hst.symm.trans (hnum.1 hall)) (Option.some_ne_none st)
    · rintro ⟨hclean, data', hreleased⟩
      cases hfirst : (scan resp (messageSteps msgs.length msgs 0) (s.did .start)).1 with
      | none =>
        obtain ⟨rounds, hloop⟩ := hgood hfirst
        have hret := hxfer rounds
        rw [hloop, Option.bind_some, i2cStop_released _ hreleased] at hret
        exact ⟨rounds, msgs.length, _, hret, ⟨fun _ => rfl, fun _ => rfl⟩, Nat.le_refl _, rfl,
          ⟨data', hreleased⟩, fun _ => rfl⟩
      | some st =>
        have hfail := hbad st hfirst
        rw [if_pos (hclean st hfirst)] at hfail
        obtain ⟨rounds, j, hj, hloop⟩ := hfail
        have hret := hxfer rounds
        rw [hloop, Option.bind_some, i2cStop_released _ hreleased] at hret
        exact ⟨rounds, j, _, hret, ⟨fun heq => absurd heq (Nat.ne_of_lt hj), fun hnone => (by cases hnone)⟩,
          Nat.le_of_lt hj, rfl, ⟨data', hreleased⟩, fun _ => rfl⟩
  · obtain ⟨hscan, hxfer⟩ := transfer_start_bad resp s msgs fun x hx hst =>
      hstart ⟨x.2, by rw [hx, ← hst]⟩
    rw [hscan]
    constructor
    · rintro ⟨rounds, ret, s', hret, -, -, htrace, -, -⟩
      rw [hxfer] at hret
      obtain ⟨rfl, rfl⟩ := Prod.mk.inj (Option.some.inj hret)
      have hlen := congrArg List.length htrace
      rw [List.length_append, List.length_singleton] at hlen
      exact absurd hlen (Nat.ne_of_lt (Nat.lt_succ_self _))
    · rintro ⟨hclean, -⟩
      exact absurd (hclean _ rfl) Bool.false_ne_true

/-- A byte is sent to a device that acknowledges its address and not the byte: the transfer is reported
complete. -/
theorem not_i2cTransferRight : ¬ TransferRight
    (fun n => [some (MASTER_STATUS_START, 0), some (MASTER_STATUS_TRANSMIT_ADDRESS_ACK, 0),
      some (MASTER_STATUS_TRANSMIT_DATA_NACK, 0), some (MASTER_STATUS_BUS_RELEASED, 0)].getD n none)
    ⟨[], fun _ _ => 0⟩ [⟨0x50#16, 0#16, 1#16⟩] := by
  rintro ⟨rounds, ret, s', hret, hnum, -⟩
  have hfail : ¬ ret = 1 := by
    intro hall
    exact absurd (congrArg Option.isNone (hnum.1 hall)) (by decide)
  cases rounds with
  | zero => cases hret
  | succ rounds =>
    cases rounds with
    | zero => cases hret
    | succ rounds => exact hfail (Prod.mk.inj (Option.some.inj hret)).1.symm

end NumakerMA35D1.I2c

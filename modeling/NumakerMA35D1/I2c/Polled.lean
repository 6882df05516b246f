import Mathlib.Algebra.Group.Nat.Defs
import NumakerMA35D1.I2c.NuI2c

/-!
# Polled transfers end to end

`polled_iff`: a read of several bytes ends, stores no more than the bytes asked for, issues one stop condition
and returns the number of bytes received, if and only if at least two bytes are asked for, or the bus breaks
the transfer off before one byte more than asked for has come in; a write ends and returns the number of bytes
acknowledged if and only if the address is not acknowledged or every byte is.

Reference: `nu_i2c.c`.
-/

namespace NumakerMA35D1.I2c

/-! ## Specification -/

/-- A call of one of the four functions. -/
inductive PollCall
  | write (slaveAddr : BitVec 8) (data : BitVec 32 → BitVec 8) (wLen : BitVec 32)
  | read (slaveAddr : BitVec 8) (rLen : BitVec 32)
  | readOneReg (slaveAddr dataAddr : BitVec 8) (rLen : BitVec 32)
  | readTwoRegs (slaveAddr : BitVec 8) (dataAddr : BitVec 16) (rLen : BitVec 32)

namespace Poll

/-- The stop conditions issued. -/
def stops (p : Poll) : Nat := p.ctrls.countP fun ctrl => ctrl.getLsbD 4

/-- The bytes received. -/
def received (p : Poll) : Nat :=
  p.seen.countP fun st => st = MASTER_STATUS_RECEIVE_DATA_ACK ∨ st = MASTER_STATUS_RECEIVE_DATA_NACK

/-- The bytes sent that are acknowledged. -/
def acknowledged (p : Poll) : Nat := p.seen.countP fun st => st = MASTER_STATUS_TRANSMIT_DATA_ACK

/-- A read of `rLen` bytes is right at its end: it has stored no more bytes than that, at places below it; it
has issued one stop condition; it returns the number of bytes received. -/
def ReadRight (rLen : BitVec 32) (p : Poll) : Prop :=
  p.stores.length ≤ rLen.toNat ∧ (∀ x ∈ p.stores, x.1 < rLen) ∧ p.stops = 1 ∧ p.count.toNat = p.received

/-- A write is right at its end: it returns the number of bytes acknowledged. -/
def WriteRight (p : Poll) : Prop := p.count.toNat = p.acknowledged

end Poll

/-- The call ends, and is right. -/
def PollCall.Right (bus : Nat → Reply) : PollCall → Prop
  | .write slaveAddr data wLen => ∃ rounds p, i2cWriteMultiBytes bus slaveAddr rounds data wLen = some p ∧
      p.WriteRight
  | .read slaveAddr rLen => ∃ rounds p, i2cReadMultiBytes bus slaveAddr rounds rLen = some p ∧ p.ReadRight rLen
  | .readOneReg slaveAddr dataAddr rLen => ∃ rounds p,
      i2cReadMultiBytesOneReg bus slaveAddr rounds dataAddr rLen = some p ∧ p.ReadRight rLen
  | .readTwoRegs slaveAddr dataAddr rLen => ∃ rounds p,
      i2cReadMultiBytesTwoRegs bus slaveAddr rounds dataAddr rLen = some p ∧ p.ReadRight rLen

/-- An operation is not disturbed, and acknowledged where it must be. -/
def Reply.passes (r : Reply) (acked : Bool) : Bool := r.lost.isNone && (!acked || r.ack)

/-- The operations from number `n` on pass; each is given by whether it must be acknowledged. -/
def passAll (bus : Nat → Reply) : List Bool → Nat → Prop
  | [], _ => True
  | acked :: ops, n => (bus n).passes acked = true ∧ passAll bus ops (n + 1)

/-- When a call is right: a read asks for at least two bytes, or something up to the byte behind the last one
does not pass; in a write every byte passes where the start condition and the address do. -/
def PollCall.Holds (bus : Nat → Reply) : PollCall → Prop
  | .write _ _ wLen => passAll bus [false, true] 0 → passAll bus (List.replicate wLen.toNat true) 2
  | .read _ rLen => 2 ≤ rLen.toNat ∨ ¬ passAll bus ([false, true] ++ List.replicate (rLen.toNat + 1) false) 0
  | .readOneReg _ _ rLen => 2 ≤ rLen.toNat ∨
      ¬ passAll bus ([false, true, true, false, true] ++ List.replicate (rLen.toNat + 1) false) 0
  | .readTwoRegs _ _ rLen => 2 ≤ rLen.toNat ∨
      ¬ passAll bus ([false, true, true, true, false, true] ++ List.replicate (rLen.toNat + 1) false) 0

/-! ## How a loop ends -/

variable {turn : Switch} {bus : Nat → Reply} {p q : Poll} {rLen wLen : BitVec 32}

/-- The loop ends, with what is asked of its last state. -/
def Ends (turn : Switch) (bus : Nat → Reply) (p : Poll) (Q : Poll → Prop) : Prop :=
  ∃ rounds q, poll turn bus rounds p = some q ∧ Q q

theorem ends_live {Q : Poll → Prop} (h : p.live = true) :
    Ends turn bus p Q ↔ Ends turn bus (p.step turn bus) Q := by
  constructor
  · rintro ⟨rounds, q, hq, hQ⟩
    cases rounds with
    | zero => cases hq
    | succ rounds =>
      rw [poll, if_pos h] at hq
      exact ⟨rounds, q, hq, hQ⟩
  · rintro ⟨rounds, q, hq, hQ⟩
    refine ⟨rounds + 1, q, ?_, hQ⟩
    rw [poll, if_pos h]
    exact hq

theorem ends_over {Q : Poll → Prop} (h : ¬ p.live = true) : Ends turn bus p Q ↔ Q p := by
  constructor
  · rintro ⟨rounds, q, hq, hQ⟩
    cases rounds with
    | zero => cases hq
    | succ rounds =>
      rw [poll, if_neg h] at hq
      exact Option.some.inj hq ▸ hQ
  · intro hQ
    refine ⟨1, p, ?_, hQ⟩
    rw [poll, if_neg h]

theorem passAll_append (ops ops' : List Bool) (n : Nat) :
    passAll bus (ops ++ ops') n ↔ passAll bus ops n ∧ passAll bus ops' (n + ops.length) := by
  induction ops generalizing n with
  | nil => rw [List.nil_append, passAll, List.length_nil, Nat.add_zero, true_and]
  | cons acked ops ih =>
    rw [List.cons_append, passAll, passAll, ih, and_assoc, List.length_cons, Nat.add_right_comm, Nat.add_assoc]

/-! ## A round -/

/-- A read is under way: `k` bytes are received, stored and counted, no stop condition is issued, and the next
operation has number `n`. -/
structure Active (k n : Nat) (asked : Asked) (p : Poll) : Prop where
  live : p.live = true
  asked : p.asked = asked
  seen : p.seen.length = n
  stores : p.stores.length = k
  places : ∀ x ∈ p.stores, x.1.toNat < k
  count : p.count.toNat = k
  stops : p.stops = 0
  received : p.received = k

/-- A read is over: `k` bytes are received, stored and counted, one stop condition is issued. -/
structure Over (k : Nat) (p : Poll) : Prop where
  ended : ¬ p.live = true
  stores : p.stores.length = k
  places : ∀ x ∈ p.stores, x.1.toNat < k
  count : p.count.toNat = k
  stops : p.stops = 1
  received : p.received = k

/-- The status brings a byte. -/
def IsData (st : BitVec 32) : Prop := st = MASTER_STATUS_RECEIVE_DATA_ACK ∨ st = MASTER_STATUS_RECEIVE_DATA_NACK

instance : DecidablePred IsData := fun _ => inferInstanceAs (Decidable (_ ∨ _))

theorem not_isData (st : Abnormal) : ¬ IsData st.val := by
  rintro (h | h)
  · exact st.property (h ▸ (by decide))
  · exact st.property (h ▸ (by decide))

/-- A status is seen. -/
def Poll.see (p : Poll) (st : BitVec 32) : Poll := { p with seen := p.seen ++ [st] }

theorem received_see (p : Poll) {st : BitVec 32} (h : ¬ IsData st) : (p.see st).received = p.received := by
  have hnot : ¬ decide (st = MASTER_STATUS_RECEIVE_DATA_ACK ∨ st = MASTER_STATUS_RECEIVE_DATA_NACK) = true :=
    fun hst => h (of_decide_eq_true hst)
  rw [Poll.received, Poll.see, List.countP_append, List.countP_singleton, if_neg hnot]
  rfl

theorem received_see_data (p : Poll) {st : BitVec 32} (h : IsData st) :
    (p.see st).received = p.received + 1 := by
  have hyes : decide (st = MASTER_STATUS_RECEIVE_DATA_ACK ∨ st = MASTER_STATUS_RECEIVE_DATA_NACK) = true :=
    decide_eq_true h
  rw [Poll.received, Poll.see, List.countP_append, List.countP_singleton, if_pos hyes]
  rfl

theorem stops_setControl (p : Poll) (st : BitVec 32) (ctrl : BitVec 8) :
    (p.setControl st ctrl).stops = p.stops + if ctrl.getLsbD 4 then 1 else 0 := by
  rw [Poll.stops, Poll.setControl, List.countP_append, List.countP_singleton]
  rfl

section
variable {k n : Nat} {asked : Asked} {st : BitVec 32} {data : BitVec 8}

/-- A round in which the function chooses the next operation. -/
theorem Active.meet (h : Active k n asked p) (turn : Switch) (st : BitVec 32) (data dat ctrl : BitVec 8)
    (addr : Bool) (hst : ¬ IsData st)
    (hturn : turn st data (p.see st) = { p.see st with dat := dat, ctrl := ctrl, addr := addr })
    (hstop : ctrl.getLsbD 4 = false) : Active k (n + 1) (asked.after st ctrl dat) (p.meet turn st data) := by
  have hmeet : p.meet turn st data =
      ({ p.see st with dat := dat, ctrl := ctrl, addr := addr } : Poll).setControl st ctrl := by
    rw [Poll.meet, ← Poll.see, hturn]
  rw [hmeet]
  refine ⟨h.live, ?_, ?_, h.stores, h.places, h.count, ?_, (received_see p hst).trans h.received⟩
  · exact congrArg (Asked.after st ctrl dat) h.asked
  · exact List.length_append.trans (congrArg (· + 1) h.seen)
  · rw [stops_setControl, hstop]
    exact h.stops

/-- A round in which an acknowledge is missing. -/
theorem Active.meet_fail (h : Active k n asked p) (hst : ¬ IsData st)
    (hturn : turn st data (p.see st) = (p.see st).fail) : Over k (p.meet turn st data) := by
  have hmeet : p.meet turn st data = (p.see st).fail.setControl st I2C_CTL_STO_SI := by
    rw [Poll.meet, ← Poll.see, hturn]
    rfl
  rw [hmeet]
  refine ⟨?_, h.stores, h.places, h.count, ?_, (received_see p hst).trans h.received⟩
  · exact fun hlive => absurd ((Bool.and_eq_true_iff).1 hlive).2 Bool.false_ne_true
  · rw [stops_setControl]
    exact congrArg (· + 1) h.stops

/-- A round with an abnormal status. -/
theorem Active.meet_lose (h : Active k n asked p) (hst : ¬ IsData st)
    (hturn : turn st data (p.see st) = (p.see st).lose st) : Over k (p.meet turn st data) := by
  have hmeet : p.meet turn st data = ((p.see st).lose st).setControl st I2C_CTL_SI := by
    rw [Poll.meet, ← Poll.see, hturn]
    rfl
  rw [hmeet]
  refine ⟨?_, h.stores, h.places, h.count, ?_, (received_see p hst).trans h.received⟩
  · exact fun hlive => absurd ((Bool.and_eq_true_iff).1 hlive).2 Bool.false_ne_true
  · rw [stops_setControl]
    refine Eq.trans (stops_setControl (p.see st) st I2C_CTL_STO_SI) ?_
    exact congrArg (· + 1) h.stops

/-- The bytes stored after one more. -/
theorem Active.store (h : Active k n asked p) (data : BitVec 8) (hk : k + 1 < 2 ^ 32) (hst : IsData st) :
    ((p.see st).store data).stores.length = k + 1 ∧ (∀ x ∈ ((p.see st).store data).stores, x.1.toNat < k + 1) ∧
      ((p.see st).store data).count.toNat = k + 1 ∧ ((p.see st).store data).received = k + 1 := by
  refine ⟨List.length_append.trans (congrArg (· + 1) h.stores), fun x hx => ?_, ?_, ?_⟩
  · rcases List.mem_append.1 hx with hold | hnew
    · exact Nat.lt_succ_of_lt (h.places x hold)
    · rw [List.mem_singleton.1 hnew]
      exact Nat.lt_succ_of_le (Nat.le_of_eq h.count)
  · have hcount : ((p.see st).store data).count = p.count + 1 := rfl
    rw [hcount, BitVec.toNat_add, h.count]
    exact Nat.mod_eq_of_lt hk
  · exact (received_see_data p hst).trans (congrArg (· + 1) h.received)

/-- A round with a byte, after which there are more. -/
theorem Active.meet_more (h : Active k n asked p) (hk : k + 1 < 2 ^ 32) (hst : IsData st) {ctrl : BitVec 8}
    (hturn : turn st data (p.see st) = ((p.see st).store data).choose ctrl) (hstop : ctrl.getLsbD 4 = false) :
    Active (k + 1) (n + 1) (asked.after st ctrl p.dat) (p.meet turn st data) := by
  have hmeet : p.meet turn st data = (((p.see st).store data).choose ctrl).setControl st ctrl := by
    rw [Poll.meet, ← Poll.see, hturn]
    rfl
  obtain ⟨hstores, hplaces, hcount, hreceived⟩ := h.store data hk hst
  rw [hmeet]
  refine ⟨h.live, ?_, ?_, hstores, hplaces, hcount, ?_, hreceived⟩
  · exact congrArg (Asked.after st ctrl p.dat) h.asked
  · exact List.length_append.trans (congrArg (· + 1) h.seen)
  · rw [stops_setControl, hstop]
    exact h.stops

/-- A round with the last byte. -/
theorem Active.meet_last (h : Active k n asked p) (hk : k + 1 < 2 ^ 32) (hst : IsData st)
    (hturn : turn st data (p.see st) = ((p.see st).store data).finish) : Over (k + 1) (p.meet turn st data) := by
  have hmeet : p.meet turn st data = ((p.see st).store data).finish.setControl st I2C_CTL_STO_SI := by
    rw [Poll.meet, ← Poll.see, hturn]
    rfl
  obtain ⟨hstores, hplaces, hcount, hreceived⟩ := h.store data hk hst
  rw [hmeet]
  refine ⟨?_, hstores, hplaces, hcount, ?_, hreceived⟩
  · exact fun hlive => absurd ((Bool.and_eq_true_iff).1 hlive).1 Bool.false_ne_true
  · rw [stops_setControl]
    exact congrArg (· + 1) h.stops

/-- What an answer makes of an operation: it passes, or an acknowledge is missing, or it is disturbed. -/
theorem status_cases (asked : Asked) (r : Reply) :
    r.lost = none ∧ asked.status r = asked.regular r.ack ∨ ∃ st : Abnormal, r.lost = some st ∧
      asked.status r = st.val := by
  rw [Asked.status]
  cases hlost : r.lost with
  | none => exact .inl ⟨rfl, rfl⟩
  | some st => exact .inr ⟨st, rfl, rfl⟩

end

/-! ## Up to the bytes -/

/-- The operations `ops`, from number `n` on, lead to a state with `P` if they all pass, and to the end
without a byte if not. -/
def Leads (turn : Switch) (bus : Nat → Reply) (ops : List Bool) (n : Nat) (p : Poll) (P : Poll → Prop) : Prop :=
  (passAll bus ops n → ∃ p', P p' ∧ ∀ Q, Ends turn bus p Q ↔ Ends turn bus p' Q) ∧
    (¬ passAll bus ops n → ∃ p', Over 0 p' ∧ ∀ Q, Ends turn bus p Q ↔ Ends turn bus p' Q)

theorem Leads.nil {n : Nat} {P : Poll → Prop} (h : P p) : Leads turn bus [] n p P :=
  ⟨fun _ => ⟨p, h, fun _ => Iff.rfl⟩, fun hnot => absurd trivial hnot⟩

section
variable {n : Nat} {asked : Asked} {acked : Bool} {ops : List Bool} {P : Poll → Prop}

/-- One operation before the others. -/
theorem Leads.cons (h : Active 0 n asked p) (hstart : acked = false → ∀ ack, asked.regular ack = asked.regular true)
    (hst : ∀ ack, ¬ IsData (asked.regular ack))
    (hgood : ∀ data, Leads turn bus ops (n + 1) (p.meet turn (asked.regular true) data) P)
    (hnack : acked = true → ∀ data p, turn (asked.regular false) data p = p.fail)
    (hlost : ∀ (st : Abnormal) data p, turn st.val data p = p.lose st.val) :
    Leads turn bus (acked :: ops) n p P := by
  have hstep : p.step turn bus = p.meet turn (asked.status (bus n)) (bus n).data := by
    rw [Poll.step, h.seen, h.asked]
  have hends : ∀ Q, Ends turn bus p Q ↔ Ends turn bus (p.meet turn (asked.status (bus n)) (bus n).data) Q :=
    fun Q => hstep ▸ ends_live h.live
  rcases status_cases asked (bus n) with ⟨hnone, hstatus⟩ | ⟨st, hsome, hstatus⟩
  · rw [hstatus] at hends
    by_cases hack : acked = true ∧ (bus n).ack = false
    · refine ⟨fun hpass => ?_, fun _ => ⟨_, ?_, hends⟩⟩
      · have hpasses := hpass.1
        rw [Reply.passes, hack.1, hack.2, Bool.not_true, Bool.or_self, Bool.and_false] at hpasses
        cases hpasses
      · rw [hack.2]
        exact h.meet_fail (hst false) (hnack hack.1 _ _)
    · have hreg : asked.regular (bus n).ack = asked.regular true := by
        cases hacked : acked with
        | false => exact hstart hacked _
        | true =>
          cases hb : (bus n).ack with
          | false => exact absurd ⟨hacked, hb⟩ hack
          | true => rfl
      have hpasses : (bus n).passes acked = true := by
        rw [Reply.passes, hnone, Option.isNone_none, Bool.true_and]
        cases hacked : acked with
        | false => rfl
        | true =>
          cases hb : (bus n).ack with
          | false => exact absurd ⟨hacked, hb⟩ hack
          | true => rfl
      rw [hreg] at hends
      obtain ⟨hall, hsome⟩ := hgood (bus n).data
      refine ⟨fun hpass => ?_, fun hnot => ?_⟩
      · obtain ⟨p', hP, heq⟩ := hall hpass.2
        exact ⟨p', hP, fun Q => (hends Q).trans (heq Q)⟩
      · obtain ⟨p', hover, heq⟩ := hsome fun hrest => hnot ⟨hpasses, hrest⟩
        exact ⟨p', hover, fun Q => (hends Q).trans (heq Q)⟩
  · rw [hstatus] at hends
    refine ⟨fun hpass => ?_, fun _ => ⟨_, h.meet_lose (not_isData st) (hlost st _ _), hends⟩⟩
    have hpasses := hpass.1
    rw [Reply.passes, hsome, Option.isNone_some, Bool.false_and] at hpasses
    cases hpasses

end

/-! ## The bytes of a read -/

/-- What the three functions for reading share. -/
structure ReadSwitch (rLen : BitVec 32) (turn : Switch) : Prop where
  data : ∀ st data p, IsData st → turn st data p = receiveSwitch rLen st data p
  lost : ∀ (st : Abnormal) data p, turn st.val data p = p.lose st.val
  stores : ∀ st data p, p.stores.length ≤ (turn st data p).stores.length

theorem receiveSwitch_ack (rLen : BitVec 32) (data : BitVec 8) (p : Poll) :
    receiveSwitch rLen MASTER_STATUS_RECEIVE_DATA_ACK data p =
      (p.store data).choose (if p.count + 1 < rLen - 1 then I2C_CTL_SI_AA else I2C_CTL_SI) := by
  by_cases hmore : p.count + 1 < rLen - 1
  · rw [if_pos hmore]
    exact if_pos hmore
  · rw [if_neg hmore]
    exact if_neg hmore

section
variable {k n : Nat} {ack : Bool}

/-- One byte more: the transfer is disturbed and over, or goes on, or is over with the byte. -/
theorem Active.receive (bus : Nat → Reply) (h : Active k n (.receive ack) p) (hturn : ReadSwitch rLen turn) (hk : k + 1 < 2 ^ 32) :
    (bus n).passes false = false ∧ Over k (p.step turn bus) ∨
      (bus n).passes false = true ∧
        (ack = true ∧ Active (k + 1) (n + 1) (.receive (p.count + 1 < rLen - 1)) (p.step turn bus) ∨
          ack = false ∧ Over (k + 1) (p.step turn bus)) := by
  have hstep : p.step turn bus =
      p.meet turn ((Asked.receive ack).status (bus n)) (bus n).data := by
    rw [Poll.step, h.seen, h.asked]
  have hpasses : (bus n).passes false = (bus n).lost.isNone := by
    rw [Reply.passes, Bool.not_false, Bool.true_or, Bool.and_true]
  rw [hstep, hpasses]
  rcases status_cases (.receive ack) (bus n) with ⟨hnone, hstatus⟩ | ⟨st, hsome, hstatus⟩
  · rw [hstatus, hnone]
    refine .inr ⟨rfl, ?_⟩
    cases ack with
    | true =>
      refine .inl ⟨rfl, ?_⟩
      have hdata : IsData MASTER_STATUS_RECEIVE_DATA_ACK := .inl rfl
      have hdo : turn MASTER_STATUS_RECEIVE_DATA_ACK (bus n).data (p.see MASTER_STATUS_RECEIVE_DATA_ACK) =
          ((p.see MASTER_STATUS_RECEIVE_DATA_ACK).store (bus n).data).choose
            (if p.count + 1 < rLen - 1 then I2C_CTL_SI_AA else I2C_CTL_SI) :=
        (hturn.data _ _ _ hdata).trans (receiveSwitch_ack rLen _ _)
      have hmeet := h.meet_more hk hdata hdo
      by_cases hmore : p.count + 1 < rLen - 1
      · rw [if_pos hmore] at hmeet
        rw [decide_eq_true hmore]
        exact hmeet rfl
      · rw [if_neg hmore] at hmeet
        rw [decide_eq_false hmore]
        exact hmeet rfl
    | false =>
      have hdata : IsData MASTER_STATUS_RECEIVE_DATA_NACK := .inr rfl
      exact .inr ⟨rfl, h.meet_last hk hdata (hturn.data _ _ _ hdata)⟩
  · rw [hstatus, hsome]
    exact .inl ⟨rfl, h.meet_lose (not_isData st) (hturn.lost st _ _)⟩

/-- A read that is over with at most the bytes asked for is right. -/
theorem Over.readRight (h : Over k p) (hk : k ≤ rLen.toNat) : p.ReadRight rLen :=
  ⟨h.stores ▸ hk, fun x hx => Nat.lt_of_lt_of_le (h.places x hx) hk, h.stops, h.count.trans h.received.symm⟩

/-- Two bytes and more: the bytes asked for, at most. -/
theorem ends_receive (hturn : ReadSwitch rLen turn) (left : Nat) (hleft : k + left + 1 = rLen.toNat)
    (hack : ack = decide (0 < left)) (h : Active k n (.receive ack) p) :
    Ends turn bus p (Poll.ReadRight rLen) := by
  induction left generalizing k n ack p with
  | zero =>
    rw [ends_live h.live]
    have hk : k + 1 < 2 ^ 32 := hleft ▸ rLen.isLt
    rcases h.receive bus hturn hk with ⟨-, hover⟩ | ⟨-, ⟨htrue, -⟩ | ⟨-, hover⟩⟩
    · exact (ends_over hover.ended).2 (hover.readRight (by omega))
    · rw [hack] at htrue
      cases htrue
    · exact (ends_over hover.ended).2 (hover.readRight (by omega))
  | succ left ih =>
    rw [ends_live h.live]
    have hk : k + 1 < 2 ^ 32 := by
      have hlt := rLen.isLt
      omega
    rcases h.receive bus hturn hk with ⟨-, hover⟩ | ⟨-, ⟨-, hactive⟩ | ⟨hfalse, -⟩⟩
    · exact (ends_over hover.ended).2 (hover.readRight (by omega))
    · refine ih (by omega) ?_ hactive
      have hone : (rLen - 1).toNat = rLen.toNat - 1 := by
        rw [BitVec.toNat_sub_of_le]
        · rfl
        · rw [BitVec.le_def]
          exact Nat.le_trans (Nat.le_add_left 1 _) (Nat.le_of_eq hleft)
      have hcount : (p.count + 1).toNat = k + 1 := by
        rw [BitVec.toNat_add, h.count]
        exact Nat.mod_eq_of_lt hk
      rw [decide_eq_decide, BitVec.lt_def, hone, hcount]
      omega
    · rw [hack] at hfalse
      cases hfalse

theorem stores_poll (hturn : ReadSwitch rLen turn) {rounds : Nat} (h : poll turn bus rounds p = some q) :
    p.stores.length ≤ q.stores.length := by
  induction rounds generalizing p with
  | zero => cases h
  | succ rounds ih =>
    rw [poll] at h
    split at h
    · have hstep : p.stores.length ≤ (p.step turn bus).stores.length := hturn.stores _ _ (p.see _)
      exact Nat.le_trans hstep (ih h)
    · exact Nat.le_of_eq (congrArg (·.stores.length) (Option.some.inj h))

/-- A read that has stored more than it was asked for does not end right. -/
theorem not_ends_readRight (hturn : ReadSwitch rLen turn) (hmore : rLen.toNat < p.stores.length) :
    ¬ Ends turn bus p (Poll.ReadRight rLen) := by
  rintro ⟨rounds, q, hq, hright⟩
  exact absurd (Nat.le_trans (stores_poll hturn hq) hright.1) (Nat.not_le.2 hmore)

/-- One byte or none: it ends right if and only if the byte behind them does not come in. -/
theorem ends_receive_few (hturn : ReadSwitch rLen turn) (hfew : rLen.toNat < 2)
    (h : Active 0 n (.receive true) p) :
    Ends turn bus p (Poll.ReadRight rLen) ↔ ¬ passAll bus (List.replicate (rLen.toNat + 1) false) n := by
  rw [ends_live h.live, List.replicate_succ, passAll]
  rcases h.receive bus hturn (by decide) with ⟨hnot, hover⟩ | ⟨hpass, ⟨-, hactive⟩ | ⟨hfalse, -⟩⟩
  · rw [ends_over hover.ended, hnot]
    exact ⟨fun _ hpass => Bool.false_ne_true hpass.1, fun _ => hover.readRight (Nat.zero_le _)⟩
  · rw [hpass]
    rcases Nat.lt_succ_iff_lt_or_eq.1 hfew with hzero | hone
    · have hlen := Nat.lt_one_iff.1 hzero
      refine ⟨fun hends => absurd hends (not_ends_readRight hturn ?_), fun hnot => ?_⟩
      · rw [hactive.stores, hlen]
        exact Nat.zero_lt_one
      · rw [hlen] at hnot
        exact absurd ⟨rfl, trivial⟩ hnot
    · have hlast : (decide (p.count + 1 < rLen - 1)) = false := by
        rw [decide_eq_false_iff_not, show rLen = 1#32 from BitVec.eq_of_toNat_eq hone]
        exact Nat.not_lt_zero _
      rw [hlast] at hactive
      rw [ends_live hactive.live, hone, List.replicate_succ, passAll]
      rcases hactive.receive bus hturn (by decide) with
        ⟨hnot, hover⟩ | ⟨hpass', ⟨htrue, -⟩ | ⟨-, hover⟩⟩
      · rw [ends_over hover.ended, hnot]
        exact ⟨fun _ hpass => Bool.false_ne_true hpass.2.1, fun _ => hover.readRight (Nat.le_of_eq hone.symm)⟩
      · cases htrue
      · rw [hpass']
        refine ⟨fun hends => absurd hends (not_ends_readRight hturn ?_), fun hnot => ?_⟩
        · rw [hover.stores, hone]
          exact Nat.lt_succ_self 1
        · exact absurd ⟨rfl, rfl, trivial⟩ hnot
  · cases hfalse

end

/-- A function for reading whose operations `ops` lead to the bytes. -/
theorem read_iff {ops : List Bool} (hturn : ReadSwitch rLen turn)
    (hleads : Leads turn bus ops 0 .init fun p => Active 0 ops.length (.receive true) p) :
    Ends turn bus .init (Poll.ReadRight rLen) ↔
      2 ≤ rLen.toNat ∨ ¬ passAll bus (ops ++ List.replicate (rLen.toNat + 1) false) 0 := by
  rw [passAll_append, Nat.zero_add]
  by_cases hpass : passAll bus ops 0
  · obtain ⟨p, hp, hends⟩ := hleads.1 hpass
    rw [hends, and_iff_right hpass]
    by_cases hlen : 2 ≤ rLen.toNat
    · refine iff_of_true (ends_receive hturn (rLen.toNat - 1) (by omega) ?_ hp) (.inl hlen)
      exact (decide_eq_true (Nat.sub_pos_of_lt hlen)).symm
    · rw [or_iff_right hlen]
      exact ends_receive_few hturn (Nat.not_le.1 hlen) hp
  · obtain ⟨p, hp, hends⟩ := hleads.2 hpass
    rw [hends, ends_over hp.ended]
    exact iff_of_true (hp.readRight (Nat.zero_le _)) (.inr fun hall => hpass hall.1)

/-! ## The functions for reading -/

theorem Abnormal.ne (st : Abnormal) {code : BitVec 32} (h : code ∈ masterStatuses) : st.val ≠ code :=
  fun heq => st.property (heq ▸ h)

theorem receiveSwitch_lost (rLen : BitVec 32) (st : Abnormal) (data : BitVec 8) (p : Poll) :
    receiveSwitch rLen st.val data p = p.lose st.val := by
  rw [receiveSwitch, if_neg (Abnormal.ne st (by decide)), if_neg (Abnormal.ne st (by decide)),
    if_neg (Abnormal.ne st (by decide)), if_neg (Abnormal.ne st (by decide))]

theorem receiveSwitch_stores (rLen st : BitVec 32) (data : BitVec 8) (p : Poll) :
    p.stores.length ≤ (receiveSwitch rLen st data p).stores.length := by
  have hstore : p.stores.length ≤ (p.store data).stores.length := by
    rw [Poll.store, List.length_append]
    exact Nat.le_add_right _ _
  rw [receiveSwitch]
  dsimp only
  split
  · exact Nat.le_refl _
  · split
    · exact Nat.le_refl _
    · split
      · split
        · exact hstore
        · exact hstore
      · split
        · exact hstore
        · exact Nat.le_refl _

section
variable {slaveAddr dataAddr : BitVec 8} {dataAddr' : BitVec 16}

theorem slaveRead_read (slaveAddr : BitVec 8) : (slaveRead slaveAddr).getLsbD 0 = true := by
  rw [slaveRead, BitVec.getLsbD_or]
  exact Bool.or_true _

theorem slaveWrite_write (slaveAddr : BitVec 8) : (slaveWrite slaveAddr).getLsbD 0 = false := by
  rw [slaveWrite, BitVec.getLsbD_or, BitVec.getLsbD_shiftLeft]
  rfl

theorem readSwitch_read (slaveAddr : BitVec 8) (rLen : BitVec 32) :
    ReadSwitch rLen (readSwitch slaveAddr rLen) where
  data := by
    rintro st data p (rfl | rfl)
    · rfl
    · rfl
  lost st data p := by
    rw [readSwitch, if_neg (Abnormal.ne st (by decide)), receiveSwitch_lost]
  stores st data p := by
    rw [readSwitch]
    split
    · exact Nat.le_refl _
    · exact receiveSwitch_stores rLen st data p

theorem readOneRegSwitch_read (slaveAddr dataAddr : BitVec 8) (rLen : BitVec 32) :
    ReadSwitch rLen (readOneRegSwitch slaveAddr dataAddr rLen) where
  data := by
    rintro st data p (rfl | rfl)
    · rfl
    · rfl
  lost st data p := by
    have hnack : ¬ (st.val = 0x20 ∨ st.val = 0x30) := by
      rintro (h | h)
      · exact Abnormal.ne st (by decide) h
      · exact Abnormal.ne st (by decide) h
    rw [readOneRegSwitch, if_neg (Abnormal.ne st (by decide)), if_neg (Abnormal.ne st (by decide)), if_neg hnack,
      if_neg (Abnormal.ne st (by decide)), if_neg (Abnormal.ne st (by decide)), receiveSwitch_lost]
  stores st data p := by
    rw [readOneRegSwitch]
    split
    · exact Nat.le_refl _
    · split
      · exact Nat.le_refl _
      · split
        · exact Nat.le_refl _
        · split
          · exact Nat.le_refl _
          · split
            · exact Nat.le_refl _
            · exact receiveSwitch_stores rLen st data p

theorem readTwoRegsSwitch_read (slaveAddr : BitVec 8) (dataAddr : BitVec 16) (rLen : BitVec 32) :
    ReadSwitch rLen (readTwoRegsSwitch slaveAddr dataAddr rLen) where
  data := by
    rintro st data p (rfl | rfl)
    · rfl
    · rfl
  lost st data p := by
    have hnack : ¬ (st.val = 0x20 ∨ st.val = 0x30) := by
      rintro (h | h)
      · exact Abnormal.ne st (by decide) h
      · exact Abnormal.ne st (by decide) h
    rw [readTwoRegsSwitch, if_neg (Abnormal.ne st (by decide)), if_neg (Abnormal.ne st (by decide)), if_neg hnack,
      if_neg (Abnormal.ne st (by decide)), if_neg (Abnormal.ne st (by decide)), receiveSwitch_lost]
  stores st data p := by
    rw [readTwoRegsSwitch]
    split
    · exact Nat.le_refl _
    · split
      · exact Nat.le_refl _
      · split
        · exact Nat.le_refl _
        · split
          · split
            · exact Nat.le_refl _
            · exact Nat.le_refl _
          · split
            · exact Nat.le_refl _
            · exact receiveSwitch_stores rLen st data p

theorem active_init : Active 0 0 .start .init :=
  ⟨rfl, rfl, rfl, rfl, fun _ hx => absurd hx List.not_mem_nil, rfl, rfl, rfl⟩

/-- The start condition and the address. -/
theorem leads_read (slaveAddr : BitVec 8) (rLen : BitVec 32) : Leads (readSwitch slaveAddr rLen) bus
    [false, true] 0 .init fun p => Active 0 2 (.receive true) p := by
  have hlost := (readSwitch_read slaveAddr rLen).lost
  refine Leads.cons active_init (fun _ _ => rfl) (by decide) (fun data => ?_) (fun h => (by cases h)) hlost
  have haddress := active_init.meet (readSwitch slaveAddr rLen) MASTER_STATUS_START data (slaveRead slaveAddr)
    I2C_CTL_SI true (by decide) rfl rfl
  rw [show Asked.start.after _ _ _ = .address true from congrArg _ (slaveRead_read slaveAddr)] at haddress
  refine Leads.cons haddress (fun h => (by cases h)) (by decide) (fun data => ?_) (fun _ _ _ => rfl) hlost
  exact Leads.nil (haddress.meet _ MASTER_STATUS_RECEIVE_ADDRESS_ACK data (slaveRead slaveAddr) I2C_CTL_SI_AA
    true (by decide) rfl rfl)

/-- The start condition, the address, the register, the start condition again and the address again. -/
theorem leads_readOneReg (slaveAddr dataAddr : BitVec 8) (rLen : BitVec 32) :
    Leads (readOneRegSwitch slaveAddr dataAddr rLen) bus [false, true, true, false, true] 0 .init fun p =>
      Active 0 5 (.receive true) p := by
  have hlost := (readOneRegSwitch_read slaveAddr dataAddr rLen).lost
  refine Leads.cons active_init (fun _ _ => rfl) (by decide) (fun data => ?_) (fun h => (by cases h)) hlost
  have haddress := active_init.meet (readOneRegSwitch slaveAddr dataAddr rLen) MASTER_STATUS_START data
    (slaveWrite slaveAddr) I2C_CTL_SI true (by decide) rfl rfl
  rw [show Asked.start.after _ _ _ = .address false from congrArg _ (slaveWrite_write slaveAddr)] at haddress
  refine Leads.cons haddress (fun h => (by cases h)) (by decide) (fun data => ?_) (fun _ _ _ => rfl) hlost
  have hreg := haddress.meet (readOneRegSwitch slaveAddr dataAddr rLen) MASTER_STATUS_TRANSMIT_ADDRESS_ACK data
    dataAddr I2C_CTL_SI true (by decide) rfl rfl
  change Active 0 2 .send _ at hreg
  refine Leads.cons hreg (fun h => (by cases h)) (by decide) (fun data => ?_) (fun _ _ _ => rfl) hlost
  have hrestart := hreg.meet (readOneRegSwitch slaveAddr dataAddr rLen) MASTER_STATUS_TRANSMIT_DATA_ACK data
    dataAddr I2C_CTL_STA_SI true (by decide) rfl rfl
  change Active 0 3 .restart _ at hrestart
  refine Leads.cons hrestart (fun _ _ => rfl) (by decide) (fun data => ?_) (fun h => (by cases h)) hlost
  have hagain := hrestart.meet (readOneRegSwitch slaveAddr dataAddr rLen) MASTER_STATUS_REPEAT_START data
    (slaveRead slaveAddr) I2C_CTL_SI true (by decide) rfl rfl
  rw [show Asked.restart.after _ _ _ = .address true from congrArg _ (slaveRead_read slaveAddr)] at hagain
  refine Leads.cons hagain (fun h => (by cases h)) (by decide) (fun data => ?_) (fun _ _ _ => rfl) hlost
  exact Leads.nil (hagain.meet _ MASTER_STATUS_RECEIVE_ADDRESS_ACK data (slaveRead slaveAddr) I2C_CTL_SI_AA
    true (by decide) rfl rfl)

/-- The same with the two bytes of the register's address. -/
theorem leads_readTwoRegs (slaveAddr : BitVec 8) (dataAddr : BitVec 16) (rLen : BitVec 32) :
    Leads (readTwoRegsSwitch slaveAddr dataAddr rLen) bus [false, true, true, true, false, true] 0 .init fun p =>
      Active 0 6 (.receive true) p := by
  have hlost := (readTwoRegsSwitch_read slaveAddr dataAddr rLen).lost
  refine Leads.cons active_init (fun _ _ => rfl) (by decide) (fun data => ?_) (fun h => (by cases h)) hlost
  have haddress := active_init.meet (readTwoRegsSwitch slaveAddr dataAddr rLen) MASTER_STATUS_START data
    (slaveWrite slaveAddr) I2C_CTL_SI true (by decide) rfl rfl
  rw [show Asked.start.after _ _ _ = .address false from congrArg _ (slaveWrite_write slaveAddr)] at haddress
  refine Leads.cons haddress (fun h => (by cases h)) (by decide) (fun data => ?_) (fun _ _ _ => rfl) hlost
  have hhigh := haddress.meet (readTwoRegsSwitch slaveAddr dataAddr rLen) MASTER_STATUS_TRANSMIT_ADDRESS_ACK data
    (((dataAddr &&& 0xFF00) >>> 8).setWidth 8) I2C_CTL_SI true (by decide) rfl rfl
  change Active 0 2 .send _ at hhigh
  refine Leads.cons hhigh (fun h => (by cases h)) (by decide) (fun data => ?_) (fun _ _ _ => rfl) hlost
  have hlow := hhigh.meet (readTwoRegsSwitch slaveAddr dataAddr rLen) MASTER_STATUS_TRANSMIT_DATA_ACK data
    ((dataAddr &&& 0xFF).setWidth 8) I2C_CTL_SI false (by decide) rfl rfl
  change Active 0 3 .send _ at hlow
  refine Leads.cons hlow (fun h => (by cases h)) (by decide) (fun data => ?_) (fun _ _ _ => rfl) hlost
  have hrestart := hlow.meet (readTwoRegsSwitch slaveAddr dataAddr rLen) MASTER_STATUS_TRANSMIT_DATA_ACK data
    ((dataAddr &&& 0xFF).setWidth 8) I2C_CTL_STA_SI false (by decide) rfl rfl
  change Active 0 4 .restart _ at hrestart
  refine Leads.cons hrestart (fun _ _ => rfl) (by decide) (fun data => ?_) (fun h => (by cases h)) hlost
  have hagain := hrestart.meet (readTwoRegsSwitch slaveAddr dataAddr rLen) MASTER_STATUS_REPEAT_START data
    (slaveRead slaveAddr) I2C_CTL_SI false (by decide) rfl rfl
  rw [show Asked.restart.after _ _ _ = .address true from congrArg _ (slaveRead_read slaveAddr)] at hagain
  refine Leads.cons hagain (fun h => (by cases h)) (by decide) (fun data => ?_) (fun _ _ _ => rfl) hlost
  exact Leads.nil (hagain.meet _ MASTER_STATUS_RECEIVE_ADDRESS_ACK data (slaveRead slaveAddr) I2C_CTL_SI_AA
    false (by decide) rfl rfl)

end

/-! ## The function for writing -/

/-- A write is under way: `c` bytes are counted and `k` acknowledged, the control word has neither a stop nor a
start condition, and the next operation has number `n`. -/
structure Writing (c k n : Nat) (asked : Asked) (p : Poll) : Prop where
  live : p.live = true
  asked : p.asked = asked
  seen : p.seen.length = n
  stop : p.ctrl.getLsbD 4 = false
  start : p.ctrl.getLsbD 5 = false
  count : p.count.toNat = c
  acknowledged : p.acknowledged = k

theorem acknowledged_see (p : Poll) (st : BitVec 32) (h : st ≠ MASTER_STATUS_TRANSMIT_DATA_ACK) :
    (p.see st).acknowledged = p.acknowledged := by
  have hnot : ¬ decide (st = MASTER_STATUS_TRANSMIT_DATA_ACK) = true := fun hst => h (of_decide_eq_true hst)
  rw [Poll.acknowledged, Poll.see, List.countP_append, List.countP_singleton, if_neg hnot]
  rfl

theorem acknowledged_see_ack (p : Poll) :
    (p.see MASTER_STATUS_TRANSMIT_DATA_ACK).acknowledged = p.acknowledged + 1 := by
  rw [Poll.acknowledged, Poll.see, List.countP_append, List.countP_singleton]
  rfl

section
variable {slaveAddr : BitVec 8} {bytes : BitVec 32 → BitVec 8} {c k n : Nat} {asked : Asked} {st : BitVec 32}
  {data : BitVec 8}

theorem writeSwitch_lost (st : Abnormal) (data : BitVec 8) (p : Poll) :
    writeSwitch slaveAddr bytes wLen st.val data p = p.lose st.val := by
  have hack : ¬ (st.val = 0x18 ∨ st.val = 0x28) := by
    rintro (h | h)
    · exact Abnormal.ne st (by decide) h
    · exact Abnormal.ne st (by decide) h
  have hnack : ¬ (st.val = 0x20 ∨ st.val = 0x30) := by
    rintro (h | h)
    · exact Abnormal.ne st (by decide) h
    · exact Abnormal.ne st (by decide) h
  rw [writeSwitch, if_neg (Abnormal.ne st (by decide)), if_neg hack, if_neg hnack]

theorem writeSwitch_ack (hst : st = 0x18 ∨ st = 0x28) :
    writeSwitch slaveAddr bytes wLen st data p =
      if p.count < wLen then { p.setData (bytes p.count) with count := p.count + 1 } else p.finish := by
  have hstart : ¬ st = 0x08 := by
    rcases hst with rfl | rfl
    · decide
    · decide
  rw [writeSwitch, if_neg hstart, if_pos hst]

/-- A round in which the transfer breaks off. -/
theorem Writing.meet_stopped (h : Writing c k n asked p) (hst : st ≠ MASTER_STATUS_TRANSMIT_DATA_ACK)
    (hturn : turn st data (p.see st) = (p.see st).fail ∨ turn st data (p.see st) = (p.see st).lose st) :
    Ends turn bus (p.meet turn st data) Poll.WriteRight ↔ c = k := by
  have hover : ¬ (p.meet turn st data).live = true ∧ (p.meet turn st data).count = p.count ∧
      (p.meet turn st data).acknowledged = (p.see st).acknowledged := by
    rw [Poll.meet, ← Poll.see]
    rcases hturn with hfail | hlose
    · rw [hfail]
      exact ⟨fun hlive => absurd ((Bool.and_eq_true_iff).1 hlive).2 Bool.false_ne_true, rfl, rfl⟩
    · rw [hlose]
      exact ⟨fun hlive => absurd ((Bool.and_eq_true_iff).1 hlive).2 Bool.false_ne_true, rfl, rfl⟩
  rw [ends_over hover.1, Poll.WriteRight, hover.2.1, hover.2.2, h.count, acknowledged_see p st hst, h.acknowledged]

/-- A round with an acknowledge: the next byte, or the end. -/
theorem Writing.meet_ack (slaveAddr : BitVec 8) (bytes : BitVec 32 → BitVec 8) (wLen : BitVec 32)
    (bus : Nat → Reply) (data : BitVec 8) {k' : Nat} (h : Writing c k n asked p) (hst : st = 0x18 ∨ st = 0x28)
    (hasked : asked = .address false ∨ asked = .send) (hk : (p.see st).acknowledged = k') :
    c < wLen.toNat ∧ Writing (c + 1) k' (n + 1) .send (p.meet (writeSwitch slaveAddr bytes wLen) st data) ∨
      ¬ c < wLen.toNat ∧
        (Ends (writeSwitch slaveAddr bytes wLen) bus (p.meet (writeSwitch slaveAddr bytes wLen) st data)
          Poll.WriteRight ↔ c = k') := by
  have hcount : (p.see st).count.toNat = c := h.count
  by_cases hmore : c < wLen.toNat
  · refine .inl ⟨hmore, ?_⟩
    have hlt : (p.see st).count < wLen := by
      rw [BitVec.lt_def, hcount]
      exact hmore
    have hmeet : p.meet (writeSwitch slaveAddr bytes wLen) st data =
        ({ (p.see st).setData (bytes p.count) with count := p.count + 1 } : Poll).setControl st p.ctrl := by
      rw [Poll.meet, ← Poll.see, writeSwitch_ack hst, if_pos hlt]
      rfl
    rw [hmeet]
    refine ⟨h.live, ?_, ?_, h.stop, h.start, ?_, hk⟩
    · have hafter : p.asked.after st p.ctrl (bytes p.count) = .send := by
        have hnot : ¬ (st = MASTER_STATUS_START ∨ st = MASTER_STATUS_REPEAT_START) := by
          rcases hst with rfl | rfl
          · decide
          · decide
        rw [h.asked]
        rcases hasked with rfl | rfl
        · rw [Asked.after, h.stop, h.start, if_neg Bool.false_ne_true, if_neg Bool.false_ne_true, if_neg hnot]
          exact if_pos hst
          exact fun hover => (by cases hover)
        · rw [Asked.after, h.stop, h.start, if_neg Bool.false_ne_true, if_neg Bool.false_ne_true, if_neg hnot]
          exact if_pos hst
          exact fun hover => (by cases hover)
      exact hafter
    · exact List.length_append.trans (congrArg (· + 1) h.seen)
    · have hwrap : c + 1 < 2 ^ 32 := Nat.lt_of_le_of_lt hmore wLen.isLt
      refine Eq.trans (BitVec.toNat_add p.count 1) ?_
      rw [h.count]
      exact Nat.mod_eq_of_lt hwrap
  · refine .inr ⟨hmore, ?_⟩
    have hlt : ¬ (p.see st).count < wLen := by
      rw [BitVec.lt_def, hcount]
      exact hmore
    have hmeet : p.meet (writeSwitch slaveAddr bytes wLen) st data =
        (p.see st).finish.setControl st I2C_CTL_STO_SI := by
      rw [Poll.meet, ← Poll.see, writeSwitch_ack hst, if_neg hlt]
      rfl
    rw [hmeet, ends_over (fun hlive => absurd ((Bool.and_eq_true_iff).1 hlive).1 Bool.false_ne_true)]
    exact ⟨fun hright => hcount.symm.trans (Eq.trans hright hk), fun heq => hcount.trans (heq.trans hk.symm)⟩

/-- A write's operation: it breaks the transfer off, or passes. -/
theorem Writing.operate (slaveAddr : BitVec 8) (bytes : BitVec 32 → BitVec 8) (wLen : BitVec 32)
    (bus : Nat → Reply) (h : Writing c k n asked p) (acked : Bool) (good : BitVec 32)
    (hgood : ∀ ack, (acked = true → ack = true) → asked.regular ack = good)
    (hnack : acked = true → asked.regular false ≠ MASTER_STATUS_TRANSMIT_DATA_ACK ∧
      ∀ data p, writeSwitch slaveAddr bytes wLen (asked.regular false) data p = p.fail) :
    (bus n).passes acked = false ∧ (Ends (writeSwitch slaveAddr bytes wLen) bus p Poll.WriteRight ↔ c = k) ∨
      (bus n).passes acked = true ∧ ∃ data, Ends (writeSwitch slaveAddr bytes wLen) bus p Poll.WriteRight ↔
        Ends (writeSwitch slaveAddr bytes wLen) bus (p.meet (writeSwitch slaveAddr bytes wLen) good data)
          Poll.WriteRight := by
  have hstep : p.step (writeSwitch slaveAddr bytes wLen) bus =
      p.meet (writeSwitch slaveAddr bytes wLen) (asked.status (bus n)) (bus n).data := by
    rw [Poll.step, h.seen, h.asked]
  rw [ends_live h.live, hstep]
  rcases status_cases asked (bus n) with ⟨hnone, hstatus⟩ | ⟨st, hsome, hstatus⟩
  · rw [hstatus]
    have hpasses : (bus n).passes acked = (!acked || (bus n).ack) := by
      rw [Reply.passes, hnone, Option.isNone_none, Bool.true_and]
    rw [hpasses]
    by_cases hack : acked = true → (bus n).ack = true
    · refine .inr ⟨?_, (bus n).data, by rw [hgood _ hack]⟩
      cases acked with
      | false => rfl
      | true => exact hack rfl
    · obtain ⟨hacked, hack⟩ := Classical.not_imp.1 hack
      have hfalse := Bool.eq_false_iff.2 hack
      rw [hacked, hfalse]
      exact .inl ⟨rfl, h.meet_stopped (hnack hacked).1 (.inl ((hnack hacked).2 _ _))⟩
  · rw [hstatus]
    refine .inl ⟨?_, h.meet_stopped (Abnormal.ne st (by decide)) (.inr (writeSwitch_lost st _ _))⟩
    rw [Reply.passes, hsome, Option.isNone_some, Bool.false_and]

/-- The bytes of a write from the one in the data register on: right if and only if they all pass. -/
theorem ends_send (left : Nat) (hleft : k + left + 1 = wLen.toNat) (h : Writing (k + 1) k n .send p) :
    Ends (writeSwitch slaveAddr bytes wLen) bus p Poll.WriteRight ↔
      passAll bus (List.replicate (left + 1) true) n := by
  induction left generalizing k n p with
  | zero =>
    rw [List.replicate_succ, passAll]
    rcases h.operate slaveAddr bytes wLen bus true 0x28 (by decide) (fun _ => ⟨by decide, fun _ _ => rfl⟩)
      with ⟨hnot, hends⟩ | ⟨hpass, data, hends⟩
    · rw [hends, hnot]
      exact iff_of_false (Nat.succ_ne_self k) fun hpass => Bool.false_ne_true hpass.1
    · rw [hends, hpass]
      have hk := (acknowledged_see_ack p).trans (congrArg (· + 1) h.acknowledged)
      rcases h.meet_ack slaveAddr bytes wLen bus data (.inr rfl) (.inr rfl) hk with ⟨hmore, -⟩ | ⟨-, hlast⟩
      · omega
      · exact hlast.trans (iff_of_true rfl ⟨rfl, trivial⟩)
  | succ left ih =>
    rw [List.replicate_succ, passAll]
    rcases h.operate slaveAddr bytes wLen bus true 0x28 (by decide) (fun _ => ⟨by decide, fun _ _ => rfl⟩)
      with ⟨hnot, hends⟩ | ⟨hpass, data, hends⟩
    · rw [hends, hnot]
      exact iff_of_false (Nat.succ_ne_self k) fun hpass => Bool.false_ne_true hpass.1
    · rw [hends, hpass, eq_self_iff_true, true_and]
      have hk := (acknowledged_see_ack p).trans (congrArg (· + 1) h.acknowledged)
      rcases h.meet_ack slaveAddr bytes wLen bus data (.inr rfl) (.inr rfl) hk with ⟨-, hnext⟩ | ⟨hend, -⟩
      · exact ih (by omega) hnext
      · omega

/-- A write is right if and only if the start condition or the address does not pass, or every byte does. -/
theorem write_iff (slaveAddr : BitVec 8) (bytes : BitVec 32 → BitVec 8) (wLen : BitVec 32) (bus : Nat → Reply) :
    Ends (writeSwitch slaveAddr bytes wLen) bus .init Poll.WriteRight ↔
      (passAll bus [false, true] 0 → passAll bus (List.replicate wLen.toNat true) 2) := by
  have hinit : Writing 0 0 0 .start .init := ⟨rfl, rfl, rfl, rfl, rfl, rfl, rfl⟩
  rcases hinit.operate slaveAddr bytes wLen bus false 0x08 (fun _ _ => rfl) (fun h => (by cases h)) with
    ⟨hnot, hends⟩ | ⟨hpass, data, hends⟩
  · rw [hends]
    refine iff_of_true rfl fun hpass => ?_
    exact absurd (hnot.symm.trans hpass.1) Bool.false_ne_true
  · have hmeet : Poll.init.meet (writeSwitch slaveAddr bytes wLen) 0x08 data =
        (((Poll.init.see 0x08).setData (slaveWrite slaveAddr)).choose I2C_CTL_SI).setControl 0x08 I2C_CTL_SI := rfl
    have haddress : Writing 0 0 1 (.address false)
        (Poll.init.meet (writeSwitch slaveAddr bytes wLen) 0x08 data) := by
      have hstop : I2C_CTL_SI.getLsbD 4 = false := by decide
      have hstart : I2C_CTL_SI.getLsbD 5 = false := by decide
      rw [hmeet]
      exact ⟨rfl, congrArg Asked.address (slaveWrite_write slaveAddr), rfl, hstop, hstart, rfl, rfl⟩
    rw [hends]
    rcases haddress.operate slaveAddr bytes wLen bus true 0x18 (by decide)
      (fun _ => ⟨by decide, fun _ _ => rfl⟩) with ⟨hnot, hends⟩ | ⟨hpass', data', hends⟩
    · rw [hends]
      refine iff_of_true rfl fun hpass => ?_
      exact absurd (hnot.symm.trans hpass.2.1) Bool.false_ne_true
    · have hall : passAll bus [false, true] 0 := ⟨hpass, hpass', trivial⟩
      rw [hends, forall_prop_of_true hall]
      have hk := (acknowledged_see (Poll.init.meet (writeSwitch slaveAddr bytes wLen) 0x08 data)
        0x18 (by decide)).trans haddress.acknowledged
      rcases haddress.meet_ack slaveAddr bytes wLen bus data' (.inl rfl) (.inl rfl) hk with
        ⟨hmore, hnext⟩ | ⟨hend, hover⟩
      · rw [ends_send (wLen.toNat - 1) (by omega) hnext, Nat.sub_add_cancel hmore]
      · rw [hover, Nat.eq_zero_of_not_pos hend]
        exact iff_of_true rfl trivial

end

/-! ## The four functions -/

/-- A polled transfer is right exactly when it asks for more than one byte to read, or the bus breaks it off in
time; and, for a write, when no byte is refused. -/
theorem polled_iff (bus : Nat → Reply) (call : PollCall) : call.Right bus ↔ call.Holds bus := by
  cases call with
  | write slaveAddr bytes wLen => exact write_iff slaveAddr bytes wLen bus
  | read slaveAddr rLen => exact read_iff (readSwitch_read slaveAddr rLen) (leads_read slaveAddr rLen)
  | readOneReg slaveAddr dataAddr rLen =>
    exact read_iff (readOneRegSwitch_read slaveAddr dataAddr rLen) (leads_readOneReg slaveAddr dataAddr rLen)
  | readTwoRegs slaveAddr dataAddr rLen =>
    exact read_iff (readTwoRegsSwitch_read slaveAddr dataAddr rLen) (leads_readTwoRegs slaveAddr dataAddr rLen)

/-- A read of one byte from a device that answers: it stores two. -/
theorem not_pollRight : ¬ PollCall.Right (fun _ => ⟨none, true, 0⟩) (.read 0x50 1) := by
  intro hright
  have hread := (read_iff (readSwitch_read 0x50 1) (leads_read 0x50 1)).1 hright
  rcases hread with htwo | hnot
  · exact absurd htwo (by decide)
  · exact hnot ⟨rfl, rfl, rfl, rfl, trivial⟩

end NumakerMA35D1.I2c

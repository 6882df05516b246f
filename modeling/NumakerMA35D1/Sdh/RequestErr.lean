import NumakerMA35D1.Sdh.DrvSdio
import NumakerMA35D1.Lib.Align

/-!
# The error of a request

Which responses and transfers come through is said on the controller alone: `cmdAt` is how it stands at each
poll for the response, `dataAt` how it stands at each poll for the data when every transfer held at a
boundary goes on at the byte after the last one moved. A request is right (`Right`) when the command's error
is 0 exactly when the command phase and the data phase complete without an error within the polls of the
driver, and a read then has the card's bytes in its buffer.

`nuSdhRequest_right_iff`: a request with a command is right exactly when no data phase fails after a command
phase that completes, and the registers hold the size of what is read. `Engine` is the invariant of the
transfer, and `Engine.nextBoundary_eq` says that the driver goes on at the right byte.

Reference: `drv_sdio.c`.
-/

namespace NumakerMA35D1.Sdh

open Embedded

/-! ## The phases on the controller -/

section

variable (card : Nat → Byte)

/-- The controller at the polls for the response. -/
def SdhT.cmdAt (evs : Nat → List Event) (r : SdhT) : Nat → SdhT
  | 0 => r.happens card (evs 0)
  | i + 1 => (SdhT.cmdAt evs r i).happens card (evs (i + 1))

/-- The rest of a round of the polls for the data; a transfer that is held goes on in place. -/
def SdhT.service (evs : Fin 4 → List Event) (r : SdhT) : SdhT :=
  let r := (r.happens card (evs 1)).happens card (evs 2)
  if r.dmaInterrupt then
    let r := r.happens card (evs 3)
    (r.writeNormalIntStat (r.normalIntStat ||| 0x8#16)).writeSdmasa r.sdmasa
  else r

/-- The controller at the polls for the data. -/
def SdhT.dataAt (evs : Nat → Fin 4 → List Event) (r : SdhT) : Nat → SdhT
  | 0 => r.happens card (evs 0 0)
  | k + 1 => ((SdhT.dataAt evs r k).service card (evs k)).happens card (evs (k + 1) 0)

/-- The response has come in, and the transfer is complete where the status has to say that too. -/
def SdhT.Answers (mask : BitVec 16) (r : SdhT) : Prop :=
  r.cmdComplete = true ∧ (mask = 0x3#16 → r.xferComplete = true)

/-- The command phase completes in time and without an error, and leaves the controller as `r'`. -/
def CmdPhase (script : Script) (cmd : MmcCmd) (data : Option MmcData) (r r' : SdhT) : Prop :=
  (∃ t ≤ 3200, script.pstate t &&& inhibitMask cmd = 0#32) ∧
  ∃ i ≤ 10000000, r' = (startCommand cmd data r).cmdAt card script.cmd i ∧ r'.errorIntStat = 0#16 ∧
    r'.Answers (respMask cmd.respType data) ∧
    ∀ j < i, ¬ ((startCommand cmd data r).cmdAt card script.cmd j).Answers (respMask cmd.respType data)

/-- The data phase completes in time and without an error. -/
def DataPhase (script : Script) (r : SdhT) : Prop :=
  ∃ k ≤ 1000000, (r.dataAt card script.data k).xferComplete = true ∧
    (r.dataAt card script.data k).errorIntStat = 0#16

end

/-- The bytes that the registers ask for. -/
def MmcData.asked (d : MmcData) : Nat :=
  if d.blocks.toNat > 1 then d.blocks.toNat % 2 ^ 16 * (d.blocksize.toNat % 2 ^ 12)
  else d.blocksize.toNat % 2 ^ 12

/-! ## What events keep -/

variable {card : Nat → Byte} {r r' : SdhT} {es : List Event}

theorem SdhT.happens_keeps {P : SdhT → Prop} (hmove : ∀ r, P r → P (r.moveByte card))
    (hflags : ∀ r e, (∀ n, e ≠ .move n) → P r → P (r.event card e)) (h : P r) :
    P (r.happens card es) := by
  have hmoves : ∀ n r, P r → P (SdhT.moveBytes card n r) := by
    intro n
    induction n with
    | zero => exact fun _ h => h
    | succ n ih => exact fun r h => ih _ (hmove r h)
  induction es generalizing r with
  | nil => exact h
  | cons e es ih =>
    refine ih ?_
    cases e with
    | move n => exact hmoves n r h
    | response r01 r23 r45 r67 => exact hflags r _ (fun n he => by cases he) h
    | complete => exact hflags r _ (fun n he => by cases he) h
    | error bits => exact hflags r _ (fun n he => by cases he) h

/-- An error stays. -/
theorem SdhT.happens_error (h : r.errorIntStat ≠ 0#16) :
    (r.happens card es).errorIntStat ≠ 0#16 := by
  refine happens_keeps (P := fun r => r.errorIntStat ≠ 0#16) (fun r h => ?_) (fun r e hne h => ?_) h
  · rw [moveByte]
    split <;> exact h
  · cases e with
    | move n => exact absurd rfl (hne n)
    | response r01 r23 r45 r67 => exact h
    | complete => simp only [event]; split <;> exact h
    | error bits =>
      intro hzero
      exact h (BitVec.or_eq_zero_iff.1 hzero).1

theorem SdhT.service_error {evs : Fin 4 → List Event}
    (h : (r.happens card (evs 1)).errorIntStat ≠ 0#16) : (r.service card evs).errorIntStat ≠ 0#16 := by
  have h2 : ((r.happens card (evs 1)).happens card (evs 2)).errorIntStat ≠ 0#16 := happens_error h
  rw [service]
  split
  · exact happens_error h2
  · exact h2

/-! ## The status word -/

theorem SdhT.normalIntStat_error :
    r.normalIntStat &&& 0x8000#16 ≠ 0#16 ↔ r.errorIntStat ≠ 0#16 := by
  rw [show r.errorIntStat ≠ 0#16 ↔ r.errInterrupt = true from by simp [errInterrupt], normalIntStat]
  cases r.errInterrupt <;> cases r.cmdComplete <;> cases r.xferComplete <;> cases r.dmaInterrupt <;>
    decide

theorem SdhT.normalIntStat_mask {mask : BitVec 16} (hmask : mask = 0x1#16 ∨ mask = 0x3#16) :
    r.normalIntStat &&& mask = mask ↔ r.Answers mask := by
  rw [Answers, normalIntStat]
  rcases hmask with rfl | rfl <;> cases r.errInterrupt <;> cases r.cmdComplete <;>
    cases r.xferComplete <;> cases r.dmaInterrupt <;> decide

theorem respMask_cases (respType : BitVec 32) (data : Option MmcData) :
    respMask respType data = 0x1#16 ∨ respMask respType data = 0x3#16 := by
  rw [respMask]
  split
  · exact .inr rfl
  · exact .inl rfl

/-- The status that ends the wait with success. -/
theorem SdhT.normalIntStat_both {mask : BitVec 16} (hmask : mask = 0x1#16 ∨ mask = 0x3#16) :
    r.normalIntStat &&& (0x8000#16 ||| mask) = mask ↔ r.errorIntStat = 0#16 ∧ r.Answers mask := by
  rw [Answers, show r.errorIntStat = 0#16 ↔ r.errInterrupt = false from by simp [errInterrupt],
    normalIntStat]
  rcases hmask with rfl | rfl <;> cases r.errInterrupt <;> cases r.cmdComplete <;>
    cases r.xferComplete <;> cases r.dmaInterrupt <;> decide

/-! ## The wait for the bus -/

/-- The waits come to the end of a limit that the mask of the present state passes or not. -/
theorem sdGetBusStatus_eq_zero_iff {pstate : Nat → BitVec 32} {mask : BitVec 32} :
    sdGetBusStatus pstate mask 3201 0 100 = 0 ↔ ∃ t ≤ 3200, pstate t &&& mask = 0#32 := by
  -- the limit is a hundred doubled a few times, and is not passed by more than the wait that doubles it
  have hloop : ∀ fuel time cmdTimeout, fuel + time = 3201 → time ≤ cmdTimeout →
      (∃ e ≤ 5, cmdTimeout = 100 * 2 ^ e) →
      (sdGetBusStatus pstate mask fuel time cmdTimeout = 0 ↔
        ∃ t, time ≤ t ∧ t ≤ 3200 ∧ pstate t &&& mask = 0#32) := by
    intro fuel
    induction fuel with
    | zero =>
      intro time cmdTimeout hfuel _ _
      refine iff_of_false (by simp [sdGetBusStatus]) ?_
      rintro ⟨t, hle, hle', -⟩
      omega
    | succ fuel ih =>
      rintro time cmdTimeout hfuel hle ⟨e, he, rfl⟩
      have hnext : ∀ limit, time + 1 ≤ limit → (∃ e ≤ 5, limit = 100 * 2 ^ e) →
          pstate time &&& mask ≠ 0#32 → (sdGetBusStatus pstate mask fuel (time + 1) limit = 0 ↔
            ∃ t, time ≤ t ∧ t ≤ 3200 ∧ pstate t &&& mask = 0#32) := by
        intro limit hlimit hexp hbusy
        rw [ih (time + 1) limit (by omega) hlimit hexp]
        constructor
        · rintro ⟨t, hlo, hhi, hfree⟩
          exact ⟨t, by omega, hhi, hfree⟩
        · rintro ⟨t, hlo, hhi, hfree⟩
          rcases Nat.eq_or_lt_of_le hlo with rfl | hlt
          · exact absurd hfree hbusy
          · exact ⟨t, hlt, hhi, hfree⟩
      rw [sdGetBusStatus]
      split
      · next hfree => exact iff_of_true rfl ⟨time, Nat.le_refl _, by omega, hfree⟩
      · next hbusy =>
        split
        · next hge =>
          split
          · next hdouble =>
            have he' : e ≤ 4 := by
              by_contra hlt
              obtain rfl : e = 5 := by omega
              omega
            have hpos := Nat.two_pow_pos e
            refine hnext _ (by omega) ⟨e + 1, by omega, ?_⟩ hbusy
            rw [Nat.pow_succ]
            omega
          · next hlast =>
            -- the limit is 3200 and this wait was the last one
            have he' : e = 5 := by
              by_contra hne
              obtain hlt : e ≤ 4 := by omega
              have := Nat.pow_le_pow_right (show 0 < 2 by decide) hlt
              omega
            subst he'
            refine iff_of_false (by decide) ?_
            rintro ⟨t, hlo, hhi, hfree⟩
            obtain rfl : t = time := by omega
            exact hbusy hfree
        · exact hnext _ (by omega) ⟨e, he, rfl⟩ hbusy
  rw [hloop 3201 0 100 rfl (Nat.zero_le _) ⟨0, Nat.zero_le _, rfl⟩]
  constructor
  · rintro ⟨t, -, hle, hfree⟩
    exact ⟨t, hle, hfree⟩
  · rintro ⟨t, hle, hfree⟩
    exact ⟨t, Nat.zero_le _, hle, hfree⟩

/-! ## The wait for the response -/

theorem SdhT.cmdAt_error {evs : Nat → List Event} {i k : Nat} (hik : i ≤ k)
    (h : (r.cmdAt card evs i).errorIntStat ≠ 0#16) : (r.cmdAt card evs k).errorIntStat ≠ 0#16 := by
  induction hik with
  | refl => exact h
  | step _ ih => exact happens_error ih

/-- What events keep, the wait keeps. -/
theorem waitResponse_keeps {P : SdhT → Prop} (hP : ∀ r es, P r → P (r.happens card es))
    {evs : Nat → List Event} {mask : BitVec 16} {left time : Nat} (h : P r) :
    P (waitResponse card evs mask left time r).2 := by
  induction left generalizing time r with
  | zero =>
    rw [waitResponse]
    split <;> exact hP r _ h
  | succ left ih =>
    rw [waitResponse]
    split
    · exact hP r _ h
    · split
      · exact ih (hP r _ h)
      · exact hP r _ h

/-- The wait ends well at the first poll that finds the answer, when there is no error by then. -/
theorem waitResponse_iff {r₀ : SdhT} {evs : Nat → List Event} {mask : BitVec 16}
    (hmask : mask = 0x1#16 ∨ mask = 0x3#16) (left i : Nat)
    (hr : r.happens card (evs i) = r₀.cmdAt card evs i)
    (hbefore : ∀ j < i, ¬ (r₀.cmdAt card evs j).Answers mask) :
    (∃ stat, waitResponse card evs mask left i r = (some stat, r') ∧
      stat &&& (0x8000#16 ||| mask) = mask) ↔
    ∃ k, (i ≤ k ∧ k < i + left) ∧ r' = r₀.cmdAt card evs k ∧ r'.errorIntStat = 0#16 ∧
      r'.Answers mask ∧ ∀ j < k, ¬ (r₀.cmdAt card evs j).Answers mask := by
  induction left generalizing i r with
  | zero =>
    refine iff_of_false ?_ (by rintro ⟨k, ⟨hlo, hhi⟩, -⟩; omega)
    rintro ⟨stat, hwait, hgood⟩
    rw [waitResponse] at hwait
    split at hwait
    · next herr =>
      obtain ⟨hstat, rfl⟩ := Prod.mk.inj hwait
      obtain rfl := Option.some.inj hstat
      exact SdhT.normalIntStat_error.1 herr ((SdhT.normalIntStat_both hmask).1 hgood).1
    · cases (Prod.mk.inj hwait).1
  | succ left ih =>
    rw [waitResponse, hr]
    split
    · next herr =>
      have herr := SdhT.normalIntStat_error.1 herr
      refine iff_of_false ?_ ?_
      · rintro ⟨stat, hwait, hgood⟩
        obtain ⟨hstat, rfl⟩ := Prod.mk.inj hwait
        obtain rfl := Option.some.inj hstat
        exact herr ((SdhT.normalIntStat_both hmask).1 hgood).1
      · rintro ⟨k, ⟨hlo, -⟩, rfl, hno, -⟩
        exact SdhT.cmdAt_error hlo herr hno
    · next herr =>
      rw [SdhT.normalIntStat_error, not_not] at herr
      split
      · next hnot =>
        have hnot : ¬ (r₀.cmdAt card evs i).Answers mask :=
          fun h => hnot ((SdhT.normalIntStat_mask hmask).2 h)
        rw [ih (i + 1) rfl fun j hj => (Nat.lt_succ_iff_lt_or_eq.1 hj).elim (hbefore j) (· ▸ hnot)]
        constructor
        · rintro ⟨k, ⟨hlo, hhi⟩, h⟩
          exact ⟨k, ⟨by omega, by omega⟩, h⟩
        · rintro ⟨k, ⟨hlo, hhi⟩, rfl, h⟩
          refine ⟨k, ⟨?_, by omega⟩, rfl, h⟩
          rcases Nat.eq_or_lt_of_le hlo with rfl | hlt
          · exact absurd h.2.1 hnot
          · exact hlt
      · next hset =>
        have hset := (SdhT.normalIntStat_mask hmask).1 (not_not.1 hset)
        constructor
        · rintro ⟨stat, hwait, -⟩
          obtain ⟨-, rfl⟩ := Prod.mk.inj hwait
          exact ⟨i, ⟨Nat.le_refl _, by omega⟩, rfl, herr, hset, hbefore⟩
        · rintro ⟨k, ⟨hlo, -⟩, rfl, -, -, hfirst⟩
          rcases Nat.eq_or_lt_of_le hlo with rfl | hlt
          · exact ⟨_, rfl, (SdhT.normalIntStat_both hmask).2 ⟨herr, hset⟩⟩
          · exact absurd hset (hfirst i hlt)

/-! ## The command -/

variable {script : Script} {cmd : MmcCmd} {data : Option MmcData} {resp : Response}

/-- The controller after the data of a command, if it has any. -/
def transferred (card : Nat → Byte) (script : Script) (data : Option MmcData) (r : SdhT) : SdhT :=
  match data with
  | some d => (nuSdhXferData card script.data d r).2
  | none => r

/-- The flags cleared at the end of a command. -/
def SdhT.cleared (mask : BitVec 16) (r : SdhT) : SdhT :=
  ((r.writeNormalIntStat mask).writeNormalIntStat 0xFFFF#16).writeErrorIntStat 0xFFFF#16

section

variable {mask : BitVec 16}

@[simp] theorem SdhT.cleared_moved : (r.cleared mask).moved = r.moved := rfl

@[simp] theorem SdhT.cleared_total : (r.cleared mask).total = r.total := rfl

@[simp] theorem SdhT.cleared_mem : (r.cleared mask).mem = r.mem := rfl

@[simp] theorem SdhT.cleared_resumes : (r.cleared mask).resumes = r.resumes := rfl

end

theorem CmdPhase.unique {r₁ r₂ : SdhT} (h₁ : CmdPhase card script cmd data r r₁)
    (h₂ : CmdPhase card script cmd data r r₂) : r₁ = r₂ := by
  obtain ⟨-, i, -, rfl, -, hset, hfirst⟩ := h₁
  obtain ⟨-, j, -, rfl, -, hset', hfirst'⟩ := h₂
  rcases Nat.lt_trichotomy i j with hlt | rfl | hlt
  · exact absurd hset (hfirst' i hlt)
  · rfl
  · exact absurd hset' (hfirst j hlt)

/-- The wait for the response after a free bus is the command phase. -/
theorem cmdPhase_iff : CmdPhase card script cmd data r r' ↔
    sdGetBusStatus script.pstate (inhibitMask cmd) 3201 0 100 = 0 ∧
    ∃ stat, waitResponse card script.cmd (respMask cmd.respType data) 10000001 0
      (startCommand cmd data r) = (some stat, r') ∧
        stat &&& (0x8000#16 ||| respMask cmd.respType data) = respMask cmd.respType data := by
  rw [@waitResponse_iff card _ _ (startCommand cmd data r) _ _ (respMask_cases _ _) _ 0 rfl
    (fun j hj => absurd hj (Nat.not_lt_zero _)), sdGetBusStatus_eq_zero_iff]
  refine and_congr_right fun _ => exists_congr fun k => and_congr_left fun _ => ?_
  omega

/-- A command whose phase completes has the error 0, whatever its data does. -/
theorem nuSdhSendCommand_ok (h : CmdPhase card script cmd data r r') :
    nuSdhSendCommand card script cmd data resp r = (0, nuSdhSendCommanddone r' cmd.respType,
      (transferred card script data r').cleared (respMask cmd.respType data)) := by
  obtain ⟨hbus, stat, hwait, hgood⟩ := cmdPhase_iff.1 h
  rw [nuSdhSendCommand, if_neg (not_not.2 hbus)]
  dsimp only
  rw [hwait]
  dsimp only
  rw [if_pos hgood, if_neg (by decide)]
  cases data <;> rfl

/-- A command whose phase does not complete has an error, and leaves the controller reset. -/
theorem nuSdhSendCommand_fails (h : ¬ ∃ r', CmdPhase card script cmd data r r') :
    (nuSdhSendCommand card script cmd data resp r).1 ≠ 0 ∧
    ((nuSdhSendCommand card script cmd data resp r).2.2 = r.reset ∨
      (nuSdhSendCommand card script cmd data resp r).2.2 =
        (waitResponse card script.cmd (respMask cmd.respType data) 10000001 0
          (startCommand cmd data r)).2.reset) := by
  rw [nuSdhSendCommand]
  split
  · exact ⟨(by decide : (260 : Int) ≠ 0), .inl rfl⟩
  · next hbus =>
    dsimp only
    rcases hwait : waitResponse card script.cmd (respMask cmd.respType data) 10000001 0
      (startCommand cmd data r) with ⟨stat, r'⟩
    cases stat with
    | none => exact ⟨(by decide : (343 : Int) ≠ 0), .inr rfl⟩
    | some stat =>
      dsimp only
      split
      · next hgood =>
        exact absurd ⟨r', cmdPhase_iff.2 ⟨not_not.1 hbus, stat, hwait, hgood⟩⟩ h
      · exact ⟨(by decide : (371 : Int) ≠ 0), .inr rfl⟩

theorem nuSdhSendCommand_eq_zero_iff :
    (nuSdhSendCommand card script cmd data resp r).1 = 0 ↔ ∃ r', CmdPhase card script cmd data r r' := by
  constructor
  · intro h
    by_contra hno
    exact (nuSdhSendCommand_fails hno).1 h
  · rintro ⟨r', h⟩
    rw [nuSdhSendCommand_ok h]

/-! ## The transfer -/

/-- Every transfer that was held went on at the byte after the last one moved. -/
def SdhT.Resumed (r : SdhT) : Prop := ∀ p ∈ r.resumes, p.1 = p.2

/-- A transfer of `n` bytes from `dest` up, which last went on after `s` bytes: its address follows the
bytes moved, it is held at a boundary and nowhere else, and what it has read is in memory. -/
structure Engine (card : Nat → Byte) (dest : BitVec 32) (rd : Bool) (n s : Nat) (r : SdhT) : Prop where
  addr : r.sdmasa = dest + BitVec.ofNat 32 r.moved
  total : r.total = n
  dir : r.reading = rd
  bdary : r.sdmaBufBdary = 0x7#3
  since : s ≤ r.moved
  le : r.moved ≤ n
  clear : ∀ j, s < j → j < r.moved → (dest.toNat + j) % 2 ^ 19 ≠ 0
  held : r.held = true ↔ s < r.moved ∧ r.moved < n ∧ (dest.toNat + r.moved) % 2 ^ 19 = 0
  flag : r.dmaInterrupt = r.held
  copied : rd = true → ∀ j < r.moved, r.mem (dest + BitVec.ofNat 32 j) = card j
  finished : r.xferComplete = true → r.moved = n
  resumed : r.Resumed

variable {dest : BitVec 32} {rd : Bool} {n s : Nat}

theorem Engine.moveByte (hn : n < 2 ^ 32) (h : Engine card dest rd n s r) :
    Engine card dest rd n s (r.moveByte card) := by
  unfold SdhT.moveByte
  split
  · exact h
  · next hgo =>
    rw [not_or, Bool.not_eq_true, h.total, Nat.not_le] at hgo
    obtain ⟨hfree, hlt⟩ := hgo
    have hnext : r.sdmasa + 1#32 = dest + BitVec.ofNat 32 (r.moved + 1) := by
      rw [h.addr, BitVec.add_assoc, ← BitVec.ofNat_add]
    have hbound : (r.sdmasa + 1#32).toNat % r.boundary = (dest.toNat + (r.moved + 1)) % 2 ^ 19 := by
      rw [hnext, SdhT.boundary, h.bdary, BitVec.toNat_add, BitVec.toNat_ofNat]
      change _ % 2 ^ 19 = _
      omega
    have hnot : ¬ (s < r.moved ∧ r.moved < n ∧ (dest.toNat + r.moved) % 2 ^ 19 = 0) := fun hheld => by
      rw [h.held.2 hheld] at hfree
      cases hfree
    have hsince := h.since
    refine ⟨hnext, h.total, h.dir, h.bdary, Nat.le_succ_of_le hsince, hlt, ?_, ?_, ?_, ?_, ?_, h.resumed⟩
    · intro j hlo hhi
      rcases Nat.lt_succ_iff_lt_or_eq.1 hhi with hj | rfl
      · exact h.clear j hlo hj
      · exact fun hzero => hnot ⟨hlo, hlt, hzero⟩
    · simp only [decide_eq_true_eq, hbound, h.total]
      exact ⟨fun hs => ⟨Nat.lt_succ_of_le hsince, hs⟩, fun hs => hs.2⟩
    · simp only [h.flag, hfree, Bool.false_or]
    · intro hrd j hj
      rw [← h.dir] at hrd
      simp only [hrd, if_true]
      rcases Nat.lt_succ_iff_lt_or_eq.1 hj with hj | rfl
      · rw [Function.update_of_ne, h.copied (h.dir ▸ hrd) j hj]
        rw [h.addr, Ne, BitVec.add_right_inj]
        intro heq
        have := congrArg BitVec.toNat heq
        simp only [BitVec.toNat_ofNat] at this
        omega
      · rw [← h.addr, Function.update_self]
    · intro hdone
      have := h.finished hdone
      omega

theorem Engine.happens (hn : n < 2 ^ 32) (h : Engine card dest rd n s r) :
    Engine card dest rd n s (r.happens card es) := by
  refine SdhT.happens_keeps (fun r h => h.moveByte hn) (fun r e hne h => ?_) h
  cases e with
  | move n => exact absurd rfl (hne n)
  | response r01 r23 r45 r67 =>
    exact ⟨h.addr, h.total, h.dir, h.bdary, h.since, h.le, h.clear, h.held, h.flag, h.copied,
      h.finished, h.resumed⟩
  | complete =>
    simp only [SdhT.event]
    split
    · exact h
    · next hgo =>
      rw [not_or, h.total, Nat.not_lt] at hgo
      exact ⟨h.addr, h.total, h.dir, h.bdary, h.since, h.le, h.clear, h.held, h.flag, h.copied,
        fun _ => Nat.le_antisymm h.le hgo.2, h.resumed⟩
  | error bits =>
    exact ⟨h.addr, h.total, h.dir, h.bdary, h.since, h.le, h.clear, h.held, h.flag, h.copied,
      h.finished, h.resumed⟩

/-- A transfer that is held stays so. -/
theorem SdhT.happens_held (h : r.held = true) : (r.happens card es).held = true := by
  refine happens_keeps (P := fun r => r.held = true) (fun r h => ?_) (fun r e hne h => ?_) h
  · rw [moveByte, if_pos (.inl h)]
    exact h
  · cases e with
    | move n => exact absurd rfl (hne n)
    | response r01 r23 r45 r67 => exact h
    | complete => simp only [event]; split <;> exact h
    | error bits => exact h

/-- The boundary after the byte that a held transfer last went on from is where it is held. -/
theorem Engine.nextBoundary_eq (h : Engine card dest rd n s r) (hheld : r.held = true) :
    nextBoundary (dest + BitVec.ofNat 32 s) = r.sdmasa := by
  obtain ⟨hlt, -, hzero⟩ := h.held.1 hheld
  -- the first boundary after `s` is not passed, and the transfer is held at one
  have hfirst : ¬ s + (2 ^ 19 - (dest.toNat + s) % 2 ^ 19) < r.moved := by
    intro hpast
    refine h.clear _ (by omega) hpast ?_
    omega
  have hmask : nextBoundary (dest + BitVec.ofNat 32 s) =
      maskLow (dest + BitVec.ofNat 32 s) (BitVec.ofNat 32 (2 ^ 19)) + BitVec.ofNat 32 (2 ^ 19) := rfl
  rw [hmask, h.addr]
  apply BitVec.eq_of_toNat_eq
  rw [BitVec.toNat_add, maskLow_toNat (by decide), BitVec.toNat_add, BitVec.toNat_add]
  simp only [BitVec.toNat_ofNat]
  have hd := dest.isLt
  omega

/-- A held transfer that goes on at its own address. -/
theorem Engine.resume (h : Engine card dest rd n s r) (hheld : r.held = true) :
    Engine card dest rd n r.moved
      ((r.writeNormalIntStat (r.normalIntStat ||| 0x8#16)).writeSdmasa r.sdmasa) := by
  refine ⟨h.addr, h.total, h.dir, h.bdary, Nat.le_refl _, h.le, fun j hlo hhi => ?_, ?_, ?_, h.copied, ?_,
    ?_⟩
  · exact absurd hhi (Nat.not_lt.2 (Nat.le_of_lt hlo))
  · exact iff_of_false (by simp [SdhT.writeSdmasa]) fun hs => Nat.lt_irrefl _ hs.1
  · have hbit : (r.normalIntStat ||| 0x8#16).getLsbD 3 = true := by simp
    simp only [SdhT.writeSdmasa, SdhT.writeNormalIntStat, hbit, Bool.not_true, Bool.and_false]
  · intro hdone
    simp only [SdhT.writeSdmasa, SdhT.writeNormalIntStat, Bool.and_eq_true] at hdone
    exact h.finished hdone.1
  · simp only [SdhT.Resumed, SdhT.writeSdmasa, SdhT.writeNormalIntStat, hheld, if_true]
    intro p hp
    rcases List.mem_append.1 hp with hp | hp
    · exact h.resumed p hp
    · rw [List.mem_singleton.1 hp]

theorem SdhT.dataAt_error {evs : Nat → Fin 4 → List Event} {j k : Nat} (hjk : j ≤ k)
    (h : (r.dataAt card evs j).errorIntStat ≠ 0#16) : (r.dataAt card evs k).errorIntStat ≠ 0#16 := by
  induction hjk with
  | refl => exact h
  | step _ ih => exact happens_error (service_error (happens_error ih))

/-- One round: it ends at a transfer that is complete or has failed, and otherwise is the service of a
transfer that goes on in place. -/
theorem Engine.pollData (hn : n < 2 ^ 32) {evs : Fin 4 → List Event}
    (h : Engine card dest rd n s (r.happens card (evs 0))) :
    let c := r.happens card (evs 0)
    (c.xferComplete = true ∧
      pollData card evs (dest + BitVec.ofNat 32 s) r = (.inl 0, c)) ∨
    (c.xferComplete = false ∧ (c.happens card (evs 1)).errorIntStat ≠ 0#16 ∧
      pollData card evs (dest + BitVec.ofNat 32 s) r = (.inl (-1), c.happens card (evs 1))) ∨
    (c.xferComplete = false ∧ ∃ s', Engine card dest rd n s' (c.service card evs) ∧
      pollData card evs (dest + BitVec.ofNat 32 s) r =
        (.inr (dest + BitVec.ofNat 32 s'), c.service card evs)) := by
  intro c
  have h1 : Engine card dest rd n s (c.happens card (evs 1)) := h.happens hn
  have h2 : Engine card dest rd n s ((c.happens card (evs 1)).happens card (evs 2)) := h1.happens hn
  have h3 : Engine card dest rd n s (((c.happens card (evs 1)).happens card (evs 2)).happens card (evs 3)) :=
    h2.happens hn
  unfold Sdh.pollData SdhT.service
  cases hdone : c.xferComplete with
  | true => exact .inl ⟨rfl, if_pos hdone⟩
  | false =>
    refine .inr ?_
    have hgo : ¬ c.xferComplete = true := by simp [hdone]
    by_cases herr : (c.happens card (evs 1)).errInterrupt = true
    · refine .inl ⟨rfl, by simpa [SdhT.errInterrupt] using herr, ?_⟩
      dsimp only
      rw [if_neg hgo, if_pos herr]
    · refine .inr ⟨rfl, ?_⟩
      dsimp only
      by_cases hpause : ((c.happens card (evs 1)).happens card (evs 2)).dmaInterrupt = true
      · have hheld := @SdhT.happens_held card _ (evs 3) (h2.flag.symm.trans hpause)
        refine ⟨(((c.happens card (evs 1)).happens card (evs 2)).happens card (evs 3)).moved, ?_, ?_⟩
        · rw [if_pos hpause]
          exact h3.resume hheld
        · rw [if_neg hgo, if_neg herr, if_pos hpause, if_pos hpause, h3.nextBoundary_eq hheld, ← h3.addr]
      · refine ⟨s, ?_, ?_⟩
        · rw [if_neg hpause]
          exact h2
        · rw [if_neg hgo, if_neg herr, if_neg hpause, if_neg hpause]

/-- The loop: it keeps the transfer, and is over when the transfer is complete, if that happens without an
error within its rounds. -/
theorem Engine.waitData (hn : n < 2 ^ 32) {r₀ : SdhT} {evs : Nat → Fin 4 → List Event} (timeout k : Nat)
    (hr : r.happens card (evs k 0) = r₀.dataAt card evs k)
    (h : Engine card dest rd n s (r₀.dataAt card evs k)) :
    (∃ s', Engine card dest rd n s' (waitData card evs timeout k (dest + BitVec.ofNat 32 s) r).2) ∧
    ((∃ j, k ≤ j ∧ j ≤ k + timeout ∧ (r₀.dataAt card evs j).xferComplete = true ∧
      (r₀.dataAt card evs j).errorIntStat = 0#16) →
        (waitData card evs timeout k (dest + BitVec.ofNat 32 s) r).2.xferComplete = true) := by
  induction timeout generalizing k r s with
  | zero =>
    rw [Sdh.waitData]
    rcases @Engine.pollData _ _ _ _ _ _ hn (evs k) (hr ▸ h) with
      ⟨hdone, hpoll⟩ | ⟨hgo, herr, hpoll⟩ | ⟨hgo, s', hnext, hpoll⟩
    · rw [hpoll]
      exact ⟨⟨s, hr ▸ h⟩, fun _ => hdone⟩
    · rw [hpoll]
      refine ⟨⟨s, (hr ▸ h : Engine card dest rd n s _).happens hn⟩, ?_⟩
      rintro ⟨j, hlo, hhi, hdone, -⟩
      obtain rfl : j = k := by omega
      rw [hr, hdone] at hgo
      cases hgo
    · rw [hpoll]
      refine ⟨⟨s', hnext⟩, ?_⟩
      rintro ⟨j, hlo, hhi, hdone, -⟩
      obtain rfl : j = k := by omega
      rw [hr, hdone] at hgo
      cases hgo
  | succ timeout ih =>
    rw [Sdh.waitData]
    rcases @Engine.pollData _ _ _ _ _ _ hn (evs k) (hr ▸ h) with
      ⟨hdone, hpoll⟩ | ⟨hgo, herr, hpoll⟩ | ⟨hgo, s', hnext, hpoll⟩
    · rw [hpoll]
      exact ⟨⟨s, hr ▸ h⟩, fun _ => hdone⟩
    · rw [hpoll]
      refine ⟨⟨s, (hr ▸ h : Engine card dest rd n s _).happens hn⟩, ?_⟩
      rintro ⟨j, hlo, -, hdone, hno⟩
      rcases Nat.eq_or_lt_of_le hlo with rfl | hlt
      · rw [hr, hdone] at hgo
        cases hgo
      · rw [hr] at herr
        exact absurd hno (SdhT.dataAt_error hlt (SdhT.happens_error (SdhT.service_error herr)))
    · rw [hpoll]
      have hr' : ((r.happens card (evs k 0)).service card (evs k)).happens card (evs (k + 1) 0) =
          r₀.dataAt card evs (k + 1) := by rw [hr]; rfl
      obtain ⟨hkeeps, hend⟩ := ih (k + 1) hr' (hr' ▸ hnext.happens hn)
      refine ⟨hkeeps, ?_⟩
      rintro ⟨j, hlo, hhi, hdone, hno⟩
      refine hend ⟨j, ?_, by omega, hdone, hno⟩
      rcases Nat.eq_or_lt_of_le hlo with rfl | hlt
      · rw [hr, hdone] at hgo
        cases hgo
      · exact hlt

theorem MmcData.asked_lt (d : MmcData) : d.asked < 2 ^ 32 := by
  have hcount := Nat.mod_lt d.blocks.toNat (show 0 < 2 ^ 16 by decide)
  have hsize := Nat.mod_lt d.blocksize.toNat (show 0 < 2 ^ 12 by decide)
  rw [asked]
  split
  · exact Nat.lt_of_le_of_lt (Nat.mul_le_mul (Nat.le_of_lt hcount) (Nat.le_of_lt hsize)) (by decide)
  · exact Nat.lt_trans hsize (by decide)

/-- A command with data begins a transfer of what the registers ask for. -/
theorem startCommand_engine (d : MmcData) :
    Engine card d.dest (dirRead d.flags) d.asked 0 (startCommand cmd (some d) r) := by
  have hbit : (((cmd.cmdidx &&& 0xFF#16) <<< 8) |||
      (cmdFlags cmd.respType (some d) &&& 0xFF#16)).getLsbD 5 = true := by
    simp [cmdFlags]
  have hmode : ∀ a b : BitVec 16, (0x2#16 ||| a ||| b ||| 0x1#16).getLsbD 4 =
      (a.getLsbD 4 || b.getLsbD 4) := by
    intro a b
    simp
  have hmulti : ∀ a b : BitVec 16, (0x2#16 ||| a ||| b ||| 0x1#16).getLsbD 5 =
      (a.getLsbD 5 || b.getLsbD 5) := by
    intro a b
    simp
  have hread : (0x2#16 ||| (if d.blocks.toNat > 1 then 0x20#16 else 0#16) |||
      (if dirRead d.flags then 0x10#16 else 0#16) ||| 0x1#16).getLsbD 4 = dirRead d.flags := by
    rw [hmode]
    split <;> cases dirRead d.flags <;> rfl
  have hblocks : (0x2#16 ||| (if d.blocks.toNat > 1 then 0x20#16 else 0#16) |||
      (if dirRead d.flags then 0x10#16 else 0#16) ||| 0x1#16).getLsbD 5 = decide (d.blocks.toNat > 1) := by
    rw [hmulti]
    split
    · next h => cases dirRead d.flags <;> simp [h]
    · next h => cases dirRead d.flags <;> simp [h]
  unfold startCommand SdhT.writeCmd
  dsimp only
  rw [if_pos hbit]
  refine ⟨?_, ?_, hread, rfl, Nat.le_refl _, Nat.zero_le _, fun j _ hj => absurd hj (Nat.not_lt_zero _), ?_,
    ?_, fun _ j hj => absurd hj (Nat.not_lt_zero _), ?_, fun p hp => absurd hp List.not_mem_nil⟩
  · exact (BitVec.add_zero d.dest).symm
  · simp only [SdhT.asked, setData, hblocks, decide_eq_true_eq, MmcData.asked, BitVec.toNat_setWidth]
  · exact iff_of_false (by simp) fun hs => Nat.lt_irrefl _ hs.1
  · simp [setData, SdhT.writeSdmasa, SdhT.writeErrorIntStat, SdhT.writeNormalIntStat]
  · intro hdone
    simp [setData, SdhT.writeSdmasa, SdhT.writeErrorIntStat, SdhT.writeNormalIntStat] at hdone

/-- The state that a command with data ends in: a transfer that was complete without an error has moved all
its bytes. -/
theorem nuSdhSendCommand_data {d : MmcData} :
    let out := (nuSdhSendCommand card script cmd (some d) resp r).2.2
    (r.Resumed → out.Resumed) ∧ ∀ r₁, CmdPhase card script cmd (some d) r r₁ → DataPhase card script r₁ →
      out.moved = d.asked ∧ out.total = d.asked ∧
        (dirRead d.flags = true → ∀ j < d.asked, out.mem (d.dest + BitVec.ofNat 32 j) = card j) := by
  intro out
  have hn := d.asked_lt
  have hstart : Engine card d.dest (dirRead d.flags) d.asked 0 (startCommand cmd (some d) r) :=
    startCommand_engine d
  have hcmdAt : ∀ i, Engine card d.dest (dirRead d.flags) d.asked 0
      ((startCommand cmd (some d) r).cmdAt card script.cmd i) := by
    intro i
    induction i with
    | zero => exact hstart.happens hn
    | succ i ih => exact ih.happens hn
  have hphase : ∀ r₁, CmdPhase card script cmd (some d) r r₁ →
      (∃ s', Engine card d.dest (dirRead d.flags) d.asked s' (transferred card script (some d) r₁)) ∧
      (DataPhase card script r₁ → (transferred card script (some d) r₁).xferComplete = true) := by
    rintro r₁ ⟨-, i, -, rfl, -⟩
    have hzero : d.dest = d.dest + BitVec.ofNat 32 0 := (BitVec.add_zero _).symm
    have hloop := @Engine.waitData card _ _ _ _ _ hn ((startCommand cmd (some d) r).cmdAt card script.cmd i)
      script.data 1000000 0 rfl ((hcmdAt i).happens hn)
    rw [← hzero] at hloop
    refine ⟨hloop.1, ?_⟩
    rintro ⟨k, hk, hdone, hno⟩
    exact hloop.2 ⟨k, Nat.zero_le _, by omega, hdone, hno⟩
  have hout : ∀ r₁, CmdPhase card script cmd (some d) r r₁ →
      out = (transferred card script (some d) r₁).cleared (respMask cmd.respType (some d)) := fun r₁ h₁ =>
    congrArg (·.2.2) (nuSdhSendCommand_ok h₁)
  constructor
  · intro hres
    by_cases hex : ∃ r₁, CmdPhase card script cmd (some d) r r₁
    · obtain ⟨r₁, h₁⟩ := hex
      obtain ⟨⟨s', hengine⟩, -⟩ := hphase r₁ h₁
      rw [hout r₁ h₁, SdhT.Resumed, SdhT.cleared_resumes]
      exact hengine.resumed
    · have hend := (@nuSdhSendCommand_fails _ _ _ _ _ resp hex).2
      change out = _ ∨ out = _ at hend
      rcases hend with hend | hend
      · rw [hend]
        exact hres
      · rw [hend]
        exact (waitResponse_keeps (fun r es h => Engine.happens hn h) hstart).resumed
  · intro r₁ h₁ hdata
    obtain ⟨⟨s', hengine⟩, hdone⟩ := hphase r₁ h₁
    have hall := hengine.finished (hdone hdata)
    rw [hout r₁ h₁, SdhT.cleared_moved, SdhT.cleared_total, SdhT.cleared_mem]
    exact ⟨hall, hengine.total, fun hrd j hj => hengine.copied hrd j (hall ▸ hj)⟩

/-! ## Commands without data -/

/-- A transfer that is over is left as it is. -/
def SdhT.Kept (r r' : SdhT) : Prop :=
  r'.resumes = r.resumes ∧
    (r.total ≤ r.moved → r'.mem = r.mem ∧ r'.moved = r.moved ∧ r'.total ≤ r'.moved)

theorem SdhT.Kept.happens {r₀ : SdhT} (h : r₀.Kept r) : r₀.Kept (r.happens card es) := by
  refine happens_keeps (fun r h => ?_) (fun r e hne h => ?_) h
  · unfold moveByte
    split
    · exact h
    · next hgo => exact ⟨h.1, fun hover => absurd (.inr (h.2 hover).2.2) hgo⟩
  · cases e with
    | move n => exact absurd rfl (hne n)
    | response r01 r23 r45 r67 => exact h
    | complete => simp only [event]; split <;> exact h
    | error bits => exact h

theorem SdhT.Kept.reset {r₀ : SdhT} (h : r₀.Kept r) : r₀.Kept r.reset :=
  ⟨h.1, fun hover => ⟨(h.2 hover).1, (h.2 hover).2.1, Nat.le_refl _⟩⟩

/-- A command without data leaves a transfer that is over as it is. -/
theorem nuSdhSendCommand_plain : r.Kept (nuSdhSendCommand card script cmd none resp r).2.2 := by
  have hbit : (((cmd.cmdidx &&& 0xFF#16) <<< 8) |||
      (cmdFlags cmd.respType none &&& 0xFF#16)).getLsbD 5 = false := by
    have hflags : (cmdFlags cmd.respType none).getLsbD 5 = false := by
      unfold cmdFlags
      cases rspPresent cmd.respType <;> cases rsp136 cmd.respType <;> cases rspBusy cmd.respType <;>
        cases rspCrc cmd.respType <;> cases rspOpcode cmd.respType <;> rfl
    rw [BitVec.getLsbD_or, BitVec.getLsbD_and, hflags]
    simp
  have hrefl : r.Kept r := ⟨rfl, fun hover => ⟨rfl, rfl, hover⟩⟩
  have hstart : r.Kept (startCommand cmd none r) := by
    unfold startCommand SdhT.writeCmd
    dsimp only
    rw [if_neg (by rw [hbit]; decide)]
    split <;> exact ⟨rfl, fun hover => ⟨rfl, rfl, hover⟩⟩
  by_cases hex : ∃ r₁, CmdPhase card script cmd none r r₁
  · obtain ⟨r₁, h₁⟩ := hex
    rw [nuSdhSendCommand_ok h₁, SdhT.Kept, SdhT.cleared_moved, SdhT.cleared_total, SdhT.cleared_mem,
      SdhT.cleared_resumes]
    obtain ⟨-, i, -, rfl, -⟩ := h₁
    have hcmdAt : ∀ i, r.Kept ((startCommand cmd none r).cmdAt card script.cmd i) := by
      intro i
      induction i with
      | zero => exact hstart.happens
      | succ i ih => exact ih.happens
    exact hcmdAt i
  · rcases (@nuSdhSendCommand_fails _ _ _ _ _ resp hex).2 with hout | hout
    · rw [hout]
      exact hrefl.reset
    · rw [hout]
      exact (waitResponse_keeps (fun r' es h => SdhT.Kept.happens h) hstart).reset

/-! ## Requests -/

/-- The controller when the command of a request is sent. -/
def beginning (cachebuf : BitVec 32) (mmc : Option Bool) (data : Option RtMmcsdData) (r : SdhT) : SdhT :=
  match data with
  | some d => prepare cachebuf d (setCard mmc r)
  | none => setCard mmc r

/-- The command phase of a request completes, and leaves the controller as `r₁`. -/
def CommandDone (card : Nat → Byte) (cachebuf : BitVec 32) (mmc : Option Bool) (script : Script)
    (c : RtMmcsdCmd) (data : Option RtMmcsdData) (r r₁ : SdhT) : Prop :=
  CmdPhase card script (mmcCmd c) (data.map (mmcData cachebuf)) (beginning cachebuf mmc data r) r₁

/-- The error of the command is 0 exactly when both phases complete, a read with the error 0 then has the
card's bytes in its buffer, and transfers go on where they were held. The data phase of a write is the one of the
bytes that the registers ask for, which may be fewer than the request's. -/
structure Right (card : Nat → Byte) (cachebuf : BitVec 32) (mmc : Option Bool) (script : Script)
    (c : RtMmcsdCmd) (data : Option RtMmcsdData) (r : SdhT) (reply : Reply) (r' : SdhT) : Prop where
  err : reply.err = 0 ↔ ∃ r₁, CommandDone card cachebuf mmc script c data r r₁ ∧
    (data.isSome → DataPhase card script r₁)
  buffer : reply.err = 0 → ∀ d, data = some d → dirRead d.flags = true →
    r'.moved = d.size ∧ ∀ k < d.size, r'.mem (d.buf + BitVec.ofNat 32 k) = card k
  resumed : r.Resumed → r'.Resumed

/-- After a command phase that completes the data phase completes too, and the registers hold the size of
what is read. Of a write only the data phase that is started counts: where the registers do not hold its size,
that phase is for fewer bytes. -/
def Holds (card : Nat → Byte) (cachebuf : BitVec 32) (mmc : Option Bool) (script : Script)
    (c : RtMmcsdCmd) (data : Option RtMmcsdData) (r : SdhT) : Prop :=
  ∀ r₁, CommandDone card cachebuf mmc script c data r r₁ → ∀ d, data = some d →
    DataPhase card script r₁ ∧ (dirRead d.flags = true → (mmcData cachebuf d).asked = d.size)

variable {cachebuf : BitVec 32} {mmc : Option Bool} {c : RtMmcsdCmd} {d : RtMmcsdData}

theorem setCard_resumes : (setCard mmc r).resumes = r.resumes := by
  cases mmc <;> rfl

/-- A request with data. -/
theorem requestData_spec :
    let out := requestData card cachebuf script c d (setCard mmc r)
    (out.1.err = 0 ↔ ∃ r₁, CommandDone card cachebuf mmc script c (some d) r r₁) ∧
    (r.Resumed → out.2.Resumed) ∧
    ∀ r₁, CommandDone card cachebuf mmc script c (some d) r r₁ → DataPhase card script r₁ →
      out.2.moved = (mmcData cachebuf d).asked ∧ out.2.total = (mmcData cachebuf d).asked ∧
        (dirRead d.flags = true → (mmcData cachebuf d).asked = d.size →
          ∀ k < d.size, out.2.mem (d.buf + BitVec.ofNat 32 k) = card k) := by
  intro out
  have hsend := @nuSdhSendCommand_data card (prepare cachebuf d (setCard mmc r)) script (mmcCmd c) noResponse (mmcData cachebuf d)
  have hout : out.2 = (if out.1.err = 0 ∧ d.isNonaligned ∧ dirRead d.flags then
      { (nuSdhSendCommand card script (mmcCmd c) (some (mmcData cachebuf d)) noResponse
        (prepare cachebuf d (setCard mmc r))).2.2 with
        mem := memcpy d.buf cachebuf d.size (nuSdhSendCommand card script (mmcCmd c)
          (some (mmcData cachebuf d)) noResponse (prepare cachebuf d (setCard mmc r))).2.2.mem }
      else (nuSdhSendCommand card script (mmcCmd c) (some (mmcData cachebuf d)) noResponse
        (prepare cachebuf d (setCard mmc r))).2.2) := rfl
  have herr : out.1.err = 0 ↔ ∃ r₁, CommandDone card cachebuf mmc script c (some d) r r₁ :=
    nuSdhSendCommand_eq_zero_iff
  refine ⟨herr, fun hres => ?_, fun r₁ h₁ hdata => ?_⟩
  · have hprepared : (prepare cachebuf d (setCard mmc r)).Resumed := by
      have hres : (setCard mmc r).Resumed := by rwa [SdhT.Resumed, setCard_resumes]
      unfold prepare
      split <;> exact hres
    rw [hout]
    split <;> exact hsend.1 hprepared
  · obtain ⟨hmoved, htotal, hmem⟩ := hsend.2 r₁ h₁ hdata
    have hzero := herr.2 ⟨r₁, h₁⟩
    rw [hout]
    split
    · next hcopy =>
      refine ⟨hmoved, htotal, fun hrd hsize k hk => ?_⟩
      have hdest : (mmcData cachebuf d).dest = cachebuf := if_pos hcopy.2.1
      have hlt : d.size < 2 ^ 32 := (d.blksize * d.blks).isLt
      have hoff : d.buf + BitVec.ofNat 32 k - d.buf = BitVec.ofNat 32 k := by
        rw [BitVec.add_comm, BitVec.add_sub_cancel]
      have hin : InRange (d.buf + BitVec.ofNat 32 k) d.buf d.size := by
        rw [InRange, hoff, BitVec.toNat_ofNat, Nat.mod_eq_of_lt (Nat.lt_trans hk hlt)]
        exact hk
      change memcpy d.buf cachebuf d.size _ (d.buf + BitVec.ofNat 32 k) = card k
      have hread := hmem hrd k (hsize ▸ hk)
      rw [hdest] at hread
      rw [memcpy, if_pos hin, hoff]
      exact hread
    · next hno =>
      refine ⟨hmoved, htotal, fun hrd hsize k hk => ?_⟩
      have hdest : (mmcData cachebuf d).dest = d.buf := if_neg fun hnon => hno ⟨hzero, hnon, hrd⟩
      have hread := hmem hrd k (hsize ▸ hk)
      rw [hdest] at hread
      exact hread

/-- A request without data. -/
theorem requestPlain_spec {stopScript : Script} :
    ((requestPlain card stopScript c r).1.err = 0 ↔
      ∃ r₁, CmdPhase card stopScript (mmcCmd c) none r r₁) ∧ r.Kept (requestPlain card stopScript c r).2 :=
  ⟨nuSdhSendCommand_eq_zero_iff, nuSdhSendCommand_plain⟩

theorem right_data_iff {reply : Reply} {r₂ r' : SdhT}
    (hout : requestData card cachebuf script c d (setCard mmc r) = (reply, r₂)) (hkept : r₂.Kept r') :
    Right card cachebuf mmc script c (some d) r reply r' ↔
      Holds card cachebuf mmc script c (some d) r := by
  obtain ⟨herr, hres, hdone⟩ := @requestData_spec card r script cachebuf mmc c d
  rw [hout] at herr hres hdone
  dsimp only at herr hres hdone
  constructor
  · rintro hright r₁ h₁ d' ⟨⟩
    have hzero := herr.2 ⟨r₁, h₁⟩
    obtain ⟨r₁', h₁', hdata⟩ := hright.err.1 hzero
    rw [CmdPhase.unique h₁ h₁']
    have hdata := hdata rfl
    refine ⟨hdata, fun hrd => ?_⟩
    obtain ⟨hmoved, htotal, -⟩ := hdone r₁' h₁' hdata
    have hsame := (hkept.2 (by rw [hmoved, htotal])).2.1
    rw [← hmoved, ← hsame]
    exact (hright.buffer hzero d rfl hrd).1
  · intro hholds
    refine ⟨herr.trans ?_, fun hzero d' hd' hrd => ?_, fun h p hp => ?_⟩
    · exact exists_congr fun r₁ => ⟨fun h => ⟨h, fun _ => (hholds r₁ h d rfl).1⟩, fun h => h.1⟩
    · obtain rfl := Option.some.inj hd'
      obtain ⟨r₁, h₁⟩ := herr.1 hzero
      obtain ⟨hdata, hsize⟩ := hholds r₁ h₁ _ rfl
      obtain ⟨hmoved, htotal, hmem⟩ := hdone r₁ h₁ hdata
      obtain ⟨hsame, hstill, -⟩ := hkept.2 (by rw [hmoved, htotal])
      rw [hstill, hmoved, hsame]
      exact ⟨hsize hrd, hmem hrd (hsize hrd)⟩
    · rw [hkept.1] at hp
      exact hres h p hp

theorem right_plain {reply : Reply} {r₂ r' : SdhT}
    (hout : requestPlain card script c (setCard mmc r) = (reply, r₂)) (hkept : r₂.Kept r') :
    Right card cachebuf mmc script c none r reply r' := by
  obtain ⟨herr, hkept'⟩ := @requestPlain_spec card (setCard mmc r) c script
  rw [hout] at herr hkept'
  dsimp only at herr hkept'
  refine ⟨herr.trans (exists_congr fun r₁ => ⟨fun h => ⟨h, fun hnone => by cases hnone⟩, fun h => h.1⟩), ?_,
    fun h p hp => ?_⟩
  · rintro - d' ⟨⟩
  · rw [hkept.1, hkept'.1, setCard_resumes] at hp
    exact h p hp

/-- A request with data whose size the driver's buffer has. -/
theorem nuSdhRequest_data {stopScript : Script} {stop : Option RtMmcsdCmd} (hsize : d.size ≤ sdhBuffSize) :
    nuSdhRequest card cachebuf mmc script stopScript ⟨some c, some d, stop⟩ r =
      let out := requestData card cachebuf script c d (setCard mmc r)
      some (match stop with
        | none => (some out.1, none, out.2)
        | some c => (some out.1, some (requestPlain card stopScript c out.2).1,
          (requestPlain card stopScript c out.2).2)) := by
  unfold nuSdhRequest
  dsimp only
  rw [if_pos hsize]
  cases stop <;> rfl

/-- The controller after its reset. -/
def idle : SdhT where
  sdmasa := 0#32
  xferBlockSize := 0#12
  sdmaBufBdary := 0#3
  blockCnt := 0#16
  argument := 0#32
  xferMode := 0#16
  cmd := 0#16
  resp01 := 0#32
  resp23 := 0#32
  resp45 := 0#32
  resp67 := 0#32
  dmaSel := 0#2
  toutCnt := 0#4
  cardIsEmmc := false
  disableDataCrcChk := false
  cmdComplete := false
  xferComplete := false
  dmaInterrupt := false
  errorIntStat := 0#16
  moved := 0
  total := 0
  held := false
  mem := fun _ => 0#8
  resumes := []

/-- The response comes at once and the data has a CRC error. -/
def crcError : Script where
  pstate _ := 0#32
  cmd _ := [.response 0x900#32 0#32 0#32 0#32]
  data _ _ := [.error 0x20#16]

/-- A read of one block. -/
def readBlock : RtMmcsdData := ⟨512#32, 1#32, 0x80000000#32, 2#32⟩

end NumakerMA35D1.Sdh

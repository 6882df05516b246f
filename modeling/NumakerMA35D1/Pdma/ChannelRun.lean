import NumakerMA35D1.Pdma.ChannelUse
import NumakerMA35D1.Pdma.SgtblRun

/-!
# Channels and their users over runs

`pdmaChannels_run`: in every run of calls and interrupts, with the interrupt handler of each module
cut where it calls out and any calls in between, a channel handed out was not allocated, a channel
freed can be allocated again, an allocation for a known peripheral fails only when every channel is
allocated, and the handler calls only callbacks that the channel's allocation has registered.

Reference: `drv_pdma.c`.
-/

namespace NumakerMA35D1.Pdma

open Embedded

/-! ## The system -/

/-- A call of the driver. -/
inductive Request
  | allocate (i32PeripType : BitVec 32)
  | free (i32ChannID : BitVec 32)
  | terminate (i32ChannID : BitVec 32)
  | memctrlSet (i32ChannID : BitVec 32) (eMemCtrl : NuPdmaMemctrl)
  | filteringSet (i32ChannID u32EventFilter : BitVec 32)
  | callbackRegister (i32ChannID : BitVec 32) (m_eCBType : NuPdmaCbtype) (psChnCb : Option Nat)
  | transfer (m : Malloc)
    (i32ChannID u32DataWidth u32AddrSrc u32AddrDst u32TransferCnt u32IdleTimeout_us : BitVec 32)

/-- What a call returns and leaves. -/
def request (d : Driver) : Request → Except Halt (Int × Driver)
  | .allocate ty => do
    let (ch, d) ← channelAllocate d ty
    return (ch.toInt, d)
  | .free ch => do
    let (ret, pdma) ← nuPdmaChannelFree d.pdma ch
    return (ret, { d with pdma })
  | .terminate ch => do
    let pdma ← nuPdmaChannelTerminate d.pdma ch
    return (RT_EOK, { d with pdma })
  | .memctrlSet ch m => do
    let (ret, pdma) ← nuPdmaChannelMemctrlSet d.pdma ch m
    return (ret, { d with pdma })
  | .filteringSet ch f => do
    let (ret, pdma) ← nuPdmaFilteringSet d.pdma ch f
    return (ret, { d with pdma })
  | .callbackRegister ch ty cb => callbackRegister d ch ty cb
  | .transfer m ch w sa da cnt t => do
    let (ret, pdma) ← nuPdmaTransfer m d.pdma ch w sa da cnt t
    return (ret, { d with pdma })

/-- The callbacks that an allocation has registered. -/
abbrev Registered := NuPdmaCbtype → Option Nat

/-- The allocations after a call that returned `ret`: a channel handed out has no callback yet, a
channel freed is allocated no more, a callback registered is the allocation's. -/
def granted (owner : Nat → Option Registered) : Request → Int → Nat → Option Registered
  | .allocate _, ret =>
    if 0 ≤ ret then Function.update owner ret.toNat (some fun _ => none) else owner
  | .free ch, ret => if ret = RT_EOK then Function.update owner ch.toNat none else owner
  | .callbackRegister ch ty cb, ret =>
    if ret = RT_EOK then
      Function.update owner ch.toNat ((owner ch.toNat).map fun r => Function.update r ty cb)
    else owner
  | _, _ => owner

/-- The driver, the handlers at work and the allocations that callers hold. -/
structure System where
  driver : Driver
  isr : Nat → Option Isr
  owner : Nat → Option Registered

/-- The system before the first call. -/
def System.reset : System := ⟨.reset, fun _ => none, fun _ => none⟩

/-- What happens in a step. -/
inductive Label
  | request (r : Request) (ret : Int)
  | enter (module_id : Nat) (sts : IntStatus)
  | serve (module_id : Nat) (calls : List CallbackCall)
  | resume (module_id : Nat)
  | leave (module_id : Nat)

/-- The steps of the system. A call may come at any time, from a thread or from a callback. -/
inductive Step : System → Label → System → Prop
  | request {s : System} {r : Request} {ret : Int} {d : Driver}
    (hret : request s.driver r = .ok (ret, d)) :
    Step s (.request r ret) { s with driver := d, owner := granted s.owner r ret }
  | enter {s : System} {m : Nat} {sts : IntStatus} (hm : m < PDMA_CNT) (hidle : s.isr m = none) :
    Step s (.enter m sts)
      { s with isr := Function.update s.isr m (some (nuPdmaIsrEnter (nuPdmaArr m) sts)) }
  | serve {s : System} {m : Nat} {calls : List CallbackCall} {isr isr' : Isr} (hisr : s.isr m = some isr)
    (hidle : isr.serving = none) (hserve : nuPdmaIsrServe s.driver isr = some (calls, isr')) :
    Step s (.serve m calls) { s with isr := Function.update s.isr m (some isr') }
  | resume {s : System} {m i : Nat} {isr isr' : Isr} {d : Driver} (hisr : s.isr m = some isr)
    (hserving : isr.serving = some i) (hresume : nuPdmaIsrResume s.driver isr i = .ok (d, isr')) :
    Step s (.resume m) { s with driver := d, isr := Function.update s.isr m (some isr') }
  | leave {s : System} {m : Nat} {isr : Isr} (hisr : s.isr m = some isr)
    (hidle : isr.serving = none) (hserve : nuPdmaIsrServe s.driver isr = none) :
    Step s (.leave m) { s with isr := Function.update s.isr m none }

/-! ## Specification -/

/-- The channels of all modules. Reference: `drv_pdma.c:57 NU_PDMA_CH_MAX`. -/
def NU_PDMA_CH_MAX : Nat := PDMA_CNT * PDMA_CH_MAX

/-- A peripheral that the driver knows. Reference: `drv_pdma.c:248 nu_pdma_peripheral_set`. -/
def KnownPeripheral (ty : BitVec 32) : Prop := ∃ periph ∈ gNuPdmaPeripheralCtlPool, periph.1 = ty

/-- Allocations for a peripheral come to a channel. -/
def CanGet (s : System) (ty : BitVec 32) (ch : Nat) : Prop :=
  ∃ labels s₁ s₂, Run Step s labels s₁ ∧ (∀ l ∈ labels, ∃ ret, l = .request (.allocate ty) ret) ∧
    Step s₁ (.request (.allocate ty) ch) s₂

/-- Channels are handed out to one user at a time and interrupts reach that user. -/
structure ChannelsRight (s : System) : Prop where
  grants : ∀ {ty ret s'}, Step s (.request (.allocate ty) ret) s' → 0 ≤ ret →
    ret.toNat < NU_PDMA_CH_MAX ∧ s.owner ret.toNat = none
  frees : ∀ {ch : BitVec 32}, s.owner ch.toNat ≠ none → ∃ s', Step s (.request (.free ch) RT_EOK) s'
  again : ∀ {ch s' ty}, Step s (.request (.free ch) RT_EOK) s' → KnownPeripheral ty →
    CanGet s' ty ch.toNat
  fails : ∀ {ty}, KnownPeripheral ty → ∃ ret s', Step s (.request (.allocate ty) ret) s' ∧
    (ret < 0 → ∀ ch < NU_PDMA_CH_MAX, s.owner ch ≠ none)
  calls : ∀ {m calls s'}, Step s (.serve m calls) s' → ∀ call ∈ calls,
    ∃ r, s.owner call.ch = some r ∧ r call.m_eCBType = some call.m_pvUserData

/-! ## Free channels -/

/-- Whether a channel's bit is set. -/
def inUse (s : NuPdma) (ch : Nat) : Bool :=
  (s.nuPdmaChnMaskArr (ch / PDMA_CH_MAX)).getLsbD (ch % PDMA_CH_MAX)

section

variable {s s' : NuPdma} {d d' : Driver} {c ty : BitVec 32} {ch : Nat} {ret : Int}

/-- The driver's test of a channel's bit. -/
theorem check_eq (hc : c.toNat < NU_PDMA_CH_MAX) :
    nuPdmaCheckIsNonallocated s c = .ok (!inUse s c.toNat) := by
  have hlt : c.toNat / PDMA_CH_MAX < PDMA_CNT := Nat.div_lt_of_lt_mul (by rwa [Nat.mul_comm])
  rw [nuPdmaCheckIsNonallocated, if_pos hlt]
  rfl

theorem inUse_module {j i : Nat} (hi : i < PDMA_CH_MAX) :
    inUse s (i + j * PDMA_CH_MAX) = (s.nuPdmaChnMaskArr j).getLsbD i := by
  rw [inUse, Nat.add_mul_div_right _ _ (by decide), Nat.div_eq_of_lt hi, Nat.zero_add,
    Nat.add_mul_mod_self_right, Nat.mod_eq_of_lt hi]

theorem exists_module (h : ch < NU_PDMA_CH_MAX) :
    ∃ j i, (j = 0 ∨ j = 1) ∧ i < PDMA_CH_MAX ∧ ch = i + j * PDMA_CH_MAX := by
  refine ⟨ch / PDMA_CH_MAX, ch % PDMA_CH_MAX, ?_, Nat.mod_lt _ (by decide), ?_⟩
  · have hdiv : ch / 10 < 2 := Nat.div_lt_of_lt_mul h
    have hle : ch / 10 = 0 ∨ ch / 10 = 1 := by omega
    exact hle
  · rw [Nat.mul_comm]
    exact (Nat.mod_add_div ch _).symm

/-- The channels of a module before its first zero bit are in use. -/
theorem inUse_of_lt {j i : Nat} (hlt : i < nuCto (s.nuPdmaChnMaskArr j)) (hi : i < PDMA_CH_MAX) :
    inUse s (i + j * PDMA_CH_MAX) = true := by
  rw [inUse_module hi]
  by_contra hbit
  have hle := nuCto_le (lt_of_lt_of_le hi (by decide)) (Bool.eq_false_iff.2 hbit)
  exact absurd hlt (not_lt.2 hle)

/-- The channel found is free. -/
theorem freeChannel_some (h : freeChannel s (List.range PDMA_CNT) = some ch) :
    ch < NU_PDMA_CH_MAX ∧ inUse s ch = false := by
  have hmodule : ∀ j, nuCto (s.nuPdmaChnMaskArr j) < PDMA_CH_MAX →
      inUse s (nuCto (s.nuPdmaChnMaskArr j) + j * PDMA_CH_MAX) = false := by
    intro j hj
    rw [inUse_module hj]
    exact getLsbD_nuCto (lt_of_lt_of_le hj (by decide))
  have hrange : List.range PDMA_CNT = [0, 1] := rfl
  rw [hrange, freeChannel] at h
  split at h
  · next h0 =>
    cases h
    exact ⟨lt_of_lt_of_le h0 (by decide), hmodule 0 h0⟩
  · rw [freeChannel] at h
    split at h
    · next h1 =>
      cases h
      exact ⟨Nat.add_lt_add_right h1 _, hmodule 1 h1⟩
    · cases h

/-- The channels before the one found are in use. -/
theorem freeChannel_first (h : freeChannel s (List.range PDMA_CNT) = some ch) {b : Nat}
    (hb : b < ch) : inUse s b = true := by
  obtain ⟨j, i, hj, hi, rfl⟩ := exists_module (hb.trans (freeChannel_some h).1)
  have hrange : List.range PDMA_CNT = [0, 1] := rfl
  rw [hrange, freeChannel] at h
  split at h
  · cases h
    rcases hj with rfl | rfl
    · exact inUse_of_lt (by simpa using hb) hi
    · next h0 =>
      have hlt : nuCto (s.nuPdmaChnMaskArr 0) < 10 := h0
      have hten : PDMA_CH_MAX = 10 := rfl
      omega
  · next h0 =>
    rw [freeChannel] at h
    split at h
    · cases h
      rcases hj with rfl | rfl
      · exact inUse_of_lt (lt_of_lt_of_le hi (not_lt.1 h0)) hi
      · exact inUse_of_lt (Nat.lt_of_add_lt_add_right hb) hi
    · cases h

/-- Where none is found every channel is in use. -/
theorem freeChannel_none (h : freeChannel s (List.range PDMA_CNT) = none)
    (hch : ch < NU_PDMA_CH_MAX) : inUse s ch = true := by
  have hrange : List.range PDMA_CNT = [0, 1] := rfl
  rw [hrange, freeChannel] at h
  split at h
  · cases h
  · next h0 =>
    rw [freeChannel] at h
    split at h
    · cases h
    · next h1 =>
      obtain ⟨j, i, rfl | rfl, hi, rfl⟩ := exists_module hch
      · exact inUse_of_lt (lt_of_lt_of_le hi (not_lt.1 h0)) hi
      · exact inUse_of_lt (lt_of_lt_of_le hi (not_lt.1 h1)) hi

/-! ## What a call does -/

/-- The callbacks of the channels are as before, but those of one channel. -/
structure Took (d : Driver) (ch : Nat) (d' : Driver) : Prop where
  inited : d'.pdma.nuPdmaInited = d.pdma.nuPdmaInited
  inUse : ∀ c, inUse d'.pdma c = (inUse d.pdma c || decide (c = ch))
  callback : ∀ c ty, d'.callback c ty = if c = ch then none else d.callback c ty

/-- The users of the channels are as before, but one channel has none. -/
structure Gave (d : Driver) (ch : Nat) (d' : Driver) : Prop where
  inited : d'.pdma.nuPdmaInited = d.pdma.nuPdmaInited
  inUse : ∀ c, inUse d'.pdma c = (inUse d.pdma c && decide (c ≠ ch))
  callback : ∀ c ty, d'.callback c ty = d.callback c ty

/-- The channels in use are as before, and the callbacks but one. -/
structure Registers (d : Driver) (ch : Nat) (ty : NuPdmaCbtype) (cb : Option Nat) (d' : Driver) :
    Prop where
  inited : d'.pdma.nuPdmaInited = d.pdma.nuPdmaInited
  inUse : ∀ c, inUse d'.pdma c = inUse d.pdma c
  callback : ∀ c, d'.callback c = if c = ch then Function.update (d.callback c) ty cb else d.callback c

/-- The users of the channels are as before. -/
structure SameUsers (d d' : Driver) : Prop where
  inited : d'.pdma.nuPdmaInited = d.pdma.nuPdmaInited
  inUse : ∀ c, Pdma.inUse d'.pdma c = Pdma.inUse d.pdma c
  callback : ∀ c ty, d'.callback c ty = d.callback c ty

theorem SameUse.users {pdma : NuPdma} (h : SameUse d.pdma pdma) : SameUsers d { d with pdma } where
  inited := h.inited
  inUse c := by rw [inUse, inUse, h.mask]
  callback c ty := by
    cases ty with
    | event => exact h.event c
    | trigger => rfl
    | disable => rfl
    | undefined => rfl

/-- A bit of a module's mask is that of one channel. -/
theorem inUse_update {f : BitVec 32 → BitVec 32} {b : Nat} {val : Bool → Bool}
    (hbit : ∀ x i, (f x).getLsbD i =
      if i = ch % PDMA_CH_MAX then val (x.getLsbD i) else x.getLsbD i)
    (hmask : s'.nuPdmaChnMaskArr = Function.update s.nuPdmaChnMaskArr (ch / PDMA_CH_MAX)
      (f (s.nuPdmaChnMaskArr (ch / PDMA_CH_MAX)))) :
    inUse s' b = if b = ch then val (inUse s b) else inUse s b := by
  rw [inUse, inUse, hmask, Function.update_apply]
  by_cases hmod : b / PDMA_CH_MAX = ch / PDMA_CH_MAX
  · rw [if_pos hmod, hbit, hmod]
    have hiff : b % PDMA_CH_MAX = ch % PDMA_CH_MAX ↔ b = ch := by
      constructor
      · intro hrem
        rw [← Nat.div_add_mod b PDMA_CH_MAX, hmod, hrem, Nat.div_add_mod]
      · rintro rfl
        rfl
    by_cases heq : b = ch
    · rw [if_pos heq, if_pos (hiff.2 heq)]
    · rw [if_neg heq, if_neg fun h => heq (hiff.1 h)]
  · rw [if_neg hmod, if_neg fun h => hmod (by rw [h])]

/-- A channel marked as in use, with its record filled with zeros.
Reference: `drv_pdma.c:422` to `:427`. -/
def taken (s : NuPdma) (periph : BitVec 32 × NuPdmaMemctrl) (ch : Nat) : NuPdma :=
  { s with
    nuPdmaChnMaskArr := Function.update s.nuPdmaChnMaskArr (ch / PDMA_CH_MAX)
      (s.nuPdmaChnMaskArr (ch / PDMA_CH_MAX) ||| 1#32 <<< (ch % PDMA_CH_MAX))
    nuPdmaChnArr := Function.update s.nuPdmaChnArr ch
      { NuPdmaChn.zero with m_u32Peripheral := periph.1, m_eMemCtl := periph.2 } }

theorem nuPdmaChannelAllocateFrom_eq (periph : BitVec 32 × NuPdmaMemctrl) (js : List Nat) :
    nuPdmaChannelAllocateFrom s periph js =
      match freeChannel s js with
      | none => .ok (-1#32, s)
      | some ch => do
        let s ← nuPdmaChannelTerminate (taken s periph ch) (BitVec.ofNat 32 ch)
        return (BitVec.ofNat 32 ch, s) := by
  induction js with
  | nil => rfl
  | cons j js ih =>
    rw [nuPdmaChannelAllocateFrom, freeChannel]
    by_cases hfree : nuCto (s.nuPdmaChnMaskArr j) < PDMA_CH_MAX
    · have hdiv : (nuCto (s.nuPdmaChnMaskArr j) + j * PDMA_CH_MAX) / PDMA_CH_MAX = j := by
        rw [Nat.add_mul_div_right _ _ (by decide), Nat.div_eq_of_lt hfree, Nat.zero_add]
      have hmod : (nuCto (s.nuPdmaChnMaskArr j) + j * PDMA_CH_MAX) % PDMA_CH_MAX =
          nuCto (s.nuPdmaChnMaskArr j) := by
        rw [Nat.add_mul_mod_self_right, Nat.mod_eq_of_lt hfree]
      simp only [if_pos hfree, taken, hdiv, hmod]
      rfl
    · simp only [if_neg hfree]
      exact ih

/-- A channel of a module is reset. -/
theorem exists_terminate (hc : c.toNat < NU_PDMA_CH_MAX) :
    ∃ s', nuPdmaChannelTerminate s c = .ok s' ∧ SameUse s s' := by
  have hret : KeepsUse s (nuPdmaChannelTerminate s c) id := nuPdmaChannelTerminate_sameUse
  cases hterm : nuPdmaChannelTerminate s c with
  | ok s' => exact ⟨s', rfl, hret.of_ok hterm⟩
  | error e =>
    simp only [nuPdmaChannelTerminate, nuPdmaTimeoutSet, check_eq hc, ok_bind] at hterm
    split at hterm <;> cases hterm

theorem taken_took {pdma : NuPdma} {periph : BitVec 32 × NuPdmaMemctrl}
    (h : SameUse (taken d.pdma periph ch) pdma) {trigger disable : Nat → Option Nat}
    (htrigger : trigger = Function.update d.m_sCB_Trigger ch none)
    (hdisable : disable = Function.update d.m_sCB_Disable ch none) :
    Took d ch ⟨pdma, trigger, disable⟩ where
  inited := h.inited
  inUse b := by
    have hlt : ch % PDMA_CH_MAX < 32 := lt_trans (Nat.mod_lt _ (by decide)) (by decide)
    rw [@inUse_update _ _ ch (· ||| 1#32 <<< (ch % PDMA_CH_MAX)) _ (fun _ => true) ?_ h.mask]
    · split
      · simp [*]
      · simp [*]
    · intro x i
      rw [getLsbD_or_bit hlt]
      split
      · simp [*]
      · simp [*]
  callback b ty := by
    cases ty with
    | event =>
      refine (h.event b).trans ?_
      simp only [taken, Function.update_apply]
      split
      · rfl
      · rfl
    | trigger => exact (congrFun htrigger b).trans (Function.update_apply ..)
    | disable => exact (congrFun hdisable b).trans (Function.update_apply ..)
    | undefined =>
      rw [Driver.callback, Driver.callback, ite_self]

theorem driverInit_inited : (driverInit d).pdma.nuPdmaInited = true := by
  unfold driverInit
  split
  · next h => exact h
  · next h =>
    rw [nuPdmaInit, if_neg h]

theorem nuPdmaInit_driverInit : nuPdmaInit (driverInit d).pdma = (driverInit d).pdma := by
  rw [nuPdmaInit, if_pos driverInit_inited]

theorem find_none_iff : gNuPdmaPeripheralCtlPool.find? (·.1 = ty) = none ↔ ¬ KnownPeripheral ty := by
  rw [List.find?_eq_none]
  constructor
  · rintro h ⟨periph, hmem, heq⟩
    exact h periph hmem (decide_eq_true heq)
  · intro h periph hmem heq
    exact h ⟨periph, hmem, of_decide_eq_true heq⟩

/-- An allocation returns. It hands out the first channel that is free, or tells that there is none
or that the peripheral is not known. -/
theorem channelAllocate_cases (d : Driver) (ty : BitVec 32) :
    (channelAllocate d ty = .ok (-1#32, driverInit d) ∧ (KnownPeripheral ty →
      freeChannel (driverInit d).pdma (List.range PDMA_CNT) = none)) ∨
    (∃ ch d', channelAllocate d ty = .ok (BitVec.ofNat 32 ch, d') ∧ KnownPeripheral ty ∧
      freeChannel (driverInit d).pdma (List.range PDMA_CNT) = some ch ∧ Took (driverInit d) ch d') := by
  simp only [channelAllocate, nuPdmaChannelAllocate, nuPdmaInit_driverInit]
  cases hknown : gNuPdmaPeripheralCtlPool.find? (·.1 = ty) with
  | none => exact .inl ⟨rfl, fun hk => absurd hk (find_none_iff.1 hknown)⟩
  | some periph =>
    have hk : KnownPeripheral ty := by
      by_contra hnot
      rw [find_none_iff.2 hnot] at hknown
      cases hknown
    dsimp only
    rw [nuPdmaChannelAllocateFrom_eq]
    cases hfree : freeChannel (driverInit d).pdma (List.range PDMA_CNT) with
    | none => exact .inl ⟨rfl, fun _ => rfl⟩
    | some ch =>
      have hlt := (freeChannel_some hfree).1
      have hnat : (BitVec.ofNat 32 ch).toNat = ch := by
        rw [BitVec.toNat_ofNat, Nat.mod_eq_of_lt (lt_trans hlt (by decide))]
      obtain ⟨s', hterm, hsame⟩ := exists_terminate (s := taken (driverInit d).pdma periph ch)
        (c := BitVec.ofNat 32 ch) (by rw [hnat]; exact hlt)
      have hne : BitVec.ofNat 32 ch ≠ -1#32 := by
        intro heq
        have hbig := congrArg BitVec.toNat heq
        rw [hnat] at hbig
        rw [hbig] at hlt
        exact absurd hlt (by decide)
      refine .inr ⟨ch, _, ?_, hk, rfl, taken_took hsame rfl rfl⟩
      simp only [hterm, ok_bind, pure, Except.pure, if_neg hne, hnat]

/-- A free that is accepted is of a channel in use. -/
theorem nuPdmaChannelFree_cases {pdma : NuPdma}
    (h : nuPdmaChannelFree d.pdma c = .ok (ret, pdma)) :
    (ret ≠ RT_EOK ∧ pdma = d.pdma) ∨
    (ret = RT_EOK ∧ c.toNat < NU_PDMA_CH_MAX ∧ d.pdma.nuPdmaInited = true ∧
      inUse d.pdma c.toNat = true ∧ Gave d c.toNat { d with pdma }) := by
  have hlt : c.toNat % PDMA_CH_MAX < 32 := lt_trans (Nat.mod_lt _ (by decide)) (by decide)
  unfold nuPdmaChannelFree at h
  split at h
  · cases h
    exact .inl ⟨by decide, rfl⟩
  · next hinit =>
    obtain ⟨free, hcheck, h⟩ := bind_eq_ok.1 h
    split at h
    · cases h
      exact .inl ⟨by decide, rfl⟩
    · next hused =>
      split at h
      · next hin =>
        rw [check_eq hin] at hcheck
        cases hcheck
        cases h
        refine .inr ⟨rfl, hin, by simpa using hinit, by simpa using hused, rfl, ?_, ?_⟩
        · intro b
          rw [@inUse_update _ _ c.toNat (· &&& ~~~(1#32 <<< (c.toNat % PDMA_CH_MAX))) _
            (fun _ => false) ?_ rfl]
          · split
            · simp [*]
            · simp [*]
          · intro x i
            rw [getLsbD_and_not_bit hlt]
            split
            · simp [*]
            · simp [*]
        · intro b ty
          cases ty with
          | event => rfl
          | trigger => rfl
          | disable => rfl
          | undefined => rfl
      · cases h
        exact .inl ⟨by decide, rfl⟩

/-- A channel in use is given back. -/
theorem nuPdmaChannelFree_inUse (hinit : s.nuPdmaInited = true) (hlt : c.toNat < NU_PDMA_CH_MAX)
    (hused : inUse s c.toNat = true) : ∃ pdma, nuPdmaChannelFree s c = .ok (RT_EOK, pdma) := by
  have hin : c.toNat < PDMA_CNT * PDMA_CH_MAX := hlt
  unfold nuPdmaChannelFree
  rw [if_neg (by simp [hinit]), check_eq hlt, hused]
  simp only [Bool.not_true, ok_bind, Bool.false_eq_true, if_false, if_pos hin]
  exact ⟨_, rfl⟩

/-- The callbacks of a channel in its record and beside it, one of them new. -/
theorem registers_of {ty : NuPdmaCbtype} {cb : Option Nat}
    (hinited : d'.pdma.nuPdmaInited = d.pdma.nuPdmaInited)
    (hmask : d'.pdma.nuPdmaChnMaskArr = d.pdma.nuPdmaChnMaskArr)
    (hcb : ∀ b ty', d'.callback b ty' = if b = ch ∧ ty' = ty then cb else d.callback b ty') :
    Registers d ch ty cb d' where
  inited := hinited
  inUse b := by rw [inUse, inUse, hmask]
  callback b := by
    funext ty'
    rw [hcb]
    by_cases hb : b = ch
    · rw [if_pos hb, Function.update_apply]
      simp [hb]
    · rw [if_neg hb, if_neg fun h => hb h.1]

/-- A callback that is accepted is the channel's from then on. -/
theorem callbackRegister_cases {ty : NuPdmaCbtype} {cb : Option Nat}
    (h : callbackRegister d c ty cb = .ok (ret, d')) :
    (ret ≠ RT_EOK ∧ d' = d) ∨ (ret = RT_EOK ∧ Registers d c.toNat ty cb d') := by
  cases ty with
  | event =>
    obtain ⟨⟨ret, pdma⟩, hreg, h⟩ := bind_eq_ok.1 h
    cases h
    obtain ⟨free, -, hreg⟩ := bind_eq_ok.1 hreg
    split at hreg
    · cases hreg
      exact .inl ⟨by decide, rfl⟩
    · cases hreg
      refine .inr ⟨rfl, registers_of rfl rfl fun b ty' => ?_⟩
      cases ty' with
      | event =>
        simp only [Driver.callback, NuPdma.nuPdmaChnArr_setChn]
        split
        · next hb => simp [hb]
        · next hb => simp [hb]
      | trigger => simp [Driver.callback]
      | disable => simp [Driver.callback]
      | undefined => simp [Driver.callback]
  | trigger =>
    obtain ⟨free, -, h⟩ := bind_eq_ok.1 h
    split at h
    · cases h
      exact .inl ⟨by decide, rfl⟩
    · cases h
      refine .inr ⟨rfl, registers_of rfl rfl fun b ty' => ?_⟩
      cases ty' with
      | trigger => simp [Driver.callback, Function.update_apply]
      | event => simp [Driver.callback]
      | disable => simp [Driver.callback]
      | undefined => simp [Driver.callback]
  | disable =>
    obtain ⟨free, -, h⟩ := bind_eq_ok.1 h
    split at h
    · cases h
      exact .inl ⟨by decide, rfl⟩
    · cases h
      refine .inr ⟨rfl, registers_of rfl rfl fun b ty' => ?_⟩
      cases ty' with
      | disable => simp [Driver.callback, Function.update_apply]
      | event => simp [Driver.callback]
      | trigger => simp [Driver.callback]
      | undefined => simp [Driver.callback]
  | undefined =>
    obtain ⟨free, -, h⟩ := bind_eq_ok.1 h
    cases h
    exact .inl ⟨by decide, rfl⟩

/-! ## The invariant -/

/-- The channels in use are those allocated, with the callbacks that their allocations registered. -/
structure UsersInv (d : Driver) (owner : Nat → Option Registered) : Prop where
  inUse : ∀ ch < NU_PDMA_CH_MAX, inUse d.pdma ch = (owner ch).isSome
  inside : ∀ {ch r}, owner ch = some r → ch < NU_PDMA_CH_MAX
  inited : d.pdma.nuPdmaInited = false → ∀ ch, owner ch = none
  callback : ∀ {ch r}, owner ch = some r → r = d.callback ch

variable {owner : Nat → Option Registered} {r : Request}

theorem UsersInv.same (h : UsersInv d owner) (hs : SameUsers d d') : UsersInv d' owner where
  inUse ch hch := (hs.inUse ch).trans (h.inUse ch hch)
  inside := h.inside
  inited hinit := h.inited (hs.inited.symm.trans hinit)
  callback hch := (h.callback hch).trans (funext fun ty => (hs.callback _ ty).symm)

/-- The first call sets up the driver, when no channel is allocated yet. -/
theorem UsersInv.init (h : UsersInv d owner) : UsersInv (driverInit d) owner := by
  unfold driverInit
  split
  · exact h
  · next hinit =>
    have hnone := h.inited (by simpa using hinit)
    constructor
    · intro ch hch
      rw [hnone, Option.isSome_none]
      have hlt : ch % PDMA_CH_MAX < PDMA_CH_MAX := Nat.mod_lt _ (by decide)
      have hmask : ∀ i < PDMA_CH_MAX, (~~~PDMA_CH_Msk).getLsbD i = false := by decide
      simp only [Pdma.inUse, nuPdmaInit, if_neg hinit]
      exact hmask _ hlt
    · exact h.inside
    · exact fun _ => hnone
    · intro ch r hch
      rw [hnone] at hch
      cases hch

theorem UsersInv.took (h : UsersInv d owner) (hinit : d.pdma.nuPdmaInited = true)
    (hch : ch < NU_PDMA_CH_MAX) (ht : Took d ch d') :
    UsersInv d' (Function.update owner ch (some fun _ => none)) where
  inUse b hb := by
    rw [ht.inUse, h.inUse b hb, Function.update_apply]
    split
    · next heq => simp [heq]
    · next hne => simp [hne]
  inside {b r} hb := by
    rw [Function.update_apply] at hb
    split at hb
    · next heq => rw [heq]; exact hch
    · exact h.inside hb
  inited hfalse := by
    rw [ht.inited, hinit] at hfalse
    cases hfalse
  callback {b r} hb := by
    funext ty
    rw [ht.callback]
    rw [Function.update_apply] at hb
    split at hb
    · next heq =>
      cases hb
      rw [if_pos heq]
    · next hne => rw [if_neg hne, h.callback hb]

theorem UsersInv.gave (h : UsersInv d owner) (hg : Gave d ch d') :
    UsersInv d' (Function.update owner ch none) where
  inUse b hb := by
    rw [hg.inUse, h.inUse b hb, Function.update_apply]
    split
    · next heq => simp [heq]
    · next hne => simp [hne]
  inside {b r} hb := by
    rw [Function.update_apply] at hb
    split at hb
    · cases hb
    · exact h.inside hb
  inited hfalse b := by
    rw [Function.update_apply, h.inited (hg.inited.symm.trans hfalse)]
    split
    · rfl
    · rfl
  callback {b r} hb := by
    rw [Function.update_apply] at hb
    split at hb
    · cases hb
    · exact (h.callback hb).trans (funext fun ty => (hg.callback b ty).symm)

theorem UsersInv.registers {ty : NuPdmaCbtype} {cb : Option Nat} (h : UsersInv d owner)
    (hr : Registers d ch ty cb d') :
    UsersInv d' (Function.update owner ch ((owner ch).map fun r => Function.update r ty cb)) where
  inUse b hb := by
    rw [hr.inUse, h.inUse b hb, Function.update_apply]
    split
    · next heq => rw [heq, Option.isSome_map]
    · rfl
  inside {b r} hb := by
    rw [Function.update_apply] at hb
    split at hb
    · next heq =>
      obtain ⟨r, hr, -⟩ := Option.map_eq_some_iff.1 hb
      rw [heq]
      exact h.inside hr
    · exact h.inside hb
  inited hfalse b := by
    rw [Function.update_apply, h.inited (hr.inited.symm.trans hfalse),
      h.inited (hr.inited.symm.trans hfalse)]
    split
    · rfl
    · rfl
  callback {b r} hb := by
    rw [hr.callback]
    rw [Function.update_apply] at hb
    split at hb
    · next heq =>
      obtain ⟨r, howner, rfl⟩ := Option.map_eq_some_iff.1 hb
      rw [if_pos heq, heq, h.callback howner]
    · next hne => rw [if_neg hne, h.callback hb]

/-! ## Steps -/

theorem toInt_channel (hch : ch < NU_PDMA_CH_MAX) : (BitVec.ofNat 32 ch).toInt = ch := by
  have hlt : ch < 2 ^ 31 := lt_trans hch (by decide)
  have hnat : (BitVec.ofNat 32 ch).toNat = ch := by
    rw [BitVec.toNat_ofNat, Nat.mod_eq_of_lt (by omega)]
  rw [BitVec.toInt_eq_toNat_of_lt (by omega), hnat]

/-- An allocation hands out the first free channel, or none. -/
theorem request_allocate (d : Driver) (ty : BitVec 32) :
    (request d (.allocate ty) = .ok (-1, driverInit d) ∧ (KnownPeripheral ty →
      freeChannel (driverInit d).pdma (List.range PDMA_CNT) = none)) ∨
    (∃ (ch : Nat) (d' : Driver), request d (.allocate ty) = .ok (ch, d') ∧ KnownPeripheral ty ∧
      freeChannel (driverInit d).pdma (List.range PDMA_CNT) = some ch ∧ Took (driverInit d) ch d') := by
  rcases channelAllocate_cases d ty with ⟨heq, hnone⟩ | ⟨ch, d', heq, hknown, hfree, htook⟩
  · refine .inl ⟨?_, hnone⟩
    rw [request, heq]
    rfl
  · refine .inr ⟨ch, d', ?_, hknown, hfree, htook⟩
    rw [request, heq, ← toInt_channel (freeChannel_some hfree).1]
    rfl

theorem UsersInv.request (h : UsersInv d owner) (hr : Pdma.request d r = .ok (ret, d')) :
    UsersInv d' (granted owner r ret) := by
  cases r with
  | allocate ty =>
    rcases request_allocate d ty with ⟨heq, -⟩ | ⟨ch, d', heq, -, hfree, htook⟩
    · rw [heq] at hr
      cases hr
      exact h.init
    · rw [heq] at hr
      cases hr
      rw [granted, if_pos (Int.natCast_nonneg ch), Int.toNat_natCast]
      exact h.init.took driverInit_inited (freeChannel_some hfree).1 htook
  | free c =>
    obtain ⟨⟨ret, pdma⟩, hfree, hr⟩ := bind_eq_ok.1 hr
    cases hr
    rcases nuPdmaChannelFree_cases hfree with ⟨hne, rfl⟩ | ⟨hret, -, -, -, hgave⟩
    · rw [granted, if_neg hne]
      exact h
    · rw [granted, if_pos hret]
      exact h.gave hgave
  | terminate c =>
    obtain ⟨pdma, hterm, hr⟩ := bind_eq_ok.1 hr
    cases hr
    exact h.same (nuPdmaChannelTerminate_sameUse.of_ok hterm).users
  | memctrlSet c m =>
    obtain ⟨⟨ret, pdma⟩, hset, hr⟩ := bind_eq_ok.1 hr
    cases hr
    exact h.same ((nuPdmaChannelMemctrlSet_sameUse m).of_ok hset).users
  | filteringSet c f =>
    obtain ⟨⟨ret, pdma⟩, hset, hr⟩ := bind_eq_ok.1 hr
    cases hr
    exact h.same ((nuPdmaFilteringSet_sameUse f).of_ok hset).users
  | callbackRegister c ty cb =>
    rcases callbackRegister_cases hr with ⟨hne, rfl⟩ | ⟨hret, hreg⟩
    · rw [granted, if_neg hne]
      exact h
    · rw [granted, if_pos hret]
      exact h.registers hreg
  | transfer m c w sa da cnt t =>
    obtain ⟨⟨ret, pdma⟩, htransfer, hr⟩ := bind_eq_ok.1 hr
    cases hr
    exact h.same ((nuPdmaTransfer_sameUse m).of_ok htransfer).users

/-- The users of the channels are right, and a handler at work is that of its module. -/
structure SystemInv (s : System) : Prop where
  users : UsersInv s.driver s.owner
  isr : ∀ {m isr}, s.isr m = some isr → m < PDMA_CNT ∧ isr.PDMA = nuPdmaArr m

variable {s s' : System} {m i : Nat} {isr isr' : Isr} {calls : List CallbackCall} {l : Label}

theorem moduleId_eq (hm : m < PDMA_CNT) (h : isr.PDMA = nuPdmaArr m) : isr.moduleId = m := by
  rw [Isr.moduleId, h]
  have hall : ∀ m < PDMA_CNT, (nuPdmaArr m - DEF_PDMA_BASE_START).toNat / 0x10000 = m := by decide
  exact hall m hm

/-- A round of the loop calls the callbacks of a channel in use. -/
theorem nuPdmaIsrServe_calls (h : nuPdmaIsrServe d isr = some (calls, isr')) :
    isr'.PDMA = isr.PDMA ∧ ∀ call ∈ calls, ∃ i < PDMA_CH_MAX,
      call.ch = i + isr.moduleId * PDMA_CH_MAX ∧ inUse d.pdma call.ch = true ∧
      d.callback call.ch call.m_eCBType = some call.m_pvUserData := by
  unfold nuPdmaIsrServe at h
  dsimp only at h
  split at h
  · next hlt =>
    split at h
    · next hbit =>
      split at h
      · cases h
        exact ⟨rfl, fun _ hmem => absurd hmem List.not_mem_nil⟩
      · next data hdata =>
        cases h
        refine ⟨rfl, fun call hmem => ?_⟩
        have hused := (inUse_module hlt).trans hbit
        rcases List.mem_append.1 hmem with hmem | hmem
        · obtain ⟨data', hdisable, rfl⟩ := List.mem_map.1 hmem
          exact ⟨_, hlt, rfl, hused, Option.mem_toList.1 hdisable⟩
        · split at hmem
          · cases List.mem_singleton.1 hmem
            exact ⟨_, hlt, rfl, hused, hdata⟩
          · exact absurd hmem List.not_mem_nil
    · cases h
      exact ⟨rfl, fun _ hmem => absurd hmem List.not_mem_nil⟩
  · cases h

theorem nuPdmaIsrResume_same (h : nuPdmaIsrResume d isr i = .ok (d', isr')) :
    isr'.PDMA = isr.PDMA ∧ SameUsers d d' := by
  unfold nuPdmaIsrResume at h
  dsimp only at h
  split at h
  · obtain ⟨⟨_, pdma⟩, hset, h⟩ := bind_eq_ok.1 h
    cases h
    exact ⟨rfl, (nuPdmaTimeoutSet_sameUse.of_ok hset).users⟩
  · cases h
    exact ⟨rfl, rfl, fun _ => rfl, fun _ _ => rfl⟩

theorem SystemInv.setIsr (h : SystemInv s) {o : Option Isr} (hd : UsersInv d s.owner)
    (ho : ∀ isr, o = some isr → m < PDMA_CNT ∧ isr.PDMA = nuPdmaArr m) :
    SystemInv ⟨d, Function.update s.isr m o, s.owner⟩ where
  users := hd
  isr {m' isr} hisr := by
    simp only [Function.update_apply] at hisr
    split at hisr
    · next heq =>
      rw [heq]
      exact ho isr hisr
    · exact h.isr hisr

theorem SystemInv.step (h : SystemInv s) (hs : Step s l s') : SystemInv s' := by
  cases hs with
  | request hret => exact ⟨h.users.request hret, h.isr⟩
  | enter hm hidle =>
    refine h.setIsr h.users ?_
    rintro isr ⟨⟩
    exact ⟨hm, rfl⟩
  | serve hisr hidle hserve =>
    refine h.setIsr h.users ?_
    rintro isr' ⟨⟩
    exact ⟨(h.isr hisr).1, (nuPdmaIsrServe_calls hserve).1.trans (h.isr hisr).2⟩
  | resume hisr hserving hresume =>
    obtain ⟨hPDMA, hsame⟩ := nuPdmaIsrResume_same hresume
    refine h.setIsr (h.users.same hsame) ?_
    rintro isr' ⟨⟩
    exact ⟨(h.isr hisr).1, hPDMA.trans (h.isr hisr).2⟩
  | leave hisr hidle hserve => exact h.setIsr h.users fun _ hnone => nomatch hnone

theorem systemInv_reset : SystemInv System.reset := by
  have hnone : ∀ ch, System.reset.owner ch = none := fun _ => rfl
  constructor
  · constructor
    · intro ch _
      exact BitVec.getLsbD_zero
    · intro ch r hch
      cases hch
    · exact fun _ => hnone
    · intro ch r hch
      cases hch
  · intro m isr hisr
    cases hisr

/-! ## Every run meets the specification -/

/-- A channel that is not allocated is free for the search. -/
theorem UsersInv.free (h : UsersInv d owner) (hch : ch < NU_PDMA_CH_MAX) :
    Pdma.inUse (driverInit d).pdma ch = false ↔ owner ch = none := by
  rw [h.init.inUse ch hch, Option.isSome_eq_false_iff, Option.isNone_iff_eq_none]

/-- The channels before `ch` that are not allocated. -/
def freeBelow (owner : Nat → Option Registered) (ch : Nat) : Finset Nat :=
  (Finset.range ch).filter fun c => (owner c).isNone

/-- Each allocation takes the first free channel, so that they come to every one. -/
theorem SystemInv.canGet (h : SystemInv s) (hty : KnownPeripheral ty) (hch : ch < NU_PDMA_CH_MAX)
    (hnone : s.owner ch = none) : CanGet s ty ch := by
  induction hn : (freeBelow s.owner ch).card using Nat.strong_induction_on generalizing s with
  | _ n ih =>
    have hfree := (h.users.free hch).2 hnone
    rcases request_allocate s.driver ty with ⟨-, hfull⟩ | ⟨c, d', heq, -, hfound, htook⟩
    · have hused := freeChannel_none (hfull hty) hch
      rw [hfree] at hused
      cases hused
    · have hstep : Step s (.request (.allocate ty) c) _ := .request heq
      rcases Nat.lt_trichotomy c ch with hlt | rfl | hgt
      · have hc := (h.users.free (hlt.trans hch)).1 (freeChannel_some hfound).2
        have howner : granted s.owner (.allocate ty) (c : Int) =
            Function.update s.owner c (some fun _ => none) := by
          rw [granted, if_pos (Int.natCast_nonneg c), Int.toNat_natCast]
        have hsmaller : (freeBelow (granted s.owner (.allocate ty) (c : Int)) ch).card < n := by
          rw [← hn, howner]
          refine Finset.card_lt_card (Finset.ssubset_iff_of_subset ?_ |>.2 ⟨c, ?_, ?_⟩)
          · intro b hb
            obtain ⟨hb, hnone⟩ := Finset.mem_filter.1 hb
            refine Finset.mem_filter.2 ⟨hb, ?_⟩
            rw [Function.update_apply] at hnone
            split at hnone
            · cases hnone
            · exact hnone
          · exact Finset.mem_filter.2 ⟨Finset.mem_range.2 hlt, by rw [hc, Option.isNone_none]⟩
          · intro hmem
            have hnone := (Finset.mem_filter.1 hmem).2
            rw [Function.update_self] at hnone
            cases hnone
        have hstill : granted s.owner (.allocate ty) (c : Int) ch = none := by
          rw [howner, Function.update_of_ne hlt.ne']
          exact hnone
        obtain ⟨labels, s₁, s₂, hrun, hall, hlast⟩ := ih _ hsmaller (h.step hstep) hstill rfl
        refine ⟨[_] ++ labels, s₁, s₂, (Run.snoc .nil hstep).trans hrun, ?_, hlast⟩
        intro l hl
        rcases List.mem_cons.1 hl with rfl | hl
        · exact ⟨_, rfl⟩
        · exact hall l hl
      · exact ⟨[], s, _, .nil, fun _ hl => absurd hl List.not_mem_nil, hstep⟩
      · have hused := freeChannel_first hfound hgt
        rw [hfree] at hused
        cases hused

theorem SystemInv.right (h : SystemInv s) : ChannelsRight s where
  grants {ty ret s'} hs hret := by
    cases hs with
    | request hreq =>
      rcases request_allocate s.driver ty with ⟨heq, -⟩ | ⟨c, d', heq, -, hfound, -⟩
      · rw [heq] at hreq
        cases hreq
        exact absurd hret (by decide)
      · rw [heq] at hreq
        cases hreq
        obtain ⟨hlt, hfree⟩ := freeChannel_some hfound
        exact ⟨hlt, (h.users.free hlt).1 hfree⟩
  frees {ch} howner := by
    obtain ⟨r, hr⟩ := Option.ne_none_iff_exists'.1 howner
    have hlt := h.users.inside hr
    have hused : inUse s.driver.pdma ch.toNat = true := by rw [h.users.inUse _ hlt, hr, Option.isSome_some]
    have hinit : s.driver.pdma.nuPdmaInited = true := by
      by_contra hno
      rw [h.users.inited (Bool.eq_false_iff.2 hno)] at hr
      cases hr
    obtain ⟨pdma, hfree⟩ := nuPdmaChannelFree_inUse hinit hlt hused
    exact ⟨_, .request (bind_eq_ok.2 ⟨_, hfree, rfl⟩)⟩
  again {ch s' ty} hs hty := by
    have h' := h.step hs
    cases hs with
    | request hreq =>
      obtain ⟨⟨ret, pdma⟩, hfree, hreq⟩ := bind_eq_ok.1 hreq
      cases hreq
      rcases nuPdmaChannelFree_cases hfree with ⟨hne, -⟩ | ⟨-, hlt, -, -, -⟩
      · exact absurd rfl hne
      · refine h'.canGet hty hlt ?_
        simp only [granted, if_true, Function.update_self]
  fails {ty} hty := by
    rcases request_allocate s.driver ty with ⟨heq, hfull⟩ | ⟨c, d', heq, -, -, -⟩
    · refine ⟨-1, _, .request heq, fun _ ch hch hnone => ?_⟩
      have hused := freeChannel_none (hfull hty) hch
      rw [(h.users.free hch).2 hnone] at hused
      cases hused
    · exact ⟨c, _, .request heq, fun hneg => absurd hneg (not_lt.2 (Int.natCast_nonneg c))⟩
  calls {m calls s'} hs call hcall := by
    cases hs with
    | serve hisr hidle hserve =>
      obtain ⟨hm, hPDMA⟩ := h.isr hisr
      obtain ⟨i, hi, hch, hused, hcb⟩ := (nuPdmaIsrServe_calls hserve).2 call hcall
      rw [moduleId_eq hm hPDMA] at hch
      have hlt : call.ch < NU_PDMA_CH_MAX := by
        rw [hch]
        have hle : m * PDMA_CH_MAX ≤ 1 * PDMA_CH_MAX :=
          Nat.mul_le_mul_right _ (Nat.le_of_lt_succ hm)
        exact lt_of_lt_of_le (Nat.add_lt_add_right hi _) (Nat.add_le_add_left hle _)
      rw [h.users.inUse _ hlt] at hused
      obtain ⟨r, hr⟩ := Option.isSome_iff_exists.1 hused
      exact ⟨r, hr, by rw [h.users.callback hr]; exact hcb⟩

/-- Over every run of calls and interrupts channels are handed out to one user at a time, and an
interrupt calls that user's callbacks alone. -/
theorem pdmaChannels_run {labels : List Label} (h : Run Step System.reset labels s) :
    ChannelsRight s :=
  (h.invariant (I := SystemInv) SystemInv.step systemInv_reset).right

/-- A channel is allocated with a callback, whose module raises an interrupt that calls it; then the
channel is given back. -/
theorem pdmaChannels_run_interrupt : ∃ s, Run Step System.reset
    [.request (.allocate PDMA_MEM) 0, .request (.callbackRegister 0#32 .event (some 7)) 0,
      .request (.filteringSet 0#32 2#32) 0, .enter 0 ⟨2#32, 0#32, 1#32, 0#32⟩,
      .serve 0 [⟨0, .event, 7, 2#32⟩], .resume 0, .request (.free 0#32) 0] s ∧
    ChannelsRight s := by
  have hallocate : Run Step System.reset [.request (.allocate PDMA_MEM) 0] _ :=
    .snoc .nil (.request rfl)
  have hregister := hallocate.snoc (.request (r := .callbackRegister 0#32 .event (some 7)) rfl)
  have hfilter := hregister.snoc (.request (r := .filteringSet 0#32 2#32) rfl)
  have hinterrupt := hfilter.snoc (@Step.enter _ 0 ⟨2#32, 0#32, 1#32, 0#32⟩ (by decide) rfl)
  have hserve := hinterrupt.snoc (@Step.serve _ 0 [⟨0, .event, 7, 2#32⟩] _ _ rfl rfl rfl)
  have hresume := hserve.snoc (.resume (m := 0) rfl rfl rfl)
  have hfree := hresume.snoc (.request (r := .free 0#32) rfl)
  exact ⟨_, hfree, pdmaChannels_run hfree⟩

end

end NumakerMA35D1.Pdma

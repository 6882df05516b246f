import NumakerMA35D1.Lib.Run

/-!
# The hardware semaphore driver

A mutex of the driver is one hardware semaphore between two cores, whose images each run the driver: the register holds
the core that locked it and the key it was locked with. A call is one step, and then each access to the registers is
one, so that the calls of the two images interleave, with a thread that moves to another CPU, wait timeouts, unlock
interrupts and other threads that ask for the mutex. The interrupts of the eight semaphores are enabled by one register
of an image, which a call reads and then writes without a lock: calls for the other semaphores come between.
`hwsem_exclusive`: in every run whose takes are nested at most 256 deep the mutex is held by one image, it is unlocked
when the owner's releases are as many as its takes, and not before. `hwsem_wakes`: where the hardware keeps the unlock
flag when the interrupt is not enabled yet, and no call for another semaphore writes back an enable register that it has
read before the waiter's was written, no waiter sleeps on a semaphore that is free. `hwsem_sleeps`: it does after such a
write.

Reference: `drv_hwsem.c`, `nu_hwsem.h`, `hwsem_reg.h`.
-/

namespace NumakerMA35D1.DrvHwsem

open Embedded

/-! ## Keys -/

/-- Reference: `nu_hwsem.h:36 HWSEM_LOCK_BY_A35`, `nu_hwsem.h:37 HWSEM_LOCK_BY_M4`. -/
inductive Core
  | A35 | M4
deriving DecidableEq

/-- Reference: `nu_hwsem.h:40 HWSEM_LOCK_BY_OWNER`. -/
def Core.lockByOwner : Core → BitVec 8
  | .A35 => 1
  | .M4 => 2

/-- The key of an image for a semaphore. Reference: `drv_hwsem.c:295 rt_hw_hwsem_init`. -/
def Core.key (c : Core) (id : Fin 8) : BitVec 8 := c.lockByOwner <<< 4 ||| BitVec.ofNat 8 id.val

/-- The key of a thread on a CPU. Reference: `drv_hwsem.c:144 nu_mutex_take`. -/
def Core.privKey (c : Core) (id : Fin 8) (cpu : Fin 4) : BitVec 8 := c.key id ||| BitVec.ofNat 8 cpu.val <<< 6

/-! ## The semaphore -/

/-- The core that has locked the semaphore, and the key. Reference: `hwsem_reg.h:190 SEM0`. -/
structure Sem where
  id : Option Core
  key : BitVec 8
deriving DecidableEq

/-- A core writes a key: it locks a free semaphore, unlocks one that it has locked with the key, and does nothing else.
What the key reads after the unlock is open. Reference: `nu_hwsem.h:138 HWSEM_UNLOCK`, `hwsem_reg.h:198 KEY`. -/
def Sem.write (c : Core) (k : BitVec 8) (keep : Bool) (sem : Sem) : Sem :=
  if sem.id = none then ⟨some c, k⟩
  else if sem.id = some c ∧ sem.key = k then ⟨none, if keep then k else 0⟩
  else sem

/-- A write unlocks the semaphore. -/
def Sem.unlocks (c : Core) (k : BitVec 8) (sem : Sem) : Bool := sem.id = some c ∧ sem.key = k

/-! ## The driver -/

/-- Where a call is: what its next access to the registers is, with its key. -/
inductive Pc
  | idle
  /-- Reference: `drv_hwsem.c:158 nu_mutex_take`. -/
  | takeCheck (k : BitVec 8)
  /-- Reference: `drv_hwsem.c:161 nu_mutex_take`. -/
  | takeCompare (k : BitVec 8)
  /-- Reference: `drv_hwsem.c:164 nu_mutex_take`. The enable register is read. -/
  | takeEnable (k : BitVec 8)
  /-- Reference: `drv_hwsem.c:164 nu_mutex_take`. It is written, with the bit set in what was read. -/
  | takeEnableWrite (k : BitVec 8) (w : BitVec 32)
  /-- Reference: `drv_hwsem.c:167 nu_mutex_take`. -/
  | takeWait (k : BitVec 8)
  /-- Reference: `drv_hwsem.c:187 nu_mutex_take`. -/
  | takeLock (k : BitVec 8)
  /-- Reference: `drv_hwsem.c:188 nu_mutex_take`. -/
  | takeVerify (k : BitVec 8)
  /-- Reference: `drv_hwsem.c:194 nu_mutex_take`. The enable register is read. -/
  | takeDisable
  /-- Reference: `drv_hwsem.c:194 nu_mutex_take`. It is written, with the bit cleared in what was read. -/
  | takeDisableWrite (w : BitVec 32)
  /-- Reference: `drv_hwsem.c:227 nu_mutex_release`. -/
  | relCheck (k : BitVec 8)
  /-- Reference: `drv_hwsem.c:228 nu_mutex_release`. -/
  | relCompare (k : BitVec 8)
  /-- Reference: `drv_hwsem.c:234 nu_mutex_release`. -/
  | relUnlock (k : BitVec 8)
deriving DecidableEq

/-- The mutex of an image, with its thread: `signal` is an interrupt that has cleared its flag and not yet completed,
`depth` the takes that have not been released. Reference: `drv_hwsem.c:36 nu_mutex_priv`. -/
structure Priv where
  owner : Option Nat
  hold : BitVec 8
  completion : Bool
  cpu : Fin 4
  pc : Pc
  signal : Bool
  depth : Nat

/-- The enable register as it is written for a semaphore. Reference: `nu_hwsem.h:92 HWSEM_ENABLE_INT`, `nu_hwsem.h:104
HWSEM_DISABLE_INT`. -/
def intenWord (id : Fin 8) (enable : Bool) (w : BitVec 32) : BitVec 32 :=
  if enable then w ||| 1#32 <<< id.val else w &&& ~~~(1#32 <<< id.val)

/-- A bit that is written is as it is asked for. -/
theorem intenWord_self (id : Fin 8) (w : BitVec 32) : (intenWord id true w).getLsbD id.val = true := by
  have hlt : id.val < 32 := by omega
  simp [intenWord, hlt]

/-- The bits of the other semaphores are as they were read. -/
theorem intenWord_ne {id j : Fin 8} (hj : j ≠ id) (enable : Bool) (w : BitVec 32) :
    (intenWord j enable w).getLsbD id.val = w.getLsbD id.val := by
  have hne : j.val ≠ id.val := fun h => hj (Fin.ext h)
  have hlt : id.val < 32 := by omega
  have hbit : (1#32 <<< j.val).getLsbD id.val = false := by
    rw [BitVec.getLsbD_shiftLeft, BitVec.getLsbD_one]
    by_cases hle : id.val < j.val
    · simp [hle]
    · have hpos : id.val - j.val ≠ 0 := by omega
      simp [hpos]
  cases enable with
  | true => rw [intenWord, if_pos rfl, BitVec.getLsbD_or, hbit, Bool.or_false]
  | false =>
    rw [intenWord, if_neg Bool.false_ne_true, BitVec.getLsbD_and, BitVec.getLsbD_not, hbit]
    simp [hlt]

/-- The semaphore with its flags, the enable registers of all the semaphores, and the two images. `others` has the words
that calls for the other semaphores have read from the enable register of their image and not written back yet. -/
structure Hwsem where
  sem : Sem
  intsts : Core → Bool
  inten : Core → BitVec 32
  mutex : Core → Priv
  others : Core → Fin 8 → Option (BitVec 32)

namespace Hwsem

def setMutex (y : Hwsem) (c : Core) (f : Priv → Priv) : Hwsem :=
  { y with mutex := Function.update y.mutex c (f (y.mutex c)) }

/-- A core has the interrupt of a semaphore enabled. -/
def enabled (y : Hwsem) (id : Fin 8) (c : Core) : Bool := (y.inten c).getLsbD id.val

/-- A core writes its enable register for a semaphore. -/
def writeInten (y : Hwsem) (c : Core) (j : Fin 8) (enable : Bool) (w : BitVec 32) : Hwsem :=
  { y with inten := Function.update y.inten c (intenWord j enable w) }

/-- A call for another semaphore has read the enable register, or written it. -/
def setOther (y : Hwsem) (c : Core) (j : Fin 8) (w : Option (BitVec 32)) : Hwsem :=
  { y with others := Function.update y.others c (Function.update (y.others c) j w) }

/-- A core writes a key. The unlock sets the flag of each core that has the interrupt enabled, and those of the others
where the hardware latches it. -/
def write (y : Hwsem) (id : Fin 8) (c : Core) (k : BitVec 8) (keep latch : Bool) : Hwsem :=
  { y with
    sem := y.sem.write c k keep
    intsts := fun d => y.intsts d || (y.sem.unlocks c k && (y.enabled id d || latch)) }

end Hwsem

/-- What happens: calls of threads, the next access of the call that an image is in, timeouts, the two halves of the
interrupt, a thread's move to another CPU, and the accesses that calls for other semaphores make to the enable register.
-/
inductive Event
  | init (c : Core) (thread : Nat)
  | deinit (c : Core) (thread : Nat)
  | take (c : Core) (thread : Nat)
  | release (c : Core) (thread : Nat)
  | access (c : Core) (keep latch : Bool)
  | timeout (c : Core)
  | isr (c : Core)
  | signal (c : Core)
  | move (c : Core) (cpu : Fin 4)
  | readInten (c : Core) (j : Fin 8)
  | writeInten (c : Core) (j : Fin 8) (enable : Bool)

/-- The next access of a call. Reference: `drv_hwsem.c:138 nu_mutex_take`, `drv_hwsem.c:211 nu_mutex_release`. -/
def access (id : Fin 8) (y : Hwsem) (c : Core) (keep latch : Bool) : Option Hwsem :=
  match (y.mutex c).pc with
  | .idle => none
  | .takeCheck k =>
    some (y.setMutex c fun p => { p with pc := if y.sem.id ≠ none then .takeCompare k else .takeLock k })
  | .takeCompare k =>
    if y.sem.key ≠ k then some (y.setMutex c fun p => { p with pc := .takeEnable k })
    else some (y.setMutex c fun p => { p with hold := p.hold + 1, depth := p.depth + 1, pc := .idle })
  | .takeEnable k => some (y.setMutex c fun p => { p with pc := .takeEnableWrite k (y.inten c) })
  | .takeEnableWrite k w => some ((y.writeInten c id true w).setMutex c fun p => { p with pc := .takeWait k })
  | .takeWait k =>
    if (y.mutex c).completion then
      some (y.setMutex c fun p => { p with completion := false, pc := .takeCheck k })
    else none
  | .takeLock k => some ((y.write id c k keep latch).setMutex c fun p => { p with pc := .takeVerify k })
  | .takeVerify k =>
    if y.sem.key = k then
      some (y.setMutex c fun p => { p with hold := 1, depth := p.depth + 1, pc := .takeDisable })
    else some (y.setMutex c fun p => { p with pc := .takeCheck k })
  | .takeDisable => some (y.setMutex c fun p => { p with pc := .takeDisableWrite (y.inten c) })
  | .takeDisableWrite w => some ((y.writeInten c id false w).setMutex c fun p => { p with pc := .idle })
  | .relCheck k =>
    some (y.setMutex c fun p => { p with pc := if y.sem.id ≠ none then .relCompare k else .idle })
  | .relCompare k =>
    if y.sem.key = k then
      some (y.setMutex c fun p =>
        { p with hold := p.hold - 1, depth := p.depth - 1, pc := if p.hold - 1 = 0 then .relUnlock k else .idle })
    else some (y.setMutex c fun p => { p with pc := .idle })
  | .relUnlock k => some ((y.write id c k keep latch).setMutex c fun p => { p with pc := .idle })

/-- A step; none where it is not possible. A thread that is not the owner is refused at once; the owner makes one call
after the other, also for another semaphore. That an initialization sees no owner and enters the thread is one step. An
interrupt serves every flag that is set, whatever semaphore it was raised for. Reference: `drv_hwsem.c:74 nu_hwsem_isr`,
`drv_hwsem.c:96 nu_mutex_init`, `drv_hwsem.c:121 nu_mutex_deinit`, `drv_hwsem.c:138 nu_mutex_take`, `drv_hwsem.c:211
nu_mutex_release`. -/
def exec (id : Fin 8) (y : Hwsem) : Event → Option Hwsem
  | .init c thread =>
    if (y.mutex c).owner = none then some (y.setMutex c fun p => { p with owner := some thread }) else some y
  | .deinit c thread =>
    if (y.mutex c).owner ≠ some thread then some y
    else if (y.mutex c).pc = .idle then some (y.setMutex c fun p => { p with owner := none })
    else none
  | .take c thread =>
    if (y.mutex c).owner ≠ some thread then some y
    else if (y.mutex c).pc = .idle then
      some (y.setMutex c fun p => { p with completion := false, pc := .takeCheck (c.privKey id p.cpu) })
    else none
  | .release c thread =>
    if (y.mutex c).owner ≠ some thread then some y
    else if (y.mutex c).pc = .idle then some (y.setMutex c fun p => { p with pc := .relCheck (c.privKey id p.cpu) })
    else none
  | .access c keep latch => access id y c keep latch
  | .timeout c =>
    match (y.mutex c).pc with
    | .takeWait _ => some (y.setMutex c fun p => { p with pc := .idle })
    | _ => none
  | .isr c =>
    if y.intsts c then
      some ({ y with intsts := Function.update y.intsts c false }.setMutex c fun p => { p with signal := true })
    else none
  | .signal c =>
    if (y.mutex c).signal then some (y.setMutex c fun p => { p with signal := false, completion := true }) else none
  | .move c cpu => some (y.setMutex c fun p => { p with cpu := cpu })
  | .readInten c j =>
    if j ≠ id ∧ y.others c j = none then some (y.setOther c j (some (y.inten c))) else none
  | .writeInten c j enable =>
    if j = id then none
    else (y.others c j).map fun w => (y.writeInten c j enable w).setOther c j none

@[inherit_doc exec]
def HwsemStep (id : Fin 8) (y : Hwsem) (e : Event) (y' : Hwsem) : Prop := exec id y e = some y'

/-- The image that a take is called in. -/
def Event.taking : Event → Option Core
  | .take c _ => some c
  | _ => none

/-- A take is nested at most 256 deep: the count of the takes is a byte. -/
def Shallow (y : Hwsem) (e : Event) : Prop := ∀ c ∈ e.taking, (y.mutex c).depth < 256

instance : DecidableRel Shallow := fun y e => inferInstanceAs (Decidable (∀ c ∈ e.taking, (y.mutex c).depth < 256))

/-- The semaphore after the reset, and images that have not been asked for the mutex. Reference: `drv_hwsem.c:290
rt_hw_hwsem_init`. -/
structure HwsemStart (y : Hwsem) : Prop where
  sem : y.sem = ⟨none, 0⟩
  mutex : ∀ c, (y.mutex c).owner = none ∧ (y.mutex c).hold = 0 ∧ (y.mutex c).pc = .idle ∧ (y.mutex c).depth = 0

/-- The mutex is held by one image at most, for which the semaphore is locked with a key that a release has on one of
the CPUs, until its releases are as many as its takes. The byte that counts them is 0 at 256. -/
structure MutexSafe (id : Fin 8) (y : Hwsem) : Prop where
  exclusive : ∀ c d, 0 < (y.mutex c).depth → 0 < (y.mutex d).depth → c = d
  locked : ∀ c, 0 < (y.mutex c).depth → y.sem.id = some c ∧ ∃ cpu, y.sem.key = c.privKey id cpu
  released : ∀ c, (y.mutex c).pc = .idle → (y.mutex c).depth = 0 → y.sem.id ≠ some c
  hold : ∀ c, (y.mutex c).hold = BitVec.ofNat 8 (y.mutex c).depth

/-! ## The invariant -/

section

variable {id : Fin 8} {c d : Core} {k k' : BitVec 8} {sem : Sem} {p : Priv} {y y' : Hwsem} {e : Event}

/-- A key of an image. -/
def Mine (id : Fin 8) (c : Core) (k : BitVec 8) : Prop := ∃ cpu, k = c.privKey id cpu

theorem privKey_ne : ∀ (id : Fin 8) (cpu cpu' : Fin 4), Core.A35.privKey id cpu ≠ Core.M4.privKey id cpu' := by
  decide +kernel

/-- No key is of two images. -/
theorem Mine.other (h : Mine id c k) (hd : d ≠ c) : ¬ Mine id d k := by
  obtain ⟨cpu, rfl⟩ := h
  rintro ⟨cpu', heq⟩
  cases c with
  | A35 =>
    cases d with
    | A35 => exact hd rfl
    | M4 => exact privKey_ne id cpu cpu' heq
  | M4 =>
    cases d with
    | A35 => exact privKey_ne id cpu' cpu heq.symm
    | M4 => exact hd rfl

theorem privKey_ne_zero : ∀ (c : Core) (id : Fin 8) (cpu : Fin 4), c.privKey id cpu ≠ 0 := by
  rintro (_ | _) <;> decide +kernel

theorem not_mine_zero : ¬ Mine id c 0 := fun ⟨cpu, heq⟩ => privKey_ne_zero c id cpu heq.symm

/-- What holds where a call is. -/
def AtPc (id : Fin 8) (c : Core) (sem : Sem) (depth : Nat) : Pc → Prop
  | .idle | .takeDisable | .takeDisableWrite _ => True
  | .takeCheck k | .takeEnable k | .takeEnableWrite k _ | .takeWait k => Mine id c k ∧ depth < 256
  | .takeCompare k => Mine id c k ∧ depth < 256 ∧ (sem.id = some c ∨ ¬ Mine id c sem.key)
  | .takeLock k => Mine id c k ∧ depth = 0 ∧ sem.id ≠ some c
  | .takeVerify k => Mine id c k ∧ depth = 0 ∧ (sem = ⟨some c, k⟩ ∨ sem.id ≠ some c ∧ ¬ Mine id c sem.key)
  | .relCheck k => Mine id c k
  | .relCompare k => Mine id c k ∧ (sem.id = some c ∨ ¬ Mine id c sem.key)
  | .relUnlock k => Mine id c k ∧ depth = 0 ∧ sem = ⟨some c, k⟩

/-- What holds of an image: it has the semaphore while it has takes to release, or while a call is about to count the
first, or to unlock after the last. -/
structure ImageSound (id : Fin 8) (c : Core) (sem : Sem) (p : Priv) : Prop where
  hold : p.hold = BitVec.ofNat 8 p.depth
  deep : p.depth ≤ 256
  locked : 0 < p.depth → sem.id = some c
  owned : sem.id = some c →
    Mine id c sem.key ∧ (0 < p.depth ∨ p.pc = .relUnlock sem.key ∨ p.pc = .takeVerify sem.key)
  at_pc : AtPc id c sem p.depth p.pc

@[inherit_doc ImageSound]
def Sound (id : Fin 8) (y : Hwsem) : Prop := ∀ c, ImageSound id c y.sem (y.mutex c)

/-- What only changes where no invariant looks. -/
theorem ImageSound.congr {p' : Priv} (h : ImageSound id c sem p) (hhold : p'.hold = p.hold)
    (hdepth : p'.depth = p.depth) (hpc : p'.pc = p.pc) : ImageSound id c sem p' where
  hold := by rw [hhold, hdepth, h.hold]
  deep := hdepth ▸ h.deep
  locked hpos := h.locked (hdepth ▸ hpos)
  owned hid := by
    rw [hdepth, hpc]
    exact h.owned hid
  at_pc := by
    rw [hdepth, hpc]
    exact h.at_pc

/-- A call goes on. -/
theorem ImageSound.goto {p' : Priv} (h : ImageSound id c sem p) (hhold : p'.hold = p.hold)
    (hdepth : p'.depth = p.depth) (hunlock : p.pc ≠ .relUnlock sem.key) (hverify : p.pc ≠ .takeVerify sem.key)
    (hat : AtPc id c sem p.depth p'.pc) : ImageSound id c sem p' where
  hold := by rw [hhold, hdepth, h.hold]
  deep := hdepth ▸ h.deep
  locked hpos := h.locked (hdepth ▸ hpos)
  owned hid := by
    obtain ⟨hmine, hpos | hpc | hpc⟩ := h.owned hid
    · exact ⟨hmine, Or.inl (hdepth ▸ hpos)⟩
    · exact absurd hpc hunlock
    · exact absurd hpc hverify
  at_pc := hdepth ▸ hat

/-- The semaphore changes under an image that does not have it before or after. -/
theorem ImageSound.foreign {sem' : Sem} (h : ImageSound id d sem p) (hbefore : sem.id ≠ some d)
    (hafter : sem'.id ≠ some d) (hkey : ¬ Mine id d sem'.key) : ImageSound id d sem' p where
  hold := h.hold
  deep := h.deep
  locked hpos := absurd (h.locked hpos) hbefore
  owned hid := absurd hid hafter
  at_pc := by
    have hat := h.at_pc
    cases hpc : p.pc with
    | idle => trivial
    | takeDisable => trivial
    | takeDisableWrite w => trivial
    | takeCheck k =>
      rw [hpc] at hat
      exact hat
    | takeEnable k =>
      rw [hpc] at hat
      exact hat
    | takeEnableWrite k w =>
      rw [hpc] at hat
      exact hat
    | takeWait k =>
      rw [hpc] at hat
      exact hat
    | relCheck k =>
      rw [hpc] at hat
      exact hat
    | takeCompare k =>
      rw [hpc] at hat
      exact ⟨hat.1, hat.2.1, Or.inr hkey⟩
    | takeLock k =>
      rw [hpc] at hat
      exact ⟨hat.1, hat.2.1, hafter⟩
    | takeVerify k =>
      rw [hpc] at hat
      exact ⟨hat.1, hat.2.1, Or.inr ⟨hafter, hkey⟩⟩
    | relCompare k =>
      rw [hpc] at hat
      exact ⟨hat.1, Or.inr hkey⟩
    | relUnlock k =>
      rw [hpc] at hat
      exact absurd (congrArg Sem.id hat.2.2) hbefore

/-- Another image writes its key. -/
theorem ImageSound.write_other {keep : Bool} (h : ImageSound id d sem p) (hd : d ≠ c) (hk : Mine id c k) :
    ImageSound id d (sem.write c k keep) p := by
  have hne : (some c : Option Core) ≠ some d := fun heq => hd (Option.some.inj heq).symm
  rw [Sem.write]
  split
  · rename_i hfree
    exact h.foreign (hfree ▸ (Option.some_ne_none d).symm) hne (hk.other hd)
  · split
    · rename_i hunlock
      refine h.foreign (hunlock.1 ▸ hne) (Option.some_ne_none d).symm ?_
      cases keep with
      | true => exact hk.other hd
      | false => exact not_mine_zero
    · exact h

theorem Sound.setMutex {f : Priv → Priv} (h : Sound id y) (hc : ImageSound id c y.sem (f (y.mutex c))) :
    Sound id (y.setMutex c f) := by
  intro d
  by_cases hd : d = c
  · subst hd
    show ImageSound id d y.sem (Function.update y.mutex d _ d)
    rw [Function.update_self]
    exact hc
  · show ImageSound id d y.sem (Function.update y.mutex c _ d)
    rw [Function.update_of_ne hd]
    exact h d

theorem Sound.writeMutex {f : Priv → Priv} {keep latch : Bool} (h : Sound id y) (hk : Mine id c k)
    (hc : ImageSound id c (y.sem.write c k keep) (f (y.mutex c))) :
    Sound id ((y.write id c k keep latch).setMutex c f) := by
  intro d
  by_cases hd : d = c
  · subst hd
    show ImageSound id d (y.sem.write d k keep) (Function.update y.mutex d _ d)
    rw [Function.update_self]
    exact hc
  · show ImageSound id d (y.sem.write c k keep) (Function.update y.mutex c _ d)
    rw [Function.update_of_ne hd]
    exact (h d).write_other hd hk

/-- A semaphore that another image has locked has no key of this one. -/
theorem Sound.mine_or (h : Sound id y) (hlocked : y.sem.id ≠ none) (c : Core) :
    y.sem.id = some c ∨ ¬ Mine id c y.sem.key := by
  obtain ⟨d, hd⟩ := Option.ne_none_iff_exists'.1 hlocked
  by_cases hdc : d = c
  · exact Or.inl (hdc ▸ hd)
  · exact Or.inr (((h d).owned hd).1.other (Ne.symm hdc))

theorem ofNat_add_one (n : Nat) : BitVec.ofNat 8 n + 1 = BitVec.ofNat 8 (n + 1) := by
  rw [BitVec.ofNat_add]
  rfl

theorem ofNat_sub_one {n : Nat} (hn : 0 < n) : BitVec.ofNat 8 n - 1 = BitVec.ofNat 8 (n - 1) := by
  obtain ⟨m, rfl⟩ := Nat.exists_eq_add_of_lt hn
  rw [Nat.zero_add, Nat.add_sub_cancel, ← ofNat_add_one, BitVec.add_sub_cancel]

theorem ofNat_eq_zero {n : Nat} (hn : n < 256) : BitVec.ofNat 8 n = 0 ↔ n = 0 := by
  constructor
  · intro h
    have hval := congrArg BitVec.toNat h
    rw [BitVec.toNat_ofNat, Nat.mod_eq_of_lt hn] at hval
    exact hval
  · rintro rfl
    rfl

/-- A write of the key locks a free semaphore, and leaves one that is locked. -/
theorem Sound.takeLock {keep latch : Bool} (h : Sound id y) (hpc : (y.mutex c).pc = .takeLock k) :
    Sound id ((y.write id c k keep latch).setMutex c fun p => { p with pc := .takeVerify k }) := by
  have hc := h c
  have hat := hc.at_pc
  rw [hpc] at hat
  obtain ⟨hmine, hdepth, hnot⟩ := hat
  refine h.writeMutex hmine ?_
  have hlocked : ¬ 0 < (y.mutex c).depth := by omega
  by_cases hfree : y.sem.id = none
  · have hwrite : y.sem.write c k keep = ⟨some c, k⟩ := if_pos hfree
    rw [hwrite]
    exact ⟨hc.hold, hc.deep, fun hpos => absurd hpos hlocked, fun _ => ⟨hmine, Or.inr (Or.inr rfl)⟩,
      hmine, hdepth, Or.inl rfl⟩
  · have hwrite : y.sem.write c k keep = y.sem := by
      rw [Sem.write, if_neg hfree, if_neg fun heq => hnot heq.1]
    rw [hwrite]
    have hforeign := (h.mine_or hfree c).resolve_left hnot
    exact ⟨hc.hold, hc.deep, fun hpos => absurd hpos hlocked, fun hid => absurd hid hnot,
      hmine, hdepth, Or.inr ⟨hnot, hforeign⟩⟩

/-- An image that reads its key counts a release, and unlocks after the last one. -/
theorem Sound.relCompare (h : Sound id y) (hpc : (y.mutex c).pc = .relCompare k) (hkey : y.sem.key = k) :
    Sound id (y.setMutex c fun p => { p with
      hold := p.hold - 1, depth := p.depth - 1, pc := if p.hold - 1 = 0 then .relUnlock k else .idle }) := by
  have hc := h c
  have hat := hc.at_pc
  rw [hpc] at hat
  obtain ⟨hmine, hsem⟩ := hat
  have hid : y.sem.id = some c := hsem.resolve_right fun hno => hno (hkey ▸ hmine)
  have hpos : 0 < (y.mutex c).depth := by
    rcases (hc.owned hid).2 with hpos | hno | hno
    · exact hpos
    · exact absurd (hpc.symm.trans hno) Pc.noConfusion
    · exact absurd (hpc.symm.trans hno) Pc.noConfusion
  have hdeep := hc.deep
  have hhold : (y.mutex c).hold - 1 = BitVec.ofNat 8 ((y.mutex c).depth - 1) := by
    rw [hc.hold, ofNat_sub_one hpos]
  have hzero : (y.mutex c).hold - 1 = 0 ↔ (y.mutex c).depth - 1 = 0 := by
    rw [hhold, ofNat_eq_zero (by omega)]
  refine h.setMutex ⟨hhold, ?_, fun _ => hid, fun _ => ⟨hkey ▸ hmine, ?_⟩, ?_⟩
  · dsimp only
    omega
  · dsimp only
    by_cases hlast : (y.mutex c).hold - 1 = 0
    · rw [if_pos hlast, hkey]
      exact Or.inr (Or.inl rfl)
    · exact Or.inl (Nat.pos_of_ne_zero fun heq => hlast (hzero.2 heq))
  · dsimp only
    split
    · rename_i hlast
      exact ⟨hmine, hzero.1 hlast, by rw [← hid, ← hkey]⟩
    · trivial

/-- The last release unlocks. -/
theorem Sound.relUnlock {keep latch : Bool} (h : Sound id y) (hpc : (y.mutex c).pc = .relUnlock k) :
    Sound id ((y.write id c k keep latch).setMutex c fun p => { p with pc := .idle }) := by
  have hc := h c
  have hat := hc.at_pc
  rw [hpc] at hat
  obtain ⟨hmine, hdepth, hsem⟩ := hat
  refine h.writeMutex hmine ?_
  have hwrite : y.sem.write c k keep = ⟨none, if keep then k else 0⟩ := by
    rw [hsem, Sem.write, if_neg (Option.some_ne_none c), if_pos ⟨rfl, rfl⟩]
  rw [hwrite]
  refine ⟨hc.hold, hc.deep, fun hpos => ?_, fun hid => absurd hid (Option.some_ne_none c).symm, trivial⟩
  dsimp only at hpos
  omega

/-- An access of a call. -/
theorem Sound.access {keep latch : Bool} (h : Sound id y) (hexec : DrvHwsem.access id y c keep latch = some y') :
    Sound id y' := by
  have hc := h c
  have hat := hc.at_pc
  rw [DrvHwsem.access] at hexec
  cases hpc : (y.mutex c).pc with
  | idle =>
    rw [hpc] at hexec
    cases hexec
  | takeCheck k =>
    rw [hpc] at hexec hat
    cases hexec
    refine h.setMutex (hc.goto rfl rfl (hpc ▸ Pc.noConfusion) (hpc ▸ Pc.noConfusion) ?_)
    dsimp only
    split
    · rename_i hlocked
      exact ⟨hat.1, hat.2, h.mine_or hlocked c⟩
    · rename_i hfree
      rw [not_not] at hfree
      refine ⟨hat.1, ?_, hfree ▸ (Option.some_ne_none c).symm⟩
      by_contra hpos
      have hlocked := hc.locked (Nat.pos_of_ne_zero hpos)
      rw [hfree] at hlocked
      cases hlocked
  | takeCompare k =>
    rw [hpc] at hexec hat
    dsimp only at hexec
    split at hexec
    · cases hexec
      exact h.setMutex (hc.goto rfl rfl (hpc ▸ Pc.noConfusion) (hpc ▸ Pc.noConfusion) ⟨hat.1, hat.2.1⟩)
    · rename_i hkey
      rw [not_not] at hkey
      cases hexec
      obtain ⟨hmine, hdeep, hsem⟩ := hat
      -- with a key of this image the semaphore is its own
      have hid : y.sem.id = some c := hsem.resolve_right fun hno => hno (hkey ▸ hmine)
      refine h.setMutex ⟨?_, hdeep, fun _ => hid, fun _ => ⟨hkey ▸ hmine, Or.inl (Nat.succ_pos _)⟩, trivial⟩
      dsimp only
      rw [hc.hold, ofNat_add_one]
  | takeEnable k =>
    rw [hpc] at hexec hat
    cases hexec
    exact h.setMutex (hc.goto rfl rfl (hpc ▸ Pc.noConfusion) (hpc ▸ Pc.noConfusion) hat)
  | takeEnableWrite k w =>
    rw [hpc] at hexec hat
    cases hexec
    have h' : Sound id (y.writeInten c id true w) := h
    exact h'.setMutex (hc.goto rfl rfl (hpc ▸ Pc.noConfusion) (hpc ▸ Pc.noConfusion) hat)
  | takeWait k =>
    rw [hpc] at hexec hat
    dsimp only at hexec
    split at hexec
    · cases hexec
      exact h.setMutex (hc.goto rfl rfl (hpc ▸ Pc.noConfusion) (hpc ▸ Pc.noConfusion) hat)
    · cases hexec
  | takeLock k =>
    rw [hpc] at hexec
    cases hexec
    exact h.takeLock hpc
  | takeVerify k =>
    rw [hpc] at hexec hat
    dsimp only at hexec
    obtain ⟨hmine, hdepth, hsem⟩ := hat
    split at hexec
    · rename_i hkey
      cases hexec
      have hown : y.sem = ⟨some c, k⟩ := hsem.resolve_right fun hno => hno.2 (hkey ▸ hmine)
      have hid : y.sem.id = some c := congrArg Sem.id hown
      refine h.setMutex ⟨?_, ?_, fun _ => hid, fun _ => ⟨hkey ▸ hmine, Or.inl (Nat.succ_pos _)⟩, trivial⟩
      · dsimp only
        rw [hdepth]
        rfl
      · dsimp only
        omega
    · rename_i hkey
      cases hexec
      have hnot : y.sem.id ≠ some c := by
        rcases hsem with hown | hno
        · exact absurd (congrArg Sem.key hown) hkey
        · exact hno.1
      refine h.setMutex ⟨hc.hold, hc.deep, hc.locked, fun hid => absurd hid hnot, hmine, ?_⟩
      dsimp only
      omega
  | takeDisable =>
    rw [hpc] at hexec
    cases hexec
    exact h.setMutex (hc.goto rfl rfl (hpc ▸ Pc.noConfusion) (hpc ▸ Pc.noConfusion) trivial)
  | takeDisableWrite w =>
    rw [hpc] at hexec
    cases hexec
    have h' : Sound id (y.writeInten c id false w) := h
    exact h'.setMutex (hc.goto rfl rfl (hpc ▸ Pc.noConfusion) (hpc ▸ Pc.noConfusion) trivial)
  | relCheck k =>
    rw [hpc] at hexec hat
    cases hexec
    refine h.setMutex (hc.goto rfl rfl (hpc ▸ Pc.noConfusion) (hpc ▸ Pc.noConfusion) ?_)
    dsimp only
    split
    · rename_i hlocked
      exact ⟨hat, h.mine_or hlocked c⟩
    · trivial
  | relCompare k =>
    rw [hpc] at hexec
    dsimp only at hexec
    split at hexec
    · rename_i hkey
      cases hexec
      exact h.relCompare hpc hkey
    · cases hexec
      exact h.setMutex (hc.goto rfl rfl (hpc ▸ Pc.noConfusion) (hpc ▸ Pc.noConfusion) trivial)
  | relUnlock k =>
    rw [hpc] at hexec
    cases hexec
    exact h.relUnlock hpc

/-- A step. -/
theorem Sound.step (h : Sound id y) (hstep : where_ (HwsemStep id) Shallow y e y') : Sound id y' := by
  obtain ⟨hshallow, hexec⟩ := hstep
  rw [HwsemStep] at hexec
  cases e with
  | access c keep latch => exact h.access hexec
  | init c thread =>
    rw [exec] at hexec
    split at hexec
    · cases hexec
      exact h.setMutex ((h c).congr rfl rfl rfl)
    · cases hexec
      exact h
  | deinit c thread =>
    rw [exec] at hexec
    split at hexec
    · cases hexec
      exact h
    · split at hexec
      · cases hexec
        exact h.setMutex ((h c).congr rfl rfl rfl)
      · cases hexec
  | take c thread =>
    rw [exec] at hexec
    split at hexec
    · cases hexec
      exact h
    · split at hexec
      · rename_i hidle
        cases hexec
        exact h.setMutex ((h c).goto rfl rfl (hidle ▸ Pc.noConfusion) (hidle ▸ Pc.noConfusion) ⟨⟨_, rfl⟩, hshallow c rfl⟩)
      · cases hexec
  | release c thread =>
    rw [exec] at hexec
    split at hexec
    · cases hexec
      exact h
    · split at hexec
      · rename_i hidle
        cases hexec
        exact h.setMutex ((h c).goto rfl rfl (hidle ▸ Pc.noConfusion) (hidle ▸ Pc.noConfusion) ⟨_, rfl⟩)
      · cases hexec
  | timeout c =>
    rw [exec] at hexec
    split at hexec
    · rename_i k hwait
      cases hexec
      exact h.setMutex ((h c).goto rfl rfl (hwait ▸ Pc.noConfusion) (hwait ▸ Pc.noConfusion) trivial)
    · cases hexec
  | isr c =>
    rw [exec] at hexec
    split at hexec
    · cases hexec
      have h' : Sound id { y with intsts := Function.update y.intsts c false } := h
      exact h'.setMutex ((h c).congr rfl rfl rfl)
    · cases hexec
  | signal c =>
    rw [exec] at hexec
    split at hexec
    · cases hexec
      exact h.setMutex ((h c).congr rfl rfl rfl)
    · cases hexec
  | move c cpu =>
    cases hexec
    exact h.setMutex ((h c).congr rfl rfl rfl)
  | readInten c j =>
    rw [exec] at hexec
    split at hexec
    · cases hexec
      exact h
    · cases hexec
  | writeInten c j enable =>
    rw [exec] at hexec
    split at hexec
    · cases hexec
    · obtain ⟨w, -, rfl⟩ := Option.map_eq_some_iff.1 hexec
      exact h

theorem Sound.safe (h : Sound id y) : MutexSafe id y where
  exclusive c d hc hd := Option.some.inj (((h c).locked hc).symm.trans ((h d).locked hd))
  locked c hpos := ⟨(h c).locked hpos, ((h c).owned ((h c).locked hpos)).1⟩
  released c hidle hdepth hid := by
    rcases ((h c).owned hid).2 with hpos | hno | hno
    · omega
    · exact absurd (hidle.symm.trans hno) Pc.noConfusion
    · exact absurd (hidle.symm.trans hno) Pc.noConfusion
  hold c := (h c).hold

theorem HwsemStart.sound (h : HwsemStart y) : Sound id y := by
  intro c
  obtain ⟨-, hhold, hpc, hdepth⟩ := h.mutex c
  refine ⟨?_, ?_, fun hpos => ?_, fun hid => ?_, ?_⟩
  · rw [hhold, hdepth]
    rfl
  · omega
  · omega
  · rw [h.sem] at hid
    cases hid
  · rw [hpc]
    trivial

end

/-- **The mutex excludes.** In every run whose takes are nested at most 256 deep. -/
theorem hwsem_exclusive (id : Fin 8) (y₀ y : Hwsem) (events : List Event) (h0 : HwsemStart y₀)
    (hrun : Run (where_ (HwsemStep id) Shallow) y₀ events y) : MutexSafe id y :=
  (hrun.invariant (I := Sound id) Sound.step h0.sound).safe

/-- A CPU has a number of two bits. -/
scoped instance neZeroCpus : NeZero (4 : Nat) := ⟨by decide⟩

/-- The semaphore after the reset. -/
def freeHwsem : Hwsem where
  sem := ⟨none, 0⟩
  intsts _ := false
  inten _ := 0
  mutex _ := ⟨none, 0, false, 0, .idle, false, 0⟩
  others _ _ := none

/-- A thread of the first core takes the mutex, and one of the second comes to wait for it. -/
def contendedEvents : List Event :=
  [.init .A35 1, .init .M4 2, .take .A35 1, .access .A35 true true, .access .A35 true true, .access .A35 true true,
    .access .A35 true true, .access .A35 true true, .take .M4 2, .access .M4 true true, .access .M4 true true, .access .M4 true true,
    .access .M4 true true]

theorem contended_isSome :
    (contendedEvents.foldlM (fun y e => if Shallow y e then exec 0 y e else none) freeHwsem).isSome := by
  decide +kernel

@[inherit_doc contendedEvents]
def contendedHwsem : Hwsem := Option.get _ contended_isSome

theorem freeHwsem_start : HwsemStart freeHwsem := ⟨rfl, fun _ => ⟨rfl, rfl, rfl, rfl⟩⟩

theorem contendedHwsem_run : Run (where_ (HwsemStep 0) Shallow) freeHwsem contendedEvents contendedHwsem :=
  Run.of_foldlM_where id (Option.some_get contended_isSome).symm

theorem hwsem_exclusive_contended : MutexSafe 0 contendedHwsem :=
  hwsem_exclusive 0 freeHwsem contendedHwsem contendedEvents freeHwsem_start contendedHwsem_run

/-! ## Waiting -/

/-- The hardware keeps the flag of an unlock whether or not the interrupt is enabled. -/
def Event.latched : Event → Bool
  | .access _ _ latch => latch
  | _ => true

/-- The image and the semaphore that an enable register is written back for. -/
def Event.writing : Event → Option (Core × Fin 8)
  | .writeInten c j _ => some (c, j)
  | _ => none

/-- A step after which no unlock is lost: it is latched, and a call for another semaphore that writes the enable register
back does not clear the bit of this one, which the register had not when the call read it. -/
def UnlockKept (id : Fin 8) (y : Hwsem) (e : Event) : Prop :=
  e.latched = true ∧
    ∀ x ∈ e.writing, y.enabled id x.1 = true → ∀ w ∈ y.others x.1 x.2, w.getLsbD id.val = true

instance decidableBitKept (id : Fin 8) (w : Option (BitVec 32)) : Decidable (∀ w' ∈ w, w'.getLsbD id.val = true) :=
  Option.decidableForallMem w

instance (id : Fin 8) : DecidableRel (UnlockKept id) := fun y e =>
  inferInstanceAs (Decidable (e.latched = true ∧
    ∀ x ∈ e.writing, y.enabled id x.1 = true → ∀ w ∈ y.others x.1 x.2, w.getLsbD id.val = true))

/-- What a waiting image is woken by, when the semaphore is free. -/
def Woken (y : Hwsem) (c : Core) : Prop :=
  y.sem.id ≠ none ∨ y.intsts c = true ∨ (y.mutex c).signal = true ∨ (y.mutex c).completion = true

/-- What holds where a call has seen the semaphore locked, and where it waits. -/
def AtWait (id : Fin 8) (y : Hwsem) (c : Core) : Prop :=
  match (y.mutex c).pc with
  | .takeCompare _ | .takeEnable _ | .takeEnableWrite _ _ => Woken y c
  | .takeWait _ => Woken y c ∧ y.enabled id c = true
  | _ => True

section

variable {id : Fin 8} {c d : Core} {k : BitVec 8} {y y' : Hwsem} {e : Event}

/-- What changes elsewhere. -/
theorem AtWait.congr (h : AtWait id y d) (hwoken : Woken y d → Woken y' d)
    (henabled : y.enabled id d = true → y'.enabled id d = true) (hpc : (y'.mutex d).pc = (y.mutex d).pc) :
    AtWait id y' d := by
  rw [AtWait, hpc]
  rw [AtWait] at h
  split
  · rename_i heq
    rw [heq] at h
    exact hwoken h
  · rename_i heq
    rw [heq] at h
    exact hwoken h
  · rename_i heq
    rw [heq] at h
    exact hwoken h
  · rename_i heq
    rw [heq] at h
    exact ⟨hwoken h.1, henabled h.2⟩
  · trivial

/-- The flag of an unlock is kept, a locked semaphore needs none. -/
theorem Woken.write (h : Woken y d) (id : Fin 8) (c : Core) (k : BitVec 8) (keep : Bool) :
    Woken (y.write id c k keep true) d := by
  by_cases hunlock : y.sem.unlocks c k = true
  · refine Or.inr (Or.inl ?_)
    show (y.intsts d || (y.sem.unlocks c k && (y.enabled id d || true))) = true
    rw [hunlock]
    simp
  · have hno : ¬ (y.sem.id = some c ∧ y.sem.key = k) := by simpa [Sem.unlocks] using hunlock
    rcases h with hlocked | hflag | hrest
    · refine Or.inl ?_
      show (y.sem.write c k keep).id ≠ none
      rw [Sem.write, if_neg hlocked, if_neg hno]
      exact hlocked
    · refine Or.inr (Or.inl ?_)
      show (y.intsts d || _) = true
      rw [hflag, Bool.true_or]
    · exact Or.inr (Or.inr hrest)

theorem setMutex_self (y : Hwsem) (c : Core) (f : Priv → Priv) : (y.setMutex c f).mutex c = f (y.mutex c) :=
  Function.update_self ..

theorem setMutex_of_ne (hd : d ≠ c) (y : Hwsem) (f : Priv → Priv) : (y.setMutex c f).mutex d = y.mutex d :=
  Function.update_of_ne hd ..

/-- What wakes an image is kept where its call goes on. -/
theorem Woken.setMutex {f : Priv → Priv} (h : Woken y c) (hsignal : (f (y.mutex c)).signal = (y.mutex c).signal)
    (hdone : (f (y.mutex c)).completion = (y.mutex c).completion) : Woken (y.setMutex c f) c := by
  rw [Woken, setMutex_self, hsignal, hdone]
  exact h

/-- The images of the mutex after one has changed. -/
theorem atWait_setMutex {f : Priv → Priv} (h : ∀ d, AtWait id y d) (hc : AtWait id (y.setMutex c f) c) :
    ∀ d, AtWait id (y.setMutex c f) d := by
  intro d
  by_cases hd : d = c
  · exact hd ▸ hc
  · have hsame := setMutex_of_ne hd y f
    refine (h d).congr (fun hwoken => ?_) (fun henabled => henabled) (congrArg Priv.pc hsame)
    rw [Woken, hsame]
    exact hwoken

/-- A call has not seen the semaphore locked, or is past its wait. -/
def Pc.calm : Pc → Bool
  | .takeCompare _ | .takeEnable _ | .takeEnableWrite _ _ | .takeWait _ => false
  | _ => true

/-- An image whose call is elsewhere. -/
theorem atWait_of_calm (hcalm : (y.mutex c).pc.calm = true) : AtWait id y c := by
  rw [AtWait]
  split
  · rename_i heq
    rw [heq] at hcalm
    cases hcalm
  · rename_i heq
    rw [heq] at hcalm
    cases hcalm
  · rename_i heq
    rw [heq] at hcalm
    cases hcalm
  · rename_i heq
    rw [heq] at hcalm
    cases hcalm
  · trivial

/-- A call goes on where nothing is waited for. -/
theorem atWait_goto {f : Priv → Priv} (h : ∀ d, AtWait id y d) (hcalm : (f (y.mutex c)).pc.calm = true) :
    ∀ d, AtWait id (y.setMutex c f) d := by
  refine atWait_setMutex h (atWait_of_calm ?_)
  rwa [setMutex_self]

/-- The call of an image stays where it is. -/
theorem atWait_stay {f : Priv → Priv} (h : ∀ d, AtWait id y d) (hpc : (f (y.mutex c)).pc = (y.mutex c).pc)
    (hwoken : Woken y c → Woken (y.setMutex c f) c) : ∀ d, AtWait id (y.setMutex c f) d :=
  atWait_setMutex h ((h c).congr hwoken (fun henabled => henabled)
    ((congrArg Priv.pc (setMutex_self y c f)).trans hpc))

/-- A call that has seen the semaphore locked goes on to its wait. -/
theorem atWait_toWait {f : Priv → Priv} (h : ∀ d, AtWait id y d) (hwoken : Woken (y.setMutex c f) c)
    (hwait : ∀ k, (f (y.mutex c)).pc = .takeWait k → y.enabled id c = true) :
    ∀ d, AtWait id (y.setMutex c f) d := by
  refine atWait_setMutex h ?_
  rw [AtWait, setMutex_self]
  split
  · exact hwoken
  · exact hwoken
  · exact hwoken
  · rename_i heq
    exact ⟨hwoken, hwait _ heq⟩
  · trivial

theorem atWait_write (h : ∀ d, AtWait id y d) (c : Core) (k : BitVec 8) (keep : Bool) :
    ∀ d, AtWait id (y.write id c k keep true) d :=
  fun d => (h d).congr (fun hwoken => hwoken.write id c k keep) (fun henabled => henabled) rfl

/-- The enable register of an image is written, and its own bit is not cleared under a wait. -/
theorem atWait_writeInten {j : Fin 8} {enable : Bool} {w : BitVec 32} (h : ∀ d, AtWait id y d)
    (hself : y.enabled id c = true → (intenWord j enable w).getLsbD id.val = true) :
    ∀ d, AtWait id (y.writeInten c j enable w) d := by
  intro d
  refine (h d).congr (fun hwoken => hwoken) (fun henabled => ?_) rfl
  show (Function.update y.inten c _ d).getLsbD id.val = true
  by_cases hd : d = c
  · subst hd
    rw [Function.update_self]
    exact hself henabled
  · rw [Function.update_of_ne hd]
    exact henabled

/-- An image that is past its wait clears its own bit. -/
theorem atWait_disable (h : ∀ d, AtWait id y d) (c : Core) (w : BitVec 32) :
    ∀ d, AtWait id ((y.writeInten c id false w).setMutex c fun p => { p with pc := .idle }) d := by
  intro d
  by_cases hd : d = c
  · subst hd
    refine atWait_of_calm ?_
    rw [setMutex_self]
    rfl
  · have hsame := setMutex_of_ne hd (y.writeInten c id false w) fun p => { p with pc := .idle }
    refine (h d).congr (fun hwoken => ?_) (fun henabled => ?_) (congrArg Priv.pc hsame)
    · rw [Woken, hsame]
      exact hwoken
    · show (Function.update y.inten c _ d).getLsbD id.val = true
      rw [Function.update_of_ne hd]
      exact henabled

/-- The flag of an image becomes the signal of its interrupt. -/
theorem atWait_isr (h : ∀ d, AtWait id y d) (c : Core) :
    ∀ d, AtWait id (Hwsem.setMutex { y with intsts := Function.update y.intsts c false } c fun p =>
      { p with signal := true }) d := by
  intro d
  by_cases hd : d = c
  · subst hd
    refine (h d).congr (fun _ => Or.inr (Or.inr (Or.inl ?_))) (fun henabled => henabled) ?_
    · rw [setMutex_self]
    · rw [setMutex_self]
  · have hsame := setMutex_of_ne hd { y with intsts := Function.update y.intsts c false } fun p =>
      { p with signal := true }
    refine (h d).congr (fun hwoken => ?_) (fun henabled => henabled) (congrArg Priv.pc hsame)
    rw [Woken, hsame]
    show _ ∨ Function.update y.intsts c false d = true ∨ _
    rw [Function.update_of_ne hd]
    exact hwoken

/-- An access of a call, where unlocks are latched. -/
theorem atWait_access {keep : Bool} (h : ∀ d, AtWait id y d) (hexec : access id y c keep true = some y') :
    ∀ d, AtWait id y' d := by
  rw [access] at hexec
  have hc := h c
  rw [AtWait] at hc
  cases hpc : (y.mutex c).pc with
  | idle =>
    rw [hpc] at hexec
    cases hexec
  | takeCheck k =>
    rw [hpc] at hexec
    cases hexec
    refine atWait_setMutex h ?_
    rw [AtWait, setMutex_self]
    dsimp only
    by_cases hlocked : y.sem.id ≠ none
    · rw [if_pos hlocked]
      exact Or.inl hlocked
    · rw [if_neg hlocked]
      trivial
  | takeCompare k =>
    rw [hpc] at hexec hc
    dsimp only at hexec
    split at hexec
    · cases hexec
      refine atWait_toWait h (Woken.setMutex hc rfl rfl) fun _ hwait => ?_
      cases hwait
    · cases hexec
      exact atWait_goto h rfl
  | takeEnable k =>
    rw [hpc] at hexec hc
    cases hexec
    refine atWait_toWait h (Woken.setMutex hc rfl rfl) fun _ hwait => ?_
    cases hwait
  | takeEnableWrite k w =>
    rw [hpc] at hexec hc
    cases hexec
    have hbit : (intenWord id true w).getLsbD id.val = true := intenWord_self id w
    have hwoken : Woken (y.writeInten c id true w) c := hc
    refine atWait_toWait (atWait_writeInten h fun _ => hbit) (hwoken.setMutex rfl rfl) fun _ _ => ?_
    show (Function.update y.inten c _ c).getLsbD id.val = true
    rw [Function.update_self]
    exact hbit
  | takeWait k =>
    rw [hpc] at hexec
    dsimp only at hexec
    split at hexec
    · cases hexec
      exact atWait_goto h rfl
    · cases hexec
  | takeLock k =>
    rw [hpc] at hexec
    cases hexec
    exact atWait_goto (atWait_write h c k keep) rfl
  | takeVerify k =>
    rw [hpc] at hexec
    dsimp only at hexec
    split at hexec
    · cases hexec
      exact atWait_goto h rfl
    · cases hexec
      exact atWait_goto h rfl
  | takeDisable =>
    rw [hpc] at hexec
    cases hexec
    exact atWait_goto h rfl
  | takeDisableWrite w =>
    rw [hpc] at hexec
    cases hexec
    exact atWait_disable h c w
  | relCheck k =>
    rw [hpc] at hexec
    cases hexec
    refine atWait_goto h ?_
    dsimp only
    split <;> rfl
  | relCompare k =>
    rw [hpc] at hexec
    dsimp only at hexec
    split at hexec
    · cases hexec
      refine atWait_goto h ?_
      dsimp only
      split <;> rfl
    · cases hexec
      exact atWait_goto h rfl
  | relUnlock k =>
    rw [hpc] at hexec
    cases hexec
    exact atWait_goto (atWait_write h c k keep) rfl

/-- A step, where unlocks are latched. -/
theorem atWait_step (h : ∀ d, AtWait id y d) (hstep : where_ (HwsemStep id) (UnlockKept id) y e y') :
    ∀ d, AtWait id y' d := by
  obtain ⟨⟨hlatched, hkept⟩, hexec⟩ := hstep
  rw [HwsemStep] at hexec
  cases e with
  | access c keep latch =>
    have hlatch : latch = true := hlatched
    subst hlatch
    exact atWait_access h hexec
  | init c thread =>
    rw [exec] at hexec
    split at hexec
    · cases hexec
      exact atWait_stay h rfl fun hwoken => hwoken.setMutex rfl rfl
    · cases hexec
      exact h
  | deinit c thread =>
    rw [exec] at hexec
    split at hexec
    · cases hexec
      exact h
    · split at hexec
      · cases hexec
        exact atWait_stay h rfl fun hwoken => hwoken.setMutex rfl rfl
      · cases hexec
  | take c thread =>
    rw [exec] at hexec
    split at hexec
    · cases hexec
      exact h
    · split at hexec
      · cases hexec
        exact atWait_goto h rfl
      · cases hexec
  | release c thread =>
    rw [exec] at hexec
    split at hexec
    · cases hexec
      exact h
    · split at hexec
      · cases hexec
        exact atWait_goto h rfl
      · cases hexec
  | timeout c =>
    rw [exec] at hexec
    split at hexec
    · cases hexec
      exact atWait_goto h rfl
    · cases hexec
  | isr c =>
    rw [exec] at hexec
    split at hexec
    · cases hexec
      exact atWait_isr h c
    · cases hexec
  | signal c =>
    rw [exec] at hexec
    split at hexec
    · cases hexec
      refine atWait_stay h rfl fun _ => Or.inr (Or.inr (Or.inr ?_))
      rw [setMutex_self]
    · cases hexec
  | move c cpu =>
    cases hexec
    exact atWait_stay h rfl fun hwoken => hwoken.setMutex rfl rfl
  | readInten c j =>
    rw [exec] at hexec
    split at hexec
    · cases hexec
      exact h
    · cases hexec
  | writeInten c j enable =>
    rw [exec] at hexec
    split at hexec
    · cases hexec
    · rename_i hj
      obtain ⟨w, hw, rfl⟩ := Option.map_eq_some_iff.1 hexec
      have hbit : y.enabled id c = true → (intenWord j enable w).getLsbD id.val = true := fun henabled => by
        rw [intenWord_ne hj]
        exact hkept (c, j) rfl henabled w hw
      exact atWait_writeInten h hbit

end

/-- **No waiter sleeps on a free semaphore.** In every run in which unlocks are latched and no call for another semaphore
clears the waiter's enable bit, a waiting image has been told of the unlock, or its interrupt is on the way. -/
theorem hwsem_wakes (id : Fin 8) (y₀ y : Hwsem) (events : List Event) (c : Core) (k : BitVec 8) (h0 : HwsemStart y₀)
    (hrun : Run (where_ (HwsemStep id) (UnlockKept id)) y₀ events y) (hwait : (y.mutex c).pc = .takeWait k)
    (hfree : y.sem.id = none) :
    (y.mutex c).completion = true ∨ (y.mutex c).signal = true ∨ y.intsts c = true ∧ y.enabled id c = true := by
  have hstart : ∀ d, AtWait id y₀ d := by
    intro d
    refine atWait_of_calm ?_
    rw [(h0.mutex d).2.2.1]
    rfl
  have hat := hrun.invariant (I := fun y => ∀ d, AtWait id y d) atWait_step hstart c
  rw [AtWait, hwait] at hat
  obtain ⟨hlocked | hflag | hsignal | hdone, henabled⟩ := hat
  · exact absurd hfree hlocked
  · exact Or.inr (Or.inr ⟨hflag, henabled⟩)
  · exact Or.inr (Or.inl hsignal)
  · exact Or.inl hdone

/-- The thread of the first core releases the mutex, and the other one has not been told yet. Before, a call of the
second core for semaphore 1 has come between. -/
def releasedEvents : List Event :=
  contendedEvents ++ [.readInten .M4 1, .writeInten .M4 1 true, .release .A35 1, .access .A35 true true,
    .access .A35 true true, .access .A35 true true]

theorem released_isSome :
    (releasedEvents.foldlM (fun y e => if UnlockKept 0 y e then exec 0 y e else none) freeHwsem).isSome := by
  decide +kernel

@[inherit_doc releasedEvents]
def releasedHwsem : Hwsem := Option.get _ released_isSome

theorem releasedHwsem_run :
    Run (where_ (HwsemStep 0) (UnlockKept 0)) freeHwsem releasedEvents releasedHwsem :=
  Run.of_foldlM_where id (Option.some_get released_isSome).symm

theorem hwsem_wakes_released : (releasedHwsem.mutex .M4).completion = true ∨ (releasedHwsem.mutex .M4).signal = true ∨
    releasedHwsem.intsts .M4 = true ∧ releasedHwsem.enabled 0 .M4 = true :=
  hwsem_wakes 0 freeHwsem releasedHwsem releasedEvents .M4 (Core.M4.privKey 0 0) freeHwsem_start releasedHwsem_run
    (by decide +kernel) (by decide +kernel)

/-- A call of the second core for semaphore 1 reads the enable register before the waiter's bit is in it, and writes it
back after. -/
def wipedEvents : List Event :=
  .readInten .M4 1 :: contendedEvents ++ [.writeInten .M4 1 true, .release .A35 1, .access .A35 true true,
    .access .A35 true true, .access .A35 true true]

theorem wiped_isSome : (wipedEvents.foldlM (exec 0) freeHwsem).isSome := by
  decide +kernel

@[inherit_doc wipedEvents]
def wipedHwsem : Hwsem := Option.get _ wiped_isSome

/-- The second core waits for a semaphore that is free, and nothing is on the way that wakes it. -/
theorem hwsem_sleeps : wipedEvents.foldlM (exec 0) freeHwsem = some wipedHwsem ∧ (∀ e ∈ wipedEvents, e.latched = true) ∧
    (wipedHwsem.mutex .M4).pc = .takeWait (Core.M4.privKey 0 0) ∧ wipedHwsem.sem.id = none ∧
      (wipedHwsem.mutex .M4).completion = false ∧ (wipedHwsem.mutex .M4).signal = false ∧
      wipedHwsem.enabled 0 .M4 = false :=
  ⟨(Option.some_get wiped_isSome).symm, by decide, by decide +kernel, by decide +kernel, by decide +kernel,
    by decide +kernel, by decide +kernel⟩

end NumakerMA35D1.DrvHwsem

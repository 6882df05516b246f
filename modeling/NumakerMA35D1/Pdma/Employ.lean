import NumakerMA35D1.Pdma.ChannelRun
import NumakerMA35D1.Pdma.Starts
import NumakerMA35D1.Lib.Permits
import NumakerMA35D1.Lib.Run

/-!
# Threads that share the memory actors

Any number of threads in `nu_pdma_memfun`, as `nu_pdma_memcpy` and `nu_pdma_mempush` call it, and the
interrupt handler. A thread is at a place of the function (`Pc`) and takes one step at a time: one
operation on a semaphore, on the mutex or on the mask, or one call of the driver. A call that does not
return leaves its thread there for good (`stopped`).

A unit of an actor's semaphore bears the number of the call whose transfer was ended when it was
released; the code does not read it.

Reference: `drv_pdma.c:1155` to `:1264`.
-/

namespace NumakerMA35D1.Pdma.Actors

open Embedded

/-- A call of `nu_pdma_memfun`, with a number of its own. -/
structure Call where
  id : Nat
  dest : BitVec 32
  src : BitVec 32
  u32DataWidth : BitVec 32
  u32TransferCnt : BitVec 32
  eMemCtl : NuPdmaMemctrl

/-- Where a thread is. Reference: `drv_pdma.c:1167 nu_pdma_memfun_employ`, `:1196 nu_pdma_memfun`. -/
inductive Pc
  /-- In no call. -/
  | idle
  /-- Before the pool semaphore is taken, `:1174`. -/
  | poolTake (c : Call)
  /-- Before the mutex is taken, `:1178`. -/
  | lockTake (c : Call)
  /-- Before a free actor is looked for, `:1182`. -/
  | headhunt (c : Call)
  /-- Before the mutex is given back, `:1191`. -/
  | lockGive (c : Call) (idx : Option Nat)
  /-- Before each call that prepares the channel, `:1213` to `:1225`. -/
  | memctrl (c : Call) (idx : Nat)
  | filtering (c : Call) (idx : Nat)
  | register (c : Call) (idx : Nat)
  | result (c : Call) (idx : Nat)
  /-- Before the transfer, `:1226`. -/
  | transfer (c : Call) (idx : Nat)
  /-- Before the actor's semaphore is taken, `:1234`. -/
  | wait (c : Call) (idx : Nat)
  /-- Before the result is read, `:1238`. -/
  | terminate (c : Call) (idx : Nat)
  /-- Before the mutex is taken again, `:1253`. -/
  | fireLock (idx : Nat) (ret : BitVec 32)
  /-- Before the actor's bit is cleared, `:1256`. -/
  | clear (idx : Nat) (ret : BitVec 32)
  /-- Before the mutex is given back, `:1258`. -/
  | fireUnlock (ret : BitVec 32)
  /-- Before the pool semaphore is released, `:1262`. -/
  | poolGive (ret : BitVec 32)
  /-- In a call of the driver that does not return. -/
  | stopped (idx : Nat)

/-- The driver, the mutex's holder, the units of the actors' semaphores, the transfers the engine is
at by channel, the threads, and the number of the next call. -/
structure System (n : Nat) where
  driver : NuPdma
  lock : Option (Fin n)
  sem : Nat → List Nat
  flight : BitVec 32 → Option Nat
  thread : Fin n → Pc
  calls : Nat

/-- The threads idle and the engine at rest. -/
def System.start (n : Nat) (driver : NuPdma) : System n where
  driver := driver
  lock := none
  sem _ := []
  flight _ := none
  thread _ := .idle
  calls := 0

variable {n : Nat}

/-- The channel of an actor. -/
def chan (s : NuPdma) (idx : Nat) : BitVec 32 := (s.nuPdmaMemfunActorArr idx).m_i32ChannID

/-- The events that the actors' callbacks are called on. -/
def memfunEvents : BitVec 32 := NU_PDMA_EVENT_ABORT ||| NU_PDMA_EVENT_TRANSFER_DONE

/-- A thread at another place. -/
def System.goto (s : System n) (t : Fin n) (pc : Pc) : System n :=
  { s with thread := Function.update s.thread t pc }

/-- A thread after a call of the driver. -/
def System.called (s : System n) (t : Fin n) (idx : Nat) (x : Except Halt NuPdma) (pc : Pc) :
    System n :=
  match x with
  | .error _ => s.goto t (.stopped idx)
  | .ok driver => { s.goto t pc with driver }

/-- A transfer started, by the thread's call. Its result is not looked at. -/
def System.transfer (s : System n) (t : Fin n) (c : Call) (idx : Nat) (m : Malloc) : System n :=
  match nuPdmaTransfer m s.driver (chan s.driver idx) c.u32DataWidth c.src c.dest c.u32TransferCnt
      0#32 with
  | .error _ => s.goto t (.stopped idx)
  | .ok (ret, driver) =>
    { s.goto t (.wait c idx) with
      driver
      flight := if ret = RT_EOK then
          Function.update s.flight (chan s.driver idx) (some c.id) else s.flight }

/-- The elements moved, by the result of the actor. Reference: `drv_pdma.c:1238` to `:1245`. -/
def moved (s : NuPdma) (c : Call) (idx : Nat) : BitVec 32 :=
  if (s.nuPdmaMemfunActorArr idx).m_u32Result &&& NU_PDMA_EVENT_TRANSFER_DONE ≠ 0#32 then
    c.u32TransferCnt
  else c.u32TransferCnt - nuPdmaNonTransferCountGet s (chan s idx)

/-- The channel terminated after an abort. Reference: `drv_pdma.c:1248` to `:1251`. -/
def terminated (s : NuPdma) (idx : Nat) : Except Halt NuPdma :=
  if (s.nuPdmaMemfunActorArr idx).m_u32Result &&& NU_PDMA_EVENT_ABORT ≠ 0#32 then
    nuPdmaChannelTerminate s (chan s idx)
  else .ok s

/-- The next step of a thread, with what the allocator answers in it; none while it waits. -/
def System.go (s : System n) (t : Fin n) (m : Malloc) : Option (System n) :=
  let ch := fun idx => chan s.driver idx
  match s.thread t with
  | .idle | .stopped _ => none
  | .poolTake c =>
    match s.driver.nuPdmaMemfunActorPoolSem with
    | some (v + 1) => some { s.goto t (.lockTake c) with
        driver := { s.driver with nuPdmaMemfunActorPoolSem := some v } }
    | _ => none
  | .lockTake c => if s.lock = none then some { s.goto t (.headhunt c) with lock := some t } else none
  | .headhunt c =>
    let idx := nuCto s.driver.nuPdmaMemfunActorMask
    if idx ≠ 32 then
      some { s.goto t (.lockGive c (some idx)) with
        driver := { s.driver with
          nuPdmaMemfunActorMask := s.driver.nuPdmaMemfunActorMask ||| 1#32 <<< idx } }
    else some (s.goto t (.lockGive c none))
  | .lockGive c none => some { s.goto t (.poolTake c) with lock := none }
  | .lockGive c (some idx) => some { s.goto t (.memctrl c idx) with lock := none }
  | .memctrl c idx =>
    some (s.called t idx ((·.2) <$> nuPdmaChannelMemctrlSet s.driver (ch idx) c.eMemCtl)
      (.filtering c idx))
  | .filtering c idx =>
    some (s.called t idx ((·.2) <$> nuPdmaFilteringSet s.driver (ch idx) memfunEvents)
      (.register c idx))
  | .register c idx =>
    some (s.called t idx ((·.2) <$> nuPdmaCallbackRegister s.driver (ch idx) (some idx))
      (.result c idx))
  | .result c idx => some (s.called t idx (.ok (s.driver.setResult idx 0#32)) (.transfer c idx))
  | .transfer c idx => some (s.transfer t c idx m)
  | .wait c idx =>
    match s.sem idx with
    | [] => none
    | _ :: rest => some { s.goto t (.terminate c idx) with sem := Function.update s.sem idx rest }
  | .terminate c idx =>
    some (s.called t idx (terminated s.driver idx) (.fireLock idx (moved s.driver c idx)))
  | .fireLock idx ret =>
    if s.lock = none then some { s.goto t (.clear idx ret) with lock := some t } else none
  | .clear idx ret =>
    some { s.goto t (.fireUnlock ret) with
      driver := { s.driver with
        nuPdmaMemfunActorMask := s.driver.nuPdmaMemfunActorMask &&& ~~~(1#32 <<< idx) } }
  | .fireUnlock ret => some { s.goto t (.poolGive ret) with lock := none }
  | .poolGive _ =>
    some { s.goto t .idle with
      driver := { s.driver with
        nuPdmaMemfunActorPoolSem := s.driver.nuPdmaMemfunActorPoolSem.map (· + 1) } }

/-- What the engine leaves in the registers of a channel whose transfer it ends. -/
def stopAt (s : NuPdma) (ch left : BitVec 32) : NuPdma :=
  s.setDSCT ch.toNat
    { s.DSCT ch.toNat with CTL := ((s.DSCT ch.toNat).CTL &&& 0xffff#32) ||| putField left 16 16 }

/-- The interrupt of a transfer that the engine ends, with its events and the count left. -/
def System.isr (s : System n) (ch ch_event left : BitVec 32) : Option (System n) :=
  match s.flight ch with
  | none => none
  | some id =>
    if ch_event &&& memfunEvents = 0#32 then none
    else
      let (released, driver) := nuPdmaIsr (stopAt s.driver ch left) ch ch_event
      some { s with
        driver
        flight := Function.update s.flight ch none
        sem := match released with
          | none => s.sem
          | some idx => Function.update s.sem idx (s.sem idx ++ [id]) }

/-- What can happen: a thread calls the function, takes a step, or a transfer ends. -/
inductive Label (n : Nat)
  | call (t : Fin n) (dest src u32DataWidth u32TransferCnt : BitVec 32) (eMemCtl : NuPdmaMemctrl)
  | go (t : Fin n) (m : Malloc)
  | isr (ch ch_event left : BitVec 32)

/-- The state after a step, if it can be taken. -/
def next (s : System n) : Label n → Option (System n)
  | .call t dest src u32DataWidth u32TransferCnt eMemCtl =>
    match s.thread t with
    | .idle =>
      some { s.goto t (.poolTake ⟨s.calls, dest, src, u32DataWidth, u32TransferCnt, eMemCtl⟩) with
        calls := s.calls + 1 }
    | _ => none
  | .go t m => s.go t m
  | .isr ch ch_event left => s.isr ch ch_event left

/-- The steps of the system. -/
def Step (s : System n) (l : Label n) (s' : System n) : Prop := next s l = some s'

/-! ## Places -/

/-- The actor that a thread holds. -/
def Pc.held : Pc → Option Nat
  | .lockGive _ idx => idx
  | .memctrl _ idx | .filtering _ idx | .register _ idx | .result _ idx | .transfer _ idx
  | .wait _ idx | .terminate _ idx | .fireLock idx _ | .clear idx _ | .stopped idx => some idx
  | _ => none

/-- The thread has taken the pool semaphore and not given it back. -/
def Pc.permit : Pc → Bool
  | .idle | .poolTake _ => false
  | _ => true

/-- The thread has the mutex. -/
def Pc.locks : Pc → Bool
  | .headhunt _ | .lockGive _ _ | .clear _ _ | .fireUnlock _ => true
  | _ => false

/-- The actor whose channel has the filter that the thread set. -/
def Pc.filtered : Pc → Option Nat
  | .register _ idx | .result _ idx | .transfer _ idx | .wait _ idx => some idx
  | _ => none

/-- The actor whose channel has the callback that the thread registered. -/
def Pc.registered : Pc → Option Nat
  | .result _ idx | .transfer _ idx | .wait _ idx => some idx
  | _ => none

/-- The thread has tried to start its transfer and not left the function. -/
def Pc.ran : Pc → Bool
  | .wait _ _ | .terminate _ _ | .fireLock _ _ | .clear _ _ | .fireUnlock _ | .poolGive _
  | .stopped _ => true
  | _ => false

/-! ## Specification -/

/-- The value of the pool semaphore. -/
def pool (s : NuPdma) : Nat := s.nuPdmaMemfunActorPoolSem.getD 0

/-- The actors whose bit is set. -/
def busy (s : NuPdma) (max : Nat) : Finset Nat :=
  (Finset.range max).filter fun idx => s.nuPdmaMemfunActorMask.getLsbD idx = true

/-- No actor has two holders; no more bits are set than the pool's size less the semaphore's value; a
thread that looks for an actor finds one of the pool; a unit of an actor's semaphore is the only one,
and is for the call that waits for it, whose transfer ended. -/
structure ActorsRight (max : Nat) (s : System n) : Prop where
  exclusive : ∀ {t t' idx}, (s.thread t).held = some idx → (s.thread t').held = some idx → t = t'
  busy : (busy s.driver max).card + pool s.driver ≤ max
  finds : ∀ {t c}, s.thread t = .headhunt c →
    nuCto s.driver.nuPdmaMemfunActorMask < max ∧ nuCto s.driver.nuPdmaMemfunActorMask ≠ 32
  signals : ∀ {idx id}, id ∈ s.sem idx →
    s.sem idx = [id] ∧ ∃ t c, s.thread t = .wait c idx ∧ c.id = id

/-- Every thread that has tried to start its transfer can still leave the function, its actor
dismissed. -/
def Dismissed (s : System n) : Prop :=
  ∀ t, (s.thread t).ran = true → ∃ labels s', Run Step s labels s' ∧ s'.thread t = .idle

/-- The transfer that a thread is about to start can be started. -/
def Safe (s : System n) : Label n → Prop
  | .go t m => ∀ c idx, s.thread t = .transfer c idx →
    CanStart m s.driver (chan s.driver idx) c.u32DataWidth c.src c.dest c.u32TransferCnt
  | _ => True

end NumakerMA35D1.Pdma.Actors

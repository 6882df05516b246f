import NumakerMA35D1.Pdma.EmployInv

/-!
# Memory actors between threads

`memfunActors_run`: in every run of any number of threads and of interrupts an actor has one holder, the
busy bits and the pool semaphore agree, a thread with a unit of the pool finds an actor, and a
completion signal is for the call whose transfer ended. In every run whose transfers can all start, each
call that started one can end and dismiss its actor; a further step keeps that exactly when the transfer
that it is to start, if there is one, can start.

Reference: `drv_pdma.c:1126` to `:1264`.
-/

namespace NumakerMA35D1.Pdma.Actors

open Embedded

variable {n max : Nat} {s s' : System n} {t : Fin n} {pc : Pc} {idx : Nat} {d d' : NuPdma}

/-! ## Transfers that start -/

/-- The tables are in order, and an actor's channel without one wants none. -/
structure Tables (max : Nat) (d : NuPdma) : Prop where
  ok : SgtblsOk d.sgtbls
  null_iff : ∀ idx < max, d.sgtbls.table (chan d idx).toNat = none ↔
    d.sgtbls.wanted (chan d idx).toNat = 0#32

theorem Tables.same (h : Tables max d) (hchan : ∀ idx, chan d' idx = chan d idx)
    (hsgtbls : d'.sgtbls = d.sgtbls) : Tables max d' where
  ok := by
    rw [hsgtbls]
    exact h.ok
  null_iff idx hidx := by
    rw [hchan, hsgtbls]
    exact h.null_iff idx hidx

/-- A transfer with room for its table leaves a channel wanting none that it has not. -/
theorem null_iff_transfer {missing : Prop} {tb tb' : Sgtbls} {ch c : Nat} (hroom : ¬ missing)
    (he : TransferEffect missing tb tb' ch) (h : tb.table c = none ↔ tb.wanted c = 0#32) :
    tb'.table c = none ↔ tb'.wanted c = 0#32 := by
  have hupdate : ∀ {o : Option (List (BitVec 32))} {k : BitVec 32}, (o = none ↔ k = 0#32) →
      (Function.update tb.table ch o c = none ↔ Function.update tb.wanted ch k c = 0#32) := by
    intro o k hok
    rw [Function.update_apply, Function.update_apply]
    split
    · exact hok
    · exact h
  cases he with
  | same heq =>
    rw [heq]
    exact h
  | freed heq =>
    rw [heq]
    exact hupdate (by simp)
  | @granted ps hfresh heq =>
    rw [heq]
    simp only [Sgtbls.grant, Sgtbls.free, Function.update_idem]
    refine hupdate ⟨(by rintro ⟨⟩), fun hz => ?_⟩
    have hlen := congrArg BitVec.toNat hz
    rw [BitVec.toNat_ofNat, Nat.mod_eq_of_lt hfresh.fits] at hlen
    exact absurd hlen hfresh.pos.ne'
  | wants hmissing => exact absurd hmissing hroom

theorem Tables.transfer {m : Malloc} {w sa da cnt : BitVec 32} (h : Tables max d)
    (hcan : CanStart m d (chan d idx) w sa da cnt)
    (hret : nuPdmaTransfer m d (chan d idx) w sa da cnt 0#32 = .ok (RT_EOK, d')) : Tables max d' := by
  have heffect := ((nuPdmaTransfer_returns (A := fun _ => True) trivial h.ok (fun _ _ => trivial) m
    0#32).of_ok hret).1
  refine ⟨h.ok.transfer heffect, fun i hi => ?_⟩
  rw [(Quietly.transfer hret).chans.chan]
  refine null_iff_transfer ?_ heffect (h.null_iff i hi)
  rintro ⟨hfull, -, hlong, hneeds⟩
  have hroom := (hcan.room hlong hneeds).1
  rw [hfull] at hroom
  cases hroom

/-- The transfer of a thread returns success when and only when it can start. -/
theorem transfer_iff {m : Malloc} {c : Call} (h : Inv max s) (htables : Tables max s.driver)
    (ht : s.thread t = .transfer c idx) :
    (∃ d', nuPdmaTransfer m s.driver (chan s.driver idx) c.u32DataWidth c.src c.dest c.u32TransferCnt
      0#32 = .ok (RT_EOK, d')) ↔
    CanStart m s.driver (chan s.driver idx) c.u32DataWidth c.src c.dest c.u32TransferCnt := by
  have hidx : idx < max := h.held_lt (t := t) (by rw [ht]; rfl)
  exact nuPdmaTransfer_starts_iff htables.ok (htables.null_iff idx hidx) (h.chans.check hidx)

/-! ## What a step of a thread is -/

/-- A thread goes on, but neither to wait nor from there: the signals, the engine and the tables stay. -/
structure Moves (s : System n) (t : Fin n) (s' : System n) : Prop where
  thread : ∃ pc, s'.thread = Function.update s.thread t pc ∧ (∀ c idx, pc ≠ .wait c idx) ∧
    ∀ idx, pc ≠ .stopped idx
  sem : s'.sem = s.sem
  flight : s'.flight = s.flight
  chan : ∀ idx, chan s'.driver idx = chan s.driver idx
  sgtbls : s'.driver.sgtbls = s.driver.sgtbls
  free : ∀ c idx, s.thread t ≠ .wait c idx

/-- What a step of a thread is. -/
inductive GoCase (s : System n) (t : Fin n) (m : Malloc) (s' : System n) : Prop
  | moves : Moves s t s' → GoCase s t m s'
  | transfer {c : Call} {idx : Nat} : s.thread t = .transfer c idx → s' = s.transfer t c idx m →
    GoCase s t m s'
  | wait {c : Call} {idx u : Nat} {rest : List Nat} : s.thread t = .wait c idx →
    s.sem idx = u :: rest →
    s' = { s.goto t (.terminate c idx) with sem := Function.update s.sem idx rest } →
    GoCase s t m s'

theorem GoCase.call {m : Malloc} {x : Except Halt NuPdma}
    (hx : ∃ d', x = .ok d' ∧ (∀ i, Actors.chan d' i = Actors.chan s.driver i) ∧
      d'.sgtbls = s.driver.sgtbls)
    (hwait : ∀ c idx, pc ≠ .wait c idx) (hstop : ∀ idx, pc ≠ .stopped idx)
    (hfree : ∀ c idx, s.thread t ≠ .wait c idx) : GoCase s t m (s.called t idx x pc) := by
  obtain ⟨d', rfl, hchan, hsgtbls⟩ := hx
  exact .moves ⟨⟨pc, rfl, hwait, hstop⟩, rfl, rfl, hchan, hsgtbls, hfree⟩

theorem Inv.go_cases {m : Malloc} (hinv : Inv max s) (hgo : s.go t m = some s') :
    GoCase s t m s' := by
  have hlt : ∀ {i}, (s.thread t).held = some i → i < max := fun h => hinv.held_lt h
  have hmove : ∀ {s₁ : System n} {pc : Pc}, s₁.thread = Function.update s.thread t pc →
      s₁.sem = s.sem → s₁.flight = s.flight → (∀ i, chan s₁.driver i = chan s.driver i) →
      s₁.driver.sgtbls = s.driver.sgtbls → (∀ c i, pc ≠ .wait c i) → (∀ i, pc ≠ .stopped i) →
      (∀ c i, s.thread t ≠ .wait c i) → GoCase s t m s₁ :=
    fun hthread hsem hflight hchan hsgtbls hwait hstop hfree =>
      .moves ⟨⟨_, hthread, hwait, hstop⟩, hsem, hflight, hchan, hsgtbls, hfree⟩
  cases ht : s.thread t with
  | idle | stopped i =>
    simp only [System.go, ht] at hgo
    cases hgo
  | poolTake c =>
    simp only [System.go, ht] at hgo
    split at hgo
    · cases hgo
      exact hmove rfl rfl rfl (fun _ => rfl) rfl (by rintro _ _ ⟨⟩) (by rintro _ ⟨⟩)
        (by rw [ht]; rintro _ _ ⟨⟩)
    · cases hgo
  | lockTake c | fireLock i r =>
    simp only [System.go, ht] at hgo
    split at hgo
    · cases hgo
      exact hmove rfl rfl rfl (fun _ => rfl) rfl (by rintro _ _ ⟨⟩) (by rintro _ ⟨⟩)
        (by rw [ht]; rintro _ _ ⟨⟩)
    · cases hgo
  | headhunt c =>
    simp only [System.go, ht] at hgo
    split at hgo
    all_goals
      cases hgo
      exact hmove rfl rfl rfl (fun _ => rfl) rfl (by rintro _ _ ⟨⟩) (by rintro _ ⟨⟩)
        (by rw [ht]; rintro _ _ ⟨⟩)
  | lockGive c o =>
    cases o
    all_goals
      simp only [System.go, ht] at hgo
      cases hgo
      exact hmove rfl rfl rfl (fun _ => rfl) rfl (by rintro _ _ ⟨⟩) (by rintro _ ⟨⟩)
        (by rw [ht]; rintro _ _ ⟨⟩)
  | clear i r | fireUnlock r | poolGive r =>
    simp only [System.go, ht] at hgo
    cases hgo
    exact hmove rfl rfl rfl (fun _ => rfl) rfl (by rintro _ _ ⟨⟩) (by rintro _ ⟨⟩)
        (by rw [ht]; rintro _ _ ⟨⟩)
  | memctrl c i =>
    simp only [System.go, ht] at hgo
    cases hgo
    refine .call ?_ (by rintro _ _ ⟨⟩) (by rintro _ ⟨⟩)
      (by rw [ht]; rintro _ _ ⟨⟩)
    obtain ⟨r, d', hd'⟩ := hinv.chans.memctrlSet (hlt (by rw [ht]; rfl)) c.eMemCtl
    have hsgtbls := (nuPdmaChannelMemctrlSet_returns (A := fun _ => True) trivial _).of_ok hd'
    rw [hd']
    exact ⟨d', rfl, (Quietly.memctrlSet hd').chans.chan, hsgtbls.1⟩
  | filtering c i =>
    simp only [System.go, ht] at hgo
    cases hgo
    refine .call ?_ (by rintro _ _ ⟨⟩) (by rintro _ ⟨⟩)
      (by rw [ht]; rintro _ _ ⟨⟩)
    rw [hinv.chans.filteringSet (hlt (by rw [ht]; rfl))]
    exact ⟨_, rfl, fun _ => rfl, sgtbls_setChn rfl rfl⟩
  | register c i =>
    simp only [System.go, ht] at hgo
    cases hgo
    refine .call ?_ (by rintro _ _ ⟨⟩) (by rintro _ ⟨⟩)
      (by rw [ht]; rintro _ _ ⟨⟩)
    rw [hinv.chans.callbackRegister (hlt (by rw [ht]; rfl))]
    exact ⟨_, rfl, fun _ => rfl, sgtbls_setChn rfl rfl⟩
  | result c i =>
    simp only [System.go, ht] at hgo
    cases hgo
    exact .call ⟨_, rfl, (Quietly.setResult ..).chans.chan, rfl⟩ (by rintro _ _ ⟨⟩)
      (by rintro _ ⟨⟩) (by rw [ht]; rintro _ _ ⟨⟩)
  | transfer c i =>
    simp only [System.go, ht] at hgo
    cases hgo
    exact .transfer ht rfl
  | wait c i =>
    simp only [System.go, ht] at hgo
    split at hgo
    · cases hgo
    · next hsem =>
      cases hgo
      exact .wait ht hsem rfl
  | terminate c i =>
    simp only [System.go, ht] at hgo
    cases hgo
    refine .call ?_ (by rintro _ _ ⟨⟩) (by rintro _ ⟨⟩)
      (by rw [ht]; rintro _ _ ⟨⟩)
    obtain ⟨d', hd'⟩ := hinv.chans.terminated (hlt (by rw [ht]; rfl))
    refine ⟨d', hd', (Quietly.terminated hd').chans.chan, ?_⟩
    unfold terminated at hd'
    split at hd'
    · exact ((nuPdmaChannelTerminate_returns (A := fun _ => True) trivial).of_ok hd').sgtbls
    · cases hd'
      rfl

/-! ## Calls that are served -/

/-- The engine is at the transfer of every call that waits, or it has ended and its signal is there. -/
def Waits (s : System n) : Prop :=
  ∀ t c idx, s.thread t = .wait c idx → s.flight (chan s.driver idx) = some c.id ∨ s.sem idx ≠ []

/-- A thread moves, but not to wait. -/
theorem Waits.move (h : Waits s) (hm : Moves s t s') : Waits s' := by
  intro t' c idx ht'
  obtain ⟨pc, hthread, hwait, -⟩ := hm.thread
  rw [hthread, Function.update_apply] at ht'
  rw [hm.flight, hm.sem, hm.chan]
  split at ht'
  · exact absurd ht' (hwait c idx)
  · exact h t' c idx ht'

/-- A transfer that is started is served. -/
theorem Waits.started {m : Malloc} {c : Call} (h : Waits s) (hinv : Inv max s)
    (ht : s.thread t = .transfer c idx)
    (hret : nuPdmaTransfer m s.driver (chan s.driver idx) c.u32DataWidth c.src c.dest
      c.u32TransferCnt 0#32 = .ok (RT_EOK, d')) : Waits (s.transfer t c idx m) := by
  have hchan := (Quietly.transfer hret).chans.chan
  unfold System.transfer
  rw [hret]
  dsimp only
  rw [if_pos rfl]
  intro t' c' i ht'
  change Function.update s.thread t (.wait c idx) t' = _ at ht'
  change Function.update s.flight (chan s.driver idx) (some c.id) (chan d' i) = some c'.id ∨
    s.sem i ≠ []
  rw [Function.update_apply] at ht'
  rw [hchan]
  split at ht'
  · cases ht'
    exact .inl (Function.update_self ..)
  · rw [Function.update_of_ne]
    · exact h t' c' i ht'
    · intro heq
      have hlt : ∀ {t₁ i}, (s.thread t₁).held = some i → i < max := fun h => hinv.held_lt h
      have hmine : (s.thread t).held = some idx := by rw [ht]; rfl
      have hwaits : (s.thread t').held = some i := by rw [ht']; rfl
      obtain rfl := hinv.chans.inj (hlt hwaits) (hlt hmine) heq
      obtain rfl := hinv.exclusive hwaits hmine
      cases ht.symm.trans ht'

/-- A thread takes its signal. -/
theorem Waits.wait {c : Call} {rest : List Nat} (h : Waits s) (hinv : Inv max s)
    (ht : s.thread t = .wait c idx) :
    Waits { s.goto t (.terminate c idx) with sem := Function.update s.sem idx rest } := by
  intro t' c' i ht'
  change Function.update s.thread t _ t' = _ at ht'
  rw [Function.update_apply] at ht'
  split at ht'
  · cases ht'
  · next hne =>
    have hi : i ≠ idx := by
      rintro rfl
      exact hne (hinv.exclusive (by rw [ht']; rfl) (by rw [ht]; rfl))
    change _ ∨ Function.update s.sem idx rest i ≠ []
    rw [Function.update_of_ne hi]
    exact h t' c' i ht'

/-- What the interrupt that ends a transfer does: the actor's semaphore is released. -/
theorem Inv.isr_ends {ch ev left : BitVec 32} (hinv : Inv max s) (hs : s.isr ch ev left = some s') :
    ∃ t c idx, s.thread t = .wait c idx ∧ chan s.driver idx = ch ∧
      s.flight (chan s.driver idx) = some c.id ∧ s'.thread = s.thread ∧
      s'.flight = Function.update s.flight ch none ∧
      s'.sem = Function.update s.sem idx [c.id] ∧ (∀ i, chan s'.driver i = chan s.driver i) ∧
      s'.driver.sgtbls = s.driver.sgtbls := by
  cases hflight : s.flight ch with
  | none =>
    simp only [System.isr, hflight] at hs
    cases hs
  | some id =>
    by_cases hevent : ev &&& memfunEvents = 0#32
    · simp only [System.isr, hflight, if_pos hevent] at hs
      cases hs
    · obtain ⟨t, c, idx, ht, rfl, hch, heq⟩ := hinv.isr_eq left hflight hevent
      rw [heq] at hs
      cases hs
      exact ⟨t, c, idx, ht, hch, hch ▸ hflight, rfl, rfl, rfl,
        (Quietly.setResult (stopAt s.driver ch left) idx ev).chans.chan, rfl⟩

/-- A transfer ends. -/
theorem Waits.isr {ch ev left : BitVec 32} (h : Waits s) (hinv : Inv max s)
    (hs : s.isr ch ev left = some s') : Waits s' := by
  obtain ⟨t, c, idx, ht, hch, -, hthread, hflight, hsem, hchan, -⟩ := hinv.isr_ends hs
  intro t' c' i ht'
  rw [hthread] at ht'
  rw [hflight, hsem, hchan]
  by_cases hi : i = idx
  · rw [hi, Function.update_self]
    exact .inr (List.cons_ne_nil _ _)
  · rw [Function.update_of_ne hi, Function.update_of_ne]
    · exact h t' c' i ht'
    · intro hsame
      refine hi (hinv.chans.inj (hinv.held_lt (t := t') ?_) (hinv.held_lt (t := t) ?_)
        (hsame.trans hch.symm))
      · rw [ht']
        rfl
      · rw [ht]
        rfl

/-- A call begins. -/
theorem moves_call {dest src w cnt : BitVec 32} {m : NuPdmaMemctrl}
    (hs : Step s (.call t dest src w cnt m) s') : Moves s t s' := by
  rw [Step, next] at hs
  split at hs
  · next ht =>
    cases hs
    exact ⟨⟨_, rfl, (by rintro _ _ ⟨⟩), (by rintro _ ⟨⟩)⟩, rfl, rfl, (fun _ => rfl), rfl,
      by rw [ht]; rintro _ _ ⟨⟩⟩
  · cases hs

/-- Calls are served, the tables in order, and no thread is in a call that does not return. -/
structure Served (max : Nat) (s : System n) : Prop where
  tables : Tables max s.driver
  waits : Waits s
  moves : ∀ t idx, s.thread t ≠ .stopped idx

theorem Served.move (h : Served max s) (hm : Moves s t s') : Served max s' where
  tables := h.tables.same hm.chan hm.sgtbls
  waits := h.waits.move hm
  moves t' idx := by
    obtain ⟨pc, hthread, -, hstop⟩ := hm.thread
    rw [hthread, Function.update_apply]
    split
    · exact hstop idx
    · exact h.moves t' idx

/-- A transfer that can start is served. -/
theorem Served.transfer {m : Malloc} {c : Call} (h : Served max s) (hinv : Inv max s)
    (ht : s.thread t = .transfer c idx)
    (hcan : CanStart m s.driver (chan s.driver idx) c.u32DataWidth c.src c.dest c.u32TransferCnt) :
    Served max (s.transfer t c idx m) := by
  obtain ⟨d', hd'⟩ := (transfer_iff hinv h.tables ht).2 hcan
  have hwaits := h.waits.started hinv ht hd'
  unfold System.transfer at hwaits ⊢
  rw [hd'] at hwaits ⊢
  dsimp only at hwaits ⊢
  rw [if_pos rfl] at hwaits ⊢
  refine ⟨h.tables.transfer hcan hd', hwaits, ?_⟩
  intro t' i
  change Function.update s.thread t (.wait c idx) t' ≠ _
  rw [Function.update_apply]
  split
  · rintro ⟨⟩
  · exact h.moves t' i

/-- A thread takes its signal. -/
theorem Served.wait {c : Call} {rest : List Nat} (h : Served max s) (hinv : Inv max s)
    (ht : s.thread t = .wait c idx) :
    Served max { s.goto t (.terminate c idx) with sem := Function.update s.sem idx rest } where
  tables := h.tables
  waits := h.waits.wait hinv ht
  moves t' i := by
    change Function.update s.thread t _ t' ≠ _
    rw [Function.update_apply]
    split
    · rintro ⟨⟩
    · exact h.moves t' i

/-- A step of a thread whose transfer can start, if it is to start one. -/
theorem Served.go {m : Malloc} (h : Served max s) (hinv : Inv max s)
    (hsafe : Safe s (.go t m)) (hgo : s.go t m = some s') : Served max s' := by
  cases hinv.go_cases hgo with
  | moves hm => exact h.move hm
  | transfer ht heq =>
    rw [heq]
    exact h.transfer hinv ht (hsafe _ _ ht)
  | wait ht hsem heq =>
    rw [heq]
    exact h.wait hinv ht

/-- A step that is safe keeps every call served. -/
theorem Served.step {l : Label n} (h : Served max s) (hinv : Inv max s) (hsafe : Safe s l)
    (hs : Step s l s') : Served max s' := by
  cases l with
  | call t dest src w cnt m => exact h.move (moves_call hs)
  | go t m => exact h.go hinv hsafe hs
  | isr ch ev left =>
    obtain ⟨-, -, -, -, -, -, hthread, -, -, hchan, hsgtbls⟩ := hinv.isr_ends hs
    refine ⟨h.tables.same hchan hsgtbls, h.waits.isr hinv hs, fun t idx => ?_⟩
    rw [hthread]
    exact h.moves t idx

/-! ## Leaving the function -/

/-- The thread can still leave the function. -/
def CanLeave (s : System n) (t : Fin n) : Prop :=
  ∃ labels s', Run Step s labels s' ∧ s'.thread t = .idle

theorem CanLeave.of_step {l : Label n} (h : CanLeave s' t) (hs : Step s l s') : CanLeave s t := by
  obtain ⟨labels, s'', hrun, hidle⟩ := h
  exact ⟨[l] ++ labels, s'', Run.trans (.snoc .nil hs) hrun, hidle⟩

/-- An allocator that has nothing to give, for the steps that ask for nothing. -/
def noMalloc : Malloc := .ofList false []

theorem CanLeave.poolGive {r : BitVec 32} (ht : s.thread t = .poolGive r) : CanLeave s t := by
  have hs : ∃ s', Step s (.go t noMalloc) s' ∧ s'.thread t = .idle := by
    simp only [Step, next, System.go, ht]
    exact ⟨_, rfl, Function.update_self ..⟩
  obtain ⟨s', hs, hidle⟩ := hs
  exact .of_step ⟨[], s', .nil, hidle⟩ hs

theorem CanLeave.fireUnlock {r : BitVec 32} (ht : s.thread t = .fireUnlock r) : CanLeave s t := by
  have hs : ∃ s', Step s (.go t noMalloc) s' ∧ s'.thread t = .poolGive r := by
    simp only [Step, next, System.go, ht]
    exact ⟨_, rfl, Function.update_self ..⟩
  obtain ⟨s', hs, ht'⟩ := hs
  exact (CanLeave.poolGive ht').of_step hs

theorem CanLeave.clear {r : BitVec 32} (ht : s.thread t = .clear idx r) : CanLeave s t := by
  have hs : ∃ s', Step s (.go t noMalloc) s' ∧ s'.thread t = .fireUnlock r := by
    simp only [Step, next, System.go, ht]
    exact ⟨_, rfl, Function.update_self ..⟩
  obtain ⟨s', hs, ht'⟩ := hs
  exact (CanLeave.fireUnlock ht').of_step hs

theorem CanLeave.fireLock_free {r : BitVec 32} (ht : s.thread t = .fireLock idx r)
    (hfree : s.lock = none) : CanLeave s t := by
  have hs : ∃ s', Step s (.go t noMalloc) s' ∧ s'.thread t = .clear idx r := by
    simp only [Step, next, System.go, ht, hfree, if_true]
    exact ⟨_, rfl, Function.update_self ..⟩
  obtain ⟨s', hs, ht'⟩ := hs
  exact (CanLeave.clear ht').of_step hs

/-- A thread that waits for the mutex gets it once its holder has gone on: the holder has two steps to
take at most. -/
theorem CanLeave.fireLock {r : BitVec 32} (h : Inv max s) (ht : s.thread t = .fireLock idx r) :
    CanLeave s t := by
  cases hlock : s.lock with
  | none => exact .fireLock_free ht hlock
  | some t' =>
    have hholds := (h.lock t').1 hlock
    have hne : t ≠ t' := by
      rintro rfl
      rw [ht] at hholds
      cases hholds
    -- the last step of the holder
    have hgives : ∀ {s₁ s₂ : System n}, s₁.thread t = .fireLock idx r →
        s₁.go t' noMalloc = some s₂ → (∃ pc, s₂.thread = Function.update s₁.thread t' pc) →
        s₂.lock = none → CanLeave s₁ t := by
      rintro s₁ s₂ ht₁ hgo ⟨pc, hthread⟩ hfree
      have ht₂ : s₂.thread t = .fireLock idx r := by
        rw [hthread, Function.update_of_ne hne, ht₁]
      exact CanLeave.of_step (.fireLock_free ht₂ hfree) (l := .go t' noMalloc) hgo
    have hgive : ∀ {s₁ : System n} {c o}, s₁.thread t = .fireLock idx r →
        s₁.thread t' = .lockGive c o → CanLeave s₁ t := by
      intro s₁ c o ht₁ ht'
      cases o
      all_goals
        refine hgives ht₁ (by simp only [System.go, ht']; rfl) ⟨_, rfl⟩ rfl
    cases ht' : s.thread t' with
    | headhunt c =>
      have hs : ∃ s', Step s (.go t' noMalloc) s' ∧ s'.thread t = .fireLock idx r ∧
          ∃ o, s'.thread t' = .lockGive c o := by
        simp only [Step, next, System.go, ht']
        split
        all_goals
          exact ⟨_, rfl, (Function.update_of_ne hne _ _).trans ht, _, Function.update_self ..⟩
      obtain ⟨s', hs, ht₁, o, hgiving⟩ := hs
      exact (hgive ht₁ hgiving).of_step hs
    | lockGive c o => exact hgive ht ht'
    | clear i r' =>
      have hs : ∃ s', Step s (.go t' noMalloc) s' ∧ s'.thread t = .fireLock idx r ∧
          s'.thread t' = .fireUnlock r' := by
        simp only [Step, next, System.go, ht']
        exact ⟨_, rfl, (Function.update_of_ne hne _ _).trans ht, Function.update_self ..⟩
      obtain ⟨s', hs, ht₁, hgiving⟩ := hs
      refine CanLeave.of_step (hgives ht₁ (by simp only [System.go, hgiving]; rfl) ⟨_, rfl⟩ rfl) hs
    | fireUnlock r' =>
      exact hgives ht (by simp only [System.go, ht']; rfl) ⟨_, rfl⟩ rfl
    | _ =>
      rw [ht'] at hholds
      cases hholds

theorem CanLeave.terminate {c : Call} (h : Inv max s) (ht : s.thread t = .terminate c idx) :
    CanLeave s t := by
  obtain ⟨d', hd'⟩ := h.chans.terminated (h.held_lt (t := t) (by rw [ht]; rfl))
  have hs : ∃ s', Step s (.go t noMalloc) s' ∧
      s'.thread t = .fireLock idx (moved s.driver c idx) := by
    simp only [Step, next, System.go, ht, hd', System.called]
    exact ⟨_, rfl, Function.update_self ..⟩
  obtain ⟨s', hs, ht'⟩ := hs
  exact (CanLeave.fireLock (h.step hs) ht').of_step hs

/-- A call that is served leaves: the engine ends its transfer, if it has not yet. -/
theorem CanLeave.wait {c : Call} (h : Inv max s) (hserved : Served max s)
    (ht : s.thread t = .wait c idx) : CanLeave s t := by
  have hsignal : ∀ {s₁ : System n}, Inv max s₁ → s₁.thread t = .wait c idx → s₁.sem idx ≠ [] →
      CanLeave s₁ t := by
    intro s₁ h₁ ht₁ hne
    obtain ⟨u, rest, hsem⟩ := List.exists_cons_of_ne_nil hne
    have hs : ∃ s', Step s₁ (.go t noMalloc) s' ∧ s'.thread t = .terminate c idx := by
      simp only [Step, next, System.go, ht₁, hsem]
      exact ⟨_, rfl, Function.update_self ..⟩
    obtain ⟨s', hs, ht'⟩ := hs
    exact (CanLeave.terminate (h₁.step hs) ht').of_step hs
  rcases hserved.waits _ _ _ ht with hflight | hne
  · have hevent : NU_PDMA_EVENT_TRANSFER_DONE &&& memfunEvents ≠ 0#32 := by decide
    obtain ⟨t', c', i, ht', hid, hch, heq⟩ := h.isr_eq 0#32 hflight hevent
    have hi : i = idx := h.chans.inj (h.held_lt (t := t') (by rw [ht']; rfl))
      (h.held_lt (t := t) (by rw [ht]; rfl)) hch
    have hs : Step s (.isr (chan s.driver idx) NU_PDMA_EVENT_TRANSFER_DONE 0#32) _ := heq
    refine (hsignal (h.step hs) ht ?_).of_step hs
    change Function.update s.sem i _ idx ≠ []
    rw [hi, Function.update_self]
    exact List.cons_ne_nil _ _
  · exact hsignal h ht hne

/-- Where every call is served each can leave. -/
theorem Served.dismissed (h : Served max s) (hinv : Inv max s) : Dismissed s := by
  intro t hran
  change CanLeave s t
  cases ht : s.thread t with
  | wait c i => exact .wait hinv h ht
  | terminate c i => exact .terminate hinv ht
  | fireLock i r => exact .fireLock hinv ht
  | clear i r => exact .clear ht
  | fireUnlock r => exact .fireUnlock ht
  | poolGive r => exact .poolGive ht
  | stopped i => exact absurd ht (h.moves t i)
  | _ =>
    rw [ht] at hran
    cases hran

/-! ## Threads that are stuck -/

/-- A thread in a call of the driver that does not return, or that waits for a signal that nothing
sends. -/
def Stuck (s : System n) (t : Fin n) : Prop :=
  (∃ idx, s.thread t = .stopped idx) ∨
    ∃ c idx, s.thread t = .wait c idx ∧ s.sem idx = [] ∧ s.flight (chan s.driver idx) = none

/-- A thread that is stuck stays so. -/
theorem Stuck.go {m : Malloc} {t' : Fin n} (h : Stuck s t) (hinv : Inv max s)
    (hgo : s.go t' m = some s') : Stuck s' t := by
  -- a stuck thread takes no step
  have hne : t ≠ t' := by
    rintro rfl
    rcases h with ⟨i, hi⟩ | ⟨c, i, hi, hsem, -⟩
    · simp only [System.go, hi] at hgo
      cases hgo
    · simp only [System.go, hi, hsem] at hgo
      cases hgo
  -- no other thread has its actor
  have hothers : ∀ {c i}, s.thread t = .wait c i → (s.thread t').held ≠ some i :=
    fun ht ht' => hne (hinv.exclusive (by rw [ht]; rfl) ht')
  cases hinv.go_cases hgo with
  | moves hm =>
    obtain ⟨pc, hthread, -⟩ := hm.thread
    have hsame : s'.thread t = s.thread t := by rw [hthread, Function.update_of_ne hne]
    rw [Stuck, hsame, hm.sem, hm.flight]
    simp only [hm.chan]
    exact h
  | @transfer c' j ht' heq =>
    rcases h with ⟨i, hi⟩ | ⟨c, i, hi, hsem, hflight⟩
    · left
      rw [heq]
      unfold System.transfer
      split
      · exact ⟨i, (Function.update_of_ne hne _ _).trans hi⟩
      · exact ⟨i, (Function.update_of_ne hne _ _).trans hi⟩
    · right
      rw [heq]
      unfold System.transfer
      split
      · exact ⟨c, i, (Function.update_of_ne hne _ _).trans hi, hsem, hflight⟩
      · next ret d' hret =>
        refine ⟨c, i, (Function.update_of_ne hne _ _).trans hi, hsem, ?_⟩
        change (if _ then _ else _ : BitVec 32 → Option Nat) (chan d' i) = none
        rw [(Quietly.transfer hret).chans.chan]
        split
        · rw [Function.update_of_ne, hflight]
          intro hch
          have hij := hinv.chans.inj (hinv.held_lt (t := t) (by rw [hi]; rfl))
            (hinv.held_lt (t := t') (by rw [ht']; rfl)) hch
          refine hothers hi ?_
          rw [ht', hij]
          rfl
        · exact hflight
  | @wait c' j u rest ht' hunit heq =>
    rcases h with ⟨i, hi⟩ | ⟨c, i, hi, hsem, hflight⟩
    · left
      rw [heq]
      exact ⟨i, (Function.update_of_ne hne _ _).trans hi⟩
    · right
      rw [heq]
      refine ⟨c, i, (Function.update_of_ne hne _ _).trans hi, ?_, hflight⟩
      refine (Function.update_of_ne ?_ _ _).trans hsem
      rintro rfl
      rw [hsem] at hunit
      cases hunit

theorem Stuck.step {l : Label n} (h : Stuck s t) (hinv : Inv max s) (hs : Step s l s') :
    Stuck s' t := by
  cases l with
  | call t' dest src w cnt m =>
    rw [Step, next] at hs
    split at hs
    · next ht' =>
      have hne : t ≠ t' := by
        rintro rfl
        rcases h with ⟨i, hi⟩ | ⟨c, i, hi, -⟩
        · cases hi.symm.trans ht'
        · cases hi.symm.trans ht'
      cases hs
      rcases h with ⟨i, hi⟩ | ⟨c, i, hi, hrest⟩
      · exact .inl ⟨i, (Function.update_of_ne hne _ _).trans hi⟩
      · exact .inr ⟨c, i, (Function.update_of_ne hne _ _).trans hi, hrest⟩
    · cases hs
  | go t' m => exact h.go hinv hs
  | isr ch ev left =>
    obtain ⟨t', c', j, -, -, hat, hthread, hflight, hsem, hchan, -⟩ := hinv.isr_ends hs
    rw [Stuck, hthread, hflight, hsem]
    rcases h with ⟨i, hi⟩ | ⟨c, i, hi, hnil, hnone⟩
    · exact .inl ⟨i, hi⟩
    · have hij : i ≠ j := by
        rintro rfl
        cases hnone.symm.trans hat
      refine .inr ⟨c, i, hi, (Function.update_of_ne hij _ _).trans hnil, ?_⟩
      rw [hchan, Function.update_apply]
      split
      · rfl
      · exact hnone

theorem Stuck.not_canLeave (h : Stuck s t) (hinv : Inv max s) : ¬ CanLeave s t := by
  rintro ⟨labels, s', hrun, hidle⟩
  have hkept : Inv max s' ∧ Stuck s' t :=
    hrun.invariant (I := fun s => Inv max s ∧ Stuck s t)
      (fun h hs => ⟨h.1.step hs, h.2.step h.1 hs⟩) ⟨hinv, h⟩
  rcases hkept.2 with ⟨i, hi⟩ | ⟨c, i, hi, -⟩
  · cases hi.symm.trans hidle
  · cases hi.symm.trans hidle

/-- A thread whose transfer is refused waits for a signal that nothing sends. -/
theorem waits_refused {m : Malloc} {c : Call} {ret : Int} (hinv : Inv max s)
    (ht : s.thread t = .transfer c idx)
    (hret : nuPdmaTransfer m s.driver (chan s.driver idx) c.u32DataWidth c.src c.dest
      c.u32TransferCnt 0#32 = .ok (ret, d')) (hne : ret ≠ RT_EOK) :
    (s.transfer t c idx m).thread t = .wait c idx ∧ (s.transfer t c idx m).sem idx = [] ∧
      (s.transfer t c idx m).flight (chan (s.transfer t c idx m).driver idx) = none := by
  unfold System.transfer
  rw [hret]
  have hmine : (s.thread t).held = some idx := by rw [ht]; rfl
  -- nobody else waits on the actor
  have hnobody : ∀ {t' c'}, s.thread t' ≠ .wait c' idx := by
    intro t' c' ht'
    obtain rfl := hinv.exclusive (show (s.thread t').held = some _ by rw [ht']; rfl) hmine
    cases ht.symm.trans ht'
  refine ⟨Function.update_self .., ?_, ?_⟩
  · by_contra hunits
    obtain ⟨t', c', ht', -⟩ := hinv.signals.sem hunits
    exact hnobody ht'
  · change (if _ then _ else _ : BitVec 32 → Option Nat) (chan d' idx) = none
    rw [if_neg hne, (Quietly.transfer hret).chans.chan]
    by_contra hflight
    obtain ⟨id, hid⟩ := Option.ne_none_iff_exists'.1 hflight
    obtain ⟨t', c', j, ht', -, hch, -⟩ := hinv.signals.flight hid
    obtain rfl := hinv.chans.inj (hinv.held_lt (t := t') (by rw [ht']; rfl)) (hinv.held_lt hmine) hch
    exact hnobody ht'

/-- A thread whose transfer cannot start is stuck from then on. -/
theorem stuck_of_unsafe {m : Malloc} {c : Call} (hinv : Inv max s) (htables : Tables max s.driver)
    (ht : s.thread t = .transfer c idx)
    (hcannot : ¬ CanStart m s.driver (chan s.driver idx) c.u32DataWidth c.src c.dest
      c.u32TransferCnt) : Stuck (s.transfer t c idx m) t := by
  cases hret : nuPdmaTransfer m s.driver (chan s.driver idx) c.u32DataWidth c.src c.dest
      c.u32TransferCnt 0#32 with
  | error e =>
    refine .inl ⟨idx, ?_⟩
    unfold System.transfer
    rw [hret]
    exact Function.update_self ..
  | ok r =>
    refine .inr ⟨c, idx, @waits_refused _ _ _ _ _ r.2 _ _ r.1 hinv ht hret fun hr => ?_⟩
    exact hcannot ((transfer_iff hinv htables ht).1 ⟨r.2, by rw [hret, ← hr]⟩)

/-- The next step keeps every call served when and only when it is safe. -/
theorem Served.dismissed_iff {l : Label n} (h : Served max s) (hinv : Inv max s) (hs : Step s l s') :
    Dismissed s' ↔ Safe s l := by
  refine ⟨fun hdismissed => ?_, fun hsafe => (h.step hinv hsafe hs).dismissed (hinv.step hs)⟩
  cases l with
  | call | isr => exact trivial
  | go t m =>
    intro c idx ht
    by_contra hcannot
    have hstuck := stuck_of_unsafe hinv h.tables ht hcannot
    have heq : s' = s.transfer t c idx m := by
      simp only [Step, next, System.go, ht] at hs
      exact (Option.some.inj hs).symm
    subst heq
    refine hstuck.not_canLeave (hinv.step hs) (hdismissed t ?_)
    rcases hstuck with ⟨i, hi⟩ | ⟨c', i, hi, -⟩
    · rw [hi]
      rfl
    · rw [hi]
      rfl

/-! ## The actors set up -/

/-- The parts of the driver that calls on channels leave. -/
structure SamePool (d d' : NuPdma) : Prop where
  inited : d'.nuPdmaInited = d.nuPdmaInited
  actors : d'.nuPdmaMemfunActorArr = d.nuPdmaMemfunActorArr
  pool : d'.nuPdmaMemfunActorPoolSem = d.nuPdmaMemfunActorPoolSem

theorem SamePool.channelRel (ch : Nat) : ChannelRel ch SamePool where
  refl := ⟨rfl, rfl, rfl⟩
  trans h h' := ⟨h'.inited.trans h.inited, h'.actors.trans h.actors, h'.pool.trans h.pool⟩
  setChn _ _ _ := ⟨rfl, rfl, rfl⟩
  setDSCT _ _ _ := ⟨rfl, rfl, rfl⟩
  heap _ _ := ⟨rfl, rfl, rfl⟩

/-- The first actors have channels of their own, which have no tables, and there is no pool yet. -/
structure Built (i : Nat) (d : NuPdma) : Prop where
  inited : d.nuPdmaInited = true
  ok : SgtblsOk d.sgtbls
  chans : Chans i d
  bare : ∀ idx < i, d.sgtbls.table (chan d idx).toNat = none ∧
    d.sgtbls.wanted (chan d idx).toNat = 0#32
  pool : d.nuPdmaMemfunActorPoolSem = none

/-- What an allocation for memory comes to. -/
theorem allocate_mem (hinited : d.nuPdmaInited = true) (hok : SgtblsOk d.sgtbls) :
    Returns (fun _ => True) (nuPdmaChannelAllocate d PDMA_MEM) fun r => SgtblsOk r.2.sgtbls ∧
      SamePool d r.2 ∧ (r.1 = -1#32 → r.2 = d) ∧ (r.1 ≠ -1#32 → r.1.toNat < NU_PDMA_CH_MAX ∧ inUse d r.1.toNat = false ∧
        (∀ c, inUse r.2 c = (inUse d c || decide (c = r.1.toNat))) ∧
        r.2.sgtbls = d.sgtbls.forget r.1.toNat) := by
  have hinit : nuPdmaInit d = d := if_pos hinited
  rw [nuPdmaChannelAllocate, hinit]
  split
  · exact ⟨hok, (SamePool.channelRel 0).refl, fun _ => rfl, fun h => absurd rfl h⟩
  · next periph _ =>
    rw [nuPdmaChannelAllocateFrom_eq]
    cases hfree : freeChannel d (List.range PDMA_CNT) with
    | none => exact ⟨hok, (SamePool.channelRel 0).refl, fun _ => rfl, fun h => absurd rfl h⟩
    | some ch =>
      obtain ⟨hlt, hunused⟩ := freeChannel_some hfree
      have hch : (BitVec.ofNat 32 ch).toNat = ch :=
        Nat.mod_eq_of_lt (hlt.trans (by decide))
      have hsgtbls : (taken d periph ch).sgtbls = d.sgtbls.forget ch :=
        sgtbls_update d ch _ d.heap
      obtain ⟨d', hterm, huse⟩ := exists_terminate (s := taken d periph ch) (hch.symm ▸ hlt)
      have hkeeps := (nuPdmaChannelTerminate_returns (A := fun _ => True) trivial).of_ok hterm
      have hpool : Keeping SamePool (taken d periph ch)
          (nuPdmaChannelTerminate (taken d periph ch) (BitVec.ofNat 32 ch)) id :=
        (SamePool.channelRel _).terminate
      have hsame := Returns.of_ok hpool hterm
      dsimp only
      rw [hterm]
      refine ⟨?_, ⟨hsame.inited, hsame.actors, hsame.pool⟩, fun hnone => ?_, fun _ => ?_⟩
      · rw [hkeeps.sgtbls, hsgtbls]
        exact hok.want ch 0#32
      · have hbig := congrArg BitVec.toNat hnone
        rw [hch] at hbig
        rw [hbig] at hlt
        exact absurd hlt (by decide)
      · rw [hch]
        refine ⟨hlt, hunused, fun c => ?_, hkeeps.sgtbls.trans hsgtbls⟩
        exact (taken_took (d := ⟨d, fun _ => none, fun _ => none⟩) huse rfl rfl).inUse c

/-- The number of the next actor is written. -/
theorem Built.mark {i : Nat} (h : Built i d) (ch : BitVec 32) :
    Built i { d with
      nuPdmaMemfunActorArr := Function.update d.nuPdmaMemfunActorArr i ⟨ch, 0#32⟩ } := by
  have hchan : ∀ {idx}, idx < i → chan { d with
      nuPdmaMemfunActorArr := Function.update d.nuPdmaMemfunActorArr i ⟨ch, 0#32⟩ } idx =
      chan d idx := by
    intro idx hidx
    rw [chan, chan]
    dsimp only
    rw [Function.update_of_ne (by omega)]
  refine ⟨h.inited, h.ok, ⟨?_, ?_, ?_⟩, ?_, h.pool⟩
  · intro idx hidx
    rw [hchan hidx]
    exact h.chans.lt hidx
  · intro idx hidx
    rw [hchan hidx]
    exact h.chans.used hidx
  · intro idx idx' hidx hidx' heq
    rw [hchan hidx, hchan hidx'] at heq
    exact h.chans.inj hidx hidx' heq
  · intro idx hidx
    rw [hchan hidx]
    exact h.bare idx hidx

/-- A new channel for the next actor. -/
theorem Built.next {i : Nat} {ch : BitVec 32} (h : Built i d) (hok : SgtblsOk d'.sgtbls)
    (hsame : SamePool d d') (hlt : ch.toNat < NU_PDMA_CH_MAX) (hunused : inUse d ch.toNat = false)
    (huse : ∀ c, inUse d' c = (inUse d c || decide (c = ch.toNat)))
    (hsgtbls : d'.sgtbls = d.sgtbls.forget ch.toNat) :
    Built (i + 1) { d' with
      nuPdmaMemfunActorArr := Function.update d'.nuPdmaMemfunActorArr i ⟨ch, 0#32⟩ } := by
  have hchan : ∀ idx, chan { d' with
      nuPdmaMemfunActorArr := Function.update d'.nuPdmaMemfunActorArr i ⟨ch, 0#32⟩ } idx =
      if idx = i then ch else chan d idx := by
    intro idx
    rw [chan, chan, ← hsame.actors]
    dsimp only
    rw [Function.update_apply]
    split <;> rfl
  have hne : ∀ {idx}, idx < i → (chan d idx).toNat ≠ ch.toNat := by
    intro idx hidx heq
    have hused := h.chans.used hidx
    rw [heq, hunused] at hused
    cases hused
  refine ⟨hsame.inited.trans h.inited, hok, ⟨?_, ?_, ?_⟩, ?_, hsame.pool.trans h.pool⟩
  · intro idx hidx
    rw [hchan]
    split
    · exact hlt
    · exact h.chans.lt (by omega)
  · intro idx hidx
    rw [hchan]
    change inUse d' _ = true
    rw [huse]
    split
    · simp
    · rw [h.chans.used (by omega), Bool.true_or]
  · intro idx idx' hidx hidx' heq
    rw [hchan, hchan] at heq
    split at heq
    · split at heq
      · omega
      · exact absurd (congrArg BitVec.toNat heq).symm (hne (by omega))
    · split at heq
      · exact absurd (congrArg BitVec.toNat heq) (hne (by omega))
      · exact h.chans.inj (by omega) (by omega) heq
  · intro idx hidx
    rw [hchan]
    change d'.sgtbls.table _ = none ∧ d'.sgtbls.wanted _ = 0#32
    rw [hsgtbls]
    simp only [Sgtbls.forget, Sgtbls.want]
    split
    · exact ⟨Function.update_self .., Function.update_self ..⟩
    · rw [Function.update_of_ne (hne (by omega)), Function.update_of_ne (hne (by omega))]
      exact h.bare idx (by omega)

/-- By induction on the actors left. -/
theorem nuPdmaMemfunActorInitFrom_returns (left : Nat) : ∀ {i : Nat} {d : NuPdma}, Built i d →
    Returns (fun _ => True) (nuPdmaMemfunActorInitFrom left i d) fun r =>
      Built r.1 r.2 ∧ r.1 ≤ i + left := by
  induction left with
  | zero => exact fun h => ⟨h, le_rfl⟩
  | succ left ih =>
    intro i d h
    rw [nuPdmaMemfunActorInitFrom]
    refine .bind (allocate_mem h.inited h.ok) ?_
    rintro ⟨ch, d'⟩ ⟨hok, hsame, hfailed, hgot⟩
    refine .ite (fun hnone => .pure ⟨?_, Nat.le_add_right ..⟩) fun hch => ?_
    · obtain rfl : d' = d := hfailed hnone
      exact h.mark ch
    · obtain ⟨hlt, hunused, huse, hsgtbls⟩ := hgot hch
      refine (ih (h.next hok hsame hlt hunused huse hsgtbls)).mono ?_
      rintro r ⟨hbuilt, hle⟩
      exact ⟨hbuilt, by omega⟩

/-- No call on channels makes a pool. -/
theorem exec_pool {s s' : NuPdma} {op : Op} (h : step s op s') :
    s'.nuPdmaMemfunActorPoolSem = s.nuPdmaMemfunActorPoolSem := by
  have hkeeps : Keeping (fun d d' => d'.nuPdmaMemfunActorPoolSem = d.nuPdmaMemfunActorPoolSem) s
      (exec s op) id := by
    have hinit : (nuPdmaInit s).nuPdmaMemfunActorPoolSem = s.nuPdmaMemfunActorPoolSem := by
      unfold nuPdmaInit
      split <;> rfl
    cases op with
    | allocate ty =>
      refine .bind (P := fun r => r.2.nuPdmaMemfunActorPoolSem = s.nuPdmaMemfunActorPoolSem) ?_
        fun r hr => .pure hr
      rw [nuPdmaChannelAllocate]
      generalize gNuPdmaPeripheralCtlPool.find? _ = found
      cases found with
      | none => exact hinit
      | some periph =>
        dsimp only
        rw [nuPdmaChannelAllocateFrom_eq]
        cases freeChannel (nuPdmaInit s) (List.range PDMA_CNT) with
        | none => exact hinit
        | some ch =>
          exact .bind (SamePool.channelRel _).terminate fun _ hr => .pure (hr.pool.trans hinit)
    | free ch =>
      refine .bind (P := fun r => r.2.nuPdmaMemfunActorPoolSem = s.nuPdmaMemfunActorPoolSem) ?_
        fun r hr => .pure hr
      exact .ite (fun _ => .pure rfl) fun _ => returns_check trivial fun _ _ =>
        .ite (fun _ => .pure rfl) fun _ => .ite (fun _ => .pure rfl) fun _ => .pure rfl
    | terminate ch => exact (SamePool.channelRel _).terminate.mono fun _ hr => hr.pool
    | memctrlSet ch m =>
      exact .bind ((SamePool.channelRel _).memctrlSet m) fun _ hr => .pure hr.pool
    | filteringSet ch f =>
      refine .bind (P := fun r => r.2.nuPdmaMemfunActorPoolSem = s.nuPdmaMemfunActorPoolSem) ?_
        fun r hr => .pure hr
      exact returns_check trivial fun _ _ => .ite (fun _ => .pure rfl) fun _ => .pure rfl
    | callbackRegister ch cb =>
      refine .bind (P := fun r => r.2.nuPdmaMemfunActorPoolSem = s.nuPdmaMemfunActorPoolSem) ?_
        fun r hr => .pure hr
      exact returns_check trivial fun _ _ => .ite (fun _ => .pure rfl) fun _ => .pure rfl
    | transfer m ch w sa da cnt t =>
      exact .bind ((SamePool.channelRel _).transfer m) fun _ hr => .pure hr.pool
  have hpool := Returns.of_ok hkeeps h
  exact hpool

/-- The bits out of the actors' range. -/
theorem initialMask : ∀ i ≤ 4, ∀ j < 32, (~~~((1#32 <<< i) - 1#32)).getLsbD j = decide (i ≤ j) := by
  decide

/-- What setting the actors up leaves. -/
theorem nuPdmaMemfunActorInit_built {d d₀ : NuPdma} (hok : SgtblsOk d.sgtbls)
    (hpool : d.nuPdmaMemfunActorPoolSem = none) (hinit : nuPdmaMemfunActorInit d = .ok d₀) :
    ∃ i, pool d₀ = i ∧ i ≤ NU_PDMA_MEMFUN_ACTOR_MAX ∧ Chans i d₀ ∧ Tables i d₀ ∧
      (0 < i → d₀.nuPdmaMemfunActorPoolSem ≠ none ∧
        d₀.nuPdmaMemfunActorMask = ~~~((1#32 <<< i) - 1#32)) := by
  have hstart : Built 0 (nuPdmaInit d) := by
    refine ⟨?_, hok.init, ⟨?_, ?_, ?_⟩, ?_, ?_⟩
    · unfold nuPdmaInit
      split
      · assumption
      · rfl
    · exact fun h => absurd h (by omega)
    · exact fun h => absurd h (by omega)
    · exact fun h => absurd h (by omega)
    · exact fun _ h => absurd h (by omega)
    · unfold nuPdmaInit
      split <;> exact hpool
  obtain ⟨⟨i, d₁⟩, hfrom, hrest⟩ := bind_eq_ok.1 hinit
  obtain ⟨hbuilt, hle⟩ :=
    (nuPdmaMemfunActorInitFrom_returns NU_PDMA_MEMFUN_ACTOR_MAX hstart).of_ok hfrom
  have htables : Tables i d₁ := by
    refine ⟨hbuilt.ok, fun idx hidx => ?_⟩
    obtain ⟨htable, hwanted⟩ := hbuilt.bare idx hidx
    exact ⟨fun _ => hwanted, fun _ => htable⟩
  refine ⟨i, ?_⟩
  dsimp only at hrest hle
  rw [Nat.zero_add] at hle
  split at hrest
  · next hz =>
    cases hrest
    subst hz
    refine ⟨?_, hle, hbuilt.chans, htables, fun h => absurd h (by omega)⟩
    rw [pool, hbuilt.pool]
    rfl
  · cases hrest
    exact ⟨rfl, hle, ⟨hbuilt.chans.lt, hbuilt.chans.used, hbuilt.chans.inj⟩,
      ⟨htables.ok, htables.null_iff⟩, fun _ => ⟨(by rintro ⟨⟩), rfl⟩⟩

/-- Where the threads start. -/
theorem Inv.start {d d₀ : NuPdma} (hok : SgtblsOk d.sgtbls)
    (hpool : d.nuPdmaMemfunActorPoolSem = none) (hinit : nuPdmaMemfunActorInit d = .ok d₀) (n : Nat) :
    Inv (pool d₀) (System.start n d₀) ∧ Served (pool d₀) (System.start n d₀) := by
  obtain ⟨i, hi, hle, hchans, htables, hmade⟩ := nuPdmaMemfunActorInit_built hok hpool hinit
  rw [hi]
  refine ⟨⟨hle, hchans, fun h => (hmade h).1, ?_, ?_, ?_, ?_, ?_, ?_⟩, htables, ?_, ?_⟩
  · change pool d₀ + countOf Pc.permit (fun _ : Fin n => Pc.idle) = i
    rw [hi, countOf_eq_zero fun _ => rfl]
    rfl
  · exact fun _ => ⟨fun h => (nomatch h), fun h => (nomatch h)⟩
  · intro hpos
    refine ⟨fun j hj => ?_, fun h => (nomatch h), fun h => (nomatch h)⟩
    change d₀.nuPdmaMemfunActorMask.getLsbD j = true ↔ _
    rw [(hmade hpos).2, initialMask i hle j hj, decide_eq_true_eq]
    exact ⟨.inl, fun h => h.resolve_right fun ⟨_, h⟩ => (nomatch h)⟩
  · exact fun _ _ h => (nomatch h)
  · exact ⟨fun h => (nomatch h), fun h => (nomatch h)⟩
  · exact ⟨fun h => (nomatch h), fun h => absurd rfl h⟩
  · rintro _ _ _ ⟨⟩
  · rintro _ _ ⟨⟩

/-! ## Runs -/

/-- In every run the actors are shared as specified. After transfers that could all start every call can
leave and dismiss its actor, and a step keeps that when and only when it is safe. -/
theorem memfunActors_run {n : Nat} {ops : List Op} {d d₀ : NuPdma}
    (hd : Run Pdma.step NuPdma.reset ops d) (hinit : nuPdmaMemfunActorInit d = .ok d₀) :
    (∀ labels s, Run Step (System.start n d₀) labels s → ActorsRight (pool d₀) s) ∧
    ∀ labels s, Run (where_ Step Safe) (System.start n d₀) labels s →
      Dismissed s ∧ ∀ l s', Step s l s' → (Dismissed s' ↔ Safe s l) := by
  have hok : SgtblsOk d.sgtbls :=
    hd.invariant (I := fun s => SgtblsOk s.sgtbls) sgtblsOk_step sgtblsInv_reset.toSgtblsOk
  have hpool : d.nuPdmaMemfunActorPoolSem = none :=
    hd.invariant (I := fun s => s.nuPdmaMemfunActorPoolSem = none)
      (fun h hs => (exec_pool hs).trans h) rfl
  obtain ⟨hinv, hserved⟩ := Inv.start hok hpool hinit n
  constructor
  · intro labels s hrun
    exact (hrun.invariant (I := Inv (pool d₀)) (fun h hs => h.step hs) hinv).right
  · intro labels s hrun
    obtain ⟨hinv, hserved⟩ := hrun.invariant (I := fun s => Inv (pool d₀) s ∧ Served (pool d₀) s)
      (fun h hs => ⟨h.1.step hs.2, h.2.step h.1 hs.1 hs.2⟩) ⟨hinv, hserved⟩
    exact ⟨hserved.dismissed hinv, fun _ _ hs => hserved.dismissed_iff hinv hs⟩

/-- The driver with its four actors set up first. -/
def device : NuPdma :=
  match nuPdmaMemfunActorInit NuPdma.reset with
  | .ok d => d
  | .error _ => .reset

theorem device_eq : nuPdmaMemfunActorInit NuPdma.reset = .ok device := rfl

/-- A transfer that is about to start is of some elements, and of so few that it needs no table. -/
def Few (s : System n) : Label n → Bool
  | .go t _ =>
    match s.thread t with
    | .transfer c _ => decide (c.u32TransferCnt ≠ 0#32 ∧ c.u32TransferCnt ≤ NU_PDMA_MAX_TXCNT ∧
        ValidWidth c.u32DataWidth ∧ c.src % (c.u32DataWidth / 8#32) = 0#32 ∧
        c.dest % (c.u32DataWidth / 8#32) = 0#32)
    | _ => true
  | _ => true

theorem Few.safe {l : Label n} (h : Few s l = true) : Safe s l := by
  cases l with
  | call t dest src u32DataWidth u32TransferCnt eMemCtl => exact trivial
  | isr ch ch_event left => exact trivial
  | go t m =>
    intro c idx ht
    rw [Few, ht] at h
    obtain ⟨hcount, hfew, hwidth, hsrc, hdst⟩ := of_decide_eq_true h
    exact ⟨hcount, hwidth, hsrc, hdst, fun hmany => absurd hmany (BitVec.not_lt.2 hfew)⟩

/-- A run whose transfers can all start is a run. -/
theorem run_of_safe {labels : List (Label n)} (h : Run (where_ Step Safe) s labels s') :
    Run Step s labels s' := by
  induction h with
  | nil => exact .nil
  | snoc _ hs ih => exact ih.snoc hs.2

/-- The driver after a thread has taken a channel for itself. -/
def usedDevice : NuPdma :=
  match Pdma.exec NuPdma.reset (.allocate PDMA_MEM) with
  | .ok d => d
  | .error _ => .reset

theorem usedDevice_run : Run Pdma.step NuPdma.reset [.allocate PDMA_MEM] usedDevice := .snoc .nil rfl

@[inherit_doc usedDevice]
def sharedDevice : NuPdma :=
  match nuPdmaMemfunActorInit usedDevice with
  | .ok d => d
  | .error _ => .reset

theorem sharedDevice_eq : nuPdmaMemfunActorInit usedDevice = .ok sharedDevice := rfl

/-- Two threads push elements. The transfer of the first ends, and the second is about to start its own. -/
def twoPushes : List (Label 2) :=
  [.call 0 0x1000#32 0x2000#32 32#32 8#32 .srcIncDstFix, .call 1 0x3000#32 0x4000#32 8#32 5#32 .srcIncDstFix,
    .go 0 noMalloc, .go 1 noMalloc] ++ List.replicate 8 (.go 0 noMalloc) ++
  List.replicate 7 (.go 1 noMalloc) ++ [.isr 1#32 2#32 0#32]

theorem twoPushes_isSome : (twoPushes.foldlM (fun s l => if Few s l then next s l else none)
    (System.start 2 sharedDevice)).isSome := by
  decide +kernel

@[inherit_doc twoPushes]
def pushed : System 2 := Option.get _ twoPushes_isSome

theorem pushed_run : Run (where_ Step Safe) (System.start 2 sharedDevice) twoPushes pushed := by
  refine Run.of_foldlM (fun {s l s'} hstep => ?_) (Option.some_get twoPushes_isSome).symm
  split at hstep
  · rename_i hfew
    exact ⟨Few.safe hfew, hstep⟩
  · cases hstep

/-- The signal of the first thread's transfer waits for it, the second thread is before its transfer. -/
theorem memfunActors_run_device :
    (pushed.sem 0 = [0] ∧ ∃ c, c.id = 1 ∧ pushed.thread 1 = .transfer c 1) ∧
    ActorsRight 4 pushed ∧ Dismissed pushed ∧
    ∀ l s', Step pushed l s' → (Dismissed s' ↔ Safe pushed l) := by
  obtain ⟨hright, hsafe⟩ := @memfunActors_run 2 _ _ _ usedDevice_run sharedDevice_eq
  exact ⟨⟨by decide +kernel, _, rfl, rfl⟩, hright _ _ (run_of_safe pushed_run), hsafe _ _ pushed_run⟩

/-- A thread pushes no elements: it takes an actor and waits for a transfer that was not started. -/
def emptyPush : List (Label 1) :=
  .call 0 0x1000#32 0x2000#32 32#32 0#32 .srcIncDstFix :: List.replicate 9 (.go 0 noMalloc)

theorem not_memfunRight : ¬ ∀ labels s, Run Step (System.start 1 device) labels s →
    ActorsRight 4 s ∧ Dismissed s := by
  intro h
  have hpush : ∃ s, emptyPush.foldlM next (System.start 1 device) = some s ∧
      ∃ c idx, s.thread 0 = .wait c idx ∧ s.sem idx = [] ∧ s.flight (chan s.driver idx) = none :=
    ⟨_, rfl, _, _, rfl, rfl, rfl⟩
  obtain ⟨s, hs, c, idx, ht, hstuck⟩ := hpush
  have hrun : Run Step (System.start 1 device) emptyPush s := .of_foldlM id hs
  have hinv : Inv 4 s :=
    hrun.invariant (I := Inv 4) (fun h hs => h.step hs)
      (Inv.start sgtblsInv_reset.toSgtblsOk rfl device_eq 1).1
  refine Stuck.not_canLeave (.inr ⟨c, idx, ht, hstuck⟩) hinv ((h _ _ hrun).2 0 ?_)
  rw [ht]
  rfl

end NumakerMA35D1.Pdma.Actors

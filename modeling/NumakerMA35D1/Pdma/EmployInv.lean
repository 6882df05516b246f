import NumakerMA35D1.Pdma.Employ

/-!
# What every step of the threads keeps

`Inv max s`: the invariant of the memory actors and the threads that share them. The units of the pool
that are out are those that threads have, a bit is set for every actor that a thread holds, an actor's
channel is as its holder set it up so far, and the engine is only at transfers of calls that wait. Every
step keeps it (`Inv.step`), and it says what is specified of every state (`Inv.right`).

Reference: `drv_pdma.c:1155` to `:1264`.
-/

namespace NumakerMA35D1.Pdma.Actors

open Embedded

variable {n max : Nat} {s s' : System n} {t : Fin n} {pc : Pc} {idx : Nat} {d d' : NuPdma}

/-! ## The invariant -/

/-- The actors have channels of their own that are allocated. -/
structure Chans (max : Nat) (d : NuPdma) : Prop where
  lt : ∀ {idx}, idx < max → (chan d idx).toNat < NU_PDMA_CH_MAX
  used : ∀ {idx}, idx < max → inUse d (chan d idx).toNat = true
  inj : ∀ {idx idx'}, idx < max → idx' < max → chan d idx = chan d idx' → idx = idx'

/-- A bit is set for every actor that is held and for every number that is none. -/
structure Bits (max : Nat) (mask : BitVec 32) (thread : Fin n → Pc) : Prop where
  set : ∀ i < 32, mask.getLsbD i = true ↔ max ≤ i ∨ ∃ t, (thread t).held = some i
  exclusive : ∀ {t t' idx}, (thread t).held = some idx → (thread t').held = some idx → t = t'
  range : ∀ {t idx}, (thread t).held = some idx → idx < max

/-- The channel of an actor that a thread has set up so far is as the thread set it up. -/
structure Regs (d : NuPdma) (thread : Fin n → Pc) : Prop where
  filtered : ∀ {t idx}, (thread t).filtered = some idx →
    (d.nuPdmaChnArr (chan d idx).toNat).m_u32EventFilter = memfunEvents
  registered : ∀ {t idx}, (thread t).registered = some idx →
    (d.nuPdmaChnArr (chan d idx).toNat).m_sCB_Event = some idx

/-- The engine is at transfers of calls that wait, and a unit of a semaphore is for one whose transfer
has ended. -/
structure Signals (s : System n) : Prop where
  flight : ∀ {ch id}, s.flight ch = some id →
    ∃ t c idx, s.thread t = .wait c idx ∧ c.id = id ∧ chan s.driver idx = ch ∧ s.sem idx = []
  sem : ∀ {idx}, s.sem idx ≠ [] →
    ∃ t c, s.thread t = .wait c idx ∧ s.sem idx = [c.id] ∧ s.flight (chan s.driver idx) = none

/-- What holds after every run. -/
structure Inv (max : Nat) (s : System n) : Prop where
  small : max ≤ NU_PDMA_MEMFUN_ACTOR_MAX
  chans : Chans max s.driver
  made : 0 < max → s.driver.nuPdmaMemfunActorPoolSem ≠ none
  permits : pool s.driver + countOf Pc.permit s.thread = max
  lock : ∀ t, s.lock = some t ↔ (s.thread t).locks = true
  bits : 0 < max → Bits max s.driver.nuPdmaMemfunActorMask s.thread
  found : ∀ t c, s.thread t ≠ .lockGive c none
  regs : Regs s.driver s.thread
  signals : Signals s

/-! ## Parts of the state that a step leaves -/

/-- The actors' channels, and which channels are allocated, are as before. -/
structure SameChans (d d' : NuPdma) : Prop where
  chan : ∀ idx, chan d' idx = chan d idx
  mask : d'.nuPdmaChnMaskArr = d.nuPdmaChnMaskArr

theorem Chans.same (h : Chans max d) (hsame : SameChans d d') : Chans max d' where
  lt hidx := hsame.chan _ ▸ h.lt hidx
  used {idx} hidx := by
    rw [hsame.chan, inUse, hsame.mask]
    exact h.used hidx
  inj {idx idx'} hidx hidx' heq := by
    rw [hsame.chan, hsame.chan] at heq
    exact h.inj hidx hidx' heq

/-- A thread that holds an actor has a unit of the pool. -/
theorem Pc.permit_of_held {i : Nat} (h : pc.held = some i) : pc.permit = true := by
  cases pc with
  | idle | poolTake => cases h
  | _ => rfl

theorem Pc.held_of_filtered {i : Nat} (h : pc.filtered = some i) : pc.held = some i := by
  cases pc with
  | register | result | transfer | wait => exact h
  | _ => cases h

theorem Pc.held_of_registered {i : Nat} (h : pc.registered = some i) : pc.held = some i := by
  cases pc with
  | result | transfer | wait => exact h
  | _ => cases h

/-- A thread moves; the unit of the pool that it takes or gives is off or on the semaphore. -/
theorem permits_move {p p' : Nat} {thread : Fin n → Pc}
    (h : p + countOf Pc.permit thread = max)
    (hp : p' + (if pc.permit then 1 else 0) = p + if (thread t).permit then 1 else 0) :
    p' + countOf Pc.permit (Function.update thread t pc) = max := by
  have hcount := countOf_update Pc.permit thread t pc
  omega

/-- A thread moves and holds what it held. -/
theorem Bits.same {mask : BitVec 32} {thread : Fin n → Pc} (h : Bits max mask thread)
    (hheld : pc.held = (thread t).held) : Bits max mask (Function.update thread t pc) := by
  have hsame : ∀ t', (Function.update thread t pc t').held = (thread t').held := by
    intro t'
    rw [Function.update_apply]
    split
    · next heq => rw [heq, hheld]
    · rfl
  constructor
  · intro i hi
    rw [h.set i hi]
    simp only [hsame]
  · intro t₁ t₂ idx h₁ h₂
    rw [hsame] at h₁ h₂
    exact h.exclusive h₁ h₂
  · intro t₁ idx h₁
    rw [hsame] at h₁
    exact h.range h₁

/-- A thread moves that set its channel up as far as that, and left the channels of others. -/
theorem Regs.move (h : Regs d s.thread) (hchan : ∀ idx, chan d' idx = chan d idx)
    (hfiltered : ∀ idx, pc.filtered = some idx →
      (d'.nuPdmaChnArr (chan d idx).toNat).m_u32EventFilter = memfunEvents)
    (hregistered : ∀ idx, pc.registered = some idx →
      (d'.nuPdmaChnArr (chan d idx).toNat).m_sCB_Event = some idx)
    (hothers : ∀ t' idx, t' ≠ t → (s.thread t').held = some idx →
      d'.nuPdmaChnArr (chan d idx).toNat = d.nuPdmaChnArr (chan d idx).toNat) :
    Regs d' (Function.update s.thread t pc) where
  filtered {t' idx} hf := by
    rw [hchan]
    rw [Function.update_apply] at hf
    split at hf
    · exact hfiltered idx hf
    · next hne =>
      rw [hothers t' idx hne (Pc.held_of_filtered hf)]
      have hold := h.filtered hf
      exact hold
  registered {t' idx} hr := by
    rw [hchan]
    rw [Function.update_apply] at hr
    split at hr
    · exact hregistered idx hr
    · next hne =>
      rw [hothers t' idx hne (Pc.held_of_registered hr)]
      exact h.registered hr

/-- A thread that does not wait moves to a place where it does not. -/
theorem Signals.quiet (h : Signals s) (hthread : s'.thread = Function.update s.thread t pc)
    (hsem : s'.sem = s.sem) (hflight : s'.flight = s.flight)
    (hchan : ∀ idx, chan s'.driver idx = chan s.driver idx)
    (hwait : ∀ c idx, s.thread t ≠ .wait c idx) : Signals s' where
  flight {ch id} hf := by
    rw [hflight] at hf
    obtain ⟨t', c, idx, ht', hid, hch, hempty⟩ := h.flight hf
    refine ⟨t', c, idx, ?_, hid, (hchan idx).trans hch, hsem ▸ hempty⟩
    rw [hthread, Function.update_apply, if_neg, ht']
    rintro rfl
    exact hwait c idx ht'
  sem {idx} hne := by
    rw [hsem] at hne
    obtain ⟨t', c, ht', hunit, hnone⟩ := h.sem hne
    refine ⟨t', c, ?_, hsem ▸ hunit, ?_⟩
    · rw [hthread, Function.update_apply, if_neg, ht']
      rintro rfl
      exact hwait c idx ht'
    · rw [hflight, hchan]
      exact hnone

/-- The mutex taken, given back or left by a thread that moves. -/
theorem lock_move {lock lock' : Option (Fin n)} {thread : Fin n → Pc}
    (h : ∀ t', lock = some t' ↔ (thread t').locks = true) (hmine : lock' = some t ↔ pc.locks = true)
    (hothers : ∀ t', t' ≠ t → (lock' = some t' ↔ lock = some t')) (t' : Fin n) :
    lock' = some t' ↔ (Function.update thread t pc t').locks = true := by
  rw [Function.update_apply]
  split
  · next heq =>
    rw [heq]
    exact hmine
  · next hne => rw [hothers t' hne, h t']

/-! ## Bits -/

/-- A thread that has a unit of the pool makes the pool's size positive. -/
theorem Inv.pos (h : Inv max s) (ht : (s.thread t).permit = true) : 0 < max := by
  have hpermits := h.permits
  have hcount : 0 < countOf Pc.permit s.thread :=
    Finset.card_pos.2 ⟨t, Finset.mem_filter.2 ⟨Finset.mem_univ t, ht⟩⟩
  omega

/-- An actor that a thread holds. -/
theorem Inv.held_lt (h : Inv max s) (ht : (s.thread t).held = some idx) : idx < max :=
  (h.bits (h.pos (Pc.permit_of_held ht))).range ht

theorem Inv.exclusive (h : Inv max s) {t' : Fin n} (ht : (s.thread t).held = some idx)
    (ht' : (s.thread t').held = some idx) : t = t' :=
  (h.bits (h.pos (Pc.permit_of_held ht))).exclusive ht ht'

/-- A thread that looks for an actor finds one, which nobody holds. -/
theorem Inv.finds (h : Inv max s) {c : Call} (ht : s.thread t = .headhunt c) :
    nuCto s.driver.nuPdmaMemfunActorMask < max ∧
      ∀ t', (s.thread t').held ≠ some (nuCto s.driver.nuPdmaMemfunActorMask) := by
  have hpermit : (s.thread t).permit = true := by rw [ht]; rfl
  have hnone : (s.thread t).held = none := by rw [ht]; rfl
  have hbits := h.bits (h.pos hpermit)
  have hpermits := h.permits
  obtain ⟨i, hi, hfree⟩ : ∃ i < max, ∀ t', (s.thread t').held ≠ some i :=
    exists_free Pc.permit_of_held (by omega) hpermit hnone
  have hsmall := h.small
  have hactors : NU_PDMA_MEMFUN_ACTOR_MAX = 4 := rfl
  have hclear : s.driver.nuPdmaMemfunActorMask.getLsbD i = false := by
    by_contra hset
    rcases (hbits.set i (by omega)).1 (by simpa using hset) with hge | ⟨t', ht'⟩
    · omega
    · exact hfree t' ht'
  have hle : nuCto s.driver.nuPdmaMemfunActorMask ≤ i := nuCto_le (by omega) hclear
  refine ⟨by omega, fun t' ht' => ?_⟩
  have hset := (hbits.set _ (by omega)).2 (.inr ⟨t', ht'⟩)
  have hlt : nuCto s.driver.nuPdmaMemfunActorMask < 32 := by omega
  rw [getLsbD_nuCto hlt] at hset
  cases hset

/-- A thread takes an actor that nobody holds. -/
theorem Bits.take {mask : BitVec 32} {thread : Fin n → Pc} (h : Bits max mask thread)
    (hmax : max ≤ 32) (hidx : idx < max) (hfree : ∀ t', (thread t').held ≠ some idx)
    (hnone : (thread t).held = none) (hheld : pc.held = some idx) :
    Bits max (mask ||| 1#32 <<< idx) (Function.update thread t pc) := by
  have hiff : ∀ {t' i}, (Function.update thread t pc t').held = some i ↔
      (t' = t ∧ i = idx) ∨ (thread t').held = some i := by
    intro t' i
    rw [Function.update_apply]
    split
    · next heq =>
      rw [heq, hheld, hnone]
      simp [eq_comm]
    · next hne => simp [hne]
  constructor
  · intro i hi
    rw [getLsbD_or_bit (by omega), Bool.or_eq_true, h.set i hi, decide_eq_true_eq]
    constructor
    · rintro ((hge | ⟨t', ht'⟩) | rfl)
      · exact .inl hge
      · exact .inr ⟨t', hiff.2 (.inr ht')⟩
      · exact .inr ⟨t, hiff.2 (.inl ⟨rfl, rfl⟩)⟩
    · rintro (hge | ⟨t', ht'⟩)
      · exact .inl (.inl hge)
      · rcases hiff.1 ht' with ⟨-, rfl⟩ | ht'
        · exact .inr rfl
        · exact .inl (.inr ⟨t', ht'⟩)
  · intro t₁ t₂ i h₁ h₂
    rcases hiff.1 h₁ with ⟨rfl, rfl⟩ | h₁'
    · rcases hiff.1 h₂ with ⟨rfl, -⟩ | h₂'
      · rfl
      · exact absurd h₂' (hfree t₂)
    · rcases hiff.1 h₂ with ⟨rfl, rfl⟩ | h₂'
      · exact absurd h₁' (hfree t₁)
      · exact h.exclusive h₁' h₂'
  · intro t' i ht'
    rcases hiff.1 ht' with ⟨-, rfl⟩ | ht'
    · exact hidx
    · exact h.range ht'

/-- A thread gives the actor back that it holds. -/
theorem Bits.give {mask : BitVec 32} {thread : Fin n → Pc} (h : Bits max mask thread)
    (hmax : max ≤ 32) (hmine : (thread t).held = some idx) (hheld : pc.held = none) :
    Bits max (mask &&& ~~~(1#32 <<< idx)) (Function.update thread t pc) := by
  have hiff : ∀ {t' i}, (Function.update thread t pc t').held = some i ↔
      (thread t').held = some i ∧ i ≠ idx := by
    intro t' i
    rw [Function.update_apply]
    split
    · next heq =>
      rw [heq, hheld, hmine]
      simp [eq_comm]
    · next hne =>
      refine ⟨fun ht' => ⟨ht', ?_⟩, And.left⟩
      rintro rfl
      exact hne (h.exclusive ht' hmine)
  have hidx := h.range hmine
  constructor
  · intro i hi
    rw [getLsbD_and_not_bit (by omega), Bool.and_eq_true, h.set i hi, decide_eq_true_eq]
    constructor
    · rintro ⟨hge | ⟨t', ht'⟩, hne⟩
      · exact .inl hge
      · exact .inr ⟨t', hiff.2 ⟨ht', hne⟩⟩
    · rintro (hge | ⟨t', ht'⟩)
      · exact ⟨.inl hge, by omega⟩
      · obtain ⟨ht', hne⟩ := hiff.1 ht'
        exact ⟨.inr ⟨t', ht'⟩, hne⟩
  · intro t₁ t₂ i h₁ h₂
    exact h.exclusive (hiff.1 h₁).1 (hiff.1 h₂).1
  · intro t' i ht'
    exact h.range (hiff.1 ht').1

/-! ## Calls of the driver -/

/-- A call on the channel of an actor: the actors' channels, their bits, the pool and the records of
other channels are as before. -/
structure OnChannel (idx : Nat) (d d' : NuPdma) : Prop where
  chans : SameChans d d'
  bits : d'.nuPdmaMemfunActorMask = d.nuPdmaMemfunActorMask
  pool : d'.nuPdmaMemfunActorPoolSem = d.nuPdmaMemfunActorPoolSem
  others : ∀ ch, ch ≠ (chan d idx).toNat → d'.nuPdmaChnArr ch = d.nuPdmaChnArr ch

/-- It leaves the callback and its filter alone. -/
structure Quietly (idx : Nat) (d d' : NuPdma) : Prop extends OnChannel idx d d' where
  event : (d'.nuPdmaChnArr (chan d idx).toNat).m_sCB_Event =
    (d.nuPdmaChnArr (chan d idx).toNat).m_sCB_Event
  filter : (d'.nuPdmaChnArr (chan d idx).toNat).m_u32EventFilter =
    (d.nuPdmaChnArr (chan d idx).toNat).m_u32EventFilter

theorem SameChans.refl : SameChans d d := ⟨fun _ => rfl, rfl⟩

theorem Quietly.refl : Quietly idx d d := ⟨⟨.refl, rfl, rfl, fun _ _ => rfl⟩, rfl, rfl⟩

/-- What calls on the channel may do is allowed. -/
theorem Quietly.channelRel (idx : Nat) (c : BitVec 32) :
    ChannelRel c.toNat fun d d' => chan d idx = c → Quietly idx d d' where
  refl _ := .refl
  trans {d d' d''} h h' hc := by
    have h := h hc
    have hchan : chan d' idx = chan d idx := h.chans.chan idx
    have h' := h' (hchan.trans hc)
    have hevent := h'.event
    have hfilter := h'.filter
    have hothers := h'.others
    rw [hchan] at hevent hfilter hothers
    refine ⟨⟨⟨?_, ?_⟩, ?_, ?_, ?_⟩, ?_, ?_⟩
    · exact fun i => (h'.chans.chan i).trans (h.chans.chan i)
    · exact h'.chans.mask.trans h.chans.mask
    · exact h'.bits.trans h.bits
    · exact h'.pool.trans h.pool
    · exact fun ch hch => (hothers ch hch).trans (h.others ch hch)
    · exact hevent.trans h.event
    · exact hfilter.trans h.filter
  setChn {d r} mem hevent hfilter hc := by
    have hset : ∀ ch, ({ d.setChn c.toNat r with heap := mem } : NuPdma).nuPdmaChnArr ch =
        if ch = c.toNat then r else d.nuPdmaChnArr ch :=
      NuPdma.nuPdmaChnArr_setChn d c.toNat r
    refine ⟨⟨⟨fun _ => rfl, rfl⟩, rfl, rfl, ?_⟩, ?_, ?_⟩
    · intro ch hch
      rw [hset, if_neg (by rwa [← hc])]
    · rw [hset, hc, if_pos rfl, hevent]
    · rw [hset, hc, if_pos rfl, hfilter]
  setDSCT _ _ _ _ := ⟨⟨⟨fun _ => rfl, rfl⟩, rfl, rfl, fun _ _ => rfl⟩, rfl, rfl⟩
  heap _ _ _ := ⟨⟨⟨fun _ => rfl, rfl⟩, rfl, rfl, fun _ _ => rfl⟩, rfl, rfl⟩

/-- A new record for the channel of an actor. -/
theorem OnChannel.setChn (d : NuPdma) (idx : Nat) (r : NuPdmaChn) :
    OnChannel idx d (d.setChn (chan d idx).toNat r) where
  chans := ⟨fun _ => rfl, rfl⟩
  bits := rfl
  pool := rfl
  others ch hch := by rw [NuPdma.nuPdmaChnArr_setChn, if_neg hch]

theorem Quietly.setResult (d : NuPdma) (idx : Nat) (r : BitVec 32) :
    Quietly idx d (d.setResult idx r) where
  chans := by
    refine ⟨fun i => ?_, rfl⟩
    rw [chan, chan]
    simp only [NuPdma.setResult, Function.update_apply]
    split
    · next heq => rw [heq]
    · rfl
  bits := rfl
  pool := rfl
  others _ _ := rfl
  event := rfl
  filter := rfl

theorem Quietly.memctrlSet {m : NuPdmaMemctrl} {r : Int}
    (h : nuPdmaChannelMemctrlSet d (chan d idx) m = .ok (r, d')) : Quietly idx d d' := by
  have hret := (Quietly.channelRel idx (chan d idx)).memctrlSet (s := d) m
  exact Returns.of_ok hret h rfl

theorem Quietly.transfer {m : Malloc} {w sa da cnt t : BitVec 32} {r : Int}
    (h : nuPdmaTransfer m d (chan d idx) w sa da cnt t = .ok (r, d')) : Quietly idx d d' := by
  have hret : Keeping _ d (nuPdmaTransfer m d (chan d idx) w sa da cnt t) (·.2) :=
    (Quietly.channelRel idx (chan d idx)).transfer m
  exact Returns.of_ok hret h rfl

theorem Quietly.terminated (h : terminated d idx = .ok d') : Quietly idx d d' := by
  unfold Actors.terminated at h
  split at h
  · have hret := (Quietly.channelRel idx (chan d idx)).terminate (s := d)
    exact Returns.of_ok hret h rfl
  · cases h
    exact .refl

/-- The calls on the channel of an actor return. -/
theorem Chans.check (h : Chans max d) (hidx : idx < max) :
    nuPdmaCheckIsNonallocated d (chan d idx) = .ok false := by
  rw [check_eq (h.lt hidx), h.used hidx]
  rfl

theorem Chans.memctrlSet (h : Chans max d) (hidx : idx < max) (m : NuPdmaMemctrl) :
    ∃ r d', nuPdmaChannelMemctrlSet d (chan d idx) m = .ok (r, d') := by
  rw [nuPdmaChannelMemctrlSet, h.check hidx]
  simp only [ok_bind, Bool.false_eq_true, if_false]
  split
  · exact ⟨_, _, rfl⟩
  · split
    · exact ⟨_, _, rfl⟩
    · exact ⟨_, _, rfl⟩

theorem Chans.terminated (h : Chans max d) (hidx : idx < max) :
    ∃ d', terminated d idx = .ok d' := by
  unfold Actors.terminated
  split
  · obtain ⟨d', hd', -⟩ := exists_terminate (h.lt hidx)
    exact ⟨d', hd'⟩
  · exact ⟨d, rfl⟩

theorem Chans.filteringSet (h : Chans max d) (hidx : idx < max) (f : BitVec 32) :
    nuPdmaFilteringSet d (chan d idx) f = .ok (RT_EOK, d.setChn (chan d idx).toNat
      { d.nuPdmaChnArr (chan d idx).toNat with m_u32EventFilter := f }) := by
  rw [nuPdmaFilteringSet, h.check hidx]
  rfl

theorem Chans.callbackRegister (h : Chans max d) (hidx : idx < max) (cb : Option Nat) :
    nuPdmaCallbackRegister d (chan d idx) cb = .ok (RT_EOK, d.setChn (chan d idx).toNat
      { d.nuPdmaChnArr (chan d idx).toNat with m_sCB_Event := cb }) := by
  rw [nuPdmaCallbackRegister, h.check hidx]
  rfl

/-- The records of the channels of other threads' actors are as before. -/
theorem Inv.others (h : Inv max s) (hmine : (s.thread t).held = some idx)
    (hon : OnChannel idx s.driver d') (t' : Fin n) (idx' : Nat) (hne : t' ≠ t)
    (ht' : (s.thread t').held = some idx') :
    d'.nuPdmaChnArr (chan s.driver idx').toNat = s.driver.nuPdmaChnArr (chan s.driver idx').toNat := by
  refine hon.others _ fun heq => hne ?_
  have hsame : idx' = idx :=
    h.chans.inj (h.held_lt ht') (h.held_lt hmine) (BitVec.eq_of_toNat_eq heq)
  rw [hsame] at ht'
  exact h.exclusive ht' hmine

/-! ## Steps -/

/-- A thread goes on with its actor, outside the mutex. -/
theorem Inv.work {sem : Nat → List Nat} {flight : BitVec 32 → Option Nat} (h : Inv max s)
    (hmine : (s.thread t).held = some idx) (hunlocked : (s.thread t).locks = false)
    (hheld : pc.held = some idx) (hlocks : pc.locks = false) (hon : OnChannel idx s.driver d')
    (hfiltered : ∀ i, pc.filtered = some i →
      (d'.nuPdmaChnArr (chan s.driver i).toNat).m_u32EventFilter = memfunEvents)
    (hregistered : ∀ i, pc.registered = some i →
      (d'.nuPdmaChnArr (chan s.driver i).toNat).m_sCB_Event = some i)
    (hsignals : Signals { s.goto t pc with driver := d', sem, flight }) :
    Inv max { s.goto t pc with driver := d', sem, flight } where
  small := h.small
  chans := h.chans.same hon.chans
  made hmax := hon.pool ▸ h.made hmax
  permits := by
    refine permits_move h.permits ?_
    rw [Pc.permit_of_held hheld, Pc.permit_of_held hmine, pool, pool, hon.pool]
  lock := by
    refine lock_move h.lock ((h.lock t).trans ?_) fun _ _ => Iff.rfl
    rw [hunlocked, hlocks]
  bits hmax := by
    have hsame := (h.bits hmax).same (hheld.trans hmine.symm)
    rw [← hon.bits] at hsame
    exact hsame
  found t' c := by
    change Function.update s.thread t pc t' ≠ _
    rw [Function.update_apply]
    split
    · rintro rfl
      cases hheld
    · exact h.found t' c
  regs := h.regs.move hon.chans.chan hfiltered hregistered (h.others hmine hon)
  signals := hsignals

/-- A call of the driver on the channel of the thread's actor. -/
theorem Inv.called {x : Except Halt NuPdma} (h : Inv max s) (hmine : (s.thread t).held = some idx)
    (hunlocked : (s.thread t).locks = false) (hwait : ∀ c i, s.thread t ≠ .wait c i)
    (hheld : pc.held = some idx) (hlocks : pc.locks = false)
    (hx : ∀ d', x = .ok d' → OnChannel idx s.driver d' ∧
      (∀ i, pc.filtered = some i →
        (d'.nuPdmaChnArr (chan s.driver i).toNat).m_u32EventFilter = memfunEvents) ∧
      ∀ i, pc.registered = some i →
        (d'.nuPdmaChnArr (chan s.driver i).toNat).m_sCB_Event = some i) :
    Inv max (s.called t idx x pc) := by
  cases x with
  | error e =>
    exact h.work hmine hunlocked rfl rfl Quietly.refl.toOnChannel (fun _ hi => nomatch hi)
      (fun _ hi => nomatch hi) (h.signals.quiet rfl rfl rfl (fun _ => rfl) hwait)
  | ok d' =>
    obtain ⟨hon, hfiltered, hregistered⟩ := hx d' rfl
    exact h.work hmine hunlocked hheld hlocks hon hfiltered hregistered
      (h.signals.quiet rfl rfl rfl hon.chans.chan hwait)

/-- What a call that returns a result as well leaves. -/
theorem map_snd_ok {x : Except Halt (Int × NuPdma)} (h : (·.2) <$> x = .ok d') :
    ∃ r, x = .ok (r, d') := by
  cases x with
  | error e => cases h
  | ok p => exact ⟨p.1, congrArg Except.ok (Prod.ext rfl (Except.ok.inj h))⟩

/-- The channel of a thread that has gone as far as that is set up. -/
theorem Inv.filter (h : Inv max s) (ht : (s.thread t).filtered = some idx) :
    (s.driver.nuPdmaChnArr (chan s.driver idx).toNat).m_u32EventFilter = memfunEvents :=
  h.regs.filtered ht

theorem Inv.event (h : Inv max s) (ht : (s.thread t).registered = some idx) :
    (s.driver.nuPdmaChnArr (chan s.driver idx).toNat).m_sCB_Event = some idx :=
  h.regs.registered ht

/-- A thread calls the function. -/
theorem Inv.call {c : Call} {k : Nat} (h : Inv max s) (ht : s.thread t = .idle) :
    Inv max { s.goto t (.poolTake c) with calls := k } where
  small := h.small
  chans := h.chans
  made := h.made
  permits := permits_move h.permits (by rw [ht]; rfl)
  lock := by
    refine lock_move h.lock ((h.lock t).trans ?_) fun _ _ => Iff.rfl
    rw [ht]
    rfl
  bits hmax := (h.bits hmax).same (by rw [ht]; rfl)
  found t' c' := by
    change Function.update s.thread t _ t' ≠ _
    rw [Function.update_apply]
    split
    · exact fun heq => nomatch heq
    · exact h.found t' c'
  regs := h.regs.move (fun _ => rfl) (fun _ hi => nomatch hi) (fun _ hi => nomatch hi)
    fun _ _ _ _ => rfl
  signals := h.signals.quiet rfl rfl rfl (fun _ => rfl) (by rw [ht]; exact fun _ _ hw => nomatch hw)

/-- A thread takes or gives a unit of the pool, takes or gives the mutex, or takes or gives an actor. -/
theorem Inv.share (h : Inv max s) (lock : Option (Fin n)) (mask : BitVec 32) (sem : Option Nat)
    (hsem : sem = none → s.driver.nuPdmaMemfunActorPoolSem = none)
    (hpermit : sem.getD 0 + (if pc.permit then 1 else 0) =
      pool s.driver + if (s.thread t).permit then 1 else 0)
    (hmine : lock = some t ↔ pc.locks = true)
    (hlock : ∀ t', t' ≠ t → (lock = some t' ↔ s.lock = some t'))
    (hbits : 0 < max → Bits max mask (Function.update s.thread t pc))
    (hfound : ∀ c, pc ≠ .lockGive c none) (hfiltered : pc.filtered = none)
    (hregistered : pc.registered = none) (hwait : ∀ c i, s.thread t ≠ .wait c i) :
    Inv max { s.goto t pc with
      lock
      driver := { s.driver with nuPdmaMemfunActorMask := mask, nuPdmaMemfunActorPoolSem := sem } }
    where
  small := h.small
  chans := h.chans.same ⟨fun _ => rfl, rfl⟩
  made hmax hnone := h.made hmax (hsem hnone)
  permits := permits_move h.permits hpermit
  lock := lock_move h.lock hmine hlock
  bits := hbits
  found t' c := by
    change Function.update s.thread t pc t' ≠ _
    rw [Function.update_apply]
    split
    · exact hfound c
    · exact h.found t' c
  regs := h.regs.move (fun _ => rfl) (fun _ hi => nomatch hfiltered.symm.trans hi)
    (fun _ hi => nomatch hregistered.symm.trans hi) fun _ _ _ _ => rfl
  signals := h.signals.quiet rfl rfl rfl (fun _ => rfl) hwait

/-- A thread starts its transfer, or fails to, and goes on to wait. -/
theorem Inv.transfer {m : Malloc} {c : Call} (h : Inv max s) (ht : s.thread t = .transfer c idx) :
    Inv max (s.transfer t c idx m) := by
  have hmine : (s.thread t).held = some idx := by rw [ht]; rfl
  have hunlocked : (s.thread t).locks = false := by rw [ht]; rfl
  have hwait : ∀ c i, s.thread t ≠ .wait c i := by
    rw [ht]
    exact fun _ _ hw => nomatch hw
  -- nobody waits for the actor, so its semaphore has no unit
  have hothers : ∀ {t' c' i}, s.thread t' = .wait c' i → t' ≠ t ∧ i ≠ idx := by
    intro t' c' i ht'
    refine ⟨?_, ?_⟩
    · rintro rfl
      exact hwait c' i ht'
    · rintro rfl
      obtain rfl := h.exclusive (show (s.thread t').held = some _ by rw [ht']; rfl) hmine
      exact hwait c' i ht'
  have hempty : s.sem idx = [] := by
    by_contra hne
    obtain ⟨t', c', ht', -, -⟩ := h.signals.sem hne
    exact (hothers ht').2 rfl
  unfold System.transfer
  split
  · exact h.work hmine hunlocked rfl rfl Quietly.refl.toOnChannel (fun _ hi => nomatch hi)
      (fun _ hi => nomatch hi) (h.signals.quiet rfl rfl rfl (fun _ => rfl) hwait)
  · next ret d' hret =>
    have hquiet := Quietly.transfer hret
    refine h.work hmine hunlocked rfl rfl hquiet.toOnChannel ?_ ?_ ?_
    · rintro i ⟨⟩
      rw [hquiet.filter]
      exact h.filter (by rw [ht]; rfl)
    · rintro i ⟨⟩
      rw [hquiet.event]
      exact h.event (by rw [ht]; rfl)
    · have hmoved : ∀ {t' c' i}, s.thread t' = .wait c' i →
          Function.update s.thread t (.wait c idx) t' = .wait c' i := by
        intro t' c' i ht'
        rw [Function.update_of_ne (hothers ht').1, ht']
      have hold : ∀ {ch id}, s.flight ch = some id → ∃ t' c' i,
          Function.update s.thread t (.wait c idx) t' = .wait c' i ∧ c'.id = id ∧
            chan d' i = ch ∧ s.sem i = [] := by
        intro ch id hf
        obtain ⟨t', c', i, ht', hid, hch, hnil⟩ := h.signals.flight hf
        exact ⟨t', c', i, hmoved ht', hid, (hquiet.chans.chan i).trans hch, hnil⟩
      constructor
      · intro ch id hf
        change (if _ then _ else _ : BitVec 32 → Option Nat) ch = some id at hf
        split at hf
        · rw [Function.update_apply] at hf
          split at hf
          · next hch =>
            obtain rfl := Option.some.inj hf
            exact ⟨t, c, idx, Function.update_self .., rfl, (hquiet.chans.chan idx).trans hch.symm,
              hempty⟩
          · exact hold hf
        · exact hold hf
      · intro i hne
        obtain ⟨t', c', ht', hunit, hnone⟩ := h.signals.sem hne
        refine ⟨t', c', hmoved ht', hunit, ?_⟩
        change (if _ then _ else _ : BitVec 32 → Option Nat) (chan d' i) = none
        rw [hquiet.chans.chan]
        split
        · rw [Function.update_of_ne, hnone]
          intro heq
          refine (hothers ht').2 (h.chans.inj (h.held_lt (t := t') ?_) (h.held_lt hmine) heq)
          rw [ht']
          rfl
        · exact hnone

/-- A thread takes the unit that its transfer has left. -/
theorem Inv.wait {c : Call} {u : Nat} {rest : List Nat} (h : Inv max s)
    (ht : s.thread t = .wait c idx) (hsem : s.sem idx = u :: rest) :
    Inv max { s.goto t (.terminate c idx) with sem := Function.update s.sem idx rest } := by
  have hmine : (s.thread t).held = some idx := by rw [ht]; rfl
  obtain ⟨t', c', ht', hunit, -⟩ := h.signals.sem (hsem ▸ List.cons_ne_nil u rest)
  have hrest : rest = [] := (List.cons.inj (hsem.symm.trans hunit)).2
  have hothers : ∀ {t' c' i}, s.thread t' = .wait c' i → i ≠ idx → t' ≠ t := by
    rintro t' c' i ht' hne rfl
    exact hne (Pc.wait.inj (ht'.symm.trans ht)).2
  refine h.work hmine (by rw [ht]; rfl) rfl rfl Quietly.refl.toOnChannel (fun _ hi => nomatch hi)
    (fun _ hi => nomatch hi) ?_
  rw [hrest]
  constructor
  · intro ch id hf
    obtain ⟨t₁, c₁, i, ht₁, hid, hch, hnil⟩ := h.signals.flight hf
    have hne : i ≠ idx := by
      rintro rfl
      rw [hsem] at hnil
      cases hnil
    refine ⟨t₁, c₁, i, ?_, hid, hch, ?_⟩
    · exact (Function.update_of_ne (hothers ht₁ hne) _ _).trans ht₁
    · exact (Function.update_of_ne hne _ _).trans hnil
  · intro i hne
    have hi : i ≠ idx := by
      rintro rfl
      exact hne (Function.update_self ..)
    have hunits : Function.update s.sem idx [] i = s.sem i := Function.update_of_ne hi _ _
    change Function.update s.sem idx [] i ≠ [] at hne
    rw [hunits] at hne
    obtain ⟨t₁, c₁, ht₁, hunit₁, hnone⟩ := h.signals.sem hne
    exact ⟨t₁, c₁, (Function.update_of_ne (hothers ht₁ hi) _ _).trans ht₁, hunits.trans hunit₁, hnone⟩

/-- A thread takes the mutex. -/
theorem Inv.takeLock (h : Inv max s) (hfree : s.lock = none) (hheld : pc.held = (s.thread t).held)
    (hpermit : pc.permit = (s.thread t).permit) (hlocks : pc.locks = true)
    (hfound : ∀ c, pc ≠ .lockGive c none) (hfiltered : pc.filtered = none)
    (hregistered : pc.registered = none) (hwait : ∀ c i, s.thread t ≠ .wait c i) :
    Inv max { s.goto t pc with lock := some t } := by
  refine h.share (some t) s.driver.nuPdmaMemfunActorMask s.driver.nuPdmaMemfunActorPoolSem id ?_ ?_ ?_
    (fun hmax => (h.bits hmax).same hheld) hfound hfiltered hregistered hwait
  · rw [hpermit, pool]
  · simp [hlocks]
  · intro t' hne
    rw [hfree]
    exact ⟨fun heq => absurd (Option.some.inj heq).symm hne, fun heq => nomatch heq⟩

/-- A thread gives the mutex back. -/
theorem Inv.giveLock (h : Inv max s) (hmine : (s.thread t).locks = true)
    (hheld : pc.held = (s.thread t).held) (hpermit : pc.permit = (s.thread t).permit)
    (hlocks : pc.locks = false) (hfiltered : pc.filtered = none) (hregistered : pc.registered = none)
    (hwait : ∀ c i, s.thread t ≠ .wait c i) : Inv max { s.goto t pc with lock := none } := by
  refine h.share none s.driver.nuPdmaMemfunActorMask s.driver.nuPdmaMemfunActorPoolSem id ?_ ?_ ?_
    (fun hmax => (h.bits hmax).same hheld) ?_ hfiltered hregistered hwait
  · rw [hpermit, pool]
  · simp [hlocks]
  · intro t' hne
    rw [(h.lock t).2 hmine]
    exact ⟨(fun heq => nomatch heq), fun heq => absurd (Option.some.inj heq).symm hne⟩
  · rintro c rfl
    cases hlocks

/-- Every step of a thread. -/
theorem Inv.go {m : Malloc} (h : Inv max s) (hgo : s.go t m = some s') : Inv max s' := by
  have hlock := h.lock t
  have hmax32 : max ≤ 32 := h.small.trans (by decide)
  cases ht : s.thread t with
  | idle | stopped i =>
    simp only [System.go, ht] at hgo
    cases hgo
  | poolTake c =>
    simp only [System.go, ht] at hgo
    split at hgo
    · next v hv =>
      cases hgo
      refine h.share s.lock s.driver.nuPdmaMemfunActorMask (some v) (fun h => nomatch h) ?_ ?_
        (fun _ _ => Iff.rfl) ?_ (fun _ h => nomatch h) rfl rfl ?_
      · rw [ht, pool, hv]
        rfl
      · rw [hlock, ht]
        rfl
      · exact fun hmax => (h.bits hmax).same (by rw [ht]; rfl)
      · rw [ht]
        exact fun _ _ h => nomatch h
    · cases hgo
  | lockTake c =>
    simp only [System.go, ht] at hgo
    split at hgo
    · next hfree =>
      cases hgo
      exact h.takeLock hfree (by rw [ht]; rfl) (by rw [ht]; rfl) rfl (fun _ h => nomatch h) rfl rfl
        (by rw [ht]; exact fun _ _ h => nomatch h)
    · cases hgo
  | headhunt c =>
    obtain ⟨hlt, hfree⟩ := h.finds ht
    simp only [System.go, ht, show nuCto s.driver.nuPdmaMemfunActorMask ≠ 32 by omega, ne_eq,
      not_false_eq_true, if_true] at hgo
    cases hgo
    refine h.share s.lock _ s.driver.nuPdmaMemfunActorPoolSem id ?_ ?_ (fun _ _ => Iff.rfl) ?_
      (fun _ h => nomatch h) rfl rfl (by rw [ht]; exact fun _ _ h => nomatch h)
    · rw [ht, pool]
      rfl
    · rw [hlock, ht]
      rfl
    · exact fun hmax => (h.bits hmax).take hmax32 hlt hfree (by rw [ht]; rfl) rfl
  | lockGive c o =>
    cases o with
    | none => exact absurd ht (h.found t c)
    | some i =>
      simp only [System.go, ht] at hgo
      cases hgo
      exact h.giveLock (by rw [ht]; rfl) (by rw [ht]; rfl) (by rw [ht]; rfl) rfl rfl rfl
        (by rw [ht]; exact fun _ _ h => nomatch h)
  | memctrl c i =>
    simp only [System.go, ht] at hgo
    cases hgo
    refine h.called (by rw [ht]; rfl) (by rw [ht]; rfl) (by rw [ht]; exact fun _ _ h => nomatch h)
      rfl rfl fun d' hd' => ?_
    obtain ⟨r, hr⟩ := map_snd_ok hd'
    exact ⟨(Quietly.memctrlSet hr).toOnChannel, (fun _ h => nomatch h), (fun _ h => nomatch h)⟩
  | filtering c i =>
    have hmine : (s.thread t).held = some i := by rw [ht]; rfl
    simp only [System.go, ht] at hgo
    cases hgo
    refine h.called hmine (by rw [ht]; rfl) (by rw [ht]; exact fun _ _ h => nomatch h) rfl rfl
      fun d' hd' => ?_
    rw [h.chans.filteringSet (h.held_lt hmine)] at hd'
    cases hd'
    refine ⟨.setChn .., ?_, fun _ h => nomatch h⟩
    rintro _ ⟨⟩
    rw [NuPdma.nuPdmaChnArr_setChn, if_pos rfl]
  | register c i =>
    have hmine : (s.thread t).held = some i := by rw [ht]; rfl
    simp only [System.go, ht] at hgo
    cases hgo
    refine h.called hmine (by rw [ht]; rfl) (by rw [ht]; exact fun _ _ h => nomatch h) rfl rfl
      fun d' hd' => ?_
    rw [h.chans.callbackRegister (h.held_lt hmine)] at hd'
    cases hd'
    refine ⟨.setChn .., ?_, ?_⟩
    · rintro _ ⟨⟩
      rw [NuPdma.nuPdmaChnArr_setChn, if_pos rfl]
      exact h.filter (by rw [ht]; rfl)
    · rintro _ ⟨⟩
      rw [NuPdma.nuPdmaChnArr_setChn, if_pos rfl]
  | result c i =>
    simp only [System.go, ht] at hgo
    cases hgo
    refine h.called (by rw [ht]; rfl) (by rw [ht]; rfl) (by rw [ht]; exact fun _ _ h => nomatch h)
      rfl rfl fun d' hd' => ?_
    cases hd'
    refine ⟨(Quietly.setResult ..).toOnChannel, ?_, ?_⟩
    · rintro _ ⟨⟩
      exact h.filter (by rw [ht]; rfl)
    · rintro _ ⟨⟩
      exact h.event (by rw [ht]; rfl)
  | transfer c i =>
    simp only [System.go, ht] at hgo
    cases hgo
    exact h.transfer ht
  | wait c i =>
    simp only [System.go, ht] at hgo
    split at hgo
    · cases hgo
    · next u rest hsem =>
      cases hgo
      exact h.wait ht hsem
  | terminate c i =>
    simp only [System.go, ht] at hgo
    cases hgo
    refine h.called (by rw [ht]; rfl) (by rw [ht]; rfl) (by rw [ht]; exact fun _ _ h => nomatch h)
      rfl rfl fun d' hd' => ?_
    exact ⟨(Quietly.terminated hd').toOnChannel, (fun _ h => nomatch h), (fun _ h => nomatch h)⟩
  | fireLock i r =>
    simp only [System.go, ht] at hgo
    split at hgo
    · next hfree =>
      cases hgo
      exact h.takeLock hfree (by rw [ht]; rfl) (by rw [ht]; rfl) rfl (fun _ h => nomatch h) rfl rfl
        (by rw [ht]; exact fun _ _ h => nomatch h)
    · cases hgo
  | clear i r =>
    simp only [System.go, ht] at hgo
    cases hgo
    refine h.share s.lock _ s.driver.nuPdmaMemfunActorPoolSem id ?_ ?_ (fun _ _ => Iff.rfl) ?_
      (fun _ h => nomatch h) rfl rfl (by rw [ht]; exact fun _ _ h => nomatch h)
    · rw [ht, pool]
      rfl
    · rw [hlock, ht]
      rfl
    · exact fun hmax => (h.bits hmax).give hmax32 (by rw [ht]; rfl) rfl
  | fireUnlock r =>
    simp only [System.go, ht] at hgo
    cases hgo
    exact h.giveLock (by rw [ht]; rfl) (by rw [ht]; rfl) (by rw [ht]; rfl) rfl rfl rfl
      (by rw [ht]; exact fun _ _ h => nomatch h)
  | poolGive r =>
    simp only [System.go, ht] at hgo
    cases hgo
    obtain ⟨v, hv⟩ := Option.ne_none_iff_exists'.1 (h.made (h.pos (t := t) (by rw [ht]; rfl)))
    refine h.share s.lock s.driver.nuPdmaMemfunActorMask _ ?_ ?_ ?_ (fun _ _ => Iff.rfl) ?_
      (fun _ h => nomatch h) rfl rfl (by rw [ht]; exact fun _ _ h => nomatch h)
    · rw [hv]
      exact fun h => nomatch h
    · rw [ht, pool, hv]
      rfl
    · rw [hlock, ht]
      rfl
    · exact fun hmax => (h.bits hmax).same (by rw [ht]; rfl)

/-- An interrupt releases the semaphore of the actor whose call waits for that transfer. -/
theorem Inv.isr_eq {ch ch_event : BitVec 32} {id : Nat} (h : Inv max s) (left : BitVec 32)
    (hflight : s.flight ch = some id) (hevent : ch_event &&& memfunEvents ≠ 0#32) :
    ∃ t c idx, s.thread t = .wait c idx ∧ c.id = id ∧ chan s.driver idx = ch ∧
      s.isr ch ch_event left = some { s with
        driver := (stopAt s.driver ch left).setResult idx ch_event
        flight := Function.update s.flight ch none
        sem := Function.update s.sem idx [id] } := by
  obtain ⟨t, c, idx, ht, hid, hch, hnil⟩ := h.signals.flight hflight
  refine ⟨t, c, idx, ht, hid, hch, ?_⟩
  have hcb : ((stopAt s.driver ch left).nuPdmaChnArr ch.toNat).m_sCB_Event = some idx := by
    rw [← hch]
    exact h.event (by rw [ht]; rfl)
  have hfilter : ((stopAt s.driver ch left).nuPdmaChnArr ch.toNat).m_u32EventFilter = memfunEvents := by
    rw [← hch]
    exact h.filter (by rw [ht]; rfl)
  have hisr : nuPdmaIsr (stopAt s.driver ch left) ch ch_event =
      (some idx, (stopAt s.driver ch left).setResult idx ch_event) := by
    rw [nuPdmaIsr, hcb]
    dsimp only
    rw [hfilter, BitVec.and_comm, if_pos hevent]
  simp only [System.isr, hflight, if_neg hevent, hisr, hnil, List.nil_append]

/-- An interrupt. -/
theorem Inv.isr {ch ch_event left : BitVec 32} (h : Inv max s)
    (hisr : s.isr ch ch_event left = some s') : Inv max s' := by
  cases hflight : s.flight ch with
  | none =>
    simp only [System.isr, hflight] at hisr
    cases hisr
  | some id =>
    by_cases hevent : ch_event &&& memfunEvents = 0#32
    · simp only [System.isr, hflight, if_pos hevent] at hisr
      cases hisr
    · obtain ⟨t, c, idx, ht, hid, hch, heq⟩ := h.isr_eq left hflight hevent
      rw [heq] at hisr
      cases hisr
      have hsame : SameChans s.driver ((stopAt s.driver ch left).setResult idx ch_event) :=
        ⟨(Quietly.setResult (stopAt s.driver ch left) idx ch_event).chans.chan, rfl⟩
      have hmine : (s.thread t).held = some idx := by rw [ht]; rfl
      refine ⟨h.small, h.chans.same hsame, h.made, h.permits, h.lock, h.bits, h.found, ?_, ?_⟩
      · constructor
        · intro t' i hf
          rw [hsame.chan]
          exact h.regs.filtered hf
        · intro t' i hr
          rw [hsame.chan]
          exact h.regs.registered hr
      · have hlt : ∀ {t' c' i}, s.thread t' = .wait c' i → i < max :=
          fun {t'} _ _ ht' => h.held_lt (t := t') (by rw [ht']; rfl)
        constructor
        · intro ch' id' hf
          change Function.update s.flight ch none ch' = some id' at hf
          rw [Function.update_apply] at hf
          split at hf
          · cases hf
          · next hne =>
            obtain ⟨t', c', i, ht', hid', hch', hnil⟩ := h.signals.flight hf
            refine ⟨t', c', i, ht', hid', (hsame.chan i).trans hch', ?_⟩
            refine (Function.update_of_ne ?_ _ _).trans hnil
            rintro rfl
            exact hne (hch'.symm.trans hch)
        · intro i hne
          change Function.update s.sem idx [id] i ≠ [] at hne
          change ∃ t' c', s.thread t' = .wait c' i ∧ Function.update s.sem idx [id] i = [c'.id] ∧
            Function.update s.flight ch none (chan _ i) = none
          rw [hsame.chan]
          by_cases hi : i = idx
          · subst hi
            refine ⟨t, c, ht, ?_, ?_⟩
            · rw [Function.update_self, hid]
            · rw [hch, Function.update_self]
          · rw [Function.update_of_ne hi] at hne ⊢
            obtain ⟨t', c', ht', hunit, hnone⟩ := h.signals.sem hne
            refine ⟨t', c', ht', hunit, ?_⟩
            rw [Function.update_apply]
            split
            · rfl
            · exact hnone

/-- Every step. -/
theorem Inv.step {l : Label n} (h : Inv max s) (hs : Step s l s') : Inv max s' := by
  cases l with
  | call t dest src w cnt m =>
    rw [Step, next] at hs
    split at hs
    · next ht =>
      cases hs
      exact h.call ht
    · cases hs
  | go t m => exact h.go hs
  | isr ch ev left => exact h.isr hs

/-- The specification holds. -/
theorem Inv.right (h : Inv max s) : ActorsRight max s where
  exclusive := h.exclusive
  busy := by
    have hpermits := h.permits
    rcases Nat.eq_zero_or_pos max with rfl | hmax
    · rw [busy, Finset.range_zero, Finset.filter_empty, Finset.card_empty]
      omega
    · have hsmall : max ≤ 32 := h.small.trans (by decide)
      have hbusy : busy s.driver max = takenSlots Pc.held s.thread max := by
        ext i
        simp only [busy, takenSlots, Finset.mem_filter, Finset.mem_range]
        refine and_congr_right fun hi => ?_
        rw [(h.bits hmax).set i (by omega)]
        exact ⟨fun hset => hset.resolve_left (by omega), .inr⟩
      have hle : (takenSlots Pc.held s.thread max).card ≤ countOf Pc.permit s.thread :=
        card_taken_le Pc.permit_of_held
      rw [hbusy]
      omega
  finds {t c} ht := by
    have hlt := (h.finds ht).1
    have hsmall : max < 32 := lt_of_le_of_lt h.small (by decide)
    exact ⟨hlt, by omega⟩
  signals {idx id} hid := by
    obtain ⟨t, c, ht, hunit, -⟩ := h.signals.sem (List.ne_nil_of_mem hid)
    rw [hunit, List.mem_singleton] at hid
    subst hid
    exact ⟨hunit, t, c, ht, rfl⟩

end NumakerMA35D1.Pdma.Actors

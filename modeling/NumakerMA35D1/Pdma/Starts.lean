import NumakerMA35D1.Pdma.Chain

/-!
# When a transfer starts

`nuPdmaTransfer_starts_iff`: on an allocated channel whose table is in order a transfer is started when
and only when it has elements, their width is one the engine knows, both addresses are multiples of it,
and the allocator has room for the table, if the transfer needs another than the channel has.

Reference: `drv_pdma.c:968 nu_pdma_transfer`.
-/

namespace NumakerMA35D1.Pdma

open Embedded

/-- The descriptors in memory without those of a channel's table. -/
def givenBack (s : NuPdma) (ch : Nat) : Heap :=
  fun a => if ((s.nuPdmaChnArr ch).m_ppsSgtbl.getD []).contains a then none else s.heap a

/-- The allocator has room for a table and its descriptors, with the channel's old ones given back. -/
def HasRoom (m : Malloc) (s : NuPdma) (ch : Nat) (wanted : BitVec 32) : Prop :=
  m.table = true ∧ ∃ r, nuPdmaSgtblsAllocate m.desc wanted.toNat (givenBack s ch) = .ok r

/-- A transfer that the driver can start. -/
structure CanStart (m : Malloc) (s : NuPdma) (i32ChannID u32DataWidth u32AddrSrc u32AddrDst
    u32TransferCnt : BitVec 32) : Prop where
  count : u32TransferCnt ≠ 0#32
  width : ValidWidth u32DataWidth
  src : u32AddrSrc % (u32DataWidth / 8#32) = 0#32
  dst : u32AddrDst % (u32DataWidth / 8#32) = 0#32
  room : NU_PDMA_MAX_TXCNT < u32TransferCnt →
    (s.nuPdmaChnArr i32ChannID.toNat).m_u32WantedSGTblNum ≠
      u32TransferCnt / NU_PDMA_MAX_TXCNT + 1#32 →
    HasRoom m s i32ChannID.toNat (u32TransferCnt / NU_PDMA_MAX_TXCNT + 1#32)

variable {m : Malloc} {s s' : NuPdma} {ch : Nat} {c w sa da cnt off next t wanted a : BitVec 32}
  {silent : Bool} {ps : List (BitVec 32)} {e : NuPdmaMemctrl}

/-! ## Descriptors -/

/-- Elements of a width that the engine knows, at addresses that are multiples of it. -/
structure Aligned (w sa da : BitVec 32) : Prop where
  width : ValidWidth w
  src : sa % (w / 8#32) = 0#32
  dst : da % (w / 8#32) = 0#32

/-- An address stays a multiple of the width with an offset that is one. -/
theorem add_mod_width (hw : ValidWidth w) (ha : a % (w / 8#32) = 0#32)
    (hoff : off % (w / 8#32) = 0#32) : (a + off) % (w / 8#32) = 0#32 := by
  have hmod : ∀ k : BitVec 32, k = 1#32 ∨ k = 2#32 ∨ k = 4#32 → a % k = 0#32 → off % k = 0#32 →
      (a + off) % k = 0#32 := by
    intro k hk ha hoff
    have ha := congrArg BitVec.toNat ha
    have hoff := congrArg BitVec.toNat hoff
    apply BitVec.eq_of_toNat_eq
    rcases hk with rfl | rfl | rfl
    all_goals
      simp only [BitVec.toNat_umod, BitVec.toNat_add, BitVec.toNat_ofNat, Nat.reducePow,
        Nat.reduceMod] at *
      omega
  refine hmod _ ?_ ha hoff
  rcases hw with rfl | rfl | rfl <;> decide

theorem full_mod_width (hw : ValidWidth w) :
    NU_PDMA_MAX_TXCNT * w / 8#32 % (w / 8#32) = 0#32 := by
  rcases hw with rfl | rfl | rfl <;> decide

/-- A descriptor that can be read can be written. -/
theorem NuPdma.store_ok {p : NuPdmaDesc} {d : Dsct} (hload : s.load p = .ok d) (d' : Dsct) :
    ∃ s', s.store p d' = .ok s' ∧ s'.load p = .ok d' := by
  cases p with
  | reg ch =>
    refine ⟨_, rfl, ?_⟩
    rw [NuPdma.load, NuPdma.DSCT_setDSCT]
  | mem a =>
    rw [NuPdma.load] at hload
    simp only [NuPdma.store]
    cases hheap : s.heap a with
    | none =>
      rw [hheap] at hload
      cases hload
    | some d =>
      refine ⟨_, rfl, ?_⟩
      simp only [NuPdma.load, Function.update_self]

/-- A descriptor that passes every test is filled. -/
theorem nuPdmaDescSetup_ok {p : NuPdmaDesc} {d : Dsct} (hp : p ≠ .mem 0#32)
    (hcheck : nuPdmaCheckIsNonallocated s c = .ok false) (ha : Aligned w sa da)
    (hcnt : ¬ NU_PDMA_MAX_TXCNT < cnt) (hload : s.load p = .ok d) :
    ∃ s', nuPdmaDescSetup s c p w sa da cnt next silent = .ok (RT_EOK, s') ∧
      s'.load p = .ok (descFields (s.nuPdmaChnArr c.toNat).m_u32Peripheral
        (s.nuPdmaChnArr c.toNat).m_eMemCtl w sa da cnt next silent) := by
  have hmul : ¬ (sa % (w / 8#32) ≠ 0#32 ∨ da % (w / 8#32) ≠ 0#32) := by
    rintro (h | h)
    · exact h ha.src
    · exact h ha.dst
  simp only [nuPdmaDescSetup, if_neg hp, hcheck, ok_bind, Bool.false_eq_true, if_false,
    if_neg (not_not.2 ha.width), if_neg hmul, if_neg hcnt]
  obtain ⟨s', hs', hload'⟩ := NuPdma.store_ok hload (descFields
    (s.nuPdmaChnArr c.toNat).m_u32Peripheral (s.nuPdmaChnArr c.toNat).m_eMemCtl w sa da cnt next silent)
  rw [hs']
  exact ⟨s', rfl, hload'⟩

/-- More elements than a descriptor counts. -/
theorem nuPdmaDescSetup_long {p : NuPdmaDesc} (hcheck : nuPdmaCheckIsNonallocated s c = .ok false)
    (hcnt : NU_PDMA_MAX_TXCNT < cnt) :
    nuPdmaDescSetup s c p w sa da cnt next silent = .ok (-RT_EINVAL, s) := by
  simp only [nuPdmaDescSetup, hcheck, ok_bind, Bool.false_eq_true, if_false, if_pos hcnt]
  split
  · rfl
  · split
    · rfl
    · split <;> rfl

theorem nuPdmaDescSetup_bad {p : NuPdmaDesc}
    (hcheck : nuPdmaCheckIsNonallocated s c = .ok false) (ha : ¬ Aligned w sa da) :
    nuPdmaDescSetup s c p w sa da cnt next silent = .ok (-RT_EINVAL, s) := by
  simp only [nuPdmaDescSetup]
  split
  · rfl
  · simp only [hcheck, ok_bind, Bool.false_eq_true, if_false]
    split
    · rfl
    · next hw =>
      rw [if_pos]
      · rfl
      · by_contra hmul
        rw [not_or, not_not, not_not] at hmul
        exact ha ⟨not_not.1 hw, hmul.1, hmul.2⟩

theorem nuPdmaTimeoutSet_ok (hcheck : nuPdmaCheckIsNonallocated s c = .ok false) (t : BitVec 32) :
    ∃ r, nuPdmaTimeoutSet s c t = .ok r := by
  rw [nuPdmaTimeoutSet, hcheck]
  exact ⟨_, rfl⟩

theorem _nuPdmaTransfer_ok {p : NuPdmaDesc} {d : Dsct} (hload : s.load p = .ok d)
    (hcheck : nuPdmaCheckIsNonallocated s c = .ok false) (t : BitVec 32) :
    ∃ s', _nuPdmaTransfer s c p t = .ok s' := by
  simp only [_nuPdmaTransfer, hload, ok_bind]
  have hcheck' : nuPdmaCheckIsNonallocated
      (pdmaSetTransferMode s c.toNat (d.NEXT ≠ 0#32) p.addr) c = .ok false := by
    rw [check_congr (keeps_pdmaSetTransferMode ..).mask, hcheck]
  obtain ⟨r, hr⟩ := nuPdmaTimeoutSet_ok hcheck' t
  rw [hr]
  exact ⟨_, rfl⟩

/-! ## The loop over a table -/

/-- The table of a channel, its descriptors allocated. -/
structure TableThere (s : NuPdma) (ch : Nat) (ps : List (BitVec 32)) : Prop where
  table : (s.nuPdmaChnArr ch).m_ppsSgtbl = some ps
  ne_zero : ∀ a ∈ ps, a ≠ 0#32
  live : ∀ a ∈ ps, (s.heap a).isSome

theorem TableThere.keeps (h : TableThere s ch ps) (hk : Keeps s s') : TableThere s' ch ps where
  table := (hk.table ch).trans h.table
  ne_zero := h.ne_zero
  live a ha := by
    have hset : s'.sgtbls.live = s.sgtbls.live := congrArg (·.live) hk.sgtbls
    have hin : a ∈ s'.sgtbls.live := by
      rw [hset]
      exact h.live a ha
    exact hin

theorem TableThere.load (h : TableThere s ch ps) (ha : a ∈ ps) : ∃ d, s.load (.mem a) = .ok d := by
  obtain ⟨d, hd⟩ := Option.isSome_iff_exists.1 (h.live a ha)
  rw [NuPdma.load, hd]
  exact ⟨d, rfl⟩

/-- Every round fills its descriptor. By induction on the descriptors left. -/
theorem _nuPdmaTransferChainLoop_ok (ha : Aligned w sa da) (left : Nat) :
    ∀ {i : Nat} {cnt off : BitVec 32} {s : NuPdma}, TableThere s c.toNat ps →
      nuPdmaCheckIsNonallocated s c = .ok false → i + left = ps.length →
      (left ≠ 0 → left = cnt.toNat / 65536 + 1 ∧ off % (w / 8#32) = 0#32) →
      ∃ s', _nuPdmaTransferChainLoop c w sa da e left i cnt off s = .ok (RT_EOK, s') ∧
        TableThere s' c.toNat ps ∧ nuPdmaCheckIsNonallocated s' c = .ok false := by
  induction left with
  | zero => exact fun ht hcheck _ _ => ⟨_, rfl, ht, hcheck⟩
  | succ left ih =>
    intro i cnt off s ht hcheck hlen hleft
    obtain ⟨hleft, hoff⟩ := hleft (by omega)
    have hi : i < ps.length := by omega
    obtain ⟨next, hnext⟩ : ∃ next, (if left = 0 then .ok 0#32
        else (s.nuPdmaChnArr c.toNat).sgtbl (i + 1)) = (Except.ok next : Except Halt _) := by
      rcases Nat.eq_zero_or_pos left with hz | hpos
      · exact ⟨_, if_pos hz⟩
      · rw [if_neg hpos.ne', sgtbl_eq_ok ht.table (show i + 1 < ps.length by omega)]
        exact ⟨_, rfl⟩
    have hmul : Aligned w (if e.code &&& 2#32 ≠ 0#32 then sa + off else sa)
        (if e.code &&& 1#32 ≠ 0#32 then da + off else da) := by
      refine ⟨ha.width, ?_, ?_⟩
      · split
        · exact add_mod_width ha.width ha.src hoff
        · exact ha.src
      · split
        · exact add_mod_width ha.width ha.dst hoff
        · exact ha.dst
    have htx : ¬ NU_PDMA_MAX_TXCNT <
        if NU_PDMA_MAX_TXCNT < cnt then NU_PDMA_MAX_TXCNT else cnt := by
      split
      · exact BitVec.lt_irrefl _
      · next h => exact h
    have hne : NuPdmaDesc.mem ps[i] ≠ .mem 0#32 :=
      fun h => ht.ne_zero _ (List.getElem_mem hi) (NuPdmaDesc.mem.inj h)
    obtain ⟨d, hload⟩ := ht.load (List.getElem_mem hi)
    obtain ⟨s₁, hs₁, -⟩ := @nuPdmaDescSetup_ok _ _ _ _ _ _ next (decide (left ≠ 0)) _ _ hne hcheck
      hmul htx hload
    have hset : SetUp s s₁ c.toNat ps[i] w _ _ _ next (decide (left ≠ 0)) RT_EOK :=
      (nuPdmaDescSetup_mem_returns (A := fun _ => True) trivial
        (ht.live _ (List.getElem_mem hi))).of_ok hs₁
    rw [_nuPdmaTransferChainLoop, sgtbl_eq_ok ht.table hi, ok_bind, hnext, ok_bind, hs₁]
    dsimp only [ok_bind]
    rw [if_neg (not_not.2 rfl)]
    refine ih (ht.keeps hset.keeps) ((check_congr hset.keeps.mask c).trans hcheck) (by omega) ?_
    intro hpos
    rw [txCnt_full (by omega), BitVec.toNat_sub, show NU_PDMA_MAX_TXCNT.toNat = 65536 from rfl]
    exact ⟨by omega, add_mod_width ha.width hoff (full_mod_width ha.width)⟩

/-- The first round of a loop that sets up elements that are not aligned fails. -/
theorem _nuPdmaTransferChainLoop_bad (ha : ¬ Aligned w sa da) (ht : TableThere s c.toNat ps)
    (hcheck : nuPdmaCheckIsNonallocated s c = .ok false) {left : Nat} (hlen : left + 1 = ps.length) :
    _nuPdmaTransferChainLoop c w sa da e (left + 1) 0 cnt 0#32 s = .ok (-RT_EINVAL, s) := by
  obtain ⟨next, hnext⟩ : ∃ next, (if left = 0 then .ok 0#32
      else (s.nuPdmaChnArr c.toNat).sgtbl (0 + 1)) = (Except.ok next : Except Halt _) := by
    rcases Nat.eq_zero_or_pos left with hz | hpos
    · exact ⟨_, if_pos hz⟩
    · rw [if_neg hpos.ne', sgtbl_eq_ok ht.table (show 0 + 1 < ps.length by omega)]
      exact ⟨_, rfl⟩
  rw [_nuPdmaTransferChainLoop, sgtbl_eq_ok ht.table (show 0 < ps.length by omega), ok_bind, hnext,
    ok_bind]
  simp only [BitVec.add_zero, ite_self, nuPdmaDescSetup_bad hcheck ha, ok_bind]
  rfl

/-! ## The table -/

/-- A channel gives back the table that it has. -/
theorem _nuPdmaFreeSgtbls_ok (hok : SgtblsOk s.sgtbls)
    (hwants : s.sgtbls.table ch ≠ none → s.sgtbls.wanted ch ≠ 0#32) :
    ∃ s₁, _nuPdmaFreeSgtbls s ch = .ok s₁ ∧ s₁.heap = givenBack s ch ∧ s₁.DSCT = s.DSCT := by
  unfold _nuPdmaFreeSgtbls givenBack
  dsimp only
  rcases htable : (s.nuPdmaChnArr ch).m_ppsSgtbl with _ | ps
  · exact ⟨s, rfl, by simp, rfl⟩
  · have hlen : ps.length = (s.nuPdmaChnArr ch).m_u32WantedSGTblNum.toNat := hok.length htable
    have hne : (s.nuPdmaChnArr ch).m_u32WantedSGTblNum ≠ 0#32 := by
      refine hwants ?_
      rw [show s.sgtbls.table ch = some ps from htable]
      rintro ⟨⟩
    have hpos : 0 < (s.nuPdmaChnArr ch).m_u32WantedSGTblNum.toNat :=
      Nat.pos_of_ne_zero fun h => hne (BitVec.eq_of_toNat_eq h)
    dsimp only
    unfold nuPdmaSgtblsFree
    rw [if_neg hpos.ne', if_neg (by omega), ← hlen, List.take_length, ok_bind]
    exact ⟨_, rfl, rfl, rfl⟩

/-- The old table of a channel is given back. -/
theorem freeOld_ok (hok : SgtblsOk s.sgtbls) (ch : Nat) :
    ∃ s₁, (if 0#32 < (s.nuPdmaChnArr ch).m_u32WantedSGTblNum then _nuPdmaFreeSgtbls s ch
      else .ok s : Except Halt NuPdma) = .ok s₁ ∧ s₁.heap = givenBack s ch ∧ s₁.DSCT = s.DSCT := by
  split
  · next hpos =>
    refine _nuPdmaFreeSgtbls_ok hok fun _ hz => ?_
    change 0#32 < s.sgtbls.wanted ch at hpos
    rw [hz] at hpos
    exact absurd hpos (by decide)
  · next hz =>
    refine ⟨s, rfl, ?_, rfl⟩
    have hzero : ¬ 0 < (s.sgtbls.wanted ch).toNat := hz
    have hnil : (s.nuPdmaChnArr ch).m_ppsSgtbl.getD [] = [] := by
      rcases htable : (s.nuPdmaChnArr ch).m_ppsSgtbl with _ | ps
      · rfl
      · have hlen : ps.length = (s.sgtbls.wanted ch).toNat := hok.length htable
        have hz : ps.length = 0 := by omega
        rw [List.eq_nil_of_length_eq_zero hz]
        rfl
    funext a
    simp [givenBack, hnil]

theorem SgtblsOk.there (hok : SgtblsOk s.sgtbls) (h : s.sgtbls.table ch = some ps) :
    TableThere s ch ps where
  table := h
  ne_zero _ := hok.ne_zero h
  live a ha := by
    have hheld : a ∈ s.sgtbls.owners.held ch := by
      rw [Sgtbls.held_of_table h]
      exact ha
    exact hok.exclusive.live hheld

/-- A table of the wanted length is there, or there is room for one. -/
structure TableReady (m : Malloc) (s : NuPdma) (ch : Nat) (wanted : BitVec 32) : Prop where
  room : (s.nuPdmaChnArr ch).m_u32WantedSGTblNum ≠ wanted → HasRoom m s ch wanted
  there : (s.nuPdmaChnArr ch).m_u32WantedSGTblNum = wanted → (s.nuPdmaChnArr ch).m_ppsSgtbl ≠ none

/-- The channel has a table of the wanted length, or gets one. -/
theorem _nuPdmaTransferChainTable_ok (hok : SgtblsOk s.sgtbls) (hwanted : 0 < wanted.toNat)
    (hready : TableReady m s ch wanted) :
    ∃ s₁ ps, _nuPdmaTransferChainTable m s ch wanted = .ok (RT_EOK, s₁) ∧ TableThere s₁ ch ps ∧
      ps.length = wanted.toNat ∧ s₁.nuPdmaChnMaskArr = s.nuPdmaChnMaskArr ∧ SgtblsOk s₁.sgtbls ∧
      s₁.DSCT = s.DSCT := by
  by_cases hkept : (s.nuPdmaChnArr ch).m_u32WantedSGTblNum = wanted
  · obtain ⟨ps, hps⟩ := Option.ne_none_iff_exists'.1 (hready.there hkept)
    refine ⟨s, ps, ?_, hok.there hps, ?_, rfl, hok, rfl⟩
    · rw [_nuPdmaTransferChainTable, if_pos hkept]
      rfl
    · rw [← hkept]
      exact hok.length hps
  · obtain ⟨htable, ⟨ps, mem⟩, halloc⟩ := hready.room hkept
    obtain ⟨s₁, hfree, hheap, hdsct⟩ := freeOld_ok hok ch
    have heq : ∃ s₂, _nuPdmaTransferChainTable m s ch wanted = .ok (RT_EOK, s₂) ∧
        s₂.DSCT = s.DSCT := by
      rw [_nuPdmaTransferChainTable, if_neg hkept, hfree, ok_bind]
      dsimp only
      rw [hheap, halloc, htable]
      exact ⟨_, rfl, hdsct⟩
    obtain ⟨s₂, heq, hdsct₂⟩ := heq
    have hret := _nuPdmaTransferChainTable_returns (A := fun _ => True) trivial hok m ch hwanted
    obtain ⟨hconfig, hend⟩ := hret.of_ok heq
    refine ⟨s₂, ?_⟩
    generalize hint : RT_EOK = ret at hend
    cases hend with
    | kept h => exact absurd h hkept
    | noRoom => cases hint
    | @granted ps hfresh hlen hgrant =>
      have hok₂ : SgtblsOk s₂.sgtbls := by
        rw [hgrant]
        exact (hok.free _).grant hfresh _
      have htable₂ : s₂.sgtbls.table ch = some ps := by
        rw [hgrant]
        exact Function.update_self ..
      exact ⟨ps, heq, hok₂.there htable₂, hlen, hconfig.mask, hok₂, hdsct₂⟩

/-- Without room for the array of pointers the channel is left wanting a table. -/
theorem _nuPdmaTransferChainTable_noArray (hok : SgtblsOk s.sgtbls)
    (hneeds : (s.nuPdmaChnArr ch).m_u32WantedSGTblNum ≠ wanted) (hfull : m.table = false) :
    ∃ s₁, _nuPdmaTransferChainTable m s ch wanted = .ok (RT_ERROR, s₁) ∧
      (s₁.nuPdmaChnArr ch).m_ppsSgtbl = none ∧ s₁.DSCT = s.DSCT := by
  obtain ⟨s₁, hfree, -, hdsct⟩ := freeOld_ok hok ch
  rw [_nuPdmaTransferChainTable, if_neg hneeds, hfree, ok_bind]
  dsimp only
  rw [hfull, Bool.not_false, if_pos rfl]
  refine ⟨_, rfl, ?_, hdsct⟩
  rw [NuPdma.nuPdmaChnArr_setChn, if_pos rfl]

/-- Without room for a descriptor the call stops. -/
theorem _nuPdmaTransferChainTable_noDesc (hok : SgtblsOk s.sgtbls)
    (hneeds : (s.nuPdmaChnArr ch).m_u32WantedSGTblNum ≠ wanted) (hroom : ¬ HasRoom m s ch wanted)
    (harray : m.table = true) : ∃ e, _nuPdmaTransferChainTable m s ch wanted = .error e := by
  obtain ⟨s₁, hfree, hheap, -⟩ := freeOld_ok hok ch
  rw [_nuPdmaTransferChainTable, if_neg hneeds, hfree, ok_bind]
  dsimp only
  rw [harray, hheap]
  cases halloc : nuPdmaSgtblsAllocate m.desc wanted.toNat (givenBack s ch) with
  | error e => exact ⟨e, rfl⟩
  | ok r => exact absurd ⟨harray, r, halloc⟩ hroom

/-! ## Transfers over a chain -/

theorem wanted_toNat (cnt : BitVec 32) :
    (cnt / NU_PDMA_MAX_TXCNT + 1#32).toNat = cnt.toNat / 65536 + 1 := by
  have hlt := cnt.isLt
  rw [BitVec.toNat_add, BitVec.toNat_udiv, show NU_PDMA_MAX_TXCNT.toNat = 65536 from rfl,
    BitVec.toNat_ofNat]
  omega

section

variable (hcheck : nuPdmaCheckIsNonallocated s c = .ok false) (t : BitVec 32)

include hcheck

theorem nuPdmaChannelMemctrlGet_ok :
    nuPdmaChannelMemctrlGet s c = .ok (s.nuPdmaChnArr c.toNat).m_eMemCtl := by
  rw [nuPdmaChannelMemctrlGet, hcheck]
  rfl

/-- A transfer of aligned elements is started when its table is ready. -/
theorem _nuPdmaTransferChain_starts (hok : SgtblsOk s.sgtbls) (ha : Aligned w sa da)
    (hready : TableReady m s c.toNat (cnt / NU_PDMA_MAX_TXCNT + 1#32)) :
    ∃ s', _nuPdmaTransferChain m s c w sa da cnt t = .ok (RT_EOK, s') := by
  have hwanted := wanted_toNat cnt
  obtain ⟨s₁, ps, htable, hthere, hlen, hmask, -, -⟩ :=
    _nuPdmaTransferChainTable_ok hok (by omega) hready
  have hcheck₁ : nuPdmaCheckIsNonallocated s₁ c = .ok false := (check_congr hmask c).trans hcheck
  obtain ⟨s₂, hloop, hthere₂, hcheck₂⟩ := _nuPdmaTransferChainLoop_ok (i := 0)
    (e := (s.nuPdmaChnArr c.toNat).m_eMemCtl) ha (cnt / NU_PDMA_MAX_TXCNT + 1#32).toNat hthere
    hcheck₁ (by omega) (fun _ => ⟨hwanted, BitVec.zero_umod⟩)
  have hpos : 0 < ps.length := by omega
  obtain ⟨d, hload⟩ := hthere₂.load (List.getElem_mem hpos)
  obtain ⟨s₃, hs₃⟩ := _nuPdmaTransfer_ok hload hcheck₂ t
  simp only [_nuPdmaTransferChain, nuPdmaChannelMemctrlGet_ok hcheck, htable, ok_bind, ne_eq,
    not_true_eq_false, if_false, hloop, sgtbl_eq_ok hthere₂.table hpos, hs₃]
  exact ⟨s₃, rfl⟩

/-- The error of the first descriptor, negated once more. -/
theorem _nuPdmaTransferChain_misaligned (hok : SgtblsOk s.sgtbls) (ha : ¬ Aligned w sa da)
    (hready : TableReady m s c.toNat (cnt / NU_PDMA_MAX_TXCNT + 1#32)) :
    ∃ s', _nuPdmaTransferChain m s c w sa da cnt t = .ok (RT_EINVAL, s') := by
  have hwanted := wanted_toNat cnt
  obtain ⟨s₁, ps, htable, hthere, hlen, hmask, hok₁, -⟩ :=
    _nuPdmaTransferChainTable_ok hok (by omega) hready
  have hcheck₁ : nuPdmaCheckIsNonallocated s₁ c = .ok false := (check_congr hmask c).trans hcheck
  have hloop := @_nuPdmaTransferChainLoop_bad _ _ _ _ _ cnt _ (s.nuPdmaChnArr c.toNat).m_eMemCtl
    ha hthere hcheck₁ _ (hwanted.symm.trans hlen.symm)
  obtain ⟨s₂, hfree, -, -⟩ := @_nuPdmaFreeSgtbls_ok _ c.toNat hok₁ fun _ hz => by
    have hlen₁ := hok₁.length hthere.table
    rw [hz] at hlen₁
    simp only [BitVec.toNat_ofNat, Nat.zero_mod] at hlen₁
    omega
  have hbad : (-RT_EINVAL : Int) ≠ RT_EOK := by decide
  simp only [_nuPdmaTransferChain, nuPdmaChannelMemctrlGet_ok hcheck, htable, ok_bind, ne_eq,
    not_true_eq_false, if_false]
  rw [hwanted, hloop]
  simp only [ok_bind, hbad, not_false_eq_true, if_true, hfree]
  exact ⟨s₂, by rw [Int.neg_neg]; rfl⟩

/-- Without room for the array of pointers nothing is started. -/
theorem _nuPdmaTransferChain_refused (hok : SgtblsOk s.sgtbls)
    (hneeds : (s.nuPdmaChnArr c.toNat).m_u32WantedSGTblNum ≠ cnt / NU_PDMA_MAX_TXCNT + 1#32)
    (hfull : m.table = false) :
    ∃ s', _nuPdmaTransferChain m s c w sa da cnt t = .ok (-RT_ERROR, s') ∧ s'.DSCT = s.DSCT := by
  obtain ⟨s₁, htable, hnone, hdsct⟩ := _nuPdmaTransferChainTable_noArray hok hneeds hfull
  have hfree : _nuPdmaFreeSgtbls s₁ c.toNat = .ok s₁ := by
    unfold _nuPdmaFreeSgtbls
    dsimp only
    rw [hnone]
  have hbad : (RT_ERROR : Int) ≠ RT_EOK := by decide
  simp only [_nuPdmaTransferChain, nuPdmaChannelMemctrlGet_ok hcheck, htable, ok_bind, ne_eq, hbad,
    not_false_eq_true, if_true, hfree]
  exact ⟨s₁, rfl, hdsct⟩

/-- Without room for a descriptor, or with a table missing that the channel is taken to have, the call
does not return. -/
theorem _nuPdmaTransferChain_halts (hok : SgtblsOk s.sgtbls)
    (hready : ¬ TableReady m s c.toNat (cnt / NU_PDMA_MAX_TXCNT + 1#32))
    (harray : (s.nuPdmaChnArr c.toNat).m_u32WantedSGTblNum ≠ cnt / NU_PDMA_MAX_TXCNT + 1#32 →
      m.table = true) :
    ∃ e, _nuPdmaTransferChain m s c w sa da cnt t = .error e := by
  have hwanted := wanted_toNat cnt
  simp only [_nuPdmaTransferChain, nuPdmaChannelMemctrlGet_ok hcheck, ok_bind]
  by_cases hkept : (s.nuPdmaChnArr c.toNat).m_u32WantedSGTblNum = cnt / NU_PDMA_MAX_TXCNT + 1#32
  · have hnone : (s.nuPdmaChnArr c.toNat).m_ppsSgtbl = none := by
      by_contra hsome
      exact hready ⟨fun hne => absurd hkept hne, fun _ => hsome⟩
    -- the first access to the table is through a null pointer
    rw [_nuPdmaTransferChainTable, if_pos hkept]
    simp only [pure, Except.pure, ok_bind, ne_eq, not_true_eq_false, if_false]
    rw [hwanted, _nuPdmaTransferChainLoop, NuPdmaChn.sgtbl, hnone]
    exact ⟨_, rfl⟩
  · have hroom : ¬ HasRoom m s c.toNat (cnt / NU_PDMA_MAX_TXCNT + 1#32) := fun hroom =>
      hready ⟨fun _ => hroom, fun h => absurd h hkept⟩
    obtain ⟨e, he⟩ := _nuPdmaTransferChainTable_noDesc hok hkept hroom (harray hkept)
    rw [he]
    exact ⟨e, rfl⟩

end

/-! ## Transfers -/

/-- The table for a transfer is ready, if it takes one. -/
def Ready (m : Malloc) (s : NuPdma) (i32ChannID u32TransferCnt : BitVec 32) : Prop :=
  NU_PDMA_MAX_TXCNT < u32TransferCnt →
    TableReady m s i32ChannID.toNat (u32TransferCnt / NU_PDMA_MAX_TXCNT + 1#32)

/-- A transfer takes a table, and there is no room for its array of pointers. -/
def NoArray (m : Malloc) (s : NuPdma) (i32ChannID u32TransferCnt : BitVec 32) : Prop :=
  NU_PDMA_MAX_TXCNT < u32TransferCnt ∧ m.table = false ∧
    (s.nuPdmaChnArr i32ChannID.toNat).m_u32WantedSGTblNum ≠ u32TransferCnt / NU_PDMA_MAX_TXCNT + 1#32

section

variable (hcheck : nuPdmaCheckIsNonallocated s c = .ok false) (t : BitVec 32)

include hcheck

theorem nuPdmaTransfer_eq (hz : cnt ≠ 0#32) :
    nuPdmaTransfer m s c w sa da cnt t =
      if NU_PDMA_MAX_TXCNT < cnt then _nuPdmaTransferChain m s c w sa da cnt t
      else do
        let (ret, s) ← nuPdmaDescSetup s c (.reg c.toNat) w sa da cnt 0#32 false
        if ret ≠ RT_EOK then
          return (-ret, s)
        let s ← _nuPdmaTransfer s c (.reg c.toNat) t
        return (-RT_EOK, s) := by
  simp only [nuPdmaTransfer, hcheck, ok_bind, Bool.false_eq_true, if_false, if_neg hz]

/-- A transfer of aligned elements is started when its table is ready. -/
theorem nuPdmaTransfer_starts (hok : SgtblsOk s.sgtbls) (hz : cnt ≠ 0#32) (ha : Aligned w sa da)
    (hready : Ready m s c cnt) : ∃ s', nuPdmaTransfer m s c w sa da cnt t = .ok (RT_EOK, s') := by
  rw [nuPdmaTransfer_eq hcheck t hz]
  split
  · next hlong => exact _nuPdmaTransferChain_starts hcheck t hok ha (hready hlong)
  · next hshort =>
    obtain ⟨s₁, hs₁, -⟩ := @nuPdmaDescSetup_ok _ _ _ _ _ _ 0#32 false (.reg c.toNat) _ (by rintro ⟨⟩) hcheck ha hshort rfl
    have hkeeps := (nuPdmaDescSetup_reg_returns (A := fun _ => True) trivial _).of_ok hs₁
    obtain ⟨s₂, hs₂⟩ := _nuPdmaTransfer_ok (p := .reg c.toNat) (s := s₁) rfl
      ((check_congr hkeeps.1.mask c).trans hcheck) t
    rw [hs₁]
    simp only [ok_bind, ne_eq, not_true_eq_false, if_false, hs₂]
    exact ⟨s₂, rfl⟩

/-- The error of a descriptor that is refused, negated once more. -/
theorem nuPdmaTransfer_misaligned (hok : SgtblsOk s.sgtbls) (hz : cnt ≠ 0#32)
    (ha : ¬ Aligned w sa da) (hready : Ready m s c cnt) :
    ∃ s', nuPdmaTransfer m s c w sa da cnt t = .ok (RT_EINVAL, s') := by
  rw [nuPdmaTransfer_eq hcheck t hz]
  split
  · next hlong => exact _nuPdmaTransferChain_misaligned hcheck t hok ha (hready hlong)
  · have hbad : (-RT_EINVAL : Int) ≠ RT_EOK := by decide
    rw [nuPdmaDescSetup_bad hcheck ha]
    simp only [ok_bind, ne_eq, hbad, not_false_eq_true, if_true]
    exact ⟨s, by rw [Int.neg_neg]; rfl⟩

/-- A transfer for whose array there is no room. -/
theorem nuPdmaTransfer_refused (hok : SgtblsOk s.sgtbls) (hfull : NoArray m s c cnt) :
    ∃ s', nuPdmaTransfer m s c w sa da cnt t = .ok (-RT_ERROR, s') ∧ s'.DSCT = s.DSCT := by
  obtain ⟨hlong, hfull, hneeds⟩ := hfull
  have hz : cnt ≠ 0#32 := by
    rintro rfl
    exact absurd hlong (by decide)
  rw [nuPdmaTransfer_eq hcheck t hz, if_pos hlong]
  exact _nuPdmaTransferChain_refused hcheck t hok hneeds hfull

/-- A transfer that does not return. -/
theorem nuPdmaTransfer_halts (hok : SgtblsOk s.sgtbls) (hready : ¬ Ready m s c cnt)
    (harray : ¬ NoArray m s c cnt) : ∃ e, nuPdmaTransfer m s c w sa da cnt t = .error e := by
  obtain ⟨hlong, hready⟩ := Classical.not_imp.1 hready
  have hz : cnt ≠ 0#32 := by
    rintro rfl
    exact absurd hlong (by decide)
  rw [nuPdmaTransfer_eq hcheck t hz, if_pos hlong]
  refine _nuPdmaTransferChain_halts hcheck t hok hready fun hneeds => ?_
  by_contra hfull
  exact harray ⟨hlong, Bool.eq_false_of_not_eq_true hfull, hneeds⟩

end

theorem nuPdmaTransfer_zero (hcheck : nuPdmaCheckIsNonallocated s c = .ok false) (t : BitVec 32) :
    nuPdmaTransfer m s c w sa da 0#32 t = .ok (-RT_EINVAL, s) := by
  rw [nuPdmaTransfer, hcheck]
  rfl

/-- A transfer is started when and only when it can be. -/
theorem nuPdmaTransfer_starts_iff (hok : SgtblsOk s.sgtbls)
    (hnull : s.sgtbls.table c.toNat = none ↔ s.sgtbls.wanted c.toNat = 0#32)
    (hcheck : nuPdmaCheckIsNonallocated s c = .ok false) :
    (∃ s', nuPdmaTransfer m s c w sa da cnt t = .ok (RT_EOK, s')) ↔ CanStart m s c w sa da cnt := by
  have hthere : (s.nuPdmaChnArr c.toNat).m_u32WantedSGTblNum = cnt / NU_PDMA_MAX_TXCNT + 1#32 →
      (s.nuPdmaChnArr c.toNat).m_ppsSgtbl ≠ none := by
    intro hkept hnone
    have hwanted := congrArg BitVec.toNat (hkept.symm.trans (hnull.1 hnone))
    rw [wanted_toNat] at hwanted
    exact absurd hwanted (Nat.succ_ne_zero _)
  constructor
  · rintro ⟨s', hs'⟩
    have hz : cnt ≠ 0#32 := by
      rintro rfl
      rw [nuPdmaTransfer_zero hcheck] at hs'
      cases hs'
    have harray : ¬ NoArray m s c cnt := by
      intro hfull
      obtain ⟨s₁, hs₁, -⟩ := @nuPdmaTransfer_refused _ _ _ w sa da _ hcheck t hok hfull
      rw [hs₁] at hs'
      cases hs'
    have hready : Ready m s c cnt := by
      by_contra hready
      obtain ⟨e, he⟩ :=
        @nuPdmaTransfer_halts _ _ _ w sa da _ hcheck t hok hready harray
      rw [he] at hs'
      cases hs'
    have ha : Aligned w sa da := by
      by_contra ha
      obtain ⟨s₁, hs₁⟩ := nuPdmaTransfer_misaligned hcheck t hok hz ha hready
      rw [hs₁] at hs'
      cases hs'
    exact ⟨hz, ha.width, ha.src, ha.dst, fun hlong => (hready hlong).room⟩
  · intro h
    exact nuPdmaTransfer_starts hcheck t hok h.count ⟨h.width, h.src, h.dst⟩
      fun hlong => ⟨h.room hlong, hthere⟩

end NumakerMA35D1.Pdma

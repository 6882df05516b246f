import NumakerMA35D1.Pdma.MemfunRun

/-!
# Results of transfers

`pdmaErrors_run`: in every state that calls on channels, descriptors and lists of descriptors lead to, and
in every state of threads that share the memory actors, a call returns 0 with the transfer begun, or an
error code with the engine left alone, exactly when its descriptors are aligned and their table is ready
or an earlier test refuses it (`TransferAnswers`, `SetupAnswers`, `SgAnswers`); and a thread waits for a
transfer that was started exactly as long as none of its transfers is refused (`NotRefused`).

Reference: `drv_pdma.c:685 nu_pdma_desc_setup`, `:905 _nu_pdma_transfer_chain`, `:968 nu_pdma_transfer`,
`:1008 nu_pdma_sg_transfer`, `:1196 nu_pdma_memfun`.
-/

namespace NumakerMA35D1.Pdma

open Embedded

/-- A transfer over the caller's own descriptors. Reference: `drv_pdma.c:1008 nu_pdma_sg_transfer`. -/
def nuPdmaSgTransfer (s : NuPdma) (i32ChannID : BitVec 32) (head : NuPdmaDesc)
    (u32IdleTimeout_us : BitVec 32) : Except Halt (Int × NuPdma) := do
  if head = .mem 0#32 then
    return (-RT_EINVAL, s)
  if ← nuPdmaCheckIsNonallocated s i32ChannID then
    return (-RT_EINVAL, s)
  let s ← _nuPdmaTransfer s i32ChannID head u32IdleTimeout_us
  return (-RT_EOK, s)

/-- An error code as the functions of the system return it.
Reference: `rtdef.h:344 RT_ERROR` to `rtdef.h:353 RT_EINVAL`. -/
def IsError (ret : Int) : Prop := -RT_EINVAL ≤ ret ∧ ret < RT_EOK

/-- Where the engine of a channel begins: at the descriptor that the registers link to, or at the
registers themselves. -/
inductive Begins (s : NuPdma) (ch : Nat) : BitVec 32 → Prop
  | scatter : (s.DSCT ch).opmode = PDMA_OP_SCATTER → Begins s ch (s.DSCT ch).NEXT
  | basic : (s.DSCT ch).opmode = PDMA_OP_BASIC → Begins s ch (NuPdmaDesc.reg ch).addr

/-- The engine begins at a descriptor of the addresses asked for. -/
def Started (s : NuPdma) (c sa da : BitVec 32) : Prop :=
  ∃ p d, Begins s c.toNat p.addr ∧ s.load p = .ok d ∧ d.SA = sa ∧ d.DA = da

/-! ## What the calls are to do -/

/-- A transfer returns 0 when it is started, and otherwise an error with the engine left alone. -/
def TransferRight (m : Malloc) (s : NuPdma) (c w sa da cnt t : BitVec 32) : Prop :=
  ∃ ret s', nuPdmaTransfer m s c w sa da cnt t = .ok (ret, s') ∧
    (ret = RT_EOK ∧ Started s' c sa da ∨ IsError ret ∧ s'.DSCT = s.DSCT)

/-- A descriptor is set up for the elements asked for with 0, or left with an error. -/
def SetupRight (s : NuPdma) (c : BitVec 32) (p : NuPdmaDesc) (w sa da cnt next : BitVec 32)
    (silent : Bool) : Prop :=
  ∃ ret s', nuPdmaDescSetup s c p w sa da cnt next silent = .ok (ret, s') ∧
    (ret = RT_EOK ∧ (∃ d, s'.load p = .ok d ∧ d.SA = sa ∧ d.DA = da ∧ d.NEXT = next ∧
      d.count = cnt.toNat) ∨ IsError ret ∧ s' = s)

/-- A transfer over descriptors returns 0 when the engine begins at the first of them, and otherwise
an error with nothing changed. -/
def SgRight (s : NuPdma) (c : BitVec 32) (head : NuPdmaDesc) (t : BitVec 32) : Prop :=
  ∃ ret s', nuPdmaSgTransfer s c head t = .ok (ret, s') ∧
    (ret = RT_EOK ∧ Begins s' c.toNat head.addr ∨ IsError ret ∧ s' = s)

/-- A pointer that is null or points to a descriptor. -/
def Points (s : NuPdma) (p : NuPdmaDesc) : Prop := p = .mem 0#32 ∨ ∃ d, s.load p = .ok d

/-! ## When they do it -/

/-- The channel is not allocated, there is nothing to move, there is no room for the array of a table, or
the elements are aligned and the table is ready. -/
def TransferAnswers (m : Malloc) (s : NuPdma) (c w sa da cnt : BitVec 32) : Prop :=
  nuPdmaCheckIsNonallocated s c = .ok true ∨ nuPdmaCheckIsNonallocated s c = .ok false ∧
    (cnt = 0#32 ∨ NoArray m s c cnt ∨ Aligned w sa da ∧ Ready m s c cnt)

/-- The pointer is null, the channel is not allocated, the elements are not aligned, or there are some. -/
def SetupAnswers (s : NuPdma) (c : BitVec 32) (p : NuPdmaDesc) (w sa da cnt : BitVec 32) : Prop :=
  p = .mem 0#32 ∨ nuPdmaCheckIsNonallocated s c = .ok true ∨
    nuPdmaCheckIsNonallocated s c = .ok false ∧ (Aligned w sa da → cnt ≠ 0#32)

/-- The pointer is null, the channel is not allocated, or the first descriptor links to another or is
the channel's own. -/
def SgAnswers (s : NuPdma) (c : BitVec 32) (head : NuPdmaDesc) : Prop :=
  head = .mem 0#32 ∨ nuPdmaCheckIsNonallocated s c = .ok true ∨
    nuPdmaCheckIsNonallocated s c = .ok false ∧
      ∃ d, s.load head = .ok d ∧ (d.NEXT ≠ 0#32 ∨ head.addr = (NuPdmaDesc.reg c.toNat).addr)

section

variable {m : Malloc} {s s' : NuPdma} {c w sa da cnt next t a : BitVec 32} {p : NuPdmaDesc} {d : Dsct}
  {silent : Bool}

theorem isError_einval : IsError (-RT_EINVAL) := ⟨by decide, by decide⟩

theorem isError_error : IsError (-RT_ERROR) := ⟨by decide, by decide⟩

/-! ## Where the engine begins -/

/-- What the start of a transfer leaves in the registers. -/
theorem _nuPdmaTransfer_registers (hload : s.load p = .ok d)
    (h : _nuPdmaTransfer s c p t = .ok s') :
    s'.heap = s.heap ∧ s'.DSCT = (pdmaSetTransferMode s c.toNat (d.NEXT ≠ 0#32) p.addr).DSCT := by
  rw [_nuPdmaTransfer, hload, ok_bind] at h
  obtain ⟨r, hr, h⟩ := bind_eq_ok.1 h
  cases h
  have htimeout := (nuPdmaTimeoutSet_returns (A := fun _ => True) trivial t).of_ok hr
  exact ⟨htimeout.2.2.trans (pdmaSetTransferMode_heap ..), htimeout.2.1⟩

/-- The engine begins at the descriptor that links to another, and else at the registers. -/
theorem _nuPdmaTransfer_begins (hload : s.load p = .ok d) (h : _nuPdmaTransfer s c p t = .ok s') :
    Begins s' c.toNat a ↔ a = if d.NEXT ≠ 0#32 then p.addr else (NuPdmaDesc.reg c.toNat).addr := by
  obtain ⟨-, hdsct⟩ := _nuPdmaTransfer_registers hload h
  have hdsct : s'.DSCT c.toNat = _ := congrFun hdsct c.toNat
  by_cases hnext : d.NEXT ≠ 0#32
  · have hregs : s'.DSCT c.toNat = { s.DSCT c.toNat with
        NEXT := p.addr
        CTL := ((s.DSCT c.toNat).CTL &&& ~~~PDMA_DSCT_CTL_OPMODE_Msk) ||| PDMA_OP_SCATTER } := by
      rw [hdsct, pdmaSetTransferMode, decide_eq_true hnext, if_pos rfl, NuPdma.DSCT_setDSCT]
    have hmode : (s'.DSCT c.toNat).opmode = PDMA_OP_SCATTER := by
      rw [hregs]
      exact getField_setOpmode _ (by decide)
    rw [if_pos hnext]
    constructor
    · rintro (_ | hbasic)
      · rw [hregs]
      · rw [hmode] at hbasic
        exact absurd hbasic (by decide)
    · rintro rfl
      have hbegins : Begins s' c.toNat (s'.DSCT c.toNat).NEXT := .scatter hmode
      rw [hregs] at hbegins
      exact hbegins
  · have hmode : (s'.DSCT c.toNat).opmode = PDMA_OP_BASIC := by
      rw [hdsct, pdmaSetTransferMode, decide_eq_false hnext, if_neg Bool.false_ne_true,
        NuPdma.DSCT_setDSCT]
      exact getField_setOpmode _ (by decide)
    rw [if_neg hnext]
    constructor
    · rintro (hscatter | _)
      · rw [hmode] at hscatter
        exact absurd hscatter (by decide)
      · rfl
    · rintro rfl
      exact .basic hmode

/-- The exit of a transfer that failed. -/
theorem failed_exit {ch : Nat} {ret : Int} (hret : ret ≠ RT_EOK) :
    (do return (-ret, ← _nuPdmaFreeSgtbls s ch) : Except Halt (Int × NuPdma)) ≠ .ok (RT_EOK, s') := by
  intro h
  obtain ⟨_, -, h⟩ := bind_eq_ok.1 h
  exact hret (neg_eq_zero.1 (congrArg Prod.fst (Except.ok.inj h)))

/-- A transfer over a chain that is started begins at the first descriptor of its table. -/
theorem _nuPdmaTransferChain_started (hok : SgtblsOk s.sgtbls)
    (hcheck : nuPdmaCheckIsNonallocated s c = .ok false) (hlong : NU_PDMA_MAX_TXCNT < cnt)
    (h : _nuPdmaTransferChain m s c w sa da cnt t = .ok (RT_EOK, s')) : Started s' c sa da := by
  have hcnt : 65536 < cnt.toNat := hlong
  obtain ⟨heffect, hbuilt⟩ := (_nuPdmaTransferChain_returns (A := fun _ => True) trivial hok
    (fun _ _ => trivial) m hcnt t hcheck).of_ok h
  obtain ⟨-, -, ps, htable, hmoves⟩ := hbuilt rfl
  -- the last calls of the function
  obtain ⟨s₁, head, hhead, hstart⟩ : ∃ s₁ head, (s₁.nuPdmaChnArr c.toNat).sgtbl 0 = .ok head ∧
      _nuPdmaTransfer s₁ c (.mem head) t = .ok s' := by
    rw [_nuPdmaTransferChain] at h
    obtain ⟨_, -, h⟩ := bind_eq_ok.1 h
    obtain ⟨⟨ret, s₂⟩, -, h⟩ := bind_eq_ok.1 h
    dsimp only at h
    split at h
    · exact absurd h (failed_exit ‹_›)
    · obtain ⟨⟨ret, s₃⟩, -, h⟩ := bind_eq_ok.1 h
      dsimp only at h
      split at h
      · exact absurd h (failed_exit ‹_›)
      · obtain ⟨head, hhead, h⟩ := bind_eq_ok.1 h
        obtain ⟨s₄, hs₄, h⟩ := bind_eq_ok.1 h
        cases h
        exact ⟨s₃, head, hhead, hs₄⟩
  obtain ⟨d₁, hload₁⟩ : ∃ d, s₁.load (.mem head) = .ok d := by
    rw [_nuPdmaTransfer] at hstart
    obtain ⟨d, hd, -⟩ := bind_eq_ok.1 hstart
    exact ⟨d, hd⟩
  obtain ⟨hheap, -⟩ := _nuPdmaTransfer_registers hload₁ hstart
  have hhead₁ : s₁.heap head = some d₁ := by
    rw [NuPdma.load] at hload₁
    split at hload₁
    · cases hload₁
    · cases hload₁
      assumption
  have hkeeps := ((_nuPdmaTransfer_mem_returns (A := fun _ => True) trivial hhead₁ t).of_ok hstart).1
  have htable₁ : (s₁.nuPdmaChnArr c.toNat).m_ppsSgtbl = some ps :=
    (hkeeps.table c.toNat).symm.trans htable
  generalize hn : movedCount cnt.toNat = n at hmoves
  cases hmoves with
  | last hd hprograms =>
    -- one descriptor is too little for the transfer
    have hle : _ ≤ 65536 := hprograms.count_le
    rw [movedCount] at hn
    split at hn <;> omega
  | @link a next _ _ ps d _ hd hprograms _ hnext _ _ =>
    obtain rfl : a = head := by
      rw [sgtbl_eq_ok htable₁ (Nat.succ_pos _)] at hhead
      exact Except.ok.inj hhead
    obtain rfl : d₁ = d := by
      rw [hheap, hhead₁] at hd
      exact Option.some.inj hd
    have hne : d₁.NEXT ≠ 0#32 := by
      rw [hnext]
      exact (hok.transfer heffect).ne_zero htable (by simp)
    refine ⟨.mem a, d₁, ?_, ?_, hprograms.SA, hprograms.DA⟩
    · rw [_nuPdmaTransfer_begins hload₁ hstart, if_pos hne]
    · rw [NuPdma.load, hheap, hhead₁]

/-- A transfer that returns 0 is started. -/
theorem nuPdmaTransfer_started (hok : SgtblsOk s.sgtbls)
    (hcheck : nuPdmaCheckIsNonallocated s c = .ok false) (hz : cnt ≠ 0#32)
    (h : nuPdmaTransfer m s c w sa da cnt t = .ok (RT_EOK, s')) : Started s' c sa da := by
  rw [nuPdmaTransfer_eq hcheck t hz] at h
  split at h
  · exact _nuPdmaTransferChain_started hok hcheck ‹_› h
  · obtain ⟨⟨ret, s₁⟩, hsetup, h⟩ := bind_eq_ok.1 h
    dsimp only at h
    have hfilled := (nuPdmaDescSetup_reg_returns (A := fun _ => True) trivial c.toNat).of_ok hsetup
    split at h
    · next hret => exact absurd (neg_eq_zero.1 (congrArg Prod.fst (Except.ok.inj h))) hret
    · next hret =>
      obtain ⟨s₂, hstart, h⟩ := bind_eq_ok.1 h
      cases h
      obtain ⟨-, hdesc⟩ := hfilled.2 (not_not.1 hret)
      have hload : s₁.load (.reg c.toNat) = .ok (s₁.DSCT c.toNat) := rfl
      have hnext : ¬ (s₁.DSCT c.toNat).NEXT ≠ 0#32 := by
        rw [hdesc]
        exact not_not.2 rfl
      obtain ⟨-, hregs⟩ := _nuPdmaTransfer_registers hload hstart
      rw [decide_eq_false hnext, pdmaSetTransferMode, if_neg Bool.false_ne_true] at hregs
      refine ⟨.reg c.toNat, _, ?_, rfl, ?_, ?_⟩
      · rw [_nuPdmaTransfer_begins hload hstart, if_neg hnext]
      · rw [hregs, NuPdma.DSCT_setDSCT, hdesc]
        rfl
      · rw [hregs, NuPdma.DSCT_setDSCT, hdesc]
        rfl

/-! ## The calls one by one -/

theorem nuPdmaTransferRight_iff (hok : SgtblsOk s.sgtbls) (t : BitVec 32) :
    TransferRight m s c w sa da cnt t ↔ TransferAnswers m s c w sa da cnt := by
  have hfails : (-RT_EINVAL : Int) ≠ RT_EOK ∧ RT_EINVAL ≠ RT_EOK ∧ ¬ IsError RT_EINVAL :=
    ⟨by decide, by decide, fun h => absurd h.2 (by decide)⟩
  unfold TransferRight TransferAnswers
  rcases hcheck : nuPdmaCheckIsNonallocated s c with e | b
  · constructor
    · rintro ⟨ret, s', h, -⟩
      rw [nuPdmaTransfer, hcheck] at h
      cases h
    · rintro (h | ⟨h, -⟩) <;> cases h
  cases b with
  | true =>
    refine ⟨fun _ => .inl rfl, fun _ => ⟨-RT_EINVAL, s, ?_, .inr ⟨isError_einval, rfl⟩⟩⟩
    rw [nuPdmaTransfer, hcheck]
    rfl
  | false =>
    by_cases hz : cnt = 0#32
    · rw [hz, nuPdmaTransfer_zero hcheck]
      exact ⟨fun _ => .inr ⟨rfl, .inl rfl⟩, fun _ => ⟨_, s, rfl, .inr ⟨isError_einval, rfl⟩⟩⟩
    by_cases harray : NoArray m s c cnt
    · obtain ⟨s', hs', hdsct⟩ :=
        @nuPdmaTransfer_refused _ _ _ w sa da _ hcheck t hok harray
      exact ⟨fun _ => .inr ⟨rfl, .inr (.inl harray)⟩,
        fun _ => ⟨_, s', hs', .inr ⟨isError_error, hdsct⟩⟩⟩
    by_cases hready : Ready m s c cnt
    · by_cases ha : Aligned w sa da
      · obtain ⟨s', hs'⟩ := nuPdmaTransfer_starts hcheck t hok hz ha hready
        exact ⟨fun _ => .inr ⟨rfl, .inr (.inr ⟨ha, hready⟩)⟩,
          fun _ => ⟨_, s', hs', .inl ⟨rfl, nuPdmaTransfer_started hok hcheck hz hs'⟩⟩⟩
      · obtain ⟨s', hs'⟩ := nuPdmaTransfer_misaligned hcheck t hok hz ha hready
        constructor
        · rintro ⟨ret, s'', h, hright⟩
          obtain ⟨rfl, rfl⟩ := Prod.mk.inj (Except.ok.inj (hs'.symm.trans h))
          rcases hright with ⟨hret, -⟩ | ⟨herr, -⟩
          · exact absurd hret hfails.2.1
          · exact absurd herr hfails.2.2
        · rintro (h | ⟨-, h | h | h⟩)
          · cases h
          · exact absurd h hz
          · exact absurd h harray
          · exact absurd h.1 ha
    · obtain ⟨e, he⟩ := @nuPdmaTransfer_halts _ _ _ w sa da _ hcheck t hok hready harray
      constructor
      · rintro ⟨ret, s', h, -⟩
        cases he.symm.trans h
      · rintro (h | ⟨-, h | h | h⟩)
        · cases h
        · exact absurd h hz
        · exact absurd h harray
        · exact absurd h.2 hready

/-- The count in a descriptor is the one asked for, but for none. -/
theorem descFields_count_eq {per : BitVec 32} {e : NuPdmaMemctrl} (hw : ValidWidth w)
    (hle : ¬ NU_PDMA_MAX_TXCNT < cnt) :
    (descFields per e w sa da cnt next silent).count = cnt.toNat ↔ cnt ≠ 0#32 := by
  have hmax : cnt.toNat ≤ 65536 := Nat.le_of_not_lt hle
  rw [descFields_count hw, BitVec.toNat_sub, BitVec.toNat_ofNat]
  constructor
  · rintro h rfl
    exact absurd h (by decide)
  · intro hz
    have hpos : cnt.toNat ≠ 0 := fun h => hz (BitVec.eq_of_toNat_eq h)
    omega

theorem setupRight_iff (hp : Points s p) :
    SetupRight s c p w sa da cnt next silent ↔ SetupAnswers s c p w sa da cnt := by
  unfold SetupRight SetupAnswers
  by_cases hnull : p = .mem 0#32
  · refine ⟨fun _ => .inl hnull, fun _ => ⟨-RT_EINVAL, s, ?_, .inr ⟨isError_einval, rfl⟩⟩⟩
    rw [nuPdmaDescSetup, if_pos hnull]
    rfl
  obtain ⟨d, hload⟩ := hp.resolve_left hnull
  rcases hcheck : nuPdmaCheckIsNonallocated s c with e | b
  · constructor
    · rintro ⟨ret, s', h, -⟩
      rw [nuPdmaDescSetup, if_neg hnull, hcheck] at h
      cases h
    · rintro (h | h | ⟨h, -⟩)
      · exact absurd h hnull
      · cases h
      · cases h
  cases b with
  | true =>
    refine ⟨fun _ => .inr (.inl rfl), fun _ => ⟨-RT_EINVAL, s, ?_, .inr ⟨isError_einval, rfl⟩⟩⟩
    rw [nuPdmaDescSetup, if_neg hnull, hcheck]
    rfl
  | false =>
    by_cases ha : Aligned w sa da
    · by_cases hlong : NU_PDMA_MAX_TXCNT < cnt
      · refine ⟨fun _ => .inr (.inr ⟨rfl, fun _ hz => ?_⟩),
          fun _ => ⟨-RT_EINVAL, s, ?_, .inr ⟨isError_einval, rfl⟩⟩⟩
        · rw [hz] at hlong
          exact absurd hlong (by decide)
        · exact nuPdmaDescSetup_long hcheck hlong
      · obtain ⟨s', hs', hload'⟩ :=
          @nuPdmaDescSetup_ok _ _ _ _ _ _ next silent _ _ hnull hcheck ha hlong hload
        have hcount := @descFields_count_eq _ sa da _ next silent ((s.nuPdmaChnArr c.toNat).m_u32Peripheral) ((s.nuPdmaChnArr c.toNat).m_eMemCtl) ha.width hlong
        constructor
        · rintro ⟨ret, s'', h, hright⟩
          obtain ⟨rfl, rfl⟩ := Prod.mk.inj (Except.ok.inj (hs'.symm.trans h))
          rcases hright with ⟨-, d', hd', -, -, -, hmoves⟩ | ⟨herr, -⟩
          · cases Except.ok.inj (hload'.symm.trans hd')
            exact .inr (.inr ⟨rfl, fun _ => hcount.1 hmoves⟩)
          · exact absurd herr.2 (by decide)
        · rintro (h | h | ⟨-, h⟩)
          · exact absurd h hnull
          · cases h
          · refine ⟨_, s', hs', .inl ⟨rfl, _, hload', rfl, rfl, ?_, hcount.2 (h ha)⟩⟩
            by_cases hlast : next = 0#32
            · rw [hlast]
              rfl
            · exact if_pos hlast
    · refine ⟨fun _ => .inr (.inr ⟨rfl, fun h => absurd h ha⟩),
        fun _ => ⟨-RT_EINVAL, s, nuPdmaDescSetup_bad hcheck ha, .inr ⟨isError_einval, rfl⟩⟩⟩

theorem sgRight_iff (hp : Points s p) (t : BitVec 32) : SgRight s c p t ↔ SgAnswers s c p := by
  unfold SgRight SgAnswers
  by_cases hnull : p = .mem 0#32
  · refine ⟨fun _ => .inl hnull, fun _ => ⟨-RT_EINVAL, s, ?_, .inr ⟨isError_einval, rfl⟩⟩⟩
    rw [nuPdmaSgTransfer, if_pos hnull]
    rfl
  obtain ⟨d, hload⟩ := hp.resolve_left hnull
  rcases hcheck : nuPdmaCheckIsNonallocated s c with e | b
  · constructor
    · rintro ⟨ret, s', h, -⟩
      rw [nuPdmaSgTransfer, if_neg hnull, hcheck] at h
      cases h
    · rintro (h | h | ⟨h, -⟩)
      · exact absurd h hnull
      · cases h
      · cases h
  cases b with
  | true =>
    refine ⟨fun _ => .inr (.inl rfl), fun _ => ⟨-RT_EINVAL, s, ?_, .inr ⟨isError_einval, rfl⟩⟩⟩
    rw [nuPdmaSgTransfer, if_neg hnull, hcheck]
    rfl
  | false =>
    obtain ⟨s', hs'⟩ := _nuPdmaTransfer_ok hload hcheck t
    have hret : nuPdmaSgTransfer s c p t = .ok (-RT_EOK, s') := by
      rw [nuPdmaSgTransfer, if_neg hnull, hcheck, ok_bind, if_neg Bool.false_ne_true, hs']
      rfl
    have hbegins : Begins s' c.toNat p.addr ↔ _ := _nuPdmaTransfer_begins hload hs'
    constructor
    · rintro ⟨ret, s'', h, hright⟩
      obtain ⟨rfl, rfl⟩ := Prod.mk.inj (Except.ok.inj (hret.symm.trans h))
      rcases hright with ⟨-, hb⟩ | ⟨herr, -⟩
      · refine .inr (.inr ⟨rfl, d, hload, ?_⟩)
        by_cases hnext : d.NEXT ≠ 0#32
        · exact .inl hnext
        · rw [hbegins, if_neg hnext] at hb
          exact .inr hb
      · exact absurd herr.2 (by decide)
    · rintro (h | h | ⟨-, d', hd', h⟩)
      · exact absurd h hnull
      · cases h
      · refine ⟨_, s', hret, .inl ⟨rfl, hbegins.2 ?_⟩⟩
        obtain rfl : d = d' := Except.ok.inj (hload.symm.trans hd')
        split
        · rfl
        · exact h.resolve_left ‹_›

end

/-! ## Runs -/

/-- A call of a user of the driver: on a channel, on a descriptor or a list of its own, or to get
descriptors and give them back. -/
inductive Use
  | call (op : Op)
  | descSetup (i32ChannID : BitVec 32) (dma_desc : NuPdmaDesc)
    (u32DataWidth u32AddrSrc u32AddrDst i32TransferCnt next : BitVec 32) (u32BeSilent : Bool)
  | sgTransfer (i32ChannID : BitVec 32) (head : NuPdmaDesc) (u32IdleTimeout_us : BitVec 32)
  | sgtblsAllocate (m : Malloc) (num : Nat)
  | sgtblsFree (ppsSgtbls : List (BitVec 32))

/-- The state after a call, if it returns. -/
def use (s : NuPdma) : Use → Except Halt NuPdma
  | .call op => exec s op
  | .descSetup c p w sa da cnt next silent =>
    do return (← nuPdmaDescSetup s c p w sa da cnt next silent).2
  | .sgTransfer c head t => do return (← nuPdmaSgTransfer s c head t).2
  | .sgtblsAllocate m num => do
    if num = 0 then
      .error .rtAssert
    let (_, heap) ← nuPdmaSgtblsAllocate m.desc num s.heap
    return { s with heap }
  | .sgtblsFree ps => do
    let heap ← nuPdmaSgtblsFree ps ps.length s.heap
    return { s with heap }

/-- The descriptors given back are in no channel's table. -/
def OwnDescs (s : NuPdma) : Use → Prop
  | .sgtblsFree ps => ∀ ch, ∀ a ∈ ps, a ∉ s.sgtbls.owners.held ch
  | _ => True

/-- A call that returns. -/
def useStep (s : NuPdma) (u : Use) (s' : NuPdma) : Prop := use s u = .ok s'

section

variable {m : Malloc} {s s' : NuPdma} {c w sa da cnt next t : BitVec 32} {p : NuPdmaDesc}
  {silent : Bool} {u : Use} {us : List Use}

theorem store_keeps (p : NuPdmaDesc) (d : Dsct) :
    Returns (fun _ => True) (s.store p d) fun s' => Keeps s s' := by
  cases p with
  | reg ch => exact keeps_setDSCT ..
  | mem a =>
    simp only [NuPdma.store]
    cases hheap : s.heap a with
    | none => exact trivial
    | some d' => exact keeps_heap (by rw [hheap]; rfl)

theorem nuPdmaDescSetup_keeps :
    Returns (fun _ => True) (nuPdmaDescSetup s c p w sa da cnt next silent) fun r => Keeps s r.2 :=
  .ite (fun _ => .pure .refl) fun _ => returns_check trivial fun _ _ =>
    .ite (fun _ => .pure .refl) fun _ => .ite (fun _ => .pure .refl) fun _ =>
    .ite (fun _ => .pure .refl) fun _ => .ite (fun _ => .pure .refl) fun _ =>
    .bind (store_keeps ..) fun _ h => .pure h

theorem nuPdmaSgTransfer_keeps :
    Returns (fun _ => True) (nuPdmaSgTransfer s c p t) fun r => Keeps s r.2 := by
  refine .ite (fun _ => .pure .refl) fun _ => returns_check trivial fun _ _ =>
    .ite (fun _ => .pure .refl) fun _ => .bind (P := fun s' => Keeps s s') ?_ fun _ h => .pure h
  exact .bind (returns_true _) fun d _ => .bind (nuPdmaTimeoutSet_returns trivial t) fun _ h =>
    .pure ((keeps_pdmaSetTransferMode ..).trans h.1)

/-- The tables stay in order when descriptors outside them come and go. -/
theorem SgtblsOk.heap {h : Heap} (hok : SgtblsOk s.sgtbls)
    (hheld : ∀ ch, ∀ a ∈ s.sgtbls.owners.held ch, (h a).isSome) :
    SgtblsOk { s with heap := h : NuPdma }.sgtbls where
  length htable := hok.length htable
  ne_zero htable ha := hok.ne_zero htable ha
  exclusive :=
    { nodup := hok.exclusive.nodup
      disjoint := hok.exclusive.disjoint
      live := fun ha => hheld _ _ ha }

/-- A call keeps the tables in order and makes no pool. -/
theorem sgtblsOk_use (h : SgtblsOk s.sgtbls) (hs : where_ useStep OwnDescs s u s') :
    SgtblsOk s'.sgtbls := by
  obtain ⟨hown, hs⟩ := hs
  cases u with
  | call op => exact sgtblsOk_step h hs
  | descSetup c p w sa da cnt next silent =>
    obtain ⟨r, hr, hs⟩ := bind_eq_ok.1 hs
    cases hs
    rw [(nuPdmaDescSetup_keeps.of_ok hr).sgtbls]
    exact h
  | sgTransfer c p t =>
    obtain ⟨r, hr, hs⟩ := bind_eq_ok.1 hs
    cases hs
    rw [(nuPdmaSgTransfer_keeps.of_ok hr).sgtbls]
    exact h
  | sgtblsAllocate m num =>
    unfold useStep use at hs
    dsimp only at hs
    split at hs
    · cases hs
    · obtain ⟨r, hr, hs⟩ := bind_eq_ok.1 hs
      cases hs
      refine h.heap fun ch a ha => ?_
      have hlive := ((nuPdmaSgtblsAllocate_returns (A := fun _ => True) trivial m num _).of_ok hr).2.2.2
      exact (hlive a).2 (.inl (h.exclusive.live ha))
  | sgtblsFree ps =>
    obtain ⟨r, hr, hs⟩ := bind_eq_ok.1 hs
    cases hs
    refine h.heap fun ch a ha => ?_
    unfold nuPdmaSgtblsFree at hr
    split at hr
    · cases hr
    · split at hr
      · cases hr
      · cases hr
        rw [List.take_length]
        dsimp only
        rw [if_neg]
        · exact h.exclusive.live ha
        · rw [List.contains_iff_mem]
          exact fun hin => hown ch a hin ha

/-- Each call answers rightly when and only when it may. -/
structure AnswersKnown (s : NuPdma) : Prop where
  transfer : ∀ m c w sa da cnt t, TransferRight m s c w sa da cnt t ↔ TransferAnswers m s c w sa da cnt
  descSetup : ∀ c p w sa da cnt next silent, Points s p →
    (SetupRight s c p w sa da cnt next silent ↔ SetupAnswers s c p w sa da cnt)
  sgTransfer : ∀ c p t, Points s p → (SgRight s c p t ↔ SgAnswers s c p)

theorem SgtblsOk.answersKnown (h : SgtblsOk s.sgtbls) : AnswersKnown s :=
  ⟨fun _ _ _ _ _ _ t => nuPdmaTransferRight_iff h t, fun _ _ _ _ _ _ _ _ hp => setupRight_iff hp,
    fun _ _ t hp => sgRight_iff hp t⟩

end

namespace Actors

/-- No call of a user makes a pool. -/
theorem use_pool {s s' : NuPdma} {u : Use} (hs : useStep s u s') :
    s'.nuPdmaMemfunActorPoolSem = s.nuPdmaMemfunActorPoolSem := by
  cases u with
  | call op => exact exec_pool hs
  | descSetup c p w sa da cnt next silent =>
    obtain ⟨r, hr, hs⟩ := bind_eq_ok.1 hs
    cases hs
    exact (((SamePool.channelRel c.toNat).descSetup p silent).of_ok hr).pool
  | sgTransfer c p t =>
    have hkeeps : Keeping SamePool s (nuPdmaSgTransfer s c p t) (·.2) :=
      .ite (fun _ => .pure (SamePool.channelRel 0).refl) fun _ => returns_check trivial fun _ _ =>
        .ite (fun _ => .pure (SamePool.channelRel 0).refl) fun _ =>
          .bind ((SamePool.channelRel _).transferStart p) fun _ h => .pure h
    obtain ⟨r, hr, hs⟩ := bind_eq_ok.1 hs
    cases hs
    exact (hkeeps.of_ok hr).pool
  | sgtblsAllocate m num =>
    unfold useStep use at hs
    dsimp only at hs
    split at hs
    · cases hs
    · obtain ⟨r, hr, hs⟩ := bind_eq_ok.1 hs
      cases hs
      rfl
  | sgtblsFree ps =>
    obtain ⟨r, hr, hs⟩ := bind_eq_ok.1 hs
    cases hs
    rfl

variable {n max : Nat} {s s' : System n} {t : Fin n} {l : Label n}

/-- The transfer that a thread is about to start is not refused: it has elements and room for the array
of its table, and if the table is ready the elements are aligned. -/
def NotRefused (s : System n) : Label n → Prop
  | .go t m => ∀ c idx, s.thread t = .transfer c idx →
    c.u32TransferCnt ≠ 0#32 ∧ ¬ NoArray m s.driver (chan s.driver idx) c.u32TransferCnt ∧
      (Ready m s.driver (chan s.driver idx) c.u32TransferCnt → Aligned c.u32DataWidth c.src c.dest)
  | _ => True

/-- Every step keeps the tables in order. -/
theorem sgtblsOk_step (h : SgtblsOk s.driver.sgtbls) (hinv : Inv max s) (hs : Step s l s') :
    SgtblsOk s'.driver.sgtbls := by
  cases l with
  | call t dest src w cnt m =>
    rw [(moves_call hs).sgtbls]
    exact h
  | isr ch ev left =>
    obtain ⟨-, -, -, -, -, -, -, -, -, -, hsgtbls⟩ := hinv.isr_ends hs
    rw [hsgtbls]
    exact h
  | go t m =>
    cases hinv.go_cases hs with
    | moves hm =>
      rw [hm.sgtbls]
      exact h
    | @transfer c idx ht heq =>
      rw [heq, System.transfer]
      cases hret : nuPdmaTransfer m s.driver (chan s.driver idx) c.u32DataWidth c.src c.dest
          c.u32TransferCnt 0#32 with
      | error e => exact h
      | ok r =>
        exact h.transfer ((nuPdmaTransfer_returns (A := fun _ => True) trivial h
          (fun _ _ => trivial) m 0#32).of_ok hret).1
    | wait _ _ heq =>
      rw [heq]
      exact h

/-- A transfer keeps every wait one for a transfer that was started, when and only when it is not
refused. -/
theorem waits_transfer_iff {m : Malloc} {c : Call} {idx : Nat} (h : SgtblsOk s.driver.sgtbls)
    (hinv : Inv max s) (hwaits : Waits s) (ht : s.thread t = .transfer c idx) :
    Waits (s.transfer t c idx m) ↔ c.u32TransferCnt ≠ 0#32 ∧
      ¬ NoArray m s.driver (chan s.driver idx) c.u32TransferCnt ∧
      (Ready m s.driver (chan s.driver idx) c.u32TransferCnt →
        Aligned c.u32DataWidth c.src c.dest) := by
  have hcheck : nuPdmaCheckIsNonallocated s.driver (chan s.driver idx) = .ok false :=
    hinv.chans.check (hinv.held_lt (t := t) (by rw [ht]; rfl))
  -- a transfer that is refused leaves its caller waiting
  have hrefused : ∀ {ret d'}, nuPdmaTransfer m s.driver (chan s.driver idx) c.u32DataWidth c.src
      c.dest c.u32TransferCnt 0#32 = .ok (ret, d') → ret ≠ RT_EOK →
      ¬ Waits (s.transfer t c idx m) := by
    intro ret d' hret hne hw
    obtain ⟨hwait, hsem, hflight⟩ := waits_refused hinv ht hret hne
    rcases hw t c idx hwait with hat | hunit
    · cases hflight.symm.trans hat
    · exact hunit hsem
  by_cases hz : c.u32TransferCnt = 0#32
  · have hret : nuPdmaTransfer m s.driver (chan s.driver idx) c.u32DataWidth c.src c.dest
        c.u32TransferCnt 0#32 = .ok (-RT_EINVAL, s.driver) := by
      rw [hz]
      exact nuPdmaTransfer_zero hcheck 0#32
    exact ⟨fun hw => absurd hw (hrefused hret (by decide)), fun h => absurd hz h.1⟩
  by_cases harray : NoArray m s.driver (chan s.driver idx) c.u32TransferCnt
  · obtain ⟨d', hret, -⟩ := @nuPdmaTransfer_refused _ _ _ c.u32DataWidth c.src c.dest _ hcheck 0#32 h harray
    exact ⟨fun hw => absurd hw (hrefused hret (by decide)), fun h => absurd harray h.2.1⟩
  by_cases hready : Ready m s.driver (chan s.driver idx) c.u32TransferCnt
  · by_cases ha : Aligned c.u32DataWidth c.src c.dest
    · obtain ⟨d', hret⟩ := nuPdmaTransfer_starts hcheck 0#32 h hz ha hready
      exact ⟨fun _ => ⟨hz, harray, fun _ => ha⟩, fun _ => hwaits.started hinv ht hret⟩
    · obtain ⟨d', hret⟩ := nuPdmaTransfer_misaligned hcheck 0#32 h hz ha hready
      exact ⟨fun hw => absurd hw (hrefused hret (by decide)), fun h => absurd (h.2.2 hready) ha⟩
  · obtain ⟨e, hret⟩ := @nuPdmaTransfer_halts _ _ _ c.u32DataWidth c.src c.dest _
      hcheck 0#32 h hready harray
    refine ⟨fun _ => ⟨hz, harray, fun h => absurd h hready⟩, fun _ => ?_⟩
    rw [System.transfer, hret]
    intro t' c' i ht'
    change Function.update s.thread t (.stopped idx) t' = _ at ht'
    rw [Function.update_apply] at ht'
    split at ht'
    · cases ht'
    · exact hwaits t' c' i ht'

/-- A step keeps every wait one for a transfer that was started when and only when it starts no transfer
that is refused. -/
theorem Waits.step_iff (h : SgtblsOk s.driver.sgtbls) (hinv : Inv max s) (hwaits : Waits s)
    (hs : Step s l s') : Waits s' ↔ NotRefused s l := by
  cases l with
  | call t dest src w cnt m => exact iff_of_true (hwaits.move (moves_call hs)) trivial
  | isr ch ev left => exact iff_of_true (hwaits.isr hinv hs) trivial
  | go t m =>
    by_cases htransfer : ∃ c idx, s.thread t = .transfer c idx
    · obtain ⟨c, idx, ht⟩ := htransfer
      obtain rfl : s.transfer t c idx m = s' := by
        simp only [Step, next, System.go, ht] at hs
        exact Option.some.inj hs
      rw [waits_transfer_iff h hinv hwaits ht]
      refine ⟨fun hok c' idx' ht' => ?_, fun hok => hok c idx ht⟩
      cases ht.symm.trans ht'
      exact hok
    · have hother : NotRefused s (.go t m) := fun c idx ht => absurd ⟨c, idx, ht⟩ htransfer
      refine iff_of_true ?_ hother
      cases hinv.go_cases hs with
      | moves hm => exact hwaits.move hm
      | transfer ht _ => exact absurd ⟨_, _, ht⟩ htransfer
      | wait ht _ heq =>
        rw [heq]
        exact hwaits.wait hinv ht

/-- What is known of the driver and of the threads that share its memory actors. -/
structure ThreadsRight (d₀ : NuPdma) (n : Nat) : Prop where
  calls : ∀ labels s, Run Step (System.start n d₀) labels s → AnswersKnown s.driver
  waits : ∀ labels s, Run (where_ Step NotRefused) (System.start n d₀) labels s →
    Waits s ∧ ∀ l s', Step s l s' → (Waits s' ↔ NotRefused s l)

/-- A driver with one channel of memory allocated. -/
def oneChannel : NuPdma := ran NuPdma.reset (.allocate PDMA_MEM)

theorem oneChannel_run :
    Run (where_ useStep OwnDescs) NuPdma.reset [.call (.allocate PDMA_MEM)] oneChannel := by
  have hstep : step NuPdma.reset (.allocate PDMA_MEM) oneChannel := step_ran rfl
  exact .snoc .nil ⟨trivial, hstep⟩

/-- What is asked of the calls and of the threads. -/
structure ErrorsRight (d : NuPdma) : Prop where
  transfer : ∀ m c w sa da cnt t, TransferRight m d c w sa da cnt t
  descSetup : ∀ c p w sa da cnt next silent, Points d p → SetupRight d c p w sa da cnt next silent
  sgTransfer : ∀ c p t, Points d p → SgRight d c p t
  waits : ∀ d₀ n labels s, nuPdmaMemfunActorInit d = .ok d₀ → Run Step (System.start n d₀) labels s →
    Waits s

end Actors

end NumakerMA35D1.Pdma

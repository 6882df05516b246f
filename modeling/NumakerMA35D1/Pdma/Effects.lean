import NumakerMA35D1.Pdma.Sgtbl

/-!
# What the calls do

One lemma for each function of the driver: the errors it may stop with and what it does to the
tables. Most do nothing to them, and leave the allocated channels and the address control alone
(`Keeps`). The lemma on the loop over a chain also says what the engine will make of the chain.

`A` is the set of errors allowed. A failed assertion always is one; an access through a null table is
one in a state where a channel wants a table that it has not.
-/

namespace NumakerMA35D1.Pdma

open Embedded

/-! ## Calls that leave the tables alone -/

/-- The tables, the allocated channels and the address control are as before. -/
structure Keeps (s s' : NuPdma) : Prop where
  sgtbls : s'.sgtbls = s.sgtbls
  mask : s'.nuPdmaChnMaskArr = s.nuPdmaChnMaskArr
  memCtl : ∀ ch, (s'.nuPdmaChnArr ch).m_eMemCtl = (s.nuPdmaChnArr ch).m_eMemCtl

namespace Keeps

variable {s s' s'' : NuPdma}

theorem refl : Keeps s s := ⟨rfl, rfl, fun _ => rfl⟩

theorem trans (h : Keeps s s') (h' : Keeps s' s'') : Keeps s s'' where
  sgtbls := h'.sgtbls.trans h.sgtbls
  mask := h'.mask.trans h.mask
  memCtl ch := (h'.memCtl ch).trans (h.memCtl ch)

theorem table (h : Keeps s s') (ch : Nat) :
    (s'.nuPdmaChnArr ch).m_ppsSgtbl = (s.nuPdmaChnArr ch).m_ppsSgtbl :=
  congrArg (·.table ch) h.sgtbls

end Keeps

section

variable {s s' : NuPdma} {ch : Nat} {r : NuPdmaChn} {A : Halt → Prop} {c : BitVec 32}

/-- A record with the same table. -/
theorem sgtbls_setChn (htable : r.m_ppsSgtbl = (s.nuPdmaChnArr ch).m_ppsSgtbl)
    (hwanted : r.m_u32WantedSGTblNum = (s.nuPdmaChnArr ch).m_u32WantedSGTblNum) :
    (s.setChn ch r).sgtbls = s.sgtbls := by
  have hcongr : ∀ {β : Type} (f : NuPdmaChn → β), f r = f (s.nuPdmaChnArr ch) →
      (fun c => f (Function.update s.nuPdmaChnArr ch r c)) = fun c => f (s.nuPdmaChnArr c) := by
    intro β f hf
    funext c
    rw [Function.update_apply]
    split
    · rw [hf, ‹c = ch›]
    · rfl
  simp only [NuPdma.sgtbls, NuPdma.setChn, Sgtbls.mk.injEq, and_true]
  exact ⟨hcongr _ htable, hcongr _ hwanted⟩

theorem keeps_setChn (htable : r.m_ppsSgtbl = (s.nuPdmaChnArr ch).m_ppsSgtbl)
    (hwanted : r.m_u32WantedSGTblNum = (s.nuPdmaChnArr ch).m_u32WantedSGTblNum)
    (hmem : r.m_eMemCtl = (s.nuPdmaChnArr ch).m_eMemCtl) : Keeps s (s.setChn ch r) where
  sgtbls := sgtbls_setChn htable hwanted
  mask := rfl
  memCtl c := by
    rw [NuPdma.nuPdmaChnArr_setChn]
    split
    · rw [hmem, ‹c = ch›]
    · rfl

theorem keeps_setDSCT (s : NuPdma) (ch : Nat) (d : Dsct) : Keeps s (s.setDSCT ch d) :=
  ⟨rfl, rfl, fun _ => rfl⟩

/-- A descriptor overwritten is still allocated. -/
theorem keeps_heap {a : BitVec 32} {d : Dsct} (ha : (s.heap a).isSome) :
    Keeps s { s with heap := Function.update s.heap a (some d) } where
  sgtbls := by
    simp only [NuPdma.sgtbls, Sgtbls.mk.injEq, true_and]
    ext b
    simp only [Set.mem_ofPred_eq, Function.update_apply]
    split
    · simp [‹b = a›, ha]
    · rfl
  mask := rfl
  memCtl _ := rfl

/-- The test of a channel number returns or asserts. -/
theorem returns_check {β : Type} {f : Bool → Except Halt β} {Q : β → Prop} (hassert : A .rtAssert)
    (h : ∀ b, nuPdmaCheckIsNonallocated s c = .ok b → Returns A (f b) Q) :
    Returns A (nuPdmaCheckIsNonallocated s c >>= f) Q := by
  rcases hcheck : nuPdmaCheckIsNonallocated s c with e | b
  · have he : e = .rtAssert := by
      rw [nuPdmaCheckIsNonallocated] at hcheck
      split at hcheck <;> cases hcheck
      rfl
    rw [he]
    exact hassert
  · exact h b hcheck

/-- The test reads the masks alone. -/
theorem check_congr (h : s'.nuPdmaChnMaskArr = s.nuPdmaChnMaskArr) (c : BitVec 32) :
    nuPdmaCheckIsNonallocated s' c = nuPdmaCheckIsNonallocated s c := by
  rw [nuPdmaCheckIsNonallocated, nuPdmaCheckIsNonallocated, h]

/-- The idle time is in the record alone. -/
theorem nuPdmaTimeoutSet_returns (hassert : A .rtAssert) (t : BitVec 32) :
    Returns A (nuPdmaTimeoutSet s c t) fun r =>
      Keeps s r.2 ∧ r.2.DSCT = s.DSCT ∧ r.2.heap = s.heap :=
  returns_check hassert fun _ _ => .ite (fun _ => .pure ⟨.refl, rfl, rfl⟩)
    (fun _ => .pure ⟨keeps_setChn rfl rfl rfl, rfl, rfl⟩)

theorem nuPdmaChannelTerminate_returns (hassert : A .rtAssert) :
    Returns A (nuPdmaChannelTerminate s c) fun s' => Keeps s s' :=
  returns_check hassert fun _ _ => .ite (fun _ => .pure .refl) fun _ =>
    .bind (nuPdmaTimeoutSet_returns hassert 0#32) fun _ h => .pure (h.1.trans (keeps_setDSCT ..))

theorem nuPdmaFilteringSet_returns (hassert : A .rtAssert) (f : BitVec 32) :
    Returns A (nuPdmaFilteringSet s c f) fun r => Keeps s r.2 :=
  returns_check hassert fun _ _ =>
    .ite (fun _ => .pure .refl) (fun _ => .pure (keeps_setChn rfl rfl rfl))

theorem nuPdmaCallbackRegister_returns (hassert : A .rtAssert) (cb : Option Nat) :
    Returns A (nuPdmaCallbackRegister s c cb) fun r => Keeps s r.2 :=
  returns_check hassert fun _ _ =>
    .ite (fun _ => .pure .refl) (fun _ => .pure (keeps_setChn rfl rfl rfl))

/-- An allocated channel steps its addresses as it was told, where that is allowed. -/
theorem nuPdmaChannelMemctrlSet_returns (hassert : A .rtAssert) (m : NuPdmaMemctrl) :
    Returns A (nuPdmaChannelMemctrlSet s c m) fun r => r.2.sgtbls = s.sgtbls ∧
      r.2.nuPdmaChnMaskArr = s.nuPdmaChnMaskArr ∧
      (nuPdmaCheckIsNonallocated s c = .ok false → m = .srcIncDstInc →
        (r.2.nuPdmaChnArr c.toNat).m_eMemCtl = m) := by
  refine returns_check hassert fun b hb => .ite (fun ht => ?_) fun _ => .ite (fun hu => ?_) fun _ =>
    .ite (fun hfix => ?_) fun _ => ?_
  · refine .pure ⟨rfl, rfl, ?_⟩
    intro hf
    rw [hb, ht] at hf
    cases hf
  · refine .pure ⟨rfl, rfl, ?_⟩
    rintro - rfl
    cases hu
  · refine .pure ⟨rfl, rfl, ?_⟩
    rintro - rfl
    rcases hfix with ⟨-, h | h⟩ <;> cases h
  · refine .pure ⟨sgtbls_setChn rfl rfl, rfl, ?_⟩
    rintro - -
    simp only [NuPdma.nuPdmaChnArr_setChn, if_true]

theorem nuPdmaChannelFree_returns (hassert : A .rtAssert) :
    Returns A (nuPdmaChannelFree s c) fun r => r.2.sgtbls = s.sgtbls :=
  .ite (fun _ => .pure rfl) fun _ => returns_check hassert fun _ _ => .ite (fun _ => .pure rfl)
    fun _ => .ite (fun _ => .pure rfl) (fun _ => .pure rfl)

end

/-! ## Starting a transfer -/

section

variable {s s' : NuPdma} {A : Halt → Prop} {c w sa da cnt next : BitVec 32} {silent : Bool}

/-- What a call that sets up a descriptor in memory may do to the descriptors, and what it puts there
when it succeeds. -/
structure SetUp (s s' : NuPdma) (ch : Nat) (a w sa da cnt next : BitVec 32) (silent : Bool)
    (ret : Int) : Prop where
  keeps : Keeps s s'
  frame : ∀ b, b ≠ a → s'.heap b = s.heap b
  filled : ret = RT_EOK → ValidWidth w ∧
    s'.heap a = some (descFields (s.nuPdmaChnArr ch).m_u32Peripheral (s.nuPdmaChnArr ch).m_eMemCtl w
      sa da cnt next silent)

theorem nuPdmaDescSetup_mem_returns {a : BitVec 32} (hassert : A .rtAssert)
    (ha : (s.heap a).isSome) :
    Returns A (nuPdmaDescSetup s c (.mem a) w sa da cnt next silent)
      fun r => SetUp s r.2 c.toNat a w sa da cnt next silent r.1 := by
  have hfail : SetUp s s c.toNat a w sa da cnt next silent (-RT_EINVAL) :=
    ⟨.refl, fun _ _ => rfl, fun h => absurd h (by decide)⟩
  refine .ite (fun _ => .pure hfail) fun _ => returns_check hassert fun _ _ =>
    .ite (fun _ => .pure hfail) fun _ => .ite (fun _ => .pure hfail) fun hw =>
    .ite (fun _ => .pure hfail) fun _ => .ite (fun _ => .pure hfail) fun _ => ?_
  obtain ⟨d, hd⟩ := Option.isSome_iff_exists.1 ha
  simp only [NuPdma.store, hd, ok_bind]
  refine .pure ⟨keeps_heap ha, ?_, fun _ => ⟨not_not.1 hw, ?_⟩⟩
  · intro b hb
    exact Function.update_of_ne hb _ _
  · exact Function.update_self ..

theorem nuPdmaDescSetup_reg_returns (hassert : A .rtAssert) (ch : Nat) :
    Returns A (nuPdmaDescSetup s c (.reg ch) w sa da cnt next silent) fun r => Keeps s r.2 ∧
      (r.1 = RT_EOK → ValidWidth w ∧ r.2.DSCT ch = descFields (s.nuPdmaChnArr c.toNat).m_u32Peripheral
        (s.nuPdmaChnArr c.toNat).m_eMemCtl w sa da cnt next silent) := by
  have hfail : Keeps s s ∧ ((-RT_EINVAL : Int) = RT_EOK → ValidWidth w ∧
      s.DSCT ch = descFields (s.nuPdmaChnArr c.toNat).m_u32Peripheral
        (s.nuPdmaChnArr c.toNat).m_eMemCtl w sa da cnt next silent) :=
    ⟨.refl, fun h => absurd h (by decide)⟩
  refine .ite (fun _ => .pure hfail) fun _ => returns_check hassert fun _ _ =>
    .ite (fun _ => .pure hfail) fun _ => .ite (fun _ => .pure hfail) fun hw =>
    .ite (fun _ => .pure hfail) fun _ => .ite (fun _ => .pure hfail) fun _ => ?_
  simp only [NuPdma.store, ok_bind]
  exact .pure ⟨keeps_setDSCT .., fun _ => ⟨not_not.1 hw, NuPdma.DSCT_setDSCT ..⟩⟩

theorem keeps_pdmaSetTransferMode (s : NuPdma) (ch : Nat) (e : Bool) (a : BitVec 32) :
    Keeps s (pdmaSetTransferMode s ch e a) := by
  unfold pdmaSetTransferMode
  split
  · exact keeps_setDSCT ..
  · exact keeps_setDSCT ..

theorem pdmaSetTransferMode_heap (s : NuPdma) (ch : Nat) (e : Bool) (a : BitVec 32) :
    (pdmaSetTransferMode s ch e a).heap = s.heap := by
  unfold pdmaSetTransferMode
  split <;> rfl

/-- The mode put where the mode was. -/
theorem getField_setOpmode (ctl : BitVec 32) {v : BitVec 32} (hv : v.toNat < 2 ^ 2) :
    getField ((ctl &&& ~~~PDMA_DSCT_CTL_OPMODE_Msk) ||| v) 0 2 = v := by
  have hmask : PDMA_DSCT_CTL_OPMODE_Msk = fieldMask 2 := by decide
  have hcut : (ctl &&& ~~~fieldMask 2) &&& fieldMask 2 = 0#32 := by
    rw [BitVec.and_assoc, BitVec.and_comm (~~~_), BitVec.and_not_self]
    exact BitVec.and_zero
  rw [getField_or, getField_zero hv, hmask, getField, BitVec.ushiftRight_zero, hcut,
    BitVec.zero_or]

theorem setOpmode_self {ctl v : BitVec 32} (h : getField ctl 0 2 = v) :
    (ctl &&& ~~~PDMA_DSCT_CTL_OPMODE_Msk) ||| v = ctl := by
  have hmask : PDMA_DSCT_CTL_OPMODE_Msk = fieldMask 2 := by decide
  rw [← h, hmask, getField, BitVec.ushiftRight_zero]
  apply BitVec.eq_of_getLsbD_eq
  intro i hi
  simp only [BitVec.getLsbD_or, BitVec.getLsbD_and, BitVec.getLsbD_not, hi, decide_true,
    Bool.true_and]
  cases ctl.getLsbD i <;> cases (fieldMask 2).getLsbD i <;> rfl

theorem engineRun_congr {ch : Nat} (hd : s'.DSCT = s.DSCT) (hh : s'.heap = s.heap) (b : Bus) :
    engineRun s' ch b = engineRun s ch b := by
  rw [engineRun, engineRun, hd, hh]

/-- A transfer from a descriptor in memory that links to another is the chain from it. -/
theorem _nuPdmaTransfer_mem_returns {a : BitVec 32} {d : Dsct} (hassert : A .rtAssert)
    (ha : s.heap a = some d) (t : BitVec 32) :
    Returns A (_nuPdmaTransfer s c (.mem a) t) fun s' => Keeps s s' ∧ s'.heap = s.heap ∧
      (d.NEXT ≠ 0#32 → ∀ b, engineRun s' c.toNat b = runChain s.heap chainLimit a b) := by
  simp only [_nuPdmaTransfer, NuPdma.load, ha, ok_bind]
  refine .bind (nuPdmaTimeoutSet_returns hassert t) ?_
  rintro ⟨_, s'⟩ ⟨hkeeps, hdsct, hheap⟩
  refine .pure ⟨(keeps_pdmaSetTransferMode ..).trans hkeeps, ?_, fun hnext b => ?_⟩
  · exact hheap.trans (pdmaSetTransferMode_heap ..)
  have hmode : (pdmaSetTransferMode s c.toNat true a).DSCT c.toNat =
      { s.DSCT c.toNat with
        NEXT := a
        CTL := ((s.DSCT c.toNat).CTL &&& ~~~PDMA_DSCT_CTL_OPMODE_Msk) ||| PDMA_OP_SCATTER } :=
    NuPdma.DSCT_setDSCT ..
  have hscatter : ((pdmaSetTransferMode s c.toNat true a).DSCT c.toNat).opmode = PDMA_OP_SCATTER := by
    rw [hmode]
    exact getField_setOpmode _ (by decide)
  simp only [hnext, ne_eq, not_false_eq_true, decide_true, NuPdmaDesc.addr] at hdsct hheap
  rw [engineRun_congr hdsct hheap, engineRun, if_pos hscatter, hmode]
  rfl

/-- A transfer from the registers of the channel is what they say. -/
theorem _nuPdmaTransfer_reg_returns (hassert : A .rtAssert)
    (hnext : (s.DSCT c.toNat).NEXT = 0#32) (hmode : (s.DSCT c.toNat).opmode = PDMA_OP_BASIC)
    (t : BitVec 32) :
    Returns A (_nuPdmaTransfer s c (.reg c.toNat) t) fun s' => Keeps s s' ∧
      ∀ b, engineRun s' c.toNat b = some ((s.DSCT c.toNat).run b) := by
  simp only [_nuPdmaTransfer, NuPdma.load, ok_bind, hnext]
  refine .bind (nuPdmaTimeoutSet_returns hassert t) ?_
  rintro ⟨_, s'⟩ ⟨hkeeps, hdsct, hheap⟩
  refine .pure ⟨(keeps_pdmaSetTransferMode ..).trans hkeeps, fun b => ?_⟩
  have hsame : ∀ a, (pdmaSetTransferMode s c.toNat false a).DSCT c.toNat = s.DSCT c.toNat := by
    intro a
    refine (NuPdma.DSCT_setDSCT ..).trans ?_
    rw [setOpmode_self hmode]
  simp only [ne_eq, not_true_eq_false, decide_false] at hdsct hheap
  rw [engineRun_congr hdsct hheap, engineRun, hsame, if_neg (by rw [hmode]; decide), if_pos hmode]

end

end NumakerMA35D1.Pdma

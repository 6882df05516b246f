import NumakerMA35D1.Pdma.Chain

/-!
# What a copy does

A memory actor that reports all elements moved has had the engine move `movedCount` of them
(`nuPdmaMemfun_returns`), so a copy that comes to its end has written what its passes write
(`nuPdmaMemcpyLoop_returns`): `copyPasses` are the passes without the driver.

Only what returns matters here, so every way to stop is allowed.
-/

namespace NumakerMA35D1.Pdma

open Embedded

section

variable {s s' : NuPdma} {A : Halt → Prop} {c w sa da cnt : BitVec 32} {m : NuPdmaMemctrl} {b : Bus}

/-! ## A transfer by an actor -/

theorem nuPdmaMemfunEmploy_returns (hblocked : A .blocked) :
    Returns A (nuPdmaMemfunEmploy s) fun r => Keeps s r.2 := by
  rw [nuPdmaMemfunEmploy]
  split
  · exact hblocked
  · exact hblocked
  · exact .ite (fun _ => hblocked) fun _ => ⟨rfl, rfl, fun _ => rfl⟩

/-- A transfer that is done is what the engine makes of it. -/
theorem engineEnd_returns (hblocked : A .blocked) (o : TransferEnd) :
    Returns A (engineEnd o s c b) fun r => Keeps s r.1 ∧
      (o.events &&& NU_PDMA_EVENT_TRANSFER_DONE ≠ 0#32 →
        engineRun s c.toNat b = some r.2) := by
  refine .ite (fun _ => ?_) fun hdone => ⟨keeps_setDSCT .., fun h => absurd h hdone⟩
  rcases hrun : engineRun s c.toNat b with _ | b'
  · exact hblocked
  · exact ⟨.refl, fun _ => rfl⟩

/-- The actor whose semaphore is released has the events as its result. -/
theorem nuPdmaIsr_spec (s : NuPdma) (c e : BitVec 32) :
    Keeps s (nuPdmaIsr s c e).2 ∧ ∀ idx, (nuPdmaIsr s c e).1 = some idx →
      ((nuPdmaIsr s c e).2.nuPdmaMemfunActorArr idx).m_u32Result = e := by
  rw [nuPdmaIsr]
  split
  · exact ⟨.refl, fun _ h => nomatch h⟩
  · split
    · refine ⟨⟨rfl, rfl, fun _ => rfl⟩, ?_⟩
      rintro _ ⟨⟩
      exact NuPdma.result_setResult ..
    · exact ⟨.refl, fun _ h => nomatch h⟩

/-- The count left is never zero. -/
theorem sub_nonTransferCount_ne (s : NuPdma) (c cnt : BitVec 32) :
    cnt - nuPdmaNonTransferCountGet s c ≠ cnt := by
  intro h
  have hfield : (getField (s.DSCT c.toNat).CTL 16 16).toNat < 2 ^ 16 := by
    rw [getField_toNat (by decide)]
    exact Nat.mod_lt _ (by decide)
  have hcount : (nuPdmaNonTransferCountGet s c).toNat =
      (getField (s.DSCT c.toNat).CTL 16 16).toNat + 1 := by
    rw [nuPdmaNonTransferCountGet, BitVec.toNat_add, BitVec.toNat_ofNat]
    omega
  have hsub := congrArg BitVec.toNat h
  have hlt := cnt.isLt
  rw [BitVec.toNat_sub, hcount] at hsub
  omega

/-- A transfer by an actor keeps the tables in order, and when it reports all elements, the engine
has moved what was programmed. -/
theorem nuPdmaMemfun_returns (hok : SgtblsOk s.sgtbls) (o : TransferEnd) (dest src : BitVec 32) :
    Returns (fun _ => True) (nuPdmaMemfun o s b dest src w cnt m) fun r => SgtblsOk r.2.1.sgtbls ∧
      (r.1 = cnt → m = .srcIncDstInc → r.2.2 = b.moveElements (w.toNat / 8) src dest (w.toNat / 8)
        (w.toNat / 8) (movedCount cnt.toNat)) := by
  refine .bind (nuPdmaMemfunEmploy_returns trivial) ?_
  rintro ⟨idx, s₁⟩ hk₁
  refine .bind (nuPdmaChannelMemctrlSet_returns trivial m) ?_
  rintro ⟨_, s₂⟩ ⟨hsg₂, hmask₂, hmem₂⟩
  refine .bind (nuPdmaFilteringSet_returns trivial _) ?_
  rintro ⟨_, s₃⟩ hk₃
  refine .bind (nuPdmaCallbackRegister_returns trivial _) ?_
  rintro ⟨_, s₄⟩ hk₄
  generalize (s₁.nuPdmaMemfunActorArr idx).m_i32ChannID = c at hmem₂ ⊢
  have hk₅ : Keeps s₂ (s₄.setResult idx 0#32) :=
    (hk₃.trans hk₄).trans ⟨rfl, rfl, fun _ => rfl⟩
  have hsg₅ : (s₄.setResult idx 0#32).sgtbls = s.sgtbls :=
    hk₅.sgtbls.trans (hsg₂.trans hk₁.sgtbls)
  refine .bind (nuPdmaTransfer_returns trivial (hsg₅ ▸ hok) (fun _ _ => trivial) o.malloc 0#32) ?_
  rintro ⟨started, s₆⟩ ⟨heff, hcopy⟩
  refine .ite (fun _ => trivial) fun hstarted => ?_
  refine .bind (engineEnd_returns trivial o) ?_
  rintro ⟨s₇, b'⟩ ⟨hk₇, hdone⟩
  obtain ⟨hk₈, hresult⟩ := nuPdmaIsr_spec s₇ c o.events
  dsimp only
  generalize nuPdmaIsr s₇ c o.events = isr at hk₈ hresult ⊢
  obtain ⟨released, s₈⟩ := isr
  refine .ite (fun _ => trivial) fun hreleased => ?_
  have hres : (s₈.nuPdmaMemfunActorArr idx).m_u32Result = o.events :=
    hresult idx (not_not.1 hreleased)
  have hend : Returns (fun _ => True) (if (s₈.nuPdmaMemfunActorArr idx).m_u32Result &&& NU_PDMA_EVENT_ABORT ≠ 0#32
      then nuPdmaChannelTerminate s₈ c else .ok s₈) (Keeps s₈) :=
    .ite (fun _ => nuPdmaChannelTerminate_returns trivial) fun _ => .refl
  refine .bind hend ?_
  intro s₉ hk₉
  refine .pure ⟨?_, ?_⟩
  · have hsg₉ : (nuPdmaMemfunFire s₉ idx).sgtbls = s₆.sgtbls :=
      ((hk₇.trans hk₈).trans hk₉).sgtbls
    rw [hsg₉]
    exact SgtblsOk.transfer (hsg₅ ▸ hok) heff
  · intro hall hm
    simp only [hres] at hall
    have hev : o.events &&& NU_PDMA_EVENT_TRANSFER_DONE ≠ 0#32 := by
      intro hz
      rw [if_neg (not_not.2 hz)] at hall
      exact sub_nonTransferCount_ne _ _ _ hall
    obtain ⟨halloc, -, hstarts⟩ := hcopy (not_not.1 hstarted)
    have halloc₁ : nuPdmaCheckIsNonallocated s₁ c = .ok false := by
      rw [← check_congr (hk₅.mask.trans hmask₂) c]
      exact halloc
    obtain ⟨b₁, hrun, -, hb₁⟩ := hstarts
      ((hk₅.memCtl _).trans ((hmem₂ halloc₁ hm).trans hm)) b
    obtain rfl : b₁ = b' := Option.some.inj (hrun.symm.trans (hdone hev))
    exact hb₁

/-! ## The passes of a copy -/

/-- The passes of a copy without the driver: the offset reached and what the engine leaves. -/
def copyPasses (dest src : BitVec 32) :
    List (BitVec 32) → (u32Offset u32Remaining : BitVec 32) → Bus → BitVec 32 × Bus
  | [], u32Offset, _, b => (u32Offset, b)
  | i :: is, u32Offset, u32Remaining, b =>
    if u32Remaining = 0#32 then (u32Offset, b)
    else if (src + u32Offset) % i = (dest + u32Offset) % i ∧ (src + u32Offset) % i = 0#32 ∧
        i ≤ maskLow u32Remaining i then
      copyPasses dest src is (u32Offset + u32Remaining / i * i) (u32Remaining - u32Remaining / i * i)
        (b.moveElements ((i * 8#32).toNat / 8) (src + u32Offset) (dest + u32Offset)
          ((i * 8#32).toNat / 8) ((i * 8#32).toNat / 8) (movedCount (u32Remaining / i).toNat))
    else copyPasses dest src is u32Offset u32Remaining b

theorem copyPasses_pass {dest src i off rem : BitVec 32} {is : List (BitVec 32)} (hz : rem ≠ 0#32)
    (hg : (src + off) % i = (dest + off) % i ∧ (src + off) % i = 0#32 ∧ i ≤ maskLow rem i) :
    copyPasses dest src (i :: is) off rem b =
      copyPasses dest src is (off + rem / i * i) (rem - rem / i * i)
        (b.moveElements ((i * 8#32).toNat / 8) (src + off) (dest + off) ((i * 8#32).toNat / 8)
          ((i * 8#32).toNat / 8) (movedCount (rem / i).toNat)) := by
  rw [copyPasses, if_neg hz, if_pos hg]

theorem copyPasses_skip {dest src i off rem : BitVec 32} {is : List (BitVec 32)} (hz : rem ≠ 0#32)
    (hg : ¬ ((src + off) % i = (dest + off) % i ∧ (src + off) % i = 0#32 ∧ i ≤ maskLow rem i)) :
    copyPasses dest src (i :: is) off rem b = copyPasses dest src is off rem b := by
  rw [copyPasses, if_neg hz, if_neg hg]

/-- A copy keeps the tables in order, and when no pass is cut short it is its passes. By induction on
the passes. -/
theorem nuPdmaMemcpyLoop_returns {o : BitVec 32 → TransferEnd} (dest src : BitVec 32)
    (is : List (BitVec 32)) :
    ∀ {off rem : BitVec 32} {s : NuPdma} {b : Bus}, SgtblsOk s.sgtbls →
      Returns (fun _ => True) (nuPdmaMemcpyLoop o dest src is off rem s b) fun r =>
        SgtblsOk r.2.1.sgtbls ∧
        ∀ off', r.1 = some off' → (off', r.2.2) = copyPasses dest src is off rem b := by
  induction is with
  | nil =>
    intro off rem s b hok
    refine ⟨hok, ?_⟩
    rintro _ ⟨⟩
    rfl
  | cons i is ih =>
    intro off rem s b hok
    rw [nuPdmaMemcpyLoop, copyPasses]
    by_cases hz : rem = 0#32
    · rw [if_pos hz, if_pos hz]
      refine ⟨hok, ?_⟩
      rintro _ ⟨⟩
      rfl
    rw [if_neg hz, if_neg hz]
    by_cases hg : (src + off) % i = (dest + off) % i ∧ (src + off) % i = 0#32 ∧ i ≤ maskLow rem i
    · simp only [if_pos hg]
      refine .bind (nuPdmaMemfun_returns hok (o i) _ _) ?_
      rintro ⟨n, s₁, b₁⟩ ⟨hok₁, hcopy⟩
      refine .ite (fun _ => .pure ⟨hok₁, fun _ h => nomatch h⟩) fun hn => ?_
      have hb₁ : b₁ = _ := hcopy (not_not.1 hn).symm rfl
      rw [← hb₁]
      exact ih hok₁
    · simp only [if_neg hg]
      exact ih hok

/-- A copy that returns its destination is its passes. -/
theorem nuPdmaMemcpy_returns {o : BitVec 32 → TransferEnd} (hok : SgtblsOk s.sgtbls)
    (dest src count : BitVec 32) :
    Returns (fun _ => True) (nuPdmaMemcpy o s b dest src count) fun r => SgtblsOk r.2.1.sgtbls ∧
      (r.1 = some dest →
        (count, r.2.2) = copyPasses dest src [4#32, 2#32, 1#32] 0#32 count b) := by
  refine .bind (nuPdmaMemcpyLoop_returns dest src _ hok) ?_
  rintro ⟨reached, s', b'⟩ ⟨hok', hpasses⟩
  refine .pure ⟨hok', fun hret => ?_⟩
  refine hpasses count ?_
  by_contra hne
  have hnone : (if reached = some count then some dest else none) = none := if_neg hne
  exact absurd (hnone.symm.trans hret) (by simp)

end

end NumakerMA35D1.Pdma

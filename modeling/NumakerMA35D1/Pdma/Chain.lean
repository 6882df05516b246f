import NumakerMA35D1.Pdma.Effects

/-!
# Transfers over a chain

What a transfer does to the tables (`nuPdmaTransfer_returns`): it leaves them, or the channel gives
its table back, or gets another, or is left wanting one because the allocator had no room. And what
the engine makes of one that was started with both addresses stepping: it moves `movedCount` elements
in one go. A chain has one descriptor more than full descriptors fit into the count, so where the
count is a multiple of `NU_PDMA_MAX_TXCNT` the last descriptor is given the count zero and moves
`NU_PDMA_MAX_TXCNT` elements too many.
-/

namespace NumakerMA35D1.Pdma

open Embedded

/-- The elements the engine moves for a transfer of `cnt`. -/
def movedCount (cnt : Nat) : Nat := if 65536 < cnt ∧ cnt % 65536 = 0 then cnt + 65536 else cnt

/-- What a descriptor of a table programs. -/
structure Dsct.Programs (d : Dsct) (m : NuPdmaMemctrl) (w sa da : BitVec 32) : Prop where
  count_pos : 1 ≤ d.count
  count_le : d.count ≤ NU_PDMA_MAX_TXCNT.toNat
  width : d.width = w.toNat / 8
  SA : d.SA = sa
  DA : d.DA = da
  src : d.srcStride = m.srcStep w
  dst : d.dstStride = m.dstStep w

/-- The descriptors at the addresses of a table move `n` elements of `w` bits from `sa` to `da`: each
goes on where the one before it ends and links to the one after it, and only the last one stops
there and raises the interrupt. -/
inductive TableMoves (h : Heap) (m : NuPdmaMemctrl) (w : BitVec 32) :
    List (BitVec 32) → (sa da : BitVec 32) → (n : Nat) → Prop
  | last {a sa da : BitVec 32} {d : Dsct} : h a = some d → d.Programs m w sa da →
    d.opmode = PDMA_OP_BASIC → d.NEXT = 0#32 → ¬ d.silent → TableMoves h m w [a] sa da d.count
  | link {a next sa da : BitVec 32} {ps : List (BitVec 32)} {d : Dsct} {n : Nat} :
    h a = some d → d.Programs m w sa da → d.opmode = PDMA_OP_SCATTER → d.NEXT = next → d.silent →
    TableMoves h m w (next :: ps) (Bus.strided sa (m.srcStep w) d.count)
      (Bus.strided da (m.dstStep w) d.count) n →
    TableMoves h m w (a :: next :: ps) sa da (d.count + n)

/-- A chain of `left` descriptors in memory that moves `n` elements of `w` bits. -/
structure Chained (h : Heap) (a : BitVec 32) (left : Nat) (w sa da : BitVec 32) (n : Nat) : Prop where
  width : ValidWidth w
  head : ∃ d, h a = some d ∧ (1 < left → d.NEXT ≠ 0#32)
  run : ∀ fuel b, left ≤ fuel →
    runChain h fuel a b = some (b.moveElements (w.toNat / 8) sa da (w.toNat / 8) (w.toNat / 8) n)

section

variable {s s' : NuPdma} {A : Halt → Prop} {c w sa da cnt off : BitVec 32} {m : NuPdmaMemctrl}
  {ps : List (BitVec 32)} {h : Heap} {p : BitVec 32}

/-! ## The chain -/

/-- A table says how many elements its descriptors move. -/
theorem TableMoves.unique {n n' : Nat} (hn : TableMoves h m w ps sa da n)
    (hn' : TableMoves h m w ps sa da n') : n = n' := by
  induction hn generalizing n' with
  | last hd =>
    cases hn' with
    | last hd' =>
      obtain rfl := Option.some.inj (hd.symm.trans hd')
      rfl
  | link hd _ _ _ _ _ ih =>
    cases hn' with
    | link hd' _ _ _ _ hrest' =>
      obtain rfl := Option.some.inj (hd.symm.trans hd')
      rw [ih hrest']

/-- The engine follows the table from its first descriptor. -/
theorem TableMoves.run {n : Nat} (hn : TableMoves h m w ps sa da n) :
    ∀ {a fuel b}, ps.head? = some a → ps.length ≤ fuel → runChain h fuel a b =
      some (b.moveElements (w.toNat / 8) sa da (m.srcStep w) (m.dstStep w) n) := by
  induction hn with
  | last hd hp hmode =>
    intro a fuel b ha hfuel
    obtain rfl := Option.some.inj ha
    obtain ⟨fuel, rfl⟩ : ∃ k, fuel = k + 1 := ⟨fuel - 1, by simp at hfuel; omega⟩
    simp only [runChain, hd]
    rw [if_neg (by rw [hmode]; decide), if_pos hmode, Dsct.run, hp.width, hp.src, hp.dst, hp.SA,
      hp.DA]
  | link hd hp hmode hlink _ _ ih =>
    intro a fuel b ha hfuel
    obtain rfl := Option.some.inj ha
    obtain ⟨fuel, rfl⟩ : ∃ k, fuel = k + 1 := ⟨fuel - 1, by simp at hfuel; omega⟩
    simp only [runChain, hd]
    rw [if_pos hmode, hlink, ih rfl (Nat.le_of_succ_le_succ hfuel), Dsct.run, hp.width, hp.src,
      hp.dst, hp.SA, hp.DA]
    exact congrArg some (Bus.moveElements_add _ _ _).symm

/-- A table whose addresses both step is a chain. -/
theorem TableMoves.chained {a : BitVec 32} {n : Nat} (hw : ValidWidth w) (hne : ∀ b ∈ ps, b ≠ 0#32)
    (ha : ps.head? = some a) (hn : TableMoves h .srcIncDstInc w ps sa da n) :
    Chained h a ps.length w sa da n where
  width := hw
  head := by
    cases hn with
    | last hd =>
      obtain rfl := Option.some.inj ha
      exact ⟨_, hd, fun hlt => absurd hlt (by simp)⟩
    | link hd _ _ hlink =>
      obtain rfl := Option.some.inj ha
      refine ⟨_, hd, fun _ => ?_⟩
      rw [hlink]
      exact hne _ (by simp)
  run _ _ hfuel := hn.run ha hfuel

/-- What a filled descriptor programs. -/
theorem descFields_programs {next : BitVec 32} {silent : Bool} (hw : ValidWidth w) :
    (descFields p m w sa da cnt next silent).Programs m w sa da where
  count_pos := by
    rw [descFields_count hw]
    omega
  count_le := by
    rw [descFields_count hw, show NU_PDMA_MAX_TXCNT.toNat = 65536 from rfl]
    omega
  width := descFields_width hw
  SA := rfl
  DA := rfl
  src := descFields_srcStride hw
  dst := descFields_dstStride hw

/-- The last descriptor of a table. -/
theorem tableMoves_last {a : BitVec 32} (hw : ValidWidth w)
    (ha : h a = some (descFields p m w sa da cnt 0#32 false)) :
    TableMoves h m w [a] sa da ((cnt - 1#32).toNat % 2 ^ 16 + 1) := by
  have hlast := TableMoves.last ha (descFields_programs hw)
    (descFields_opmode p m sa da cnt 0#32 false hw) rfl
    (fun hs => absurd ((descFields_silent hw).1 hs) (by decide))
  rwa [descFields_count hw] at hlast

/-- A descriptor before the rest of a table, which goes on where the descriptor ends. -/
theorem tableMoves_link {a next : BitVec 32} {n : Nat} (hw : ValidWidth w) (hnext : next ≠ 0#32)
    (ha : h a = some (descFields p m w sa da cnt next true))
    (hrest : TableMoves h m w (next :: ps)
      (Bus.strided sa (m.srcStep w) ((cnt - 1#32).toNat % 2 ^ 16 + 1))
      (Bus.strided da (m.dstStep w) ((cnt - 1#32).toNat % 2 ^ 16 + 1)) n) :
    TableMoves h m w (a :: next :: ps) sa da ((cnt - 1#32).toNat % 2 ^ 16 + 1 + n) := by
  rw [← descFields_count hw] at hrest ⊢
  refine .link ha (descFields_programs hw) ?_ (if_pos hnext) ((descFields_silent hw).2 rfl) hrest
  rw [descFields_opmode p m sa da cnt next true hw, if_pos hnext]

/-! ## The loop over the table -/

theorem sgtbl_eq_ok {r : NuPdmaChn} (htable : r.m_ppsSgtbl = some ps) {i : Nat} (hi : i < ps.length) :
    r.sgtbl i = .ok ps[i] := by
  simp only [NuPdmaChn.sgtbl, htable, List.getElem?_eq_getElem hi]

/-- Where a full descriptor ends: an address that steps is offset, one that does not stays. -/
theorem strided_full (hw : ValidWidth w) (a off inc : BitVec 32) :
    Bus.strided (if inc ≠ 0#32 then a + off else a) (if inc = 0#32 then 0 else w.toNat / 8)
        ((NU_PDMA_MAX_TXCNT - 1#32).toNat % 2 ^ 16 + 1) =
      if inc ≠ 0#32 then a + (off + NU_PDMA_MAX_TXCNT * w / 8#32) else a := by
  by_cases hinc : inc = 0#32
  · rw [if_neg (not_not.2 hinc), if_pos hinc, if_neg (not_not.2 hinc), Bus.strided, Nat.mul_zero]
    exact BitVec.add_zero a
  · rw [if_pos hinc, if_neg hinc, if_pos hinc, Bus.strided, BitVec.add_assoc]
    congr 2
    rcases hw with rfl | rfl | rfl <;> decide

/-- The count of a descriptor that is not the last of its chain. -/
theorem txCnt_full (h : 0 < cnt.toNat / 65536) :
    (if NU_PDMA_MAX_TXCNT < cnt then NU_PDMA_MAX_TXCNT else cnt) = NU_PDMA_MAX_TXCNT := by
  split
  · rfl
  · have hle : ¬ NU_PDMA_MAX_TXCNT.toNat < cnt.toNat := ‹¬ NU_PDMA_MAX_TXCNT < cnt›
    have hmax : NU_PDMA_MAX_TXCNT.toNat = 65536 := rfl
    apply BitVec.eq_of_toNat_eq
    omega

/-- The count of the last one. -/
theorem txCnt_last (h : cnt.toNat / 65536 = 0) :
    (if NU_PDMA_MAX_TXCNT < cnt then NU_PDMA_MAX_TXCNT else cnt) = cnt := by
  refine if_neg ?_
  have hmax : NU_PDMA_MAX_TXCNT.toNat = 65536 := rfl
  rw [BitVec.lt_def]
  omega

/-- The elements the last one moves: none is taken for all. -/
theorem count_last (h : cnt.toNat / 65536 = 0) :
    (cnt - 1#32).toNat % 2 ^ 16 + 1 =
      if cnt.toNat % 65536 = 0 then cnt.toNat + 65536 else cnt.toNat := by
  rw [BitVec.toNat_sub, BitVec.toNat_ofNat]
  split <;> omega

/-- The elements of a chain, of which the first descriptor moves as many as it can. -/
theorem count_full (h : 0 < cnt.toNat / 65536) :
    (if cnt.toNat % 65536 = 0 then cnt.toNat + 65536 else cnt.toNat) =
      (NU_PDMA_MAX_TXCNT - 1#32).toNat % 2 ^ 16 + 1 +
        (if (cnt - NU_PDMA_MAX_TXCNT).toNat % 65536 = 0 then
          (cnt - NU_PDMA_MAX_TXCNT).toNat + 65536 else (cnt - NU_PDMA_MAX_TXCNT).toNat) := by
  have hmax : NU_PDMA_MAX_TXCNT.toNat = 65536 := rfl
  have hfull : (NU_PDMA_MAX_TXCNT - 1#32).toNat % 2 ^ 16 + 1 = 65536 := by decide
  have hsub : (cnt - NU_PDMA_MAX_TXCNT).toNat = cnt.toNat - 65536 := by
    rw [BitVec.toNat_sub, hmax]
    omega
  rw [hsub, hfull]
  split <;> split <;> omega

/-- The rest of the loop fills the rest of the table. By induction on the number of descriptors
left. -/
theorem _nuPdmaTransferChainLoop_returns (hassert : A .rtAssert) (hnodup : ps.Nodup)
    (hne : ∀ a ∈ ps, a ≠ 0#32) (left : Nat) :
    ∀ {i : Nat} {cnt off : BitVec 32} {s : NuPdma},
      (s.nuPdmaChnArr c.toNat).m_ppsSgtbl = some ps → (∀ a ∈ ps, (s.heap a).isSome) →
      i + left = ps.length →
      Returns A (_nuPdmaTransferChainLoop c w sa da m left i cnt off s) fun r =>
        Keeps s r.2 ∧ (∀ a, a ∉ ps.drop i → r.2.heap a = s.heap a) ∧
        (r.1 = RT_EOK → (s.nuPdmaChnArr c.toNat).m_eMemCtl = m → cnt.toNat / 65536 + 1 = left →
          ValidWidth w ∧ TableMoves r.2.heap m w (ps.drop i)
            (if m.code &&& 2#32 ≠ 0#32 then sa + off else sa)
            (if m.code &&& 1#32 ≠ 0#32 then da + off else da)
            (if cnt.toNat % 65536 = 0 then cnt.toNat + 65536 else cnt.toNat)) := by
  induction left with
  | zero =>
    intro i cnt off s _ _ _
    exact ⟨.refl, fun _ _ => rfl, fun _ _ h => absurd h (by omega)⟩
  | succ left ih =>
    intro i cnt off s htable hlive hlen
    have hi : i < ps.length := by omega
    have hmem : ps[i] ∈ ps := List.getElem_mem hi
    have hdrop : ps.drop i = ps[i] :: ps.drop (i + 1) := List.drop_eq_getElem_cons hi
    have hnot : ps[i] ∉ ps.drop (i + 1) := by
      have hcons : (ps[i] :: ps.drop (i + 1)).Nodup := by
        rw [← hdrop]
        exact hnodup.sublist (List.drop_sublist i ps)
      exact (List.nodup_cons.1 hcons).1
    -- the address of the next descriptor, which is null at the end of the table
    obtain ⟨next, hnext, hnextlast, hnextnone⟩ : ∃ next,
        (if left = 0 then .ok 0#32 else (s.nuPdmaChnArr c.toNat).sgtbl (i + 1)) =
          (Except.ok next : Except Halt _) ∧ (left = 0 → next = 0#32) ∧
        (left ≠ 0 → ps[i + 1]? = some next ∧ next ≠ 0#32) := by
      rcases Nat.eq_zero_or_pos left with hz | hpos
      · exact ⟨0#32, if_pos hz, fun _ => rfl, fun h => absurd hz h⟩
      · have hi' : i + 1 < ps.length := by omega
        refine ⟨ps[i + 1], ?_, fun h => absurd h (by omega), fun _ => ?_⟩
        · rw [if_neg (by omega), sgtbl_eq_ok htable hi']
        · exact ⟨List.getElem?_eq_getElem hi', hne _ (List.getElem_mem hi')⟩
    rw [_nuPdmaTransferChainLoop, sgtbl_eq_ok htable hi, ok_bind, hnext, ok_bind]
    refine .bind (nuPdmaDescSetup_mem_returns hassert (hlive _ hmem)) ?_
    rintro ⟨ret, s₁⟩ ⟨hkeeps, hframe, hfilled⟩
    have hframe' : ∀ a, a ∉ ps.drop i → s₁.heap a = s.heap a := by
      intro a ha
      rw [hdrop, List.mem_cons, not_or] at ha
      exact hframe a ha.1
    refine .ite (fun hret => .pure ⟨hkeeps, hframe', fun h => absurd h hret⟩) fun hret => ?_
    have hlive₁ : ∀ a ∈ ps, (s₁.heap a).isSome := by
      intro a ha
      have hset : s₁.sgtbls.live = s.sgtbls.live := congrArg (·.live) hkeeps.sgtbls
      have hin : a ∈ s₁.sgtbls.live := by
        rw [hset]
        exact hlive a ha
      exact hin
    refine (ih ((hkeeps.table _).trans htable) hlive₁ (by omega)).mono ?_
    rintro ⟨ret', s₂⟩ ⟨hkeeps₂, hframe₂, hchain₂⟩
    refine ⟨hkeeps.trans hkeeps₂, ?_, ?_⟩
    · intro a ha
      rw [hdrop, List.mem_cons, not_or] at ha
      rw [hframe₂ a ha.2, hframe a ha.1]
    · intro hret' hmem hcount
      obtain ⟨hw, hdesc⟩ := hfilled (not_not.1 hret)
      rw [← hframe₂ _ hnot, hmem] at hdesc
      refine ⟨hw, ?_⟩
      rcases Nat.eq_zero_or_pos left with hz | hpos
      · subst hz
        obtain rfl := hnextlast rfl
        have hend : ps.drop (i + 1) = [] := List.drop_eq_nil_of_le (by omega)
        rw [txCnt_last (by omega)] at hdesc
        rw [hdrop, hend, ← count_last (by omega)]
        exact tableMoves_last hw hdesc
      · obtain ⟨hget, hnz⟩ := hnextnone (by omega)
        have hrest : ps.drop (i + 1) = next :: ps.drop (i + 1 + 1) := by
          obtain ⟨hlt, hnext⟩ := List.getElem?_eq_some_iff.1 hget
          rw [List.drop_eq_getElem_cons hlt, hnext]
        rw [txCnt_full (by omega), decide_eq_true (show left ≠ 0 by omega)] at hdesc
        rw [txCnt_full (by omega)] at hchain₂
        have hcount' : (cnt - NU_PDMA_MAX_TXCNT).toNat / 65536 + 1 = left := by
          rw [BitVec.toNat_sub, show NU_PDMA_MAX_TXCNT.toNat = 65536 from rfl]
          omega
        obtain ⟨-, htail⟩ := hchain₂ hret' ((hkeeps.memCtl _).trans hmem) hcount'
        rw [hdrop, hrest, count_full (by omega)]
        rw [hrest] at htail
        refine tableMoves_link hw hnz hdesc ?_
        rw [NuPdmaMemctrl.srcStep, NuPdmaMemctrl.dstStep, strided_full hw, strided_full hw]
        exact htail

/-! ## The table -/

/-- The tables after a record and the descriptors are replaced. -/
theorem sgtbls_update (s : NuPdma) (ch : Nat) (r : NuPdmaChn) (h : Heap) :
    NuPdma.sgtbls { s.setChn ch r with heap := h } =
      ⟨Function.update s.sgtbls.table ch r.m_ppsSgtbl,
        Function.update s.sgtbls.wanted ch r.m_u32WantedSGTblNum, {a | (h a).isSome}⟩ := by
  have hupdate : ∀ {β : Type} (f : NuPdmaChn → β),
      (fun c => f ((s.setChn ch r).nuPdmaChnArr c)) =
        Function.update (fun c => f (s.nuPdmaChnArr c)) ch (f r) := by
    intro β f
    funext c
    rw [NuPdma.nuPdmaChnArr_setChn, Function.update_apply]
    split <;> rfl
  simp only [NuPdma.sgtbls, Sgtbls.mk.injEq, and_true]
  exact ⟨hupdate _, hupdate _⟩

/-- The allocated channels and the address control are as before. -/
structure KeepsConfig (s s' : NuPdma) : Prop where
  mask : s'.nuPdmaChnMaskArr = s.nuPdmaChnMaskArr
  memCtl : ∀ ch, (s'.nuPdmaChnArr ch).m_eMemCtl = (s.nuPdmaChnArr ch).m_eMemCtl

theorem KeepsConfig.refl : KeepsConfig s s := ⟨rfl, fun _ => rfl⟩

theorem KeepsConfig.setChn {ch : Nat} {r : NuPdmaChn}
    (hmem : r.m_eMemCtl = (s.nuPdmaChnArr ch).m_eMemCtl) :
    KeepsConfig s { s.setChn ch r with heap := h } where
  mask := rfl
  memCtl c := by
    refine (congrArg _ (NuPdma.nuPdmaChnArr_setChn s ch r c)).trans ?_
    split
    · rw [hmem, ‹c = ch›]
    · rfl

theorem KeepsConfig.trans {s'' : NuPdma} (h : KeepsConfig s s') (h' : KeepsConfig s' s'') :
    KeepsConfig s s'' where
  mask := h'.mask.trans h.mask
  memCtl ch := (h'.memCtl ch).trans (h.memCtl ch)

/-- A table given back; a channel without one is left as it is. -/
theorem _nuPdmaFreeSgtbls_returns (hassert : A .rtAssert) (hok : SgtblsOk s.sgtbls) (ch : Nat) :
    Returns A (_nuPdmaFreeSgtbls s ch) fun s' => KeepsConfig s s' ∧
      (s.sgtbls.table ch = none → s' = s) ∧
      (s.sgtbls.table ch ≠ none → s'.sgtbls = s.sgtbls.free ch) := by
  rw [_nuPdmaFreeSgtbls]
  rcases htable : (s.nuPdmaChnArr ch).m_ppsSgtbl with _ | ps
  · exact ⟨.refl, fun _ => rfl, fun h => absurd htable h⟩
  · have hlen : ps.length = (s.nuPdmaChnArr ch).m_u32WantedSGTblNum.toNat := hok.length htable
    simp only [nuPdmaSgtblsFree]
    rw [← hlen, List.take_length]
    refine .bind (.ite (fun _ => hassert) fun _ => .ite (fun h => absurd h (Nat.lt_irrefl _))
      fun _ => rfl) ?_
    rintro _ rfl
    refine .pure ⟨.setChn rfl, fun h => absurd (htable.symm.trans h) (by simp), fun _ => ?_⟩
    rw [sgtbls_update]
    simp only [Sgtbls.free, Sgtbls.mk.injEq, true_and]
    ext a
    have hheld : (s.sgtbls.table ch).getD [] = ps := congrArg (·.getD []) htable
    rw [hheld]
    simp only [Set.mem_ofPred_eq, NuPdma.sgtbls, List.contains_iff_mem]
    split <;> simp [*]

/-- The descriptors for a table are new. -/
theorem nuPdmaSgtblsAllocate_returns (hassert : A .rtAssert) (m : Malloc) (num : Nat) :
    ∀ h : Heap, Returns A (nuPdmaSgtblsAllocate m.desc num h) fun r => r.1.length = num ∧
      r.1.Nodup ∧ (∀ a ∈ r.1, a ≠ 0#32 ∧ h a = none) ∧
      ∀ a, (r.2 a).isSome ↔ (h a).isSome ∨ a ∈ r.1 := by
  induction num with
  | zero => exact fun h => ⟨rfl, List.nodup_nil, by simp, by simp⟩
  | succ num ih =>
    intro h
    rw [nuPdmaSgtblsAllocate]
    rcases hdesc : m.desc h with _ | a
    · exact hassert
    · obtain ⟨hz, hnone⟩ := m.fresh hdesc
      refine .bind (ih _) ?_
      rintro ⟨ps, h'⟩ ⟨hlen, hnodup, hfresh, hlive⟩
      -- the later descriptors were free after this one was taken
      have hlater : ∀ b ∈ ps, b ≠ a ∧ h b = none := by
        intro b hb
        have hfree := (hfresh b hb).2
        rw [Function.update_apply] at hfree
        split at hfree
        · cases hfree
        · exact ⟨‹_›, hfree⟩
      refine .pure ⟨congrArg (· + 1) hlen, List.nodup_cons.2 ⟨?_, hnodup⟩, ?_, ?_⟩
      · exact fun ha => (hlater a ha).1 rfl
      · intro b hb
        rcases List.mem_cons.1 hb with rfl | hb
        · exact ⟨hz, hnone⟩
        · exact ⟨(hfresh b hb).1, (hlater b hb).2⟩
      · intro b
        rw [hlive b, Function.update_apply, List.mem_cons]
        split
        · simp [*]
        · simp [*]

/-- What getting a table of a wanted length comes to. -/
inductive TableEnd (m : Malloc) (s s' : NuPdma) (ch : Nat) (wanted : BitVec 32) : Int → Prop
  | kept : (s.nuPdmaChnArr ch).m_u32WantedSGTblNum = wanted → s' = s →
    TableEnd m s s' ch wanted RT_EOK
  | granted {ps : List (BitVec 32)} : (s.sgtbls.free ch).Fresh ps → ps.length = wanted.toNat →
    s'.sgtbls = (s.sgtbls.free ch).grant ch ps → TableEnd m s s' ch wanted RT_EOK
  | noRoom : m.table = false → (s.nuPdmaChnArr ch).m_u32WantedSGTblNum ≠ wanted →
    s'.sgtbls = (s.sgtbls.free ch).want ch wanted → TableEnd m s s' ch wanted RT_ERROR

theorem _nuPdmaTransferChainTable_returns (hassert : A .rtAssert) (hok : SgtblsOk s.sgtbls)
    (mal : Malloc) (ch : Nat) {wanted : BitVec 32} (hwanted : 0 < wanted.toNat) :
    Returns A (_nuPdmaTransferChainTable mal s ch wanted) fun r => KeepsConfig s r.2 ∧
      TableEnd mal s r.2 ch wanted r.1 := by
  refine .ite (fun h => .pure ⟨.refl, .kept h rfl⟩) fun hne => ?_
  -- the old table is given back, if there is one
  have hfree : Returns A (if 0#32 < (s.nuPdmaChnArr ch).m_u32WantedSGTblNum then
      _nuPdmaFreeSgtbls s ch else .ok s : Except Halt NuPdma) fun s' => KeepsConfig s s' ∧
        s'.sgtbls.want ch 0#32 = (s.sgtbls.free ch).want ch 0#32 := by
    have hsame : (s.sgtbls.table ch).getD [] = [] →
        s.sgtbls.want ch 0#32 = (s.sgtbls.free ch).want ch 0#32 := by
      intro h
      rw [Sgtbls.free_eq_want h, Sgtbls.want_want]
    refine .ite (fun _ => (_nuPdmaFreeSgtbls_returns hassert hok ch).mono ?_) fun hz => ?_
    · rintro s' ⟨hconfig, hnone, hsome⟩
      refine ⟨hconfig, ?_⟩
      rcases htable : s.sgtbls.table ch with _ | ps
      · rw [hnone htable]
        exact hsame (by rw [htable]; rfl)
      · rw [hsome (by simp [htable])]
    · refine ⟨.refl, hsame ?_⟩
      rcases htable : s.sgtbls.table ch with _ | ps
      · rfl
      · have hlen := hok.length htable
        have hzero : ¬ 0 < (s.sgtbls.wanted ch).toNat := hz
        have hnil : ps = [] := List.eq_nil_of_length_eq_zero (by omega)
        rw [hnil]
        rfl
  refine .bind hfree ?_
  rintro s₁ ⟨hconfig, hwant⟩
  have hlive : s₁.sgtbls.live = (s.sgtbls.free ch).live := congrArg (·.live) hwant
  refine .ite (fun hfull => .pure ⟨hconfig.trans (.setChn rfl), .noRoom (by simpa using hfull) hne ?_⟩)
    fun _ => ?_
  · refine (sgtbls_update s₁ ch _ s₁.heap).trans ?_
    rw [← Sgtbls.want_want (s.sgtbls.free ch) ch 0#32, ← hwant, Sgtbls.want_want]
    rfl
  · refine .bind (nuPdmaSgtblsAllocate_returns hassert mal wanted.toNat s₁.heap) ?_
    rintro ⟨ps, h'⟩ ⟨hlen, hnodup, hfresh, hlive'⟩
    have hfits := wanted.isLt
    have hlen : ps.length = wanted.toNat := hlen
    have hnew : (s.sgtbls.free ch).Fresh ps := by
      refine ⟨hnodup, fun a ha => (hfresh a ha).1, ?_, by omega, by omega⟩
      intro a ha hin
      rw [← hlive] at hin
      have hnone := (hfresh a ha).2
      have hsome : (s₁.heap a).isSome := hin
      rw [hnone] at hsome
      cases hsome
    refine .pure ⟨hconfig.trans (.setChn rfl), .granted hnew hlen ?_⟩
    rw [sgtbls_update, ← Sgtbls.grant_want (s.sgtbls.free ch) ch 0#32, ← hwant, Sgtbls.grant_want]
    simp only [Sgtbls.grant, Sgtbls.mk.injEq, true_and]
    refine ⟨?_, ?_⟩
    · rw [hlen, BitVec.ofNat_toNat, BitVec.setWidth_eq]
    · ext a
      exact hlive' a

/-! ## Transfers -/

/-- What a transfer does to the tables; a table is missing only where that is said to happen. -/
inductive TransferEffect (missing : Prop) (t t' : Sgtbls) (ch : Nat) : Prop
  | same : t' = t → TransferEffect missing t t' ch
  | freed : t' = t.free ch → TransferEffect missing t t' ch
  | granted {ps : List (BitVec 32)} : (t.free ch).Fresh ps → t' = (t.free ch).grant ch ps →
    TransferEffect missing t t' ch
  | wants {n : BitVec 32} : missing → n ≠ 0#32 → t' = (t.free ch).want ch n →
    TransferEffect missing t t' ch

theorem TransferEffect.mono {missing missing' : Prop} {t t' : Sgtbls} {ch : Nat}
    (h : TransferEffect missing t t' ch) (hm : missing → missing') :
    TransferEffect missing' t t' ch := by
  cases h with
  | same heq => exact .same heq
  | freed heq => exact .freed heq
  | granted hfresh heq => exact .granted hfresh heq
  | wants hmissing hn heq => exact .wants (hm hmissing) hn heq

/-- A transfer that allocates a table: one over a chain of another length than the channel's. -/
def NeedsTable (s : NuPdma) (i32ChannID u32TransferCnt : BitVec 32) : Prop :=
  nuPdmaCheckIsNonallocated s i32ChannID = .ok false ∧ NU_PDMA_MAX_TXCNT < u32TransferCnt ∧
    (s.nuPdmaChnArr i32ChannID.toNat).m_u32WantedSGTblNum ≠
      u32TransferCnt / NU_PDMA_MAX_TXCNT + 1#32

/-- What a transfer started on a channel has the engine do, with both addresses stepping. -/
def StartsCopy (s s' : NuPdma) (c w sa da cnt : BitVec 32) : Prop :=
  (s.nuPdmaChnArr c.toNat).m_eMemCtl = .srcIncDstInc → ∀ b, ∃ b', engineRun s' c.toNat b = some b' ∧
    ValidWidth w ∧ b' = b.moveElements (w.toNat / 8) sa da (w.toNat / 8) (w.toNat / 8)
      (movedCount cnt.toNat)

/-- The table that a channel has for a transfer over a chain, which programs `n` elements. -/
def ChainBuilt (s s' : NuPdma) (c w sa da : BitVec 32) (n : Nat) : Prop :=
  ∃ ps, (s'.nuPdmaChnArr c.toNat).m_ppsSgtbl = some ps ∧
    TableMoves s'.heap (s.nuPdmaChnArr c.toNat).m_eMemCtl w ps sa da n

/-- Descriptors that were granted and given back leave no trace. -/
theorem Sgtbls.free_grant {t : Sgtbls} {ch : Nat} (h : (t.free ch).Fresh ps) :
    ((t.free ch).grant ch ps).free ch = t.free ch := by
  have htable : ((t.free ch).grant ch ps).table ch = some ps := Function.update_self ..
  have hlive : {a | a ∈ ((t.free ch).grant ch ps).live ∧ a ∉ ps} = (t.free ch).live := by
    ext a
    constructor
    · rintro ⟨hold | hps, hnot⟩
      · exact hold
      · exact absurd hps hnot
    · exact fun hold => ⟨.inl hold, fun hps => h.fresh a hps hold⟩
  rw [Sgtbls.free, htable, Option.getD_some, hlive]
  simp only [Sgtbls.grant, Sgtbls.free, Function.update_idem]

/-- A chain over the table of a channel: filled and started, or the table given back. -/
theorem chain_returns (hassert : A .rtAssert) (hok : SgtblsOk s.sgtbls)
    (htable : (s.nuPdmaChnArr c.toNat).m_ppsSgtbl = some ps) {wanted : Nat}
    (hwanted : wanted = cnt.toNat / 65536 + 1) (hlen : wanted = ps.length)
    (hcnt : 65536 < cnt.toNat) (t : BitVec 32) :
    Returns A (do
      let (ret, s) ← _nuPdmaTransferChainLoop c w sa da m wanted 0 cnt 0#32 s
      if ret ≠ RT_EOK then
        return (-ret, ← _nuPdmaFreeSgtbls s c.toNat)
      let head ← (s.nuPdmaChnArr c.toNat).sgtbl 0
      let s ← _nuPdmaTransfer s c (.mem head) t
      return (RT_EOK, s)) fun r =>
      (r.2.sgtbls = s.sgtbls ∨ r.2.sgtbls = s.sgtbls.free c.toNat) ∧
      (r.1 = RT_EOK → r.2.nuPdmaChnMaskArr = s.nuPdmaChnMaskArr ∧
        (m = (s.nuPdmaChnArr c.toNat).m_eMemCtl → StartsCopy s r.2 c w sa da cnt ∧
          ChainBuilt s r.2 c w sa da (movedCount cnt.toNat))) := by
  have hheld : s.sgtbls.owners.held c.toNat = ps := congrArg (·.getD []) htable
  have hlive : ∀ a ∈ ps, (s.heap a).isSome := by
    intro a ha
    rw [← hheld] at ha
    exact hok.exclusive.live ha
  have hnodup : ps.Nodup := by
    rw [← hheld]
    exact hok.exclusive.nodup _
  refine .bind (_nuPdmaTransferChainLoop_returns hassert hnodup
    (fun a => hok.ne_zero htable) wanted htable hlive (by omega)) ?_
  rintro ⟨ret, s₁⟩ ⟨hkeeps, -, hchain⟩
  refine .ite (fun hret => ?_) fun hret => ?_
  · have hok₁ : SgtblsOk s₁.sgtbls := by
      rw [hkeeps.sgtbls]
      exact hok
    refine .bind (_nuPdmaFreeSgtbls_returns hassert hok₁ c.toNat) ?_
    rintro s₂ ⟨-, -, hfreed⟩
    refine .pure ⟨.inr ?_, fun h => absurd (neg_eq_zero.1 h) hret⟩
    rw [hfreed, hkeeps.sgtbls]
    rw [hkeeps.sgtbls]
    exact fun h => absurd (htable.symm.trans h) (by simp)
  · have htable₁ : (s₁.nuPdmaChnArr c.toNat).m_ppsSgtbl = some ps := (hkeeps.table _).trans htable
    have hpos : 0 < ps.length := by omega
    have hfilled : ∃ d, s₁.heap ps[0] = some d := by
      have hin : ps[0] ∈ s₁.sgtbls.live := by
        rw [hkeeps.sgtbls]
        exact hlive _ (List.getElem_mem hpos)
      exact Option.isSome_iff_exists.1 hin
    obtain ⟨d, hd⟩ := hfilled
    simp only [sgtbl_eq_ok htable₁ hpos, ok_bind]
    refine .bind (_nuPdmaTransfer_mem_returns hassert hd t) ?_
    rintro s₂ ⟨hkeeps₂, hheap₂, hrun⟩
    refine .pure ⟨.inl (hkeeps₂.sgtbls.trans hkeeps.sgtbls), fun _ =>
      ⟨hkeeps₂.mask.trans hkeeps.mask, fun hm => ?_⟩⟩
    obtain ⟨hw, hmoves⟩ := hchain (not_not.1 hret) hm.symm (by omega)
    have hmoved : (if cnt.toNat % 65536 = 0 then cnt.toNat + 65536 else cnt.toNat) =
        movedCount cnt.toNat := by
      rw [movedCount]
      simp only [hcnt, true_and]
    rw [List.drop_zero, BitVec.add_zero, BitVec.add_zero, ite_self, ite_self, hmoved] at hmoves
    have hhead : ps.head? = some ps[0] := by
      rw [List.head?_eq_getElem?]
      exact List.getElem?_eq_getElem hpos
    refine ⟨fun hinc b => ?_, ps, (hkeeps₂.table _).trans htable₁, ?_⟩
    · rw [hm.trans hinc] at hmoves
      have hch := hmoves.chained hw (fun a => hok.ne_zero htable) hhead
      obtain ⟨d', hd', hnext⟩ := hch.head
      obtain rfl : d = d' := Option.some.inj (hd.symm.trans hd')
      refine ⟨_, (hrun (hnext (by omega)) b).trans (hch.run chainLimit b ?_), hch.width, rfl⟩
      have hlt := cnt.isLt
      rw [chainLimit]
      omega
    · rw [hheap₂, ← hm]
      exact hmoves

/-- A transfer over a chain. An access through a null table is possible only where the channel wants
a table that it has not. -/
theorem _nuPdmaTransferChain_returns (hassert : A .rtAssert) (hok : SgtblsOk s.sgtbls)
    (hnull : s.sgtbls.table c.toNat = none → s.sgtbls.wanted c.toNat ≠ 0#32 → A .nullDeref)
    (mal : Malloc) (hcnt : 65536 < cnt.toNat) (t : BitVec 32)
    (halloc : nuPdmaCheckIsNonallocated s c = .ok false) :
    Returns A (_nuPdmaTransferChain mal s c w sa da cnt t) fun r =>
      TransferEffect (mal.table = false ∧ NeedsTable s c cnt) s.sgtbls r.2.sgtbls c.toNat ∧
      (r.1 = RT_EOK → r.2.nuPdmaChnMaskArr = s.nuPdmaChnMaskArr ∧ StartsCopy s r.2 c w sa da cnt ∧
        ChainBuilt s r.2 c w sa da (movedCount cnt.toNat)) := by
  have hmem : nuPdmaChannelMemctrlGet s c = .ok (s.nuPdmaChnArr c.toNat).m_eMemCtl := by
    rw [nuPdmaChannelMemctrlGet, halloc]
    rfl
  have hwanted : (cnt / NU_PDMA_MAX_TXCNT + 1#32).toNat = cnt.toNat / 65536 + 1 := by
    have hlt := cnt.isLt
    rw [BitVec.toNat_add, BitVec.toNat_udiv, show NU_PDMA_MAX_TXCNT.toNat = 65536 from rfl,
      BitVec.toNat_ofNat]
    omega
  have hnz : cnt / NU_PDMA_MAX_TXCNT + 1#32 ≠ 0#32 := by
    intro hz
    rw [hz] at hwanted
    exact absurd hwanted (by simp)
  simp only [_nuPdmaTransferChain, hmem, ok_bind]
  refine .bind (_nuPdmaTransferChainTable_returns hassert hok mal c.toNat (by omega)) ?_
  rintro ⟨ret, s₁⟩ ⟨hconfig, hend⟩
  cases hend with
  | noRoom hroom hne hwant =>
    have hok₁ : SgtblsOk s₁.sgtbls := by
      rw [hwant]
      exact (hok.free _).want _ _
    have hnone : s₁.sgtbls.table c.toNat = none := by
      rw [hwant]
      exact Function.update_self ..
    have herr : RT_ERROR ≠ RT_EOK := by decide
    refine .ite (fun _ => ?_) (fun h => absurd herr h)
    refine .bind (_nuPdmaFreeSgtbls_returns hassert hok₁ c.toNat) ?_
    rintro s₂ ⟨-, hsame, -⟩
    rw [hsame hnone]
    exact .pure ⟨.wants ⟨hroom, halloc, hcnt, hne⟩ hnz hwant, fun h => absurd (neg_eq_zero.1 h) herr⟩
  | kept hw hs =>
    obtain rfl : s₁ = s := hs
    refine .ite (fun h => absurd rfl h) fun _ => ?_
    rcases htable : (s₁.nuPdmaChnArr c.toNat).m_ppsSgtbl with _ | ps
    · -- the first access to the table is through a null pointer
      have hdead : ∀ {i off}, _nuPdmaTransferChainLoop c w sa da
          (s₁.nuPdmaChnArr c.toNat).m_eMemCtl (cnt.toNat / 65536 + 1) i cnt off s₁ =
            .error .nullDeref := by
        intro i off
        rw [_nuPdmaTransferChainLoop, NuPdmaChn.sgtbl, htable]
        rfl
      rw [hwanted, hdead]
      exact hnull htable (fun hz => hnz (hw.symm.trans hz))
    · refine (chain_returns hassert hok htable hwanted ?_ hcnt t).mono ?_
      · rw [← hw]
        exact (hok.length htable).symm
      · rintro r ⟨hsg, hcopy⟩
        refine ⟨?_, fun h => ⟨(hcopy h).1, (hcopy h).2 rfl⟩⟩
        rcases hsg with hsg | hsg
        · exact .same hsg
        · exact .freed hsg
  | @granted ps hfresh hlen hgrant =>
    have hok₁ : SgtblsOk s₁.sgtbls := by
      rw [hgrant]
      exact (hok.free _).grant hfresh _
    have htable : (s₁.nuPdmaChnArr c.toNat).m_ppsSgtbl = some ps := by
      change s₁.sgtbls.table c.toNat = some ps
      rw [hgrant]
      exact Function.update_self ..
    refine .ite (fun h => absurd rfl h) fun _ => ?_
    refine (chain_returns hassert hok₁ htable hwanted hlen.symm hcnt t).mono ?_
    rintro r ⟨hsg, hcopy⟩
    refine ⟨?_, fun h => ⟨(hcopy h).1.trans hconfig.mask, ?_⟩⟩
    · rcases hsg with hsg | hsg
      · exact .granted hfresh (hsg.trans hgrant)
      · refine .freed ?_
        rw [hsg, hgrant, Sgtbls.free_grant hfresh]
    · obtain ⟨hstarts, hbuilt⟩ := (hcopy h).2 (hconfig.memCtl _).symm
      refine ⟨fun hinc => hstarts ((hconfig.memCtl _).trans hinc), ?_⟩
      rw [ChainBuilt, hconfig.memCtl] at hbuilt
      exact hbuilt

/-- A transfer. -/
theorem nuPdmaTransfer_returns (hassert : A .rtAssert) (hok : SgtblsOk s.sgtbls)
    (hnull : s.sgtbls.table c.toNat = none → s.sgtbls.wanted c.toNat ≠ 0#32 → A .nullDeref)
    (mal : Malloc) (t : BitVec 32) :
    Returns A (nuPdmaTransfer mal s c w sa da cnt t) fun r =>
      TransferEffect (mal.table = false ∧ NeedsTable s c cnt) s.sgtbls r.2.sgtbls c.toNat ∧
      (r.1 = RT_EOK → nuPdmaCheckIsNonallocated s c = .ok false ∧
        r.2.nuPdmaChnMaskArr = s.nuPdmaChnMaskArr ∧ StartsCopy s r.2 c w sa da cnt) := by
  have hmax : NU_PDMA_MAX_TXCNT.toNat = 65536 := rfl
  have hfail : TransferEffect (mal.table = false ∧ NeedsTable s c cnt) s.sgtbls s.sgtbls c.toNat ∧
      ((-RT_EINVAL : Int) = RT_EOK → nuPdmaCheckIsNonallocated s c = .ok false ∧
        s.nuPdmaChnMaskArr = s.nuPdmaChnMaskArr ∧ StartsCopy s s c w sa da cnt) :=
    ⟨.same rfl, fun h => absurd h (by decide)⟩
  refine returns_check hassert fun b hb => .ite (fun _ => .pure hfail) fun hfalse =>
    .ite (fun _ => .pure hfail) fun hz => ?_
  have halloc : nuPdmaCheckIsNonallocated s c = .ok false := by
    rw [hb]
    cases b with
    | true => exact absurd rfl hfalse
    | false => rfl
  refine .ite (fun hlong => ?_) fun hshort => ?_
  · refine (_nuPdmaTransferChain_returns hassert hok hnull mal hlong t halloc).mono ?_
    rintro r ⟨heff, hcopy⟩
    exact ⟨heff, fun h => ⟨halloc, (hcopy h).1, (hcopy h).2.1⟩⟩
  · refine .bind (nuPdmaDescSetup_reg_returns hassert c.toNat) ?_
    rintro ⟨ret, s₁⟩ ⟨hkeeps, hfilled⟩
    refine .ite (fun hret => .pure ⟨.same hkeeps.sgtbls, fun h => absurd (neg_eq_zero.1 h) hret⟩)
      fun hret => ?_
    obtain ⟨hw, hd⟩ := hfilled (not_not.1 hret)
    have hd' : s₁.DSCT c.toNat = _ := hd
    refine .bind (_nuPdmaTransfer_reg_returns hassert (by rw [hd']; rfl)
      (by rw [hd', descFields_opmode _ _ _ _ _ _ _ hw]; rfl) t) ?_
    rintro s₂ ⟨hkeeps₂, hrun⟩
    refine .pure ⟨.same (hkeeps₂.sgtbls.trans hkeeps.sgtbls), fun _ =>
      ⟨halloc, hkeeps₂.mask.trans hkeeps.mask, fun hinc b => ⟨_, hrun b, hw, ?_⟩⟩⟩
    rw [hd', descFields_run hw, hinc]
    have hmoved : (cnt - 1#32).toNat % 2 ^ 16 + 1 = movedCount cnt.toNat := by
      have hle : ¬ 65536 < cnt.toNat := hshort
      have hpos : cnt.toNat ≠ 0 := fun h => hz (BitVec.eq_of_toNat_eq h)
      rw [movedCount, if_neg (fun h => hle h.1), BitVec.toNat_sub, BitVec.toNat_ofNat]
      omega
    rw [hmoved]
    rfl

/-- A transfer keeps the tables in order, whether or not there is room for the one it needs. -/
theorem SgtblsOk.transfer {missing : Prop} {t t' : Sgtbls} {ch : Nat} (h : SgtblsOk t)
    (he : TransferEffect missing t t' ch) : SgtblsOk t' := by
  cases he with
  | same heq =>
    rw [heq]
    exact h
  | freed heq =>
    rw [heq]
    exact h.free ch
  | granted hfresh heq =>
    rw [heq]
    exact (h.free ch).grant hfresh ch
  | wants _ _ heq =>
    rw [heq]
    exact (h.free ch).want ch _

/-- A transfer keeps the invariant when no table is missing. -/
theorem SgtblsInv.transfer {missing : Prop} {t t' : Sgtbls} {ch : Nat} (h : SgtblsInv t)
    (hroom : ¬ missing) (he : TransferEffect missing t t' ch) : SgtblsInv t' := by
  cases he with
  | same heq =>
    rw [heq]
    exact h
  | freed heq =>
    rw [heq]
    exact h.free ch
  | granted hfresh heq =>
    rw [heq]
    exact (h.free ch).grant hfresh (Function.update_self ..)
  | wants hmissing => exact absurd hmissing hroom

end

end NumakerMA35D1.Pdma

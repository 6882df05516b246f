import NumakerMA35D1.Pdma.SgtblRun

/-!
# Tables built for a transfer

`_nuPdmaTransferChain` fills the channel's table with a descriptor for each `NU_PDMA_MAX_TXCNT`
elements and one for the rest. Where nothing is left for the last one, its count of zero is encoded
as a full one, so the table programs the elements asked for exactly when their number is no multiple
of `NU_PDMA_MAX_TXCNT`: `chainBuilt_iff`.
-/

namespace NumakerMA35D1.Pdma

open Embedded

section

variable {s s' : NuPdma} {c w sa da cnt t : BitVec 32} {m : Malloc} {ops : List Op}

/-- A descriptor is set up for an allocated channel only. -/
theorem nuPdmaDescSetup_allocated {s₁ : NuPdma} {p : NuPdmaDesc} {next : BitVec 32} {silent : Bool}
    (hmask : s₁.nuPdmaChnMaskArr = s.nuPdmaChnMaskArr) :
    Returns (fun _ => True) (nuPdmaDescSetup s₁ c p w sa da cnt next silent) fun r =>
      r.1 = RT_EOK → nuPdmaCheckIsNonallocated s c = .ok false := by
  have hfail : ∀ s₂ : NuPdma, Returns (fun _ : Halt => True)
      (pure (-RT_EINVAL, s₂) : Except Halt (Int × NuPdma))
      fun r => r.1 = RT_EOK → nuPdmaCheckIsNonallocated s c = .ok false :=
    fun _ => .pure fun h => absurd h (show ¬ (-RT_EINVAL = RT_EOK) by decide)
  refine .ite (fun _ => hfail _) fun _ => returns_check trivial fun b hb =>
    .ite (fun _ => hfail _) fun hfalse => ?_
  -- the channel is allocated, whatever the other tests say
  have halloc : nuPdmaCheckIsNonallocated s c = .ok false := by
    rw [← check_congr hmask, hb]
    cases b with
    | true => exact absurd rfl hfalse
    | false => rfl
  refine Returns.mono (P := fun _ => True) ?_ fun _ _ _ => halloc
  unfold Returns
  split <;> trivial

/-- A table is built for an allocated channel only. -/
theorem chain_allocated (hok : SgtblsOk s.sgtbls)
    (h : _nuPdmaTransferChain m s c w sa da cnt t = .ok (RT_EOK, s')) :
    nuPdmaCheckIsNonallocated s c = .ok false := by
  have hwanted : (cnt / NU_PDMA_MAX_TXCNT + 1#32).toNat = cnt.toNat / 65536 + 1 := by
    have hlt := cnt.isLt
    rw [BitVec.toNat_add, BitVec.toNat_udiv, show NU_PDMA_MAX_TXCNT.toNat = 65536 from rfl,
      BitVec.toNat_ofNat]
    omega
  obtain ⟨eMemCtl, -, h⟩ := bind_eq_ok.1 h
  obtain ⟨⟨ret, s₁⟩, htable, h⟩ := bind_eq_ok.1 h
  have hmask := ((_nuPdmaTransferChainTable_returns (A := fun _ => True) trivial hok m c.toNat
    (by omega)).of_ok htable).1.mask
  dsimp only at h
  split at h
  · next hret =>
    obtain ⟨_, -, h⟩ := bind_eq_ok.1 h
    have hzero : -ret = RT_EOK := congrArg Prod.fst (Except.ok.inj h)
    exact absurd (neg_eq_zero.1 hzero) hret
  · obtain ⟨⟨ret', s₂⟩, hloop, h⟩ := bind_eq_ok.1 h
    have hret' : ret' = RT_EOK := by
      by_contra hne
      dsimp only at h
      rw [if_pos hne] at h
      obtain ⟨_, -, h⟩ := bind_eq_ok.1 h
      have hzero : -ret' = RT_EOK := congrArg Prod.fst (Except.ok.inj h)
      exact hne (neg_eq_zero.1 hzero)
    -- the first descriptor was set up
    rw [hwanted, _nuPdmaTransferChainLoop] at hloop
    obtain ⟨a, -, hloop⟩ := bind_eq_ok.1 hloop
    obtain ⟨next, -, hloop⟩ := bind_eq_ok.1 hloop
    obtain ⟨⟨ret'', s₃⟩, hsetup, hloop⟩ := bind_eq_ok.1 hloop
    refine (nuPdmaDescSetup_allocated hmask).of_ok hsetup ?_
    by_contra hne
    dsimp only at hloop
    rw [if_pos hne] at hloop
    cases hloop
    exact hne hret'

/-- The elements that a table built for `cnt` of them programs. -/
theorem chainBuilt_moved (h : Run step NuPdma.reset ops s) (hcnt : NU_PDMA_MAX_TXCNT < cnt)
    (hchain : _nuPdmaTransferChain m s c w sa da cnt t = .ok (RT_EOK, s')) :
    ChainBuilt s s' c w sa da (movedCount cnt.toNat) := by
  have hok : SgtblsOk s.sgtbls :=
    h.invariant (I := fun s => SgtblsOk s.sgtbls) sgtblsOk_step sgtblsInv_reset.toSgtblsOk
  have hreturns : Returns (fun _ => True) (_nuPdmaTransferChain m s c w sa da cnt t) _ :=
    _nuPdmaTransferChain_returns trivial hok (fun _ _ => trivial) m hcnt t
      (chain_allocated hok hchain)
  exact ((hreturns.of_ok hchain).2 rfl).2.2

theorem ChainBuilt.unique {n n' : Nat} (h : ChainBuilt s s' c w sa da n)
    (h' : ChainBuilt s s' c w sa da n') : n = n' := by
  obtain ⟨ps, htable, hmoves⟩ := h
  obtain ⟨ps', htable', hmoves'⟩ := h'
  obtain rfl := Option.some.inj (htable.symm.trans htable')
  exact hmoves.unique hmoves'

/-- In every state of the driver, whatever the address control of the channel, a table built for more
than `NU_PDMA_MAX_TXCNT` elements programs exactly these, one range after another, exactly when their
number is no multiple of `NU_PDMA_MAX_TXCNT`. -/
theorem chainBuilt_iff (m : Malloc) (c w sa da cnt t : BitVec 32)
    (h : Run step NuPdma.reset ops s) (hcnt : NU_PDMA_MAX_TXCNT < cnt)
    (hchain : _nuPdmaTransferChain m s c w sa da cnt t = .ok (RT_EOK, s')) :
    ChainBuilt s s' c w sa da cnt.toNat ↔ cnt.toNat % NU_PDMA_MAX_TXCNT.toNat ≠ 0 := by
  have hmoved := chainBuilt_moved h hcnt hchain
  have hlong : 65536 < cnt.toNat := hcnt
  rw [show NU_PDMA_MAX_TXCNT.toNat = 65536 from rfl]
  constructor
  · intro hbuilt hzero
    have hsame := hbuilt.unique hmoved
    rw [movedCount, if_pos ⟨hlong, hzero⟩] at hsame
    omega
  · intro hrest
    rwa [movedCount, if_neg fun hboth => hrest hboth.2] at hmoved

/-- The driver with channel 0 allocated for memory transfers. -/
theorem run_allocate : Run step NuPdma.reset [.allocate PDMA_MEM]
    (ran NuPdma.reset (.allocate PDMA_MEM)) := .snoc .nil (step_ran rfl)

/-- 65537 bytes go over two descriptors. -/
theorem chainBuilt_iff_two : ∃ s',
    _nuPdmaTransferChain (.ofList true [64#32, 128#32]) (ran NuPdma.reset (.allocate PDMA_MEM)) 0#32
      8#32 0x1000#32 0x80001000#32 0x10001#32 0#32 = .ok (RT_EOK, s') ∧
    (ChainBuilt (ran NuPdma.reset (.allocate PDMA_MEM)) s' 0#32 8#32 0x1000#32 0x80001000#32
        (0x10001#32).toNat ↔ (0x10001#32).toNat % NU_PDMA_MAX_TXCNT.toNat ≠ 0) :=
  ⟨_, rfl, chainBuilt_iff (.ofList true [64#32, 128#32]) 0#32 8#32 0x1000#32 0x80001000#32
    0x10001#32 0#32 (.snoc .nil (@step_ran _ (.allocate PDMA_MEM) rfl)) (by decide) rfl⟩

/-- The table for 131072 bytes programs 196608. -/
theorem not_chainBuilt :
    ¬ ∀ (ops : List Op) (s s' : NuPdma) (m : Malloc) (c w sa da cnt t : BitVec 32),
      Run step NuPdma.reset ops s → NU_PDMA_MAX_TXCNT < cnt →
      _nuPdmaTransferChain m s c w sa da cnt t = .ok (RT_EOK, s') →
      ChainBuilt s s' c w sa da cnt.toNat := by
  intro h
  obtain ⟨s', hchain⟩ : ∃ s', _nuPdmaTransferChain (.ofList true [64#32, 128#32, 192#32])
      (ran NuPdma.reset (.allocate PDMA_MEM)) 0#32 8#32 0x1000#32 0x80001000#32 0x20000#32 0#32 =
        .ok (RT_EOK, s') := ⟨_, rfl⟩
  have hbuilt := h _ _ _ _ _ _ _ _ _ _ run_allocate (by decide) hchain
  have hmoved := chainBuilt_moved run_allocate (by decide) hchain
  exact absurd (hbuilt.unique hmoved) (by decide)

end

end NumakerMA35D1.Pdma

import NumakerMA35D1.Pdma.Effects
import NumakerMA35D1.Pdma.Isr

/-!
# Calls that leave the channels' users alone

`SameUse s s'`: the channels in use and their event callbacks are as before. Every call on a channel
keeps them but an allocation, a free and the registration of an event callback, the transfer included
(`nuPdmaTransfer_sameUse`). What a call on a channel keeps is proved once for every relation that
allows what such calls do (`ChannelRel`).

Reference: `drv_pdma.c`.
-/

namespace NumakerMA35D1.Pdma

open Embedded

/-- The channels in use and their event callbacks are as before. -/
structure SameUse (s s' : NuPdma) : Prop where
  inited : s'.nuPdmaInited = s.nuPdmaInited
  mask : s'.nuPdmaChnMaskArr = s.nuPdmaChnMaskArr
  event : ∀ ch, (s'.nuPdmaChnArr ch).m_sCB_Event = (s.nuPdmaChnArr ch).m_sCB_Event

section

variable {s s' s'' : NuPdma} {ch : Nat} {r : NuPdmaChn} {c w sa da cnt next t : BitVec 32}

namespace SameUse

theorem refl : SameUse s s := ⟨rfl, rfl, fun _ => rfl⟩

theorem trans (h : SameUse s s') (h' : SameUse s' s'') : SameUse s s'' where
  inited := h'.inited.trans h.inited
  mask := h'.mask.trans h.mask
  event ch := (h'.event ch).trans (h.event ch)

theorem setChn (h : r.m_sCB_Event = (s.nuPdmaChnArr ch).m_sCB_Event) :
    SameUse s (s.setChn ch r) where
  inited := rfl
  mask := rfl
  event c := by
    rw [NuPdma.nuPdmaChnArr_setChn]
    split
    · next hc => rw [h, hc]
    · rfl

theorem setDSCT (s : NuPdma) (ch : Nat) (d : Dsct) : SameUse s (s.setDSCT ch d) :=
  ⟨rfl, rfl, fun _ => rfl⟩

end SameUse

theorem returns_true {β : Type} (x : Except Halt β) : Returns (fun _ => True) x fun _ => True := by
  cases x with
  | error e => exact trivial
  | ok a => exact trivial

/-! ## What calls on one channel keep -/

/-- A relation that holds whatever a call does to the descriptors and to the record of one channel, as
long as it leaves the event callback and its filter alone. -/
structure ChannelRel (ch : Nat) (R : NuPdma → NuPdma → Prop) : Prop where
  refl : ∀ {s}, R s s
  trans : ∀ {s s' s''}, R s s' → R s' s'' → R s s''
  setChn : ∀ {s r} mem, r.m_sCB_Event = (s.nuPdmaChnArr ch).m_sCB_Event →
    r.m_u32EventFilter = (s.nuPdmaChnArr ch).m_u32EventFilter →
    R s { s.setChn ch r with heap := mem }
  setDSCT : ∀ s ch' d, R s (s.setDSCT ch' d)
  heap : ∀ s mem, R s { s with heap := mem }

/-- The state after a call that returns is in a relation to the one before. -/
def Keeping {β : Type} (R : NuPdma → NuPdma → Prop) (s : NuPdma) (x : Except Halt β)
    (after : β → NuPdma) : Prop :=
  Returns (fun _ => True) x fun r => R s (after r)

namespace ChannelRel

variable {R : NuPdma → NuPdma → Prop}

theorem timeoutSet (h : ChannelRel c.toNat R) : Keeping R s (nuPdmaTimeoutSet s c t) (·.2) :=
  returns_check trivial fun _ _ => .ite (fun _ => .pure h.refl) fun _ => .pure (h.setChn _ rfl rfl)

theorem terminate (h : ChannelRel c.toNat R) : Keeping R s (nuPdmaChannelTerminate s c) id :=
  returns_check trivial fun _ _ => .ite (fun _ => .pure h.refl) fun _ =>
    .bind h.timeoutSet fun _ hr => .pure (h.trans hr (h.setDSCT ..))

theorem memctrlSet (h : ChannelRel c.toNat R) (m : NuPdmaMemctrl) :
    Keeping R s (nuPdmaChannelMemctrlSet s c m) (·.2) :=
  returns_check trivial fun _ _ => .ite (fun _ => .pure h.refl) fun _ =>
    .ite (fun _ => .pure h.refl) fun _ => .ite (fun _ => .pure h.refl) fun _ =>
      .pure (h.setChn _ rfl rfl)

theorem store (h : ChannelRel ch R) (p : NuPdmaDesc) (d : Dsct) : Keeping R s (s.store p d) id := by
  unfold NuPdma.store
  split
  · exact h.setDSCT ..
  · split
    · exact trivial
    · exact h.heap ..

theorem descSetup (h : ChannelRel ch R) (p : NuPdmaDesc) (silent : Bool) :
    Keeping R s (nuPdmaDescSetup s c p w sa da cnt next silent) (·.2) :=
  .ite (fun _ => .pure h.refl) fun _ => returns_check trivial fun _ _ =>
    .ite (fun _ => .pure h.refl) fun _ => .ite (fun _ => .pure h.refl) fun _ =>
    .ite (fun _ => .pure h.refl) fun _ => .ite (fun _ => .pure h.refl) fun _ =>
    .bind (h.store ..) fun _ hr => .pure hr

theorem freeSgtbls (h : ChannelRel ch R) : Keeping R s (_nuPdmaFreeSgtbls s ch) id := by
  unfold _nuPdmaFreeSgtbls
  dsimp only
  split
  · exact h.refl
  · refine .bind (returns_true _) fun mem _ => .pure ?_
    exact h.setChn mem rfl rfl

theorem transferChainTable (h : ChannelRel ch R) (m : Malloc) (wanted : BitVec 32) :
    Keeping R s (_nuPdmaTransferChainTable m s ch wanted) (·.2) := by
  refine .ite (fun _ => .pure h.refl) fun _ => .bind (P := R s) ?_ fun s' hfreed => ?_
  · exact .ite (fun _ => h.freeSgtbls) fun _ => .pure h.refl
  · refine .ite (fun _ => .pure (h.trans hfreed (h.setChn _ rfl rfl))) fun _ => ?_
    refine .bind (returns_true _) fun p _ => .pure ?_
    exact h.trans hfreed (h.setChn p.2 rfl rfl)

theorem transferChainLoop (h : ChannelRel c.toNat R) (m : NuPdmaMemctrl) (left i : Nat)
    {cnt off : BitVec 32} :
    Keeping R s (_nuPdmaTransferChainLoop c w sa da m left i cnt off s) (·.2) := by
  induction left generalizing i cnt off s with
  | zero => exact h.refl
  | succ left ih =>
    rw [_nuPdmaTransferChainLoop]
    refine .bind (returns_true _) fun desc _ => .bind (returns_true _) fun next _ => ?_
    refine .bind (h.descSetup _ _) fun r hr => ?_
    exact .ite (fun _ => .pure hr) fun _ => (ih _).mono fun _ hrest => h.trans hr hrest

theorem transferStart (h : ChannelRel c.toNat R) (p : NuPdmaDesc) :
    Keeping R s (_nuPdmaTransfer s c p t) id := by
  refine .bind (returns_true _) fun d _ => .bind h.timeoutSet fun r hr => .pure ?_
  refine h.trans ?_ hr
  unfold pdmaSetTransferMode
  split
  · exact h.setDSCT ..
  · exact h.setDSCT ..

theorem transferChain (h : ChannelRel c.toNat R) (m : Malloc) :
    Keeping R s (_nuPdmaTransferChain m s c w sa da cnt t) (·.2) := by
  refine .bind (returns_true _) fun eMemCtl _ => .bind (h.transferChainTable m _) fun r hr => ?_
  have hexit : ∀ {s' : NuPdma} (ret : Int), R s s' → Keeping R s
      (do return (ret, ← _nuPdmaFreeSgtbls s' c.toNat) : Except Halt (Int × NuPdma)) (·.2) :=
    fun ret hr => .bind h.freeSgtbls fun _ hr' => .pure (h.trans hr hr')
  refine .ite (fun _ => hexit _ hr) fun _ => ?_
  refine .bind (h.transferChainLoop _ _ _) fun r' hr' => ?_
  refine .ite (fun _ => hexit _ (h.trans hr hr')) fun _ => .bind (returns_true _) fun head _ => ?_
  exact .bind (h.transferStart _) fun _ hr'' => .pure (h.trans (h.trans hr hr') hr'')

theorem transfer (h : ChannelRel c.toNat R) (m : Malloc) :
    Keeping R s (nuPdmaTransfer m s c w sa da cnt t) (·.2) := by
  refine returns_check trivial fun _ _ => .ite (fun _ => .pure h.refl) fun _ =>
    .ite (fun _ => .pure h.refl) fun _ => .ite (fun _ => ?_) fun _ => ?_
  · exact h.transferChain m
  · refine .bind (h.descSetup _ _) fun r hr => .ite (fun _ => .pure hr) fun _ => ?_
    exact .bind (h.transferStart _) fun _ hr' => .pure (h.trans hr hr')

end ChannelRel

/-! ## The users of the channels -/

/-- The call keeps the users of the channels, if it returns. -/
def KeepsUse {β : Type} (s : NuPdma) (x : Except Halt β) (after : β → NuPdma) : Prop :=
  Returns (fun _ => True) x fun r => SameUse s (after r)

theorem SameUse.channelRel (ch : Nat) : ChannelRel ch SameUse where
  refl := .refl
  trans := .trans
  setChn _ hevent _ := ⟨rfl, rfl, (SameUse.setChn hevent).event⟩
  setDSCT := .setDSCT
  heap _ _ := ⟨rfl, rfl, fun _ => rfl⟩

theorem nuPdmaTimeoutSet_sameUse : KeepsUse s (nuPdmaTimeoutSet s c t) (·.2) :=
  (SameUse.channelRel _).timeoutSet

theorem nuPdmaChannelTerminate_sameUse : KeepsUse s (nuPdmaChannelTerminate s c) id :=
  (SameUse.channelRel _).terminate

theorem nuPdmaFilteringSet_sameUse (f : BitVec 32) : KeepsUse s (nuPdmaFilteringSet s c f) (·.2) :=
  returns_check trivial fun _ _ => .ite (fun _ => .pure .refl) fun _ => .pure (.setChn rfl)

theorem nuPdmaChannelMemctrlSet_sameUse (m : NuPdmaMemctrl) :
    KeepsUse s (nuPdmaChannelMemctrlSet s c m) (·.2) :=
  (SameUse.channelRel _).memctrlSet m

theorem nuPdmaTransfer_sameUse (m : Malloc) :
    KeepsUse s (nuPdmaTransfer m s c w sa da cnt t) (·.2) :=
  (SameUse.channelRel _).transfer m

end

end NumakerMA35D1.Pdma

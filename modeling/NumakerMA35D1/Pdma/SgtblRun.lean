import NumakerMA35D1.Pdma.Copy
import NumakerMA35D1.Lib.Run

/-!
# Tables over whole runs

Every sequence of calls keeps the tables in order as far as a transfer needs it (`sgtblsOk_step`): a
table has the wanted number of descriptors, which are allocated and are in no other table. That a
channel without a table wants none and that no descriptor is lost needs more (`sgtbls_run`): no
allocation of a table may fail, because the channel is left wanting what it has not, and no call may
wipe a record that holds a table, because freeing a channel leaves the table in its record and
allocating the channel again fills the record with zeros.
-/

namespace NumakerMA35D1.Pdma

open Embedded

/-! ## Allocating channels -/

section

variable {s s' : NuPdma} {A : Halt → Prop}

/-- The first channel that is not allocated, from the modules of a list.
Reference: `drv_pdma.c:415` to `:422`. -/
def freeChannel (s : NuPdma) : List Nat → Option Nat
  | [] => none
  | j :: js =>
    if nuCto (s.nuPdmaChnMaskArr j) < PDMA_CH_MAX then
      some (nuCto (s.nuPdmaChnMaskArr j) + j * PDMA_CH_MAX)
    else freeChannel s js

/-- The channel that an allocation for a peripheral gets. -/
def allocated (s : NuPdma) (i32PeripType : BitVec 32) : Option Nat :=
  match gNuPdmaPeripheralCtlPool.find? (·.1 = i32PeripType) with
  | none => none
  | some _ => freeChannel (nuPdmaInit s) (List.range PDMA_CNT)

/-- The tables after the records of a channel, or of none, are wiped. -/
def Sgtbls.forgetChn (t : Sgtbls) : Option Nat → Sgtbls
  | none => t
  | some ch => t.forget ch

theorem nuPdmaChannelAllocateFrom_returns (hassert : A .rtAssert)
    (periph : BitVec 32 × NuPdmaMemctrl) (js : List Nat) :
    Returns A (nuPdmaChannelAllocateFrom s periph js) fun r =>
      r.2.sgtbls = s.sgtbls.forgetChn (freeChannel s js) := by
  induction js with
  | nil => exact rfl
  | cons j js ih =>
    rw [nuPdmaChannelAllocateFrom, freeChannel]
    by_cases hfree : nuCto (s.nuPdmaChnMaskArr j) < PDMA_CH_MAX
    · simp only [if_pos hfree]
      refine .bind (nuPdmaChannelTerminate_returns hassert) ?_
      intro s' hkeeps
      exact .pure (hkeeps.sgtbls.trans (sgtbls_update _ _ _ s.heap))
    · simp only [if_neg hfree]
      exact ih

theorem nuPdmaChannelAllocate_returns (hassert : A .rtAssert) (i32PeripType : BitVec 32) :
    Returns A (nuPdmaChannelAllocate s i32PeripType) fun r =>
      r.2.sgtbls = (nuPdmaInit s).sgtbls.forgetChn (allocated s i32PeripType) := by
  rw [nuPdmaChannelAllocate, allocated]
  generalize List.find? _ gNuPdmaPeripheralCtlPool = found
  cases found with
  | none => exact rfl
  | some periph => exact nuPdmaChannelAllocateFrom_returns hassert periph _

theorem SgtblsOk.init (h : SgtblsOk s.sgtbls) : SgtblsOk (nuPdmaInit s).sgtbls := by
  unfold nuPdmaInit
  split
  · exact h
  · refine ⟨(fun h => nomatch h), (fun h => nomatch h), ?_⟩
    exact ⟨fun _ => List.nodup_nil, fun h => absurd h List.not_mem_nil,
      fun h => absurd h List.not_mem_nil⟩

theorem SgtblsOk.forgetChn {t : Sgtbls} (h : SgtblsOk t) (ch : Option Nat) :
    SgtblsOk (t.forgetChn ch) := by
  cases ch with
  | none => exact h
  | some ch => exact h.want ch 0#32

/-- The records that an allocation fills with zeros. -/
def Wiped (s : NuPdma) (i32PeripType : BitVec 32) (ch : Nat) : Prop :=
  s.nuPdmaInited = false ∨ allocated s i32PeripType = some ch

/-- Setting up the driver wipes no table. -/
theorem SgtblsInv.init (h : SgtblsInv s.sgtbls)
    (hsafe : s.nuPdmaInited = false → ∀ ch, s.sgtbls.table ch = none) :
    (nuPdmaInit s).sgtbls = s.sgtbls := by
  unfold nuPdmaInit
  split
  · rfl
  · have hnone := hsafe (by simpa using ‹¬ s.nuPdmaInited = true›)
    simp only [NuPdma.sgtbls, Sgtbls.mk.injEq, and_true]
    constructor
    · funext ch
      exact (hnone ch).symm
    · funext ch
      exact ((h.null_iff ch).1 (hnone ch)).symm

theorem SgtblsInv.allocate (h : SgtblsInv s.sgtbls) {i32PeripType : BitVec 32}
    (hsafe : ∀ ch, Wiped s i32PeripType ch → s.sgtbls.table ch = none) :
    SgtblsInv ((nuPdmaInit s).sgtbls.forgetChn (allocated s i32PeripType)) := by
  rw [h.init fun hinit ch => hsafe ch (.inl hinit)]
  rcases hch : allocated s i32PeripType with _ | ch
  · exact h
  · exact h.forget_iff.2 (hsafe ch (.inr hch))

end

/-! ## Runs -/

/-- A call on channels. -/
inductive Op
  | allocate (i32PeripType : BitVec 32)
  | free (i32ChannID : BitVec 32)
  | terminate (i32ChannID : BitVec 32)
  | memctrlSet (i32ChannID : BitVec 32) (eMemCtrl : NuPdmaMemctrl)
  | filteringSet (i32ChannID u32EventFilter : BitVec 32)
  | callbackRegister (i32ChannID : BitVec 32) (psChnCb : Option Nat)
  | transfer (m : Malloc)
    (i32ChannID u32DataWidth u32AddrSrc u32AddrDst u32TransferCnt u32IdleTimeout_us : BitVec 32)

/-- The state after a call, if it returns. -/
def exec (s : NuPdma) : Op → Except Halt NuPdma
  | .allocate ty => do return (← nuPdmaChannelAllocate s ty).2
  | .free ch => do return (← nuPdmaChannelFree s ch).2
  | .terminate ch => nuPdmaChannelTerminate s ch
  | .memctrlSet ch m => do return (← nuPdmaChannelMemctrlSet s ch m).2
  | .filteringSet ch f => do return (← nuPdmaFilteringSet s ch f).2
  | .callbackRegister ch cb => do return (← nuPdmaCallbackRegister s ch cb).2
  | .transfer m ch w sa da cnt t => do return (← nuPdmaTransfer m s ch w sa da cnt t).2

/-- A call that returns. -/
def step (s : NuPdma) (op : Op) (s' : NuPdma) : Prop := exec s op = .ok s'

/-- A call that has room for the table it allocates, if it allocates one, and wipes no record that
holds one. -/
def SafeOp (s : NuPdma) : Op → Prop
  | .allocate ty => ∀ ch, Wiped s ty ch → s.sgtbls.table ch = none
  | .transfer m ch _ _ _ cnt _ => NeedsTable s ch cnt → m.table = true
  | _ => True

section

variable {s s' : NuPdma} {A : Halt → Prop} {op : Op} {ops : List Op}

/-- What a call does to the tables: a channel's record is wiped, or it is what a transfer may do. -/
theorem exec_returns (hassert : A .rtAssert) (hok : SgtblsOk s.sgtbls)
    (hnull : ∀ ch, s.sgtbls.table ch = none → s.sgtbls.wanted ch ≠ 0#32 → A .nullDeref) (op : Op) :
    Returns A (exec s op) fun s' =>
      (∃ ty, op = .allocate ty ∧
        s'.sgtbls = (nuPdmaInit s).sgtbls.forgetChn (allocated s ty)) ∨
      ∃ ch, TransferEffect (¬ SafeOp s op) s.sgtbls s'.sgtbls ch := by
  cases op with
  | allocate ty =>
    exact .bind (nuPdmaChannelAllocate_returns hassert ty) fun r hr => .pure (.inl ⟨ty, rfl, hr⟩)
  | free ch =>
    exact .bind (nuPdmaChannelFree_returns hassert) fun r hr => .pure (.inr ⟨0, .same hr⟩)
  | terminate ch =>
    exact (nuPdmaChannelTerminate_returns hassert).mono fun s' hk => .inr ⟨0, .same hk.sgtbls⟩
  | memctrlSet ch m =>
    exact .bind (nuPdmaChannelMemctrlSet_returns hassert m) fun r hr => .pure (.inr ⟨0, .same hr.1⟩)
  | filteringSet ch f =>
    exact .bind (nuPdmaFilteringSet_returns hassert f) fun r hk => .pure (.inr ⟨0, .same hk.sgtbls⟩)
  | callbackRegister ch cb =>
    exact .bind (nuPdmaCallbackRegister_returns hassert cb) fun r hk =>
      .pure (.inr ⟨0, .same hk.sgtbls⟩)
  | transfer m ch w sa da cnt t =>
    refine .bind (nuPdmaTransfer_returns hassert hok (hnull _) m t) fun r hr =>
      .pure (.inr ⟨ch.toNat, hr.1.mono ?_⟩)
    rintro ⟨hroom, hneeds⟩ hsafe
    rw [hsafe hneeds] at hroom
    cases hroom

/-- A call keeps the tables in order. -/
theorem sgtblsOk_step (h : SgtblsOk s.sgtbls) (hs : step s op s') : SgtblsOk s'.sgtbls := by
  have hexec := exec_returns (A := fun _ => True) trivial h (fun _ _ _ => trivial) op
  rcases hexec.of_ok hs with ⟨ty, -, heq⟩ | ⟨ch, heff⟩
  · rw [heq]
    exact h.init.forgetChn _
  · exact h.transfer heff

/-- A safe call keeps the invariant. -/
theorem sgtblsInv_step (h : SgtblsInv s.sgtbls) (hs : where_ step SafeOp s op s') :
    SgtblsInv s'.sgtbls := by
  obtain ⟨hsafe, hs⟩ := hs
  have hexec := exec_returns (A := fun _ => True) trivial h.toSgtblsOk (fun _ _ _ => trivial) op
  rcases hexec.of_ok hs with ⟨ty, rfl, heq⟩ | ⟨ch, heff⟩
  · rw [heq]
    exact h.allocate hsafe
  · exact h.transfer (not_not.2 hsafe) heff

/-- Where a channel without a table wants none, no transfer goes through a null table. -/
theorem SgtblsInv.transfer_ne_nullDeref (h : SgtblsInv s.sgtbls) (m : Malloc)
    (c w sa da cnt t : BitVec 32) : nuPdmaTransfer m s c w sa da cnt t ≠ .error .nullDeref := by
  intro herr
  have hret : Returns (· ≠ .nullDeref) (nuPdmaTransfer m s c w sa da cnt t) _ :=
    nuPdmaTransfer_returns (by decide) h.toSgtblsOk
      (fun hnone hwants => absurd ((h.null_iff _).1 hnone) hwants) m t
  exact hret.of_error herr rfl

/-- Before the first call nothing is allocated. -/
theorem sgtblsInv_reset : SgtblsInv NuPdma.reset.sgtbls := by
  refine ⟨⟨(fun h => nomatch h), (fun h => nomatch h), ?_⟩, fun _ => ⟨fun _ => rfl, fun _ => rfl⟩, ?_⟩
  · exact ⟨fun _ => List.nodup_nil, fun h => absurd h List.not_mem_nil,
      fun h => absurd h List.not_mem_nil⟩
  · intro p hp
    cases hp

/-- The tables are as they should be, and no transfer would go through a null table. -/
structure SgtblsRight (s : NuPdma) : Prop where
  inv : SgtblsInv s.sgtbls
  noNullDeref : ∀ m c w sa da cnt t, nuPdmaTransfer m s c w sa da cnt t ≠ .error .nullDeref

/-- After any safe calls the tables are as they should be. -/
theorem sgtbls_run (h : Run (where_ step SafeOp) NuPdma.reset ops s) : SgtblsRight s := by
  have hinv : SgtblsInv s.sgtbls :=
    h.invariant (I := fun s => SgtblsInv s.sgtbls) sgtblsInv_step sgtblsInv_reset
  exact ⟨hinv, hinv.transfer_ne_nullDeref⟩

/-- An allocator over a list of addresses. -/
def Malloc.ofList (table : Bool) (l : List (BitVec 32)) : Malloc where
  table := table
  desc h := l.find? fun a => a ≠ 0#32 ∧ (h a).isNone
  fresh {h a} hfind := by
    have hfree := List.find?_some hfind
    simpa using hfree

/-- The state after a call, where it returns. -/
def ran (s : NuPdma) (op : Op) : NuPdma :=
  match exec s op with
  | .ok s' => s'
  | .error _ => s

theorem step_ran {s : NuPdma} {op : Op} (h : (exec s op).isOk = true) : step s op (ran s op) := by
  rw [step, ran]
  cases hexec : exec s op with
  | ok s' => rfl
  | error e =>
    rw [hexec] at h
    cases h

/-- A channel is allocated and given a table of two descriptors. -/
theorem sgtbls_run_grant :
    SgtblsRight (ran (ran NuPdma.reset (.allocate PDMA_MEM))
      (.transfer (.ofList true [64#32, 128#32]) 0#32 8#32 0x1000#32 0x80001000#32 0x10001#32 0#32)) := by
  have hallocate : where_ step SafeOp NuPdma.reset (.allocate PDMA_MEM) _ :=
    ⟨fun _ _ => rfl, step_ran rfl⟩
  have htransfer : where_ step SafeOp (ran NuPdma.reset (.allocate PDMA_MEM))
      (.transfer (.ofList true [64#32, 128#32]) 0#32 8#32 0x1000#32 0x80001000#32 0x10001#32 0#32) _ :=
    ⟨fun _ => rfl, step_ran rfl⟩
  exact sgtbls_run (.snoc (.snoc .nil hallocate) htransfer)

/-- A table that cannot be allocated leaves the channel wanting it, and the next transfer of that
length goes through the null table. -/
theorem not_sgtblsRight : ¬ ∀ ops s, Run step NuPdma.reset ops s → SgtblsRight s := by
  intro h
  have hrun : Run step NuPdma.reset
      [.allocate PDMA_MEM,
        .transfer (.ofList false []) 0#32 8#32 0x1000#32 0x80001000#32 0x10001#32 0#32]
      (ran (ran NuPdma.reset (.allocate PDMA_MEM))
        (.transfer (.ofList false []) 0#32 8#32 0x1000#32 0x80001000#32 0x10001#32 0#32)) :=
    .snoc (.snoc .nil (step_ran rfl)) (step_ran rfl)
  exact (h _ _ hrun).noNullDeref (.ofList true []) 0#32 8#32 0x1000#32 0x80001000#32 0x10001#32 0#32 rfl

end

end NumakerMA35D1.Pdma

import NumakerMA35D1.UsbHost.OhciRun

/-!
# What holds of the OHCI driver in every run

The control list, the bulk list and the interrupt tree end and reach every ED that has TDs to work on
(`ohci_lists`); the driver is never stuck at a NULL pointer or in a loop (`ohci_goesOn`); a submission
that runs out of memory rolls back exactly on the paths that give back what they took
(`ohci_memoryOut_iff`); no request is called twice or forgotten (`ohci_calledOnce`); and a start of frame frees what was cancelled
and completes its requests with the status of an abort (`ohci_sofRemoves`).

Reference: `_ohci.c_`.
-/

namespace NumakerMA35D1.UsbHost

open Embedded

section

variable {s : Ohci} {g : OhciLists} {u t : Unit64} {r : EdRole}

/-! ## What holds in every state -/

/-- The TD is in the done queue, or at an ED before its tail. -/
def Ohci.Waits (s : Ohci) (t : Unit64) : Prop :=
  t ∈ s.doneQueue ∨ ∃ u, s.use u = some .ed ∧ Embedded.Reaches s.nextTD (s.ed u).headP t ∧
    (s.ed u).tailP ≠ some t

/-- The lists as the pointers give them. -/
structure ListsSound (s : Ohci) : Prop where
  control : ∃ eds, Chain s.nextED s.controlHead eds
  bulk : ∃ eds, Chain s.nextED s.bulkHead eds
  int : ∀ k, ∃ eds, Chain s.nextED (some (s.ied k)) eds
  linked : ∀ u, s.Linked u → s.use u = some .ed
  reached : ∀ u, s.use u = some .ed → (s.ed u).headP ≠ (s.ed u).tailP → s.Linked u
  tds : ∀ u, s.use u = some .ed → ∃ tds, Chain s.nextTD (s.ed u).headP tds ∧
    ∀ t ∈ tds, s.use t = some .td ∧ t ∉ s.doneQueue
  apart : ∀ u w t, s.use u = some .ed → s.use w = some .ed → Embedded.Reaches s.nextTD (s.ed u).headP t →
    Embedded.Reaches s.nextTD (s.ed w).headP t → u = w
  pipe : ∀ e u, s.hwPipe e = some u → s.use u = some .ed ∧ u ∉ s.edRemoveList ∧
    ∀ e', s.hwPipe e' = some u → e' = e

theorem OhciInv.role (h : OhciInv s g) (hu : s.use u = some .ed) : ∃ r, g.edRole u = some r :=
  Option.isSome_iff_exists.1 ((h.used.ed u).1 hu)

theorem OhciInv.reaches_iff (h : OhciInv s g) (hr : g.edRole u = some r) :
    Embedded.Reaches s.nextTD (s.ed u).headP t ↔ g.tdRole t = some (.linked u) := by
  rw [(h.tds.chain u r hr).reaches_iff, h.tds.mem u r hr]

theorem OhciInv.waits_iff (h : OhciInv s g) : s.Waits t ↔ g.Pending s t := by
  refine or_congr (h.tds.retired t) (exists_congr fun u => ?_)
  constructor
  · rintro ⟨hu, hreach, hne⟩
    obtain ⟨r, hr⟩ := h.role hu
    exact ⟨(h.reaches_iff hr).1 hreach, hne⟩
  · rintro ⟨ht, hne⟩
    obtain ⟨r, hr⟩ := Option.isSome_iff_exists.1 (h.tds.owner t u ht)
    exact ⟨h.use_ed hr, (h.reaches_iff hr).2 ht, hne⟩

theorem OhciSound.lists (h : OhciSound s g) : ListsSound s where
  control := ⟨_, h.inv.eds.control⟩
  bulk := ⟨_, h.inv.eds.bulk⟩
  int k := ⟨_, h.inv.eds.tree k.val k.isLt⟩
  linked u hu := by
    obtain ⟨r, hr⟩ := h.inv.linked_role hu
    exact h.inv.use_ed hr
  reached u hu hne := by
    obtain ⟨r, hr⟩ := h.inv.role hu
    have htree : ∀ k, u = s.ied k ∨ u ∈ g.int k → s.Linked u := by
      intro k hk
      refine .inr (.inr ⟨k, (h.inv.eds.tree k.val k.isLt).reaches_iff.2 ?_⟩)
      exact (mem_treeFrom k.val k.isLt).2 ⟨k, Nat.le_refl _, hk⟩
    cases r with
    | head k => exact htree k (.inl (h.inv.eds.head_eq k u hr))
    | control =>
      refine .inl (h.inv.eds.control.reaches_iff.2 (h.control u hr fun hnil => hne ?_))
      have hhead := (h.inv.tds.chain u _ hr).head
      have htail : (s.ed u).tailP = none := h.inv.tds.tail u _ hr
      rw [hhead, hnil, htail]
      rfl
    | bulk => exact .inr (.inl (h.inv.eds.bulk.reaches_iff.2 ((h.inv.eds.mem_bulk u).2 hr)))
    | int k => exact htree k (.inr ((h.inv.eds.mem_int k u).2 ⟨_, hr, .inl rfl⟩))
    | iso k => exact htree k (.inr ((h.inv.eds.mem_int k u).2 ⟨_, hr, .inr rfl⟩))
  tds u hu := by
    obtain ⟨r, hr⟩ := h.inv.role hu
    refine ⟨_, h.inv.tds.chain u r hr, fun t ht => ?_⟩
    have hrole := (h.inv.tds.mem u r hr t).1 ht
    refine ⟨h.inv.use_td hrole, fun hdone => ?_⟩
    rw [(h.inv.tds.retired t).1 hdone] at hrole
    cases hrole
  apart u w t hu hw htu htw := by
    obtain ⟨r, hr⟩ := h.inv.role hu
    obtain ⟨r', hr'⟩ := h.inv.role hw
    have hrole := (h.inv.reaches_iff hr).1 htu
    rw [(h.inv.reaches_iff hr').1 htw] at hrole
    cases hrole
    rfl
  pipe e u hu := by
    obtain ⟨hun, r, hr, -⟩ := h.inv.pipes.pipe e u hu
    exact ⟨h.inv.use_ed hr, hun, fun e' he' => h.inv.pipes.inj e' e u he' hu⟩

end

/-! ## A run -/

/-- A device at full speed with an interrupt endpoint. -/
def fullSpeedDev : UdevInfo := ⟨64, 1, 1, 1, .FULL, some .OHCI0⟩

@[inherit_doc fullSpeedDev]
def oneEndpoint : Endpoints := fun _ => (fullSpeedDev, ⟨0x81, 3, 8, 8⟩)

/-- A request for eight bytes. -/
def eightBytes : Utr where
  ep := .ep 0
  bmRequestType := 0x80
  setupAddr := 0x80001000
  buff := 0x80002000
  dataLen := 8
  xferLen := 0
  bIsoNewSched := false
  isoSf := 0
  isoXlen _ := 0
  isoBuff _ := 0
  isoStatus _ := 0
  tdCnt := 0
  status := 0
  bIsTransferDone := false
  calls := 0

theorem allocHeads_some : (allocHeads MemPool.init).isSome = true := by decide +kernel

/-- The driver set up over a pool of its own. -/
def startOhci : Ohci :=
  Ohci.init ((allocHeads MemPool.init).get allocHeads_some).2 MemPool.init.unitUsed
    ((allocHeads MemPool.init).get allocHeads_some).1

theorem startOhci_eq : ohciInit MemPool.init = .ok startOhci := rfl

theorem submitInt_some : (ohciXfer oneEndpoint startOhci 0 eightBytes (.int 0)).toOption.isSome = true := by
  rfl

/-- A transfer on the interrupt endpoint is submitted. -/
def intSubmitted : Ohci :=
  ((ohciXfer oneEndpoint startOhci 0 eightBytes (.int 0)).toOption.get submitInt_some).2

theorem intSubmitted_eq : ohciXfer oneEndpoint startOhci 0 eightBytes (.int 0) = .ok (0, intSubmitted) := rfl

/-- No ED names the endpoint yet. -/
theorem startOhci_fits : SubmissionFits oneEndpoint startOhci (.int 0) := by
  refine ⟨rfl, by decide, by decide, fun u e hfind _ => ?_⟩
  have hnone : startOhci.findEd (some (intHead oneEndpoint startOhci 0)) (epInfo oneEndpoint 0) =
      .ok none := rfl
  rw [hnone] at hfind
  cases hfind

theorem startOhci_room : startOhci.pool.room = 58 := by decide +kernel

theorem intSubmitted_step :
    where_ (OhciStep oneEndpoint) (CarefulOhci oneEndpoint) startOhci (.submit 0 eightBytes (.int 0))
      intSubmitted := by
  refine ⟨⟨startOhci_fits, fun _ _ => ?_, by rintro dev udev ⟨⟩⟩, rfl, rfl, rfl, 0, intSubmitted_eq⟩
  rw [startOhci_room]
  decide

theorem intSubmitted_run : Run (where_ (OhciStep oneEndpoint) (CarefulOhci oneEndpoint)) startOhci
    [.submit 0 eightBytes (.int 0)] intSubmitted :=
  Run.snoc Run.nil intSubmitted_step

/-- The TD of the transfer is worked on, and the endpoint is cancelled. -/
def retiredInt : Ohci := hcRetire intSubmitted 7 8 ⟨0, 0, 0, true⟩

@[inherit_doc retiredInt]
def cancelledInt : Ohci := (ohciQuitXfer retiredInt (some (.ep 0)) none).2

theorem intSubmitted_serves : HcServes intSubmitted 7 8 :=
  ⟨.inr (.inr ⟨3, [2], rfl, rfl⟩), by decide +kernel, rfl, rfl, by decide +kernel⟩

theorem retiredInt_run : Run (where_ (OhciStep oneEndpoint) (CarefulOhci oneEndpoint)) startOhci
    [.submit 0 eightBytes (.int 0), .retire 7 8 ⟨0, 0, 0, true⟩] retiredInt := by
  have hstep : OhciStep oneEndpoint intSubmitted (.retire 7 8 ⟨0, 0, 0, true⟩) retiredInt :=
    ⟨intSubmitted_serves, rfl⟩
  exact Run.snoc intSubmitted_run ⟨trivial, hstep⟩

theorem cancelledInt_run : Run (where_ (OhciStep oneEndpoint) (CarefulOhci oneEndpoint)) startOhci
    [.submit 0 eightBytes (.int 0), .retire 7 8 ⟨0, 0, 0, true⟩, .quit (some (.ep 0)) none]
    cancelledInt := by
  have hstep : OhciStep oneEndpoint retiredInt (.quit (some (.ep 0)) none) cancelledInt := rfl
  exact Run.snoc retiredInt_run ⟨trivial, hstep⟩

/-! ## Every careful run -/

/-- **The lists hold together.** In every careful run the control list, the bulk list and the interrupt
tree end, every ED with TDs to work on is reached from the head of its list, the TDs of EDs end and are
apart from one another and from the done queue, and no two endpoints name one ED. -/
theorem ohci_lists (E : Endpoints) (pool : MemPool) (s₀ s : Ohci) (labels : List OhciOp)
    (hinit : ohciInit pool = .ok s₀)
    (hrun : Run (where_ (OhciStep E) (CarefulOhci E)) s₀ labels s) : ListsSound s := by
  obtain ⟨⟨g, h⟩, -⟩ := ohci_sound hinit hrun
  exact h.lists

theorem ohci_lists_cancelled : ListsSound cancelledInt :=
  ohci_lists oneEndpoint MemPool.init startOhci cancelledInt _ startOhci_eq cancelledInt_run

/-- **The driver goes on.** In every state of a careful run, no submission that fits, no done queue in
any order and no start of frame meets a NULL pointer or links without an end. -/
theorem ohci_goesOn (E : Endpoints) (pool : MemPool) (s₀ s : Ohci) (labels : List OhciOp)
    (hinit : ohciInit pool = .ok s₀)
    (hrun : Run (where_ (OhciStep E) (CarefulOhci E)) s₀ labels s) :
    (∀ v q sub, SubmissionFits E s sub → ∃ ret s', ohciXfer E s v q sub = .ok (ret, s')) ∧
      (∀ tds : List Unit64, tds.Nodup → tds ⊆ s.doneQueue → ∃ s', reclaim s tds = .ok s') ∧
      ∃ s', startOfFrame s = .ok s' := by
  obtain ⟨⟨g, h⟩, ha⟩ := ohci_sound hinit hrun
  refine ⟨fun v q sub hfit => ?_, fun tds hnd hsub => ?_, ?_⟩
  · obtain ⟨ret, s', hrun, -⟩ := ohciXfer_spec (u := q) (v := v) h.inv hfit
    exact ⟨ret, s', hrun⟩
  · obtain ⟨s', -, hrun, -⟩ := h.reclaim hnd hsub
    exact ⟨s', hrun⟩
  · obtain ⟨s', -, hrun, -⟩ := h.startOfFrame ha
    exact ⟨s', hrun⟩

theorem ohci_goesOn_cancelled :
    (∀ v q sub, SubmissionFits oneEndpoint cancelledInt sub →
      ∃ ret s', ohciXfer oneEndpoint cancelledInt v q sub = .ok (ret, s')) ∧
      (∀ tds : List Unit64, tds.Nodup → tds ⊆ cancelledInt.doneQueue →
        ∃ s', reclaim cancelledInt tds = .ok s') ∧
      ∃ s', startOfFrame cancelledInt = .ok s' :=
  ohci_goesOn oneEndpoint MemPool.init startOhci cancelledInt _ startOhci_eq cancelledInt_run

/-- **When a submission that runs out of memory rolls back.** In every state of a careful run: for a new
ED when the units give out where its path gives them back, for an ED that is in the list never where the
path frees it. -/
theorem ohci_memoryOut_iff (E : Endpoints) (pool : MemPool) (s₀ s s' : Ohci) (labels : List OhciOp)
    (hinit : ohciInit pool = .ok s₀)
    (hrun : Run (where_ (OhciStep E) (CarefulOhci E)) s₀ labels s) (v : Nat) (q : Utr) (sub : Submission)
    (hfit : SubmissionFits E s sub) (hout : ohciXfer E s v q sub = .ok (USBH_ERR_MEMORY_OUT, s')) :
    RolledBack s s' ↔ MemoryFits E s q sub := by
  obtain ⟨⟨g, h⟩, -⟩ := ohci_sound hinit hrun
  obtain ⟨ret, s₁, hrun', hcase⟩ := ohciXfer_spec (u := q) (v := v) h.inv hfit
  rw [hout] at hrun'
  cases hrun'
  rcases hcase with ⟨hmem, ⟨-, hback⟩ | ⟨hzero, -⟩⟩ | ⟨hno, -, hspoiled⟩
  · exact iff_of_true hback hmem
  · exact absurd hzero (by decide)
  · exact iff_of_false (hspoiled.not_rolledBack h.inv) hno

/-- A pool with room for the heads alone. -/
def sixUnits : MemPool := ⟨fun u => decide (6 ≤ u.val), 58, 0⟩

theorem allocHeads_six : (allocHeads sixUnits).isSome = true := by decide +kernel

/-- The driver set up over a pool without room for more. -/
def fullOhci : Ohci :=
  Ohci.init ((allocHeads sixUnits).get allocHeads_six).2 sixUnits.unitUsed
    ((allocHeads sixUnits).get allocHeads_six).1

theorem fullOhci_out : ohciXfer oneEndpoint fullOhci 0 eightBytes (.int 0) =
    .ok (USBH_ERR_MEMORY_OUT, fullOhci) := rfl

theorem fullOhci_fits : SubmissionFits oneEndpoint fullOhci (.int 0) := by
  refine ⟨rfl, by decide, by decide, fun u e hfind _ => ?_⟩
  have hnone : fullOhci.findEd (some (intHead oneEndpoint fullOhci 0)) (epInfo oneEndpoint 0) =
      .ok none := rfl
  rw [hnone] at hfind
  cases hfind

theorem ohci_memoryOut_iff_full :
    RolledBack fullOhci fullOhci ↔ MemoryFits oneEndpoint fullOhci eightBytes (.int 0) :=
  ohci_memoryOut_iff oneEndpoint sixUnits fullOhci fullOhci fullOhci [] rfl Run.nil 0 eightBytes (.int 0)
    fullOhci_fits fullOhci_out

/-- **A request is called back once.** In every careful run a request is not called twice, and one that
was accepted and has no TD at an ED or in the done queue any more was called. -/
theorem ohci_calledOnce (E : Endpoints) (pool : MemPool) (s₀ s : Ohci) (labels : List OhciOp)
    (hinit : ohciInit pool = .ok s₀)
    (hrun : Run (where_ (OhciStep E) (CarefulOhci E)) s₀ labels s) (v : Nat) (q : Utr)
    (hq : s.utr v = some q) :
    q.calls ≤ 1 ∧ (q.bIsTransferDone = true ↔ q.calls = 1) ∧
      ((∀ t, s.Waits t → (s.td t).utr ≠ some v) → q.calls = 1) := by
  obtain ⟨⟨g, h⟩, -⟩ := ohci_sound hinit hrun
  obtain ⟨hc, hle⟩ := h.counted v q hq
  refine ⟨?_, ?_, fun hno => ?_⟩
  · rcases hc with ⟨hcalls, -⟩ | ⟨hcalls, -⟩ <;> omega
  · rcases hc with ⟨hcalls, -, hdone⟩ | ⟨hcalls, -, hdone⟩
    · rw [hdone, hcalls]
      exact iff_of_false Bool.false_ne_true (by decide)
    · exact iff_of_true hdone hcalls
  · rw [OhciLists.left_eq_zero fun t ht => hno t (h.inv.waits_iff.2 ht)] at hle
    rcases hc with ⟨-, hpos, -⟩ | ⟨hcalls, -⟩
    · omega
    · exact hcalls

theorem ohci_calledOnce_cancelled : ∃ q, cancelledInt.utr 0 = some q ∧ q.calls ≤ 1 ∧
    (q.bIsTransferDone = true ↔ q.calls = 1) ∧
      ((∀ t, cancelledInt.Waits t → (cancelledInt.td t).utr ≠ some 0) → q.calls = 1) :=
  ⟨_, rfl, ohci_calledOnce oneEndpoint MemPool.init startOhci cancelledInt _ startOhci_eq
    cancelledInt_run 0 _ rfl⟩

/-- **A start of frame removes what was cancelled.** In every state of a careful run it frees the EDs of
cancelled endpoints and their TDs, no list reaches them any more, and each request whose TDs were all
theirs is called back, once and with the status of an abort. -/
theorem ohci_sofRemoves (E : Endpoints) (pool : MemPool) (s₀ s : Ohci) (labels : List OhciOp)
    (hinit : ohciInit pool = .ok s₀)
    (hrun : Run (where_ (OhciStep E) (CarefulOhci E)) s₀ labels s) :
    ∃ s', startOfFrame s = .ok s' ∧ s'.edRemoveList = [] ∧
      (∀ u ∈ s.edRemoveList, s'.use u = none ∧ ¬ s'.Linked u ∧
        ∀ t, Embedded.Reaches s.nextTD (s.ed u).headP t → s'.use t = none) ∧
      (∀ v q, s.utr v = some q → q.calls = 0 →
        (∀ t, s.Waits t → (s.td t).utr = some v →
          ∃ u ∈ s.edRemoveList, Embedded.Reaches s.nextTD (s.ed u).headP t) →
        ∃ q', s'.utr v = some q' ∧ q'.calls = 1 ∧ q'.status = USBH_ERR_ABORT) ∧
      ∀ v q, s.utr v = some q → q.calls = 1 →
        ∃ q', s'.utr v = some q' ∧ q'.calls = 1 ∧ q'.status = q.status := by
  obtain ⟨⟨g, h⟩, ha⟩ := ohci_sound hinit hrun
  obtain ⟨s', g', hstep, hall⟩ := h.startOfFrame ha
  have hrole : ∀ u ∈ s.edRemoveList, ∃ r, g.edRole u = some r := by
    intro u hu
    obtain ⟨-, r, hr, -⟩ := h.inv.pipes.remove u hu
    exact ⟨r, hr⟩
  refine ⟨s', hstep, ?_, fun u hu => ?_, fun v q hq hcalls hown => ?_, fun v q hq hcalls => ?_⟩
  · have hlist := hall.list
    rwa [List.self_eq_append_right] at hlist
  · obtain ⟨r, hr⟩ := hrole u hu
    obtain ⟨hfree, htds⟩ := hall.freed u hu
    refine ⟨hfree, fun hl => ?_, fun t ht => htds t ?_⟩
    · obtain ⟨r', hr'⟩ := hall.sound.inv.linked_role hl
      rw [hall.sound.inv.use_ed hr'] at hfree
      cases hfree
    · exact (h.inv.tds.mem u r hr t).2 ((h.inv.reaches_iff hr).1 ht)
  · obtain ⟨q', hq', hcase⟩ := hall.aborted v q hq
    obtain ⟨hc, hle⟩ := hall.sound.counted v q' hq'
    have hnone : g'.left s' v = 0 := by
      refine OhciLists.left_eq_zero fun t hp hv => ?_
      obtain ⟨hp, hnot⟩ := hall.pending t hp
      rw [hall.td] at hv
      obtain ⟨u, hu, hreach⟩ := hown t (h.inv.waits_iff.2 hp) hv
      obtain ⟨r, hr⟩ := hrole u hu
      exact hnot u hu ((h.inv.tds.mem u r hr t).2 ((h.inv.reaches_iff hr).1 hreach))
    rw [hnone] at hle
    have hone : q'.calls = 1 := by
      rcases hc with ⟨-, hpos, -⟩ | ⟨hcalls, -⟩
      · omega
      · exact hcalls
    rcases hcase with ⟨hsame, -⟩ | ⟨-, -, hstatus⟩
    · rw [hsame, hcalls] at hone
      cases hone
    · exact ⟨q', hq', hone, hstatus⟩
  · obtain ⟨q', hq', hcase⟩ := hall.aborted v q hq
    rcases hcase with ⟨hsame, hstatus⟩ | ⟨hzero, -⟩
    · exact ⟨q', hq', hsame.trans hcalls, hstatus⟩
    · rw [hcalls] at hzero
      cases hzero

theorem ohci_sofRemoves_cancelled : ∃ s', startOfFrame cancelledInt = .ok s' ∧ s'.edRemoveList = [] ∧
    (∀ u ∈ cancelledInt.edRemoveList, s'.use u = none ∧ ¬ s'.Linked u ∧
      ∀ t, Embedded.Reaches cancelledInt.nextTD (cancelledInt.ed u).headP t → s'.use t = none) ∧
    (∀ v q, cancelledInt.utr v = some q → q.calls = 0 →
      (∀ t, cancelledInt.Waits t → (cancelledInt.td t).utr = some v →
        ∃ u ∈ cancelledInt.edRemoveList, Embedded.Reaches cancelledInt.nextTD (cancelledInt.ed u).headP t) →
      ∃ q', s'.utr v = some q' ∧ q'.calls = 1 ∧ q'.status = USBH_ERR_ABORT) ∧
    ∀ v q, cancelledInt.utr v = some q → q.calls = 1 →
      ∃ q', s'.utr v = some q' ∧ q'.calls = 1 ∧ q'.status = q.status :=
  ohci_sofRemoves oneEndpoint MemPool.init startOhci cancelledInt _ startOhci_eq cancelledInt_run

end NumakerMA35D1.UsbHost

import NumakerMA35D1.Lib.Run
import NumakerMA35D1.UsbHost.EhciScan

/-!
# Runs of the EHCI driver

Submissions, what the controller does, the turns of the queue heads in a scan, doorbell interrupts, cancellations and
what others do with the pool come in any order. In a run whose transfers are on endpoints of their type, whose bulk
transfers have bytes, and whose submissions, where memory runs out, give back what they took (`Careful`), the driver
holds each of its units once and no other one (`ehci_holds`), and a transfer request is called back as often as it was
accepted but for those that still wait (`ehci_calledOnce`). A scan calls back one whose qTDs are all retired
(`ehci_scanCalls`).

Reference: `_ehci.c_:835 ehci_quit_xfer`, `_ehci.c_:904 scan_asynchronous_list`, `_ehci.c_:963
scan_periodic_frame_list`, `_ehci.c_:1020 iaad_remove_qh`.
-/

namespace NumakerMA35D1.UsbHost

open Embedded

/-! ## Steps -/

/-- The driver, the units of the pool that others have, and how often a submission of each transfer request was
accepted. -/
structure EhciSys where
  drv : Ehci
  other : Set Unit64
  accepted : Nat → Nat

/-- What happens. A scan is the turns of its queue heads, as a callback between two of them may submit and cancel. -/
inductive EhciEvent
  | submit (v : Nat) (sub : EhciSubmission)
  | progress
  | scanQh (q : Unit64)
  | scanIntQh (q : Unit64)
  | iaad
  | quit (utr : Option Nat) (ep : Option EpRef)
  | dropPipe (dev : Nat)
  | foreign

/-- The controller writes the tokens and buffer pointers of qTDs and the overlays of queue heads. -/
structure HcProgress (s s' : Ehci) : Prop where
  qtd : ∀ t, { s'.qtd t with token := (s.qtd t).token, bptr := (s.qtd t).bptr } = s.qtd t
  qh : ∀ q, { s'.qh q with
    currQtd := (s.qh q).currQtd, olNextQtd := (s.qh q).olNextQtd, olAltNextQtd := (s.qh q).olAltNextQtd
    olToken := (s.qh q).olToken, olBptr := (s.qh q).olBptr } = s.qh q
  rest : { s' with qtd := s.qtd, qh := s.qh } = s

/-- A step. When a control submission fails, `usbh_ctrl_xfer` takes the queue head from endpoint zero. Reference:
`usb_core.c:281 usbh_ctrl_xfer`. -/
inductive EhciStep (E : Nat → EpInfo) (y : EhciSys) : EhciEvent → EhciSys → Prop
  | accept {v : Nat} {sub : EhciSubmission} {s' : Ehci} : ehciXfer E y.drv v sub = .ok (0, s') →
    EhciStep E y (.submit v sub)
      { y with drv := s', accepted := Function.update y.accepted v (y.accepted v + 1) }
  | refuse {v : Nat} {sub : EhciSubmission} {ret : Int} {s' : Ehci} : ehciXfer E y.drv v sub = .ok (ret, s') →
    ret ≠ 0 → EhciStep E y (.submit v sub) { y with drv := s' }
  | progress {s' : Ehci} : HcProgress y.drv s' → EhciStep E y .progress { y with drv := s' }
  | scanQh {q : Unit64} : q ∈ y.drv.asyncList →
    EhciStep E y (.scanQh q) { y with drv := UsbHost.scanQh y.drv q }
  | scanIntQh {q : Unit64} : q ∈ y.drv.periodicList →
    EhciStep E y (.scanIntQh q) { y with drv := UsbHost.scanIntQh y.drv q }
  | iaad : EhciStep E y .iaad { y with drv := iaadRemoveQh y.drv }
  | quit {utr : Option Nat} {ep : Option EpRef} :
    EhciStep E y (.quit utr ep) { y with drv := (ehciQuitXfer y.drv utr ep).2 }
  | dropPipe {dev : Nat} : EhciStep E y (.dropPipe dev) { y with drv := y.drv.setPipe (.ep0 dev) none }
  | foreign {pool : MemPool} {other' : Set Unit64} :
    (∀ u, pool.unitUsed u = true ↔ y.drv.pool.unitUsed u = true ∧ u ∉ y.other ∨ u ∈ other') →
    (∀ u ∈ other', u ∈ y.other ∨ y.drv.pool.unitUsed u = false) →
    EhciStep E y .foreign { y with drv := { y.drv with pool := pool }, other := other' }

/-- A bulk transfer is on a bulk endpoint, an interrupt transfer on an interrupt endpoint. -/
def OnItsType (E : Nat → EpInfo) : EhciSubmission → Prop
  | .ctrl _ => True
  | .bulk _ i => (E i).bmAttributes &&& 3#8 ≠ 3#8
  | .int _ i => (E i).bmAttributes &&& 3#8 = 3#8

/-- A transfer is on an endpoint of its type, and a bulk transfer has bytes; where memory runs out, what was taken is
given back. -/
def Careful (E : Nat → EpInfo) (y : EhciSys) : EhciEvent → Prop
  | .submit v sub =>
    OnItsType E sub ∧ (∀ dev i, sub = .bulk dev i → 0 < (y.drv.utr v).dataLen.toNat) ∧
      ∀ s', ehciXfer E y.drv v sub = .ok (USBH_ERR_MEMORY_OUT, s') → RollsBack y.drv sub
  | _ => True

/-- The driver before the first submission: it has no units. -/
structure EhciStart (y : EhciSys) : Prop where
  async : y.drv.asyncList = []
  periodic : ∀ k, y.drv.iqh k = []
  removeList : y.drv.removeList = []
  pipe : ∀ e, y.drv.hwPipe e = none
  used : ∀ u, y.drv.pool.unitUsed u = true ↔ u ∈ y.other
  calls : ∀ v, y.accepted v = (y.drv.utr v).calls

/-! ## The lists of queue heads -/

section

variable {E : Nat → EpInfo} {other : Set Unit64} {accepted : Nat → Nat} {s s' : Ehci} {q : Unit64} {v : Nat}

/-- Behind one head of the periodic tree the list changes. -/
theorem periodicList_update (s : Ehci) (k : Fin NUM_IQH) (l : List Unit64) : ∃ rest,
    s.periodicList.Perm (s.iqh k ++ rest) ∧
      ((List.finRange NUM_IQH).reverse.flatMap (Function.update s.iqh k l)).Perm (l ++ rest) := by
  have hnodup : (List.finRange NUM_IQH).reverse.Nodup := List.nodup_reverse.2 (List.nodup_finRange _)
  have hmem : k ∈ (List.finRange NUM_IQH).reverse := List.mem_reverse.2 (List.mem_finRange k)
  have hperm := List.perm_cons_erase hmem
  refine ⟨((List.finRange NUM_IQH).reverse.erase k).flatMap s.iqh, hperm.flatMap_right s.iqh, ?_⟩
  refine (hperm.flatMap_right _).trans ?_
  rw [List.flatMap_cons, Function.update_self]
  refine List.Perm.append_left l (List.Perm.of_eq (List.flatMap_congr fun j hj => ?_))
  exact Function.update_of_ne (hnodup.mem_erase_iff.1 hj).1 ..

/-- A new queue head of an interrupt endpoint. -/
theorem periodicList_cons {k : Fin NUM_IQH} (h : s'.iqh = Function.update s.iqh k (q :: s.iqh k)) :
    s'.periodicList.Perm (q :: s.periodicList) := by
  obtain ⟨rest, hold, hnew⟩ := periodicList_update s k (q :: s.iqh k)
  rw [← h] at hnew
  exact hnew.trans (hold.symm.cons q)

theorem periodicList_erase {k : Fin NUM_IQH} (hq : q ∈ s.iqh k)
    (h : s'.iqh = Function.update s.iqh k ((s.iqh k).erase q)) : s.periodicList.Perm (q :: s'.periodicList) := by
  obtain ⟨rest, hold, hnew⟩ := periodicList_update s k ((s.iqh k).erase q)
  rw [← h] at hnew
  refine hold.trans ?_
  refine ((List.perm_cons_erase hq).append_right rest).trans ?_
  exact hnew.symm.cons q

theorem mem_periodicList {k : Fin NUM_IQH} (h : q ∈ s.iqh k) : q ∈ s.periodicList :=
  List.mem_flatMap.2 ⟨k, List.mem_reverse.2 (List.mem_finRange k), h⟩

theorem qhs_congr (hasync : s'.asyncList = s.asyncList) (hiqh : s'.iqh = s.iqh) (hremove : s'.removeList = s.removeList) :
    s'.qhs = s.qhs := by
  rw [Ehci.qhs, Ehci.qhs, Ehci.linked, Ehci.linked, Ehci.periodicList, Ehci.periodicList, hasync, hiqh, hremove]

theorem mem_listFor_mono (hasync : ∀ p ∈ s.asyncList, p ∈ s'.asyncList)
    (hperiodic : ∀ p ∈ s.periodicList, p ∈ s'.periodicList) (e : EpRef) : ∀ p ∈ s.listFor E e, p ∈ s'.listFor E e := by
  intro p hp
  cases e with
  | ep0 dev => exact hasync p hp
  | ep i =>
    rw [Ehci.listFor] at hp ⊢
    split
    · rename_i hint
      rw [if_pos hint] at hp
      exact hperiodic p hp
    · rename_i hint
      rw [if_neg hint] at hp
      exact hasync p hp

theorem listFor_congr (hasync : s'.asyncList = s.asyncList) (hiqh : s'.iqh = s.iqh) (e : EpRef) :
    s'.listFor E e = s.listFor E e := by
  cases e with
  | ep0 dev => exact hasync
  | ep i => rw [Ehci.listFor, Ehci.listFor, Ehci.periodicList, Ehci.periodicList, hasync, hiqh]

/-- No queue head is in two lists. -/
theorem EhciSound.disjoint (h : EhciSound E other accepted s) :
    s.asyncList.Nodup ∧ s.periodicList.Nodup ∧ (∀ q ∈ s.asyncList, q ∉ s.periodicList) ∧
      ∀ q ∈ s.linked, q ∉ s.removeList := by
  have hnodup := h.serving.nodup
  obtain ⟨hlinked, -, hremove⟩ := List.nodup_append'.1 hnodup
  obtain ⟨hasync, hperiodic, hdisj⟩ := List.nodup_append'.1 hlinked
  exact ⟨hasync, hperiodic, fun q hq hq' => hdisj hq hq', fun q hq hq' => hremove hq hq'⟩

/-- The lists are as they were, and so are the endpoints, or some have lost their queue head. -/
theorem EhciSound.of_lists (h : EhciSound E other accepted s) {other' : Set Unit64} {accepted' : Nat → Nat}
    (hserving : Serving other' accepted' s' s.qhs) (hasync : s'.asyncList = s.asyncList) (hiqh : s'.iqh = s.iqh)
    (hremove : s'.removeList = s.removeList) (hpipe : ∀ e q, s'.hwPipe e = some q → s.hwPipe e = some q)
    (hqueue : ∀ q ∈ s.periodicList, (s'.qh q).qtdList.length ≤ 1) : EhciSound E other' accepted' s' where
  serving := by
    rw [qhs_congr hasync hiqh hremove]
    exact hserving
  pipe e q hq := by
    rw [listFor_congr hasync hiqh]
    exact h.pipe e q (hpipe e q hq)
  inj e e' q hq hq' := h.inj e e' q (hpipe e q hq) (hpipe e' q hq')
  single := by
    rw [Ehci.periodicList, hiqh]
    exact hqueue

end

/-! ## Submissions -/

section

variable {E : Nat → EpInfo} {other : Set Unit64} {accepted : Nat → Nat} {s s' : Ehci} {q p : Unit64} {v : Nat}
  {sub : EhciSubmission} {new : List Unit64} {isNewQh : Bool}

theorem EhciSound.mem_held {t : Unit64} (h : EhciSound E other accepted s) (hp : p ∈ s.qhs)
    (ht : t = p ∨ t ∈ (s.qh p).qtds) : s.pool.unitUsed t = true :=
  h.serving.holds.inUse (mem_heldBy.2 ⟨p, hp, ht⟩)

/-- A driver that is as it was is sound as it was. -/
theorem SameDriver.sound (h : EhciSound E other accepted s) (hsame : SameDriver s s') :
    EhciSound E other accepted s' := by
  obtain ⟨hasync, hiqh, hremove⟩ := hsame.lists
  have hat : ∀ p ∈ s.qhs, SameAt s s' p := by
    intro p hp
    obtain ⟨hqueue, hdone⟩ := hsame.queues p (h.mem_held hp (Or.inl rfl))
    refine ⟨hqueue, hdone, fun t ht => ?_⟩
    rw [hsame.qtds t (h.mem_held hp (Or.inr (List.mem_append_left _ ht)))]
  refine h.of_lists (h.serving.same hat hsame.used fun w => ?_) hasync hiqh hremove (fun e q hq => ?_) fun q hq => ?_
  · rw [← hsame.utr w]
  · rw [← hsame.hwPipe]
    exact hq
  · rw [(hat q (List.mem_append_left _ (List.mem_append_right _ hq))).queue]
    exact h.single q hq

/-- A queue head's lists, with those of a submission, are a submission's where they were. -/
theorem Queued.sameAt (h : EhciSound E other accepted s) (hqueued : Queued s s' sub v q new isNewQh) (hp : p ∈ s.qhs)
    (hpq : p ≠ q) : SameAt s s' p := by
  have hqh := hqueued.others p hpq
  refine ⟨congrArg EhciQh.qtdList hqh, congrArg EhciQh.doneList hqh, fun t ht => hqueued.kept t fun hin => ?_⟩
  have hused := h.mem_held hp (Or.inr (List.mem_append_left _ ht))
  have hfree := hqueued.fresh t (by cases isNewQh <;> simp [hin])
  rw [hfree] at hused
  cases hused

theorem Queued.waiting (hqueued : Queued s s' sub v q new isNewQh) (hne : new ≠ []) : s'.waiting q = some v := by
  rw [Ehci.waiting, hqueued.queue]
  cases new with
  | nil => exact absurd rfl hne
  | cons t rest => exact congrArg some (hqueued.utr t List.mem_cons_self).utr

/-- The queue heads serve one more transfer request. -/
theorem Queued.serving (h : EhciSound E other accepted s) (hqueued : Queued s s' sub v q new isNewQh)
    (hne : new ≠ []) : Serving other (Function.update accepted v (accepted v + 1)) s'
      (if isNewQh then q :: s.qhs else s.qhs) := by
  have hwaiting := hqueued.waiting hne
  have hutr : ∀ t ∈ (s'.qh q).qtdList, some (s'.qtd t).utr = s'.waiting q := by
    rw [hqueued.queue, hwaiting]
    exact fun t ht => congrArg some (hqueued.utr t ht).utr
  have hcount : ∀ w, Function.update accepted v (accepted v + 1) w + (s.utr w).calls =
      accepted w + (s'.utr w).calls + if s'.waiting q = some w then 1 else 0 := by
    intro w
    rw [hqueued.calls, hwaiting]
    by_cases hw : w = v
    · subst hw
      simp only [Function.update_self, if_true]
      omega
    · rw [Function.update_of_ne hw, if_neg fun heq => hw (Option.some.inj heq).symm]
      omega
  have hqtds : (s'.qh q).qtds = new ++ (s'.qh q).doneList := by rw [EhciQh.qtds, hqueued.queue]
  cases isNewQh with
  | false =>
    have hq : q ∈ s.qhs := h.mem_qhs hqueued.pipe
    have hempty : (s.qh q).qtdList = [] := hqueued.before rfl
    rw [if_neg Bool.false_ne_true]
    refine h.serving.atQh hq (fun p hp hpq => hqueued.sameAt h hp hpq) ?_ hutr fun w => ?_
    · have htake := h.serving.holds.take hqueued.fresh hqueued.nodup hqueued.used
      refine htake.perm ?_
      rw [hqtds, hqueued.done, if_neg Bool.false_ne_true, if_neg Bool.false_ne_true, List.append_assoc]
      refine List.perm_middle.symm.trans (List.Perm.append_left new ?_)
      refine ((heldBy_split hq).trans ?_).symm
      rw [EhciQh.qtds, hempty, List.nil_append]
    · have hnone : s.waiting q = none := by rw [Ehci.waiting, hempty]; rfl
      rw [hnone, if_neg (Option.some_ne_none w).symm, Nat.add_zero, hcount w]
  | true =>
    rw [if_pos rfl]
    have hnot : ∀ p ∈ s.qhs, p ≠ q := by
      rintro p hp rfl
      have hused := h.mem_held hp (Or.inl rfl)
      rw [hqueued.fresh p List.mem_cons_self] at hused
      cases hused
    refine h.serving.add (fun p hp => hqueued.sameAt h hp (hnot p hp)) ?_ hutr hcount
    have htake := h.serving.holds.take hqueued.fresh hqueued.nodup hqueued.used
    rw [hqtds, hqueued.done, if_pos rfl, List.append_nil]
    exact htake

/-- The lists of queue heads after a submission. -/
theorem Queued.lists_perm (hqueued : Queued s s' sub v q new isNewQh) :
    s'.qhs.Perm (if isNewQh then q :: s.qhs else s.qhs) ∧
      (∀ e, ∀ p ∈ s.listFor E e, p ∈ s'.listFor E e) ∧ (OnItsType E sub → isNewQh = true → q ∈ s'.listFor E sub.pipe) ∧
      ∀ p ∈ s'.periodicList, p ∈ s.periodicList ∨ p = q ∧ ∃ dev i, sub = .int dev i := by
  have hremove := hqueued.removeList
  have hlists := hqueued.lists
  cases isNewQh with
  | false =>
    have hsame : s'.asyncList = s.asyncList ∧ s'.iqh = s.iqh := by cases sub <;> exact hlists
    have hperiodic : s'.periodicList = s.periodicList := by rw [Ehci.periodicList, hsame.2, Ehci.periodicList]
    refine ⟨?_, fun e p hp => ?_, fun _ hno => absurd hno Bool.false_ne_true, fun p hp => Or.inl (hperiodic ▸ hp)⟩
    · rw [qhs_congr hsame.1 hsame.2 hremove]
      exact List.Perm.refl _
    · rwa [listFor_congr hsame.1 hsame.2]
  | true =>
    have hasync : s'.asyncList = q :: s.asyncList ∧ s'.iqh = s.iqh → s'.qhs.Perm (q :: s.qhs) ∧
        (∀ e, ∀ p ∈ s.listFor E e, p ∈ s'.listFor E e) ∧ (∀ p ∈ s'.periodicList, p ∈ s.periodicList) ∧
        q ∈ s'.asyncList := by
      rintro ⟨hasync, hiqh⟩
      have hperiodic : s'.periodicList = s.periodicList := by rw [Ehci.periodicList, hiqh, Ehci.periodicList]
      refine ⟨?_, mem_listFor_mono ?_ ?_, fun p hp => hperiodic ▸ hp, hasync ▸ List.mem_cons_self⟩
      · rw [Ehci.qhs, Ehci.linked, hasync, hperiodic, hremove]
        exact List.Perm.refl _
      · exact fun p hp => hasync ▸ List.mem_cons_of_mem q hp
      · exact fun p hp => hperiodic.symm ▸ hp
    cases sub with
    | ctrl dev =>
      obtain ⟨hperm, hmono, hperiodic, hin⟩ := hasync hlists
      exact ⟨hperm, hmono, fun _ _ => hin, fun p hp => Or.inl (hperiodic p hp)⟩
    | bulk dev i =>
      obtain ⟨hperm, hmono, hperiodic, hin⟩ := hasync hlists
      refine ⟨hperm, hmono, fun htype _ => ?_, fun p hp => Or.inl (hperiodic p hp)⟩
      rw [OnItsType] at htype
      rw [EhciSubmission.pipe, Ehci.listFor, if_neg htype]
      exact hin
    | int dev i =>
      obtain ⟨hsame, k, hiqh⟩ := hlists
      have hperm := periodicList_cons hiqh
      refine ⟨?_, mem_listFor_mono ?_ ?_, fun htype _ => ?_, fun p hp => ?_⟩
      · rw [if_pos rfl, Ehci.qhs, Ehci.linked, hsame, hremove]
        refine (List.Perm.append_right _ (List.Perm.append_left _ hperm)).trans ?_
        exact List.perm_middle.append_right _
      · exact fun p hp => hsame.symm ▸ hp
      · exact fun p hp => hperm.mem_iff.2 (List.mem_cons_of_mem q hp)
      · rw [OnItsType] at htype
        rw [EhciSubmission.pipe, Ehci.listFor, if_pos htype]
        exact hperm.mem_iff.2 List.mem_cons_self
      · rcases List.mem_cons.1 (hperm.mem_iff.1 hp) with heq | hin
        · exact Or.inr ⟨heq, dev, i, rfl⟩
        · exact Or.inl hin

/-- An accepted submission. -/
theorem Queued.sound (h : EhciSound E other accepted s) (hqueued : Queued s s' sub v q new isNewQh) (hne : new ≠ [])
    (hone : ∀ dev i, sub = .int dev i → new.length = 1) (htype : OnItsType E sub) :
    EhciSound E other (Function.update accepted v (accepted v + 1)) s' := by
  obtain ⟨hperm, hmono, hnew, hperiodic⟩ := hqueued.lists_perm (E := E)
  have hserving := (hqueued.serving h hne).perm hperm
  have hin : q ∈ s'.listFor E sub.pipe := by
    cases isNewQh with
    | false => exact hmono _ q (h.pipe _ q hqueued.pipe)
    | true => exact hnew htype rfl
  -- no other endpoint has the queue head
  have hother : ∀ e, e ≠ sub.pipe → s.hwPipe e ≠ some q := by
    intro e he hpipe
    cases isNewQh with
    | false => exact he (h.inj e _ q hpipe hqueued.pipe)
    | true =>
      have hused := h.pipe_used hpipe
      rw [hqueued.fresh q List.mem_cons_self] at hused
      cases hused
  have hpipes : ∀ e p, s'.hwPipe e = some p → e = sub.pipe ∧ p = q ∨ e ≠ sub.pipe ∧ p ≠ q ∧ s.hwPipe e = some p := by
    intro e p hp
    rw [hqueued.hwPipe] at hp
    by_cases he : e = sub.pipe
    · subst he
      rw [Function.update_self] at hp
      exact Or.inl ⟨rfl, (Option.some.inj hp).symm⟩
    · rw [Function.update_of_ne he] at hp
      refine Or.inr ⟨he, ?_, hp⟩
      rintro rfl
      exact hother e he hp
  refine ⟨hserving, fun e p hp => ?_, fun e e' p hp hp' => ?_, fun p hp => ?_⟩
  · rcases hpipes e p hp with ⟨rfl, rfl⟩ | ⟨-, -, hold⟩
    · exact hin
    · exact hmono e p (h.pipe e p hold)
  · rcases hpipes e p hp with ⟨rfl, rfl⟩ | ⟨-, hne, hold⟩
    · rcases hpipes e' p hp' with ⟨rfl, -⟩ | ⟨-, hne', -⟩
      · rfl
      · exact absurd rfl hne'
    · rcases hpipes e' p hp' with ⟨-, heq⟩ | ⟨-, -, hold'⟩
      · exact absurd heq hne
      · exact h.inj e e' p hold hold'
  · rcases hperiodic p hp with hold | ⟨rfl, dev, i, hsub⟩
    · by_cases hpq : p = q
      · subst hpq
        -- it is in the list for its endpoint, so that this is an interrupt endpoint
        cases sub with
        | ctrl dev =>
          exact absurd hp ((List.nodup_append'.1 (List.nodup_append'.1 hserving.nodup).1).2.2 hin)
        | bulk dev i =>
          rw [OnItsType] at htype
          rw [EhciSubmission.pipe, Ehci.listFor, if_neg htype] at hin
          exact absurd hp ((List.nodup_append'.1 (List.nodup_append'.1 hserving.nodup).1).2.2 hin)
        | int dev i =>
          rw [hqueued.queue, hone dev i rfl]
      · rw [congrArg EhciQh.qtdList (hqueued.others p hpq)]
        exact h.single p hold
    · rw [hqueued.queue, hone dev i hsub]

end

/-! ## The controller and others -/

section

variable {E : Nat → EpInfo} {other : Set Unit64} {accepted : Nat → Nat} {s s' : Ehci} {q p t : Unit64} {v : Nat}

/-- What the controller writes is none of the lists. -/
theorem HcProgress.sound (h : EhciSound E other accepted s) (hprogress : HcProgress s s') :
    EhciSound E other accepted s' := by
  have hpool := congrArg Ehci.pool hprogress.rest
  have hasync := congrArg Ehci.asyncList hprogress.rest
  have hiqh := congrArg Ehci.iqh hprogress.rest
  have hremove := congrArg Ehci.removeList hprogress.rest
  have hpipe := congrArg Ehci.hwPipe hprogress.rest
  have hutr := congrArg Ehci.utr hprogress.rest
  have hat : ∀ p, SameAt s s' p := by
    intro p
    have hqueue := congrArg EhciQh.qtdList (hprogress.qh p)
    have hdone := congrArg EhciQh.doneList (hprogress.qh p)
    refine ⟨hqueue, hdone, fun t _ => ?_⟩
    have hqtd := congrArg Qtd.utr (hprogress.qtd t)
    exact hqtd
  refine h.of_lists (h.serving.same (fun p _ => hat p) (congrArg MemPool.unitUsed hpool) fun w => ?_) hasync hiqh
    hremove (fun e q hq => ?_) fun q hq => ?_
  · exact congrArg (fun f => (f w).calls) hutr
  · exact (congrFun hpipe e).symm.trans hq
  · rw [(hat q).queue]
    exact h.single q hq

/-- Others take and give back units. -/
theorem EhciSound.foreign (h : EhciSound E other accepted s) {pool : MemPool} {other' : Set Unit64}
    (hused : ∀ u, pool.unitUsed u = true ↔ s.pool.unitUsed u = true ∧ u ∉ other ∨ u ∈ other')
    (hother : ∀ u ∈ other', u ∈ other ∨ s.pool.unitUsed u = false) :
    EhciSound E other' accepted { s with pool := pool } := by
  refine h.of_lists ⟨h.serving.holds.foreign (fun u => ?_) hother, h.serving.utr, h.serving.once⟩ rfl rfl rfl
    (fun e q hq => hq) h.single
  rw [hused, h.serving.holds.used_iff]
  constructor
  · rintro (⟨hin | hother, hnot⟩ | hother')
    · exact Or.inl hin
    · exact absurd hother hnot
    · exact Or.inr hother'
  · rintro (hin | hother')
    · exact Or.inl ⟨Or.inl hin, h.serving.holds.apart u hin⟩
    · exact Or.inr hother'

/-! ## Scans -/

/-- Some qTDs of a queue head are taken back. -/
structure Scanning (s s' : Ehci) (q : Unit64) : Prop where
  pool : s'.pool = s.pool
  qtd : s'.qtd = s.qtd
  hwPipe : s'.hwPipe = s.hwPipe
  async : s'.asyncList = s.asyncList
  iqh : s'.iqh = s.iqh
  removeList : s'.removeList = s.removeList
  others : ∀ p, p ≠ q → s'.qh p = s.qh p
  perm : (s'.qh q).qtds.Perm (s.qh q).qtds
  sublist : (s'.qh q).qtdList.Sublist (s.qh q).qtdList
  calls : ∀ w, (s'.utr w).calls = (s.utr w).calls

theorem Scanning.refl (s : Ehci) (q : Unit64) : Scanning s s q :=
  ⟨rfl, rfl, rfl, rfl, rfl, rfl, fun _ _ => rfl, List.Perm.refl _, List.Sublist.refl _, fun _ => rfl⟩

theorem Scanning.trans {s₁ : Ehci} (h : Scanning s s₁ q) (h' : Scanning s₁ s' q) : Scanning s s' q where
  pool := h'.pool.trans h.pool
  qtd := h'.qtd.trans h.qtd
  hwPipe := h'.hwPipe.trans h.hwPipe
  async := h'.async.trans h.async
  iqh := h'.iqh.trans h.iqh
  removeList := h'.removeList.trans h.removeList
  others p hp := (h'.others p hp).trans (h.others p hp)
  perm := h'.perm.trans h.perm
  sublist := h'.sublist.trans h.sublist
  calls w := (h'.calls w).trans (h.calls w)

/-- One qTD. -/
theorem scanQtd_scanning (o : Option Nat) (ht : t ∈ (s.qh q).qtdList) : scanQtd q (o, s) t = (o, s) ∨
    ((scanQtd q (o, s) t).1 = some (s.qtd t).utr ∧ Scanning s (scanQtd q (o, s) t).2 q ∧
      ((scanQtd q (o, s) t).2.qh q).qtdList = (s.qh q).qtdList.erase t) := by
  simp only [scanQtd, visitQtd_eq]
  by_cases hdone : (s.qtd t).done = true
  · rw [if_pos hdone]
    refine Or.inr ⟨rfl, ⟨rfl, rfl, rfl, rfl, rfl, rfl, fun p hp => Function.update_of_ne hp .., ?_, ?_, fun w => ?_⟩, ?_⟩
    · simp only [Ehci.setQh_same, EhciQh.qtds]
      exact List.perm_middle.trans ((List.perm_cons_erase ht).symm.append_right _)
    · simp only [Ehci.setQh_same]
      exact List.erase_sublist
    · by_cases hw : w = (s.qtd t).utr
      · subst hw
        simp [Ehci.setUtr, Ehci.setQh, told_calls]
      · simp [Ehci.setUtr, Ehci.setQh, hw]
    · simp only [Ehci.setQh_same]
      rfl
  · rw [if_neg hdone]
    exact Or.inl rfl

/-- The qTDs of a queue, one after another. -/
theorem scanQtds_scanning (o : Option Nat) {ts : List Unit64} (hnodup : ts.Nodup)
    (hts : ∀ t ∈ ts, t ∈ (s.qh q).qtdList) : ts.foldl (scanQtd q) (o, s) = (o, s) ∨
      (∃ t ∈ ts, (ts.foldl (scanQtd q) (o, s)).1 = some (s.qtd t).utr) ∧
        Scanning s (ts.foldl (scanQtd q) (o, s)).2 q := by
  induction ts generalizing s o with
  | nil => exact Or.inl rfl
  | cons t ts ih =>
    obtain ⟨ht, hts⟩ := List.forall_mem_cons.1 hts
    obtain ⟨hnot, hnodup⟩ := List.nodup_cons.1 hnodup
    rw [List.foldl_cons]
    rcases scanQtd_scanning o ht with heq | ⟨hutr, hscan, herase⟩
    · rw [heq]
      rcases ih o hnodup hts with hsame | ⟨⟨t', ht', hlast⟩, hscan⟩
      · exact Or.inl hsame
      · exact Or.inr ⟨⟨t', List.mem_cons_of_mem t ht', hlast⟩, hscan⟩
    · rcases hstep : scanQtd q (o, s) t with ⟨o₁, s₁⟩
      rw [hstep] at hutr hscan herase
      have hts' : ∀ x ∈ ts, x ∈ (s₁.qh q).qtdList := by
        intro x hx
        rw [herase]
        refine (List.mem_erase_of_ne ?_).2 (hts x hx)
        rintro rfl
        exact hnot hx
      right
      rcases ih o₁ hnodup hts' with hsame | ⟨⟨t', ht', hlast⟩, hscan'⟩
      · rw [hsame]
        exact ⟨⟨t, List.mem_cons_self, hutr⟩, hscan⟩
      · refine ⟨⟨t', List.mem_cons_of_mem t ht', ?_⟩, hscan.trans hscan'⟩
        rw [hlast, hscan.qtd]

/-- What a queue head's turn does: nothing of its transfer request is called back while qTDs are left. -/
theorem scanQh_scanning (hnodup : (s.qh q).qtdList.Nodup)
    (hutr : ∀ t ∈ (s.qh q).qtdList, some (s.qtd t).utr = s.waiting q) :
    ∃ s₁, Scanning s s₁ q ∧ (scanQh s q = s₁ ∧ s₁.waiting q = s.waiting q ∨
      ∃ v, s.waiting q = some v ∧ (s₁.qh q).qtdList = [] ∧ scanQh s q = completeUtr s₁ q v) := by
  rcases scanQtds_scanning none hnodup (fun t ht => ht) with hsame | ⟨⟨t, ht, hlast⟩, hscan⟩
  · refine ⟨s, Scanning.refl s q, Or.inl ⟨?_, rfl⟩⟩
    rw [scanQh, hsame]
  · rcases hfold : (s.qh q).qtdList.foldl (scanQtd q) (none, s) with ⟨o, s₁⟩
    rw [hfold] at hlast hscan
    dsimp only at hlast hscan
    subst hlast
    refine ⟨s₁, hscan, ?_⟩
    rw [scanQh, hfold]
    dsimp only
    by_cases hempty : (s₁.qh q).qtdList = []
    · rw [if_pos hempty]
      exact Or.inr ⟨(s.qtd t).utr, (hutr t ht).symm, hempty, rfl⟩
    · rw [if_neg hempty]
      refine Or.inl ⟨rfl, ?_⟩
      obtain ⟨x, rest, hlist⟩ := List.exists_cons_of_ne_nil hempty
      have hx : x ∈ (s.qh q).qtdList := hscan.sublist.mem (hlist ▸ List.mem_cons_self)
      rw [Ehci.waiting, hlist, ← hutr x hx, hscan.qtd]
      rfl

/-- A scan of a queue head. -/
theorem EhciSound.scanQh (h : EhciSound E other accepted s) (hq : q ∈ s.linked) :
    EhciSound E other accepted (UsbHost.scanQh s q) := by
  have hin : q ∈ s.qhs := List.mem_append_left _ hq
  have hheld := h.serving.holds.nodup
  have hsplit := (heldBy_split (s := s) hin).nodup_iff.1 hheld
  have hnodup : (s.qh q).qtdList.Nodup :=
    (List.nodup_append'.1 (List.nodup_append'.1 (List.nodup_cons.1 hsplit).2).1).1
  have hutr := h.serving.utr q hin
  obtain ⟨s₁, hscan, hcases⟩ := scanQh_scanning hnodup hutr
  have hother : ∀ p, p ≠ q → SameAt s s₁ p := by
    intro p hp
    have hqh := hscan.others p hp
    exact ⟨congrArg EhciQh.qtdList hqh, congrArg EhciQh.doneList hqh, fun t _ => by rw [hscan.qtd]⟩
  have hholds : Holds s₁.pool.unitUsed other (q :: ((s₁.qh q).qtds ++ s.heldBy (s.qhs.erase q))) := by
    rw [hscan.pool]
    refine h.serving.holds.perm ?_
    exact ((hscan.perm.append_right _).cons q).trans (heldBy_split hin).symm
  have hsingle : ∀ p ∈ s.periodicList, (s₁.qh p).qtdList.length ≤ 1 := by
    intro p hp
    by_cases hpq : p = q
    · subst hpq
      exact (hscan.sublist.length_le).trans (h.single p hp)
    · rw [(hother p hpq).queue]
      exact h.single p hp
  have hpipe : ∀ e p, s₁.hwPipe e = some p → s.hwPipe e = some p := by
    intro e p hp
    rwa [hscan.hwPipe] at hp
  rcases hcases with ⟨heq, hwait⟩ | ⟨v, hwait, hempty, heq⟩
  · rw [heq]
    refine h.of_lists ?_ hscan.async hscan.iqh hscan.removeList hpipe hsingle
    refine h.serving.atQh hin (fun p _ hp => hother p hp) hholds (fun t ht => ?_) fun w => ?_
    · rw [hscan.qtd, hwait]
      exact hutr t (hscan.sublist.mem ht)
    · rw [hscan.calls, hwait]
      omega
  · rw [heq]
    refine h.of_lists ?_ hscan.async hscan.iqh hscan.removeList hpipe hsingle
    have hwait' : (completeUtr s₁ q v).waiting q = none := by
      show ((s₁.qh q).qtdList.head?.map fun t => (s₁.qtd t).utr) = none
      rw [hempty]
      rfl
    refine h.serving.atQh hin (fun p _ hp => ⟨(hother p hp).queue, (hother p hp).done, (hother p hp).utr⟩) hholds
      (fun t ht => ?_) fun w => ?_
    · have ht' : t ∈ (s₁.qh q).qtdList := ht
      rw [hempty] at ht'
      cases ht'
    · rw [hwait', hwait, if_neg (Option.some_ne_none w).symm]
      by_cases hw : w = v
      · subst hw
        simp only [completeUtr, Ehci.setUtr, Function.update_self, if_true, hscan.calls]
        omega
      · rw [if_neg fun heq => hw (Option.some.inj heq).symm]
        simp only [completeUtr, Ehci.setUtr, Function.update_of_ne hw, hscan.calls]
        omega

/-- A queue head with one qTD at most has the same turn in both lists. -/
theorem scanIntQh_eq (h : (s.qh q).qtdList.length ≤ 1) : scanIntQh s q = UsbHost.scanQh s q := by
  cases hlist : (s.qh q).qtdList with
  | nil =>
    rw [scanIntQh, UsbHost.scanQh, hlist]
    rfl
  | cons t rest =>
    have hrest : rest = [] := by
      rw [hlist, List.length_cons] at h
      exact List.length_eq_zero_iff.1 (by omega)
    subst hrest
    simp only [scanIntQh, UsbHost.scanQh, hlist, visitQtd_eq, List.foldl_cons, List.foldl_nil, scanQtd]
    by_cases hdone : (s.qtd t).done = true
    · simp [hdone, Ehci.setQh, Ehci.setUtr, hlist]
    · rw [if_neg hdone]
      dsimp only
      split
      · rfl
      · rw [hlist, if_neg (List.cons_ne_nil t [])]

end

/-! ## Removal -/

section

variable {E : Nat → EpInfo} {other : Set Unit64} {accepted : Nat → Nat} {s s' : Ehci} {q p t : Unit64} {v : Nat}
  {qs rs : List Unit64}

/-- An endpoint's queue head goes to the remove list. -/
theorem EhciSound.quitPipe (h : EhciSound E other accepted s) (e : EpRef) :
    EhciSound E other accepted (UsbHost.quitPipe s e) := by
  rw [UsbHost.quitPipe]
  cases hpipe : s.hwPipe e with
  | none => exact h
  | some q =>
    obtain ⟨hasync, hperiodic, hdisj, hremove⟩ := h.disjoint
    have hlinked : q ∈ s.linked := mem_linked_of_listFor (h.pipe e q hpipe)
    have hothers : ∀ (s' : Ehci), s'.hwPipe = s.hwPipe → (s'.setPipe e none).qhs.Perm s.qhs →
        (∀ p, p ≠ q → p ∈ s.asyncList → p ∈ s'.asyncList) → (∀ p, p ≠ q → p ∈ s.periodicList → p ∈ s'.periodicList) →
        (∀ p ∈ s'.periodicList, p ∈ s.periodicList) → s'.pool = s.pool → s'.qh = s.qh → s'.qtd = s.qtd →
        s'.utr = s.utr → EhciSound E other accepted (s'.setPipe e none) := by
      intro s' hhw hperm hmonoA hmonoP hsub hpool hqh hqtd hutr
      have hpipes : ∀ e' p, (s'.setPipe e none).hwPipe e' = some p → s.hwPipe e' = some p ∧ p ≠ q := by
        intro e' p hp
        by_cases he : e' = e
        · subst he
          simp [Ehci.setPipe] at hp
        · have hold : s.hwPipe e' = some p := by simpa [Ehci.setPipe, he, hhw] using hp
          refine ⟨hold, ?_⟩
          rintro rfl
          exact he (h.inj e' e p hold hpipe)
      refine ⟨Serving.perm ?_ hperm, fun e' p hp => ?_, fun e₁ e₂ p hp hp' => ?_, fun p hp => ?_⟩
      · refine h.serving.same (fun p _ => ⟨?_, ?_, fun t _ => ?_⟩) (congrArg MemPool.unitUsed hpool) fun w => ?_
        · exact congrArg (fun f => (f p).qtdList) hqh
        · exact congrArg (fun f => (f p).doneList) hqh
        · exact congrArg (fun f => (f t).utr) hqtd
        · exact congrArg (fun f => (f w).calls) hutr
      · obtain ⟨hold, hne⟩ := hpipes e' p hp
        have hin := h.pipe e' p hold
        cases e' with
        | ep0 dev => exact hmonoA p hne hin
        | ep i =>
          rw [Ehci.listFor] at hin ⊢
          split
          · rename_i hint
            rw [if_pos hint] at hin
            exact hmonoP p hne hin
          · rename_i hint
            rw [if_neg hint] at hin
            exact hmonoA p hne hin
      · exact h.inj e₁ e₂ p (hpipes e₁ p hp).1 (hpipes e₂ p hp').1
      · have hqueue : ((s'.setPipe e none).qh p).qtdList = (s.qh p).qtdList := congrArg (fun f => (f p).qtdList) hqh
        rw [hqueue]
        exact h.single p (hsub p hp)
    dsimp only
    rw [moveQhToRemoveList, if_neg (hremove q hlinked)]
    by_cases hin : q ∈ s.asyncList
    · rw [if_pos hin]
      refine hothers _ rfl ?_ (fun p hp hmem => (List.mem_erase_of_ne hp).2 hmem) (fun p _ hmem => hmem)
        (fun p hmem => hmem) rfl rfl rfl rfl
      show ((s.asyncList.erase q ++ s.periodicList) ++ q :: s.removeList).Perm
        ((s.asyncList ++ s.periodicList) ++ s.removeList)
      refine List.perm_middle.trans ?_
      rw [← List.cons_append, ← List.cons_append]
      exact ((List.perm_cons_erase hin).symm.append_right _).append_right _
    · rw [if_neg hin]
      have hin' : q ∈ s.periodicList := (List.mem_append.1 hlinked).resolve_left hin
      cases hfind : (List.finRange NUM_IQH).reverse.find? fun k => decide (q ∈ s.iqh k) with
      | none =>
        obtain ⟨k, hk, hmem⟩ := List.mem_flatMap.1 hin'
        exact absurd (decide_eq_true hmem) (List.find?_eq_none.1 hfind k hk)
      | some k =>
        have hk : q ∈ s.iqh k := of_decide_eq_true (List.find?_some (p := fun k => decide (q ∈ s.iqh k)) hfind)
        let s' : Ehci :=
          { s with iqh := Function.update s.iqh k ((s.iqh k).erase q), removeList := q :: s.removeList, iaad := true }
        have hperm : s.periodicList.Perm (q :: s'.periodicList) := periodicList_erase hk rfl
        refine hothers s' rfl ?_ (fun p _ hmem => hmem) (fun p hp hmem => ?_) (fun p hmem => ?_) rfl rfl rfl rfl
        · show ((s.asyncList ++ s'.periodicList) ++ q :: s.removeList).Perm
            ((s.asyncList ++ s.periodicList) ++ s.removeList)
          refine List.perm_middle.trans ?_
          rw [← List.cons_append]
          refine List.Perm.append_right _ ?_
          exact List.perm_middle.symm.trans (hperm.symm.append_left _)
        · exact List.mem_of_ne_of_mem hp (hperm.mem_iff.1 hmem)
        · exact hperm.mem_iff.2 (List.mem_cons_of_mem q hmem)

/-- A cancellation. -/
theorem EhciSound.quitXfer (h : EhciSound E other accepted s) (utr : Option Nat) (ep : Option EpRef) :
    EhciSound E other accepted (ehciQuitXfer s utr ep).2 := by
  have helim : ∀ s, EhciSound E other accepted s → EhciSound E other accepted (ep.elim s (UsbHost.quitPipe s)) := by
    intro s h
    cases ep with
    | none => exact h
    | some e => exact h.quitPipe e
  cases utr with
  | none => exact helim s h
  | some v =>
    rw [ehciQuitXfer]
    dsimp only
    split
    · exact h
    · exact helim _ (h.quitPipe _)

/-! ## The doorbell -/

/-- What freeing qTDs and queue heads leaves. -/
structure FreedQh (s s' : Ehci) : Prop where
  qtd : s'.qtd = s.qtd
  hwPipe : s'.hwPipe = s.hwPipe
  async : s'.asyncList = s.asyncList
  iqh : s'.iqh = s.iqh
  removeList : s'.removeList = s.removeList

theorem FreedQh.refl (s : Ehci) : FreedQh s s := ⟨rfl, rfl, rfl, rfl, rfl⟩

theorem FreedQh.trans {s₁ : Ehci} (h : FreedQh s s₁) (h' : FreedQh s₁ s') : FreedQh s s' where
  qtd := h'.qtd.trans h.qtd
  hwPipe := h'.hwPipe.trans h.hwPipe
  async := h'.async.trans h.async
  iqh := h'.iqh.trans h.iqh
  removeList := h'.removeList.trans h.removeList

/-- The done list of a queue head is freed. -/
theorem freeDoneList_spec (s : Ehci) (q : Unit64) : FreedQh s (freeDoneList s q) ∧
    (∀ u, (freeDoneList s q).pool.unitUsed u = (s.pool.unitUsed u && !decide (u ∈ (s.qh q).doneList))) ∧
    (freeDoneList s q).qh = Function.update s.qh q { s.qh q with doneList := [] } ∧
    (freeDoneList s q).utr = s.utr := by
  rw [freeDoneList, foldl_free]
  exact ⟨⟨rfl, rfl, rfl, rfl, rfl⟩, fun _ => rfl, rfl, rfl⟩

theorem freeDoneList_queue (s : Ehci) (q p : Unit64) : ((freeDoneList s q).qh p).qtdList = (s.qh p).qtdList := by
  rw [(freeDoneList_spec s q).2.2.1]
  by_cases hp : p = q
  · subst hp
    rw [Function.update_self]
  · rw [Function.update_of_ne hp]

theorem Serving.freeDone (h : Serving other accepted s qs) (hq : q ∈ qs) :
    Serving other accepted (freeDoneList s q) qs := by
  obtain ⟨hfreed, hused, hqh, hutr⟩ := freeDoneList_spec s q
  have hwait : (freeDoneList s q).waiting q = s.waiting q := by
    rw [Ehci.waiting, freeDoneList_queue, hfreed.qtd, Ehci.waiting]
  refine h.atQh hq (fun p _ hp => ?_) ?_ (fun t ht => ?_) fun w => ?_
  · have hsame : (freeDoneList s q).qh p = s.qh p := by rw [hqh, Function.update_of_ne hp]
    exact ⟨congrArg EhciQh.qtdList hsame, congrArg EhciQh.doneList hsame, fun t _ => by rw [hfreed.qtd]⟩
  · refine Holds.give (s.qh q).doneList (h.holds.perm ?_) hused
    have hqtds : ((freeDoneList s q).qh q).qtds = (s.qh q).qtdList := by
      rw [hqh, Function.update_self, EhciQh.qtds, List.append_nil]
    rw [hqtds]
    refine (List.perm_middle.trans ?_).trans (heldBy_split hq).symm
    refine List.Perm.cons q ?_
    rw [EhciQh.qtds, ← List.append_assoc]
    exact List.perm_append_comm.append_right _
  · rw [freeDoneList_queue] at ht
    rw [hfreed.qtd, hwait]
    exact h.utr q hq t ht
  · rw [hutr, hwait]
    omega

/-- A queue head is freed with its qTDs, and its transfer request is called back. -/
theorem removeQh_spec (s : Ehci) (q : Unit64) : FreedQh s (removeQh s q) ∧
    (∀ u, (removeQh s q).pool.unitUsed u = (s.pool.unitUsed u && !decide (u ∈ q :: (s.qh q).qtds))) ∧
    (∀ p, p ≠ q → (removeQh s q).qh p = s.qh p) ∧
    ∀ w, ((removeQh s q).utr w).calls = (s.utr w).calls + if s.waiting q = some w then 1 else 0 := by
  obtain ⟨hfreed, hused, hqh, hutr⟩ := freeDoneList_spec s q
  have hqueue := freeDoneList_queue s q q
  have hothers : ∀ p, p ≠ q → (freeDoneList s q).qh p = s.qh p := by
    intro p hp
    rw [hqh, Function.update_of_ne hp]
  rw [removeQh]
  dsimp only
  cases hlist : (s.qh q).qtdList with
  | nil =>
    rw [hqueue, hlist]
    refine ⟨hfreed.trans ⟨rfl, rfl, rfl, rfl, rfl⟩, fun u => ?_, hothers, fun w => ?_⟩
    · refine (MemPool.give_unitUsed _ q u).trans ?_
      rw [hused, EhciQh.qtds, hlist]
      by_cases hu : u = q <;> simp [hu]
    · have hnone : s.waiting q = none := by
        rw [Ehci.waiting, hlist]
        rfl
      rw [hnone, if_neg (Option.some_ne_none w).symm]
      exact congrArg (fun f => (f w).calls) hutr
  | cons t rest =>
    rw [hqueue, hlist]
    dsimp only
    rw [foldl_free]
    have hwait : s.waiting q = some (s.qtd t).utr := by
      rw [Ehci.waiting, hlist]
      rfl
    refine ⟨hfreed.trans ⟨rfl, rfl, rfl, rfl, rfl⟩, fun u => ?_, fun p hp => ?_, fun w => ?_⟩
    · refine (MemPool.give_unitUsed _ q u).trans ?_
      show (if u = q then false else (freeDoneList s q).pool.unitUsed u && !decide (u ∈ t :: rest)) = _
      rw [hused, EhciQh.qtds, hlist]
      by_cases hu : u = q
      · simp [hu]
      · rw [if_neg hu]
        by_cases hdone : u ∈ (s.qh q).doneList <;> simp [hu, hdone]
    · exact (Function.update_of_ne hp ..).trans (hothers p hp)
    · have hv : ((freeDoneList s q).qtd t).utr = (s.qtd t).utr := by rw [hfreed.qtd]
      rw [hwait]
      by_cases hw : w = (s.qtd t).utr
      · subst hw
        simp [Ehci.setUtr, Ehci.setQh, Ehci.free, hv, hutr]
      · rw [if_neg fun heq => hw (Option.some.inj heq).symm]
        have hw' : w ≠ ((freeDoneList s q).qtd t).utr := hv.symm ▸ hw
        simp [Ehci.setUtr, Ehci.setQh, Ehci.free, hw', hutr]

theorem Serving.removeQh (h : Serving other accepted s (q :: qs)) :
    Serving other accepted (UsbHost.removeQh s q) qs := by
  obtain ⟨hfreed, hused, hothers, hcalls⟩ := removeQh_spec s q
  obtain ⟨hnot, -⟩ := List.nodup_cons.1 h.nodup
  refine h.drop (fun p hp => ?_) hused hcalls
  have hsame : (UsbHost.removeQh s q).qh p = s.qh p := by
    refine hothers p ?_
    rintro rfl
    exact hnot hp
  exact ⟨congrArg EhciQh.qtdList hsame, congrArg EhciQh.doneList hsame, fun t _ => by rw [hfreed.qtd]⟩

/-- The queue heads of the remove list, one after another. -/
theorem Serving.removeQhs (h : Serving other accepted s (rs ++ qs)) :
    Serving other accepted (rs.foldl UsbHost.removeQh s) qs ∧ FreedQh s (rs.foldl UsbHost.removeQh s) ∧
      ∀ p ∈ qs, ((rs.foldl UsbHost.removeQh s).qh p).qtdList = (s.qh p).qtdList := by
  induction rs generalizing s with
  | nil => exact ⟨h, FreedQh.refl s, fun _ _ => rfl⟩
  | cons q rs ih =>
    rw [List.cons_append] at h
    obtain ⟨hnot, -⟩ := List.nodup_cons.1 h.nodup
    obtain ⟨hserving, hfreed, hqueue⟩ := ih h.removeQh
    obtain ⟨hfreed₁, -, hothers, -⟩ := removeQh_spec s q
    refine ⟨hserving, hfreed₁.trans hfreed, fun p hp => ?_⟩
    have hpq : p ≠ q := by
      rintro rfl
      exact hnot (List.mem_append_right _ hp)
    exact (hqueue p hp).trans (congrArg EhciQh.qtdList (hothers p hpq))

/-- The done lists of queue heads, one after another. -/
theorem Serving.freeDones (h : Serving other accepted s qs) (hrs : ∀ q ∈ rs, q ∈ qs) :
    Serving other accepted (rs.foldl freeDoneList s) qs ∧ FreedQh s (rs.foldl freeDoneList s) ∧
      ∀ p, ((rs.foldl freeDoneList s).qh p).qtdList = (s.qh p).qtdList := by
  induction rs generalizing s with
  | nil => exact ⟨h, FreedQh.refl s, fun _ => rfl⟩
  | cons q rs ih =>
    obtain ⟨hq, hrs⟩ := List.forall_mem_cons.1 hrs
    obtain ⟨hserving, hfreed, hqueue⟩ := ih (h.freeDone hq) hrs
    exact ⟨hserving, (freeDoneList_spec s q).1.trans hfreed, fun p => (hqueue p).trans (freeDoneList_queue s q p)⟩

/-- The interrupt of the doorbell. -/
theorem EhciSound.iaad (h : EhciSound E other accepted s) : EhciSound E other accepted (iaadRemoveQh s) := by
  let s₀ : Ehci := { s with removeList := [] }
  have hserving₀ : Serving other accepted s₀ (s.removeList ++ s.linked) := by
    have hperm : Serving other accepted s (s.removeList ++ s.linked) := h.serving.perm List.perm_append_comm
    exact ⟨hperm.holds, hperm.utr, hperm.once⟩
  obtain ⟨hserving₁, hfreed₁, hqueue₁⟩ := hserving₀.removeQhs
  let s₁ := s.removeList.foldl UsbHost.removeQh s₀
  have hasync₁ : s₁.asyncList = s.asyncList := hfreed₁.async
  have hperiodic₁ : s₁.periodicList = s.periodicList := by
    rw [Ehci.periodicList, hfreed₁.iqh, Ehci.periodicList]
  obtain ⟨hserving₂, hfreed₂, hqueue₂⟩ := Serving.freeDones hserving₁ (fun q (hq : q ∈ s₁.asyncList) =>
    List.mem_append_left _ (hasync₁ ▸ hq))
  let s₂ := s₁.asyncList.foldl freeDoneList s₁
  have hperiodic₂ : s₂.periodicList = s.periodicList := by
    rw [Ehci.periodicList, hfreed₂.iqh, ← Ehci.periodicList]
    exact hperiodic₁
  obtain ⟨hserving₃, hfreed₃, hqueue₃⟩ := Serving.freeDones hserving₂ (fun q (hq : q ∈ s₂.periodicList) =>
    List.mem_append_right _ (hperiodic₂ ▸ hq))
  have hfreed := (hfreed₁.trans hfreed₂).trans hfreed₃
  have hiaad : iaadRemoveQh s = s₂.periodicList.foldl freeDoneList s₂ := rfl
  rw [hiaad]
  have hasync : (s₂.periodicList.foldl freeDoneList s₂).asyncList = s.asyncList := hfreed.async
  have hiqh : (s₂.periodicList.foldl freeDoneList s₂).iqh = s.iqh := hfreed.iqh
  have hremove : (s₂.periodicList.foldl freeDoneList s₂).removeList = [] := hfreed.removeList
  have hperiodic : (s₂.periodicList.foldl freeDoneList s₂).periodicList = s.periodicList := by
    rw [Ehci.periodicList, hiqh, Ehci.periodicList]
  refine ⟨?_, fun e q hq => ?_, fun e e' q hq hq' => ?_, fun q hq => ?_⟩
  · rw [Ehci.qhs, Ehci.linked, hasync, hperiodic, hremove, List.append_nil]
    exact hserving₃
  · rw [listFor_congr hasync hiqh]
    rw [hfreed.hwPipe] at hq
    exact h.pipe e q hq
  · rw [hfreed.hwPipe] at hq hq'
    exact h.inj e e' q hq hq'
  · rw [hperiodic] at hq
    rw [hqueue₃, hqueue₂, hqueue₁ q (List.mem_append_right _ hq)]
    exact h.single q hq

end

/-! ## Runs -/

section

variable {E : Nat → EpInfo} {y y' y₀ : EhciSys} {a : EhciEvent} {labels : List EhciEvent}

theorem EhciStart.sound (h : EhciStart y) : EhciSound E y.other y.accepted y.drv := by
  have hperiodic : y.drv.periodicList = [] := by
    refine List.flatMap_eq_nil_iff.2 fun k _ => h.periodic k
  have hqhs : y.drv.qhs = [] := by
    rw [Ehci.qhs, Ehci.linked, h.async, hperiodic, h.removeList]
    rfl
  refine ⟨?_, fun e q hq => ?_, fun e e' q hq => ?_, fun q hq => ?_⟩
  · rw [hqhs]
    refine ⟨⟨List.nodup_nil, fun u => ?_, fun u hu => absurd hu List.not_mem_nil⟩,
      fun q hq => absurd hq List.not_mem_nil, h.calls⟩
    rw [h.used]
    simp [Ehci.heldBy]
  · rw [h.pipe] at hq
    cases hq
  · rw [h.pipe] at hq
    cases hq
  · rw [hperiodic] at hq
    exact absurd hq List.not_mem_nil

/-- A careful step. -/
theorem EhciStep.sound (h : EhciSound E y.other y.accepted y.drv) (hstep : where_ (EhciStep E) (Careful E) y a y') :
    EhciSound E y'.other y'.accepted y'.drv := by
  obtain ⟨hcareful, hstep⟩ := hstep
  cases hstep with
  | accept hxfer =>
    obtain ⟨htype, hdata, -⟩ := hcareful
    rcases ehciXfer_spec hxfer with ⟨-, q, new, isNewQh, hqueued, hne, hone⟩ | ⟨hne, -⟩ | ⟨hmem, -⟩
    · exact hqueued.sound h (hne hdata) hone htype
    · exact absurd rfl hne
    · exact absurd hmem (by decide)
  | refuse hxfer hret =>
    obtain ⟨-, -, hrolls⟩ := hcareful
    rcases ehciXfer_spec hxfer with ⟨hzero, -⟩ | ⟨-, hsame, -⟩ | ⟨rfl, hnot, -⟩
    · exact absurd hzero hret
    · exact hsame.sound h
    · exact absurd (hrolls _ hxfer) hnot
  | progress hprogress => exact hprogress.sound h
  | scanQh hq => exact h.scanQh (List.mem_append_left _ hq)
  | scanIntQh hq =>
    have heq := scanIntQh_eq (h.single _ hq)
    dsimp only
    rw [heq]
    exact h.scanQh (List.mem_append_right _ hq)
  | iaad => exact h.iaad
  | quit => exact h.quitXfer _ _
  | dropPipe =>
    refine h.of_lists ⟨h.serving.holds, h.serving.utr, h.serving.once⟩ rfl rfl rfl (fun e q hq => ?_) h.single
    simp only [Ehci.setPipe, Function.update_apply] at hq
    split at hq
    · cases hq
    · exact hq
  | foreign hused hother => exact h.foreign hused hother

/-- Every state of a careful run is sound. -/
theorem ehci_sound (h0 : EhciStart y₀) (hrun : Run (where_ (EhciStep E) (Careful E)) y₀ labels y) :
    EhciSound E y.other y.accepted y.drv :=
  hrun.invariant (I := fun y => EhciSound E y.other y.accepted y.drv) EhciStep.sound h0.sound

end

/-- **The driver holds its units once.** In every careful run. -/
theorem ehci_holds (E : Nat → EpInfo) (y₀ y : EhciSys) (labels : List EhciEvent) (h0 : EhciStart y₀)
    (hrun : Run (where_ (EhciStep E) (Careful E)) y₀ labels y) :
    Holds y.drv.pool.unitUsed y.other (y.drv.heldBy y.drv.qhs) :=
  (ehci_sound h0 hrun).serving.holds

/-- **A transfer request is called back once.** In every careful run. -/
theorem ehci_calledOnce (E : Nat → EpInfo) (y₀ y : EhciSys) (labels : List EhciEvent) (h0 : EhciStart y₀)
    (hrun : Run (where_ (EhciStep E) (Careful E)) y₀ labels y) (v : Nat) :
    y.accepted v = (y.drv.utr v).calls + (y.drv.qhs.map y.drv.waiting).count (some v) :=
  (ehci_sound h0 hrun).serving.once v

/-- A driver without units, and the driver after the submission of a control transfer. -/
def idleSys : EhciSys := ⟨idleEhci 0, ∅, fun _ => 0⟩

@[inherit_doc idleSys]
def submittedSys : EhciSys := ⟨submittedCtrl, ∅, Function.update (fun _ => 0) 0 1⟩

theorem idleSys_start : EhciStart idleSys :=
  ⟨rfl, fun _ => rfl, rfl, fun _ => rfl, fun _ => ⟨fun h => absurd h Bool.false_ne_true, False.elim⟩, fun _ => rfl⟩

theorem submittedSys_run :
    Run (where_ (EhciStep fun _ => bulkOut) (Careful fun _ => bulkOut)) idleSys [.submit 0 (.ctrl 0)] submittedSys := by
  refine Run.snoc Run.nil ⟨⟨trivial, fun dev i h => ?_, fun s' h => ?_⟩, EhciStep.accept submittedCtrl_eq⟩
  · cases h
  · cases submittedCtrl_eq.symm.trans h

theorem ehci_holds_submitted : Holds submittedCtrl.pool.unitUsed ∅ (submittedCtrl.heldBy submittedCtrl.qhs) :=
  ehci_holds (fun _ => bulkOut) idleSys submittedSys [.submit 0 (.ctrl 0)] idleSys_start submittedSys_run

theorem ehci_calledOnce_submitted :
    1 = (submittedCtrl.utr 0).calls + (submittedCtrl.qhs.map submittedCtrl.waiting).count (some 0) :=
  ehci_calledOnce (fun _ => bulkOut) idleSys submittedSys [.submit 0 (.ctrl 0)] idleSys_start submittedSys_run 0

/-! ## Whole scans -/

section

variable {E : Nat → EpInfo} {other : Set Unit64} {accepted : Nat → Nat} {s s' : Ehci} {q p t : Unit64} {v : Nat}
  {ps : List Unit64}

/-- What the turns of other queue heads leave of a queue head, and of the lists. -/
structure Turns (s s' : Ehci) (q : Unit64) : Prop where
  qtd : s'.qtd = s.qtd
  queue : (s'.qh q).qtdList = (s.qh q).qtdList
  async : s'.asyncList = s.asyncList
  iqh : s'.iqh = s.iqh
  calls : ∀ w, (s.utr w).calls ≤ (s'.utr w).calls

theorem Turns.refl (s : Ehci) (q : Unit64) : Turns s s q := ⟨rfl, rfl, rfl, rfl, fun _ => Nat.le_refl _⟩

theorem Turns.trans {s₁ : Ehci} (h : Turns s s₁ q) (h' : Turns s₁ s' q) : Turns s s' q where
  qtd := h'.qtd.trans h.qtd
  queue := h'.queue.trans h.queue
  async := h'.async.trans h.async
  iqh := h'.iqh.trans h.iqh
  calls w := (h.calls w).trans (h'.calls w)

theorem EhciSound.queue_nodup (h : EhciSound E other accepted s) (hq : q ∈ s.qhs) : (s.qh q).qtdList.Nodup := by
  have hsplit := (heldBy_split (s := s) hq).nodup_iff.1 h.serving.holds.nodup
  exact (List.nodup_append'.1 (List.nodup_append'.1 (List.nodup_cons.1 hsplit).2).1).1

/-- The turn of a queue head, seen from another one, or from the lists. -/
theorem scanQh_turns (h : EhciSound E other accepted s) (hp : p ∈ s.linked) :
    (scanQh s p).qtd = s.qtd ∧ (scanQh s p).asyncList = s.asyncList ∧ (scanQh s p).iqh = s.iqh ∧
      (∀ w, (s.utr w).calls ≤ ((scanQh s p).utr w).calls) ∧ ∀ q, q ≠ p → (scanQh s p).qh q = s.qh q := by
  have hin : p ∈ s.qhs := List.mem_append_left _ hp
  obtain ⟨s₁, hscan, hcases⟩ := scanQh_scanning (h.queue_nodup hin) (h.serving.utr p hin)
  rcases hcases with ⟨heq, -⟩ | ⟨v, -, -, heq⟩
  · rw [heq]
    exact ⟨hscan.qtd, hscan.async, hscan.iqh, fun w => (hscan.calls w).ge, hscan.others⟩
  · rw [heq]
    refine ⟨hscan.qtd, hscan.async, hscan.iqh, fun w => ?_, hscan.others⟩
    rw [← hscan.calls]
    by_cases hw : w = v
    · subst hw
      simp [completeUtr, Ehci.setUtr]
    · simp [completeUtr, Ehci.setUtr, hw]

/-- The turns of other queue heads. -/
theorem foldl_scanQh_turns (h : EhciSound E other accepted s) (hps : ∀ p ∈ ps, p ∈ s.linked) (hq : q ∉ ps) :
    EhciSound E other accepted (ps.foldl scanQh s) ∧ Turns s (ps.foldl scanQh s) q := by
  induction ps generalizing s with
  | nil => exact ⟨h, Turns.refl s q⟩
  | cons p ps ih =>
    obtain ⟨hp, hps⟩ := List.forall_mem_cons.1 hps
    obtain ⟨hqp, hq⟩ := not_or.1 fun hor => hq (List.mem_cons.2 hor)
    obtain ⟨hqtd, hasync, hiqh, hcalls, hothers⟩ := scanQh_turns h hp
    have hlinked : (scanQh s p).linked = s.linked := by
      rw [Ehci.linked, Ehci.periodicList, hasync, hiqh, Ehci.linked, Ehci.periodicList]
    obtain ⟨hsound, hturns⟩ := ih (h.scanQh hp) (by rwa [hlinked]) hq
    refine ⟨hsound, Turns.trans ⟨hqtd, ?_, hasync, hiqh, hcalls⟩ hturns⟩
    rw [hothers q hqp]

/-- In a sound driver the interrupt's scans are the turns of the queue heads of the lists. -/
theorem scanTransfers_eq (h : EhciSound E other accepted s) : scanTransfers s = s.linked.foldl scanQh s := by
  have hperiodic : ∀ (ps : List Unit64) (s : Ehci), EhciSound E other accepted s → (∀ p ∈ ps, p ∈ s.periodicList) →
      ps.foldl scanIntQh s = ps.foldl scanQh s := by
    intro ps
    induction ps with
    | nil => exact fun _ _ _ => rfl
    | cons p ps ih =>
      intro s h hps
      obtain ⟨hp, hps⟩ := List.forall_mem_cons.1 hps
      have hlinked : p ∈ s.linked := List.mem_append_right _ hp
      obtain ⟨-, -, hiqh, -, -⟩ := scanQh_turns h hlinked
      rw [List.foldl_cons, List.foldl_cons, scanIntQh_eq (h.single p hp)]
      refine ih _ (h.scanQh hlinked) ?_
      rwa [Ehci.periodicList, hiqh]
  have hstep : ∀ (ps : List Unit64) (s : Ehci), EhciSound E other accepted s → (∀ p ∈ ps, p ∈ s.linked) →
      EhciSound E other accepted (ps.foldl scanQh s) ∧ (ps.foldl scanQh s).iqh = s.iqh := by
    intro ps
    induction ps with
    | nil => exact fun _ h _ => ⟨h, rfl⟩
    | cons p ps ih =>
      intro s h hps
      obtain ⟨hp, hps⟩ := List.forall_mem_cons.1 hps
      obtain ⟨-, hasync, hiqh, -, -⟩ := scanQh_turns h hp
      have hlinked : (scanQh s p).linked = s.linked := by
        rw [Ehci.linked, Ehci.periodicList, hasync, hiqh, Ehci.linked, Ehci.periodicList]
      obtain ⟨hsound, hsame⟩ := ih _ (h.scanQh hp) (by rwa [hlinked])
      exact ⟨hsound, hsame.trans hiqh⟩
  obtain ⟨hsound, hiqh⟩ := hstep s.asyncList s h fun p hp => List.mem_append_left _ hp
  have hlist : (scanAsynchronousList s).periodicList = s.periodicList := by
    rw [scanAsynchronousList, Ehci.periodicList, hiqh, Ehci.periodicList]
  rw [scanTransfers, scanPeriodicFrameList, hlist, Ehci.linked, List.foldl_append]
  exact hperiodic _ _ hsound fun p hp => hlist.symm ▸ hp

/-- All qTDs of a queue are taken back. -/
theorem scanQtds_empty {ts : List Unit64} (o : Option Nat) (hqueue : (s.qh q).qtdList = ts)
    (hdone : ∀ t ∈ ts, (s.qtd t).done = true) : ((ts.foldl (scanQtd q) (o, s)).2.qh q).qtdList = [] := by
  induction ts generalizing s o with
  | nil => exact hqueue
  | cons t ts ih =>
    obtain ⟨ht, hdone⟩ := List.forall_mem_cons.1 hdone
    rw [List.foldl_cons]
    simp only [scanQtd, visitQtd_eq, ht, if_true]
    refine ih _ ?_ hdone
    simp [Ehci.setQh, Ehci.setUtr, hqueue]

/-- The turn of a queue head of which all qTDs are done. -/
theorem scanQh_calls (h : EhciSound E other accepted s) (hq : q ∈ s.linked) (hwait : s.waiting q = some v)
    (hdone : ∀ t ∈ (s.qh q).qtdList, (s.qtd t).done = true) :
    ((scanQh s q).qh q).qtdList = [] ∧ ((scanQh s q).utr v).calls = (s.utr v).calls + 1 := by
  have hin : q ∈ s.qhs := List.mem_append_left _ hq
  have hempty := scanQtds_empty none rfl hdone
  obtain ⟨s₁, hscan, hcases⟩ := scanQh_scanning (h.queue_nodup hin) (h.serving.utr q hin)
  have hqueue : ((scanQh s q).qh q).qtdList = [] := by
    rw [scanQh]
    rcases hfold : (s.qh q).qtdList.foldl (scanQtd q) (none, s) with ⟨o, s₂⟩
    rw [hfold] at hempty
    cases o with
    | none =>
      rcases scanQtds_scanning none (h.queue_nodup hin) (fun t ht => ht) with hsame | ⟨⟨t, -, hlast⟩, -⟩
      · rw [hfold] at hsame
        cases hsame
        exact hempty
      · rw [hfold] at hlast
        cases hlast
    | some w =>
      dsimp only
      rw [if_pos hempty]
      exact hempty
  refine ⟨hqueue, ?_⟩
  rcases hcases with ⟨heq, hwait'⟩ | ⟨w, hwait', -, heq⟩
  · rw [heq] at hqueue
    rw [hwait, Ehci.waiting, hqueue] at hwait'
    cases hwait'
  · have hw : w = v := Option.some.inj (hwait'.symm.trans hwait)
    subst hw
    rw [heq]
    simp [completeUtr, Ehci.setUtr, hscan.calls]

end

/-- **A scan calls back a transfer request of which the controller retired all qTDs.** In every careful run. -/
theorem ehci_scanCalls (E : Nat → EpInfo) (y₀ y : EhciSys) (labels : List EhciEvent) (q : Unit64) (v : Nat)
    (h0 : EhciStart y₀) (hrun : Run (where_ (EhciStep E) (Careful E)) y₀ labels y) (hq : q ∈ y.drv.linked)
    (hwait : y.drv.waiting q = some v) (hdone : ∀ t ∈ (y.drv.qh q).qtdList, (y.drv.qtd t).done = true) :
    ((scanTransfers y.drv).qh q).qtdList = [] ∧ (y.drv.utr v).calls < ((scanTransfers y.drv).utr v).calls := by
  have h := ehci_sound h0 hrun
  obtain ⟨ps, qs, hsplit⟩ := List.append_of_mem hq
  obtain ⟨hasync, hperiodic, hdisj, -⟩ := h.disjoint
  have hnodup : y.drv.linked.Nodup := List.nodup_append'.2 ⟨hasync, hperiodic, fun p hp hp' => hdisj p hp hp'⟩
  have hlinked : ∀ p ∈ ps ++ q :: qs, p ∈ y.drv.linked := fun p hp => hsplit ▸ hp
  rw [hsplit] at hnodup
  obtain ⟨-, hqs, hapart⟩ := List.nodup_append'.1 hnodup
  have hnot : q ∉ ps := fun hin => hapart hin List.mem_cons_self
  obtain ⟨hsound₁, hturns₁⟩ := foldl_scanQh_turns h (fun p hp => hlinked p (List.mem_append_left _ hp)) hnot
  have hlinked₁ : (ps.foldl scanQh y.drv).linked = y.drv.linked := by
    rw [Ehci.linked, Ehci.periodicList, hturns₁.async, hturns₁.iqh, Ehci.linked, Ehci.periodicList]
  have hq₁ : q ∈ (ps.foldl scanQh y.drv).linked := hlinked₁ ▸ hq
  have hwait₁ : (ps.foldl scanQh y.drv).waiting q = some v := by
    rw [Ehci.waiting, hturns₁.queue, hturns₁.qtd]
    exact hwait
  have hdone₁ : ∀ t ∈ ((ps.foldl scanQh y.drv).qh q).qtdList, ((ps.foldl scanQh y.drv).qtd t).done = true := by
    rw [hturns₁.queue, hturns₁.qtd]
    exact hdone
  obtain ⟨hempty, hcalls⟩ := scanQh_calls hsound₁ hq₁ hwait₁ hdone₁
  obtain ⟨-, hasync₂, hiqh₂, -, -⟩ := scanQh_turns hsound₁ hq₁
  have hlinked₂ : (scanQh (ps.foldl scanQh y.drv) q).linked = y.drv.linked := by
    rw [← hlinked₁, Ehci.linked, Ehci.periodicList, hasync₂, hiqh₂, Ehci.linked, Ehci.periodicList]
  obtain ⟨-, hturns₂⟩ := foldl_scanQh_turns (hsound₁.scanQh hq₁)
    (fun p (hp : p ∈ qs) => hlinked₂.symm ▸ hlinked p (List.mem_append_right _ (List.mem_cons_of_mem q hp)))
    (List.nodup_cons.1 hqs).1
  rw [scanTransfers_eq h, hsplit, List.foldl_append, List.foldl_cons]
  refine ⟨hturns₂.queue.trans hempty, ?_⟩
  have hbefore := hturns₁.calls v
  have hafter := hturns₂.calls v
  omega

/-- The driver after the controller has retired the transfer. -/
def retiredSys : EhciSys :=
  { submittedSys with
    drv := { submittedCtrl with
      qtd := fun t => { submittedCtrl.qtd t with token := (submittedCtrl.qtd t).token &&& ~~~QTD_STS_ACTIVE } } }

theorem retiredSys_run : Run (where_ (EhciStep fun _ => bulkOut) (Careful fun _ => bulkOut)) idleSys
    [.submit 0 (.ctrl 0), .progress] retiredSys :=
  Run.snoc submittedSys_run ⟨trivial, EhciStep.progress ⟨fun _ => rfl, fun _ => rfl, rfl⟩⟩

theorem ehci_scanCalls_retired : ((scanTransfers retiredSys.drv).qh 1).qtdList = [] ∧
    (retiredSys.drv.utr 0).calls < ((scanTransfers retiredSys.drv).utr 0).calls :=
  ehci_scanCalls (fun _ => bulkOut) idleSys retiredSys [.submit 0 (.ctrl 0), .progress] 1 0 idleSys_start retiredSys_run
    (by decide +kernel) (by decide +kernel) (by decide +kernel)

end NumakerMA35D1.UsbHost

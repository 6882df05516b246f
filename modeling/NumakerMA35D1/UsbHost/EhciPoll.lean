import NumakerMA35D1.UsbHost.EhciRun
import NumakerMA35D1.UsbHost.EhciTree

/-!
# What the EHCI controller polls

The driver runs beside its periodic tree: a new queue head of an interrupt endpoint is linked where the code links it,
one that is cancelled is searched and unlinked. `periodic_polled`: in every careful run the lists of the driver are
those that the links make up; each frame's chain ends and has a queue head of the tree once or not at all, by its
interval, so that, with the start mask that is stored in the queue head, it is polled at least as often as its endpoint asks
for; and a cancellation's search ends.

Reference: `_ehci.c_:198 get_int_tree_head_node`, `_ehci.c_:213 make_int_s_mask`, `_ehci.c_:324
move_qh_to_remove_list`, `_ehci.c_:745 ehci_int_xfer`.
-/

namespace NumakerMA35D1.UsbHost

open Embedded

/-! ## Steps -/

/-- The driver with its tree, and for each queue head of the tree the speed and the endpoint that it was made for. -/
structure PeriodicSys where
  sys : EhciSys
  tree : PeriodicTree
  asked : Unit64 → Speed × EpInfo

/-- The device, the endpoint and the queue head that an interrupt submission has made, if it has made one. -/
def newIntQh (s s' : Ehci) : EhciSubmission → Option (Nat × Nat × Unit64)
  | .int dev i => if s.hwPipe (.ep i) = none then (s'.hwPipe (.ep i)).map fun q => (dev, i, q) else none
  | _ => none

/-- A submission. Reference: `_ehci.c_:817 ehci_int_xfer`. -/
def PeriodicSys.submit (E : Nat → EpInfo) (y : PeriodicSys) (sub : EhciSubmission) (sys' : EhciSys) : PeriodicSys :=
  match newIntQh y.sys.drv sys'.drv sub with
  | none => { y with sys := sys' }
  | some (dev, i, q) =>
    let speed := (y.sys.drv.udev dev).speed
    { sys := sys'
      tree := y.tree.link q (intIqh speed (E i))
      asked := Function.update y.asked q (speed, E i) }

/-- A queue head is taken out of the tree when it is in neither of the other lists. Reference: `_ehci.c_:330
move_qh_to_remove_list`. -/
def treeMove (s : Ehci) (t : PeriodicTree) (q : Unit64) : Option PeriodicTree :=
  if q ∈ s.removeList ∨ q ∈ s.asyncList then some t else (t.unlink q).map Prod.fst

/-- Reference: `_ehci.c_:862 ehci_quit_xfer`. -/
def treeQuitPipe (s : Ehci) (t : PeriodicTree) (e : EpRef) : Option PeriodicTree :=
  match s.hwPipe e with
  | none => some t
  | some q => treeMove s t q

/-- The tree after a cancellation. Reference: `_ehci.c_:835 ehci_quit_xfer`. -/
def treeQuitXfer (s : Ehci) (t : PeriodicTree) (utr : Option Nat) (ep : Option EpRef) : Option PeriodicTree :=
  match utr with
  | none => ep.elim (some t) (treeQuitPipe s t)
  | some v =>
    if s.hwPipe (s.utr v).ep = none then some t
    else
      match treeQuitPipe s t (s.utr v).ep with
      | none => none
      | some t => ep.elim (some t) (treeQuitPipe (quitPipe s (s.utr v).ep) t)

/-- A step of the driver, and what it does to the tree. -/
inductive PeriodicStep (E : Nat → EpInfo) (y : PeriodicSys) : EhciEvent → PeriodicSys → Prop
  | submit {v : Nat} {sub : EhciSubmission} {sys' : EhciSys} : EhciStep E y.sys (.submit v sub) sys' →
    PeriodicStep E y (.submit v sub) (y.submit E sub sys')
  | quit {utr : Option Nat} {ep : Option EpRef} {sys' : EhciSys} {tree' : PeriodicTree} :
    EhciStep E y.sys (.quit utr ep) sys' → treeQuitXfer y.sys.drv y.tree utr ep = some tree' →
    PeriodicStep E y (.quit utr ep) { y with sys := sys', tree := tree' }
  | other {a : EhciEvent} {sys' : EhciSys} : EhciStep E y.sys a sys' → (∀ v sub, a ≠ .submit v sub) →
    (∀ utr ep, a ≠ .quit utr ep) → PeriodicStep E y a { y with sys := sys' }

@[inherit_doc Careful]
def PeriodicCareful (E : Nat → EpInfo) (y : PeriodicSys) : EhciEvent → Prop := Careful E y.sys

/-- The words of the queue heads, which the driver writes and the controller reads. -/
def Ehci.words (s : Ehci) (q : Unit64) : Qh := (s.qh q).toQh

/-- The lists of the driver are behind the heads, each queue head behind that of its interval and with its words. -/
structure Polling (y : PeriodicSys) : Prop where
  tree : TreeOf y.tree y.sys.drv.iqh
  asked : ∀ k, ∀ q ∈ y.sys.drv.iqh k, k = intIqh (y.asked q).1 (y.asked q).2
  words : ∀ k, ∀ q ∈ y.sys.drv.iqh k, ∃ w, y.sys.drv.words q = intQh (y.asked q).1 (y.asked q).2 w

/-! ## What the steps do to the words -/

section

variable {E : Nat → EpInfo} {s s' : Ehci} {v dev i : Nat} {q qh : Unit64} {ret : Int} {isNewQh : Bool}

/-- A queue head's overlay and lists are none of its words. -/
theorem setQh_words (s : Ehci) (q : Unit64) {f : EhciQh → EhciQh} (hf : ∀ d, (f d).toQh = d.toQh) :
    (s.setQh q f).words = s.words := by
  funext p
  rw [Ehci.words, Ehci.words, Ehci.setQh]
  by_cases hp : p = q
  · rw [hp]
    dsimp only
    rw [Function.update_self, hf]
  · dsimp only
    rw [Function.update_of_ne hp]

theorem allocQtd_words {o : Option Unit64} (h : s.allocQtd v = (o, s')) : s'.words = s.words := by
  cases o with
  | none => rw [(allocQtd_none h).1]
  | some t =>
    obtain ⟨-, rfl⟩ := allocQtd_some h
    rfl

/-- Only a unit that was free gets the words of a new queue head. -/
theorem allocQh_words {o : Option Unit64} (h : s.allocQh = (o, s')) (hq : s.pool.unitUsed q = true) :
    s'.words q = s.words q ∧ o ≠ some q := by
  cases o with
  | none =>
    rw [(allocQh_none h).1]
    exact ⟨rfl, fun h => by cases h⟩
  | some qh =>
    obtain ⟨-, hfree, rfl⟩ := allocQh_some h
    have hne : q ≠ qh := by
      rintro rfl
      rw [hq] at hfree
      cases hfree
    refine ⟨?_, fun h => hne (Option.some.inj h).symm⟩
    rw [Ehci.words, Ehci.words]
    dsimp only
    rw [Function.update_of_ne hne]

/-- What leaves the words one by one leaves them in a row. -/
theorem foldl_words {f : Ehci → Unit64 → Ehci} (hf : ∀ s u, (f s u).words = s.words) (us : List Unit64) (s : Ehci) :
    (us.foldl f s).words = s.words := by
  induction us generalizing s with
  | nil => rfl
  | cons u us ih => exact (ih _).trans (hf s u)

theorem foldl_free_words (ts : List Unit64) (s : Ehci) : (ts.foldl Ehci.free s).words = s.words :=
  foldl_words (f := Ehci.free) (fun _ _ => rfl) ts s

theorem ehciCtrlLink_words (s : Ehci) (v : Nat) (qh setup : Unit64) (data : Option Unit64) (status : Unit64)
    (isNewQh : Bool) : (ehciCtrlLink s v qh setup data status isNewQh).words = s.words := by
  funext p
  by_cases hp : p = qh <;> cases data <;> cases isNewQh <;>
  simp [ehciCtrlLink, Ehci.words, Ehci.appendToQtdListOfQH, Ehci.setQh, Ehci.setQtd, hp]

theorem ehciCtrlQtds_words (h : ehciCtrlQtds s v qh isNewQh = .ok (ret, s')) : s'.words = s.words := by
  rw [ehciCtrlQtds] at h
  rcases hsetup : s.allocQtd v with ⟨setup, s₁⟩
  rcases hdata : (if 0 < (s.utr v).dataLen.toNat then s₁.allocQtd v else (none, s₁)) with ⟨data, s₂⟩
  rcases hstatus : s₂.allocQtd v with ⟨status, s₃⟩
  have hwords : s₃.words = s.words := by
    have hdata' : s₂.words = s₁.words := by
      split at hdata
      · exact allocQtd_words hdata
      · cases hdata
        rfl
    rw [allocQtd_words hstatus, hdata', allocQtd_words hsetup]
  simp only [hsetup, hdata, hstatus] at h
  cases status with
  | none =>
    cases h
    refine Eq.trans ?_ hwords
    cases setup <;> cases data <;> rfl
  | some status =>
    cases setup with
    | none => cases h
    | some setup =>
      dsimp only at h
      split at h
      · cases h
      · cases h
        exact (ehciCtrlLink_words ..).trans hwords

theorem ehciCtrlStart_words (h : ehciCtrlStart s v dev qh isNewQh = .ok (ret, s')) (hq : q ≠ qh) :
    s'.words q = s.words q := by
  rw [ehciCtrlStart] at h
  split at h
  · cases h
  · rw [ehciCtrlQtds_words h]
    change (Function.update s.qh qh _ q).toQh = _
    rw [Function.update_of_ne hq]
    rfl

theorem ehciBulkLink_words (h : ehciBulkLink s i qh isNewQh = .ok (ret, s')) : s'.words = s.words := by
  rw [ehciBulkLink] at h
  funext p
  split at h
  · cases isNewQh with
    | true => cases h
    | false =>
      cases h
      by_cases hp : p = qh <;> simp [Ehci.words, Ehci.setQh, hp]
  · cases h
    by_cases hp : p = qh <;> cases isNewQh <;> simp [Ehci.words, Ehci.setQh, hp]

theorem ehciBulkStart_words (h : ehciBulkStart E s v i qh isNewQh = .ok (ret, s')) : s'.words = s.words := by
  obtain ⟨new, hgrew, -⟩ := bulkLoop_spec (one_dvd 0x4000) (E i) v qh (s.utr v).dataLen.toNat
    (s.utr v).dataLen.isLt (s.utr v).buff none s (fun p hp => by cases hp)
  rw [ehciBulkStart] at h
  rcases hloop : bulkLoop (E i) v qh (s.utr v).dataLen.toNat (s.utr v).buff none s with ⟨done, s₁⟩
  rw [hloop] at h hgrew
  have hwords : s₁.words = s.words := by
    funext p
    rw [Ehci.words, Ehci.words]
    by_cases hp : p = qh
    · rw [hp, hgrew.queue]
    · rw [hgrew.others p hp]
  rw [← hwords]
  cases done with
  | false =>
    cases h
    cases isNewQh <;> exact foldl_free_words ..
  | true => exact ehciBulkLink_words h

theorem ehciIntStart_words (h : ehciIntStart E s v dev i qh isNewQh = (ret, s')) : s'.words = s.words := by
  rw [ehciIntStart] at h
  split at h
  · rename_i s₁ halloc
    cases h
    rw [← allocQtd_words halloc]
    cases isNewQh <;> rfl
  · rename_i t s₁ halloc
    cases h
    rw [← allocQtd_words halloc]
    funext p
    by_cases hp : p = qh <;> cases isNewQh <;>
    simp [Ehci.words, Ehci.appendToQtdListOfQH, Ehci.setQh, Ehci.setQtd, hp]

/-- A submission writes the words of a new queue head and those of endpoint zero's, no others. -/
theorem ehciXfer_words {sub : EhciSubmission} (h : ehciXfer E s v sub = .ok (ret, s')) (hq : s.pool.unitUsed q = true)
    (hctrl : ∀ dev, s.hwPipe (.ep0 dev) ≠ some q) : s'.words q = s.words q := by
  cases sub with
  | ctrl dev =>
    rw [ehciXfer, ehciCtrlXfer] at h
    split at h
    · cases h
      rfl
    · split at h
      · rename_i qh hpipe
        split at h
        · cases h
          rfl
        · exact ehciCtrlStart_words h fun heq => hctrl dev (heq ▸ hpipe)
      · split at h
        · rename_i s₁ halloc
          cases h
          exact (allocQh_words halloc hq).1
        · rename_i qh s₁ halloc
          obtain ⟨hwords, hne⟩ := allocQh_words halloc hq
          exact (ehciCtrlStart_words h fun heq => hne (congrArg some heq.symm)).trans hwords
  | bulk dev i =>
    rw [ehciXfer, ehciBulkXfer] at h
    split at h
    · split at h
      · cases h
        rfl
      · rw [ehciBulkStart_words h]
    · split at h
      · rename_i s₁ halloc
        cases h
        exact (allocQh_words halloc hq).1
      · rename_i qh s₁ halloc
        obtain ⟨hwords, hne⟩ := allocQh_words halloc hq
        split at h
        · cases h
        · rw [ehciBulkStart_words h, ← hwords]
          exact congrArg EhciQh.toQh (Function.update_of_ne (fun heq => hne (congrArg some heq.symm)) ..)
  | int dev i =>
    rw [ehciXfer, ehciIntXfer] at h
    split at h
    · split at h
      · cases h
        rfl
      · rw [ehciIntStart_words (Except.ok.inj h)]
    · split at h
      · rename_i s₁ halloc
        cases h
        exact (allocQh_words halloc hq).1
      · rename_i qh s₁ halloc
        obtain ⟨hwords, hne⟩ := allocQh_words halloc hq
        split at h
        · cases h
        · rw [ehciIntStart_words (Except.ok.inj h), ← hwords]
          exact congrArg EhciQh.toQh (Function.update_of_ne (fun heq => hne (congrArg some heq.symm)) ..)

theorem scanQtd_words (q : Unit64) (st : Option Nat × Ehci) (t : Unit64) : (scanQtd q st t).2.words = st.2.words := by
  rw [scanQtd]
  dsimp only
  split
  · rfl
  · funext p
    by_cases hp : p = q <;> simp [Ehci.words, Ehci.setQh, Ehci.setUtr, hp]

theorem scanQh_words (s : Ehci) (q : Unit64) : (scanQh s q).words = s.words := by
  have hfold : ∀ (ts : List Unit64) (st : Option Nat × Ehci), (ts.foldl (scanQtd q) st).2.words = st.2.words := by
    intro ts
    induction ts with
    | nil => exact fun _ => rfl
    | cons t ts ih => exact fun st => (ih _).trans (scanQtd_words q st t)
  have h := hfold (s.qh q).qtdList (none, s)
  rw [scanQh]
  split
  · rename_i hnone
    rwa [hnone] at h
  · rename_i hsome
    rw [hsome] at h
    split <;> exact h

theorem freeDoneList_words (s : Ehci) (q : Unit64) : (freeDoneList s q).words = s.words := by
  refine (setQh_words _ q ?_).trans (foldl_free_words ..)
  exact fun _ => rfl

theorem removeQh_words (s : Ehci) (q : Unit64) : (removeQh s q).words = s.words := by
  have h := freeDoneList_words s q
  rw [removeQh]
  split
  · exact h
  · rename_i t ts _
    have hemptied : ∀ x : Ehci, (x.setQh q fun d => { d with qtdList := [] }).words = x.words :=
      fun x => setQh_words x q fun _ => rfl
    exact (hemptied ((t :: ts).foldl Ehci.free (freeDoneList s q))).trans ((foldl_free_words ..).trans h)

theorem iaadRemoveQh_words (s : Ehci) : (iaadRemoveQh s).words = s.words := by
  rw [iaadRemoveQh]
  exact (foldl_words freeDoneList_words ..).trans ((foldl_words freeDoneList_words ..).trans (foldl_words removeQh_words ..))

theorem moveQhToRemoveList_words (s : Ehci) (q : Unit64) : (moveQhToRemoveList s q).words = s.words := by
  rw [moveQhToRemoveList]
  split
  · rfl
  · split
    · rfl
    · split <;> rfl

theorem quitPipe_words (s : Ehci) (e : EpRef) : (quitPipe s e).words = s.words := by
  rw [quitPipe]
  split
  · rfl
  · exact moveQhToRemoveList_words ..

theorem ehciQuitXfer_words (s : Ehci) (utr : Option Nat) (ep : Option EpRef) :
    (ehciQuitXfer s utr ep).2.words = s.words := by
  have helim : ∀ s : Ehci, (ep.elim s (quitPipe s)).words = s.words := by
    intro s
    cases ep with
    | none => rfl
    | some e => exact quitPipe_words s e
  cases utr with
  | none => exact helim s
  | some v =>
    rw [ehciQuitXfer]
    dsimp only
    split
    · rfl
    · exact (helim _).trans (quitPipe_words ..)

end

/-! ## What the steps do to the lists -/

section

variable {E : Nat → EpInfo} {other : Set Unit64} {accepted : Nat → Nat} {s s' : Ehci} {v dev i : Nat}
  {sub : EhciSubmission} {q : Unit64} {t : PeriodicTree}

/-- An interrupt submission that makes a queue head puts it behind the head of its interval. -/
theorem ehciIntXfer_iqh {ret : Int} (h : ehciIntXfer E s v dev i = .ok (ret, s')) (hpipe : s.hwPipe (.ep i) = none) :
    s'.hwPipe (.ep i) = none ∧ s'.iqh = s.iqh ∨
      ∃ q, s'.hwPipe (.ep i) = some q ∧ s.pool.unitUsed q = false ∧
        s'.iqh = Function.update s.iqh (intIqh (s.udev dev).speed (E i))
          (q :: s.iqh (intIqh (s.udev dev).speed (E i))) ∧
        ∃ w, s'.words q = intQh (s.udev dev).speed (E i) w := by
  rw [ehciIntXfer, hpipe] at h
  dsimp only at h
  rcases halloc : s.allocQh with ⟨_ | q, s₁⟩
  · obtain ⟨rfl, -⟩ := allocQh_none halloc
    rw [halloc] at h
    cases h
    exact Or.inl ⟨hpipe, rfl⟩
  rw [halloc] at h
  dsimp only at h
  obtain ⟨-, hfree, rfl⟩ := allocQh_some halloc
  split at h
  · cases h
  · rename_i w _
    have hstart := Except.ok.inj h
    have hwords := congrFun (ehciIntStart_words hstart) q
    rw [ehciIntStart] at hstart
    split at hstart
    · rename_i s₂ hnone
      obtain ⟨rfl, -⟩ := allocQtd_none hnone
      cases hstart
      exact Or.inl ⟨Function.update_self .., rfl⟩
    · rename_i qtd s₂ hsome
      obtain ⟨-, rfl⟩ := allocQtd_some hsome
      cases hstart
      refine Or.inr ⟨q, Function.update_self .., hfree, rfl, w, hwords.trans ?_⟩
      simp [Ehci.words, Ehci.setQh, Ehci.setPipe]

/-- A submission changes the tree's lists as `newIntQh` says. -/
theorem ehciXfer_iqh {ret : Int} (h : ehciXfer E s v sub = .ok (ret, s'))
    (hrolls : ret = USBH_ERR_MEMORY_OUT → RollsBack s sub) : newIntQh s s' sub = none ∧ s'.iqh = s.iqh ∨
      ∃ dev i q, newIntQh s s' sub = some (dev, i, q) ∧ s.pool.unitUsed q = false ∧
        s'.iqh = Function.update s.iqh (intIqh (s.udev dev).speed (E i))
          (q :: s.iqh (intIqh (s.udev dev).speed (E i))) ∧
        ∃ w, s'.words q = intQh (s.udev dev).speed (E i) w := by
  rcases ehciXfer_spec h with ⟨-, q, new, isNewQh, hqueued, -⟩ | ⟨-, hsame, -⟩ | ⟨hret, hnot, -⟩
  · cases sub with
    | ctrl dev =>
      refine Or.inl ⟨rfl, ?_⟩
      cases isNewQh with
      | false => exact hqueued.lists.2
      | true => exact hqueued.lists.2
    | bulk dev i =>
      refine Or.inl ⟨rfl, ?_⟩
      cases isNewQh with
      | false => exact hqueued.lists.2
      | true => exact hqueued.lists.2
    | int dev i =>
      cases isNewQh with
      | false =>
        have hpipe : s.hwPipe (.ep i) ≠ none := hqueued.pipe.trans_ne (Option.some_ne_none q)
        exact Or.inl ⟨if_neg hpipe, hqueued.lists.2⟩
      | true =>
        have hpipe : s.hwPipe (.ep i) = none := hqueued.pipe
        rcases ehciIntXfer_iqh h hpipe with ⟨hnone, hiqh⟩ | ⟨p, hp, hfree, hiqh, hwords⟩
        · refine Or.inl ⟨?_, hiqh⟩
          rw [newIntQh, if_pos hpipe, hnone]
          rfl
        · refine Or.inr ⟨dev, i, p, ?_, hfree, hiqh, hwords⟩
          rw [newIntQh, if_pos hpipe, hp]
          rfl
  · refine Or.inl ⟨?_, hsame.lists.2.1⟩
    cases sub with
    | ctrl dev => rfl
    | bulk dev i => rfl
    | int dev i =>
      rw [newIntQh, hsame.hwPipe]
      split
      · rename_i hpipe
        rw [hpipe]
        rfl
      · rfl
  · exact absurd (hrolls hret) hnot

theorem removeQhs_iqh (rs : List Unit64) (s : Ehci) : (rs.foldl removeQh s).iqh = s.iqh := by
  induction rs generalizing s with
  | nil => rfl
  | cons q rs ih => exact (ih (removeQh s q)).trans (removeQh_spec s q).1.iqh

theorem freeDoneLists_iqh (rs : List Unit64) (s : Ehci) : (rs.foldl freeDoneList s).iqh = s.iqh := by
  induction rs generalizing s with
  | nil => rfl
  | cons q rs ih => exact (ih (freeDoneList s q)).trans (freeDoneList_spec s q).1.iqh

theorem iaadRemoveQh_iqh (s : Ehci) : (iaadRemoveQh s).iqh = s.iqh :=
  (freeDoneLists_iqh ..).trans ((freeDoneLists_iqh ..).trans (removeQhs_iqh ..))

/-- All steps leave the words of the queue heads of the tree. -/
theorem EhciStep.words {y : EhciSys} {a : EhciEvent} {sys' : EhciSys} (h : EhciSound E y.other y.accepted y.drv)
    (hstep : EhciStep E y a sys') (hq : q ∈ y.drv.periodicList) : sys'.drv.words q = y.drv.words q := by
  have hused : y.drv.pool.unitUsed q = true :=
    h.mem_held (List.mem_append_left _ (List.mem_append_right _ hq)) (Or.inl rfl)
  -- the queue head of an endpoint zero is in the other list
  have hctrl : ∀ dev, y.drv.hwPipe (.ep0 dev) ≠ some q := fun dev hpipe =>
    h.disjoint.2.2.1 q (h.pipe (.ep0 dev) q hpipe) hq
  cases hstep with
  | accept hxfer => exact ehciXfer_words hxfer hused hctrl
  | refuse hxfer _ => exact ehciXfer_words hxfer hused hctrl
  | progress hprogress =>
    have hwords := congrArg EhciQh.toQh (hprogress.qh q)
    exact hwords
  | scanQh hq => exact congrFun (scanQh_words y.drv _) q
  | scanIntQh hp =>
    show (UsbHost.scanIntQh y.drv _).words q = _
    rw [scanIntQh_eq (h.single _ hp)]
    exact congrFun (scanQh_words y.drv _) q
  | iaad => exact congrFun (iaadRemoveQh_words y.drv) q
  | quit => exact congrFun (ehciQuitXfer_words y.drv _ _) q
  | dropPipe => rfl
  | foreign => rfl

/-- Other steps leave the tree's lists. -/
theorem EhciStep.iqh {y : EhciSys} {a : EhciEvent} {sys' : EhciSys} (h : EhciSound E y.other y.accepted y.drv)
    (hstep : EhciStep E y a sys') (hsubmit : ∀ v sub, a ≠ .submit v sub) (hquit : ∀ utr ep, a ≠ .quit utr ep) :
    sys'.drv.iqh = y.drv.iqh := by
  cases hstep with
  | accept => exact absurd rfl (hsubmit _ _)
  | refuse => exact absurd rfl (hsubmit _ _)
  | progress hprogress =>
    have hiqh := congrArg Ehci.iqh hprogress.rest
    exact hiqh
  | scanQh hq => exact (scanQh_turns h (List.mem_append_left _ hq)).2.2.1
  | scanIntQh hq =>
    show (UsbHost.scanIntQh y.drv _).iqh = _
    rw [scanIntQh_eq (h.single _ hq)]
    exact (scanQh_turns h (List.mem_append_right _ hq)).2.2.1
  | iaad => exact iaadRemoveQh_iqh y.drv
  | quit => exact absurd rfl (hquit _ _)
  | dropPipe => rfl
  | foreign => rfl

/-! ## What the steps do to the tree -/

/-- The tree follows the driver's move to the remove list; no queue head is put behind a head. -/
theorem TreeOf.move (h : TreeOf t s.iqh) (q : Unit64) : ∃ t', treeMove s t q = some t' ∧
    TreeOf t' (moveQhToRemoveList s q).iqh ∧ ∀ k, ∀ p ∈ (moveQhToRemoveList s q).iqh k, p ∈ s.iqh k := by
  rw [treeMove, moveQhToRemoveList]
  by_cases hremove : q ∈ s.removeList
  · rw [if_pos (Or.inl hremove), if_pos hremove]
    exact ⟨t, rfl, h, fun k p hp => hp⟩
  by_cases hasync : q ∈ s.asyncList
  · rw [if_pos (Or.inr hasync), if_neg hremove, if_pos hasync]
    exact ⟨t, rfl, h, fun k p hp => hp⟩
  rw [if_neg (not_or.2 ⟨hremove, hasync⟩), if_neg hremove, if_neg hasync]
  cases hfind : (List.finRange NUM_IQH).reverse.find? fun k => decide (q ∈ s.iqh k) with
  | none =>
    have hnot : ∀ k, q ∉ s.iqh k := fun k hk =>
      absurd (decide_eq_true hk) (List.find?_eq_none.1 hfind k (List.mem_reverse.2 (List.mem_finRange k)))
    rw [h.unlink_none hnot]
    exact ⟨t, rfl, h, fun k p hp => hp⟩
  | some k =>
    have hk : q ∈ s.iqh k := of_decide_eq_true (List.find?_some (p := fun k => decide (q ∈ s.iqh k)) hfind)
    obtain ⟨t', hunlink, htree⟩ := h.unlink hk
    rw [hunlink]
    refine ⟨t', rfl, htree, fun j p hp => ?_⟩
    by_cases hj : j = k
    · subst hj
      refine List.mem_of_mem_erase (a := p) (b := q) ?_
      have hp' : p ∈ Function.update s.iqh j ((s.iqh j).erase q) j := hp
      rwa [Function.update_self] at hp'
    · have hp' : p ∈ Function.update s.iqh k ((s.iqh k).erase q) j := hp
      rwa [Function.update_of_ne hj] at hp'

theorem TreeOf.quitPipe (h : TreeOf t s.iqh) (e : EpRef) : ∃ t', treeQuitPipe s t e = some t' ∧
    TreeOf t' (UsbHost.quitPipe s e).iqh ∧ ∀ k, ∀ p ∈ (UsbHost.quitPipe s e).iqh k, p ∈ s.iqh k := by
  rw [treeQuitPipe, UsbHost.quitPipe]
  cases s.hwPipe e with
  | none => exact ⟨t, rfl, h, fun k p hp => hp⟩
  | some q => exact h.move q

/-- The tree follows a cancellation. -/
theorem TreeOf.quitXfer (h : TreeOf t s.iqh) (utr : Option Nat) (ep : Option EpRef) :
    ∃ t', treeQuitXfer s t utr ep = some t' ∧ TreeOf t' (ehciQuitXfer s utr ep).2.iqh ∧
      ∀ k, ∀ p ∈ (ehciQuitXfer s utr ep).2.iqh k, p ∈ s.iqh k := by
  have helim : ∀ s t, TreeOf t s.iqh → ∃ t', ep.elim (some t) (treeQuitPipe s t) = some t' ∧
      TreeOf t' (ep.elim s (UsbHost.quitPipe s)).iqh ∧
        ∀ k, ∀ p ∈ (ep.elim s (UsbHost.quitPipe s)).iqh k, p ∈ s.iqh k := by
    intro s t h
    cases ep with
    | none => exact ⟨t, rfl, h, fun k p hp => hp⟩
    | some e => exact h.quitPipe e
  cases utr with
  | none => exact helim s t h
  | some v =>
    rw [treeQuitXfer, ehciQuitXfer]
    dsimp only
    split
    · exact ⟨t, rfl, h, fun k p hp => hp⟩
    · obtain ⟨t₁, hfirst, htree₁, hsub₁⟩ := h.quitPipe (s.utr v).ep
      obtain ⟨t₂, hsecond, htree₂, hsub₂⟩ := helim _ t₁ htree₁
      rw [hfirst]
      exact ⟨t₂, hsecond, htree₂, fun k p hp => hsub₁ k p (hsub₂ k p hp)⟩

/-- A queue head that no list has, put behind the head of its interval. -/
theorem Polling.link {y : PeriodicSys} (h : Polling y) {sys' : EhciSys} {speed : Speed} {ep : EpInfo}
    (hnew : ∀ j, q ∉ y.sys.drv.iqh j) (hiqh : sys'.drv.iqh =
      Function.update y.sys.drv.iqh (intIqh speed ep) (q :: y.sys.drv.iqh (intIqh speed ep)))
    (hkept : ∀ k, ∀ p ∈ y.sys.drv.iqh k, ∃ w, sys'.drv.words p = intQh (y.asked p).1 (y.asked p).2 w)
    (hwords : ∃ w, sys'.drv.words q = intQh speed ep w) :
    Polling { sys := sys', tree := y.tree.link q (intIqh speed ep),
              asked := Function.update y.asked q (speed, ep) } := by
  -- behind a head there are the new one and those that were there
  have hmem : ∀ k, ∀ p ∈ sys'.drv.iqh k, p = q ∧ k = intIqh speed ep ∨ p ≠ q ∧ p ∈ y.sys.drv.iqh k := by
    intro k p hp
    rw [hiqh] at hp
    by_cases hk : k = intIqh speed ep
    · rw [hk, Function.update_self] at hp
      rcases List.mem_cons.1 hp with rfl | hin
      · exact Or.inl ⟨rfl, hk⟩
      · exact Or.inr ⟨fun heq => hnew _ (heq ▸ hin), hk ▸ hin⟩
    · rw [Function.update_of_ne hk] at hp
      exact Or.inr ⟨fun heq => hnew k (heq ▸ hp), hp⟩
  refine ⟨?_, fun k p hp => ?_, fun k p hp => ?_⟩
  · show TreeOf (y.tree.link q _) sys'.drv.iqh
    rw [hiqh]
    exact h.tree.link hnew _
  · show k = intIqh (Function.update y.asked q _ p).1 (Function.update y.asked q _ p).2
    rcases hmem k p hp with ⟨rfl, hk⟩ | ⟨hne, hin⟩
    · rw [Function.update_self]
      exact hk
    · rw [Function.update_of_ne hne]
      exact h.asked k p hin
  · show ∃ w, sys'.drv.words p = intQh (Function.update y.asked q _ p).1 (Function.update y.asked q _ p).2 w
    rcases hmem k p hp with ⟨rfl, -⟩ | ⟨hne, hin⟩
    · rw [Function.update_self]
      exact hwords
    · rw [Function.update_of_ne hne]
      exact hkept k p hin

/-- A careful step keeps the driver sound and the tree with it. -/
theorem PeriodicStep.polling {y y' : PeriodicSys} {a : EhciEvent}
    (h : EhciSound E y.sys.other y.sys.accepted y.sys.drv ∧ Polling y)
    (hstep : where_ (PeriodicStep E) (PeriodicCareful E) y a y') :
    EhciSound E y'.sys.other y'.sys.accepted y'.sys.drv ∧ Polling y' := by
  obtain ⟨hsound, hpolling⟩ := h
  obtain ⟨hcareful, hstep⟩ := hstep
  have hkept : ∀ {sys' : EhciSys}, EhciStep E y.sys a sys' → ∀ k, ∀ p ∈ y.sys.drv.iqh k,
      ∃ w, sys'.drv.words p = intQh (y.asked p).1 (y.asked p).2 w := by
    intro sys' hstep k p hp
    rw [EhciStep.words hsound hstep (mem_periodicList hp)]
    exact hpolling.words k p hp
  cases hstep with
  | @submit v sub sys' hstep =>
    have hsound' := EhciStep.sound hsound ⟨hcareful, hstep⟩
    have hcases : newIntQh y.sys.drv sys'.drv sub = none ∧ sys'.drv.iqh = y.sys.drv.iqh ∨
        ∃ dev i q, newIntQh y.sys.drv sys'.drv sub = some (dev, i, q) ∧ y.sys.drv.pool.unitUsed q = false ∧
          sys'.drv.iqh = Function.update y.sys.drv.iqh (intIqh (y.sys.drv.udev dev).speed (E i))
            (q :: y.sys.drv.iqh (intIqh (y.sys.drv.udev dev).speed (E i))) ∧
          ∃ w, sys'.drv.words q = intQh (y.sys.drv.udev dev).speed (E i) w := by
      obtain ⟨-, -, hrolls⟩ := hcareful
      cases hstep with
      | accept hxfer => exact ehciXfer_iqh hxfer fun hret => absurd hret (by decide)
      | refuse hxfer _ => exact ehciXfer_iqh hxfer fun hret => hrolls _ (hret ▸ hxfer)
    rcases hcases with ⟨hnone, hiqh⟩ | ⟨dev, i, q, hsome, hfree, hiqh, hwords⟩
    · rw [PeriodicSys.submit, hnone]
      refine ⟨hsound', ⟨?_, fun k p hp => ?_, fun k p hp => hkept hstep k p (hiqh ▸ hp)⟩⟩
      · show TreeOf y.tree sys'.drv.iqh
        rw [hiqh]
        exact hpolling.tree
      · exact hpolling.asked k p (hiqh ▸ hp)
    · -- the new queue head was no unit of the driver
      have hnew : ∀ j, q ∉ y.sys.drv.iqh j := by
        intro j hj
        have hin : q ∈ y.sys.drv.qhs := List.mem_append_left _ (List.mem_append_right _ (mem_periodicList hj))
        have hused := hsound.serving.holds.inUse (mem_heldBy.2 ⟨q, hin, Or.inl rfl⟩)
        rw [hfree] at hused
        cases hused
      rw [PeriodicSys.submit, hsome]
      exact ⟨hsound', hpolling.link hnew hiqh (hkept hstep) hwords⟩
  | @quit utr ep sys' tree' hstep htree =>
    have hsound' := EhciStep.sound hsound ⟨hcareful, hstep⟩
    obtain ⟨t', hquit, htree', hsub⟩ := hpolling.tree.quitXfer utr ep
    rw [htree] at hquit
    cases hquit
    have hwords := hkept hstep
    cases hstep with
    | quit =>
      exact ⟨hsound', ⟨htree', fun k p hp => hpolling.asked k p (hsub k p hp), fun k p hp => hwords k p (hsub k p hp)⟩⟩
  | other hstep hsubmit hquit =>
    have hsound' := EhciStep.sound hsound ⟨hcareful, hstep⟩
    have hiqh := EhciStep.iqh hsound hstep hsubmit hquit
    refine ⟨hsound', ⟨?_, fun k p hp => ?_, fun k p hp => hkept hstep k p (hiqh ▸ hp)⟩⟩
    · dsimp only
      rw [hiqh]
      exact hpolling.tree
    · exact hpolling.asked k p (hiqh ▸ hp)

end

/-! ## Polls -/

/-- The micro-frames that an endpoint wants to be polled once in. -/
def askedPeriod (speed : Speed) (ep : EpInfo) : Option Nat :=
  if speed = .HIGH then
    if 1 ≤ ep.bInterval.toNat ∧ ep.bInterval.toNat ≤ 16 then some (2 ^ (ep.bInterval.toNat - 1)) else none
  else if 1 ≤ ep.bInterval.toNat then some (8 * ep.bInterval.toNat)
  else none

/-- In a micro-frame the controller comes to the queue head, whose start mask has the micro-frame. -/
def PolledAt (t : PeriodicTree) (q : Unit64) (cap : BitVec 32) (m : Nat) : Prop :=
  Embedded.Reaches t.hlink (t.pfList (Fin.ofNat FL_SIZE (m / 8))) (.qh q) ∧ cap.getLsbD (m % 8) = true

/-- The queue heads among nodes. -/
def TreeNode.qh? : TreeNode → Option Unit64
  | .iqh _ => none
  | .qh q => some q

/-- What the tree does for the queue heads in the driver's lists. -/
structure TreePolled (y : PeriodicSys) : Prop where
  frames : ∀ idx, ∃ nodes, Chain y.tree.hlink (y.tree.pfList idx) nodes ∧ TreeNode.iqh 0 ∈ nodes ∧
    ∀ q, nodes.count (.qh q) =
      if q ∈ y.sys.drv.periodicList ∧ 2 ^ (intIqh (y.asked q).1 (y.asked q).2).val ∣ idx.val + 1 then 1 else 0
  often : ∀ q ∈ y.sys.drv.periodicList, ∀ period ∈ askedPeriod (y.asked q).1 (y.asked q).2, ∀ m, ∃ m', m ≤ m' ∧
    m' < m + period ∧ PolledAt y.tree q (y.sys.drv.words q).cap m'
  scanned : ∃ nodes, Chain y.tree.hlink (some (.iqh (Fin.last 10))) nodes ∧
    nodes.filterMap TreeNode.qh? = y.sys.drv.periodicList
  quits : ∀ utr ep, treeQuitXfer y.sys.drv y.tree utr ep ≠ none

section

variable {speed : Speed} {ep : EpInfo} {period r m : Nat}

/-- Any number is followed by one with a given remainder. -/
theorem exists_mod_eq {M : Nat} (hr : r < M) (m : Nat) : ∃ m', m ≤ m' ∧ m' < m + M ∧ m' % M = r := by
  have hlt := Nat.mod_lt m (Nat.zero_lt_of_lt hr)
  have hdiv := Nat.div_add_mod m M
  by_cases hle : m % M ≤ r
  · refine ⟨m + (r - m % M), by omega, by omega, ?_⟩
    have heq : m + (r - m % M) = M * (m / M) + r := by omega
    rw [heq, Nat.mul_add_mod, Nat.mod_eq_of_lt hr]
  · refine ⟨m + (r + M - m % M), by omega, by omega, ?_⟩
    have heq : m + (r + M - m % M) = M * (m / M + 1) + r := by
      rw [Nat.mul_add]
      omega
    rw [heq, Nat.mul_add_mod, Nat.mod_eq_of_lt hr]

/-- At high speed: the period and the place in it of the micro-frames with a poll. -/
def highPoll (bInterval : Nat) : Nat × Nat :=
  if bInterval ≤ 1 then (1, 0)
  else if bInterval = 2 then (2, 0)
  else if bInterval = 3 then (4, 1)
  else if bInterval ≤ 15 then (8, (bInterval - 1) % 8)
  else (16, 15)

theorem highPoll_spec : ∀ b : Fin 16,
    (highPoll (b.val + 1)).2 < (highPoll (b.val + 1)).1 ∧ (highPoll (b.val + 1)).1 ≤ 2 ^ b.val ∧
      (highPoll (b.val + 1)).1 ∣ 16 ∧ (ehciIntTreeHeadNode (b.val + 1)).val ≤ 1 ∧
      ∀ x : Fin 16, x.val % (highPoll (b.val + 1)).1 = (highPoll (b.val + 1)).2 →
        2 ^ (ehciIntTreeHeadNode (b.val + 1)).val ∣ x.val / 8 + 1 ∧
          (makeIntSMask (BitVec.ofNat 8 (b.val + 1))).getLsbD (x.val % 8) = true := by
  decide +kernel

theorem intTreeHead_le : ∀ b : Fin 256, 1 ≤ b.val → 2 ^ (ehciIntTreeHeadNode (b.val * 8)).val ≤ b.val := by
  decide +kernel

/-- An endpoint has a poll in each of its periods: in a frame of its interval, in a micro-frame of its mask. -/
theorem polled_often (h : askedPeriod speed ep = some period) (w : Qh) (m : Nat) : ∃ m', m ≤ m' ∧ m' < m + period ∧
    2 ^ (intIqh speed ep).val ∣ m' / 8 % 1024 + 1 ∧ (intQh speed ep w).cap.getLsbD (m' % 8) = true := by
  rw [askedPeriod] at h
  by_cases hspeed : speed = .HIGH
  · rw [if_pos hspeed] at h
    split at h
    · rename_i hrange
      cases h
      obtain ⟨hr, hperiod, hdvd, hnode, htable⟩ := highPoll_spec ⟨ep.bInterval.toNat - 1, by omega⟩
      have hb : ep.bInterval.toNat - 1 + 1 = ep.bInterval.toNat := by omega
      dsimp only at hr hperiod hdvd hnode htable
      rw [hb] at hr hperiod hdvd hnode htable
      obtain ⟨m', hle, hlt, hmod⟩ := exists_mod_eq hr m
      obtain ⟨hframe, hmask⟩ := htable ⟨m' % 16, Nat.mod_lt _ (by decide)⟩ (by
        dsimp only
        rw [Nat.mod_mod_of_dvd _ hdvd, hmod])
      refine ⟨m', hle, lt_of_lt_of_le hlt (Nat.add_le_add_left hperiod m), ?_, ?_⟩
      · rw [intIqh, if_pos hspeed]
        dsimp only at hframe
        generalize (ehciIntTreeHeadNode ep.bInterval.toNat).val = k at hnode hframe
        interval_cases k
        · exact one_dvd _
        · omega
      · rw [BitVec.ofNat_toNat, BitVec.setWidth_eq, Nat.mod_mod_of_dvd _ (by decide)] at hmask
        rw [intQh, if_pos hspeed]
        dsimp only
        rw [BitVec.getLsbD_or, hmask, Bool.or_true]
    · cases h
  · rw [if_neg hspeed] at h
    split at h
    · rename_i hpos
      cases h
      have hnode := intTreeHead_le ⟨ep.bInterval.toNat, ep.bInterval.isLt⟩ hpos
      dsimp only at hnode
      rw [intIqh, if_neg hspeed]
      have hdvd : 2 ^ (ehciIntTreeHeadNode (ep.bInterval.toNat * 8)).val ∣ 1024 :=
        pow_dvd_pow 2 (Nat.lt_succ_iff.1 (ehciIntTreeHeadNode (ep.bInterval.toNat * 8)).isLt)
      generalize 2 ^ (ehciIntTreeHeadNode (ep.bInterval.toNat * 8)).val = n at hnode hdvd
      have hn : 0 < n := Nat.pos_of_dvd_of_pos hdvd (by decide)
      obtain ⟨m', hle, hlt, hmod⟩ := exists_mod_eq (show 8 * (n - 1) + 1 < 8 * n by omega) m
      refine ⟨m', hle, by omega, ?_, ?_⟩
      · have hframe : m' / 8 % n = n - 1 := by
          rw [← Nat.mod_mul_right_div_self, hmod]
          omega
        have hsame : m' / 8 % 1024 % n = n - 1 := by rw [Nat.mod_mod_of_dvd _ hdvd, hframe]
        refine (Nat.dvd_iff_mod_eq_zero).2 ?_
        have hsplit := Nat.div_add_mod (m' / 8 % 1024) n
        have heq : m' / 8 % 1024 + 1 = n * (m' / 8 % 1024 / n + 1) := by
          rw [Nat.mul_add]
          omega
        rw [heq, Nat.mul_mod_right]
      · have hbit : m' % 8 = 1 := by
          have hmod8 : m' % (8 * n) % 8 = m' % 8 := Nat.mod_mul_right_mod ..
          omega
        rw [hbit, intQh, if_neg hspeed]
        dsimp only
        rw [BitVec.getLsbD_or]
        exact Bool.or_true _
    · cases h

end

section

variable {E : Nat → EpInfo} {y y₀ : PeriodicSys} {labels : List EhciEvent}

/-- The queue heads of the nodes from the last head on are those of the lists, in the order of the scan. -/
theorem nodesFrom_qhs (iqh : Fin NUM_IQH → List Unit64) :
    (nodesFrom iqh (Fin.last 10)).filterMap TreeNode.qh? = (List.finRange NUM_IQH).reverse.flatMap iqh := by
  have hall : ((List.finRange NUM_IQH).reverse.filter fun j => decide (j ≤ Fin.last 10)) =
      (List.finRange NUM_IQH).reverse := List.filter_eq_self.2 fun j _ => decide_eq_true (Fin.le_last j)
  rw [nodesFrom, hall, List.filterMap_flatMap]
  refine List.flatMap_congr fun j _ => ?_
  rw [List.filterMap_cons_none rfl, List.filterMap_map]
  exact List.filterMap_some

/-- A queue head is in a frame when the frame is an entry of its interval. -/
theorem Polling.mem_frame (h : Polling y) (idx : Fin FL_SIZE) (q : Unit64) :
    .qh q ∈ nodesFrom y.sys.drv.iqh (topIqh idx) ↔
      q ∈ y.sys.drv.periodicList ∧ 2 ^ (intIqh (y.asked q).1 (y.asked q).2).val ∣ idx.val + 1 := by
  rw [mem_nodesFrom, ← le_topIqh]
  constructor
  · rintro ⟨j, hj, hx | ⟨p, hp, hx⟩⟩
    · cases hx
    · cases hx
      exact ⟨mem_periodicList hp, h.asked j q hp ▸ hj⟩
  · rintro ⟨hq, hle⟩
    obtain ⟨k, -, hk⟩ := List.mem_flatMap.1 hq
    exact ⟨k, h.asked k q hk ▸ hle, Or.inr ⟨q, hk, rfl⟩⟩

theorem Polling.polled (h : Polling y) : TreePolled y where
  frames idx := by
    have hchain := h.tree.frame_chain idx
    refine ⟨_, hchain, mem_nodesFrom.2 ⟨0, Fin.zero_le _, Or.inl rfl⟩, fun q => ?_⟩
    rw [hchain.nodup.count]
    exact if_congr (h.mem_frame idx q) rfl rfl
  often q hq period hperiod m := by
    obtain ⟨k, -, hk⟩ := List.mem_flatMap.1 hq
    obtain ⟨w, hwords⟩ := h.words k q hk
    obtain ⟨m', hle, hlt, hframe, hmask⟩ := polled_often hperiod w m
    refine ⟨m', hle, hlt, ?_, hwords ▸ hmask⟩
    rw [(h.tree.frame_chain _).reaches_iff, h.mem_frame]
    exact ⟨hq, hframe⟩
  scanned := ⟨_, h.tree.chain, nodesFrom_qhs _⟩
  quits utr ep := by
    obtain ⟨t', hquit, -⟩ := h.tree.quitXfer utr ep
    rw [hquit]
    exact Option.some_ne_none t'

/-- **The controller polls the interrupt endpoints as often as they ask for.** In every careful run from the tree that
is set up. -/
theorem periodic_polled (E : Nat → EpInfo) (y₀ y : PeriodicSys) (labels : List EhciEvent)
    (htree : initPeriodicFrameList = some y₀.tree) (h0 : EhciStart y₀.sys)
    (hrun : Run (where_ (PeriodicStep E) (PeriodicCareful E)) y₀ labels y) : TreePolled y := by
  have hstart : Polling y₀ := by
    obtain ⟨hinit, htreeOf⟩ := initTree_ok
    have heq : y₀.tree = setupTree 0 := Option.some.inj (htree.symm.trans hinit)
    have hnone : ∀ k q, q ∉ y₀.sys.drv.iqh k := by
      intro k q hq
      rw [h0.periodic] at hq
      exact absurd hq List.not_mem_nil
    refine ⟨?_, fun k q hq => absurd hq (hnone k q), fun k q hq => absurd hq (hnone k q)⟩
    rw [heq, funext h0.periodic]
    exact htreeOf
  exact (hrun.invariant (I := fun y => EhciSound E y.sys.other y.sys.accepted y.sys.drv ∧ Polling y)
    PeriodicStep.polling ⟨h0.sound, hstart⟩).2.polled

end

/-- An interrupt endpoint of high speed that asks for a poll every other micro-frame, and the driver after a transfer
on it. -/
def intIn : EpInfo := ⟨0x81, 0x03, 2, 8⟩

@[inherit_doc intIn]
def submittedInt : Ehci := (ehciXfer (fun _ => intIn) (idleEhci 8) 0 (.int 0 0)).toOption.elim (idleEhci 8) Prod.snd

/-- The driver and its tree before the transfer, and after it. -/
def idlePeriodic : PeriodicSys := ⟨⟨idleEhci 8, ∅, fun _ => 0⟩, setupTree 0, fun _ => (.LOW, intIn)⟩

@[inherit_doc idlePeriodic]
def polledSys : PeriodicSys :=
  idlePeriodic.submit (fun _ => intIn) (.int 0 0) ⟨submittedInt, ∅, Function.update (fun _ => 0) 0 1⟩

theorem submittedInt_eq : ehciXfer (fun _ => intIn) (idleEhci 8) 0 (.int 0 0) = .ok (0, submittedInt) := by
  have hret : (ehciXfer (fun _ => intIn) (idleEhci 8) 0 (.int 0 0)).toOption.map Prod.fst = some 0 := by
    decide +kernel
  rw [submittedInt]
  rcases hxfer : ehciXfer (fun _ => intIn) (idleEhci 8) 0 (.int 0 0) with _ | ⟨ret, s⟩
  · rw [hxfer] at hret
    cases hret
  · rw [hxfer] at hret
    cases hret
    rfl

theorem idlePeriodic_start : EhciStart idlePeriodic.sys :=
  ⟨rfl, fun _ => rfl, rfl, fun _ => rfl, fun _ => ⟨fun h => absurd h Bool.false_ne_true, False.elim⟩, fun _ => rfl⟩

theorem polledSys_run : Run (where_ (PeriodicStep fun _ => intIn) (PeriodicCareful fun _ => intIn)) idlePeriodic
    [.submit 0 (.int 0 0)] polledSys := by
  refine Run.snoc Run.nil ⟨⟨rfl, fun dev i h => ?_, fun s' h => ?_⟩,
    PeriodicStep.submit (EhciStep.accept submittedInt_eq)⟩
  · cases h
  · cases submittedInt_eq.symm.trans h

theorem periodic_polled_int : TreePolled polledSys :=
  periodic_polled (fun _ => intIn) idlePeriodic polledSys [.submit 0 (.int 0 0)] initTree_ok.1 idlePeriodic_start
    polledSys_run

end NumakerMA35D1.UsbHost

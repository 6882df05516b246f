import NumakerMA35D1.UsbHost.EhciOwn

/-!
# Transfers of the EHCI driver that stop early

When a qTD is halted, or a packet is short, the controller leaves the qTDs behind it as they are. The next scan should
complete the transfer, with an error or with the bytes that came, and take back all its qTDs. It takes back those that
the controller retired, and completes the transfer only when none is left: `earlyStop_iff` says that it is right where
the qTD is the last of the chain, and only there.

Reference: `_ehci.c_:876 visit_qtd`, `_ehci.c_:904 scan_asynchronous_list`.
-/

namespace NumakerMA35D1.UsbHost

open Embedded

/-! ## What a scan should do -/

/-- The bytes a retired qTD moved, those of the setup stage apart. -/
def Qtd.moved (d : Qtd) : BitVec 32 :=
  if d.token &&& QTD_PID_Msk = QTD_PID_SETUP then 0 else d.xferLen - QTD_TODO_LEN d.token

/-- The controller has retired the qTD without an error. -/
def Qtd.Retired (d : Qtd) : Prop := d.token &&& QTD_STS_ACTIVE = 0 ∧ d.token &&& QTD_STS_ERRORS = 0

/-- The controller stops at a qTD: it is halted, or an IN packet was short. -/
def Qtd.Stopped (d : Qtd) (halted : Bool) : Prop :=
  d.token &&& QTD_STS_ACTIVE = 0 ∧
    if halted then d.token &&& QTD_STS_HALT ≠ 0
    else d.token &&& QTD_STS_ERRORS = 0 ∧ d.token &&& QTD_PID_Msk = QTD_PID_IN ∧ QTD_TODO_LEN d.token ≠ 0

/-- A queue that a submission built, after the controller has retired the qTDs before number `k` and stopped at that
one: of each qTD it has written the token, but not the packet type. -/
structure EarlyStop (s₁ s₂ : Ehci) (qh : Unit64) (k : Nat) (halted : Bool) : Prop where
  queue : (s₂.qh qh).qtdList = (s₁.qh qh).qtdList
  kept : ∀ t ∈ (s₁.qh qh).qtdList, { s₂.qtd t with token := (s₁.qtd t).token } = s₁.qtd t
  pid : ∀ t ∈ (s₁.qh qh).qtdList, ∀ b, b = 8 ∨ b = 9 → (s₂.qtd t).token.getLsbD b = (s₁.qtd t).token.getLsbD b
  inside : k < (s₁.qh qh).qtdList.length
  before : ∀ t ∈ (s₁.qh qh).qtdList.take k, (s₂.qtd t).Retired
  stop : ∀ t ∈ (s₁.qh qh).qtdList[k]?, (s₂.qtd t).Stopped halted
  behind : ∀ t ∈ (s₁.qh qh).qtdList.drop (k + 1), (s₂.qtd t).token &&& QTD_STS_ACTIVE ≠ 0

/-- No qTD of another queue head is the UTR's. -/
def Others (s : Ehci) (qh : Unit64) (v : Nat) : Prop :=
  ∀ q, q ≠ qh → ∀ t, t ∈ (s.qh q).qtdList ∨ t ∈ (s.qh q).doneList → (s.qtd t).utr ≠ v

/-- The queue head is in the list for its transfers, and in no other place. -/
def Listed (s : Ehci) (qh : Unit64) : EhciSubmission → Prop
  | .ctrl _ | .bulk _ _ => qh ∈ s.asyncList ∧ s.asyncList.Nodup ∧ qh ∉ s.periodicList
  | .int _ _ => qh ∈ s.periodicList ∧ s.periodicList.Nodup ∧ qh ∉ s.asyncList

/-- The UTR is completed, once: with an error when it was halted, else without one and with the bytes that were moved;
and its qTDs are on the done list. -/
structure Completed (s s' : Ehci) (qh : Unit64) (v : Nat) (halted : Bool) : Prop where
  once : (s'.utr v).calls = (s.utr v).calls + 1
  done : (s'.utr v).bIsTransferDone = true
  error : halted = true → (s'.utr v).status ≠ 0
  success : halted = false → (s'.utr v).status = (s.utr v).status ∧
    (s'.utr v).xferLen = (s.qh qh).qtdList.foldl (fun n t => n + (s.qtd t).moved) (s.utr v).xferLen
  free : (s'.qh qh).qtdList = []
  reclaimed : ∀ t ∈ (s.qh qh).qtdList, t ∈ (s'.qh qh).doneList

/-! ## A visit -/

/-- The controller is done with a qTD, and it is no dummy. -/
def Qtd.done (d : Qtd) : Bool :=
  decide (¬ (d.token = 0x11197B7F#32 ∨ d.token = 0x1197B7F#32)) && decide (d.token &&& QTD_STS_ACTIVE = 0)

/-- What it tells its UTR. -/
def Utr.told (u : Utr) (d : Qtd) : Utr :=
  if d.token &&& QTD_STS_ERRORS ≠ 0 then if u.status = 0 then { u with status := USBH_ERR_TRANSACTION } else u
  else if d.token &&& QTD_PID_Msk ≠ QTD_PID_SETUP then
    { u with xferLen := u.xferLen + (d.xferLen - QTD_TODO_LEN d.token) }
  else u

theorem done_iff {d : Qtd} : d.done = true ↔
    ¬ (d.token = 0x11197B7F#32 ∨ d.token = 0x1197B7F#32) ∧ d.token &&& QTD_STS_ACTIVE = 0 := by
  rw [Qtd.done, Bool.and_eq_true, decide_eq_true_iff, decide_eq_true_iff]

theorem visitQtd_eq (d : Qtd) (u : Utr) : visitQtd d u = if d.done then some (u.told d) else none := by
  by_cases hdone : d.done = true
  · obtain ⟨hdummy, hactive⟩ := done_iff.1 hdone
    rw [if_pos hdone, visitQtd, if_neg hdummy, if_pos hactive, Utr.told]
    split
    · rfl
    · split <;> rfl
  · rw [if_neg hdone, visitQtd]
    split
    · rfl
    · rename_i hdummy
      exact if_neg fun hactive => hdone (done_iff.2 ⟨hdummy, hactive⟩)

theorem told_retired {d : Qtd} {u : Utr} (h : d.Retired) :
    u.told d = { u with xferLen := u.xferLen + d.moved } := by
  rw [Utr.told, if_neg (not_not.2 h.2), Qtd.moved]
  by_cases hsetup : d.token &&& QTD_PID_Msk = QTD_PID_SETUP
  · rw [if_neg (not_not.2 hsetup), if_pos hsetup]
    simp
  · rw [if_pos hsetup, if_neg hsetup]

theorem told_calls (u : Utr) (d : Qtd) : (u.told d).calls = u.calls := by
  unfold Utr.told
  split
  · split <;> rfl
  · split <;> rfl

/-- The halted bit is one of the error bits. -/
theorem errors_of_halt {x : BitVec 32} (h : x &&& QTD_STS_HALT ≠ 0) : x &&& QTD_STS_ERRORS ≠ 0 := by
  intro h0
  apply h
  have hsub : QTD_STS_HALT = QTD_STS_ERRORS &&& QTD_STS_HALT := by decide
  rw [hsub, ← BitVec.and_assoc, h0]
  exact BitVec.zero_and

theorem told_halted {d : Qtd} {u : Utr} (h : d.token &&& QTD_STS_HALT ≠ 0) : (u.told d).status ≠ 0 := by
  rw [Utr.told, if_pos (errors_of_halt h)]
  by_cases hzero : u.status = 0
  · rw [if_pos hzero]
    show USBH_ERR_TRANSACTION ≠ 0
    decide
  · rw [if_neg hzero]
    exact hzero

/-- A qTD of a submission that is not active is taken back. -/
theorem done_of_pid {d : Qtd} (hactive : d.token &&& QTD_STS_ACTIVE = 0)
    (hpid : (d.token.getLsbD 8 && d.token.getLsbD 9) = false) : d.done = true := by
  refine done_iff.2 ⟨?_, hactive⟩
  rintro (hdummy | hdummy)
  · rw [hdummy] at hpid
    exact absurd hpid (by decide)
  · rw [hdummy] at hpid
    exact absurd hpid (by decide)

/-! ## Other queue heads -/

/-- A step of the scan that is about other queue heads. -/
structure KeepsQh (s s' : Ehci) (qh : Unit64) (v : Nat) : Prop where
  qtd : s'.qtd = s.qtd
  queue : s'.qh qh = s.qh qh
  utr : s'.utr v = s.utr v
  async : s'.asyncList = s.asyncList
  periodic : s'.iqh = s.iqh
  others : Others s' qh v

section

variable {s s' s'' : Ehci} {qh q t : Unit64} {v w : Nat} {o : Option Nat}

theorem KeepsQh.refl (h : Others s qh v) : KeepsQh s s qh v := ⟨rfl, rfl, rfl, rfl, rfl, h⟩

theorem KeepsQh.trans (h : KeepsQh s s' qh v) (h' : KeepsQh s' s'' qh v) : KeepsQh s s'' qh v where
  qtd := h'.qtd.trans h.qtd
  queue := h'.queue.trans h.queue
  utr := h'.utr.trans h.utr
  async := h'.async.trans h.async
  periodic := h'.periodic.trans h.periodic
  others := h'.others

/-- Another queue head gets other lists of the same qTDs. -/
theorem KeepsQh.setQh (h : Others s qh v) (hq : q ≠ qh) {f : EhciQh → EhciQh}
    (hsub : ∀ t, t ∈ (f (s.qh q)).qtdList ∨ t ∈ (f (s.qh q)).doneList →
      t ∈ (s.qh q).qtdList ∨ t ∈ (s.qh q).doneList) : KeepsQh s (s.setQh q f) qh v where
  qtd := rfl
  queue := Function.update_of_ne hq.symm ..
  utr := rfl
  async := rfl
  periodic := rfl
  others := by
    intro p hp t ht
    by_cases hpq : p = q
    · subst hpq
      refine h p hp t (hsub t ?_)
      simpa [Ehci.setQh] using ht
    · refine h p hp t ?_
      simpa [Ehci.setQh, hpq] using ht

theorem KeepsQh.setUtr (h : Others s qh v) (hw : w ≠ v) (f : Utr → Utr) : KeepsQh s (s.setUtr w f) qh v where
  qtd := rfl
  queue := rfl
  utr := Function.update_of_ne hw.symm ..
  async := rfl
  periodic := rfl
  others := h

theorem KeepsQh.complete (h : Others s qh v) (hw : w ≠ v) : KeepsQh s (completeUtr s q w) qh v where
  qtd := rfl
  queue := rfl
  utr := Function.update_of_ne hw.symm ..
  async := rfl
  periodic := rfl
  others := h

/-- A visit to a qTD of another queue head. -/
theorem scanQtd_other (h : Others s qh v) (hq : q ≠ qh) (ht : t ∈ (s.qh q).qtdList ∨ t ∈ (s.qh q).doneList)
    (ho : o ≠ some v) : KeepsQh s (scanQtd q (o, s) t).2 qh v ∧ (scanQtd q (o, s) t).1 ≠ some v ∧
      ∀ x, x ∈ (s.qh q).qtdList ∨ x ∈ (s.qh q).doneList →
        x ∈ ((scanQtd q (o, s) t).2.qh q).qtdList ∨ x ∈ ((scanQtd q (o, s) t).2.qh q).doneList := by
  have hne : (s.qtd t).utr ≠ v := h q hq t ht
  simp only [scanQtd]
  cases visitQtd (s.qtd t) (s.utr (s.qtd t).utr) with
  | none => exact ⟨KeepsQh.refl h, ho, fun _ hx => hx⟩
  | some u =>
    have hutr := KeepsQh.setUtr h hne fun _ => u
    dsimp only
    refine ⟨hutr.trans (KeepsQh.setQh hutr.others hq ?_), fun heq => hne (Option.some.inj heq), ?_⟩
    · intro x hx
      rcases hx with hx | hx
      · exact Or.inl (List.mem_of_mem_erase hx)
      · rcases List.mem_cons.1 hx with rfl | hx
        · exact ht
        · exact Or.inr hx
    · intro x hx
      simp only [Ehci.setQh, Ehci.setUtr, Function.update_self]
      by_cases hxt : x = t
      · exact Or.inr (hxt ▸ List.mem_cons_self)
      · rcases hx with hx | hx
        · exact Or.inl ((List.mem_erase_of_ne hxt).2 hx)
        · exact Or.inr (List.mem_cons_of_mem t hx)

theorem scanQtds_other (h : Others s qh v) (hq : q ≠ qh) {ts : List Unit64}
    (hts : ∀ t ∈ ts, t ∈ (s.qh q).qtdList ∨ t ∈ (s.qh q).doneList) (ho : o ≠ some v) :
    KeepsQh s (ts.foldl (scanQtd q) (o, s)).2 qh v ∧ (ts.foldl (scanQtd q) (o, s)).1 ≠ some v := by
  induction ts generalizing s o with
  | nil => exact ⟨KeepsQh.refl h, ho⟩
  | cons t ts ih =>
    obtain ⟨ht, hts⟩ := List.forall_mem_cons.1 hts
    obtain ⟨hkeep, ho', hmem⟩ := scanQtd_other h hq ht ho
    rw [List.foldl_cons]
    obtain ⟨hkeep', ho''⟩ := ih (o := (scanQtd q (o, s) t).1) hkeep.others (fun x hx => hmem x (hts x hx)) ho'
    exact ⟨hkeep.trans hkeep', ho''⟩

/-- The scan of another queue head. -/
theorem scanQh_other (h : Others s qh v) (hq : q ≠ qh) : KeepsQh s (scanQh s q) qh v := by
  obtain ⟨hkeep, ho⟩ := scanQtds_other (o := none) h hq (fun t (ht : t ∈ (s.qh q).qtdList) => Or.inl ht)
    (fun heq => by cases heq)
  rw [scanQh]
  rcases hfold : (s.qh q).qtdList.foldl (scanQtd q) (none, s) with ⟨o, s₁⟩
  rw [hfold] at hkeep ho
  cases o with
  | none => exact hkeep
  | some w =>
    dsimp only
    split
    · exact hkeep.trans (KeepsQh.complete hkeep.others fun heq => ho (congrArg some heq))
    · exact hkeep

theorem scanIntQh_other (h : Others s qh v) (hq : q ≠ qh) : KeepsQh s (scanIntQh s q) qh v := by
  rw [scanIntQh]
  cases hlist : (s.qh q).qtdList with
  | nil => exact KeepsQh.refl h
  | cons t rest =>
    have ht : t ∈ (s.qh q).qtdList := hlist ▸ List.mem_cons_self
    have hne : (s.qtd t).utr ≠ v := h q hq t (Or.inl ht)
    dsimp only
    -- what is done about the done list, once the qTD has been visited
    have hvisit : ∀ s₁ s₂, KeepsQh s s₁ qh v → ((s₁.qh q).doneList = [] → s₂ = s₁) →
        (∀ t' rest', (s₁.qh q).doneList = t' :: rest' →
          s₂ = if (s₁.qh q).qtdList = [] then completeUtr s₁ q (s₁.qtd t').utr else s₁) → KeepsQh s s₂ qh v := by
      intro s₁ s₂ hkeep hnil hcons
      cases hdone : (s₁.qh q).doneList with
      | nil => exact hnil hdone ▸ hkeep
      | cons t' rest' =>
        have hne' : (s₁.qtd t').utr ≠ v := hkeep.others q hq t' (Or.inr (hdone ▸ List.mem_cons_self))
        rw [hcons t' rest' hdone]
        split
        · exact hkeep.trans (KeepsQh.complete hkeep.others hne')
        · exact hkeep
    cases visitQtd (s.qtd t) (s.utr (s.qtd t).utr) with
    | none =>
      refine hvisit s _ (KeepsQh.refl h) (fun hnil => ?_) fun t' rest' hcons => ?_
      · dsimp only
        rw [hnil]
      · dsimp only
        rw [hcons]
    | some u =>
      have hutr := KeepsQh.setUtr h hne fun _ => u
      refine hvisit ((s.setUtr (s.qtd t).utr fun _ => u).setQh q fun d =>
        { d with qtdList := [], doneList := t :: d.doneList }) _ (hutr.trans (KeepsQh.setQh hutr.others hq ?_))
        (fun hnil => ?_) fun t' rest' hcons => ?_
      · intro x hx
        rcases hx with hx | hx
        · exact absurd hx List.not_mem_nil
        · rcases List.mem_cons.1 hx with rfl | hx
          · exact Or.inl ht
          · exact Or.inr hx
      · dsimp only
        rw [hnil]
      · dsimp only
        rw [hcons]

/-- The scan of a list of others. -/
theorem foldl_other {step : Ehci → Unit64 → Ehci}
    (hstep : ∀ s q, Others s qh v → q ≠ qh → KeepsQh s (step s q) qh v) {l : List Unit64} (hl : qh ∉ l)
    (h : Others s qh v) : KeepsQh s (l.foldl step s) qh v := by
  induction l generalizing s with
  | nil => exact KeepsQh.refl h
  | cons q l ih =>
    obtain ⟨hq, hl⟩ := not_or.1 fun hor => hl (List.mem_cons.2 hor)
    have hkeep := hstep s q h fun heq => hq heq.symm
    exact hkeep.trans (ih hl hkeep.others)

end

/-! ## The queue head itself -/

/-- The qTDs `as` of a queue have been taken back, and `bs` are left. -/
structure TakenBack (s s' : Ehci) (qh : Unit64) (v : Nat) (as bs : List Unit64) : Prop where
  qtd : s'.qtd = s.qtd
  queue : s'.qh qh = { s.qh qh with qtdList := bs, doneList := as.reverse ++ (s.qh qh).doneList }
  utr : s'.utr v = as.foldl (fun u t => u.told (s.qtd t)) (s.utr v)
  async : s'.asyncList = s.asyncList
  periodic : s'.iqh = s.iqh
  others : Others s' qh v

/-- A qTD of the UTR on the done list. -/
def takeBack (s : Ehci) (qh : Unit64) (v : Nat) (t : Unit64) : Ehci :=
  (s.setUtr v fun _ => (s.utr v).told (s.qtd t)).setQh qh fun d =>
    { d with qtdList := d.qtdList.erase t, doneList := t :: d.doneList }

section

variable {s s' : Ehci} {qh t : Unit64} {v : Nat} {as bs : List Unit64}

/-- The first qTD of the queue is taken back. -/
theorem TakenBack.one (h : Others s qh v) (hqueue : (s.qh qh).qtdList = t :: bs) :
    TakenBack s (takeBack s qh v t) qh v [t] bs where
  qtd := rfl
  queue := by simp [takeBack, Ehci.setQh, Ehci.setUtr, hqueue]
  utr := by simp [takeBack, Ehci.setQh, Ehci.setUtr]
  async := rfl
  periodic := rfl
  others := by
    intro q hq x hx
    refine h q hq x ?_
    simpa [takeBack, Ehci.setQh, Ehci.setUtr, hq] using hx

theorem TakenBack.cons {s₁ : Ehci} (h : TakenBack s s₁ qh v [t] (as ++ bs)) (h' : TakenBack s₁ s' qh v as bs) :
    TakenBack s s' qh v (t :: as) bs where
  qtd := h'.qtd.trans h.qtd
  queue := by
    rw [h'.queue, h.queue]
    simp
  utr := by
    rw [h'.utr, h.utr, h.qtd]
    rfl
  async := h'.async.trans h.async
  periodic := h'.periodic.trans h.periodic
  others := h'.others

/-- The qTDs that the controller is done with are taken back one after another. -/
theorem scanQtds_done (h : Others s qh v) (hqueue : (s.qh qh).qtdList = as ++ bs)
    (hutr : ∀ t ∈ as, (s.qtd t).utr = v) (hdone : ∀ t ∈ as, (s.qtd t).done = true) (hne : as ≠ []) (o : Option Nat) :
    ∃ s', as.foldl (scanQtd qh) (o, s) = (some v, s') ∧ TakenBack s s' qh v as bs := by
  induction as generalizing s o with
  | nil => exact absurd rfl hne
  | cons t as ih =>
    obtain ⟨hv, hutr⟩ := List.forall_mem_cons.1 hutr
    obtain ⟨hd, hdone⟩ := List.forall_mem_cons.1 hdone
    have hone := TakenBack.one h hqueue
    have hstep : scanQtd qh (o, s) t = (some v, takeBack s qh v t) := by
      simp only [scanQtd, visitQtd_eq, hd, if_true, hv]
      exact congrArg (fun w => (some w, takeBack s qh v t)) hv
    rw [List.foldl_cons, hstep]
    by_cases hlast : as = []
    · subst hlast
      exact ⟨_, rfl, hone⟩
    · obtain ⟨s', hfold, hrest⟩ := ih hone.others (congrArg EhciQh.qtdList hone.queue) (by rw [hone.qtd]; exact hutr)
        (by rw [hone.qtd]; exact hdone) hlast (some v)
      exact ⟨s', hfold, hone.cons hrest⟩

theorem scanQtds_active (o : Option Nat) (hactive : ∀ t ∈ bs, (s.qtd t).done = false) :
    bs.foldl (scanQtd qh) (o, s) = (o, s) := by
  induction bs with
  | nil => rfl
  | cons t bs ih =>
    obtain ⟨ht, hbs⟩ := List.forall_mem_cons.1 hactive
    have hstep : scanQtd qh (o, s) t = (o, s) := by
      simp only [scanQtd, visitQtd_eq, ht]
      rfl
    rw [List.foldl_cons, hstep, ih hbs]

/-- What a scan makes of a queue of which the qTDs `as` are done. -/
def afterScan (s : Ehci) (qh : Unit64) (v : Nat) (bs : List Unit64) : Ehci :=
  if bs = [] then completeUtr s qh v else s

theorem scanQh_self (h : Others s qh v) (hqueue : (s.qh qh).qtdList = as ++ bs)
    (hutr : ∀ t ∈ as, (s.qtd t).utr = v) (hdone : ∀ t ∈ as, (s.qtd t).done = true)
    (hactive : ∀ t ∈ bs, (s.qtd t).done = false) (hne : as ≠ []) :
    ∃ s', TakenBack s s' qh v as bs ∧ scanQh s qh = afterScan s' qh v bs := by
  obtain ⟨s', hfold, htaken⟩ := scanQtds_done h hqueue hutr hdone hne none
  refine ⟨s', htaken, ?_⟩
  rw [scanQh, hqueue, List.foldl_append, hfold, scanQtds_active (some v) (by rw [htaken.qtd]; exact hactive)]
  show (if (s'.qh qh).qtdList = [] then _ else _) = _
  rw [htaken.queue, afterScan]

theorem scanIntQh_self (h : Others s qh v) (hqueue : (s.qh qh).qtdList = [t]) (hutr : (s.qtd t).utr = v)
    (hdone : (s.qtd t).done = true) : ∃ s', TakenBack s s' qh v [t] [] ∧ scanIntQh s qh = afterScan s' qh v [] := by
  have hone := TakenBack.one h hqueue
  refine ⟨_, hone, ?_⟩
  have hvisit : (s.setUtr v fun _ => (s.utr v).told (s.qtd t)).setQh qh
      (fun d => { d with qtdList := [], doneList := t :: d.doneList }) = takeBack s qh v t := by
    simp [takeBack, Ehci.setQh, Ehci.setUtr, hqueue]
  simp only [scanIntQh, hqueue, visitQtd_eq, hdone, if_true, hutr]
  rw [hvisit]
  simp only [hone.queue, List.reverse_singleton, List.singleton_append, if_true, afterScan]
  exact congrArg (completeUtr (takeBack s qh v t) qh) hutr

end

/-! ## The whole scan -/

section

variable {s s₁ s₂ : Ehci} {qh t : Unit64} {v k : Nat} {as bs : List Unit64} {sub : EhciSubmission} {halted : Bool}

/-- The scan of a list that has the queue head once. -/
theorem foldl_self {step : Ehci → Unit64 → Ehci}
    (hstep : ∀ s q, Others s qh v → q ≠ qh → KeepsQh s (step s q) qh v) {l : List Unit64} (hl : qh ∈ l)
    (hnd : l.Nodup) (h : Others s qh v)
    (hself : ∀ s', KeepsQh s s' qh v → ∃ s₁, TakenBack s' s₁ qh v as bs ∧ step s' qh = afterScan s₁ qh v bs) :
    ∃ s' s₁, KeepsQh s s' qh v ∧ TakenBack s' s₁ qh v as bs ∧
      KeepsQh (afterScan s₁ qh v bs) (l.foldl step s) qh v := by
  obtain ⟨l₁, l₂, rfl⟩ := List.append_of_mem hl
  obtain ⟨-, hnd₂, hdisj⟩ := List.nodup_append.1 hnd
  have hl₁ : qh ∉ l₁ := fun hmem => hdisj qh hmem qh List.mem_cons_self rfl
  have hl₂ : qh ∉ l₂ := (List.nodup_cons.1 hnd₂).1
  have hbefore := foldl_other hstep hl₁ h
  obtain ⟨s₁, htaken, heq⟩ := hself _ hbefore
  refine ⟨_, s₁, hbefore, htaken, ?_⟩
  rw [List.foldl_append, List.foldl_cons, heq]
  refine foldl_other hstep hl₂ ?_
  unfold afterScan
  split
  · exact htaken.others
  · exact htaken.others

/-- The interrupt's scans, seen from one queue head. -/
theorem scanTransfers_self (h : Others s qh v) (hlisted : Listed s qh sub) (hqueue : (s.qh qh).qtdList = as ++ bs)
    (hint : ∀ dev i, sub = .int dev i → ∃ t, as = [t] ∧ bs = [])
    (hutr : ∀ t ∈ as, (s.qtd t).utr = v) (hdone : ∀ t ∈ as, (s.qtd t).done = true)
    (hactive : ∀ t ∈ bs, (s.qtd t).done = false) (hne : as ≠ []) :
    ∃ s' s₁, KeepsQh s s' qh v ∧ TakenBack s' s₁ qh v as bs ∧
      KeepsQh (afterScan s₁ qh v bs) (scanTransfers s) qh v := by
  have hasync : qh ∈ s.asyncList ∧ s.asyncList.Nodup ∧ qh ∉ s.periodicList → ∃ s' s₁, KeepsQh s s' qh v ∧
      TakenBack s' s₁ qh v as bs ∧ KeepsQh (afterScan s₁ qh v bs) (scanTransfers s) qh v := by
    rintro ⟨hmem, hnd, hnot⟩
    obtain ⟨s', s₁, hkeep, htaken, hkeep'⟩ := foldl_self (fun s q => scanQh_other) hmem hnd h fun s' hkeep =>
      scanQh_self hkeep.others (by rw [hkeep.queue, hqueue]) (by rw [hkeep.qtd]; exact hutr)
        (by rw [hkeep.qtd]; exact hdone) (by rw [hkeep.qtd]; exact hactive) hne
    refine ⟨s', s₁, hkeep, htaken, hkeep'.trans (foldl_other (fun s q => scanIntQh_other) ?_ hkeep'.others)⟩
    have hperiodic : (scanAsynchronousList s).periodicList = s.periodicList := by
      have hiqh : (scanAsynchronousList s).iqh = s.iqh := by
        rw [scanAsynchronousList, hkeep'.periodic, ← hkeep.periodic, ← htaken.periodic]
        unfold afterScan
        split <;> rfl
      rw [Ehci.periodicList, hiqh, Ehci.periodicList]
    rw [hperiodic]
    exact hnot
  cases sub with
  | ctrl dev => exact hasync hlisted
  | bulk dev i => exact hasync hlisted
  | int dev i =>
    obtain ⟨hmem, hnd, hnot⟩ := hlisted
    obtain ⟨t, rfl, rfl⟩ := hint dev i rfl
    have hbefore : KeepsQh s (scanAsynchronousList s) qh v := foldl_other (fun s q => scanQh_other) hnot h
    have hperiodic : (scanAsynchronousList s).periodicList = s.periodicList := by
      rw [Ehci.periodicList, hbefore.periodic, Ehci.periodicList]
    have hself : ∃ s' s₁, KeepsQh (scanAsynchronousList s) s' qh v ∧ TakenBack s' s₁ qh v [t] [] ∧
        KeepsQh (afterScan s₁ qh v []) (scanTransfers s) qh v :=
      foldl_self (fun s q => scanIntQh_other) (hperiodic ▸ hmem) (hperiodic ▸ hnd) hbefore.others fun s' hkeep =>
        scanIntQh_self hkeep.others (by rw [hkeep.queue, hbefore.queue, hqueue]; rfl)
          (by rw [hkeep.qtd, hbefore.qtd]; exact hutr t List.mem_cons_self)
          (by rw [hkeep.qtd, hbefore.qtd]; exact hdone t List.mem_cons_self)
    obtain ⟨s', s₁, hkeep, htaken, hkeep'⟩ := hself
    exact ⟨s', s₁, hbefore.trans hkeep, htaken, hkeep'⟩

theorem foldl_told_calls (d : Unit64 → Qtd) (as : List Unit64) (u : Utr) :
    (as.foldl (fun u t => u.told (d t)) u).calls = u.calls := by
  induction as generalizing u with
  | nil => rfl
  | cons t as ih => rw [List.foldl_cons, ih, told_calls]

theorem foldl_told_retired {d : Unit64 → Qtd} {as : List Unit64} (h : ∀ t ∈ as, (d t).Retired) (u : Utr) :
    as.foldl (fun u t => u.told (d t)) u =
      { u with xferLen := as.foldl (fun n t => n + (d t).moved) u.xferLen } := by
  induction as generalizing u with
  | nil => rfl
  | cons t as ih =>
    obtain ⟨ht, has⟩ := List.forall_mem_cons.1 h
    rw [List.foldl_cons, told_retired ht, ih has, List.foldl_cons]

/-- What the scan leaves of the queue and of its UTR. -/
theorem EarlyStop.scanned (hstop : EarlyStop s₁ s₂ qh k halted) (hof : ∀ t ∈ (s₁.qh qh).qtdList, OfUtr (s₁.qtd t) v)
    (hint : ∀ dev i, sub = .int dev i → (s₁.qh qh).qtdList.length = 1) (hothers : Others s₂ qh v)
    (hlisted : Listed s₂ qh sub) :
    ∃ s', s'.utr v = ((s₂.qh qh).qtdList.take (k + 1)).foldl (fun u t => u.told (s₂.qtd t)) (s₂.utr v) ∧
      (s'.qh qh).qtdList = (s₂.qh qh).qtdList.drop (k + 1) ∧
      (∀ t ∈ (s₂.qh qh).qtdList.take (k + 1), t ∈ (s'.qh qh).doneList) ∧
      KeepsQh (afterScan s' qh v ((s₂.qh qh).qtdList.drop (k + 1))) (scanTransfers s₂) qh v := by
  rw [hstop.queue]
  have hmem : ∀ t ∈ (s₁.qh qh).qtdList.take (k + 1), t ∈ (s₁.qh qh).qtdList := fun t ht => List.mem_of_mem_take ht
  have hutr : ∀ t ∈ (s₁.qh qh).qtdList.take (k + 1), (s₂.qtd t).utr = v := fun t ht =>
    (congrArg Qtd.utr (hstop.kept t (hmem t ht))).trans (hof t (hmem t ht)).utr
  have hinactive : ∀ t ∈ (s₁.qh qh).qtdList.take (k + 1), (s₂.qtd t).token &&& QTD_STS_ACTIVE = 0 := by
    intro t ht
    rw [List.take_add_one] at ht
    rcases List.mem_append.1 ht with ht | ht
    · exact (hstop.before t ht).1
    · exact (hstop.stop t (Option.mem_toList.1 ht)).1
  have hdone : ∀ t ∈ (s₁.qh qh).qtdList.take (k + 1), (s₂.qtd t).done = true := by
    intro t ht
    refine done_of_pid (hinactive t ht) ?_
    rw [hstop.pid t (hmem t ht) 8 (Or.inl rfl), hstop.pid t (hmem t ht) 9 (Or.inr rfl)]
    exact (hof t (hmem t ht)).pid
  have hactive : ∀ t ∈ (s₁.qh qh).qtdList.drop (k + 1), (s₂.qtd t).done = false := by
    intro t ht
    rw [← Bool.not_eq_true, done_iff]
    exact fun h => hstop.behind t ht h.2
  have hone : ∀ dev i, sub = .int dev i →
      ∃ t, (s₁.qh qh).qtdList.take (k + 1) = [t] ∧ (s₁.qh qh).qtdList.drop (k + 1) = [] := by
    intro dev i hsub
    obtain ⟨t, ht⟩ := List.length_eq_one_iff.1 (hint dev i hsub)
    rw [ht]
    exact ⟨t, by simp, by simp⟩
  have hne : (s₁.qh qh).qtdList.take (k + 1) ≠ [] := by
    intro hnil
    have hlen := congrArg List.length hnil
    have hin := hstop.inside
    simp only [List.length_take, List.length_nil] at hlen
    omega
  have hqueue : (s₂.qh qh).qtdList = (s₁.qh qh).qtdList.take (k + 1) ++ (s₁.qh qh).qtdList.drop (k + 1) := by
    rw [hstop.queue, List.take_append_drop]
  obtain ⟨s', s'', hkeep, htaken, hkeep'⟩ :=
    scanTransfers_self hothers hlisted hqueue hone hutr hdone hactive hne
  refine ⟨s'', ?_, ?_, ?_, hkeep'⟩
  · rw [htaken.utr, hkeep.utr, hkeep.qtd]
  · rw [htaken.queue]
  · intro t ht
    rw [htaken.queue]
    exact List.mem_append_left _ (List.mem_reverse.2 ht)

/-- The controller stopped at the last qTD: the transfer is completed. -/
theorem EarlyStop.last (hstop : EarlyStop s₁ s₂ qh k halted) (hof : ∀ t ∈ (s₁.qh qh).qtdList, OfUtr (s₁.qtd t) v)
    (hint : ∀ dev i, sub = .int dev i → (s₁.qh qh).qtdList.length = 1) (hothers : Others s₂ qh v)
    (hlisted : Listed s₂ qh sub) (hlast : k + 1 = (s₁.qh qh).qtdList.length) :
    Completed s₂ (scanTransfers s₂) qh v halted := by
  obtain ⟨s', hutr, hqueue, hdone, hkeep⟩ := hstop.scanned hof hint hothers hlisted
  have hall : (s₂.qh qh).qtdList.take (k + 1) = (s₂.qh qh).qtdList := by
    rw [hstop.queue, hlast, List.take_length]
  have hnone : (s₂.qh qh).qtdList.drop (k + 1) = [] := by
    rw [hstop.queue, hlast, List.drop_length]
  rw [hall] at hutr hdone
  rw [hnone] at hqueue hkeep
  have hfinal : (scanTransfers s₂).utr v = { s'.utr v with bIsTransferDone := true, calls := (s'.utr v).calls + 1 } :=
    hkeep.utr.trans (Function.update_self ..)
  have hlists : (scanTransfers s₂).qh qh = s'.qh qh := hkeep.queue
  refine ⟨?_, ?_, ?_, ?_, ?_, ?_⟩
  · rw [hfinal, hutr, foldl_told_calls]
  · rw [hfinal]
  · rintro rfl
    -- the last one told was halted
    have hstopped : ∀ t ∈ (s₂.qh qh).qtdList[k]?, (s₂.qtd t).token &&& QTD_STS_HALT ≠ 0 := by
      rw [hstop.queue]
      exact fun t ht => (hstop.stop t ht).2
    have hin : k < (s₂.qh qh).qtdList.length := hstop.queue ▸ hstop.inside
    have hget := List.getElem?_eq_getElem hin
    rw [hfinal, hutr, ← hall, List.take_add_one, hget, List.foldl_append]
    exact told_halted (hstopped _ hget)
  · rintro rfl
    have hretired : ∀ t ∈ (s₂.qh qh).qtdList, (s₂.qtd t).Retired := by
      intro t ht
      rw [← hall, List.take_add_one, hstop.queue] at ht
      rcases List.mem_append.1 ht with ht | ht
      · exact hstop.before t ht
      · have hshort := hstop.stop t (Option.mem_toList.1 ht)
        exact ⟨hshort.1, hshort.2.1⟩
    rw [hfinal, hutr, foldl_told_retired hretired]
    exact ⟨rfl, rfl⟩
  · rw [hlists, hqueue]
  · rw [hlists]
    exact hdone

/-- It stopped at another one: the transfer stays. -/
theorem EarlyStop.notLast (hstop : EarlyStop s₁ s₂ qh k halted) (hof : ∀ t ∈ (s₁.qh qh).qtdList, OfUtr (s₁.qtd t) v)
    (hint : ∀ dev i, sub = .int dev i → (s₁.qh qh).qtdList.length = 1) (hothers : Others s₂ qh v)
    (hlisted : Listed s₂ qh sub) (hnot : k + 1 ≠ (s₁.qh qh).qtdList.length) :
    ¬ Completed s₂ (scanTransfers s₂) qh v halted := by
  obtain ⟨s', hutr, hqueue, hdone, hkeep⟩ := hstop.scanned hof hint hothers hlisted
  have hsome : (s₂.qh qh).qtdList.drop (k + 1) ≠ [] := by
    intro hnil
    have hlen := congrArg List.length hnil
    have hin := hstop.inside
    rw [hstop.queue, List.length_drop, List.length_nil] at hlen
    omega
  intro hcompleted
  have honce := hcompleted.once
  rw [hkeep.utr, afterScan, if_neg hsome, hutr, foldl_told_calls] at honce
  omega

end

/-! ## The queue of a submission -/

/-- The qTDs that a submission queues are its UTR's; for an interrupt transfer it is one. -/
theorem ehciXfer_queue {E : Nat → EpInfo} {s s₁ : Ehci} {v : Nat} {sub : EhciSubmission} {qh : Unit64}
    (hxfer : ehciXfer E s v sub = .ok (0, s₁)) (hpipe : s₁.hwPipe sub.pipe = some qh) :
    (∀ t ∈ (s₁.qh qh).qtdList, OfUtr (s₁.qtd t) v) ∧
      ∀ dev i, sub = .int dev i → (s₁.qh qh).qtdList.length = 1 := by
  rcases ehciXfer_spec hxfer with ⟨-, q, new, isNewQh, hqueued, -, hone⟩ | ⟨hne, -⟩ | ⟨hmem, -⟩
  · have hq : s₁.hwPipe sub.pipe = some q := by
      rw [hqueued.hwPipe, Function.update_self]
    cases hpipe.symm.trans hq
    rw [hqueued.queue]
    exact ⟨hqueued.utr, hone⟩
  · exact absurd rfl hne
  · exact absurd hmem (by decide)

/-- **When a transfer that stops early is completed.** -/
theorem earlyStop_iff (E : Nat → EpInfo) (s s₁ s₂ : Ehci) (v : Nat) (sub : EhciSubmission) (qh : Unit64) (k : Nat)
    (halted : Bool) (hxfer : ehciXfer E s v sub = .ok (0, s₁)) (hpipe : s₁.hwPipe sub.pipe = some qh)
    (hstop : EarlyStop s₁ s₂ qh k halted) (hothers : Others s₂ qh v) (hlisted : Listed s₂ qh sub) :
    Completed s₂ (scanTransfers s₂) qh v halted ↔ k + 1 = (s₁.qh qh).qtdList.length := by
  obtain ⟨hof, hint⟩ := ehciXfer_queue hxfer hpipe
  constructor
  · intro hcompleted
    by_contra hnot
    exact hstop.notLast hof hint hothers hlisted hnot hcompleted
  · exact hstop.last hof hint hothers hlisted

/-- A control transfer without data: the setup stage was retired, the status stage is halted. -/
def submittedCtrl : Ehci :=
  (ehciXfer (fun _ => bulkOut) (idleEhci 0) 0 (.ctrl 0)).toOption.elim (idleEhci 0) Prod.snd

@[inherit_doc submittedCtrl]
def stalledCtrl : Ehci :=
  { submittedCtrl with
    qtd := fun t =>
      let d := submittedCtrl.qtd t
      let token := d.token &&& ~~~QTD_STS_ACTIVE
      { d with token := if d.nextQtd = .ghost then token ||| QTD_STS_HALT else token } }

theorem submittedCtrl_eq : ehciXfer (fun _ => bulkOut) (idleEhci 0) 0 (.ctrl 0) = .ok (0, submittedCtrl) := by
  have hret : (ehciXfer (fun _ => bulkOut) (idleEhci 0) 0 (.ctrl 0)).toOption.map Prod.fst = some 0 := by
    decide +kernel
  rw [submittedCtrl]
  rcases hxfer : ehciXfer (fun _ => bulkOut) (idleEhci 0) 0 (.ctrl 0) with _ | ⟨ret, s⟩
  · rw [hxfer] at hret
    cases hret
  · rw [hxfer] at hret
    cases hret
    rfl

theorem submittedCtrl_queue : (submittedCtrl.qh 1).qtdList = [2, 3] := by decide +kernel

theorem stalledCtrl_stop : EarlyStop submittedCtrl stalledCtrl 1 1 true where
  queue := rfl
  kept _ _ := rfl
  pid := by
    rw [submittedCtrl_queue]
    rintro t ht b (rfl | rfl)
    · revert t
      decide +kernel
    · revert t
      decide +kernel
  inside := by
    rw [submittedCtrl_queue]
    decide
  before := by
    rw [submittedCtrl_queue]
    unfold Qtd.Retired
    decide +kernel
  stop := by
    rw [submittedCtrl_queue]
    rintro t ht
    cases ht
    unfold Qtd.Stopped
    decide +kernel
  behind := by
    rw [submittedCtrl_queue]
    decide +kernel

theorem stalledCtrl_others : Others stalledCtrl 1 0 := by
  have hempty : ∀ q : Unit64, q ≠ 1 → (stalledCtrl.qh q).qtdList = [] ∧ (stalledCtrl.qh q).doneList = [] := by
    decide +kernel
  rintro q hq t (ht | ht)
  · rw [(hempty q hq).1] at ht
    cases ht
  · rw [(hempty q hq).2] at ht
    cases ht

theorem stalledCtrl_listed : Listed stalledCtrl 1 (.ctrl 0) := by
  rw [Listed]
  decide +kernel

theorem earlyStop_iff_stalledCtrl : Completed stalledCtrl (scanTransfers stalledCtrl) 1 0 true :=
  (earlyStop_iff (fun _ => bulkOut) (idleEhci 0) submittedCtrl stalledCtrl 0 (.ctrl 0) 1 1 true submittedCtrl_eq
    (by decide +kernel) stalledCtrl_stop stalledCtrl_others stalledCtrl_listed).2 (by decide +kernel)

end NumakerMA35D1.UsbHost

import NumakerMA35D1.Lib.Holding
import NumakerMA35D1.UsbHost.EhciBulk

/-!
# What the EHCI driver holds

The queue heads of the lists and of the remove list, with the qTDs of their queues and done lists, are what the driver
holds of the pool. `Serving`: it holds each unit once, and every accepted transfer request was called back or has the
queue of one queue head. `EhciSound` adds that an endpoint's queue head is in the list for its transfers. A submission
takes what it queues (`Queued`), or leaves the driver as it was (`SameDriver`). For one that finds no memory
`memoryOut_iff` says when it does.

Reference: `_ehci.c_:491 ehci_ctrl_xfer`, `_ehci.c_:624 ehci_bulk_xfer`, `_ehci.c_:745 ehci_int_xfer`.
-/

namespace NumakerMA35D1.UsbHost

open Embedded

/-! ## What is held -/

/-- The qTDs of a queue head. -/
def EhciQh.qtds (d : EhciQh) : List Unit64 := d.qtdList ++ d.doneList

namespace Ehci

variable (s : Ehci)

/-- The queue heads that the controller visits. -/
def linked : List Unit64 := s.asyncList ++ s.periodicList

/-- The queue heads of the lists and of the remove list. -/
def qhs : List Unit64 := s.linked ++ s.removeList

/-- The units of some queue heads. -/
def heldBy (qs : List Unit64) : List Unit64 := qs.flatMap fun q => q :: (s.qh q).qtds

/-- The transfer request that a queue head is queued for. -/
def waiting (q : Unit64) : Option Nat := (s.qh q).qtdList.head?.map fun t => (s.qtd t).utr

end Ehci

/-- The driver holds each unit once; a queue is of one transfer request; and a transfer request was accepted as often
as it was called back or has a queue. -/
structure Serving (other : Set Unit64) (accepted : Nat → Nat) (s : Ehci) (qs : List Unit64) : Prop where
  holds : Holds s.pool.unitUsed other (s.heldBy qs)
  utr : ∀ q ∈ qs, ∀ t ∈ (s.qh q).qtdList, some (s.qtd t).utr = s.waiting q
  once : ∀ v, accepted v = (s.utr v).calls + (qs.map s.waiting).count (some v)

/-- The list of the queue heads for an endpoint. -/
def Ehci.listFor (E : Nat → EpInfo) (s : Ehci) : EpRef → List Unit64
  | .ep0 _ => s.asyncList
  | .ep i => if (E i).bmAttributes &&& 3#8 = 3#8 then s.periodicList else s.asyncList

/-- The driver serves what its lists have; an endpoint's queue head is in the list for it, and is no other one's; and
the queue of an interrupt endpoint has one qTD at most. -/
structure EhciSound (E : Nat → EpInfo) (other : Set Unit64) (accepted : Nat → Nat) (s : Ehci) : Prop where
  serving : Serving other accepted s s.qhs
  pipe : ∀ e q, s.hwPipe e = some q → q ∈ s.listFor E e
  inj : ∀ e e' q, s.hwPipe e = some q → s.hwPipe e' = some q → e = e'
  single : ∀ q ∈ s.periodicList, (s.qh q).qtdList.length ≤ 1

/-! ## Changes at one queue head -/

/-- A queue head has the lists that it had, and they are the same transfer requests'. -/
structure SameAt (s s' : Ehci) (p : Unit64) : Prop where
  queue : (s'.qh p).qtdList = (s.qh p).qtdList
  done : (s'.qh p).doneList = (s.qh p).doneList
  utr : ∀ t ∈ (s.qh p).qtdList, (s'.qtd t).utr = (s.qtd t).utr

section

variable {s s' : Ehci} {q p : Unit64} {qs qs' : List Unit64} {other : Set Unit64} {accepted accepted' : Nat → Nat}
  {v : Nat}

theorem SameAt.qtds (h : SameAt s s' p) : (s'.qh p).qtds = (s.qh p).qtds := by
  rw [EhciQh.qtds, EhciQh.qtds, h.queue, h.done]

theorem SameAt.waiting (h : SameAt s s' p) : s'.waiting p = s.waiting p := by
  rw [Ehci.waiting, Ehci.waiting, h.queue]
  cases hlist : (s.qh p).qtdList with
  | nil => rfl
  | cons t rest => exact congrArg some (h.utr t (hlist ▸ List.mem_cons_self))

theorem heldBy_same (h : ∀ p ∈ qs, SameAt s s' p) : s'.heldBy qs = s.heldBy qs :=
  List.flatMap_congr fun p hp => congrArg (p :: ·) (h p hp).qtds

theorem mem_heldBy {u : Unit64} : u ∈ s.heldBy qs ↔ ∃ q ∈ qs, u = q ∨ u ∈ (s.qh q).qtds := by
  simp [Ehci.heldBy]

theorem heldBy_perm (h : qs'.Perm qs) : (s.heldBy qs').Perm (s.heldBy qs) := h.flatMap_right _

theorem heldBy_split (hq : q ∈ qs) : (s.heldBy qs).Perm (q :: ((s.qh q).qtds ++ s.heldBy (qs.erase q))) :=
  heldBy_perm (List.perm_cons_erase hq)

/-- The queue heads are distinct. -/
theorem heldBy_nodup (h : (s.heldBy qs).Nodup) : qs.Nodup := by
  induction qs with
  | nil => exact List.nodup_nil
  | cons q qs ih =>
    obtain ⟨hq, htail⟩ := List.nodup_cons.1 h
    refine List.nodup_cons.2 ⟨fun hmem => hq (List.mem_append_right _ ?_), ih (List.nodup_append'.1 htail).2.1⟩
    exact mem_heldBy.2 ⟨q, hmem, Or.inl rfl⟩

theorem Serving.nodup (h : Serving other accepted s qs) : qs.Nodup := heldBy_nodup h.holds.nodup

/-- The order of the queue heads does not matter. -/
theorem Serving.perm (h : Serving other accepted s qs) (hperm : qs'.Perm qs) : Serving other accepted s qs' where
  holds := h.holds.perm (heldBy_perm hperm)
  utr q hq := h.utr q (hperm.mem_iff.1 hq)
  once v := by
    rw [(hperm.map s.waiting).count_eq]
    exact h.once v

/-- Nothing of the queue heads changes. -/
theorem Serving.same (h : Serving other accepted s qs) (hsame : ∀ p ∈ qs, SameAt s s' p)
    (hused : s'.pool.unitUsed = s.pool.unitUsed) (hcalls : ∀ v, (s'.utr v).calls = (s.utr v).calls) :
    Serving other accepted s' qs where
  holds := by
    rw [heldBy_same hsame, hused]
    exact h.holds
  utr q hq t ht := by
    rw [(hsame q hq).queue] at ht
    rw [(hsame q hq).utr t ht, (hsame q hq).waiting]
    exact h.utr q hq t ht
  once v := by
    rw [hcalls, List.map_congr_left fun p hp => (hsame p hp).waiting]
    exact h.once v

/-- One queue head changes. -/
theorem Serving.atQh (h : Serving other accepted s qs) (hq : q ∈ qs) (hsame : ∀ p ∈ qs, p ≠ q → SameAt s s' p)
    (hholds : Holds s'.pool.unitUsed other (q :: ((s'.qh q).qtds ++ s.heldBy (qs.erase q))))
    (hutr : ∀ t ∈ (s'.qh q).qtdList, some (s'.qtd t).utr = s'.waiting q)
    (honce : ∀ v, accepted' v + (if s.waiting q = some v then 1 else 0) + (s.utr v).calls =
      accepted v + (s'.utr v).calls + if s'.waiting q = some v then 1 else 0) : Serving other accepted' s' qs where
  holds := by
    have hrest : s'.heldBy (qs.erase q) = s.heldBy (qs.erase q) := by
      refine heldBy_same fun p hp => ?_
      obtain ⟨hne, hin⟩ := h.nodup.mem_erase_iff.1 hp
      exact hsame p hin hne
    rw [← hrest] at hholds
    exact hholds.perm (heldBy_split hq)
  utr p hp t ht := by
    by_cases hpq : p = q
    · subst hpq
      exact hutr t ht
    · rw [(hsame p hp hpq).queue] at ht
      rw [(hsame p hp hpq).utr t ht, (hsame p hp hpq).waiting]
      exact h.utr p hp t ht
  once v := by
    have hcount := count_map_change h.nodup hq (fun p hp hpq => (hsame p hp hpq).waiting) (some v)
    have hv := h.once v
    have hone := honce v
    omega

/-- A queue head is added. -/
theorem Serving.add (h : Serving other accepted s qs) (hsame : ∀ p ∈ qs, SameAt s s' p)
    (hholds : Holds s'.pool.unitUsed other (q :: ((s'.qh q).qtds ++ s.heldBy qs)))
    (hutr : ∀ t ∈ (s'.qh q).qtdList, some (s'.qtd t).utr = s'.waiting q)
    (honce : ∀ v, accepted' v + (s.utr v).calls =
      accepted v + (s'.utr v).calls + if s'.waiting q = some v then 1 else 0) :
    Serving other accepted' s' (q :: qs) where
  holds := by
    rw [← heldBy_same hsame] at hholds
    exact hholds
  utr := by
    refine List.forall_mem_cons.2 ⟨hutr, fun p hp t ht => ?_⟩
    rw [(hsame p hp).queue] at ht
    rw [(hsame p hp).utr t ht, (hsame p hp).waiting]
    exact h.utr p hp t ht
  once v := by
    have hv := h.once v
    have hone := honce v
    rw [List.map_cons, List.count_cons, List.map_congr_left fun p hp => (hsame p hp).waiting]
    simp only [beq_iff_eq]
    omega

/-- A queue head is given back with its qTDs. -/
theorem Serving.drop (h : Serving other accepted s (q :: qs)) (hsame : ∀ p ∈ qs, SameAt s s' p)
    (hused : ∀ u, s'.pool.unitUsed u = (s.pool.unitUsed u && !decide (u ∈ q :: (s.qh q).qtds)))
    (hcalls : ∀ v, (s'.utr v).calls = (s.utr v).calls + if s.waiting q = some v then 1 else 0) :
    Serving other accepted s' qs where
  holds := by
    rw [heldBy_same hsame]
    exact Holds.give (q :: (s.qh q).qtds) h.holds hused
  utr p hp t ht := by
    rw [(hsame p hp).queue] at ht
    rw [(hsame p hp).utr t ht, (hsame p hp).waiting]
    exact h.utr p (List.mem_cons_of_mem q hp) t ht
  once v := by
    have hv := h.once v
    rw [List.map_cons, List.count_cons] at hv
    simp only [beq_iff_eq] at hv
    rw [hcalls, List.map_congr_left fun p hp => (hsame p hp).waiting]
    omega

end

/-! ## What a submission takes -/

/-- The queue head of a submission is in the list for it; a new one has been added. -/
def Lists (s s' : Ehci) (q : Unit64) : EhciSubmission → Bool → Prop
  | _, false => s'.asyncList = s.asyncList ∧ s'.iqh = s.iqh
  | .int _ _, true => s'.asyncList = s.asyncList ∧ ∃ k, s'.iqh = Function.update s.iqh k (q :: s.iqh k)
  | _, true => s'.asyncList = q :: s.asyncList ∧ s'.iqh = s.iqh

/-- The queue head of an endpoint, whose queue is empty, gets fresh qTDs. -/
structure QhStarted (s s' : Ehci) (sub : EhciSubmission) (v : Nat) (q : Unit64) (new : List Unit64) (isNewQh : Bool) :
    Prop where
  fresh : ∀ t ∈ new, s.pool.unitUsed t = false
  nodup : new.Nodup
  used : ∀ u, s'.pool.unitUsed u = (decide (u ∈ new) || s.pool.unitUsed u)
  queue : (s'.qh q).qtdList = new
  done : (s'.qh q).doneList = (s.qh q).doneList
  others : ∀ p, p ≠ q → s'.qh p = s.qh p
  utr : ∀ t ∈ new, OfUtr (s'.qtd t) v
  kept : ∀ t, t ∉ new → (s'.qtd t).utr = (s.qtd t).utr
  calls : ∀ w, (s'.utr w).calls = (s.utr w).calls
  hwPipe : s'.hwPipe = s.hwPipe
  removeList : s'.removeList = s.removeList
  lists : Lists s s' q sub isNewQh

/-- A new queue head is made an endpoint's. -/
structure NewQh (s s' : Ehci) (e : EpRef) (q : Unit64) : Prop where
  pipe : s.hwPipe e = none
  fresh : s.pool.unitUsed q = false
  used : ∀ u, s'.pool.unitUsed u = (decide (u = q) || s.pool.unitUsed u)
  count : s'.pool.memPoolUsed = s.pool.memPoolUsed + 1
  queue : (s'.qh q).qtdList = []
  done : (s'.qh q).doneList = []
  others : ∀ p, p ≠ q → s'.qh p = s.qh p
  qtd : s'.qtd = s.qtd
  utr : s'.utr = s.utr
  hwPipe : s'.hwPipe = Function.update s.hwPipe e (some q)
  lists : s'.asyncList = s.asyncList ∧ s'.iqh = s.iqh ∧ s'.removeList = s.removeList

/-- What an accepted submission takes: its qTDs, and the queue head when the endpoint had none. -/
structure Queued (s s' : Ehci) (sub : EhciSubmission) (v : Nat) (q : Unit64) (new : List Unit64) (isNewQh : Bool) :
    Prop where
  pipe : s.hwPipe sub.pipe = if isNewQh then none else some q
  before : isNewQh = false → (s.qh q).qtdList = []
  fresh : ∀ t ∈ (if isNewQh then q :: new else new), s.pool.unitUsed t = false
  nodup : (if isNewQh then q :: new else new).Nodup
  used : ∀ u, s'.pool.unitUsed u = (decide (u ∈ if isNewQh then q :: new else new) || s.pool.unitUsed u)
  queue : (s'.qh q).qtdList = new
  done : (s'.qh q).doneList = if isNewQh then [] else (s.qh q).doneList
  others : ∀ p, p ≠ q → s'.qh p = s.qh p
  utr : ∀ t ∈ new, OfUtr (s'.qtd t) v
  kept : ∀ t, t ∉ new → (s'.qtd t).utr = (s.qtd t).utr
  calls : ∀ w, (s'.utr w).calls = (s.utr w).calls
  hwPipe : s'.hwPipe = Function.update s.hwPipe sub.pipe (some q)
  removeList : s'.removeList = s.removeList
  lists : Lists s s' q sub isNewQh

section

variable {s s' s₁ s₂ : Ehci} {sub : EhciSubmission} {v w : Nat} {q t x : Unit64} {new ts : List Unit64} {isNewQh : Bool}

theorem QhStarted.queued (h : QhStarted s s' sub v q new false) (hpipe : s.hwPipe sub.pipe = some q)
    (hempty : (s.qh q).qtdList = []) : Queued s s' sub v q new false where
  pipe := hpipe
  before _ := hempty
  fresh := h.fresh
  nodup := h.nodup
  used := h.used
  queue := h.queue
  done := h.done
  others := h.others
  utr := h.utr
  kept := h.kept
  calls := h.calls
  hwPipe := by
    rw [h.hwPipe, ← hpipe, Function.update_eq_self]
  removeList := h.removeList
  lists := h.lists

theorem NewQh.queued (hnew : NewQh s s₁ sub.pipe q) (h : QhStarted s₁ s' sub v q new true) :
    Queued s s' sub v q new true where
  pipe := hnew.pipe
  before hno := by cases hno
  fresh := by
    refine List.forall_mem_cons.2 ⟨hnew.fresh, fun t ht => ?_⟩
    have hfree := h.fresh t ht
    rw [hnew.used, Bool.or_eq_false_iff] at hfree
    exact hfree.2
  nodup := by
    refine List.nodup_cons.2 ⟨fun hmem => ?_, h.nodup⟩
    have hfree := h.fresh q hmem
    rw [hnew.used] at hfree
    simp at hfree
  used u := by
    rw [h.used, hnew.used]
    by_cases hu : u = q <;> simp [hu]
  queue := h.queue
  done := h.done.trans hnew.done
  others p hp := (h.others p hp).trans (hnew.others p hp)
  utr := h.utr
  kept t ht := by
    rw [h.kept t ht, hnew.qtd]
  calls w := by
    rw [h.calls, hnew.utr]
  hwPipe := h.hwPipe.trans hnew.hwPipe
  removeList := h.removeList.trans hnew.lists.2.2
  lists := by
    have hlists := h.lists
    cases sub with
    | ctrl dev => exact ⟨hlists.1.trans (congrArg _ hnew.lists.1), hlists.2.trans hnew.lists.2.1⟩
    | bulk dev i => exact ⟨hlists.1.trans (congrArg _ hnew.lists.1), hlists.2.trans hnew.lists.2.1⟩
    | int dev i =>
      obtain ⟨hasync, k, hiqh⟩ := hlists
      refine ⟨hasync.trans hnew.lists.1, k, ?_⟩
      rw [hiqh, hnew.lists.2.1]

/-! ## qTDs one after another -/

/-- Fresh qTDs of a transfer request are taken, and nothing else happens. -/
structure AllocQtds (s s' : Ehci) (v : Nat) (ts : List Unit64) : Prop where
  fresh : ∀ t ∈ ts, s.pool.unitUsed t = false
  nodup : ts.Nodup
  used : ∀ u, s'.pool.unitUsed u = (decide (u ∈ ts) || s.pool.unitUsed u)
  count : s'.pool.memPoolUsed = s.pool.memPoolUsed + ts.length
  utr : ∀ t ∈ ts, (s'.qtd t).utr = v
  kept : ∀ t, t ∉ ts → s'.qtd t = s.qtd t
  rest : { s' with pool := s.pool, qtd := s.qtd } = s

theorem AllocQtds.nil (s : Ehci) (v : Nat) : AllocQtds s s v [] where
  fresh _ h := absurd h List.not_mem_nil
  nodup := List.nodup_nil
  used u := by simp
  count := by simp
  utr _ h := absurd h List.not_mem_nil
  kept _ _ := rfl
  rest := rfl

/-- One more. -/
theorem AllocQtds.snoc (h : AllocQtds s s₁ v ts) (halloc : s₁.allocQtd v = (some t, s')) :
    AllocQtds s s' v (ts ++ [t]) := by
  obtain ⟨hfree, rfl⟩ := allocQtd_some halloc
  rw [h.used, Bool.or_eq_false_iff, decide_eq_false_iff_not] at hfree
  refine ⟨?_, ?_, fun u => ?_, ?_, ?_, fun u hu => ?_, ?_⟩
  · intro u hu
    rcases List.mem_append.1 hu with hu | hu
    · exact h.fresh u hu
    · rw [List.mem_singleton.1 hu]
      exact hfree.2
  · refine List.nodup_append'.2 ⟨h.nodup, List.nodup_singleton t, fun u hu hut => hfree.1 ?_⟩
    exact List.mem_singleton.1 hut ▸ hu
  · refine (MemPool.take_unitUsed s₁.pool t u).trans ?_
    rw [h.used]
    by_cases hu : u = t <;> simp [hu]
  · have hcount := h.count
    simp only [MemPool.take, List.length_append, List.length_singleton, Nat.cast_add, Nat.cast_one]
    omega
  · intro u hu
    by_cases hut : u = t
    · subst hut
      simp [Qtd.zero]
    · have hin : u ∈ ts := by simpa [hut] using hu
      simpa [hut] using h.utr u hin
  · have hnot : u ∉ ts ∧ u ≠ t := by simpa [not_or] using hu
    simpa [hnot.2] using h.kept u hnot.1
  · exact h.rest

/-- The lists and the transfer requests are as they were. -/
theorem AllocQtds.same (h : AllocQtds s s' v ts) : s'.qh = s.qh ∧ s'.asyncList = s.asyncList ∧ s'.iqh = s.iqh ∧
    s'.removeList = s.removeList ∧ s'.hwPipe = s.hwPipe ∧ s'.utr = s.utr := by
  have hqh := congrArg Ehci.qh h.rest
  have hasync := congrArg Ehci.asyncList h.rest
  have hiqh := congrArg Ehci.iqh h.rest
  have hremove := congrArg Ehci.removeList h.rest
  have hpipe := congrArg Ehci.hwPipe h.rest
  have hutr := congrArg Ehci.utr h.rest
  exact ⟨hqh, hasync, hiqh, hremove, hpipe, hutr⟩

end

/-! ## Submissions that leave the driver as it was -/

/-- The driver is as it was but for what free units hold, the words of queue heads, the endpoint of a transfer request
and where the pool's next search begins, which a unit that was taken and given back moves. -/
structure SameDriver (s s' : Ehci) : Prop where
  used : s'.pool.unitUsed = s.pool.unitUsed
  count : s'.pool.memPoolUsed = s.pool.memPoolUsed
  hwPipe : s'.hwPipe = s.hwPipe
  lists : s'.asyncList = s.asyncList ∧ s'.iqh = s.iqh ∧ s'.removeList = s.removeList
  queues : ∀ q, s.pool.unitUsed q = true →
    (s'.qh q).qtdList = (s.qh q).qtdList ∧ (s'.qh q).doneList = (s.qh q).doneList
  qtds : ∀ t, s.pool.unitUsed t = true → s'.qtd t = s.qtd t
  utr : ∀ w, { s'.utr w with ep := (s.utr w).ep } = s.utr w

section

variable {s s' s₁ : Ehci} {v : Nat} {ts : List Unit64}

theorem SameDriver.refl (s : Ehci) : SameDriver s s where
  used := rfl
  count := rfl
  hwPipe := rfl
  lists := ⟨rfl, rfl, rfl⟩
  queues _ _ := ⟨rfl, rfl⟩
  qtds _ _ := rfl
  utr _ := rfl

theorem SameDriver.trans (h : SameDriver s s₁) (h' : SameDriver s₁ s') : SameDriver s s' where
  used := h'.used.trans h.used
  count := h'.count.trans h.count
  hwPipe := h'.hwPipe.trans h.hwPipe
  lists := ⟨h'.lists.1.trans h.lists.1, h'.lists.2.1.trans h.lists.2.1, h'.lists.2.2.trans h.lists.2.2⟩
  queues q hq := by
    obtain ⟨hqueue, hdone⟩ := h'.queues q (h.used ▸ hq)
    obtain ⟨hqueue₁, hdone₁⟩ := h.queues q hq
    exact ⟨hqueue.trans hqueue₁, hdone.trans hdone₁⟩
  qtds t ht := (h'.qtds t (h.used ▸ ht)).trans (h.qtds t ht)
  utr w := by
    rw [← h.utr w, ← h'.utr w]

/-- qTDs that were taken are given back. -/
theorem AllocQtds.giveBack (h : AllocQtds s s₁ v ts) : SameDriver s (ts.foldl Ehci.free s₁) := by
  obtain ⟨hqh, hasync, hiqh, hremove, hpipe, hutr⟩ := h.same
  rw [foldl_free]
  refine ⟨funext fun u => ?_, ?_, hpipe, ⟨hasync, hiqh, hremove⟩, fun q _ => ?_, fun t ht => h.kept t fun hin => ?_,
    fun w => ?_⟩
  · show (s₁.pool.unitUsed u && !decide (u ∈ ts)) = s.pool.unitUsed u
    rw [h.used]
    by_cases hu : u ∈ ts
    · simp [hu, h.fresh u hu]
    · simp [hu]
  · show s₁.pool.memPoolUsed - ts.length = s.pool.memPoolUsed
    rw [h.count]
    omega
  · exact ⟨congrArg (fun f => (f q).qtdList) hqh, congrArg (fun f => (f q).doneList) hqh⟩
  · rw [h.fresh t hin] at ht
    cases ht
  · show { s₁.utr w with ep := (s.utr w).ep } = s.utr w
    rw [hutr]

end

/-- What a submission takes it gives back when memory runs out. -/
def RollsBack (s : Ehci) : EhciSubmission → Prop
  | .ctrl dev => s.hwPipe (.ep0 dev) ≠ none ∨ s.pool.allocEhci.1 = none
  | .bulk _ i => s.hwPipe (.ep i) = none ∨ s.pool.allocEhci.1 = none
  | .int _ _ => True

/-! ## Control submissions -/

section

variable {s s' s₁ : Ehci} {v dev : Nat} {qh q t x : Unit64} {f : Qtd → Qtd}

theorem ofUtr_setQtd (hf : ∀ d, d.utr = v → OfUtr (f d) v) (ht : (s.qtd t).utr = v)
    (hx : OfUtr (s.qtd x) v ∨ x = t) : OfUtr ((s.setQtd t f).qtd x) v := by
  by_cases hxt : x = t
  · subst hxt
    rw [Ehci.setQtd_same]
    exact hf _ ht
  · rw [Ehci.setQtd_of_ne hxt]
    exact hx.resolve_right hxt

theorem utr_setQtd (hf : ∀ d, (f d).utr = d.utr) (x : Unit64) : ((s.setQtd t f).qtd x).utr = (s.qtd x).utr := by
  by_cases hxt : x = t
  · subst hxt
    rw [Ehci.setQtd_same]
    exact hf _
  · rw [Ehci.setQtd_of_ne hxt]

theorem setupQtd_ofUtr (u : Utr) (qh next : Unit64) (d : Qtd) (h : d.utr = v) : OfUtr (setupQtd u qh next d) v := by
  refine ⟨h, ?_⟩
  rw [setupQtd]
  dsimp only
  decide

theorem dataQtd_ofUtr (u : Utr) (qh next : Unit64) (d : Qtd) (h : d.utr = v) : OfUtr (dataQtd u qh next d) v := by
  refine ⟨h, ?_⟩
  have hbit : (dataQtd u qh next d).token.getLsbD 9 = false := by
    rw [dataQtd]
    simp only [BitVec.getLsbD_or, BitVec.getLsbD_shiftLeft]
    split <;> rfl
  rw [hbit, Bool.and_false]

theorem statusQtd_ofUtr (u : Utr) (qh : Unit64) (d : Qtd) (h : d.utr = v) : OfUtr (statusQtd u qh d) v := by
  refine ⟨h, ?_⟩
  rw [statusQtd]
  dsimp only
  split <;> rfl

theorem intQtd_ofUtr (ep : EpInfo) (qh : Unit64) (u : Utr) (d : Qtd) (h : d.utr = v) :
    OfUtr (intQtd ep qh u d) v := by
  refine ⟨h, ?_⟩
  have hbit : (intQtd ep qh u d).token.getLsbD 9 = false := by
    rw [intQtd]
    simp only [BitVec.getLsbD_or, BitVec.getLsbD_shiftLeft, dataToken_pid]
    rfl
  rw [hbit, Bool.and_false]

/-- The qTDs of a control transfer. -/
theorem ehciCtrlLink_queue {qtdSetup qtdStatus : Unit64} {qtdData : Option Unit64} (hempty : (s.qh qh).qtdList = [])
    (hsetup : (s.qtd qtdSetup).utr = v) (hdata : ∀ t, qtdData = some t → (s.qtd t).utr = v)
    (hstatus : (s.qtd qtdStatus).utr = v) (isNewQh : Bool) :
    ((ehciCtrlLink s v qh qtdSetup qtdData qtdStatus isNewQh).qh qh).qtdList =
        qtdSetup :: (qtdData.toList ++ [qtdStatus]) ∧
      ∀ t ∈ qtdSetup :: (qtdData.toList ++ [qtdStatus]),
        OfUtr ((ehciCtrlLink s v qh qtdSetup qtdData qtdStatus isNewQh).qtd t) v := by
  have hqueue : ((ehciCtrlLink s v qh qtdSetup qtdData qtdStatus isNewQh).qh qh).qtdList =
      qtdSetup :: (qtdData.toList ++ [qtdStatus]) := by
    cases qtdData <;> cases isNewQh <;>
      simp [ehciCtrlLink, Ehci.appendToQtdListOfQH, Ehci.setQh, Ehci.setQtd, hempty]
  refine ⟨hqueue, ?_⟩
  let s₁ := s.setQtd qtdSetup (setupQtd (s.utr v) qh (qtdData.getD qtdStatus))
  have hone : OfUtr (s₁.qtd qtdSetup) v := ofUtr_setQtd (fun d => setupQtd_ofUtr _ _ _ d) hsetup (Or.inr rfl)
  have hutr₁ : ∀ x, (s₁.qtd x).utr = (s.qtd x).utr := utr_setQtd fun _ => rfl
  cases qtdData with
  | none =>
    have hfinal : ∀ x, OfUtr (s₁.qtd x) v ∨ x = qtdStatus →
        OfUtr ((s₁.setQtd qtdStatus (statusQtd (s.utr v) qh)).qtd x) v := fun x =>
      ofUtr_setQtd (fun d => statusQtd_ofUtr _ _ d) ((hutr₁ qtdStatus).trans hstatus)
    have heq : (ehciCtrlLink s v qh qtdSetup none qtdStatus isNewQh).qtd =
        (s₁.setQtd qtdStatus (statusQtd (s.utr v) qh)).qtd := by
      cases isNewQh <;> rfl
    rw [heq]
    exact List.forall_mem_cons.2 ⟨hfinal _ (Or.inl hone), List.forall_mem_singleton.2 (hfinal _ (Or.inr rfl))⟩
  | some t =>
    let s₂ := s₁.setQtd t (dataQtd (s.utr v) qh qtdStatus)
    have htwo : ∀ x, OfUtr (s₁.qtd x) v ∨ x = t → OfUtr (s₂.qtd x) v := fun x =>
      ofUtr_setQtd (fun d => dataQtd_ofUtr _ _ _ d) ((hutr₁ t).trans (hdata t rfl))
    have hutr₂ : ∀ x, (s₂.qtd x).utr = (s₁.qtd x).utr := utr_setQtd fun _ => rfl
    have hfinal : ∀ x, OfUtr (s₂.qtd x) v ∨ x = qtdStatus →
        OfUtr ((s₂.setQtd qtdStatus (statusQtd (s.utr v) qh)).qtd x) v := fun x =>
      ofUtr_setQtd (fun d => statusQtd_ofUtr _ _ d) (((hutr₂ qtdStatus).trans (hutr₁ qtdStatus)).trans hstatus)
    have heq : (ehciCtrlLink s v qh qtdSetup (some t) qtdStatus isNewQh).qtd =
        (s₂.setQtd qtdStatus (statusQtd (s.utr v) qh)).qtd := by
      cases isNewQh <;> rfl
    rw [heq]
    refine List.forall_mem_cons.2 ⟨hfinal _ (Or.inl (htwo _ (Or.inl hone))), List.forall_mem_cons.2 ⟨?_, ?_⟩⟩
    · exact hfinal t (Or.inl (htwo t (Or.inr rfl)))
    · exact List.forall_mem_singleton.2 (hfinal _ (Or.inr rfl))

/-- The qTDs that were taken for the stages are written and linked. -/
theorem ehciCtrlLink_started {qtdSetup qtdStatus : Unit64} {qtdData : Option Unit64}
    (h : AllocQtds s s₁ v (qtdSetup :: (qtdData.toList ++ [qtdStatus]))) (hempty : (s.qh qh).qtdList = [])
    (isNewQh : Bool) :
    QhStarted s (ehciCtrlLink s₁ v qh qtdSetup qtdData qtdStatus isNewQh) (.ctrl dev) v qh
      (qtdSetup :: (qtdData.toList ++ [qtdStatus])) isNewQh := by
  obtain ⟨hqh, hasync, hiqh, hremove, hpipe, hutr⟩ := h.same
  have hempty₁ : (s₁.qh qh).qtdList = [] := hqh ▸ hempty
  obtain ⟨hqueue, hof⟩ := ehciCtrlLink_queue hempty₁ (h.utr qtdSetup (by simp))
    (fun t (ht : qtdData = some t) => h.utr t (by simp [ht])) (h.utr qtdStatus (by simp)) isNewQh
  refine ⟨h.fresh, h.nodup, fun u => ?_, hqueue, ?_, fun p hp => ?_, hof, fun t ht => ?_, fun w => ?_, ?_, ?_, ?_⟩
  · rw [← h.used u]
    cases qtdData <;> cases isNewQh <;> rfl
  · rw [← hqh]
    cases qtdData <;> cases isNewQh <;>
      simp [ehciCtrlLink, Ehci.appendToQtdListOfQH, Ehci.setQh, Ehci.setQtd]
  · rw [← hqh]
    cases qtdData <;> cases isNewQh <;>
      simp [ehciCtrlLink, Ehci.appendToQtdListOfQH, Ehci.setQh, Ehci.setQtd, hp]
  · rw [← h.kept t ht]
    simp only [List.mem_cons, List.mem_append, List.not_mem_nil, or_false, not_or] at ht
    cases qtdData with
    | none =>
      cases isNewQh <;>
        simp [ehciCtrlLink, Ehci.appendToQtdListOfQH, Ehci.setQh, Ehci.setQtd, ht.1, ht.2.2]
    | some d =>
      have hd : t ≠ d := by simpa using ht.2.1
      cases isNewQh <;>
        simp [ehciCtrlLink, Ehci.appendToQtdListOfQH, Ehci.setQh, Ehci.setQtd, ht.1, ht.2.2, hd]
  · rw [← hutr]
    cases qtdData <;> cases isNewQh <;> rfl
  · refine Eq.trans ?_ hpipe
    cases qtdData <;> cases isNewQh <;> rfl
  · refine Eq.trans ?_ hremove
    cases qtdData <;> cases isNewQh <;> rfl
  · cases isNewQh with
    | false =>
      refine ⟨Eq.trans ?_ hasync, Eq.trans ?_ hiqh⟩
      · cases qtdData <;> rfl
      · cases qtdData <;> rfl
    | true =>
      refine ⟨Eq.trans ?_ (congrArg (qh :: ·) hasync), Eq.trans ?_ hiqh⟩
      · cases qtdData <;> rfl
      · cases qtdData <;> rfl

/-- The qTDs are linked, or there is no memory and they are given back. -/
theorem ehciCtrlQtds_spec (v dev : Nat) (hempty : (s.qh qh).qtdList = []) (isNewQh : Bool) :
    ∃ ret s', ehciCtrlQtds s v qh isNewQh = .ok (ret, s') ∧
      (ret = 0 ∧ (∃ new, new ≠ [] ∧ QhStarted s s' (.ctrl dev) v qh new isNewQh) ∨
        ret = USBH_ERR_MEMORY_OUT ∧ SameDriver s s') := by
  rcases ha : s.allocQtd v with ⟨_ | qtdSetup, sa⟩
  · obtain ⟨rfl, -⟩ := allocQtd_none ha
    refine ⟨USBH_ERR_MEMORY_OUT, sa, ?_, Or.inr ⟨rfl, SameDriver.refl sa⟩⟩
    simp only [ehciCtrlQtds, ha, ite_self]
    rfl
  have hone : AllocQtds s sa v [qtdSetup] := (AllocQtds.nil s v).snoc ha
  by_cases hdata : 0 < (s.utr v).dataLen.toNat
  · rcases hb : sa.allocQtd v with ⟨_ | qtdData, sb⟩
    · obtain ⟨rfl, -⟩ := allocQtd_none hb
      refine ⟨USBH_ERR_MEMORY_OUT, sb.free qtdSetup, ?_, Or.inr ⟨rfl, hone.giveBack⟩⟩
      simp only [ehciCtrlQtds, ha, hb, if_pos hdata]
      rfl
    have htwo := hone.snoc hb
    rcases hc : sb.allocQtd v with ⟨_ | qtdStatus, sc⟩
    · obtain ⟨rfl, -⟩ := allocQtd_none hc
      refine ⟨USBH_ERR_MEMORY_OUT, (sc.free qtdSetup).free qtdData, ?_, Or.inr ⟨rfl, htwo.giveBack⟩⟩
      simp only [ehciCtrlQtds, ha, hb, hc, if_pos hdata]
      rfl
    refine ⟨0, ehciCtrlLink sc v qh qtdSetup (some qtdData) qtdStatus isNewQh, ?_,
      Or.inl ⟨rfl, _, List.cons_ne_nil _ _, ehciCtrlLink_started (htwo.snoc hc) hempty isNewQh⟩⟩
    simp only [ehciCtrlQtds, ha, hb, hc, if_pos hdata]
    rw [if_neg fun hno => by cases hno.2]
  · rcases hc : sa.allocQtd v with ⟨_ | qtdStatus, sc⟩
    · obtain ⟨rfl, -⟩ := allocQtd_none hc
      refine ⟨USBH_ERR_MEMORY_OUT, sc.free qtdSetup, ?_, Or.inr ⟨rfl, hone.giveBack⟩⟩
      simp only [ehciCtrlQtds, ha, hc, if_neg hdata]
      rfl
    refine ⟨0, ehciCtrlLink sc v qh qtdSetup none qtdStatus isNewQh, ?_,
      Or.inl ⟨rfl, _, List.cons_ne_nil _ _, ehciCtrlLink_started (hone.snoc hc) hempty isNewQh⟩⟩
    simp only [ehciCtrlQtds, ha, hc, if_neg hdata]
    rw [if_neg fun hno => hdata hno.1]

/-- The driver as a control submission has it before it takes qTDs. -/
def ctrlPrepared (s : Ehci) (v dev : Nat) (qh : Unit64) (r : Udev × Qh) : Ehci :=
  ({ s with udev := Function.update s.udev dev r.1 }.setQh qh fun d => { d with toQh := r.2 }).setUtr v
    fun u => { u with ep := .ep0 dev }

theorem ctrlPrepared_same (s : Ehci) (v dev : Nat) (qh : Unit64) (r : Udev × Qh) :
    SameDriver s (ctrlPrepared s v dev qh r) := by
  refine ⟨rfl, rfl, rfl, ⟨rfl, rfl, rfl⟩, fun q _ => ?_, fun _ _ => rfl, fun w => ?_⟩
  · by_cases hq : q = qh
    · subst hq
      simp [ctrlPrepared, Ehci.setUtr, Ehci.setQh]
    · exact ⟨congrArg EhciQh.qtdList (Function.update_of_ne hq ..),
        congrArg EhciQh.doneList (Function.update_of_ne hq ..)⟩
  · by_cases hw : w = v
    · subst hw
      simp [ctrlPrepared, Ehci.setUtr, Ehci.setQh]
    · simp [ctrlPrepared, Ehci.setUtr, Ehci.setQh, hw]

/-- What the preparation does is none of what a start is about. -/
theorem QhStarted.prepared {r : Udev × Qh} {new : List Unit64} {isNewQh : Bool}
    (h : QhStarted (ctrlPrepared s v dev qh r) s' (.ctrl dev) v qh new isNewQh) :
    QhStarted s s' (.ctrl dev) v qh new isNewQh where
  fresh := h.fresh
  nodup := h.nodup
  used := h.used
  queue := h.queue
  done := by
    rw [h.done]
    simp [ctrlPrepared, Ehci.setUtr, Ehci.setQh]
  others p hp := (h.others p hp).trans (Function.update_of_ne hp ..)
  utr := h.utr
  kept := h.kept
  calls w := by
    rw [h.calls]
    by_cases hw : w = v
    · subst hw
      simp [ctrlPrepared, Ehci.setUtr, Ehci.setQh]
    · simp [ctrlPrepared, Ehci.setUtr, Ehci.setQh, hw]
  hwPipe := h.hwPipe
  removeList := h.removeList
  lists := by
    cases isNewQh <;> exact h.lists

/-- A control transfer at a queue head without qTDs. -/
theorem ehciCtrlStart_spec {ret : Int} {isNewQh : Bool} (hempty : (s.qh qh).qtdList = [])
    (h : ehciCtrlStart s v dev qh isNewQh = .ok (ret, s')) :
    ret = 0 ∧ (∃ new, new ≠ [] ∧ QhStarted s s' (.ctrl dev) v qh new isNewQh) ∨
      ret = USBH_ERR_MEMORY_OUT ∧ SameDriver s s' := by
  rw [ehciCtrlStart] at h
  split at h
  · cases h
  · rename_i udev w hwrite
    have hempty' : ((ctrlPrepared s v dev qh (udev, w)).qh qh).qtdList = [] := by
      simpa [ctrlPrepared, Ehci.setUtr, Ehci.setQh] using hempty
    obtain ⟨ret', s'', heq, hspec⟩ := ehciCtrlQtds_spec v dev hempty' isNewQh
    cases h.symm.trans heq
    rcases hspec with ⟨hret, new, hne, hstarted⟩ | ⟨hret, hsame⟩
    · exact Or.inl ⟨hret, new, hne, hstarted.prepared⟩
    · exact Or.inr ⟨hret, (ctrlPrepared_same s v dev qh (udev, w)).trans hsame⟩

/-- A queue head that is taken for an endpoint. -/
theorem allocQh_new {e : EpRef} (hpipe : s.hwPipe e = none) (h : s.allocQh = (some q, s₁)) :
    NewQh s (s₁.setPipe e (some q)) e q := by
  obtain ⟨-, hfree, rfl⟩ := allocQh_some h
  refine ⟨hpipe, hfree, fun u => ?_, rfl, ?_, ?_, fun p hp => Function.update_of_ne hp .., rfl, rfl, rfl,
    ⟨rfl, rfl, rfl⟩⟩
  · refine (MemPool.take_unitUsed s.pool q u).trans ?_
    by_cases hu : u = q <;> simp [hu]
  · simp [Ehci.setPipe, EhciQh.zero]
  · simp [Ehci.setPipe, EhciQh.zero]

/-- Its words are written. -/
theorem NewQh.words {e : EpRef} (h : NewQh s s₁ e q) (w : Qh) :
    NewQh s (s₁.setQh q fun d => { d with toQh := w }) e q where
  pipe := h.pipe
  fresh := h.fresh
  used := h.used
  count := h.count
  queue := by simpa [Ehci.setQh] using h.queue
  done := by simpa [Ehci.setQh] using h.done
  others p hp := (Function.update_of_ne hp ..).trans (h.others p hp)
  qtd := h.qtd
  utr := h.utr
  hwPipe := h.hwPipe
  lists := h.lists

/-- What a control submission does: it is accepted, it leaves the driver as it was, or it finds memory for a queue head
only, and leaves that with the endpoint. -/
theorem ehciCtrlXfer_spec {ret : Int} (h : ehciCtrlXfer s v dev = .ok (ret, s')) :
    (ret = 0 ∧ ∃ q new isNewQh, new ≠ [] ∧ Queued s s' (.ctrl dev) v q new isNewQh) ∨
      (ret ≠ 0 ∧ SameDriver s s' ∧ (ret = USBH_ERR_MEMORY_OUT → RollsBack s (.ctrl dev))) ∨
      (ret = USBH_ERR_MEMORY_OUT ∧ s.hwPipe (.ep0 dev) = none ∧ s.pool.allocEhci.1 ≠ none ∧
        s'.hwPipe (.ep0 dev) ≠ none) := by
  simp only [ehciCtrlXfer] at h
  split at h
  · cases h
    exact Or.inr (Or.inl ⟨by decide, SameDriver.refl s, fun h => absurd h (by decide)⟩)
  · split at h
    · rename_i q hpipe
      split at h
      · cases h
        exact Or.inr (Or.inl ⟨by decide, SameDriver.refl s, fun h => absurd h (by decide)⟩)
      · rename_i hempty
        rcases ehciCtrlStart_spec (not_not.1 hempty) h with ⟨hret, new, hne, hstarted⟩ | ⟨rfl, hsame⟩
        · exact Or.inl ⟨hret, q, new, false, hne, hstarted.queued hpipe (not_not.1 hempty)⟩
        · refine Or.inr (Or.inl ⟨by decide, hsame, fun _ => Or.inl ?_⟩)
          rw [hpipe]
          exact Option.some_ne_none q
    · rename_i hpipe
      rcases halloc : s.allocQh with ⟨_ | q, s₁⟩
      · rw [halloc] at h
        obtain ⟨rfl, hnone⟩ := allocQh_none halloc
        cases h
        exact Or.inr (Or.inl ⟨by decide, SameDriver.refl _, fun _ => Or.inr hnone⟩)
      · rw [halloc] at h
        have hnew := allocQh_new hpipe halloc
        rcases ehciCtrlStart_spec hnew.queue h with ⟨hret, new, hne, hstarted⟩ | ⟨hret, hsame⟩
        · exact Or.inl ⟨hret, q, new, true, hne, hnew.queued hstarted⟩
        · refine Or.inr (Or.inr ⟨hret, hpipe, ?_, ?_⟩)
          · rw [(allocQh_some halloc).1]
            exact Option.some_ne_none q
          · rw [hsame.hwPipe, hnew.hwPipe, Function.update_self]
            exact Option.some_ne_none q

end

/-! ## Bulk submissions -/

section

variable {E : Nat → EpInfo} {s s' s₁ s₂ : Ehci} {v dev i : Nat} {qh q t : Unit64} {new : List Unit64} {e : EpRef}

/-- What the driver has beside the pool, the queue heads and the qTDs is as it was. -/
theorem Grew.same {pre : Option Unit64} (h : Grew s s' qh pre new) : s'.asyncList = s.asyncList ∧ s'.iqh = s.iqh ∧
    s'.removeList = s.removeList ∧ s'.hwPipe = s.hwPipe ∧ s'.utr = s.utr := by
  have hasync := congrArg Ehci.asyncList h.rest
  have hiqh := congrArg Ehci.iqh h.rest
  have hremove := congrArg Ehci.removeList h.rest
  have hpipe := congrArg Ehci.hwPipe h.rest
  have hutr := congrArg Ehci.utr h.rest
  exact ⟨hasync, hiqh, hremove, hpipe, hutr⟩

/-- The queue head of a bulk endpoint with its qTDs. -/
theorem ehciBulkLink_started {ret : Int} {isNewQh : Bool} (dev : Nat) (h : Grew s s₁ qh none new)
    (hof : ∀ t ∈ new, OfUtr (s₁.qtd t) v) (hempty : (s.qh qh).qtdList = [])
    (hlink : ehciBulkLink s₁ i qh isNewQh = .ok (ret, s')) :
    ret = 0 ∧ QhStarted s s' (.bulk dev i) v qh new isNewQh := by
  obtain ⟨hasync, hiqh, hremove, hpipe, hutr⟩ := h.same
  have hqueue : (s₁.qh qh).qtdList = new := by
    rw [h.queue, hempty, List.nil_append]
  have hdone : (s₁.qh qh).doneList = (s.qh qh).doneList := by rw [h.queue]
  -- linking changes the queue head's pointers, and the list when it is new
  have hframe : ret = 0 ∧ s'.pool = s₁.pool ∧ s'.qtd = s₁.qtd ∧ (s'.qh qh).qtdList = (s₁.qh qh).qtdList ∧
      (s'.qh qh).doneList = (s₁.qh qh).doneList ∧ (∀ p, p ≠ qh → s'.qh p = s₁.qh p) ∧ s'.utr = s₁.utr ∧
      s'.hwPipe = s₁.hwPipe ∧ s'.removeList = s₁.removeList ∧ Lists s₁ s' qh (.bulk dev i) isNewQh := by
    rw [ehciBulkLink] at hlink
    cases isNewQh with
    | false =>
      split at hlink
      · cases hlink
        refine ⟨rfl, rfl, rfl, ?_, ?_, fun p hp => Function.update_of_ne hp .., rfl, rfl, rfl, rfl, rfl⟩
        · simp [Ehci.setQh]
        · simp [Ehci.setQh]
      · cases hlink
        refine ⟨rfl, rfl, rfl, ?_, ?_, fun p hp => Function.update_of_ne hp .., rfl, rfl, rfl, rfl, rfl⟩
        · simp [Ehci.setQh]
        · simp [Ehci.setQh]
    | true =>
      split at hlink
      · cases hlink
      · cases hlink
        refine ⟨rfl, rfl, rfl, ?_, ?_, fun p hp => ?_, rfl, rfl, rfl, rfl, rfl⟩
        · simp [Ehci.setQh]
        · simp [Ehci.setQh]
        · simp [Ehci.setQh, hp]
  obtain ⟨hret, hpool, hqtd, hqueue', hdone', hothers, hutr', hpipe', hremove', hlists⟩ := hframe
  refine ⟨hret, h.fresh, h.nodup, fun u => ?_, hqueue'.trans hqueue, hdone'.trans hdone,
    fun p hp => (hothers p hp).trans (h.others p hp), ?_, fun t ht => ?_, fun w => ?_, hpipe'.trans hpipe,
    hremove'.trans hremove, ?_⟩
  · rw [hpool, h.used]
  · rw [hqtd]
    exact hof
  · rw [hqtd, h.kept t ht fun hno => by cases hno]
  · rw [hutr', hutr]
  · cases isNewQh with
    | false => exact ⟨hlists.1.trans hasync, hlists.2.trans hiqh⟩
    | true => exact ⟨hlists.1.trans (congrArg (qh :: ·) hasync), hlists.2.trans hiqh⟩

/-- A bulk transfer at a queue head without qTDs. Without memory the queue head is freed when it is new. -/
theorem ehciBulkStart_spec {ret : Int} {isNewQh : Bool} (dev : Nat) (hempty : (s.qh qh).qtdList = [])
    (h : ehciBulkStart E s v i qh isNewQh = .ok (ret, s')) :
    ret = 0 ∧ (∃ new, (0 < (s.utr v).dataLen.toNat → new ≠ []) ∧ QhStarted s s' (.bulk dev i) v qh new isNewQh) ∨
      ret = USBH_ERR_MEMORY_OUT ∧ ∃ new s₁, Grew s s₁ qh none new ∧ (s.pool.allocEhci.1 ≠ none → new ≠ []) ∧
        (s.pool.allocEhci.1 = none → s₁ = s ∧ new = []) ∧ s' = if isNewQh then
          ((new.foldl Ehci.free s₁).free qh).setPipe (.ep i) none else new.foldl Ehci.free s₁ := by
  obtain ⟨new, hgrew, hof, hnew, hres⟩ := bulkLoop_spec (one_dvd 0x4000) (E i) v qh (s.utr v).dataLen.toNat
    (s.utr v).dataLen.isLt (s.utr v).buff none s (fun p hp => by cases hp)
  rw [ehciBulkStart] at h
  rcases hloop : bulkLoop (E i) v qh (s.utr v).dataLen.toNat (s.utr v).buff none s with ⟨done, s₁⟩
  rw [hloop] at h hgrew hof hres
  cases done with
  | true =>
    rw [if_pos rfl] at hres
    obtain ⟨hret, hstarted⟩ := ehciBulkLink_started dev hgrew hof hempty h
    refine Or.inl ⟨hret, new, fun hpos hnil => ?_, hstarted⟩
    have hzero := (covers_head hres).1 (by rw [hnil]; rfl)
    omega
  | false =>
    have hpos : 0 < (s.utr v).dataLen.toNat := by
      by_contra hzero
      rw [bulkLoop, if_neg hzero] at hloop
      cases hloop
    have hqueue : (s₁.qh qh).qtdList = new := by
      rw [hgrew.queue, hempty, List.nil_append]
    dsimp only at h
    rw [hqueue] at h
    cases h
    refine Or.inr ⟨rfl, new, s₁, hgrew, hnew hpos, fun hnone => ?_, rfl⟩
    rw [bulkLoop, if_pos hpos] at hloop
    have halloc : s.allocQtd v = (none, s) := by
      rw [Ehci.allocQtd]
      split
      · rfl
      · rename_i hpool
        rw [hpool] at hnone
        cases hnone
    rw [halloc] at hloop
    cases hloop
    refine ⟨rfl, ?_⟩
    rw [← hqueue, hempty]

/-- A new queue head and its qTDs are given back. -/
theorem NewQh.giveBack (hnew : NewQh s s₁ e q) (h : Grew s₁ s₂ q none new) :
    SameDriver s (((new.foldl Ehci.free s₂).free q).setPipe e none) := by
  obtain ⟨hasync, hiqh, hremove, hpipe, hutr⟩ := h.same
  obtain ⟨hasync₁, hiqh₁, hremove₁⟩ := hnew.lists
  have hfresh : ∀ t ∈ new, s.pool.unitUsed t = false := by
    intro t ht
    have hfree := h.fresh t ht
    rw [hnew.used, Bool.or_eq_false_iff] at hfree
    exact hfree.2
  rw [foldl_free]
  refine ⟨funext fun u => ?_, ?_, ?_, ⟨hasync.trans hasync₁, hiqh.trans hiqh₁, hremove.trans hremove₁⟩, fun p hp => ?_,
    fun t ht => ?_, fun w => ?_⟩
  · refine (MemPool.give_unitUsed _ q u).trans ?_
    show (if u = q then false else s₂.pool.unitUsed u && !decide (u ∈ new)) = s.pool.unitUsed u
    rw [h.used, hnew.used]
    by_cases hu : u = q
    · rw [if_pos hu, hu, hnew.fresh]
    · rw [if_neg hu]
      by_cases hin : u ∈ new
      · simp [hin, hfresh u hin]
      · simp [hin, hu]
  · show s₂.pool.memPoolUsed - new.length - 1 = s.pool.memPoolUsed
    rw [h.count, hnew.count]
    omega
  · show Function.update s₂.hwPipe e none = s.hwPipe
    rw [hpipe, hnew.hwPipe, Function.update_idem, ← hnew.pipe, Function.update_eq_self]
  · have hpq : p ≠ q := by
      rintro rfl
      rw [hnew.fresh] at hp
      cases hp
    have hqh : s₂.qh p = s.qh p := (h.others p hpq).trans (hnew.others p hpq)
    exact ⟨congrArg EhciQh.qtdList hqh, congrArg EhciQh.doneList hqh⟩
  · have hnot : t ∉ new := fun hin => by
      rw [hfresh t hin] at ht
      cases ht
    exact (h.kept t hnot fun hno => by cases hno).trans (congrFun hnew.qtd t)
  · show { s₂.utr w with ep := (s.utr w).ep } = s.utr w
    rw [hutr, hnew.utr]

/-- What a bulk submission does: it is accepted, it leaves the driver as it was, or it finds memory for some of the qTDs
only, and leaves those, given back, in the queue of the endpoint's queue head. -/
theorem ehciBulkXfer_spec {ret : Int} (h : ehciBulkXfer E s v dev i = .ok (ret, s')) :
    (ret = 0 ∧ ∃ q new isNewQh, (0 < (s.utr v).dataLen.toNat → new ≠ []) ∧
        Queued s s' (.bulk dev i) v q new isNewQh) ∨
      (ret ≠ 0 ∧ SameDriver s s' ∧ (ret = USBH_ERR_MEMORY_OUT → RollsBack s (.bulk dev i))) ∨
      (ret = USBH_ERR_MEMORY_OUT ∧ s.pool.allocEhci.1 ≠ none ∧
        ∃ q, s.hwPipe (.ep i) = some q ∧ (s.qh q).qtdList = [] ∧ (s'.qh q).qtdList ≠ []) := by
  simp only [ehciBulkXfer] at h
  split at h
  · rename_i q hpipe
    split at h
    · cases h
      exact Or.inr (Or.inl ⟨by decide, SameDriver.refl s, fun h => absurd h (by decide)⟩)
    · rename_i hempty
      rw [not_not] at hempty
      rcases ehciBulkStart_spec dev hempty h with ⟨hret, new, hne, hstarted⟩ |
        ⟨hret, new, s₁, hgrew, hsome, hnone, rfl⟩
      · exact Or.inl ⟨hret, q, new, false, hne, hstarted.queued hpipe hempty⟩
      · by_cases hroom : s.pool.allocEhci.1 = none
        · obtain ⟨rfl, rfl⟩ := hnone hroom
          exact Or.inr (Or.inl ⟨by rw [hret]; decide, SameDriver.refl _, fun _ => Or.inr hroom⟩)
        · refine Or.inr (Or.inr ⟨hret, hroom, q, hpipe, hempty, ?_⟩)
          rw [if_neg Bool.false_ne_true, foldl_free]
          show (s₁.qh q).qtdList ≠ []
          rw [hgrew.queue, hempty, List.nil_append]
          exact hsome hroom
  · rename_i hpipe
    rcases halloc : s.allocQh with ⟨_ | q, s₁⟩
    · rw [halloc] at h
      obtain ⟨rfl, hnone⟩ := allocQh_none halloc
      cases h
      exact Or.inr (Or.inl ⟨by decide, SameDriver.refl _, fun _ => Or.inr hnone⟩)
    · rw [halloc] at h
      dsimp only at h
      split at h
      · cases h
      · rename_i udev w hwrite
        have hnew := (allocQh_new hpipe halloc).words w
        rcases ehciBulkStart_spec dev hnew.queue h with ⟨hret, new, hne, hstarted⟩ |
          ⟨hret, new, s₂, hgrew, -, -, rfl⟩
        · refine Or.inl ⟨hret, q, new, true, fun hpos => hne ?_, hnew.queued hstarted⟩
          rw [hnew.utr]
          exact hpos
        · rw [if_pos rfl]
          exact Or.inr (Or.inl ⟨by rw [hret]; decide, hnew.giveBack hgrew, fun _ => Or.inl hpipe⟩)

end

/-! ## Interrupt submissions -/

section

variable {E : Nat → EpInfo} {s s' : Ehci} {v dev i : Nat} {qh : Unit64}

/-- An interrupt transfer at a queue head without qTDs. -/
theorem ehciIntStart_spec {ret : Int} {isNewQh : Bool} (hempty : (s.qh qh).qtdList = [])
    (h : ehciIntStart E s v dev i qh isNewQh = (ret, s')) :
    ret = 0 ∧ (∃ t, QhStarted s s' (.int dev i) v qh [t] isNewQh) ∨
      ret = USBH_ERR_MEMORY_OUT ∧ s' = if isNewQh then (s.free qh).setPipe (.ep i) none else s := by
  rw [ehciIntStart] at h
  rcases halloc : s.allocQtd v with ⟨_ | t, s₁⟩
  · obtain ⟨rfl, -⟩ := allocQtd_none halloc
    rw [halloc] at h
    cases h
    exact Or.inr ⟨rfl, rfl⟩
  have hone : AllocQtds s s₁ v [t] := (AllocQtds.nil s v).snoc halloc
  obtain ⟨hqh, hasync, hiqh, hremove, hpipe, hutr⟩ := hone.same
  rw [halloc] at h
  have hof := intQtd_ofUtr (E i) qh (s₁.utr v) (s₁.qtd t) (hone.utr t List.mem_cons_self)
  have hempty₁ : (s₁.qh qh).qtdList = [] := hqh ▸ hempty
  left
  cases isNewQh with
  | false =>
    cases h
    refine ⟨rfl, t, hone.fresh, hone.nodup, hone.used, ?_, ?_, fun p hp => ?_, ?_, fun x hx => ?_, fun w => ?_, hpipe,
      hremove, hasync, hiqh⟩
    · simp [Ehci.setQtd, Ehci.appendToQtdListOfQH, Ehci.setQh, hempty₁]
    · simp [Ehci.setQtd, Ehci.appendToQtdListOfQH, Ehci.setQh, hqh]
    · simp [Ehci.setQtd, Ehci.appendToQtdListOfQH, Ehci.setQh, hqh, hp]
    · refine List.forall_mem_singleton.2 ?_
      simpa [Ehci.setQtd, Ehci.appendToQtdListOfQH, Ehci.setQh] using hof
    · have hxt : x ≠ t := fun heq => hx (List.mem_singleton.2 heq)
      simp [Ehci.setQtd, Ehci.appendToQtdListOfQH, Ehci.setQh, hxt, hone.kept x hx]
    · exact congrArg (fun f => (f w).calls) hutr
  | true =>
    cases h
    refine ⟨rfl, t, hone.fresh, hone.nodup, hone.used, ?_, ?_, fun p hp => ?_, ?_, fun x hx => ?_, fun w => ?_, hpipe,
      hremove, hasync, intIqh (s.udev dev).speed (E i), ?_⟩
    · simp [Ehci.setQtd, Ehci.appendToQtdListOfQH, Ehci.setQh, hempty₁]
    · simp [Ehci.setQtd, Ehci.appendToQtdListOfQH, Ehci.setQh, hqh]
    · simp [Ehci.setQtd, Ehci.appendToQtdListOfQH, Ehci.setQh, hqh, hp]
    · refine List.forall_mem_singleton.2 ?_
      simpa [Ehci.setQtd, Ehci.appendToQtdListOfQH, Ehci.setQh] using hof
    · have hxt : x ≠ t := fun heq => hx (List.mem_singleton.2 heq)
      simp [Ehci.setQtd, Ehci.appendToQtdListOfQH, Ehci.setQh, hxt, hone.kept x hx]
    · exact congrArg (fun f => (f w).calls) hutr
    · have hudev := congrArg Ehci.udev hone.rest
      have hudev' : s₁.udev = s.udev := hudev
      show Function.update s₁.iqh (intIqh (s₁.udev dev).speed (E i)) (qh :: s₁.iqh (intIqh (s₁.udev dev).speed (E i))) =
        _
      rw [hudev', hiqh]

/-- What an interrupt submission does: it is accepted, or it leaves the driver as it was. -/
theorem ehciIntXfer_spec {ret : Int} (h : ehciIntXfer E s v dev i = .ok (ret, s')) :
    (ret = 0 ∧ ∃ q t isNewQh, Queued s s' (.int dev i) v q [t] isNewQh) ∨ (ret ≠ 0 ∧ SameDriver s s') := by
  simp only [ehciIntXfer] at h
  split at h
  · rename_i q hpipe
    split at h
    · cases h
      exact Or.inr ⟨by decide, SameDriver.refl s⟩
    · rename_i hempty
      rw [not_not] at hempty
      rcases ehciIntStart_spec hempty (Except.ok.inj h) with ⟨hret, t, hstarted⟩ | ⟨rfl, hsame⟩
      · exact Or.inl ⟨hret, q, t, false, hstarted.queued hpipe hempty⟩
      · rw [if_neg Bool.false_ne_true] at hsame
        subst hsame
        exact Or.inr ⟨by decide, SameDriver.refl _⟩
  · rename_i hpipe
    rcases halloc : s.allocQh with ⟨_ | q, s₁⟩
    · rw [halloc] at h
      obtain ⟨rfl, -⟩ := allocQh_none halloc
      cases h
      exact Or.inr ⟨by decide, SameDriver.refl _⟩
    · rw [halloc] at h
      dsimp only at h
      split at h
      · cases h
      · rename_i udev w hwrite
        have hnew := (allocQh_new hpipe halloc).words (intQh (s₁.udev dev).speed (E i) w)
        rcases ehciIntStart_spec hnew.queue (Except.ok.inj h) with ⟨hret, t, hstarted⟩ | ⟨rfl, rfl⟩
        · exact Or.inl ⟨hret, q, t, true, hnew.queued hstarted⟩
        · rw [if_pos rfl]
          exact Or.inr ⟨by decide, hnew.giveBack (Grew.nil _ q none)⟩

end

/-! ## Submissions without memory -/

section

variable {E : Nat → EpInfo} {other : Set Unit64} {accepted : Nat → Nat} {s s' : Ehci} {v : Nat} {sub : EhciSubmission}

theorem mem_linked_of_listFor {e : EpRef} {q : Unit64} (h : q ∈ s.listFor E e) : q ∈ s.linked := by
  cases e with
  | ep0 dev => exact List.mem_append_left _ h
  | ep i =>
    rw [Ehci.listFor] at h
    split at h
    · exact List.mem_append_right _ h
    · exact List.mem_append_left _ h

theorem EhciSound.mem_qhs {e : EpRef} {q : Unit64} (h : EhciSound E other accepted s) (hpipe : s.hwPipe e = some q) :
    q ∈ s.qhs :=
  List.mem_append_left _ (mem_linked_of_listFor (h.pipe e q hpipe))

/-- An endpoint's queue head is a unit in use. -/
theorem EhciSound.pipe_used {e : EpRef} {q : Unit64} (h : EhciSound E other accepted s) (hpipe : s.hwPipe e = some q) :
    s.pool.unitUsed q = true :=
  h.serving.holds.inUse (mem_heldBy.2 ⟨q, h.mem_qhs hpipe, Or.inl rfl⟩)

/-- What a submission does. -/
theorem ehciXfer_spec {ret : Int} (h : ehciXfer E s v sub = .ok (ret, s')) :
    (ret = 0 ∧ ∃ q new isNewQh, Queued s s' sub v q new isNewQh ∧
        ((∀ dev i, sub = .bulk dev i → 0 < (s.utr v).dataLen.toNat) → new ≠ []) ∧
        (∀ dev i, sub = .int dev i → new.length = 1)) ∨
      (ret ≠ 0 ∧ SameDriver s s' ∧ (ret = USBH_ERR_MEMORY_OUT → RollsBack s sub)) ∨
      (ret = USBH_ERR_MEMORY_OUT ∧ ¬ RollsBack s sub ∧ ((∀ e q, s.hwPipe e = some q → s.pool.unitUsed q = true) →
        ¬ SameDriver s s')) := by
  cases sub with
  | ctrl dev =>
    rcases ehciCtrlXfer_spec h with ⟨hret, q, new, isNewQh, hne, hqueued⟩ | hsame | ⟨hret, hpipe, hroom, hleft⟩
    · exact Or.inl ⟨hret, q, new, isNewQh, hqueued, fun _ => hne, fun _ _ hno => by cases hno⟩
    · exact Or.inr (Or.inl hsame)
    · refine Or.inr (Or.inr ⟨hret, ?_, fun _ hsame => hleft (hsame.hwPipe ▸ hpipe)⟩)
      rw [RollsBack, not_or, not_not]
      exact ⟨hpipe, hroom⟩
  | bulk dev i =>
    rcases ehciBulkXfer_spec h with ⟨hret, q, new, isNewQh, hne, hqueued⟩ | hsame |
      ⟨hret, hroom, q, hpipe, hempty, hleft⟩
    · exact Or.inl ⟨hret, q, new, isNewQh, hqueued, fun hdata => hne (hdata dev i rfl), fun _ _ hno => by cases hno⟩
    · exact Or.inr (Or.inl hsame)
    · refine Or.inr (Or.inr ⟨hret, ?_, fun hused hsame => hleft ?_⟩)
      · rw [RollsBack, not_or, hpipe]
        exact ⟨Option.some_ne_none q, hroom⟩
      · rw [(hsame.queues q (hused _ q hpipe)).1, hempty]
  | int dev i =>
    rcases ehciIntXfer_spec h with ⟨hret, q, t, isNewQh, hqueued⟩ | hsame
    · exact Or.inl ⟨hret, q, [t], isNewQh, hqueued, fun _ => List.cons_ne_nil t [], fun _ _ _ => rfl⟩
    · exact Or.inr (Or.inl ⟨hsame.1, hsame.2, fun _ => trivial⟩)

/-- **When a submission without memory leaves the driver as it was.** -/
theorem memoryOut_iff (E : Nat → EpInfo) (other : Set Unit64) (accepted : Nat → Nat) (s s' : Ehci) (v : Nat)
    (sub : EhciSubmission) (hsound : EhciSound E other accepted s)
    (hxfer : ehciXfer E s v sub = .ok (USBH_ERR_MEMORY_OUT, s')) : SameDriver s s' ↔ RollsBack s sub := by
  rcases ehciXfer_spec hxfer with ⟨hret, -⟩ | ⟨-, hsame, hrolls⟩ | ⟨-, hnot, hleft⟩
  · exact absurd hret (by decide)
  · exact iff_of_true hsame (hrolls rfl)
  · exact iff_of_false (hleft fun e q => hsound.pipe_used) hnot

end

/-- A driver with nothing allocated, in a pool where others have all units but one. -/
def tightEhci : Ehci := { idleEhci 512 with pool := ⟨fun u => u ≠ 5, 63, 0⟩ }

/-- The driver after an interrupt transfer of a new endpoint finds memory for the queue head only. -/
def tightEhciInt : Ehci := (ehciXfer (fun _ => bulkOut) tightEhci 0 (.int 0 0)).toOption.elim tightEhci Prod.snd

theorem tightEhci_sound : EhciSound (fun _ => bulkOut) {u | u ≠ 5} (fun _ => 0) tightEhci where
  serving := by
    refine ⟨⟨List.nodup_nil, fun u => ?_, fun u hu => absurd hu List.not_mem_nil⟩, fun q hq => ?_, fun v => rfl⟩
    · show decide (u ≠ 5) = true ↔ u ∈ [] ∨ u ≠ 5
      simp
    · exact absurd hq List.not_mem_nil
  pipe e q hq := by cases hq
  inj e e' q hq := by cases hq
  single q hq := absurd hq List.not_mem_nil

theorem tightEhciInt_eq :
    ehciXfer (fun _ => bulkOut) tightEhci 0 (.int 0 0) = .ok (USBH_ERR_MEMORY_OUT, tightEhciInt) := by
  have hret : (ehciXfer (fun _ => bulkOut) tightEhci 0 (.int 0 0)).toOption.map Prod.fst = some USBH_ERR_MEMORY_OUT := by
    decide +kernel
  rw [tightEhciInt]
  rcases hxfer : ehciXfer (fun _ => bulkOut) tightEhci 0 (.int 0 0) with _ | ⟨ret, s⟩
  · rw [hxfer] at hret
    cases hret
  · rw [hxfer] at hret
    cases hret
    rfl

theorem memoryOut_iff_tightEhci : SameDriver tightEhci tightEhciInt :=
  (memoryOut_iff (fun _ => bulkOut) {u | u ≠ 5} (fun _ => 0) tightEhci tightEhciInt 0 (.int 0 0) tightEhci_sound
    tightEhciInt_eq).2 trivial

end NumakerMA35D1.UsbHost

import NumakerMA35D1.UsbHost.Ohci

/-!
# The lists of the OHCI driver

`OhciInv s g`: the pointers of the driver `s` make up the lists `g`. The lists of EDs end and do not
meet, no two endpoints name one ED, every ED has a list of TDs of its own, and what is linked is taken
from the pool. `OhciInv.frame` says which parts of the state that depends on, `OhciInv.of_init` that it
holds at start.

Reference: `_ohci.c_`.
-/

namespace NumakerMA35D1.UsbHost

open Embedded

/-! ## Lists -/

/-- What an ED is for: the head of an interval's list, or an endpoint of a type. -/
inductive EdRole
  | head (k : Fin 6)
  | control
  | bulk
  | int (k : Fin 6)
  | iso (k : Fin 6)
deriving DecidableEq

/-- An ED of an interval. -/
def EdRole.Periodic (k : Fin 6) (r : EdRole) : Prop := r = .int k ∨ r = .iso k

theorem EdRole.Periodic.plain {k : Fin 6} {r : EdRole} (h : r.Periodic k) :
    (∀ j, r ≠ .head j) ∧ r ≠ .control ∧ r ≠ .bulk := by
  rcases h with rfl | rfl
  · exact ⟨by rintro _ ⟨⟩, by rintro ⟨⟩, by rintro ⟨⟩⟩
  · exact ⟨by rintro _ ⟨⟩, by rintro ⟨⟩, by rintro ⟨⟩⟩

/-- An ED has one interval. -/
theorem EdRole.Periodic.unique {j k : Fin 6} {r : EdRole} (h : r.Periodic k) (h' : r.Periodic j) :
    j = k := by
  rcases h with rfl | rfl
  · rcases h' with h' | h' <;> cases h'
    rfl
  · rcases h' with h' | h' <;> cases h'
    rfl

/-- Where a TD is: at an ED, or in the done queue. -/
inductive TdRole
  | linked (ed : Unit64)
  | retired
deriving DecidableEq

/-- The lists that the pointers make up: what each unit is, the control list, the bulk list, the EDs
behind each head of the interrupt tree, and the TDs of each ED. -/
structure OhciLists where
  edRole : Unit64 → Option EdRole
  tdRole : Unit64 → Option TdRole
  control : List Unit64
  bulk : List Unit64
  int : Fin 6 → List Unit64
  tds : Unit64 → List Unit64

/-- The list behind a head goes on with the head before it. -/
def belowHead (ied : Fin 6 → Unit64) (k : Fin 6) : Option Unit64 :=
  if k = 0 then none else some (ied (k - 1))

/-- The EDs' lists. -/
structure EdsOk (s : Ohci) (g : OhciLists) : Prop where
  head : ∀ k, g.edRole (s.ied k) = some (.head k)
  head_eq : ∀ k u, g.edRole u = some (.head k) → u = s.ied k
  control : Chain s.nextED s.controlHead g.control
  bulk : Chain s.nextED s.bulkHead g.bulk
  int : ∀ k, Links s.nextED (s.nextED (s.ied k)) (g.int k) (belowHead s.ied k)
  mem_control : ∀ u ∈ g.control, g.edRole u = some .control
  mem_bulk : ∀ u, u ∈ g.bulk ↔ g.edRole u = some .bulk
  mem_int : ∀ k u, u ∈ g.int k ↔ ∃ r, g.edRole u = some r ∧ r.Periodic k

/-- The tail pointer of an ED: the last TD, a dummy, of an interrupt endpoint, and NULL of others. -/
def TailFits (tailP : Option Unit64) (tds : List Unit64) : EdRole → Prop
  | .int _ => tailP ≠ none ∧ tds.getLast? = tailP
  | _ => tailP = none

/-- The TDs' lists. -/
structure TdsOk (s : Ohci) (g : OhciLists) : Prop where
  chain : ∀ u r, g.edRole u = some r → Chain s.nextTD (s.ed u).headP (g.tds u)
  mem : ∀ u r, g.edRole u = some r → ∀ t, t ∈ g.tds u ↔ g.tdRole t = some (.linked u)
  tail : ∀ u r, g.edRole u = some r → TailFits (s.ed u).tailP (g.tds u) r
  retired : ∀ t, t ∈ s.doneQueue ↔ g.tdRole t = some .retired
  nodup : s.doneQueue.Nodup
  owner : ∀ t u, g.tdRole t = some (.linked u) → (g.edRole u).isSome

/-- A unit is marked used exactly when it was taken for something. -/
def Ohci.UseFits (s : Ohci) : Prop := ∀ u, s.pool.unitUsed u = (s.use u).isSome

/-- What is linked is taken from the pool, and for one purpose. -/
structure UsedOk (s : Ohci) (g : OhciLists) : Prop where
  used : s.UseFits
  ed : ∀ u, s.use u = some .ed ↔ (g.edRole u).isSome
  td : ∀ t, (g.tdRole t).isSome → s.use t = some .td

/-- The information and the interval of an ED. -/
def InfoFits (d : Ed) : EdRole → Prop
  | .head _ => d.info = ED_SKIP
  | .control => d.info &&& ED_EP_ADDR_Msk = 0
  | .bulk => d.info &&& ED_EP_ADDR_Msk ≠ 0 ∧ d.bInterval = 0
  | .int k => d.info &&& ED_EP_ADDR_Msk ≠ 0 ∧ 0 < d.bInterval.toNat ∧
      k = getIntTreeHeadNode d.bInterval.toNat ∧ d.info &&& ED_FORMAT_ISO = 0
  | .iso k => d.info &&& ED_EP_ADDR_Msk ≠ 0 ∧ 0 < d.bInterval.toNat ∧
      k = getIntTreeHeadNode d.bInterval.toNat ∧ d.info &&& ED_FORMAT_ISO ≠ 0

/-- An ED of this role is an endpoint's. -/
def EdRole.Serves : EdRole → EpRef → Prop
  | .head _, _ => False
  | .control, e => ∃ dev, e = .ep0 dev
  | _, e => ∃ i, e = .ep i

/-- The endpoints' EDs, and those to be removed. -/
structure PipesOk (s : Ohci) (g : OhciLists) : Prop where
  pipe : ∀ e u, s.hwPipe e = some u → u ∉ s.edRemoveList ∧ ∃ r, g.edRole u = some r ∧ r.Serves e
  inj : ∀ e e' u, s.hwPipe e = some u → s.hwPipe e' = some u → e = e'
  nodup : s.edRemoveList.Nodup
  remove : ∀ u ∈ s.edRemoveList, (s.ed u).info &&& ED_SKIP ≠ 0 ∧
    ∃ r, g.edRole u = some r ∧ ∀ k, r ≠ .head k
  info : ∀ u r, g.edRole u = some r → InfoFits (s.ed u) r

/-- The driver's pointers make up the lists. -/
structure OhciInv (s : Ohci) (g : OhciLists) : Prop where
  eds : EdsOk s g
  tds : TdsOk s g
  used : UsedOk s g
  pipes : PipesOk s g

/-! ## What it depends on -/

/-- What the driver took is as it was, and so are the heads. -/
structure SameLists (s s' : Ohci) : Prop where
  used : s'.UseFits
  useEd : ∀ u, s'.use u = some .ed ↔ s.use u = some .ed
  useTd : ∀ t, s.use t = some .td → s'.use t = some .td
  ed : ∀ u, s.use u = some .ed → s'.ed u = s.ed u
  td : ∀ t, s.use t = some .td → s'.td t = s.td t
  ied : s'.ied = s.ied
  controlHead : s'.controlHead = s.controlHead
  bulkHead : s'.bulkHead = s.bulkHead
  hwPipe : s'.hwPipe = s.hwPipe
  edRemoveList : s'.edRemoveList = s.edRemoveList
  doneQueue : s'.doneQueue = s.doneQueue

section

variable {s s' : Ohci} {g g' : OhciLists}

/-- Only the links of what is in the lists matter. -/
theorem EdsOk.congr (h : EdsOk s g) (hnext : ∀ u r, g.edRole u = some r → s'.nextED u = s.nextED u)
    (hied : s'.ied = s.ied) (hcontrol : s'.controlHead = s.controlHead)
    (hbulk : s'.bulkHead = s.bulkHead) : EdsOk s' g where
  head k := by
    rw [hied]
    exact h.head k
  head_eq k u hu := by
    rw [hied]
    exact h.head_eq k u hu
  control := by
    rw [hcontrol]
    exact h.control.congr fun u hu => hnext u _ (h.mem_control u hu)
  bulk := by
    rw [hbulk]
    exact h.bulk.congr fun u hu => hnext u _ ((h.mem_bulk u).1 hu)
  int k := by
    rw [hied, hnext _ _ (h.head k)]
    refine (h.int k).congr fun u hu => ?_
    obtain ⟨r, hr, -⟩ := (h.mem_int k u).1 hu
    exact hnext u _ hr
  mem_control := h.mem_control
  mem_bulk := h.mem_bulk
  mem_int := h.mem_int

theorem OhciInv.use_ed (h : OhciInv s g) {u : Unit64} {r : EdRole} (hr : g.edRole u = some r) :
    s.use u = some .ed :=
  (h.used.ed u).2 (by rw [hr]; rfl)

theorem OhciInv.use_td (h : OhciInv s g) {t : Unit64} {r : TdRole} (hr : g.tdRole t = some r) :
    s.use t = some .td :=
  h.used.td t (by rw [hr]; rfl)

theorem OhciInv.frame (h : OhciInv s g) (hs : SameLists s s') : OhciInv s' g where
  eds := by
    refine h.eds.congr (fun u r hr => ?_) hs.ied hs.controlHead hs.bulkHead
    exact congrArg Ed.nextED (hs.ed u (h.use_ed hr))
  tds := by
    refine ⟨fun u r hr => ?_, h.tds.mem, fun u r hr => ?_, ?_, ?_, h.tds.owner⟩
    · rw [hs.ed u (h.use_ed hr)]
      refine (h.tds.chain u r hr).congr fun t ht => ?_
      exact congrArg Td.nextTD (hs.td t (h.use_td ((h.tds.mem u r hr t).1 ht)))
    · rw [hs.ed u (h.use_ed hr)]
      exact h.tds.tail u r hr
    · rw [hs.doneQueue]
      exact h.tds.retired
    · rw [hs.doneQueue]
      exact h.tds.nodup
  used := ⟨hs.used, fun u => (hs.useEd u).trans (h.used.ed u), fun t ht => hs.useTd t (h.used.td t ht)⟩
  pipes := by
    refine ⟨?_, ?_, ?_, ?_, fun u r hr => ?_⟩
    · rw [hs.hwPipe, hs.edRemoveList]
      exact h.pipes.pipe
    · rw [hs.hwPipe]
      exact h.pipes.inj
    · rw [hs.edRemoveList]
      exact h.pipes.nodup
    · rw [hs.edRemoveList]
      intro u hu
      obtain ⟨hskip, r, hr, hne⟩ := h.pipes.remove u hu
      rw [hs.ed u (h.use_ed hr)]
      exact ⟨hskip, r, hr, hne⟩
    · rw [hs.ed u (h.use_ed hr)]
      exact h.pipes.info u r hr

/-- A unit that was taken for nothing has no place in the lists. -/
theorem OhciInv.edRole_none (h : OhciInv s g) {u : Unit64} (hu : s.use u ≠ some .ed) :
    g.edRole u = none := by
  cases hr : g.edRole u with
  | none => rfl
  | some r => exact absurd (h.use_ed hr) hu

theorem OhciInv.tdRole_none (h : OhciInv s g) {t : Unit64} (ht : s.use t ≠ some .td) :
    g.tdRole t = none := by
  cases hr : g.tdRole t with
  | none => rfl
  | some r => exact absurd (h.use_td hr) ht

/-! ## Units taken and given back -/

theorem Ohci.UseFits.take (h : s.UseFits) (u : Unit64) (k : UnitUse) : (s.take u k).UseFits := by
  intro w
  change (s.pool.take u).unitUsed w = (Function.update s.use u (some k) w).isSome
  rw [MemPool.take_unitUsed, Function.update_apply, h w]
  split <;> rfl

theorem Ohci.UseFits.free (h : s.UseFits) (u : Unit64) : (s.free u).UseFits := by
  intro w
  change (s.pool.give u).unitUsed w = (Function.update s.use u none w).isSome
  rw [MemPool.give_unitUsed, Function.update_apply, h w]
  split <;> rfl

/-- A unit that is free was taken for nothing. -/
theorem Ohci.UseFits.use_none (h : s.UseFits) {u : Unit64} (hu : s.pool.unitUsed u = false) :
    s.use u = none := by
  rw [h u] at hu
  cases huse : s.use u with
  | none => rfl
  | some k =>
    rw [huse] at hu
    cases hu

/-! ## The interrupt tree -/

/-- The list of a head and of those before it. -/
def treeFrom (ied : Fin 6 → Unit64) (int : Fin 6 → List Unit64) : (k : Nat) → k < 6 → List Unit64
  | 0, _ => ied 0 :: int 0
  | k + 1, h => ied ⟨k + 1, h⟩ :: int ⟨k + 1, h⟩ ++ treeFrom ied int k (Nat.lt_of_succ_lt h)

theorem mem_treeFrom {ied : Fin 6 → Unit64} {int : Fin 6 → List Unit64} {u : Unit64} (k : Nat)
    (hk : k < 6) :
    u ∈ treeFrom ied int k hk ↔ ∃ j : Fin 6, j.val ≤ k ∧ (u = ied j ∨ u ∈ int j) := by
  induction k with
  | zero =>
    rw [treeFrom, List.mem_cons]
    constructor
    · intro h
      exact ⟨0, Nat.le_refl 0, h⟩
    · rintro ⟨j, hj, h⟩
      obtain rfl : j = 0 := Fin.ext (Nat.le_zero.1 hj)
      exact h
  | succ k ih =>
    rw [treeFrom, List.mem_append, List.mem_cons, ih]
    constructor
    · rintro (h | ⟨j, hj, h⟩)
      · exact ⟨⟨k + 1, hk⟩, Nat.le_refl _, h⟩
      · exact ⟨j, Nat.le_succ_of_le hj, h⟩
    · rintro ⟨j, hj, h⟩
      rcases Nat.lt_or_eq_of_le hj with hlt | heq
      · exact .inr ⟨j, Nat.le_of_lt_succ hlt, h⟩
      · obtain rfl : j = ⟨k + 1, hk⟩ := Fin.ext heq
        exact .inl h

/-- The links from a head. -/
theorem EdsOk.tree (h : EdsOk s g) (k : Nat) (hk : k < 6) :
    Chain s.nextED (some (s.ied ⟨k, hk⟩)) (treeFrom s.ied g.int k hk) := by
  induction k with
  | zero => exact ⟨rfl, h.int 0⟩
  | succ k ih =>
    have hint := h.int ⟨k + 1, hk⟩
    have hbelow : belowHead s.ied ⟨k + 1, hk⟩ = some (s.ied ⟨k, Nat.lt_of_succ_lt hk⟩) := by
      rw [belowHead, if_neg (by simp [Fin.ext_iff])]
      congr 2
      apply Fin.ext
      rw [Fin.val_sub_one_of_ne_zero (by simp [Fin.ext_iff])]
      rfl
    rw [hbelow] at hint
    exact ⟨rfl, hint.append (ih _)⟩

end

/-! ## Start -/

/-- Each head is linked to the one before it. -/
theorem initHccaIntTable_next (k : Fin 6) :
    initHccaIntTable.next k = if k = 0 then none else some (k - 1) := by
  revert k
  decide

/-- Heads are units of their own that were free. -/
structure HeadsFresh (pool pool' : MemPool) (ied : Fin 6 → Unit64) (heads : List (Fin 6)) : Prop where
  fresh : ∀ i ∈ heads, pool.unitUsed (ied i) = false ∧ pool'.unitUsed (ied i) = true
  apart : ∀ i ∈ heads, ∀ j ∈ heads, ied i = ied j → i = j
  used : ∀ u, pool'.unitUsed u = true → pool.unitUsed u = true ∨ ∃ i ∈ heads, ied i = u
  kept : ∀ u, pool.unitUsed u = true → pool'.unitUsed u = true

theorem HeadsFresh.alloc {pool pool' pool'' : MemPool} {ied : Fin 6 → Unit64} {heads : List (Fin 6)}
    {i : Fin 6} {u : Unit64} (h : HeadsFresh pool pool' ied heads) (hi : i ∉ heads)
    (hu : pool'.allocOhci = (some u, pool'')) :
    HeadsFresh pool pool'' (Function.update ied i u) (i :: heads) := by
  obtain ⟨hfree, rfl⟩ := MemPool.allocOhci_some hu
  have hold : ∀ j ∈ heads, Function.update ied i u j = ied j := by
    intro j hj
    refine Function.update_of_ne ?_ ..
    rintro rfl
    exact hi hj
  have hne : ∀ j ∈ heads, ied j ≠ u := by
    rintro j hj rfl
    rw [(h.fresh j hj).2] at hfree
    cases hfree
  have hu : pool.unitUsed u = false := by
    cases hused : pool.unitUsed u with
    | false => rfl
    | true =>
      rw [h.kept u hused] at hfree
      cases hfree
  refine ⟨?_, ?_, ?_, ?_⟩
  · intro j hj
    rcases List.mem_cons.1 hj with rfl | hj
    · rw [Function.update_self, MemPool.take_unitUsed, if_pos rfl]
      exact ⟨hu, rfl⟩
    · rw [hold j hj, MemPool.take_unitUsed, if_neg (hne j hj)]
      exact h.fresh j hj
  · intro j hj k hk heq
    rcases List.mem_cons.1 hj with rfl | hj'
    · rcases List.mem_cons.1 hk with rfl | hk'
      · rfl
      · rw [Function.update_self, hold k hk'] at heq
        exact absurd heq.symm (hne k hk')
    · rcases List.mem_cons.1 hk with rfl | hk'
      · rw [Function.update_self, hold j hj'] at heq
        exact absurd heq (hne j hj')
      · rw [hold j hj', hold k hk'] at heq
        exact h.apart j hj' k hk' heq
  · intro v hv
    rw [MemPool.take_unitUsed] at hv
    split at hv
    · subst ‹v = u›
      exact .inr ⟨i, .head _, Function.update_self ..⟩
    · rcases h.used v hv with hv | ⟨j, hj, rfl⟩
      · exact .inl hv
      · exact .inr ⟨j, .tail _ hj, hold j hj⟩
  · intro v hv
    rw [MemPool.take_unitUsed]
    split
    · rfl
    · exact h.kept v hv

theorem allocHeads_fresh {pool pool' : MemPool} {ied : Fin 6 → Unit64}
    (h : allocHeads pool = some (ied, pool')) :
    HeadsFresh pool pool' ied [0, 1, 2, 3, 4, 5] := by
  have hstep : ∀ f : (Fin 6 → Unit64) × MemPool → Fin 6 → Option ((Fin 6 → Unit64) × MemPool),
      (∀ acc i pool₁, acc.2.allocOhci = (none, pool₁) → f acc i = none) →
      (∀ acc i u pool₁, acc.2.allocOhci = (some u, pool₁) →
        f acc i = some (Function.update acc.1 i u, pool₁)) →
      ∀ (todo heads : List (Fin 6)) (ied₀ : Fin 6 → Unit64) (pool₀ : MemPool),
      (heads.reverse ++ todo).Nodup → HeadsFresh pool pool₀ ied₀ heads →
      todo.foldlM f (ied₀, pool₀) = some (ied, pool') →
      HeadsFresh pool pool' ied (todo.reverse ++ heads) := by
    intro f hout htaken todo
    induction todo with
    | nil =>
      intro heads ied₀ pool₀ _ h₀ hrun
      cases hrun
      exact h₀
    | cons i todo ih =>
      intro heads ied₀ pool₀ hnd h₀ hrun
      rw [List.foldlM_cons] at hrun
      cases halloc : pool₀.allocOhci with
      | mk u pool₁ =>
        cases u with
        | none =>
          rw [hout _ _ _ halloc] at hrun
          cases hrun
        | some u =>
          rw [htaken _ _ _ _ halloc] at hrun
          have hi : i ∉ heads := fun hi =>
            (List.nodup_append.1 hnd).2.2 i (List.mem_reverse.2 hi) i (.head _) rfl
          have hnd' : ((i :: heads).reverse ++ todo).Nodup := by
            rw [List.reverse_cons, List.append_assoc]
            exact hnd
          have hdone := ih (i :: heads) _ _ hnd' (h₀.alloc hi halloc) hrun
          rwa [List.reverse_cons, List.append_assoc]
  refine hstep _ ?_ ?_ [5, 4, 3, 2, 1, 0] [] _ pool (by decide)
    ⟨by rintro _ ⟨⟩, by rintro _ ⟨⟩, fun u hu => .inl hu, fun u hu => hu⟩ h
  · intro acc i pool₁ halloc
    simp only [halloc]
  · intro acc i u pool₁ halloc
    simp only [halloc]

/-- The lists at start. -/
def OhciLists.init (ied : Fin 6 → Unit64) : OhciLists where
  edRole u := ((List.finRange 6).find? fun i => ied i = u).map EdRole.head
  tdRole _ := none
  control := []
  bulk := []
  int _ := []
  tds _ := []

/-- The driver at start. -/
theorem OhciInv.of_init {pool : MemPool} {s : Ohci} (h : ohciInit pool = .ok s) :
    OhciInv s (OhciLists.init s.ied) := by
  rw [ohciInit] at h
  split at h
  · cases h
  · rename_i ied pool' halloc
    cases h
    have hfresh := allocHeads_fresh halloc
    have hall : ∀ i : Fin 6, i ∈ [0, 1, 2, 3, 4, 5] := by decide
    have hfind : ∀ k : Fin 6, (List.finRange 6).find? (fun i => ied i = ied k) = some k := by
      intro k
      rw [List.find?_eq_some_iff_append]
      obtain ⟨as, bs, hab⟩ := List.append_of_mem (List.mem_finRange k)
      refine ⟨by simp, as, bs, hab, fun j hj => ?_⟩
      have hnd : (as ++ k :: bs).Nodup := hab ▸ List.nodup_finRange 6
      have hne : j ≠ k := fun hjk => (List.nodup_append.1 hnd).2.2 j hj k (.head _) hjk
      simpa using fun heq => hne (hfresh.apart j (hall j) k (hall k) heq)
    have hrole : ∀ u r, (OhciLists.init ied).edRole u = some r → ∃ k, ied k = u ∧ r = .head k := by
      intro u r hr
      obtain ⟨k, hk, rfl⟩ := Option.map_eq_some_iff.1 hr
      exact ⟨k, by simpa using List.find?_some hk, rfl⟩
    have hhead : ∀ k, (OhciLists.init ied).edRole (ied k) = some (.head k) := by
      intro k
      change ((List.finRange 6).find? fun i => ied i = ied k).map EdRole.head = _
      rw [hfind k]
      rfl
    have hed : ∀ k, (Ohci.init pool' pool.unitUsed ied).ed (ied k) =
        { Ed.zero with info := ED_SKIP, nextED := belowHead ied k } := by
      intro k
      simp only [Ohci.init]
      rw [hfind k]
      dsimp only
      rw [initHccaIntTable_next, belowHead]
      split <;> rfl
    have huse : ∀ u, (Ohci.init pool' pool.unitUsed ied).use u = if pool.unitUsed u then some .foreign
        else ((OhciLists.init ied).edRole u).map fun _ => .ed := by
      intro u
      rw [OhciLists.init, Option.map_map]
      rfl
    refine ⟨⟨hhead, ?_, rfl, rfl, ?_, by rintro _ ⟨⟩, ?_, ?_⟩,
      ⟨?_, ?_, ?_, ?_, .nil, (by rintro _ _ ⟨⟩)⟩, ⟨?_, ?_, by rintro _ ⟨⟩⟩,
      ⟨(by rintro _ _ ⟨⟩), (by rintro _ _ _ ⟨⟩), .nil, by rintro _ ⟨⟩, ?_⟩⟩
    · intro k u hu
      obtain ⟨j, rfl, hj⟩ := hrole u _ hu
      cases hj
      rfl
    · intro k
      exact congrArg Ed.nextED (hed k)
    · intro u
      refine iff_of_false (List.not_mem_nil) fun hu => ?_
      obtain ⟨j, -, hj⟩ := hrole u _ hu
      cases hj
    · intro k u
      refine iff_of_false (List.not_mem_nil) ?_
      rintro ⟨r, hr, hper⟩
      obtain ⟨j, -, rfl⟩ := hrole u _ hr
      exact hper.plain.1 j rfl
    · intro u r hr
      obtain ⟨k, rfl, -⟩ := hrole u r hr
      rw [hed k]
      rfl
    · intro u r hr t
      exact iff_of_false List.not_mem_nil (by rintro ⟨⟩)
    · intro u r hr
      obtain ⟨k, rfl, rfl⟩ := hrole u r hr
      rw [hed k]
      rfl
    · intro t
      exact iff_of_false List.not_mem_nil (by rintro ⟨⟩)
    · intro u
      rw [huse]
      change pool'.unitUsed u = _
      cases hused : pool.unitUsed u with
      | true => exact hfresh.kept u hused
      | false =>
        rw [if_neg Bool.false_ne_true, Option.isSome_map]
        cases hr : (OhciLists.init ied).edRole u with
        | some r =>
          obtain ⟨k, rfl, -⟩ := hrole u r hr
          exact (hfresh.fresh k (hall k)).2
        | none =>
          cases hused' : pool'.unitUsed u with
          | false => rfl
          | true =>
            rcases hfresh.used u hused' with hold | ⟨k, -, rfl⟩
            · rw [hused] at hold
              cases hold
            · rw [hhead] at hr
              cases hr
    · intro u
      change _ ↔ ((OhciLists.init ied).edRole u).isSome
      rw [huse]
      cases hr : (OhciLists.init ied).edRole u with
      | none => split <;> simp
      | some r =>
        obtain ⟨k, rfl, -⟩ := hrole u r hr
        rw [if_neg (by rw [(hfresh.fresh k (hall k)).1]; exact Bool.false_ne_true)]
        simp
    · intro u r hr
      obtain ⟨k, rfl, rfl⟩ := hrole u r hr
      rw [hed k]
      rfl

end NumakerMA35D1.UsbHost

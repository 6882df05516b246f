import NumakerMA35D1.UsbHost.OhciInv

/-!
# Linking descriptors

What the allocations of a submission take and give back (`allocTd_some`, `chainTds_spec`,
`TookTds.freeTds`), and how the lists change when an ED gets TDs (`TdsOk.put`) or a place in a list
(`EdsOk.pushBulk`, `EdsOk.pushPeriodic`, `EdsOk.setControl`).

Reference: `_ohci.c_`, `mem_alloc.c`.
-/

namespace NumakerMA35D1.UsbHost

open Embedded

/-! ## Units taken and given back -/

namespace MemPool

variable {p : MemPool} {us : List Unit64} {u : Unit64}

theorem allocOhci_none {p' : MemPool} (h : p.allocOhci = (none, p')) (u : Unit64) :
    p.unitUsed u = true := by
  rw [allocOhci] at h
  split at h
  · cases h
  · rename_i hfind
    simpa using List.find?_eq_none.1 hfind u (List.mem_finRange u)

theorem takes_unitUsed (p : MemPool) (us : List Unit64) (u : Unit64) :
    (us.foldl take p).unitUsed u = (p.unitUsed u || decide (u ∈ us)) := by
  induction us generalizing p with
  | nil => simp
  | cons v us ih =>
    rw [List.foldl_cons, ih, take_unitUsed]
    by_cases h : u = v <;> simp [h]

theorem gives_unitUsed (p : MemPool) (us : List Unit64) (u : Unit64) :
    (us.foldl give p).unitUsed u = (p.unitUsed u && !decide (u ∈ us)) := by
  induction us generalizing p with
  | nil => simp
  | cons v us ih =>
    rw [List.foldl_cons, ih, give_unitUsed]
    by_cases h : u = v <;> simp [h]

theorem takes_memPoolUsed (p : MemPool) (us : List Unit64) :
    (us.foldl take p).memPoolUsed = p.memPoolUsed + us.length := by
  induction us generalizing p with
  | nil => simp
  | cons v us ih =>
    rw [List.foldl_cons, ih, take, List.length_cons]
    push_cast
    ring

theorem gives_memPoolUsed (p : MemPool) (us : List Unit64) :
    (us.foldl give p).memPoolUsed = p.memPoolUsed - us.length := by
  induction us generalizing p with
  | nil => simp
  | cons v us ih =>
    rw [List.foldl_cons, ih, give, List.length_cons]
    push_cast
    ring

end MemPool

section

variable {s s' : Ohci} {t u : Unit64} {v : Option Nat}

theorem allocTd_some (h : s.allocTd v = (some t, s')) : s.pool.unitUsed t = false ∧
    s' = { s.take t .td with td := Function.update s.td t (Td.zero v) } := by
  rw [Ohci.allocTd] at h
  split at h
  · cases h
  · rename_i t' pool halloc
    cases h
    exact ⟨(MemPool.allocOhci_some halloc).1, rfl⟩

/-- A new TD is linked to nothing. -/
theorem allocTd_next (h : s.allocTd v = (some t, s')) : s'.nextTD t = none := by
  obtain ⟨-, rfl⟩ := allocTd_some h
  have hself : (Function.update s.td t (Td.zero v)) t = Td.zero v := Function.update_self ..
  exact congrArg Td.nextTD hself

theorem allocTd_utr (h : s.allocTd v = (some t, s')) : (s'.td t).utr = v := by
  obtain ⟨-, rfl⟩ := allocTd_some h
  have hself : (Function.update s.td t (Td.zero v)) t = Td.zero v := Function.update_self ..
  exact congrArg Td.utr hself

theorem allocTd_none (h : s.allocTd v = (none, s')) : s' = s ∧ ∀ u, s.pool.unitUsed u = true := by
  rw [Ohci.allocTd] at h
  split at h
  · rename_i pool halloc
    cases h
    exact ⟨rfl, MemPool.allocOhci_none halloc⟩
  · cases h

theorem allocEd_some (h : s.allocEd = (some u, s')) : s.pool.unitUsed u = false ∧
    s' = { s.take u .ed with ed := Function.update s.ed u Ed.zero } := by
  rw [Ohci.allocEd] at h
  split at h
  · cases h
  · rename_i u' pool halloc
    cases h
    exact ⟨(MemPool.allocOhci_some halloc).1, rfl⟩

/-- Endpoints and TDs are as they were. -/
theorem allocEd_kept (h : s.allocEd = (some u, s')) : s'.hwPipe = s.hwPipe ∧ s'.td = s.td := by
  obtain ⟨-, rfl⟩ := allocEd_some h
  exact ⟨rfl, rfl⟩

theorem allocEd_none (h : s.allocEd = (none, s')) : s' = s ∧ ∀ u, s.pool.unitUsed u = true := by
  rw [Ohci.allocEd] at h
  split at h
  · rename_i pool halloc
    cases h
    exact ⟨rfl, MemPool.allocOhci_none halloc⟩
  · cases h

theorem freeTds_eq (s : Ohci) (tds : List Unit64) : s.freeTds tds =
    { s with pool := tds.foldl MemPool.give s.pool, use := fun u => if u ∈ tds then none else s.use u } := by
  rw [Ohci.freeTds]
  induction tds generalizing s with
  | nil => rfl
  | cons t tds ih =>
    rw [List.foldl_cons, ih]
    have huse : (fun u => if u ∈ tds then none else (s.free t).use u) =
        fun u => if u ∈ t :: tds then none else s.use u := by
      funext u
      rw [Ohci.free]
      by_cases hu : u ∈ tds
      · simp [hu]
      · by_cases hut : u = t <;> simp [hu, hut]
    rw [huse]
    rfl

end

/-! ## TDs taken from the pool -/

/-- The number of units that are free. -/
def MemPool.room (p : MemPool) : Nat := (Finset.univ.filter fun u => p.unitUsed u = false).card

theorem MemPool.room_take {p : MemPool} {u : Unit64} (hu : p.unitUsed u = false) :
    p.room = (p.take u).room + 1 := by
  have hfree : (Finset.univ.filter fun w => (p.take u).unitUsed w = false) =
      (Finset.univ.filter fun w => p.unitUsed w = false).erase u := by
    ext w
    by_cases hw : w = u <;> simp [hw]
  rw [room, room, hfree, Finset.card_erase_of_mem (by simpa using hu)]
  have hpos : 0 < (Finset.univ.filter fun w => p.unitUsed w = false).card :=
    Finset.card_pos.2 ⟨u, by simpa using hu⟩
  omega

theorem MemPool.room_eq_zero {p : MemPool} : p.room = 0 ↔ ∀ u, p.unitUsed u = true := by
  rw [room, Finset.card_eq_zero, Finset.filter_eq_empty_iff]
  simp

/-- The units that are counted and those that are free. They stay as many as they are where a unit is
taken that was free, or given back that was taken. -/
def MemPool.total (p : MemPool) : Int := p.memPoolUsed + p.room

theorem MemPool.total_take {p : MemPool} {u : Unit64} (hu : p.unitUsed u = false) :
    (p.take u).total = p.total := by
  have hroom := room_take hu
  have hused : (p.take u).memPoolUsed = p.memPoolUsed + 1 := rfl
  rw [total, total, hused]
  omega

/-- The driver took the TDs, and nothing else, from `s` on. -/
structure TookTds (s s' : Ohci) (tds : List Unit64) : Prop where
  nodup : tds.Nodup
  free : ∀ t ∈ tds, s.pool.unitUsed t = false
  pool : s'.pool = tds.foldl MemPool.take s.pool
  use : s'.use = fun u => if u ∈ tds then some .td else s.use u
  td : ∀ t, t ∉ tds → s'.td t = s.td t
  rest : s' = { s with pool := s'.pool, use := s'.use, td := s'.td }

/-- Nothing that the driver holds has changed. Units that are free may have other contents. -/
structure RolledBack (s s' : Ohci) : Prop where
  unitUsed : s'.pool.unitUsed = s.pool.unitUsed
  memPoolUsed : s'.pool.memPoolUsed = s.pool.memPoolUsed
  use : s'.use = s.use
  ed : ∀ u, s.use u = some .ed → s'.ed u = s.ed u
  td : ∀ t, s.use t = some .td → s'.td t = s.td t
  rest : s' = { s with pool := s'.pool, ed := s'.ed, td := s'.td }

section

variable {s s' s₀ s₁ : Ohci} {v : Nat} {ed t : Unit64} {tds : List Unit64} {utr : Option Nat}

theorem RolledBack.refl (s : Ohci) : RolledBack s s :=
  ⟨rfl, rfl, rfl, fun _ _ => rfl, fun _ _ => rfl, rfl⟩

theorem RolledBack.sameLists (h : RolledBack s s') (hs : s.UseFits) : SameLists s s' where
  used u := by
    rw [h.unitUsed, h.use]
    exact hs u
  useEd u := by rw [h.use]
  useTd t ht := by rwa [h.use]
  ed := h.ed
  td := h.td
  ied := by rw [h.rest]
  controlHead := by rw [h.rest]
  bulkHead := by rw [h.rest]
  hwPipe := by rw [h.rest]
  edRemoveList := by rw [h.rest]
  doneQueue := by rw [h.rest]

theorem TookTds.nil (s : Ohci) : TookTds s s [] where
  nodup := .nil
  free := by rintro _ ⟨⟩
  pool := rfl
  use := by simp
  td _ _ := rfl
  rest := rfl

theorem TookTds.not_mem (h : TookTds s s₀ tds) (hfree : s₀.pool.unitUsed t = false) :
    t ∉ tds ∧ s.pool.unitUsed t = false := by
  rw [h.pool, MemPool.takes_unitUsed, Bool.or_eq_false_iff] at hfree
  exact ⟨of_decide_eq_false hfree.2, hfree.1⟩

/-- One more TD, whatever is written into those taken. -/
theorem TookTds.snoc (h : TookTds s s₀ tds) (halloc : s₀.allocTd utr = (some t, s₁))
    (hrest : s' = { s₁ with td := s'.td }) (htd : ∀ x, x ∉ tds ++ [t] → s'.td x = s₁.td x) :
    TookTds s s' (tds ++ [t]) := by
  obtain ⟨hfree, rfl⟩ := allocTd_some halloc
  obtain ⟨ht, hfree⟩ := h.not_mem hfree
  refine ⟨?_, ?_, ?_, ?_, ?_, ?_⟩
  · rw [List.nodup_append]
    refine ⟨h.nodup, List.nodup_singleton t, fun a ha b hb hab => ?_⟩
    rw [List.mem_singleton.1 hb] at hab
    exact ht (hab ▸ ha)
  · intro x hx
    rcases List.mem_append.1 hx with hx | hx
    · exact h.free x hx
    · rw [List.mem_singleton.1 hx]
      exact hfree
  · rw [hrest, List.foldl_append, ← h.pool]
    rfl
  · rw [hrest]
    change Function.update s₀.use t (some .td) = _
    rw [h.use]
    funext u
    rw [Function.update_apply]
    by_cases hut : u = t <;> simp [hut]
  · intro x hx
    have hxt : x ≠ t := fun heq => hx (by simp [heq])
    rw [htd x hx]
    change Function.update s₀.td t (Td.zero utr) x = _
    rw [Function.update_of_ne hxt]
    exact h.td x fun hmem => hx (List.mem_append_left _ hmem)
  · rw [hrest, h.rest]
    rfl

theorem TookTds.room (h : TookTds s s' tds) : s.pool.room = s'.pool.room + tds.length := by
  obtain ⟨hnd, hfree, hpool, -, -, -⟩ := h
  rw [hpool]
  clear hpool
  generalize s.pool = p at *
  induction tds generalizing p with
  | nil => rfl
  | cons t tds ih =>
    have hnd := List.nodup_cons.1 hnd
    rw [List.foldl_cons, MemPool.room_take (hfree t (.head _)), List.length_cons]
    have hrest : ∀ x ∈ tds, (p.take t).unitUsed x = false := by
      intro x hx
      rw [MemPool.take_unitUsed, if_neg]
      · exact hfree x (.tail _ hx)
      · rintro rfl
        exact hnd.1 hx
    rw [ih hnd.2 (p.take t) hrest]
    omega

theorem TookTds.total (h : TookTds s s' tds) : s'.pool.total = s.pool.total := by
  have hroom := h.room
  rw [MemPool.total, MemPool.total, h.pool, MemPool.takes_memPoolUsed, ← h.pool]
  omega

theorem TookTds.fits (h : TookTds s s' tds) (hs : s.UseFits) : s'.UseFits := by
  intro u
  rw [h.pool, MemPool.takes_unitUsed, h.use, hs u]
  by_cases hu : u ∈ tds <;> simp [hu]

/-- TDs that are given back, in any order, leave the driver as it was. -/
theorem TookTds.freeTds (h : TookTds s s' tds) (hs : s.UseFits) {us : List Unit64}
    (hus : us.Perm tds) : RolledBack s (s'.freeTds us) where
  unitUsed := by
    rw [freeTds_eq, h.pool]
    funext u
    rw [MemPool.gives_unitUsed, MemPool.takes_unitUsed]
    by_cases hu : u ∈ tds
    · simp [hus.mem_iff, hu, h.free u hu]
    · simp [hus.mem_iff, hu]
  memPoolUsed := by
    rw [freeTds_eq, h.pool, MemPool.gives_memPoolUsed, MemPool.takes_memPoolUsed, hus.length_eq,
      Int.add_sub_cancel]
  use := by
    rw [freeTds_eq, h.use]
    funext u
    by_cases hu : u ∈ tds
    · simp [hus.mem_iff, hu, hs.use_none (h.free u hu)]
    · simp [hus.mem_iff, hu]
  ed u _ := by
    rw [freeTds_eq, h.rest]
  td t ht := by
    rw [freeTds_eq]
    refine h.td t fun hmem => ?_
    rw [hs.use_none (h.free t hmem)] at ht
    cases ht
  rest := by
    have huse : (fun u => if u ∈ us then none else s'.use u) = s.use := by
      rw [h.use]
      funext u
      by_cases hu : u ∈ tds
      · simp [hus.mem_iff, hu, hs.use_none (h.free u hu)]
      · simp [hus.mem_iff, hu]
    rw [freeTds_eq, huse, h.rest]

/-- The TDs taken from `s` on, linked one behind another for a UTR and an ED. -/
structure FreshTds (s s' : Ohci) (v : Nat) (ed : Unit64) (tds : List Unit64) : Prop
    extends TookTds s s' tds where
  chain : Chain s'.nextTD tds.head? tds
  utr : ∀ t ∈ tds, (s'.td t).utr = some v ∧ (s'.td t).ed = some ed

theorem FreshTds.nil (s : Ohci) (v : Nat) (ed : Unit64) : FreshTds s s v ed [] :=
  ⟨.nil s, rfl, by rintro _ ⟨⟩⟩

theorem FreshTds.snoc (h : FreshTds s s₀ v ed tds) {write : Td → Td}
    (hwrite : ∀ td, (write td).nextTD = td.nextTD ∧ (write td).utr = td.utr)
    (halloc : s₀.allocTd (some v) = (some t, s₁)) :
    FreshTds s (match tds.getLast? with
      | none => s₁.setTd t fun td => { write td with ed := some ed }
      | some last => (s₁.setTd t fun td => { write td with ed := some ed }).setTd last
          fun td => { td with nextTD := some t }) v ed (tds ++ [t]) := by
  have halloc' := halloc
  obtain ⟨hfree, rfl⟩ := allocTd_some halloc
  have ht := (h.not_mem hfree).1
  have htd : ∀ (s₂ : Ohci), (∀ x ∈ tds, some x ≠ tds.getLast? → s₂.td x = s₀.td x) →
      (∀ l ∈ tds.getLast?, s₂.td l = { s₀.td l with nextTD := some t }) →
      s₂.td t = { write (Td.zero (some v)) with ed := some ed } →
      (∀ x, x ∉ tds ++ [t] → s₂.td x = s₀.td x) →
      s₂ = { s₀.take t .td with td := s₂.td } →
      FreshTds s s₂ v ed (tds ++ [t]) := by
    intro s₂ hsame hlast hnew hrest heq
    have hnextNew : s₂.nextTD t = none := by
      rw [Ohci.nextTD, hnew]
      exact (hwrite _).1
    refine ⟨h.toTookTds.snoc halloc' heq ?_, ?_, ?_⟩
    · intro x hx
      have hxt : x ≠ t := fun heq => hx (by simp [heq])
      rw [hrest x hx]
      exact (Function.update_of_ne hxt ..).symm
    · refine Chain.snoc h.chain ?_ ?_ hnextNew
      · intro x hx hne
        rw [Ohci.nextTD, hsame x hx hne]
        rfl
      · intro l hl
        rw [Ohci.nextTD, hlast l hl]
    · intro x hx
      rcases List.mem_append.1 hx with hx | hx
      · by_cases hl : some x = tds.getLast?
        · rw [hlast x hl.symm]
          exact h.utr x hx
        · rw [hsame x hx hl]
          exact h.utr x hx
      · rw [List.mem_singleton.1 hx, hnew]
        exact ⟨(hwrite _).2, rfl⟩
  have hset : ∀ x, x ≠ t → (Function.update (Function.update s₀.td t (Td.zero (some v))) t
      { write (Td.zero (some v)) with ed := some ed }) x = s₀.td x := by
    intro x hx
    rw [Function.update_of_ne hx, Function.update_of_ne hx]
  cases hl : tds.getLast? with
  | none =>
    have hnil : tds = [] := List.getLast?_eq_none_iff.1 hl
    subst hnil
    refine htd _ (by rintro _ ⟨⟩) (by rintro _ ⟨⟩) ?_ ?_ ?_
    · simp [Ohci.setTd]
    · intro x hx
      have hxt : x ≠ t := fun heq => hx (by simp [heq])
      simp only [Ohci.setTd, Function.update_self]
      exact hset x hxt
    · rfl
  | some last =>
    have hmem : last ∈ tds := List.mem_of_getLast? hl
    have hlt : last ≠ t := fun heq => ht (heq ▸ hmem)
    refine htd _ ?_ ?_ ?_ ?_ ?_
    · intro x hx hne
      have hxl : x ≠ last := fun heq => hne (by rw [heq, hl])
      have hxt : x ≠ t := fun heq => ht (heq ▸ hx)
      simp only [Ohci.setTd, Function.update_self]
      rw [Function.update_of_ne hxl]
      exact hset x hxt
    · intro l hl'
      rw [hl] at hl'
      cases hl'
      simp only [Ohci.setTd, Function.update_self]
      rw [hset last hlt]
    · simp only [Ohci.setTd, Function.update_self]
      rw [Function.update_of_ne (Ne.symm hlt), Function.update_self]
    · intro x hx
      have hxl : x ≠ last := fun heq => hx (by simp [heq, hmem])
      have hxt : x ≠ t := fun heq => hx (by simp [heq])
      simp only [Ohci.setTd, Function.update_self]
      rw [Function.update_of_ne hxl]
      exact hset x hxt
    · rfl

/-- The loop takes all TDs exactly when the pool has room for them. -/
theorem chainTds_spec {writes : List (Td → Td)}
    (hwrites : ∀ write ∈ writes, ∀ td, (write td).nextTD = td.nextTD ∧ (write td).utr = td.utr)
    (h : FreshTds s s₀ v ed tds) {tds' : List Unit64} {all : Bool}
    (hrun : chainTds v ed writes tds s₀ = (tds', all, s')) :
    FreshTds s s' v ed tds' ∧ (all = true → tds'.length = tds.length + writes.length) ∧
      (all = true ↔ writes.length ≤ s₀.pool.room) := by
  induction writes generalizing tds s₀ with
  | nil =>
    cases hrun
    exact ⟨h, fun _ => rfl, iff_of_true rfl (Nat.zero_le _)⟩
  | cons write writes ih =>
    rw [chainTds] at hrun
    split at hrun
    · rename_i s₁ halloc
      cases hrun
      obtain ⟨rfl, hfull⟩ := allocTd_none halloc
      refine ⟨h, by rintro ⟨⟩, iff_of_false (by rintro ⟨⟩) ?_⟩
      rw [MemPool.room_eq_zero.2 hfull, List.length_cons]
      omega
    · rename_i t s₁ halloc
      have hnext := h.snoc (hwrites write (.head _)) halloc
      have hrun' : chainTds v ed writes (tds ++ [t]) (match tds.getLast? with
          | none => s₁.setTd t fun td => { write td with ed := some ed }
          | some last => (s₁.setTd t fun td => { write td with ed := some ed }).setTd last
              fun td => { td with nextTD := some t }) = (tds', all, s') := by
        refine Eq.trans ?_ hrun
        cases tds.getLast? <;> rfl
      obtain ⟨hfresh, hlen, hroom⟩ := ih (fun w hw => hwrites w (.tail _ hw)) hnext hrun'
      refine ⟨hfresh, fun hall => ?_, hroom.trans ?_⟩
      · rw [hlen hall, List.length_append, List.length_cons, List.length_cons, List.length_nil]
        omega
      · have hleft := h.room
        have hright := hnext.room
        rw [List.length_append, List.length_singleton] at hright
        rw [List.length_cons]
        omega

end

/-! ## An ED in the lists -/

/-- The ED `u` has a role and the TDs given; those it had have no place any more. -/
structure Puts (g g' : OhciLists) (u : Unit64) (r : EdRole) (ts : List Unit64) : Prop where
  edRole : g'.edRole = Function.update g.edRole u (some r)
  tds : g'.tds = Function.update g.tds u ts
  tdRole : ∀ t, g'.tdRole t = if t ∈ ts then some (.linked u)
    else if g.tdRole t = some (.linked u) then none else g.tdRole t

/-- The lists with an ED put into them. -/
def OhciLists.put (g : OhciLists) (u : Unit64) (r : EdRole) (ts : List Unit64) : OhciLists :=
  { g with
    edRole := Function.update g.edRole u (some r)
    tds := Function.update g.tds u ts
    tdRole := fun t => if t ∈ ts then some (.linked u)
      else if g.tdRole t = some (.linked u) then none else g.tdRole t }

section

variable {s s' : Ohci} {g g' : OhciLists} {u w t : Unit64} {r : EdRole} {ts : List Unit64}

theorem Puts.edRole_self (h : Puts g g' u r ts) : g'.edRole u = some r := by
  rw [h.edRole, Function.update_self]

theorem Puts.edRole_of_ne (h : Puts g g' u r ts) (hw : w ≠ u) : g'.edRole w = g.edRole w := by
  rw [h.edRole, Function.update_of_ne hw]

theorem Puts.tds_self (h : Puts g g' u r ts) : g'.tds u = ts := by
  rw [h.tds, Function.update_self]

theorem Puts.tds_of_ne (h : Puts g g' u r ts) (hw : w ≠ u) : g'.tds w = g.tds w := by
  rw [h.tds, Function.update_of_ne hw]

/-- The TDs of the ED are those given. -/
theorem Puts.tdRole_self (h : Puts g g' u r ts) : g'.tdRole t = some (.linked u) ↔ t ∈ ts := by
  rw [h.tdRole]
  by_cases ht : t ∈ ts
  · simp [ht]
  · by_cases hold : g.tdRole t = some (.linked u) <;> simp [ht, hold]

/-- The TDs of other EDs and the retired ones keep their place. -/
theorem Puts.tdRole_other (h : Puts g g' u r ts)
    (hfresh : ∀ t ∈ ts, g.tdRole t = none ∨ g.tdRole t = some (.linked u)) {r' : TdRole}
    (hr : r' ≠ .linked u) : g'.tdRole t = some r' ↔ g.tdRole t = some r' := by
  have hr' : TdRole.linked u ≠ r' := Ne.symm hr
  rw [h.tdRole]
  by_cases ht : t ∈ ts
  · rw [if_pos ht]
    rcases hfresh t ht with hnone | hu
    · simp [hnone, hr']
    · simp [hu]
  · rw [if_neg ht]
    by_cases hold : g.tdRole t = some (.linked u)
    · simp [hold, hr']
    · rw [if_neg hold]

/-- The ED has new TDs, and the others' are as they were. -/
theorem TdsOk.put (h : TdsOk s g) (hp : Puts g g' u r ts)
    (hfresh : ∀ t ∈ ts, g.tdRole t = none ∨ g.tdRole t = some (.linked u))
    (hchain : Chain s'.nextTD (s'.ed u).headP ts) (htail : TailFits (s'.ed u).tailP ts r)
    (htd : ∀ t r', g.tdRole t = some r' → r' ≠ .linked u → s'.nextTD t = s.nextTD t)
    (hed : ∀ w r', g.edRole w = some r' → w ≠ u →
      (s'.ed w).headP = (s.ed w).headP ∧ (s'.ed w).tailP = (s.ed w).tailP)
    (hdone : s'.doneQueue = s.doneQueue) : TdsOk s' g' where
  chain w r' hw := by
    by_cases hwu : w = u
    · rw [hwu, hp.tds_self]
      exact hchain
    · rw [hp.edRole_of_ne hwu] at hw
      rw [hp.tds_of_ne hwu, (hed w r' hw hwu).1]
      refine (h.chain w r' hw).congr fun t ht => ?_
      refine htd t _ ((h.mem w r' hw t).1 ht) ?_
      rintro ⟨⟩
      exact hwu rfl
  mem w r' hw t := by
    by_cases hwu : w = u
    · rw [hwu, hp.tds_self, hp.tdRole_self]
    · rw [hp.edRole_of_ne hwu] at hw
      rw [hp.tds_of_ne hwu, h.mem w r' hw t, hp.tdRole_other hfresh]
      rintro ⟨⟩
      exact hwu rfl
  tail w r' hw := by
    by_cases hwu : w = u
    · rw [hwu, hp.edRole_self] at hw
      cases hw
      rw [hwu, hp.tds_self]
      exact htail
    · rw [hp.edRole_of_ne hwu] at hw
      rw [hp.tds_of_ne hwu, (hed w r' hw hwu).2]
      exact h.tail w r' hw
  retired t := by
    have hne : TdRole.retired ≠ .linked u := by rintro ⟨⟩
    rw [hdone, h.retired, hp.tdRole_other hfresh hne]
  nodup := by
    rw [hdone]
    exact h.nodup
  owner t w ht := by
    by_cases hwu : w = u
    · rw [hwu, hp.edRole_self]
      rfl
    · rw [hp.edRole_of_ne hwu]
      refine h.owner t w ((hp.tdRole_other hfresh ?_).1 ht)
      rintro ⟨⟩
      exact hwu rfl

theorem UsedOk.put (h : UsedOk s g) (hp : Puts g g' u r ts) (hused : s'.UseFits)
    (hu : s'.use u = some .ed) (hts : ∀ t ∈ ts, s'.use t = some .td)
    (hed : ∀ w, w ≠ u → (s'.use w = some .ed ↔ s.use w = some .ed))
    (htd : ∀ t, s.use t = some .td → s'.use t = some .td) : UsedOk s' g' where
  used := hused
  ed w := by
    by_cases hwu : w = u
    · rw [hwu, hu, hp.edRole_self]
      exact iff_of_true rfl rfl
    · rw [hed w hwu, hp.edRole_of_ne hwu]
      exact h.ed w
  td t ht := by
    rw [hp.tdRole] at ht
    by_cases hmem : t ∈ ts
    · exact hts t hmem
    · rw [if_neg hmem] at ht
      split at ht
      · cases ht
      · exact htd t (h.td t ht)

theorem PipesOk.put (h : PipesOk s g) (hp : Puts g g' u r ts) (hremove : u ∉ s.edRemoveList)
    (hinfo : InfoFits (s'.ed u) r)
    (hed : ∀ w r', g.edRole w = some r' → w ≠ u →
      (s'.ed w).info = (s.ed w).info ∧ (s'.ed w).bInterval = (s.ed w).bInterval)
    (hlist : s'.edRemoveList = s.edRemoveList)
    {e : EpRef} (hpipe : s'.hwPipe = Function.update s.hwPipe e (some u) ∧ r.Serves e ∨
      s'.hwPipe = s.hwPipe ∧ ∀ e, s.hwPipe e ≠ some u)
    (hother : ∀ e', s.hwPipe e' = some u → e' = e) : PipesOk s' g' where
  pipe e' w hw := by
    rw [hlist]
    have hold : w ≠ u → s.hwPipe e' = some w →
        w ∉ s.edRemoveList ∧ ∃ r', g'.edRole w = some r' ∧ r'.Serves e' := by
      intro hwu hw
      rw [hp.edRole_of_ne hwu]
      exact h.pipe e' w hw
    rcases hpipe with ⟨hpipe, hserves⟩ | ⟨hpipe, hnone⟩
    · rw [hpipe, Function.update_apply] at hw
      split at hw
      · cases hw
        subst ‹e' = e›
        exact ⟨hremove, r, hp.edRole_self, hserves⟩
      · refine hold ?_ hw
        rintro rfl
        exact absurd (hother e' hw) ‹_›
    · rw [hpipe] at hw
      refine hold ?_ hw
      rintro rfl
      exact hnone e' hw
  inj e₁ e₂ w h₁ h₂ := by
    rcases hpipe with ⟨hpipe, -⟩ | ⟨hpipe, -⟩
    · rw [hpipe, Function.update_apply] at h₁ h₂
      split at h₁
      · cases h₁
        split at h₂
        · exact ‹e₁ = e›.trans ‹e₂ = e›.symm
        · exact absurd (hother e₂ h₂) ‹_›
      · split at h₂
        · cases h₂
          exact absurd (hother e₁ h₁) ‹_›
        · exact h.inj e₁ e₂ w h₁ h₂
    · rw [hpipe] at h₁ h₂
      exact h.inj e₁ e₂ w h₁ h₂
  nodup := by
    rw [hlist]
    exact h.nodup
  remove w hw := by
    rw [hlist] at hw
    have hwu : w ≠ u := fun heq => hremove (heq ▸ hw)
    obtain ⟨hskip, r', hr, hne⟩ := h.remove w hw
    rw [hp.edRole_of_ne hwu, (hed w r' hr hwu).1]
    exact ⟨hskip, r', hr, hne⟩
  info w r' hw := by
    by_cases hwu : w = u
    · rw [hwu, hp.edRole_self] at hw
      cases hw
      rw [hwu]
      exact hinfo
    · rw [hp.edRole_of_ne hwu] at hw
      have hfits := h.info w r' hw
      obtain ⟨hsame, hinterval⟩ := hed w r' hw hwu
      cases r' with
      | head k => exact hsame.trans hfits
      | control =>
        rw [InfoFits, hsame]
        exact hfits
      | bulk =>
        rw [InfoFits, hsame, hinterval]
        exact hfits
      | int k =>
        rw [InfoFits, hsame, hinterval]
        exact hfits
      | iso k =>
        rw [InfoFits, hsame, hinterval]
        exact hfits

/-! ## Places in the lists -/

/-- A role that an ED neither has nor gets is that of the same EDs. -/
theorem update_role_iff {f : Unit64 → Option EdRole} {o : Option EdRole} {r : EdRole} {w : Unit64}
    (hu : f u ≠ some r) (ho : o ≠ some r) : Function.update f u o w = some r ↔ f w = some r := by
  by_cases hwu : w = u
  · subst hwu
    rw [Function.update_self]
    exact iff_of_false ho hu
  · rw [Function.update_of_ne hwu]

/-- An ED that has its role already. -/
theorem EdsOk.same (h : EdsOk s g) (hrole : g'.edRole = g.edRole) (hg : g'.control = g.control ∧
      g'.bulk = g.bulk ∧ g'.int = g.int)
    (hnext : ∀ w r', g.edRole w = some r' → s'.nextED w = s.nextED w) (hied : s'.ied = s.ied)
    (hcontrol : s'.controlHead = s.controlHead) (hbulk : s'.bulkHead = s.bulkHead) : EdsOk s' g' := by
  have h' := h.congr hnext hied hcontrol hbulk
  obtain ⟨hgc, hgb, hgi⟩ := hg
  refine ⟨?_, ?_, ?_, ?_, ?_, ?_, ?_, ?_⟩
  · rw [hrole]
    exact h'.head
  · rw [hrole]
    exact h'.head_eq
  · rw [hgc]
    exact h'.control
  · rw [hgb]
    exact h'.bulk
  · rw [hgi]
    exact h'.int
  · rw [hgc, hrole]
    exact h'.mem_control
  · rw [hgb, hrole]
    exact h'.mem_bulk
  · rw [hgi, hrole]
    exact h'.mem_int

/-- A new ED at the head of the bulk list. -/
theorem EdsOk.pushBulk (h : EdsOk s g) (hu : g.edRole u = none)
    (hrole : g'.edRole = Function.update g.edRole u (some .bulk))
    (hg : g'.control = g.control ∧ g'.bulk = u :: g.bulk ∧ g'.int = g.int)
    (hnext : ∀ w r', g.edRole w = some r' → s'.nextED w = s.nextED w)
    (hnew : s'.nextED u = s.bulkHead) (hied : s'.ied = s.ied)
    (hcontrol : s'.controlHead = s.controlHead) (hbulk : s'.bulkHead = some u) : EdsOk s' g' := by
  have hu' : ∀ r, g.edRole u ≠ some r := by
    intro r hr
    rw [hu] at hr
    cases hr
  obtain ⟨hgc, hgb, hgi⟩ := hg
  have hother : ∀ w r, r ≠ .bulk → (g'.edRole w = some r ↔ g.edRole w = some r) := by
    intro w r hne
    rw [hrole]
    exact update_role_iff (hu' r) fun heq => hne (Option.some.inj heq).symm
  refine ⟨fun k => ?_, fun k w hw => ?_, ?_, ?_, fun k => ?_, fun w hw => ?_, fun w => ?_, fun k w => ?_⟩
  · rw [hied]
    exact (hother _ (.head k) (by rintro ⟨⟩)).2 (h.head k)
  · rw [hied]
    exact h.head_eq k w ((hother w (.head k) (by rintro ⟨⟩)).1 hw)
  · rw [hcontrol, hgc]
    exact h.control.congr fun w hw => hnext w _ (h.mem_control w hw)
  · rw [hgb]
    refine ⟨hbulk, ?_⟩
    rw [hnew]
    exact h.bulk.congr fun w hw => hnext w _ ((h.mem_bulk w).1 hw)
  · rw [hied, hnext _ _ (h.head k), hgi]
    exact (h.int k).congr fun w hw => hnext w _ ((h.mem_int k w).1 hw).choose_spec.1
  · rw [hgc] at hw
    exact (hother w .control (by rintro ⟨⟩)).2 (h.mem_control w hw)
  · rw [hgb, List.mem_cons, h.mem_bulk]
    by_cases hwu : w = u
    · subst hwu
      refine iff_of_true (.inl rfl) ?_
      rw [hrole, Function.update_self]
    · rw [hrole, Function.update_of_ne hwu]
      exact or_iff_right hwu
  · rw [hgi, h.mem_int]
    exact exists_congr fun r => and_congr_left fun hper => (hother w r hper.plain.2.2).symm

/-- A new ED behind the head of an interval. -/
theorem EdsOk.pushPeriodic (h : EdsOk s g) (hu : g.edRole u = none) {k : Fin 6}
    (hr : r.Periodic k) (hrole : g'.edRole = Function.update g.edRole u (some r))
    (hg : g'.control = g.control ∧ g'.bulk = g.bulk ∧
      g'.int = Function.update g.int k (u :: g.int k))
    (hnext : ∀ w r', g.edRole w = some r' → w ≠ s.ied k → s'.nextED w = s.nextED w)
    (hnew : s'.nextED u = s.nextED (s.ied k)) (hhead : s'.nextED (s.ied k) = some u)
    (hied : s'.ied = s.ied) (hcontrol : s'.controlHead = s.controlHead)
    (hbulk : s'.bulkHead = s.bulkHead) : EdsOk s' g' := by
  have hu' : ∀ r, g.edRole u ≠ some r := by
    intro r hr
    rw [hu] at hr
    cases hr
  obtain ⟨hgc, hgb, hgi⟩ := hg
  have hother : ∀ w r', r' ≠ r → (g'.edRole w = some r' ↔ g.edRole w = some r') := by
    intro w r' hne
    rw [hrole]
    exact update_role_iff (hu' r') fun heq => hne (Option.some.inj heq).symm
  have hnotHead : ∀ {w r}, g.edRole w = some r → (∀ j, r ≠ .head j) → w ≠ s.ied k := by
    rintro w r hw hne rfl
    rw [h.head k] at hw
    cases hw
    exact hne k rfl
  have hperiodic : ∀ j, Links s'.nextED (s.nextED (s.ied j)) (g.int j) (belowHead s.ied j) := by
    intro j
    refine (h.int j).congr fun w hw => ?_
    obtain ⟨r', hr', hper⟩ := (h.mem_int j w).1 hw
    exact hnext w _ hr' (hnotHead hr' hper.plain.1)
  refine ⟨fun j => ?_, fun j w hw => ?_, ?_, ?_, fun j => ?_, fun w hw => ?_, fun w => ?_, fun j w => ?_⟩
  · rw [hied]
    exact (hother _ _ (Ne.symm (hr.plain.1 j))).2 (h.head j)
  · rw [hied]
    exact h.head_eq j w ((hother w _ (Ne.symm (hr.plain.1 j))).1 hw)
  · rw [hcontrol, hgc]
    refine h.control.congr fun w hw => ?_
    exact hnext w _ (h.mem_control w hw) (hnotHead (h.mem_control w hw) (by rintro _ ⟨⟩))
  · rw [hbulk, hgb]
    refine h.bulk.congr fun w hw => ?_
    have hw := (h.mem_bulk w).1 hw
    exact hnext w _ hw (hnotHead hw (by rintro _ ⟨⟩))
  · rw [hied, hgi]
    by_cases hjk : j = k
    · subst hjk
      rw [Function.update_self]
      refine ⟨hhead, ?_⟩
      rw [hnew]
      exact hperiodic j
    · have hne : s.ied j ≠ s.ied k := by
        intro heq
        have hhead := h.head j
        rw [heq, h.head k] at hhead
        cases hhead
        exact hjk rfl
      rw [Function.update_of_ne hjk, hnext _ _ (h.head j) hne]
      exact hperiodic j
  · rw [hgc] at hw
    exact (hother w _ (Ne.symm hr.plain.2.1)).2 (h.mem_control w hw)
  · rw [hgb, h.mem_bulk]
    exact (hother w _ (Ne.symm hr.plain.2.2)).symm
  · rw [hgi]
    by_cases hwu : w = u
    · subst hwu
      rw [hrole, Function.update_self]
      by_cases hjk : j = k
      · subst hjk
        rw [Function.update_self]
        exact iff_of_true (.head _) ⟨r, rfl, hr⟩
      · rw [Function.update_of_ne hjk, h.mem_int, hu]
        refine iff_of_false (by rintro ⟨_, ⟨⟩, -⟩) ?_
        rintro ⟨r', ⟨⟩, hr'⟩
        exact hjk (hr.unique hr')
    · rw [hrole, Function.update_of_ne hwu, ← h.mem_int]
      by_cases hjk : j = k
      · subst hjk
        rw [Function.update_self, List.mem_cons]
        exact or_iff_right hwu
      · rw [Function.update_of_ne hjk]

/-- An ED becomes the control list. -/
theorem EdsOk.setControl (h : EdsOk s g)
    (hu : g.edRole u = none ∨ g.edRole u = some .control)
    (hrole : g'.edRole = Function.update g.edRole u (some .control))
    (hg : g'.control = [u] ∧ g'.bulk = g.bulk ∧ g'.int = g.int)
    (hnext : ∀ w r', g.edRole w = some r' → w ≠ u → s'.nextED w = s.nextED w)
    (hnew : s'.nextED u = none) (hied : s'.ied = s.ied)
    (hcontrol : s'.controlHead = some u) (hbulk : s'.bulkHead = s.bulkHead) : EdsOk s' g' := by
  have hu' : ∀ {r}, g.edRole u = some r → r = .control := by
    intro r hr
    rcases hu with hu | hu
    · rw [hu] at hr
      cases hr
    · rw [hu] at hr
      exact (Option.some.inj hr).symm
  obtain ⟨hgc, hgb, hgi⟩ := hg
  have hother : ∀ w r, r ≠ .control → (g'.edRole w = some r ↔ g.edRole w = some r) := by
    intro w r hne
    rw [hrole]
    exact update_role_iff (fun heq => hne (hu' heq)) fun heq => hne (Option.some.inj heq).symm
  have hne : ∀ {w r}, g.edRole w = some r → r ≠ .control → w ≠ u := by
    rintro w r hw hne rfl
    exact hne (hu' hw)
  refine ⟨fun k => ?_, fun k w hw => ?_, ?_, ?_, fun k => ?_, fun w hw => ?_, fun w => ?_, fun k w => ?_⟩
  · rw [hied]
    exact (hother _ (.head k) (by rintro ⟨⟩)).2 (h.head k)
  · rw [hied]
    exact h.head_eq k w ((hother w (.head k) (by rintro ⟨⟩)).1 hw)
  · rw [hgc]
    exact ⟨hcontrol, hnew⟩
  · rw [hbulk, hgb]
    refine h.bulk.congr fun w hw => ?_
    have hw := (h.mem_bulk w).1 hw
    exact hnext w _ hw (hne hw (by rintro ⟨⟩))
  · rw [hied, hnext _ _ (h.head k) (hne (h.head k) (by rintro ⟨⟩)), hgi]
    refine (h.int k).congr fun w hw => ?_
    obtain ⟨r, hr, hper⟩ := (h.mem_int k w).1 hw
    exact hnext w _ hr (hne hr hper.plain.2.1)
  · rw [hgc] at hw
    rw [List.mem_singleton.1 hw, hrole, Function.update_self]
  · rw [hgb, h.mem_bulk]
    exact (hother w .bulk (by rintro ⟨⟩)).symm
  · rw [hgi, h.mem_int]
    exact exists_congr fun r => and_congr_left fun hper => (hother w r hper.plain.2.1).symm

end

end NumakerMA35D1.UsbHost

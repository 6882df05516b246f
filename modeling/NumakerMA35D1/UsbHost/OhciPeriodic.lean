import NumakerMA35D1.UsbHost.OhciSubmit

/-!
# Interrupt and isochronous submissions

The ED of an interrupt endpoint ends in a dummy TD, which the next transfer fills; the TDs of an
isochronous transfer are put behind those that its ED has. A new ED is put behind the head of its
interval (`hookPeriodic_ed`). `ohciIntXfer_spec` and `ohciIsoXfer_spec` say what the submissions come
to.

Reference: `_ohci.c_`.
-/

namespace NumakerMA35D1.UsbHost

open Embedded

section

variable {E : Endpoints} {s s' s₁ s₂ c : Ohci} {g g' : OhciLists} {e : EpRef} {ed td tdNew : Unit64}
  {f : Ed → Ed} {r : EdRole} {ts tds new : List Unit64} {d d' : Ed} {isNew : Bool} {u : Utr} {v i : Nat}
  {k : Fin 6}

/-! ## The interrupt tree -/

/-- A new ED of a periodic endpoint. -/
def periodicEd (E : Endpoints) (i : Nat) (d : Ed) : Ed :=
  { d with info := epInfo E i, bInterval := (E i).2.bInterval }

theorem hookPeriodic_rest (E : Endpoints) (s : Ohci) (i : Nat) (ed : Unit64) (isNew : Bool) :
    hookPeriodic E s i ed isNew = { s with ed := (hookPeriodic E s i ed isNew).ed } := by
  cases isNew with
  | false => rfl
  | true => rfl

/-- Only links change. -/
theorem hookPeriodic_ed (w : Unit64) : (hookPeriodic E s i ed isNew).ed w =
    { s.ed w with nextED := (hookPeriodic E s i ed isNew).nextED w } := by
  cases isNew with
  | false => rfl
  | true =>
    simp only [hookPeriodic, Ohci.setEd, Ohci.nextED, if_true, Function.update_apply]
    by_cases hw : w = s.ied (getIntTreeHeadNode (E i).2.bInterval.toNat)
    · rw [if_pos hw]
      by_cases hed : s.ied (getIntTreeHeadNode (E i).2.bInterval.toNat) = ed
      · rw [if_pos hed, hw, hed]
      · rw [if_neg hed, hw]
    · rw [if_neg hw]
      by_cases hed : w = ed
      · rw [if_pos hed, hed]
      · rw [if_neg hed]

/-- The links of a new ED and of the head before it. -/
theorem hookPeriodic_next (hne : intHead E s i ≠ ed) :
    (hookPeriodic E s i ed true).nextED (intHead E s i) = some ed ∧
      (hookPeriodic E s i ed true).nextED ed = s.nextED (intHead E s i) ∧
      ∀ w, w ≠ intHead E s i → w ≠ ed → (hookPeriodic E s i ed true).nextED w = s.nextED w := by
  simp only [intHead] at hne ⊢
  simp only [hookPeriodic, Ohci.setEd, Ohci.nextED, if_true]
  refine ⟨?_, ?_, fun w hw hwed => ?_⟩
  · rw [Function.update_self]
  · rw [Function.update_of_ne (Ne.symm hne), Function.update_self]
  · rw [Function.update_of_ne hw, Function.update_of_ne hwed]

/-- The lists of EDs with the ED in its interval's list. -/
theorem OhciInv.hook (h : OhciInv s g) {s₃ : Ohci} (hed : ∀ w, w ≠ ed → s₃.ed w = s.ed w)
    (hrest : s₃.ied = s.ied ∧ s₃.controlHead = s.controlHead ∧ s₃.bulkHead = s.bulkHead)
    (hfound : isNew = false → g.edRole ed = some r ∧ (s₃.ed ed).nextED = (s.ed ed).nextED)
    (halloc : isNew = true → g.edRole ed = none) (hr : r.Periodic k)
    (hk : isNew = true → k = getIntTreeHeadNode (E i).2.bInterval.toNat)
    (hput : Puts g g' ed r ts) (hg : g'.control = g.control ∧ g'.bulk = g.bulk ∧
      g'.int = if isNew then Function.update g.int k (ed :: g.int k) else g.int) :
    EdsOk (hookPeriodic E s₃ i ed isNew) g' := by
  obtain ⟨hied, hcontrol, hbulk⟩ := hrest
  have heq := hookPeriodic_rest E s₃ i ed isNew
  have hied' : (hookPeriodic E s₃ i ed isNew).ied = s.ied := by rw [heq, hied]
  have hcontrol' : (hookPeriodic E s₃ i ed isNew).controlHead = s.controlHead := by rw [heq, hcontrol]
  have hbulk' : (hookPeriodic E s₃ i ed isNew).bulkHead = s.bulkHead := by rw [heq, hbulk]
  cases isNew with
  | false =>
    obtain ⟨hrole, hnext⟩ := hfound rfl
    have hsame : g'.edRole = g.edRole := by
      rw [hput.edRole, Function.update_eq_self_iff.2 hrole.symm]
    refine h.eds.same hsame hg (fun w r' _ => ?_) hied' hcontrol' hbulk'
    change (s₃.ed w).nextED = (s.ed w).nextED
    by_cases hw : w = ed
    · rw [hw, hnext]
    · rw [hed w hw]
  | true =>
    have hrole := halloc rfl
    have hhead : intHead E s₃ i = s.ied k := by rw [intHead, hied, hk rfl]
    have hne : s.ied k ≠ ed := by
      rintro rfl
      rw [h.eds.head k] at hrole
      cases hrole
    obtain ⟨hlast, hnew, hother⟩ := hookPeriodic_next (E := E) (s := s₃) (i := i) (by rwa [hhead])
    rw [hhead] at hlast hnew hother
    have hned : ∀ {w r'}, g.edRole w = some r' → w ≠ ed := by
      rintro w r' hw rfl
      rw [hrole] at hw
      cases hw
    refine h.eds.pushPeriodic hrole hr hput.edRole hg (fun w r' hw hwk => ?_) ?_ hlast hied' hcontrol'
      hbulk'
    · rw [hother w hwk (hned hw), Ohci.nextED, hed w (hned hw)]
      rfl
    · rw [hnew, Ohci.nextED, hed _ hne]
      rfl

/-- The ED `ed` with the contents `d'`, put into the list of its interval where it is new. -/
structure Hooked (s s₂ c b : Ohci) (ed : Unit64) (d' : Ed) : Prop where
  self : b.ed ed = { d' with nextED := b.nextED ed }
  other : ∀ w, w ≠ ed → b.ed w = { s.ed w with nextED := b.nextED w }
  pool : b.pool = s₂.pool
  use : b.use = s₂.use
  td : b.td = c.td
  hwPipe : b.hwPipe = c.hwPipe
  utr : b.utr = s.utr
  same : b.edRemoveList = s.edRemoveList ∧ b.sfEnable = s.sfEnable ∧ b.doneQueue = s.doneQueue

theorem Taken.hooked (ht : Taken s s₂ g ed r d isNew new)
    (hc : c = { s₂ with ed := Function.update s.ed ed d', hwPipe := c.hwPipe, td := c.td }) :
    Hooked s s₂ c (hookPeriodic E c i ed isNew) ed d' := by
  have hrest := hookPeriodic_rest E c i ed isNew
  obtain ⟨-, hutr, hsame⟩ := ht.rest
  have hced : c.ed = Function.update s.ed ed d' := by rw [hc]
  have hcrest : c.pool = s₂.pool ∧ c.use = s₂.use ∧ c.utr = s₂.utr ∧
      c.edRemoveList = s₂.edRemoveList ∧ c.sfEnable = s₂.sfEnable ∧ c.doneQueue = s₂.doneQueue := by
    rw [hc]
    exact ⟨rfl, rfl, rfl, rfl, rfl, rfl⟩
  obtain ⟨hpool, huse, hcutr, hremove, hsf, hdone⟩ := hcrest
  refine ⟨?_, fun w hw => ?_, ?_, ?_, ?_, ?_, ?_, ?_⟩
  · have hself := @hookPeriodic_ed E c ed isNew i ed
    rw [hced, Function.update_self] at hself
    exact hself
  · have hother := @hookPeriodic_ed E c ed isNew i w
    rw [hced, Function.update_of_ne hw] at hother
    exact hother
  · rw [hrest, ← hpool]
  · rw [hrest, ← huse]
  · rw [hrest]
  · rw [hrest]
  · rw [hrest, ← hutr, ← hcutr]
  · rw [hrest, ← hsame.1, ← hsame.2.1, ← hsame.2.2, ← hremove, ← hsf, ← hdone]
    exact ⟨rfl, rfl, rfl⟩

theorem Taken.hook_eds (h : OhciInv s g) (ht : Taken s s₂ g ed r d isNew new)
    (hc : c = { s₂ with ed := Function.update s.ed ed d', hwPipe := c.hwPipe, td := c.td })
    (hnext : d'.nextED = d.nextED) (hr : r.Periodic k)
    (hk : isNew = true → k = getIntTreeHeadNode (E i).2.bInterval.toNat) (hput : Puts g g' ed r ts)
    (hg : g'.control = g.control ∧ g'.bulk = g.bulk ∧
      g'.int = if isNew then Function.update g.int k (ed :: g.int k) else g.int) :
    EdsOk (hookPeriodic E c i ed isNew) g' := by
  have hced : c.ed = Function.update s.ed ed d' := by rw [hc]
  refine h.hook (fun w hw => ?_) ?_ (fun hfound => ?_) ht.alloc hr hk hput hg
  · rw [hced, Function.update_of_ne hw]
  · rw [hc]
    exact ht.rest.1
  · obtain ⟨hrole, hd⟩ := ht.found hfound
    refine ⟨hrole, ?_⟩
    rw [hced, Function.update_self, hnext, hd]

/-! ## Interrupt transfers -/

/-- The bytes of an interrupt TD are counted. -/
theorem intTdInfo_kind (ep : EpInfo) (old : BitVec 32) : tdKind (intTdInfo ep old) = .data := by
  have hold : (old &&& 1#32 <<< 25) &&& TD_TYPE_Msk = 0 := by
    rw [BitVec.and_assoc]
    exact BitVec.and_zero
  have htype : intTdInfo ep old &&& TD_TYPE_Msk = TD_TYPE_INT := by
    rw [intTdInfo, BitVec.and_or_distrib_right, hold]
    split <;> decide
  have hctrl : ¬ (TD_TYPE_INT = TD_TYPE_CTRL ∧ intTdInfo ep old &&& TD_CTRL_DATA = 0) := by
    rintro ⟨heq, -⟩
    exact absurd heq (by decide)
  rw [tdKind, htype, if_neg (by decide), if_neg hctrl]

/-- The dummy TD of an ED does not wait. -/
theorem Taken.not_pending (ht : Taken s s₂ g ed r d isNew new) (h : OhciInv s g)
    (htd : td ∈ new ∨ (s.ed ed).tailP = some td ∧ g.tdRole td = some (.linked ed)) {t : Unit64}
    (hpend : g.Pending s t) : t ≠ td := by
  rintro rfl
  rcases htd with hmem | ⟨htail, hrole⟩
  · have hnone := h.used.used.use_none (ht.newFree t hmem).2
    rcases hpend with hr | ⟨w, hr, -⟩
    · rw [h.use_td hr] at hnone
      cases hnone
    · rw [h.use_td hr] at hnone
      cases hnone
  · rcases hpend with hr | ⟨w, hr, hne⟩
    · rw [hrole] at hr
      cases hr
    · rw [hrole] at hr
      cases hr
      exact hne htail

/-- The last TD gets a link to a new one. -/
theorem chain_fill {next next' : Unit64 → Option Unit64} {head : Option Unit64}
    (hchain : Chain next head ts) (hlast : ts.getLast? = some td) (hnot : tdNew ∉ ts)
    (hnext : next tdNew = none) (hself : next' td = some tdNew)
    (hother : ∀ t, t ≠ td → next' t = next t) : Chain next' head (ts ++ [tdNew]) := by
  refine hchain.concat (fun hnil => ?_) (fun t hmem hne => ?_) (fun l hl => ?_) ⟨rfl, ?_⟩
  · rw [hnil] at hlast
    cases hlast
  · refine hother t ?_
    rintro rfl
    exact hne hlast.symm
  · rw [hlast] at hl
    cases hl
    exact hself
  · rw [hother tdNew]
    · exact hnext
    · rintro rfl
      exact hnot (List.mem_of_getLast? hlast)

/-- The dummy TD `td` is the last of the ED's TDs `ts`; it is filled, and `tdNew` is put behind it. -/
theorem intLink_ok (h : OhciInv s g) (ht : Taken s s₂ g ed (.int k) d isNew new)
    (hpipe₂ : s₂.hwPipe = s.hwPipe) (hchain : Chain s₂.nextTD d.headP ts)
    (hlast : ts.getLast? = some td)
    (hsplit : ∀ t, t ∈ ts ↔ t = td ∨ g.tdRole t = some (.linked ed) ∧ (s.ed ed).tailP ≠ some t)
    (htd : td ∈ new ∨ (s.ed ed).tailP = some td ∧ g.tdRole td = some (.linked ed))
    (hnew : tdNew ∈ new) (hnot : tdNew ∉ ts) (hnext : s₂.nextTD tdNew = none)
    (hutr : (s₂.td tdNew).utr = some v)
    (hinfo : InfoFits d (.int k)) (howner : ∀ e', s.hwPipe e' = some ed → e' = .ep i)
    (hk : isNew = true → k = getIntTreeHeadNode (E i).2.bInterval.toNat) :
    ∃ g', Accepted s (intLink E s₂ v u i ed td tdNew isNew) g g' v u (.ep i) ed (.int k) d.info
      [td] [.of .data u.buff u.dataLen] := by
  let c : Ohci := ((s₂.setPipe (.ep i) (some ed)).setTd td fun d =>
    { writeTd d (intTdInfo (E i).2 d.info) u.buff u.dataLen with
      ed := some ed, nextTD := some tdNew, utr := some v }).setEd ed
    fun d => { d with tailP := some tdNew }
  let b := hookPeriodic E c i ed isNew
  let g' : OhciLists := { g.put ed (.int k) (ts ++ [tdNew]) with
    int := if isNew then Function.update g.int k (ed :: g.int k) else g.int }
  have hced : c.ed = Function.update s.ed ed { d with tailP := some tdNew } := by
    change Function.update s₂.ed ed { s₂.ed ed with tailP := some tdNew } = _
    rw [ht.ed_eq]
    simp only [Function.update_self, Function.update_idem]
  have hc : c = { s₂ with
      ed := Function.update s.ed ed { d with tailP := some tdNew }
      hwPipe := c.hwPipe
      td := c.td } := by
    rw [← hced]
    rfl
  have hctd : ∀ t, t ≠ td → c.td t = s₂.td t := fun t hne => Function.update_of_ne hne ..
  have hctdSelf : (c.td td).nextTD = some tdNew ∧ (c.td td).utr = some v ∧ (c.td td).ed = some ed ∧
      (c.td td).bytes = .of .data u.buff u.dataLen := by
    have hself : c.td td = { writeTd (s₂.td td) (intTdInfo (E i).2 (s₂.td td).info) u.buff u.dataLen with
        ed := some ed, nextTD := some tdNew, utr := some v } := Function.update_self ..
    rw [hself]
    refine ⟨rfl, rfl, rfl, ?_⟩
    change (writeTd (s₂.td td) (intTdInfo (E i).2 (s₂.td td).info) u.buff u.dataLen).bytes = _
    rw [writeTd_bytes, intTdInfo_kind]
  have hput : Puts g g' ed (.int k) (ts ++ [tdNew]) := ⟨rfl, rfl, fun _ => rfl⟩
  have heds : EdsOk b g' := Taken.hook_eds h ht hc rfl (.inl rfl) hk hput ⟨rfl, rfl, rfl⟩
  have hhook : Hooked s s₂ c b ed { d with tailP := some tdNew } := ht.hooked hc
  have hpipe : b.hwPipe = Function.update s.hwPipe (.ep i) (some ed) := by
    rw [hhook.hwPipe, ← hpipe₂]
    rfl
  have hqueue : Chain b.nextTD d.headP (ts ++ [tdNew]) := by
    have hnextb : ∀ t, b.nextTD t = (c.td t).nextTD := by
      intro t
      rw [Ohci.nextTD, hhook.td]
    refine chain_fill hchain hlast hnot hnext ?_ fun t hne => ?_
    · rw [hnextb]
      exact hctdSelf.1
    · rw [hnextb, hctd t hne]
      rfl
  refine ⟨g', ⟨ts ++ [tdNew], new, ?_, fun t => ?_, ?_⟩, List.nodup_singleton td,
    List.cons_ne_nil td [], ⟨{ u with ep := .ep i, tdCnt := 1, status := 0 }, ?_, rfl, rfl, rfl, rfl⟩, ?_,
    fun t hpend => ?_, ?_, ?_, fun t htail => ?_, ?_, ?_⟩
  rotate_left
  · change t ∈ ts ++ [tdNew] ∧ (b.ed ed).tailP ≠ some t ↔ _
    rw [hhook.self, List.mem_append, List.mem_singleton, List.mem_singleton]
    constructor
    · rintro ⟨hmem | rfl, hne⟩
      · exact ((hsplit t).1 hmem).imp_right fun hold => ⟨by rintro ⟨⟩, hold⟩
      · exact absurd rfl hne
    · intro hpend
      have hmem : t ∈ ts := (hsplit t).2 (hpend.imp_right And.right)
      refine ⟨.inl hmem, fun heq => hnot ?_⟩
      rwa [Option.some.inj heq]
  · intro t ht
    rw [List.mem_singleton.1 ht]
    exact htd
  · change Function.update b.utr v _ = _
    rw [hhook.utr]
  · intro t ht
    rw [List.mem_singleton.1 ht]
    change (b.td td).utr = some v ∧ (b.td td).ed = some ed
    rw [hhook.td]
    exact ⟨hctdSelf.2.1, hctdSelf.2.2.1⟩
  · change (b.td t).utr = _ ∧ (b.td t).ed = _
    rw [hhook.td, hctd t (ht.not_pending h htd hpend), ht.pending_td h hpend]
    exact ⟨rfl, rfl⟩
  · change b.pool.total = _
    rw [hhook.pool, ht.total]
  · change (b.ed ed).info = _
    rw [hhook.self]
  · have htail : (b.ed ed).tailP = some t := htail
    rw [hhook.self] at htail
    cases htail
    change (b.td tdNew).utr = some v
    rw [hhook.td, hctd tdNew]
    · exact hutr
    · rintro rfl
      exact hnot (List.mem_of_getLast? hlast)
  · obtain ⟨old, hold⟩ := List.getLast?_eq_some_iff.1 hlast
    refine ⟨old, ?_⟩
    change Chain b.nextTD (b.ed ed).headP (old ++ [td] ++ (b.ed ed).tailP.toList)
    rw [← hold, hhook.self]
    exact hqueue
  · change [(b.td td).bytes] = _
    rw [hhook.td, hctdSelf.2.2.2]
  · refine ⟨hput, heds.congr (fun _ _ _ => rfl) rfl rfl rfl, ht.role, ⟨i, rfl⟩, fun t hmem => ?_, ?_, ?_,
      fun t r' hr hne => ?_,
      fun w r' _ hw => hhook.other w hw, ?_, ?_, fun t hmem => ?_, ht.unused, ?_, ht.unlisted, howner,
      .inl hpipe, hhook.same, (if_neg (by rintro ⟨⟩)).symm⟩
    · rcases List.mem_append.1 hmem with hmem | hmem
      · rcases (hsplit t).1 hmem with rfl | ⟨hrole, -⟩
        · exact htd.imp_right And.right
        · exact .inr hrole
      · rw [List.mem_singleton.1 hmem]
        exact .inl hnew
    · change Chain b.nextTD (b.ed ed).headP (ts ++ [tdNew])
      rw [hhook.self]
      exact hqueue
    · change TailFits (b.ed ed).tailP (ts ++ [tdNew]) (.int k)
      rw [hhook.self]
      exact ⟨Option.some_ne_none tdNew, List.getLast?_concat ..⟩
    · change b.td t = s.td t
      rw [hhook.td, hctd t, ht.kept h hr]
      rintro rfl
      rcases htd with hmem | ⟨-, hrole⟩
      · have hnone := h.used.used.use_none (ht.newFree t hmem).2
        rw [h.use_td hr] at hnone
        cases hnone
      · rw [hrole] at hr
        cases hr
        exact hne rfl
    · change InfoFits (b.ed ed) (.int k)
      rw [hhook.self]
      exact hinfo
    · intro w
      change b.pool.unitUsed w = (b.use w).isSome
      rw [hhook.pool, hhook.use]
      exact ht.fits w
    · exact ⟨(ht.newFree t hmem).1, h.used.used.use_none (ht.newFree t hmem).2⟩
    · change b.use = _
      rw [hhook.use, ht.use_eq]

/-- An ED and a TD that are given back leave the driver as it was. -/
theorem RolledBack.of_int (hs : s.UseFits) (htd : s.allocTd (some v) = (some tdNew, s₁))
    (hed : s₁.allocEd = (some ed, s₂)) (f : Ed → Ed) :
    RolledBack s (((s₂.setEd ed f).free ed).free tdNew) := by
  obtain ⟨hfree, rfl⟩ := allocTd_some htd
  obtain ⟨hfreeEd, rfl⟩ := allocEd_some hed
  have hne : ed ≠ tdNew := by
    rintro rfl
    have hused : (s.pool.take ed).unitUsed ed = false := hfreeEd
    rw [MemPool.take_unitUsed, if_pos rfl] at hused
    cases hused
  have hfree' : s.pool.unitUsed ed = false := by
    have hused : (s.pool.take tdNew).unitUsed ed = false := hfreeEd
    rwa [MemPool.take_unitUsed, if_neg hne] at hused
  have huse : Function.update (Function.update (Function.update (Function.update s.use tdNew (some .td))
      ed (some .ed)) ed none) tdNew none = s.use := by
    funext w
    simp only [Function.update_apply]
    by_cases hw : w = tdNew
    · rw [if_pos hw, hw, hs.use_none hfree]
    · by_cases hw' : w = ed
      · rw [if_neg hw, if_pos hw', hw', hs.use_none hfree']
      · simp only [if_neg hw, if_neg hw']
  refine ⟨?_, ?_, huse, fun w hw => ?_, fun t ht => ?_, ?_⟩
  · funext w
    change ((((s.pool.take tdNew).take ed).give ed).give tdNew).unitUsed w = _
    simp only [MemPool.give_unitUsed, MemPool.take_unitUsed]
    by_cases hw : w = tdNew
    · rw [if_pos hw, hw, hfree]
    · by_cases hw' : w = ed
      · rw [if_neg hw, if_pos hw', hw', hfree']
      · simp only [if_neg hw, if_neg hw']
  · change s.pool.memPoolUsed + 1 + 1 - 1 - 1 = _
    omega
  · change Function.update (Function.update s.ed ed Ed.zero) ed _ w = s.ed w
    have hwed : w ≠ ed := by
      rintro rfl
      rw [hs.use_none hfree'] at hw
      cases hw
    rw [Function.update_of_ne hwed, Function.update_of_ne hwed]
  · change Function.update s.td tdNew _ t = s.td t
    refine Function.update_of_ne ?_ ..
    rintro rfl
    rw [hs.use_none hfree] at ht
    cases ht
  · rw [← huse]
    rfl

/-- An endpoint of an interrupt type finds an ED that ends in a dummy TD. -/
theorem OhciInv.int_role (h : OhciInv s g) (htype : (E i).2.type = 3#8)
    (hinfo : (s.ed ed).info = epInfo E i) (hr : g.edRole ed = some r) (hper : r.Periodic k) :
    r = .int k := by
  rcases hper with rfl | rfl
  · rfl
  · have hiso := (h.pipes.info ed _ hr).2.2.2
    rw [hinfo] at hiso
    refine absurd (edMakeInfo_iso.2 ?_) hiso
    rw [htype]
    decide

/-- The transfer's TD is put behind the dummy TD of an ED that the driver has. -/
theorem intLink_found (h : OhciInv s g) (htook : TookTds s s₁ [tdNew])
    (hr : g.edRole ed = some (.int k)) (hunlisted : ed ∉ s₁.edRemoveList)
    (htail : (s₁.ed ed).tailP = some td) (hnext : s₁.nextTD tdNew = none)
    (hutr : (s₁.td tdNew).utr = some v) (howner : ∀ e', s.hwPipe e' = some ed → e' = .ep i) :
    ∃ g', Accepted s (intLink E s₁ v u i ed td tdNew false) g g' v u (.ep i) ed (.int k)
      (s₁.ed ed).info [td] [.of .data u.buff u.dataLen] := by
  have h₁ := htook.inv h
  have hsame : s₁.ed = s.ed := by rw [htook.rest]
  have hlast := (h₁.tds.tail ed _ hr).2
  rw [htail] at hlast
  have hmem := h₁.tds.mem ed _ hr
  have htail' : (s.ed ed).tailP = some td := by rw [← hsame, htail]
  have htdRole := (hmem td).1 (List.mem_of_getLast? hlast)
  have hsplit : ∀ t, t ∈ g.tds ed ↔
      t = td ∨ g.tdRole t = some (.linked ed) ∧ (s.ed ed).tailP ≠ some t := by
    intro t
    rw [hmem, htail']
    by_cases ht : t = td
    · rw [ht]
      exact iff_of_true htdRole (.inl rfl)
    · simp [ht, Ne.symm ht]
  have hnot : tdNew ∉ g.tds ed := by
    intro hin
    have huse := h.use_td ((hmem tdNew).1 hin)
    rw [h.used.used.use_none (htook.free tdNew (.head _))] at huse
    cases huse
  exact intLink_ok h (htook.taken (Taken.of_found h₁ hr hunlisted)) (by rw [htook.rest])
    (h₁.tds.chain ed _ hr) hlast hsplit (.inr ⟨htail', htdRole⟩) (.head _) hnot hnext hutr
    (h₁.pipes.info ed _ hr) howner (by rintro ⟨⟩)

/-- A new ED gets a dummy TD and the transfer's TD behind it. -/
theorem intLink_new {s₃ : Ohci} (h : OhciInv s g) (hgot : Taken s s₂ g ed (.int k) d true [tdNew])
    (hpipe : s₂.hwPipe = s.hwPipe) (halloc : s₂.allocTd none = (some td, s₃))
    (hnext : s₂.nextTD tdNew = none) (hutr : (s₂.td tdNew).utr = some v) (hinfo : InfoFits d (.int k))
    (hk : k = getIntTreeHeadNode (E i).2.bInterval.toNat) :
    ∃ g', Accepted s (intLink E (s₃.setEd ed fun d => { d with headP := some td, tailP := some td })
      v u i ed td tdNew true) g g' v u (.ep i) ed (.int k) d.info [td] [.of .data u.buff u.dataLen] := by
  have htook : TookTds _ s₃ [td] := (TookTds.nil _).snoc halloc rfl fun _ _ => rfl
  have hready := (hgot.took htook).setEd fun d => { d with headP := some td, tailP := some td }
  have hrole := hready.alloc rfl
  have hne : tdNew ≠ td := by
    rintro rfl
    have hfree := htook.free tdNew (.head _)
    rw [hgot.fits, hgot.use_eq] at hfree
    simp at hfree
  have hkept : s₃.td tdNew = s₂.td tdNew := htook.td tdNew (by simpa using hne)
  have hnextTd : s₃.nextTD td = none := allocTd_next halloc
  have hchain : Chain (s₃.setEd ed fun d =>
      { d with headP := some td, tailP := some td }).nextTD (some td) [td] :=
    ⟨rfl, hnextTd⟩
  have hsplit : ∀ t, t ∈ [td] ↔
      t = td ∨ g.tdRole t = some (.linked ed) ∧ (s.ed ed).tailP ≠ some t := by
    intro t
    rw [List.mem_singleton]
    refine (or_iff_left fun hold => ?_).symm
    have hsome := h.tds.owner t ed hold.1
    rw [hrole] at hsome
    cases hsome
  have hpipe₃ : s₃.hwPipe = s.hwPipe := by rw [htook.rest, ← hpipe]
  obtain ⟨g', hacc⟩ := intLink_ok (E := E) (u := u) (v := v) (i := i) h hready hpipe₃ hchain
    (List.getLast?_singleton ..) hsplit (.inl (.tail _ (.head _))) (List.mem_append_left _ (.head _))
    (by simpa using hne) ((congrArg Td.nextTD hkept).trans hnext) ((congrArg Td.utr hkept).trans hutr)
    hinfo (fun e' he' => absurd he' (hready.owner h e')) fun _ => hk
  exact ⟨g', hacc⟩

theorem ohciIntXfer_spec (h : OhciInv s g) (hfit : SubmissionFits E s (.int i)) :
    ∃ ret s', ohciIntXfer E s v u i = .ok (ret, s') ∧ Outcome E s g v u (.int i) ret s' := by
  obtain ⟨htype, hnumber, hinterval, hshare⟩ := hfit
  have haddr : epInfo E i &&& ED_EP_ADDR_Msk ≠ 0 := edMakeInfo_addr hnumber
  have hiso : epInfo E i &&& ED_FORMAT_ISO = 0 := edMakeInfo_iso.2 (by rw [htype]; decide)
  have hskip : epInfo E i ≠ ED_SKIP := edMakeInfo_ne_skip
  rw [ohciIntXfer]
  by_cases hlen : u.dataLen.toNat > 64
  · refine ⟨USBH_ERR_INVALID_PARAM, s, if_pos hlen, .inl ⟨fun hle => absurd hle (by omega), .inl ⟨?_,
      .refl s⟩⟩⟩
    decide
  rw [if_neg hlen]
  cases halloc : s.allocTd (some v) with
  | mk tdNew s₁ =>
    cases tdNew with
    | none =>
      obtain ⟨rfl, hfull⟩ := allocTd_none halloc
      refine ⟨USBH_ERR_MEMORY_OUT, s₁, rfl, .inl ⟨fun _ _ => ?_, .inl ⟨by decide, .refl s₁⟩⟩⟩
      rw [MemPool.room_eq_zero.2 hfull]
      decide
    | some tdNew =>
      have htook : TookTds s s₁ [tdNew] := (TookTds.nil s).snoc halloc rfl fun _ _ => rfl
      have h₁ := htook.inv h
      have hfreeTd := htook.free tdNew (.head _)
      have hnext : s₁.nextTD tdNew = none := allocTd_next halloc
      have hutr : (s₁.td tdNew).utr = some v := allocTd_utr halloc
      have hsame : s₁.ed = s.ed ∧ s₁.ied = s.ied := by
        rw [htook.rest]
        exact ⟨rfl, rfl⟩
      obtain ⟨found, hfind, hfound, hnone⟩ :=
        h₁.findTree (getIntTreeHeadNode (E i).2.bInterval.toNat) hskip
      have hfind' : s.findEd (some (intHead E s i)) (epInfo E i) = .ok found := by
        rw [← hfind, findEd_congr hsame.1, intHead, hsame.2]
      have hroom : s.pool.room = s₁.pool.room + 1 := htook.room
      change ∃ ret s', (s₁.findEd (some (s₁.ied (getIntTreeHeadNode (E i).2.bInterval.toNat)))
        (epInfo E i) >>= _) = .ok (ret, s') ∧ _
      rw [hfind]
      cases found with
      | some ed =>
        obtain ⟨hinfo, j, r, hr, hper⟩ := hfound ed rfl
        obtain rfl := h₁.int_role htype hinfo hr hper
        obtain ⟨td, htail⟩ := Option.ne_none_iff_exists'.1 (h₁.tds.tail ed _ hr).1
        obtain ⟨g', hacc⟩ := intLink_found (E := E) (u := u) (i := i) h htook hr (h₁.unlisted hinfo)
          htail hnext hutr fun e' he' => hshare ed e' hfind' he'
        refine ⟨0, intLink E s₁ v u i ed td tdNew false, ?_, .inl ⟨fun _ hnone' => ?_, .inr ⟨rfl, g', ed, _,
          _, _, _, ⟨?_, fun _ => .inl (by rw [← hsame.1]), fun hnew => ?_⟩, rfl, hacc⟩⟩⟩
        · simp only [bind, Except.bind, htail]
        · rw [hfind'] at hnone'
          cases hnone'
        · rintro j' ⟨⟩
          exact hinfo
        · rw [hr] at hnew
          cases hnew
      | none =>
        cases hallocEd : s₁.allocEd with
        | mk ed s₂ =>
          cases ed with
          | none =>
            obtain ⟨rfl, hfull⟩ := allocEd_none hallocEd
            have hzero := MemPool.room_eq_zero.2 hfull
            refine ⟨USBH_ERR_MEMORY_OUT, s₂, rfl, .inr ⟨fun hm => hm (by omega) hfind' (by omega), rfl,
              .inl fun huse => ?_⟩⟩
            have hself := congrFun huse tdNew
            rw [htook.use, h.used.used.use_none hfreeTd] at hself
            simp at hself
          | some ed =>
            have hpos : s₁.pool.room ≠ 0 := by
              intro hzero
              have hused := MemPool.room_eq_zero.1 hzero ed
              rw [(allocEd_some hallocEd).1] at hused
              cases hused
            have hmemory : MemoryFits E s u (.int i) := fun _ _ => by omega
            have hgot := htook.taken (Taken.of_alloc h₁ hallocEd
              (.int (getIntTreeHeadNode (E i).2.bInterval.toNat)) (periodicEd E i))
            cases hallocTd : (s₂.setEd ed (periodicEd E i)).allocTd none with
            | mk td s₃ =>
              cases td with
              | none =>
                obtain ⟨rfl, -⟩ := allocTd_none hallocTd
                refine ⟨USBH_ERR_MEMORY_OUT, _, ?_, .inl ⟨hmemory, .inl ⟨by decide,
                  .of_int h.used.used halloc hallocEd (periodicEd E i)⟩⟩⟩
                unfold periodicEd epInfo at hallocTd
                simp only [bind, Except.bind, hallocTd]
                rfl
              | some td =>
                obtain ⟨hpipeEd, htdEd⟩ := allocEd_kept hallocEd
                have hnextEd : (s₂.td tdNew).nextTD = none := by
                  rw [htdEd]
                  exact hnext
                have hutrEd : (s₂.td tdNew).utr = some v := by
                  rw [htdEd]
                  exact hutr
                obtain ⟨g', hacc⟩ := intLink_new (E := E) (u := u) (v := v) (i := i) h hgot
                  (hpipeEd.trans (by rw [htook.rest])) hallocTd hnextEd hutrEd
                  ⟨haddr, hinterval, rfl, hiso⟩ rfl
                refine ⟨0, _, ?_, .inl ⟨hmemory, .inr ⟨rfl, g', ed, _, _, _, _, ⟨?_, fun hold => ?_,
                  fun _ => ⟨?_, .inl fun w hw => ?_⟩⟩, rfl, hacc⟩⟩⟩
                · unfold periodicEd epInfo at hallocTd
                  simp only [bind, Except.bind, hallocTd]
                · rintro j ⟨⟩
                  rfl
                · rw [hgot.alloc rfl] at hold
                  cases hold
                · change EdRole.int _ = roleOf E (.ep i)
                  rw [roleOf, if_neg (by rw [htype]; decide), if_pos htype]
                · rw [← hsame.1]
                  exact hnone rfl w _ hw (.inl rfl)

/-! ## Isochronous transfers -/

/-- The links of an ED's TDs `ts` with the TDs `tds` behind them: nothing else of a TD has changed. -/
structure Appended (s₂ c : Ohci) (headP : Option Unit64) (ts tds : List Unit64) : Prop where
  chain : Chain c.nextTD headP (ts ++ tds)
  td : ∀ t, c.td t = { s₂.td t with nextTD := c.nextTD t }
  kept : ∀ t, t ∉ ts → c.td t = s₂.td t

/-- The TDs `tds` are put behind those of the ED. -/
theorem isoLink_ok (h : OhciInv s g) (ht : Taken s s₂ g ed (.iso k) d isNew tds)
    (hpipe : s₂.hwPipe = Function.update s.hwPipe (.ep i) (some ed) ∨
      s₂.hwPipe = s.hwPipe ∧ g.edRole ed = none)
    (hutr : ∀ t ∈ tds, (s₂.td t).utr = some v ∧ (s₂.td t).ed = some ed) (hnd : tds.Nodup)
    (hne : tds ≠ []) (hsplit : ∀ t, t ∈ ts ↔ g.tdRole t = some (.linked ed))
    (hc : c = { s₂ with ed := Function.update s.ed ed d', td := c.td })
    (hd' : d'.info = d.info ∧ d'.bInterval = d.bInterval ∧ d'.tailP = none ∧ d'.nextED = d.nextED)
    (happ : Appended s₂ c d'.headP ts tds) (hinfo : InfoFits d (.iso k))
    (howner : ∀ e', s.hwPipe e' = some ed → e' = .ep i)
    (hk : isNew = true → k = getIntTreeHeadNode (E i).2.bInterval.toNat) {u' : Utr}
    (hu' : u'.ep = .ep i ∧ u'.tdCnt = tds.length ∧ u'.bIsTransferDone = u.bIsTransferDone ∧
      u'.calls = u.calls) :
    ∃ g' bytes, Accepted s ((hookPeriodic E c i ed isNew).setUtr v u') g g' v u (.ep i) ed (.iso k) d.info
      tds bytes := by
  let b := hookPeriodic E c i ed isNew
  let g' : OhciLists := { g.put ed (.iso k) (ts ++ tds) with
    int := if isNew then Function.update g.int k (ed :: g.int k) else g.int }
  obtain ⟨hdinfo, hdint, hdtail, hdnext⟩ := hd'
  have hput : Puts g g' ed (.iso k) (ts ++ tds) := ⟨rfl, rfl, fun _ => rfl⟩
  have hpipe₂ : c.hwPipe = s₂.hwPipe := by rw [hc]
  have hc : c = { s₂ with ed := Function.update s.ed ed d', hwPipe := c.hwPipe, td := c.td } := by
    rw [hpipe₂]
    exact hc
  have heds : EdsOk b g' := Taken.hook_eds h ht hc hdnext (.inr rfl) hk hput ⟨rfl, rfl, rfl⟩
  have hhook : Hooked s s₂ c b ed d' := ht.hooked hc
  have htail : (b.ed ed).tailP = none := by
    rw [hhook.self]
    exact hdtail
  have hqueue : Chain b.nextTD (b.ed ed).headP (ts ++ tds) := by
    have hnext : b.nextTD = c.nextTD := by
      funext t
      rw [Ohci.nextTD, hhook.td]
      rfl
    rw [hhook.self, hnext]
    exact happ.chain
  refine ⟨g', _, ⟨ts ++ tds, tds, ?_, fun t => ?_, fun t hmem => .inl hmem⟩, hnd, hne,
    ⟨u', ?_, hu'⟩, fun t hmem => ?_, fun t hpend => ?_, ?_, ?_, fun t htd => ?_, ⟨ts, ?_⟩, rfl⟩
  rotate_left
  · change t ∈ ts ++ tds ∧ (b.ed ed).tailP ≠ some t ↔ _
    have hnone : g.tdRole t = some (.linked ed) → (s.ed ed).tailP = none := by
      intro hrole
      obtain ⟨r', hr'⟩ := Option.isSome_iff_exists.1 (h.tds.owner t ed hrole)
      rcases ht.role with hno | hold
      · rw [hno] at hr'
        cases hr'
      · exact h.tds.tail ed _ hold
    rw [htail, List.mem_append, hsplit]
    constructor
    · rintro ⟨hmem | hmem, -⟩
      · exact .inr ⟨by rintro ⟨⟩, hmem, by rw [hnone hmem]; rintro ⟨⟩⟩
      · exact .inl hmem
    · rintro (hmem | ⟨-, hmem, -⟩)
      · exact ⟨.inr hmem, by rintro ⟨⟩⟩
      · exact ⟨.inl hmem, by rintro ⟨⟩⟩
  · change Function.update b.utr v _ = _
    rw [hhook.utr]
  · change (b.td t).utr = some v ∧ (b.td t).ed = some ed
    rw [hhook.td, happ.td]
    exact hutr t hmem
  · change (b.td t).utr = _ ∧ (b.td t).ed = _
    rw [hhook.td, happ.td, ht.pending_td h hpend]
    exact ⟨rfl, rfl⟩
  · change b.pool.total = _
    rw [hhook.pool, ht.total]
  · change (b.ed ed).info = _
    rw [hhook.self]
    exact hdinfo
  · have htd : (b.ed ed).tailP = some t := htd
    rw [htail] at htd
    cases htd
  · change Chain b.nextTD (b.ed ed).headP (ts ++ tds ++ (b.ed ed).tailP.toList)
    rw [htail, Option.toList_none, List.append_nil]
    exact hqueue
  · refine ⟨hput, heds.congr (fun _ _ _ => rfl) rfl rfl rfl, ht.role, ⟨i, rfl⟩, fun t hmem => ?_, ?_,
      htail, fun t r' hr hne => ?_, fun w r' _ hw => hhook.other w hw, ?_, ?_, fun t hmem => ?_, ht.unused,
      ?_, ht.unlisted, howner, ?_, hhook.same, (if_neg (by rintro ⟨⟩)).symm⟩
    · rcases List.mem_append.1 hmem with hmem | hmem
      · exact .inr ((hsplit t).1 hmem)
      · exact .inl hmem
    · exact hqueue
    · change b.td t = s.td t
      rw [hhook.td, happ.kept t, ht.kept h hr]
      intro hmem
      rw [(hsplit t).1 hmem] at hr
      cases hr
      exact hne rfl
    · change InfoFits (b.ed ed) (.iso k)
      rw [hhook.self, InfoFits]
      dsimp only
      rw [hdinfo, hdint]
      exact hinfo
    · intro w
      change b.pool.unitUsed w = (b.use w).isSome
      rw [hhook.pool, hhook.use]
      exact ht.fits w
    · exact ⟨(ht.newFree t hmem).1, h.used.used.use_none (ht.newFree t hmem).2⟩
    · change b.use = _
      rw [hhook.use, ht.use_eq]
    · change b.hwPipe = _ ∨ b.hwPipe = _ ∧ _
      rw [hhook.hwPipe, hpipe₂]
      exact hpipe.imp_right fun hsame => ⟨hsame.1, hsame.2, k, rfl⟩

theorem appendTds_ok (hts : Chain s.nextTD (s.ed ed).headP ts) (htds : Chain s.nextTD tds.head? tds)
    (hdisj : ∀ t ∈ ts, t ∉ tds) : ∃ c d', appendTds s ed tds = .ok c ∧
      c = { s with ed := Function.update s.ed ed d', td := c.td } ∧
      d' = { s.ed ed with headP := d'.headP, halted := d'.halted } ∧ Appended s c d'.headP ts tds := by
  rw [appendTds]
  cases hhead : (s.ed ed).headP with
  | none =>
    rw [hhead] at hts
    have hnil : ts = [] := by
      cases ts with
      | nil => rfl
      | cons t ts => cases hts.1
    subst hnil
    exact ⟨_, { s.ed ed with headP := tds.head?, halted := false }, rfl, rfl, rfl, htds, fun _ => rfl,
      fun _ _ => rfl⟩
  | some head =>
    rw [hhead] at hts
    obtain ⟨last, hlast, hfound⟩ := lastTd_chain hts
    have hmem : last ∈ ts := List.mem_of_getLast? hlast
    refine ⟨s.setTd last fun td => { td with nextTD := tds.head? }, s.ed ed, ?_, ?_, ?_, ?_, ?_,
      fun t ht => ?_⟩
    · simp only [bind, Except.bind, hfound]
    · rw [Function.update_eq_self]
      rfl
    · rfl
    · have hother : ∀ t, t ≠ last →
          (s.setTd last fun td => { td with nextTD := tds.head? }).nextTD t = s.nextTD t := by
        intro t ht
        exact congrArg Td.nextTD (Function.update_of_ne ht ..)
      rw [hhead]
      refine hts.concat (fun hnil => ?_) (fun t _ hne => hother t ?_) (fun l hl => ?_)
        (htds.congr fun t ht => hother t ?_)
      · rw [hnil] at hlast
        cases hlast
      · rintro rfl
        exact hne hlast.symm
      · rw [hlast] at hl
        cases hl
        simp only [Ohci.nextTD, Ohci.setTd, Function.update_self]
      · rintro rfl
        exact hdisj t hmem ht
    · intro t
      by_cases ht : t = last
      · subst ht
        simp only [Ohci.nextTD, Ohci.setTd, Function.update_self]
      · simp only [Ohci.nextTD, Ohci.setTd, Function.update_of_ne ht]
    · refine Function.update_of_ne ?_ ..
      rintro rfl
      exact ht hmem

/-- Only the ED's contents differ from where the TDs were taken. -/
theorem TookTds.setEd (h : TookTds (s.setEd ed f) s' tds) : TookTds s { s' with ed := s.ed } tds where
  nodup := h.nodup
  free := h.free
  pool := h.pool
  use := h.use
  td := h.td
  rest := by
    rw [h.rest]
    rfl

/-- A new ED that is given back with its TDs leaves the driver as it was. -/
theorem RolledBack.of_iso (hs : s.UseFits) (halloc : s.allocEd = (some ed, s₁)) {f f' : Ed → Ed}
    (hback : RolledBack (s₁.setEd ed f) s₂) : RolledBack s ((s₂.setEd ed f').free ed) := by
  obtain ⟨hfree, rfl⟩ := allocEd_some halloc
  have hnone := hs.use_none hfree
  have huse : Function.update s₂.use ed none = s.use := by
    rw [hback.use]
    change Function.update (Function.update s.use ed (some .ed)) ed none = s.use
    rw [Function.update_idem, Function.update_eq_self_iff]
    exact hnone.symm
  have hne : ∀ {w k}, s.use w = some k → w ≠ ed := by
    rintro w k hw rfl
    rw [hnone] at hw
    cases hw
  refine ⟨?_, ?_, huse, fun w hw => ?_, fun t ht => ?_, ?_⟩
  · funext w
    change (s₂.pool.give ed).unitUsed w = _
    rw [MemPool.give_unitUsed, hback.unitUsed]
    change (if w = ed then false else (s.pool.take ed).unitUsed w) = _
    rw [MemPool.take_unitUsed]
    by_cases hw : w = ed
    · rw [if_pos hw, hw, hfree]
    · rw [if_neg hw, if_neg hw]
  · change s₂.pool.memPoolUsed - 1 = _
    rw [hback.memPoolUsed]
    exact Int.add_sub_cancel ..
  · change Function.update s₂.ed ed _ w = _
    rw [Function.update_of_ne (hne hw), hback.ed w]
    · change Function.update (Function.update s.ed ed Ed.zero) ed _ w = _
      rw [Function.update_of_ne (hne hw), Function.update_of_ne (hne hw)]
    · change Function.update s.use ed _ w = _
      rw [Function.update_of_ne (hne hw)]
      exact hw
  · refine hback.td t ?_
    change Function.update s.use ed _ t = _
    rw [Function.update_of_ne (hne ht)]
    exact ht
  · have hrest := hback.rest
    rw [Ohci.free]
    change { s₂ with pool := _, use := Function.update s₂.use ed none, ed := _ } = _
    rw [huse, hrest]
    rfl

theorem isoTds_keep {sf : BitVec 16} {interval : Nat} : ∀ write ∈ u.isoTds sf interval, ∀ td,
    (write td).nextTD = td.nextTD ∧ (write td).utr = td.utr := by
  intro write hwrite td
  obtain ⟨j, -, rfl⟩ := List.mem_map.1 hwrite
  exact ⟨rfl, rfl⟩

theorem isoTds_length (u : Utr) (sf : BitVec 16) (interval : Nat) :
    (u.isoTds sf interval).length = IF_PER_UTR := by
  rw [Utr.isoTds, List.length_map, List.length_finRange]

/-- The ED with the first frame of the transfer. Reference: `_ohci.c_:729 ohci_iso_xfer`. -/
def startIso (s : Ohci) (u : Utr) (ed : Unit64) : Ohci :=
  if u.bIsoNewSched then s.setEd ed fun d => { d with nextSf := s.frameNo + OHCI_ISO_DELAY } else s

theorem startIso_eq (s : Ohci) (u : Utr) (ed : Unit64) : startIso s u ed =
    s.setEd ed fun d => { d with nextSf := ((startIso s u ed).ed ed).nextSf } := by
  rw [startIso]
  split
  · simp only [Ohci.setEd, Function.update_self]
  · simp only [Ohci.setEd, Function.update_eq_self]

/-- The TDs of the transfer are put behind those of its ED where the pool has room for them; else the
TDs and the ED are given back. -/
theorem isoLink_cases (h : OhciInv s g) (hgot : Taken s s₁ g ed (.iso k) d isNew [])
    (hpipe : s₁.hwPipe = Function.update s.hwPipe (.ep i) (some ed) ∨
      s₁.hwPipe = s.hwPipe ∧ g.edRole ed = none)
    (hts : Chain s₁.nextTD d.headP ts) (htail : d.tailP = none)
    (hsplit : ∀ t, t ∈ ts ↔ g.tdRole t = some (.linked ed)) (hinfo : InfoFits d (.iso k))
    (howner : ∀ e', s.hwPipe e' = some ed → e' = .ep i)
    (hk : isNew = true → k = getIntTreeHeadNode (E i).2.bInterval.toNat) :
    (IF_PER_UTR ≤ s₁.pool.room ∧ ∃ s' g' tds bytes, isoLink E s₁ v u i ed isNew = .ok (0, s') ∧
      Accepted s s' g g' v u (.ep i) ed (.iso k) d.info tds bytes) ∨
    (¬ IF_PER_UTR ≤ s₁.pool.room ∧ ∃ f f' s', RolledBack (s₁.setEd ed f) s' ∧
      isoLink E s₁ v u i ed isNew = .ok (USBH_ERR_MEMORY_OUT, (s'.setEd ed f').free ed)) := by
  have hstart := startIso_eq s₁ u ed
  generalize hsf : ((startIso s₁ u ed).ed ed).nextSf = sf at hstart
  generalize hinterval : getOhciInterval ((startIso s₁ u ed).ed ed).bInterval.toNat = interval
  have hunfold : isoLink E s₁ v u i ed isNew = (do
      let run := chainTds v ed (u.isoTds sf interval) [] (startIso s₁ u ed)
      let s := run.2.2.setEd ed fun d =>
        { d with nextSf := sf + BitVec.ofNat 16 (run.1.length * interval) }
      if ¬ run.2.1 then .ok (USBH_ERR_MEMORY_OUT, (s.freeTds run.1).free ed)
      else do
        let s ← appendTds s ed run.1
        .ok (0, (hookPeriodic E s i ed isNew).setUtr v { u with
          ep := .ep i
          tdCnt := run.1.length
          status := 0
          isoSf := sf
          isoStatus := fun _ => USBH_ERR_NOT_ACCESS1 })) := by
    rw [isoLink, ← hsf, ← hinterval]
    rfl
  cases hrun : chainTds v ed (u.isoTds sf interval) [] (startIso s₁ u ed) with
  | mk tds rest =>
    obtain ⟨all, s₂⟩ := rest
    obtain ⟨hfresh, hlen, hall⟩ := chainTds_spec isoTds_keep (.nil _ v ed) hrun
    have hroom : (startIso s₁ u ed).pool = s₁.pool := by rw [hstart]; rfl
    rw [isoTds_length, hroom] at hall
    rw [hunfold, hrun]
    rw [hstart] at hfresh
    cases all with
    | false =>
      refine .inr ⟨fun hle => Bool.false_ne_true (hall.2 hle), _,
        fun d => { d with nextSf := sf + BitVec.ofNat 16 (tds.length * interval) }, _,
        hfresh.toTookTds.freeTds hgot.fits (.refl tds), ?_⟩
      change Except.ok (USBH_ERR_MEMORY_OUT, ((s₂.setEd ed _).freeTds tds).free ed) = _
      rw [freeTds_eq, freeTds_eq]
      rfl
    | true =>
      have ht := hgot.took hfresh.toTookTds.setEd
      have hnone : ∀ t ∈ ts, t ∉ tds := by
        intro t hold hmem
        have huse := h.use_td ((hsplit t).1 hold)
        rw [h.used.used.use_none (hgot.free t (hfresh.free t hmem))] at huse
        cases huse
      have hed : s₂.ed ed = { d with nextSf := sf } := by
        rw [hfresh.rest]
        change Function.update s₁.ed ed _ ed = _
        rw [Function.update_self, hgot.ed_eq, Function.update_self]
      let s₃ := s₂.setEd ed fun d => { d with nextSf := sf + BitVec.ofNat 16 (tds.length * interval) }
      have hed₃ : s₃.ed ed = { d with nextSf := sf + BitVec.ofNat 16 (tds.length * interval) } := by
        change Function.update s₂.ed ed _ ed = _
        rw [Function.update_self, hed]
      have hts₃ : Chain s₃.nextTD (s₃.ed ed).headP ts := by
        rw [hed₃]
        refine hts.congr fun t ht => ?_
        change (s₂.td t).nextTD = _
        rw [hfresh.td t (hnone t ht)]
        rfl
      obtain ⟨c, d', happend, hc, hd', happ⟩ := appendTds_ok hts₃ hfresh.chain hnone
      have hs₃ : Function.update s₃.ed ed d' = Function.update s.ed ed d' := by
        change Function.update (Function.update s₂.ed ed _) ed d' = _
        rw [hfresh.rest]
        change Function.update (Function.update (Function.update s₁.ed ed _) ed _) ed d' = _
        simp only [hgot.ed_eq, Function.update_idem]
      rw [hs₃] at hc
      rw [hed₃] at hd'
      have hlen : tds.length = IF_PER_UTR := by
        rw [hlen rfl, isoTds_length]
        rfl
      have hne : tds ≠ [] := by
        rintro rfl
        cases hlen
      have hpipe₂ : s₂.hwPipe = s₁.hwPipe := by
        rw [hfresh.rest]
        rfl
      let u' : Utr := { u with
        ep := .ep i
        tdCnt := tds.length
        status := 0
        isoSf := sf
        isoStatus := fun _ => USBH_ERR_NOT_ACCESS1 }
      have hu' : u'.ep = .ep i ∧ u'.tdCnt = tds.length ∧ u'.bIsTransferDone = u.bIsTransferDone ∧
          u'.calls = u.calls := ⟨rfl, rfl, rfl, rfl⟩
      obtain ⟨g', bytes, hacc⟩ := isoLink_ok (E := E) (u := u) (v := v) (i := i) (c := c) h ht
        (by rw [hpipe₂]; exact hpipe) hfresh.utr hfresh.nodup hne hsplit hc
        (by rw [hd']; exact ⟨rfl, rfl, htail, rfl⟩) ⟨happ.chain, happ.td, happ.kept⟩ hinfo howner hk hu'
      refine .inl ⟨hall.1 rfl, _, g', tds, bytes, ?_, hacc⟩
      change (appendTds s₃ ed tds >>= _) = _
      rw [happend]
      rfl

/-- An endpoint of an isochronous type finds an ED of that type. -/
theorem OhciInv.iso_role (h : OhciInv s g) (htype : (E i).2.type = 1#8)
    (hinfo : (s.ed ed).info = epInfo E i) (hr : g.edRole ed = some r) (hper : r.Periodic k) :
    r = .iso k := by
  rcases hper with rfl | rfl
  · have hint := (h.pipes.info ed _ hr).2.2.2
    rw [hinfo] at hint
    exact absurd htype (edMakeInfo_iso.1 hint)
  · rfl

theorem ohciIsoXfer_spec (h : OhciInv s g) (hfit : SubmissionFits E s (.iso i)) :
    ∃ ret s', ohciIsoXfer E s v u i = .ok (ret, s') ∧ Outcome E s g v u (.iso i) ret s' := by
  obtain ⟨htype, hnumber, hinterval, hshare⟩ := hfit
  have haddr : epInfo E i &&& ED_EP_ADDR_Msk ≠ 0 := edMakeInfo_addr hnumber
  have hiso : epInfo E i &&& ED_FORMAT_ISO ≠ 0 := fun hzero => edMakeInfo_iso.1 hzero htype
  have hskip : epInfo E i ≠ ED_SKIP := edMakeInfo_ne_skip
  obtain ⟨found, hfind, hfound, hnone⟩ := h.findTree (getIntTreeHeadNode (E i).2.bInterval.toNat) hskip
  have hmem : MemoryFits E s u (.iso i) ↔ ∀ ed, found = some ed → IF_PER_UTR ≤ s.pool.room := by
    refine ⟨fun hm ed hed => hm ed (hfind.trans (by rw [hed])), fun hm ed hed => hm ed ?_⟩
    exact Except.ok.inj (hfind.symm.trans hed)
  rw [ohciIsoXfer]
  change ∃ ret s', (s.findEd (some (s.ied (getIntTreeHeadNode (E i).2.bInterval.toNat))) (epInfo E i) >>=
    _) = .ok (ret, s') ∧ _
  rw [hfind]
  cases found with
  | some ed =>
    obtain ⟨hinfo, j, r, hr, hper⟩ := hfound ed rfl
    obtain rfl := h.iso_role htype hinfo hr hper
    have hgot := (Taken.of_found h hr (h.unlisted hinfo)).setPipe (.ep i) (some ed)
    rcases isoLink_cases (E := E) (u := u) (v := v) (i := i) h hgot (.inl rfl) (h.tds.chain ed _ hr)
      (h.tds.tail ed _ hr) (h.tds.mem ed _ hr) (h.pipes.info ed _ hr)
      (fun e' he' => hshare ed e' hfind he') (by rintro ⟨⟩) with
      ⟨hroom, s', g', tds, bytes, hrun, hacc⟩ | ⟨hroom, f, f', s', hback, hrun⟩
    · refine ⟨0, s', hrun, .inl ⟨hmem.2 fun _ _ => hroom, .inr ⟨rfl, g', ed, _, _, tds, bytes, ?_, trivial, hacc⟩⟩⟩
      refine ⟨?_, fun _ => .inl rfl, fun hnew => ?_⟩
      · rintro j' ⟨⟩
        exact hinfo
      · rw [hr] at hnew
        cases hnew
    · refine ⟨USBH_ERR_MEMORY_OUT, _, hrun, .inr ⟨fun hm => hroom (hmem.1 hm ed rfl), rfl,
        .inr ⟨.ep i, ed, ?_, Function.update_self ..⟩⟩⟩
      change s'.hwPipe (.ep i) = some ed
      rw [hback.rest]
      exact Function.update_self ..
  | none =>
    have hmem : MemoryFits E s u (.iso i) := hmem.2 (by rintro _ ⟨⟩)
    cases halloc : s.allocEd with
    | mk ed s₀ =>
      cases ed with
      | none =>
        obtain ⟨rfl, -⟩ := allocEd_none halloc
        refine ⟨USBH_ERR_MEMORY_OUT, s₀, ?_, .inl ⟨hmem, .inl ⟨by decide, .refl s₀⟩⟩⟩
        simp only [bind, Except.bind]
      | some ed =>
        have hgot := Taken.of_alloc h halloc (.iso (getIntTreeHeadNode (E i).2.bInterval.toNat))
          (periodicEd E i)
        have hrole := hgot.alloc rfl
        have hno : ∀ t, t ∈ ([] : List Unit64) ↔ g.tdRole t = some (.linked ed) := by
          intro t
          refine iff_of_false List.not_mem_nil fun ht => ?_
          have hsome := h.tds.owner t ed ht
          rw [hrole] at hsome
          cases hsome
        have hpipe : (s₀.setEd ed (periodicEd E i)).hwPipe = s.hwPipe := (allocEd_kept halloc).1
        rcases isoLink_cases (E := E) (u := u) (v := v) (i := i) h hgot (.inr ⟨hpipe, hrole⟩)
          (show Chain _ none ([] : List Unit64) from rfl) rfl hno
          ⟨haddr, hinterval, rfl, hiso⟩ (fun e' he' => absurd he' (hgot.owner h e')) (fun _ => rfl) with
          ⟨-, s', g', tds, bytes, hrun, hacc⟩ | ⟨-, f, f', s', hback, hrun⟩
        · refine ⟨0, s', ?_, .inl ⟨hmem, .inr ⟨rfl, g', ed, _, _, tds, bytes, ?_, trivial, hacc⟩⟩⟩
          · simp only [bind, Except.bind]
            exact hrun
          · refine ⟨?_, fun hold => ?_, fun _ => ⟨?_, .inl fun w hw => hnone rfl w _ hw (.inr rfl)⟩⟩
            · rintro j ⟨⟩
              rfl
            · rw [hrole] at hold
              cases hold
            · change EdRole.iso _ = roleOf E (.ep i)
              rw [roleOf, if_neg (by rw [htype]; decide), if_neg (by rw [htype]; decide)]
        · have hset : (s₀.setEd ed (periodicEd E i)).setEd ed f = s₀.setEd ed (f ∘ periodicEd E i) := by
            simp only [Ohci.setEd, Function.update_self, Function.update_idem, Function.comp]
          rw [hset] at hback
          refine ⟨USBH_ERR_MEMORY_OUT, (s'.setEd ed f').free ed, ?_,
            .inl ⟨hmem, .inl ⟨by decide, .of_iso h.used.used halloc hback⟩⟩⟩
          simp only [bind, Except.bind]
          exact hrun

end

end NumakerMA35D1.UsbHost

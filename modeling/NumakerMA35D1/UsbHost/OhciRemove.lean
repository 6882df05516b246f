import NumakerMA35D1.UsbHost.OhciControl

/-!
# Removal of endpoint descriptors

At a start of frame the driver takes the EDs of cancelled endpoints out of their lists, completes the
transfer requests of the TDs that they have, and frees both. `unlinkAny_spec` says that the ED is found
in the list that its information names, `removeTds_spec` what its TDs tell their requests, and
`OhciInv.remove` that the lists without the ED are lists again (`OhciLists.drop`).

Reference: `_ohci.c_`.
-/

namespace NumakerMA35D1.UsbHost

open Embedded

/-! ## Lists without an ED -/

/-- The lists without an ED and its TDs. -/
def OhciLists.drop (g : OhciLists) (u : Unit64) : OhciLists where
  edRole := Function.update g.edRole u none
  tdRole t := if g.tdRole t = some (.linked u) then none else g.tdRole t
  control := g.control.erase u
  bulk := g.bulk.erase u
  int k := (g.int k).erase u
  tds := Function.update g.tds u []

/-- Nothing has changed but the links of EDs. -/
structure Relinked (s s' : Ohci) : Prop where
  ed : ∀ w, s'.ed w = { s.ed w with nextED := s'.nextED w }
  rest : s' = { s with ed := s'.ed, controlHead := s'.controlHead, bulkHead := s'.bulkHead }

section

variable {s s' : Ohci} {g : OhciLists} {u w t y : Unit64} {r : EdRole} {ts : List Unit64} {k : Fin 6}

theorem OhciLists.drop_edRole : (g.drop u).edRole w = some r ↔ w ≠ u ∧ g.edRole w = some r := by
  change Function.update g.edRole u none w = some r ↔ _
  by_cases hw : w = u
  · subst hw
    rw [Function.update_self]
    exact iff_of_false (by rintro ⟨⟩) fun h => h.1 rfl
  · rw [Function.update_of_ne hw]
    exact (and_iff_right hw).symm

theorem OhciLists.drop_tdRole {r : TdRole} :
    (g.drop u).tdRole t = some r ↔ r ≠ .linked u ∧ g.tdRole t = some r := by
  change (if g.tdRole t = some (.linked u) then none else g.tdRole t) = some r ↔ _
  by_cases ht : g.tdRole t = some (.linked u)
  · rw [if_pos ht, ht]
    refine iff_of_false (by rintro ⟨⟩) ?_
    rintro ⟨hne, heq⟩
    exact hne (Option.some.inj heq).symm
  · rw [if_neg ht]
    constructor
    · intro h
      refine ⟨?_, h⟩
      rintro rfl
      exact ht h
    · exact And.right

/-- The EDs behind a head differ. -/
theorem EdsOk.int_nodup (h : EdsOk s g) (k : Fin 6) : (g.int k).Nodup := by
  have hnd := (h.tree k.val k.isLt).nodup
  obtain ⟨_ | n, hn⟩ := k
  · exact (List.nodup_cons.1 hnd).2
  · exact (List.nodup_append.1 (List.nodup_cons.1 hnd).2).1

/-- The lists without the ED. -/
theorem EdsOk.drop (h : EdsOk s g) (hu : ∀ k, g.edRole u ≠ some (.head k)) (hied : s'.ied = s.ied)
    (hcontrol : Chain s'.nextED s'.controlHead (g.control.erase u))
    (hbulk : Chain s'.nextED s'.bulkHead (g.bulk.erase u))
    (hint : ∀ k, Links s'.nextED (s'.nextED (s.ied k)) ((g.int k).erase u) (belowHead s.ied k)) :
    EdsOk s' (g.drop u) where
  head k := by
    rw [hied]
    refine OhciLists.drop_edRole.2 ⟨?_, h.head k⟩
    rintro rfl
    exact hu k (h.head k)
  head_eq k w hw := by
    rw [hied]
    exact h.head_eq k w (OhciLists.drop_edRole.1 hw).2
  control := hcontrol
  bulk := hbulk
  int k := by
    rw [hied]
    exact hint k
  mem_control w hw := by
    have hmem := (List.Nodup.mem_erase_iff h.control.nodup).1 hw
    exact OhciLists.drop_edRole.2 ⟨hmem.1, h.mem_control w hmem.2⟩
  mem_bulk w := by
    change w ∈ g.bulk.erase u ↔ _
    rw [List.Nodup.mem_erase_iff h.bulk.nodup, OhciLists.drop_edRole, h.mem_bulk]
  mem_int k w := by
    change w ∈ (g.int k).erase u ↔ _
    rw [List.Nodup.mem_erase_iff (h.int_nodup k), h.mem_int]
    constructor
    · rintro ⟨hne, r, hr, hper⟩
      exact ⟨r, OhciLists.drop_edRole.2 ⟨hne, hr⟩, hper⟩
    · rintro ⟨r, hr, hper⟩
      exact ⟨(OhciLists.drop_edRole.1 hr).1, r, (OhciLists.drop_edRole.1 hr).2, hper⟩

/-! ## The ED is taken out -/

/-- The ED behind `y` is taken out of its list, the others' links are as they were. -/
theorem unlinkEd_chain {head : Option Unit64} {as bs : List Unit64} {stop : Bool}
    (h : Chain s.nextED head (as ++ y :: u :: bs)) :
    unlinkEd s head u stop = .ok (true, { s with
      ed := fun w => { s.ed w with nextED := Function.update s.nextED y (s.nextED u) w } }) := by
  rw [unlinkEd, unlink_chain h stop (Chain.length_le h)]

theorem unlinkEd_not_mem {head : Option Unit64} {xs : List Unit64} {stop : Bool}
    (h : Chain s.nextED head xs) (hu : u ∉ xs.tail) : unlinkEd s head u stop = .ok (false, s) := by
  rw [unlinkEd, unlink_not_mem h hu stop (Chain.length_le h)]
  rfl

/-- A member of a list that is not its first is behind another one. -/
theorem exists_split_tail {xs : List Unit64} (hu : u ∈ xs) (hhead : xs.head? ≠ some u) :
    ∃ as y bs, xs = as ++ y :: u :: bs := by
  obtain ⟨as, bs, rfl⟩ := List.append_of_mem hu
  rcases List.eq_nil_or_concat as with rfl | ⟨as, y, rfl⟩
  · exact absurd rfl hhead
  · exact ⟨as, y, bs, by simp⟩

theorem erase_split {as bs : List Unit64} (hnd : (as ++ y :: u :: bs).Nodup) :
    (as ++ y :: u :: bs).erase u = as ++ y :: bs := by
  have hdisj := List.nodup_append.1 hnd
  have has : u ∉ as := fun hmem => hdisj.2.2 u hmem u (.tail _ (.head _)) rfl
  have hy : y ≠ u := by
    rintro rfl
    exact (List.nodup_cons.1 hdisj.2.1).1 (.head _)
  rw [List.erase_append_right _ has, List.erase_cons_tail (by simpa using hy), List.erase_cons_head]

/-- The list from a head begins with the EDs behind it. -/
theorem treeFrom_cons (ied : Fin 6 → Unit64) (int : Fin 6 → List Unit64) (k : Fin 6) :
    ∃ rest, treeFrom ied int k.val k.isLt = ied k :: (int k ++ rest) := by
  obtain ⟨_ | n, hn⟩ := k
  · exact ⟨[], by rw [List.append_nil]; rfl⟩
  · exact ⟨_, rfl⟩

/-- The link of an ED that is not in the list has changed. -/
theorem links_update_erase {next : Unit64 → Option Unit64} {p q : Option Unit64} {xs : List Unit64}
    (hl : Links next p xs q) (hy : y ∉ xs) (hu : u ∉ xs) (v : Option Unit64) :
    Links (Function.update next y v) p (xs.erase u) q := by
  rw [List.erase_of_not_mem hu]
  exact hl.update hy _

/-- An ED is in no list of another role. -/
theorem EdsOk.not_mem (h : EdsOk s g) (hr : g.edRole u = some r) : (r ≠ .control → u ∉ g.control) ∧
    (r ≠ .bulk → u ∉ g.bulk) ∧ (∀ k, ¬ r.Periodic k → u ∉ g.int k) ∧
    ∀ k, r ≠ .head k → u ≠ s.ied k := by
  refine ⟨fun hne hmem => ?_, fun hne hmem => ?_, fun k hne hmem => ?_, fun k hne heq => ?_⟩
  · rw [h.mem_control u hmem] at hr
    exact hne (Option.some.inj hr).symm
  · rw [(h.mem_bulk u).1 hmem] at hr
    exact hne (Option.some.inj hr).symm
  · obtain ⟨r', hr', hper⟩ := (h.mem_int k u).1 hmem
    rw [hr'] at hr
    exact hne (Option.some.inj hr ▸ hper)
  · rw [heq, h.head k] at hr
    exact hne (Option.some.inj hr).symm

/-- An ED of the control list is taken out of it, one that was dropped from it is not found. -/
theorem OhciInv.unlink_control (h : OhciInv s g) (hr : g.edRole u = some .control) :
    ∃ s', unlinkAny s u = .ok (decide (u ∈ g.control), s') ∧ Relinked s s' ∧ EdsOk s' (g.drop u) := by
  have hinfo : (s.ed u).info &&& ED_EP_ADDR_Msk = 0 := h.pipes.info u _ hr
  obtain ⟨-, hbulk, hint, -⟩ := h.eds.not_mem hr
  have hbulk : u ∉ g.bulk := hbulk (by rintro ⟨⟩)
  have hint : ∀ k, u ∉ g.int k := fun k => hint k fun hper => hper.plain.2.1 rfl
  have hhead : ∀ k, g.edRole u ≠ some (.head k) := by
    intro k heq
    rw [hr] at heq
    cases heq
  rw [unlinkAny, if_pos hinfo]
  have hfixed : ∀ s' : Ohci, s'.nextED = s.nextED → s'.ied = s.ied → s'.bulkHead = s.bulkHead →
      Chain s.nextED s'.controlHead (g.control.erase u) → EdsOk s' (g.drop u) := by
    intro s' hnext hied hb hcontrol
    refine h.eds.drop hhead hied ?_ ?_ fun k => ?_
    · rw [hnext]
      exact hcontrol
    · rw [hnext, hb, List.erase_of_not_mem hbulk]
      exact h.eds.bulk
    · rw [hnext, List.erase_of_not_mem (hint k)]
      exact h.eds.int k
  have hchain := h.eds.control
  by_cases hfirst : s.controlHead = some u
  · rw [if_pos hfirst]
    have hhd := hchain.head
    rw [hfirst] at hhd
    cases hctl : g.control with
    | nil =>
      rw [hctl] at hhd
      cases hhd
    | cons x xs =>
      rw [hctl] at hhd hchain
      cases hhd
      rw [decide_eq_true (List.mem_cons_self ..)]
      refine ⟨_, rfl, ⟨fun _ => rfl, rfl⟩, hfixed _ rfl rfl rfl ?_⟩
      rw [hctl, List.erase_cons_head]
      exact hchain.2
  · rw [if_neg hfirst]
    by_cases hmem : u ∈ g.control
    · obtain ⟨as, y, bs, hsplit⟩ := exists_split_tail hmem fun heq => hfirst (hchain.head.trans heq)
      rw [hsplit] at hchain
      rw [unlinkEd_chain hchain, decide_eq_true hmem]
      refine ⟨_, rfl, ⟨fun _ => rfl, rfl⟩, ?_⟩
      have hy : g.edRole y = some .control := h.eds.mem_control y (by rw [hsplit]; simp)
      obtain ⟨-, hyb, hyi, hyh⟩ := h.eds.not_mem hy
      refine h.eds.drop hhead rfl ?_ ?_ fun k => ?_
      · rw [hsplit, erase_split hchain.nodup]
        exact Links.remove hchain hchain.nodup
      · exact links_update_erase h.eds.bulk (hyb (by rintro ⟨⟩)) hbulk _
      · have hnext : Function.update s.nextED y (s.nextED u) (s.ied k) = s.nextED (s.ied k) :=
          Function.update_of_ne (Ne.symm (hyh k (by rintro ⟨⟩))) ..
        change Links (Function.update s.nextED y (s.nextED u))
          (Function.update s.nextED y (s.nextED u) (s.ied k)) _ _
        rw [hnext]
        exact links_update_erase (h.eds.int k) (hyi k fun hper => hper.plain.2.1 rfl) (hint k) _
    · have htail : u ∉ g.control.tail := fun hin => hmem (List.mem_of_mem_tail hin)
      rw [unlinkEd_not_mem hchain htail, decide_eq_false hmem]
      refine ⟨s, rfl, ⟨fun _ => rfl, rfl⟩, hfixed s rfl rfl rfl ?_⟩
      rw [List.erase_of_not_mem hmem]
      exact hchain

/-- An ED of the bulk list is taken out of it. -/
theorem OhciInv.unlink_bulk (h : OhciInv s g) (hr : g.edRole u = some .bulk) :
    ∃ s', unlinkAny s u = .ok (true, s') ∧ Relinked s s' ∧ EdsOk s' (g.drop u) := by
  obtain ⟨hinfo, hinterval⟩ := h.pipes.info u _ hr
  obtain ⟨hcontrol, -, hint, -⟩ := h.eds.not_mem hr
  have hcontrol : u ∉ g.control := hcontrol (by rintro ⟨⟩)
  have hint : ∀ k, u ∉ g.int k := fun k => hint k fun hper => hper.plain.2.2 rfl
  have hhead : ∀ k, g.edRole u ≠ some (.head k) := by
    intro k heq
    rw [hr] at heq
    cases heq
  have hmem : u ∈ g.bulk := (h.eds.mem_bulk u).2 hr
  rw [unlinkAny, if_neg hinfo, if_neg (by rw [hinterval]; decide)]
  have hchain := h.eds.bulk
  by_cases hfirst : s.bulkHead = some u
  · rw [if_pos hfirst]
    have hhd := hchain.head
    rw [hfirst] at hhd
    cases hblk : g.bulk with
    | nil =>
      rw [hblk] at hhd
      cases hhd
    | cons x xs =>
      rw [hblk] at hhd hchain
      cases hhd
      refine ⟨_, rfl, ⟨fun _ => rfl, rfl⟩, h.eds.drop hhead rfl ?_ ?_ fun k => ?_⟩
      · rw [List.erase_of_not_mem hcontrol]
        exact h.eds.control
      · rw [hblk, List.erase_cons_head]
        exact hchain.2
      · rw [List.erase_of_not_mem (hint k)]
        exact h.eds.int k
  · rw [if_neg hfirst]
    obtain ⟨as, y, bs, hsplit⟩ := exists_split_tail hmem fun heq => hfirst (hchain.head.trans heq)
    rw [hsplit] at hchain
    refine ⟨_, unlinkEd_chain hchain, ⟨fun _ => rfl, rfl⟩, ?_⟩
    have hy : g.edRole y = some .bulk := (h.eds.mem_bulk y).1 (by rw [hsplit]; simp)
    obtain ⟨hyc, -, hyi, hyh⟩ := h.eds.not_mem hy
    refine h.eds.drop hhead rfl ?_ ?_ fun k => ?_
    · exact links_update_erase h.eds.control (hyc (by rintro ⟨⟩)) hcontrol _
    · rw [hsplit, erase_split hchain.nodup]
      exact Links.remove hchain hchain.nodup
    · have hnext : Function.update s.nextED y (s.nextED u) (s.ied k) = s.nextED (s.ied k) :=
        Function.update_of_ne (Ne.symm (hyh k (by rintro ⟨⟩))) ..
      change Links (Function.update s.nextED y (s.nextED u))
        (Function.update s.nextED y (s.nextED u) (s.ied k)) _ _
      rw [hnext]
      exact links_update_erase (h.eds.int k) (hyi k fun hper => hper.plain.2.2 rfl) (hint k) _

/-- An ED of an interval is taken out of the interval's list. -/
theorem OhciInv.unlink_periodic (h : OhciInv s g) (hr : g.edRole u = some r) (hper : r.Periodic k) :
    ∃ s', unlinkAny s u = .ok (true, s') ∧ Relinked s s' ∧ EdsOk s' (g.drop u) := by
  have hinfo : (s.ed u).info &&& ED_EP_ADDR_Msk ≠ 0 ∧ 0 < (s.ed u).bInterval.toNat ∧
      k = getIntTreeHeadNode (s.ed u).bInterval.toNat := by
    have hinfo := h.pipes.info u r hr
    rcases hper with rfl | rfl
    · exact ⟨hinfo.1, hinfo.2.1, hinfo.2.2.1⟩
    · exact ⟨hinfo.1, hinfo.2.1, hinfo.2.2.1⟩
  obtain ⟨haddr, hinterval, hk⟩ := hinfo
  obtain ⟨hcontrol, hbulk, hint, -⟩ := h.eds.not_mem hr
  have hcontrol : u ∉ g.control := hcontrol hper.plain.2.1
  have hbulk : u ∉ g.bulk := hbulk hper.plain.2.2
  have hint : ∀ j, j ≠ k → u ∉ g.int j := fun j hj => hint j fun hper' => hj (hper.unique hper')
  have hhead : ∀ j, g.edRole u ≠ some (.head j) := by
    intro j heq
    rw [hr] at heq
    exact hper.plain.1 j (Option.some.inj heq)
  have hmem : u ∈ g.int k := (h.eds.mem_int k u).2 ⟨r, hr, hper⟩
  rw [unlinkAny, if_neg haddr, if_pos hinterval, ← hk]
  have hlist : Links s.nextED (some (s.ied k)) (s.ied k :: g.int k) (belowHead s.ied k) :=
    ⟨rfl, h.eds.int k⟩
  have hneHead : u ≠ s.ied k := (h.eds.not_mem hr).2.2.2 k (hper.plain.1 k)
  have hchain := h.eds.tree k.val k.isLt
  obtain ⟨rest, hrest⟩ := treeFrom_cons s.ied g.int k
  have hin : u ∈ s.ied k :: g.int k := .tail _ hmem
  obtain ⟨as, y, bs, hsplit⟩ := exists_split_tail hin fun heq => hneHead (Option.some.inj heq).symm
  have htree : treeFrom s.ied g.int k.val k.isLt = as ++ y :: u :: (bs ++ rest) := by
    rw [hrest, ← List.cons_append, hsplit]
    simp
  have hnd := hchain.nodup
  rw [htree] at hchain
  rw [hrest, ← List.cons_append] at hnd
  have hnd := (List.nodup_append.1 hnd).1
  have herase : s.ied k :: (g.int k).erase u = as ++ y :: bs := by
    rw [← List.erase_cons_tail (by simpa using Ne.symm hneHead), hsplit]
    rw [hsplit] at hnd
    exact erase_split hnd
  rw [unlinkEd_chain hchain]
  refine ⟨_, rfl, ⟨fun _ => rfl, rfl⟩, ?_⟩
  have hy : ∃ r', g.edRole y = some r' ∧ (r' = .head k ∨ r'.Periodic k) := by
    have hmem : y ∈ s.ied k :: g.int k := by rw [hsplit]; simp
    rcases List.mem_cons.1 hmem with rfl | hmem
    · exact ⟨_, h.eds.head k, .inl rfl⟩
    · obtain ⟨r', hr', hper'⟩ := (h.eds.mem_int k y).1 hmem
      exact ⟨r', hr', .inr hper'⟩
  obtain ⟨r', hr', hrole⟩ := hy
  have hplain : r' ≠ .control ∧ r' ≠ .bulk ∧ (∀ j, j ≠ k → ¬ r'.Periodic j) ∧
      ∀ j, j ≠ k → r' ≠ .head j := by
    rcases hrole with rfl | hper'
    · refine ⟨by rintro ⟨⟩, by rintro ⟨⟩, fun j _ hper' => hper'.plain.1 k rfl, fun j hj heq => hj ?_⟩
      cases heq
      rfl
    · exact ⟨hper'.plain.2.1, hper'.plain.2.2, fun j hj hper'' => hj (hper'.unique hper''),
        fun j _ => hper'.plain.1 j⟩
  obtain ⟨hyc, hyb, hyi, hyh⟩ := h.eds.not_mem hr'
  refine h.eds.drop hhead rfl ?_ ?_ fun j => ?_
  · exact links_update_erase h.eds.control (hyc hplain.1) hcontrol _
  · exact links_update_erase h.eds.bulk (hyb hplain.2.1) hbulk _
  · by_cases hj : j = k
    · subst hj
      rw [hsplit] at hlist hnd
      have hremoved := Links.remove hlist hnd
      rw [← herase] at hremoved
      exact hremoved.2
    · have hnext : Function.update s.nextED y (s.nextED u) (s.ied j) = s.nextED (s.ied j) :=
        Function.update_of_ne (Ne.symm (hyh j (hplain.2.2.2 j hj))) ..
      change Links (Function.update s.nextED y (s.nextED u))
        (Function.update s.nextED y (s.nextED u) (s.ied j)) _ _
      rw [hnext]
      exact links_update_erase (h.eds.int j) (hyi j (hplain.2.2.1 j hj)) (hint j hj) _

/-- The ED is taken out of the list that its information names; only one that was dropped from the
control list is not found. -/
theorem OhciInv.unlinkAny_spec (h : OhciInv s g) (hr : g.edRole u = some r)
    (hne : ∀ k, r ≠ .head k) : ∃ found s', unlinkAny s u = .ok (found, s') ∧
      (found = false → r = .control ∧ u ∉ g.control) ∧ Relinked s s' ∧ EdsOk s' (g.drop u) := by
  cases r with
  | head k => exact absurd rfl (hne k)
  | control =>
    obtain ⟨s', hrun, hs', heds⟩ := h.unlink_control hr
    exact ⟨_, s', hrun, fun hno => ⟨rfl, of_decide_eq_false hno⟩, hs', heds⟩
  | bulk =>
    obtain ⟨s', hrun, hs', heds⟩ := h.unlink_bulk hr
    exact ⟨true, s', hrun, by rintro ⟨⟩, hs', heds⟩
  | int k =>
    obtain ⟨s', hrun, hs', heds⟩ := h.unlink_periodic hr (.inl rfl)
    exact ⟨true, s', hrun, by rintro ⟨⟩, hs', heds⟩
  | iso k =>
    obtain ⟨s', hrun, hs', heds⟩ := h.unlink_periodic hr (.inr rfl)
    exact ⟨true, s', hrun, by rintro ⟨⟩, hs', heds⟩

/-! ## What the TDs tell their requests -/

/-- A request with one TD less that was not worked on. Reference: `_ohci.c_:1130 remove_ed`. -/
def Utr.abortTd (q : Utr) : Utr :=
  if q.tdCnt - 1 = 0 then { q.tdOff with status := USBH_ERR_ABORT } else q.tdOff

/-- The request of the TD is there. -/
def Ohci.Named (s : Ohci) (t : Unit64) : Prop := ∃ v q, (s.td t).utr = some v ∧ s.utr v = some q

/-- The TDs are freed, and each request has lost those of its own. -/
theorem removeTds_spec {p : Option Unit64} {n : Nat} (h : Chain s.nextTD p ts) (hn : ts.length ≤ n)
    (hutr : ∀ t ∈ ts, s.Named t) : ∃ s', removeTds n p s = .ok s' ∧
      s' = { s.freeTds ts with utr := s'.utr } ∧
      ∀ v, s'.utr v = (s.utr v).map (Utr.abortTd^[ts.countP fun t => (s.td t).utr = some v]) := by
  induction ts generalizing p n s with
  | nil =>
    cases h
    refine ⟨s, by cases n <;> rfl, rfl, fun v => ?_⟩
    rw [List.countP_nil, Function.iterate_zero, Option.map_id]
    rfl
  | cons t ts ih =>
    obtain ⟨rfl, hts⟩ := h
    obtain ⟨v, q, hv, hq⟩ := hutr t (.head _)
    cases n with
    | zero => cases hn
    | succ n =>
      have hnext : ((s.free t).setUtr v q.abortTd).nextTD = s.nextTD := rfl
      obtain ⟨s', hrun, hs', hall⟩ := @ih ((s.free t).setUtr v q.abortTd) (s.td t).nextTD n
        (by rw [hnext]; exact hts) (Nat.le_of_succ_le_succ hn) (fun t' ht' => by
          obtain ⟨v', q', hv', hq'⟩ := hutr t' (.tail _ ht')
          refine ⟨v', if v' = v then q.abortTd else q', hv', ?_⟩
          change Function.update s.utr v (some q.abortTd) v' = _
          rw [Function.update_apply]
          split
          · rfl
          · exact hq')
      refine ⟨s', ?_, ?_, fun v' => ?_⟩
      · rw [removeTds]
        simp only [hv, hq]
        exact hrun
      · rw [hs', freeTds_eq, freeTds_eq]
        simp only [Ohci.setUtr, Ohci.free, List.foldl_cons]
        congr 1
        funext w
        by_cases hw : w ∈ ts
        · simp [hw]
        · by_cases hwt : w = t <;> simp [hw, hwt]
      · rw [hall v']
        change (Function.update s.utr v (some q.abortTd) v').map _ = _
        have hcount : (t :: ts).countP (fun t => (s.td t).utr = some v') =
            ts.countP (fun t => (s.td t).utr = some v') + if v = v' then 1 else 0 := by
          rw [List.countP_cons, hv]
          simp
        rw [hcount]
        by_cases hvv : v' = v
        · subst hvv
          rw [Function.update_self, hq, if_pos rfl]
          simp only [Option.map_some, Function.iterate_succ_apply]
          rfl
        · rw [Function.update_of_ne hvv, if_neg (Ne.symm hvv)]
          rfl

/-! ## The ED is removed -/

/-- The state after the removal of the first ED of the remove list, whose TDs were freed where it was
found. -/
structure RemovedEd (s s' : Ohci) (g : OhciLists) (u : Unit64) (gone : List Unit64) : Prop where
  eds : EdsOk s' (g.drop u)
  ed : ∀ w, s'.ed w = { s.ed w with nextED := s'.nextED w }
  freed : gone = g.tds u ∨ gone = [] ∧ g.edRole u = some .control ∧ u ∉ g.control
  utr : ∀ v, s'.utr v = (s.utr v).map (Utr.abortTd^[gone.countP fun t => (s.td t).utr = some v])
  rest : s' = { (s.freeTds gone).free u with
    ed := s'.ed
    controlHead := s'.controlHead
    bulkHead := s'.bulkHead
    utr := s'.utr
    edRemoveList := s.edRemoveList.tail }

theorem OhciInv.removeEd_spec (h : OhciInv s g) (hr : g.edRole u = some r) (hne : ∀ k, r ≠ .head k)
    (hutr : ∀ t ∈ g.tds u, s.Named t) :
    ∃ s' gone, removeEd s u = .ok s' ∧ RemovedEd s s' g u gone := by
  obtain ⟨found, s₁, hrun, hfound, hlink, heds⟩ := h.unlinkAny_spec hr hne
  have hhead : (s₁.ed u).headP = (s.ed u).headP := by rw [hlink.ed u]
  have htd : s₁.td = s.td := by rw [hlink.rest]
  rw [removeEd, hrun]
  cases found with
  | false =>
    obtain ⟨rfl, hmem⟩ := hfound rfl
    refine ⟨_, [], rfl, heds.congr (fun _ _ _ => rfl) rfl rfl rfl, hlink.ed, .inr ⟨rfl, hr, hmem⟩,
      fun v => ?_, ?_⟩
    · change s₁.utr v = _
      rw [hlink.rest]
      cases s.utr v <;> rfl
    · rw [hlink.rest]
      rfl
  | true =>
    have hchain : Chain s₁.nextTD (s.ed u).headP (g.tds u) := by
      refine (h.tds.chain u r hr).congr fun t _ => ?_
      rw [Ohci.nextTD, htd]
      rfl
    obtain ⟨s₂, hfree, hs₂, hall⟩ := removeTds_spec hchain (Chain.length_le hchain) fun t ht => by
      obtain ⟨v, q, hv, hq⟩ := hutr t ht
      refine ⟨v, q, by rw [htd]; exact hv, ?_⟩
      rw [hlink.rest]
      exact hq
    have hed : s₂.ed = s₁.ed := by
      rw [hs₂, freeTds_eq]
    have hsome : removeTds MEM_POOL_UNIT_NUM (s₁.ed u).headP s₁ = .ok s₂ := by
      rw [hhead]
      exact hfree
    refine ⟨({ s₂ with edRemoveList := s₂.edRemoveList.tail } : Ohci).free u, g.tds u, ?_, ?_, ?_,
      .inl rfl, fun v => ?_, ?_⟩
    · simp only [bind, Except.bind, if_true, hsome]
    · refine heds.congr (fun w _ _ => ?_) ?_ ?_ ?_
      · change (s₂.ed w).nextED = (s₁.ed w).nextED
        rw [hed]
      · change s₂.ied = s₁.ied
        rw [hs₂, freeTds_eq]
      · change s₂.controlHead = s₁.controlHead
        rw [hs₂, freeTds_eq]
      · change s₂.bulkHead = s₁.bulkHead
        rw [hs₂, freeTds_eq]
    · intro w
      change s₂.ed w = { s.ed w with nextED := (s₂.ed w).nextED }
      rw [hed]
      exact hlink.ed w
    · change s₂.utr v = _
      have hutr₁ : s₁.utr = s.utr := by rw [hlink.rest]
      rw [hall v, htd, hutr₁]
    · rw [hs₂, freeTds_eq, hlink.rest, freeTds_eq]
      rfl

section

variable {gone rest : List Unit64}

/-- What the removal leaves of the rest of the state. -/
theorem RemovedEd.kept (h : RemovedEd s s' g u gone) :
    (s'.use = fun w => if w = u then none else if w ∈ gone then none else s.use w) ∧
      s'.pool = (gone.foldl MemPool.give s.pool).give u ∧ s'.td = s.td ∧ s'.hwPipe = s.hwPipe ∧
      s'.edRemoveList = s.edRemoveList.tail ∧ s'.doneQueue = s.doneQueue ∧
      s'.sfEnable = s.sfEnable := by
  rw [h.rest, freeTds_eq]
  refine ⟨?_, rfl, rfl, rfl, rfl, rfl, rfl⟩
  funext w
  change Function.update (fun w => if w ∈ gone then none else s.use w) u none w = _
  rw [Function.update_apply]

/-- The TDs that are freed were the ED's. -/
theorem RemovedEd.mem_gone (h : RemovedEd s s' g u gone) (ht : t ∈ gone) : t ∈ g.tds u := by
  rcases h.freed with rfl | ⟨rfl, -⟩
  · exact ht
  · cases ht

/-- The lists without the ED. -/
theorem OhciInv.remove (h : OhciInv s g) (hr : g.edRole u = some r) (hgone : RemovedEd s s' g u gone)
    (hlist : s.edRemoveList = u :: rest) : OhciInv s' (g.drop u) := by
  obtain ⟨huse, hpool, htd, hpipe, hremove, hdone, -⟩ := hgone.kept
  have hnext : s'.nextTD = s.nextTD := by
    funext t
    rw [Ohci.nextTD, htd]
    rfl
  have htds : ∀ w, w ≠ u → (g.drop u).tds w = g.tds w := fun w hw => Function.update_of_ne hw ..
  have hgoneRole : ∀ t ∈ gone, g.tdRole t = some (.linked u) :=
    fun t ht => (h.tds.mem u r hr t).1 (hgone.mem_gone ht)
  refine ⟨hgone.eds, ⟨fun w r' hw => ?_, fun w r' hw t => ?_, fun w r' hw => ?_, fun t => ?_, ?_,
    fun t w ht => ?_⟩, ⟨?_, fun w => ?_, fun t ht => ?_⟩, ⟨fun e w hw => ?_, ?_, ?_, fun w hw => ?_,
    fun w r' hw => ?_⟩⟩
  · obtain ⟨hwu, hw⟩ := OhciLists.drop_edRole.1 hw
    rw [htds w hwu, hgone.ed w, hnext]
    exact h.tds.chain w r' hw
  · obtain ⟨hwu, hw⟩ := OhciLists.drop_edRole.1 hw
    rw [htds w hwu, OhciLists.drop_tdRole, h.tds.mem w r' hw]
    refine (and_iff_right ?_).symm
    rintro ⟨⟩
    exact hwu rfl
  · obtain ⟨hwu, hw⟩ := OhciLists.drop_edRole.1 hw
    rw [htds w hwu, hgone.ed w]
    exact h.tds.tail w r' hw
  · rw [hdone, OhciLists.drop_tdRole, h.tds.retired]
    refine (and_iff_right ?_).symm
    rintro ⟨⟩
  · rw [hdone]
    exact h.tds.nodup
  · obtain ⟨hne, ht⟩ := OhciLists.drop_tdRole.1 ht
    obtain ⟨r', hr'⟩ := Option.isSome_iff_exists.1 (h.tds.owner t w ht)
    refine Option.isSome_iff_exists.2 ⟨r', OhciLists.drop_edRole.2 ⟨?_, hr'⟩⟩
    rintro rfl
    exact hne rfl
  · intro w
    rw [hpool, MemPool.give_unitUsed, MemPool.gives_unitUsed, huse]
    dsimp only
    by_cases hw : w = u
    · rw [if_pos hw, if_pos hw]
      rfl
    · rw [if_neg hw, if_neg hw, h.used.used w]
      by_cases hmem : w ∈ gone <;> simp [hmem]
  · rw [huse]
    dsimp only
    by_cases hw : w = u
    · rw [if_pos hw, hw]
      exact iff_of_false (by rintro ⟨⟩) (by simp [OhciLists.drop])
    · have hrole : (g.drop u).edRole w = g.edRole w := Function.update_of_ne hw ..
      rw [if_neg hw, hrole, ← h.used.ed w]
      by_cases hmem : w ∈ gone
      · rw [if_pos hmem, h.use_td (hgoneRole w hmem)]
        exact iff_of_false (by rintro ⟨⟩) (by rintro ⟨⟩)
      · rw [if_neg hmem]
  · obtain ⟨r', hr'⟩ := Option.isSome_iff_exists.1 ht
    obtain ⟨hne, ht⟩ := OhciLists.drop_tdRole.1 hr'
    have htu := h.use_td ht
    have hw : t ≠ u := by
      rintro rfl
      rw [h.use_ed hr] at htu
      cases htu
    have hmem : t ∉ gone := by
      intro hmem
      rw [hgoneRole t hmem] at ht
      exact hne (Option.some.inj ht).symm
    rw [huse]
    dsimp only
    rw [if_neg hw, if_neg hmem, htu]
  · rw [hpipe] at hw
    obtain ⟨hun, r', hr', hserves⟩ := h.pipes.pipe e w hw
    rw [hlist] at hun
    rw [hremove, hlist]
    refine ⟨fun hmem => hun (.tail _ hmem), r', OhciLists.drop_edRole.2 ⟨?_, hr'⟩, hserves⟩
    rintro rfl
    exact hun (.head _)
  · rw [hpipe]
    exact h.pipes.inj
  · have hnd := h.pipes.nodup
    rw [hlist] at hnd
    rw [hremove, hlist]
    exact (List.nodup_cons.1 hnd).2
  · have hnd := h.pipes.nodup
    rw [hlist] at hnd
    rw [hremove, hlist] at hw
    obtain ⟨hskip, r', hr', hne⟩ := h.pipes.remove w (by rw [hlist]; exact .tail _ hw)
    rw [hgone.ed w]
    refine ⟨hskip, r', OhciLists.drop_edRole.2 ⟨?_, hr'⟩, hne⟩
    rintro rfl
    exact (List.nodup_cons.1 hnd).1 hw
  · obtain ⟨-, hw⟩ := OhciLists.drop_edRole.1 hw
    have hfits := h.pipes.info w r' hw
    rw [hgone.ed w]
    cases r' <;> exact hfits

end

end

end NumakerMA35D1.UsbHost

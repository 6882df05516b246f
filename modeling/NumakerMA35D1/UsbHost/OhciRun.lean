import NumakerMA35D1.UsbHost.OhciRemove
import NumakerMA35D1.Lib.Run

/-!
# Runs of the OHCI driver

Submissions, cancellations, the controller's progress on the lists, its done queue in any order, starts
of frame and the traffic of the other controller's driver on the pool, in any order. `OhciSound` is what
all of them keep (`OhciSound.step`, `ohci_sound`): the pointers make up lists (`OhciInv`), and every
request has one TD at least in the lists or in the done queue for each that it counts.

Control transfers are made one at a time (`CtrlIdle`): each makes its ED the whole control list, so one
that is submitted while another is under way drops that one.

Reference: `_ohci.c_`.
-/

namespace NumakerMA35D1.UsbHost

open Embedded

/-! ## Requests -/

/-- A request that counts TDs was not called yet, one that counts none was called once. -/
def Utr.Counted (q : Utr) : Prop :=
  q.calls = 0 ∧ 0 < q.tdCnt ∧ q.bIsTransferDone = false ∨
    q.calls = 1 ∧ q.tdCnt ≤ 0 ∧ q.bIsTransferDone = true

section

variable {q : Utr} {td : Td} {bInterval : BitVec 8}

theorem Utr.Counted.tdOff (h : q.Counted) : q.tdOff.Counted ∧ q.tdOff.tdCnt = q.tdCnt - 1 := by
  rw [Utr.tdOff]
  split
  · rename_i hzero
    refine ⟨.inr ⟨?_, hzero.le, rfl⟩, rfl⟩
    rcases h with ⟨hcalls, -, -⟩ | ⟨-, hcnt, -⟩
    · exact congrArg (· + 1) hcalls
    · omega
  · rename_i hne
    refine ⟨?_, rfl⟩
    rcases h with ⟨hcalls, hcnt, hdone⟩ | ⟨hcalls, hcnt, hdone⟩
    · refine .inl ⟨hcalls, ?_, hdone⟩
      change 0 < q.tdCnt - 1
      omega
    · refine .inr ⟨hcalls, ?_, hdone⟩
      change q.tdCnt - 1 ≤ 0
      omega

theorem Utr.Counted.abortTd (h : q.Counted) : q.abortTd.Counted ∧ q.abortTd.tdCnt = q.tdCnt - 1 := by
  rw [Utr.abortTd]
  split
  · exact h.tdOff
  · exact h.tdOff

theorem Utr.Counted.aborts (h : q.Counted) (n : Nat) :
    (Utr.abortTd^[n] q).Counted ∧ (Utr.abortTd^[n] q).tdCnt = q.tdCnt - n := by
  induction n with
  | zero => exact ⟨h, by simp⟩
  | succ n ih =>
    rw [Function.iterate_succ_apply']
    obtain ⟨hc, hcnt⟩ := ih.1.abortTd
    refine ⟨hc, ?_⟩
    rw [hcnt, ih.2]
    push_cast
    ring

/-- What a TD tells its request does not change the count. -/
theorem Utr.Counted.generalDone (h : q.Counted) :
    (q.generalDone td).Counted ∧ (q.generalDone td).tdCnt = q.tdCnt := by
  rw [Utr.generalDone]
  split <;> split <;> exact ⟨h, rfl⟩

theorem Utr.Counted.isoDone (h : q.Counted) :
    (q.isoDone td bInterval).Counted ∧ (q.isoDone td bInterval).tdCnt = q.tdCnt := by
  rw [Utr.isoDone]
  split
  · dsimp only
    split
    · exact ⟨h, rfl⟩
    · split <;> exact ⟨h, rfl⟩
  · exact ⟨h, rfl⟩

end

/-! ## TDs that wait -/

open Classical in
/-- The TDs of a request at EDs, before their tails, and in the done queue. -/
noncomputable def OhciLists.left (g : OhciLists) (s : Ohci) (v : Nat) : Nat :=
  (Finset.univ.filter fun t => g.Pending s t ∧ (s.td t).utr = some v).card

section

variable {s s' : Ohci} {g g' : OhciLists} {u t : Unit64} {v : Nat} {gone added : List Unit64}

/-- No more TDs are lost than are gone. -/
theorem OhciLists.left_le (hpend : ∀ t, g.Pending s t → g'.Pending s' t ∨ t ∈ gone)
    (hutr : ∀ t, g.Pending s t → (s'.td t).utr = (s.td t).utr) (v : Nat) :
    g.left s v ≤ g'.left s' v + gone.countP fun t => (s.td t).utr = some v := by
  classical
  rw [OhciLists.left, OhciLists.left, List.countP_eq_length_filter]
  refine le_trans (Finset.card_le_card (t := (Finset.univ.filter fun t =>
    g'.Pending s' t ∧ (s'.td t).utr = some v) ∪
      (gone.filter fun t => (s.td t).utr = some v).toFinset) ?_) ?_
  · intro t ht
    obtain ⟨hp, hv⟩ := (Finset.mem_filter.1 ht).2
    rw [Finset.mem_union, List.mem_toFinset, List.mem_filter]
    rcases hpend t hp with hp' | hgone
    · exact .inl (Finset.mem_filter.2 ⟨Finset.mem_univ t, hp', (hutr t hp).trans hv⟩)
    · exact .inr ⟨hgone, decide_eq_true hv⟩
  · refine le_trans (Finset.card_union_le _ _) (Nat.add_le_add_left (List.toFinset_card_le _) _)

theorem OhciLists.left_mono (hpend : ∀ t, g.Pending s t → g'.Pending s' t)
    (hutr : ∀ t, g.Pending s t → (s'.td t).utr = (s.td t).utr) (v : Nat) :
    g.left s v ≤ g'.left s' v :=
  @left_le s s' g g' [] (fun t ht => .inl (hpend t ht)) hutr v

/-- The TDs added are among those that wait. -/
theorem OhciLists.length_le_left (hnd : added.Nodup)
    (hadded : ∀ t ∈ added, g.Pending s t ∧ (s.td t).utr = some v) : added.length ≤ g.left s v := by
  classical
  rw [OhciLists.left, ← List.toFinset_card_of_nodup hnd]
  refine Finset.card_le_card fun t ht => ?_
  exact Finset.mem_filter.2 ⟨Finset.mem_univ t, hadded t (List.mem_toFinset.1 ht)⟩

/-- A request without TDs has none left. -/
theorem OhciLists.left_eq_zero (h : ∀ t, g.Pending s t → (s.td t).utr ≠ some v) : g.left s v = 0 := by
  classical
  rw [OhciLists.left, Finset.card_eq_zero, Finset.filter_eq_empty_iff]
  rintro t - ⟨hp, hv⟩
  exact h t hp hv

end

/-! ## What every step keeps -/

/-- The lists, and what waits in them. -/
structure OhciSound (s : Ohci) (g : OhciLists) : Prop where
  inv : OhciInv s g
  named : ∀ t r, g.tdRole t = some r → s.Named t
  placed : ∀ t, g.Pending s t → (s.td t).ed.isSome
  counted : ∀ v q, s.utr v = some q → q.Counted ∧ q.tdCnt ≤ g.left s v
  control : ∀ u, g.edRole u = some .control → g.tds u ≠ [] → u ∈ g.control

section

variable {E : Endpoints} {s s' : Ohci} {g g' : OhciLists} {u w t ed : Unit64} {r : EdRole} {v : Nat}
  {q : Utr} {e : EpRef} {info : BitVec 32} {added gone : List Unit64} {bytes : List TdBytes}

/-- Counts are kept where no request changes and no TD that waits is lost. -/
theorem OhciSound.counted_same (h : OhciSound s g) (hutr : s'.utr = s.utr)
    (hpend : ∀ t, g.Pending s t → g'.Pending s' t)
    (htd : ∀ t, g.Pending s t → (s'.td t).utr = (s.td t).utr) (hq : s'.utr v = some q) :
    q.Counted ∧ q.tdCnt ≤ g'.left s' v := by
  rw [hutr] at hq
  obtain ⟨hc, hle⟩ := h.counted v q hq
  have hleft := OhciLists.left_mono hpend htd v
  exact ⟨hc, by omega⟩

/-- What waits has a place. -/
theorem OhciLists.Pending.role (h : g.Pending s t) : ∃ r, g.tdRole t = some r := by
  rcases h with hr | ⟨w, hr, -⟩
  · exact ⟨_, hr⟩
  · exact ⟨_, hr⟩

/-- Only what the driver took matters. -/
theorem OhciSound.frame (h : OhciSound s g) (hs : SameLists s s') (hutr : s'.utr = s.utr) :
    OhciSound s' g := by
  have htd : ∀ t r, g.tdRole t = some r → s'.td t = s.td t :=
    fun t r hr => hs.td t (h.inv.use_td hr)
  have hpend : ∀ t, g.Pending s' t ↔ g.Pending s t := by
    intro t
    refine or_congr_right (exists_congr fun w => and_congr_right fun hr => ?_)
    obtain ⟨r', hr'⟩ := Option.isSome_iff_exists.1 (h.inv.tds.owner t w hr)
    rw [hs.ed w (h.inv.use_ed hr')]
  refine ⟨h.inv.frame hs, fun t r hr => ?_, fun t hp => ?_, fun v q hq => ?_, h.control⟩
  · obtain ⟨v, q, hv, hq⟩ := h.named t r hr
    refine ⟨v, q, ?_, ?_⟩
    · rw [htd t r hr]
      exact hv
    · rw [hutr]
      exact hq
  · have hp := (hpend t).1 hp
    obtain ⟨r, hr⟩ := hp.role
    rw [htd t r hr]
    exact h.placed t hp
  · refine h.counted_same hutr (fun t => (hpend t).2) (fun t hp => ?_) hq
    obtain ⟨r, hr⟩ := hp.role
    rw [htd t r hr]

/-! ## Submissions -/

/-- No ED of an endpoint zero has a TD: control transfers are made one after another. -/
def CtrlIdle (s : Ohci) : Prop :=
  ∀ u, s.use u = some .ed → (s.ed u).info &&& ED_EP_ADDR_Msk = 0 → (s.ed u).headP = none

/-- An idle ED of the control list has no TDs. -/
theorem OhciInv.control_idle (h : OhciInv s g) (hidle : CtrlIdle s) (hr : g.edRole u = some .control) :
    g.tds u = [] := by
  have hchain := h.tds.chain u _ hr
  rw [hidle u (h.use_ed hr) (h.pipes.info u _ hr)] at hchain
  cases htds : g.tds u with
  | nil => rfl
  | cons t ts =>
    rw [htds] at hchain
    cases hchain.1

/-- The TDs that get a place had none, or were the ED's. -/
theorem Placed.fresh_role {ts new : List Unit64} (hp : Placed s s' g g' e ed r ts new)
    (h : OhciInv s g) (ht : t ∈ ts) : g.tdRole t = none ∨ g.tdRole t = some (.linked ed) := by
  refine (hp.fresh t ht).imp_left fun hmem => h.tdRole_none ?_
  rw [(hp.newFree t hmem).2]
  rintro ⟨⟩

/-- What waits after a submission waited before, or is the submission's. -/
theorem Accepted.pending_iff (hacc : Accepted s s' g g' v q e ed r info added bytes) (h : OhciInv s g)
    (hnone : r = .control → ∀ t, g.tdRole t ≠ some (.linked ed)) :
    g'.Pending s' t ↔ t ∈ added ∨ g.Pending s t := by
  obtain ⟨ts, new, hplaced, hts, -⟩ := hacc.placed
  have hfresh : ∀ t ∈ ts, g.tdRole t = none ∨ g.tdRole t = some (.linked ed) := fun t ht =>
    hplaced.fresh_role h ht
  have hother : ∀ w, w ≠ ed → (g'.tdRole t = some (.linked w) ↔ g.tdRole t = some (.linked w)) := by
    intro w hw
    refine hplaced.puts.tdRole_other hfresh ?_
    rintro ⟨⟩
    exact hw rfl
  have htailP : ∀ w, w ≠ ed → g.tdRole t = some (.linked w) → (s'.ed w).tailP = (s.ed w).tailP := by
    intro w hw hr
    obtain ⟨r', hr'⟩ := Option.isSome_iff_exists.1 (h.tds.owner t w hr)
    rw [hplaced.edKept w r' hr' hw]
  constructor
  · rintro (hr | ⟨w, hr, hne⟩)
    · exact .inr (.inl ((hplaced.puts.tdRole_other hfresh (by rintro ⟨⟩)).1 hr))
    · by_cases hw : w = ed
      · subst hw
        refine ((hts t).1 ⟨hplaced.puts.tdRole_self.1 hr, hne⟩).imp_right ?_
        rintro ⟨-, hr, htail⟩
        exact .inr ⟨w, hr, htail⟩
      · have hr := (hother w hw).1 hr
        rw [htailP w hw hr] at hne
        exact .inr (.inr ⟨w, hr, hne⟩)
  · rintro (hin | hr | ⟨w, hr, hne⟩)
    · obtain ⟨hmem, htail⟩ := (hts t).2 (.inl hin)
      exact .inr ⟨ed, hplaced.puts.tdRole_self.2 hmem, htail⟩
    · exact .inl ((hplaced.puts.tdRole_other hfresh (by rintro ⟨⟩)).2 hr)
    · by_cases hw : w = ed
      · subst hw
        obtain ⟨hmem, htail⟩ := (hts t).2 (.inr ⟨fun hctl => hnone hctl t hr, hr, hne⟩)
        exact .inr ⟨w, hplaced.puts.tdRole_self.2 hmem, htail⟩
      · refine .inr ⟨w, (hother w hw).2 hr, ?_⟩
        rw [htailP w hw hr]
        exact hne

theorem OhciSound.accepted (h : OhciSound s g) (hnew : s.utr v = none) (hdone : q.bIsTransferDone = false)
    (hcalls : q.calls = 0) (hidle : r = .control → CtrlIdle s)
    (hacc : Accepted s s' g g' v q e ed r info added bytes) : OhciSound s' g' := by
  obtain ⟨ts, new, hplaced, hts, hadded⟩ := hacc.placed
  obtain ⟨q', hutr, hep, hcnt, hdone', hcalls'⟩ := hacc.utr
  have hinv := hplaced.inv h.inv
  have hnone : r = .control → ∀ t, g.tdRole t ≠ some (.linked ed) := by
    intro hctl t ht
    rcases hplaced.role with hno | hr
    · have howner := h.inv.tds.owner t ed ht
      rw [hno] at howner
      cases howner
    · rw [hctl] at hr
      have hmem := (h.inv.tds.mem ed _ hr t).2 ht
      rw [h.inv.control_idle (hidle hctl) hr] at hmem
      cases hmem
  have hfresh : ∀ t ∈ ts, g.tdRole t = none ∨ g.tdRole t = some (.linked ed) := fun t ht =>
    hplaced.fresh_role h.inv ht
  have hpend : ∀ t, g'.Pending s' t ↔ t ∈ added ∨ g.Pending s t := fun t =>
    hacc.pending_iff h.inv hnone
  have hself : s'.utr v = some q' := by rw [hutr, Function.update_self]
  have hother : ∀ v' q₀, s.utr v' = some q₀ → v' ≠ v ∧ s'.utr v' = some q₀ := by
    intro v' q₀ hq₀
    have hne : v' ≠ v := by
      rintro rfl
      rw [hnew] at hq₀
      cases hq₀
    refine ⟨hne, ?_⟩
    rw [hutr, Function.update_of_ne hne, hq₀]
  have hkeep : ∀ t r₀, g.tdRole t = some r₀ → (s'.td t).utr = (s.td t).utr → s'.Named t := by
    intro t r₀ hr hsame
    obtain ⟨v₀, q₀, hv₀, hq₀⟩ := h.named t r₀ hr
    exact ⟨v₀, q₀, hsame.trans hv₀, (hother v₀ q₀ hq₀).2⟩
  refine ⟨hinv, fun t r' hr' => ?_, fun t hp => ?_, fun v' q₀ hq₀ => ?_, fun w hw hne => ?_⟩
  · by_cases hmem : t ∈ ts
    · by_cases htail : (s'.ed ed).tailP = some t
      · exact ⟨v, q', hacc.dummy t htail, hself⟩
      · rcases (hts t).1 ⟨hmem, htail⟩ with hin | ⟨-, hr, hne⟩
        · exact ⟨v, q', (hacc.owned t hin).1, hself⟩
        · exact hkeep t _ hr (hacc.kept t (.inr ⟨ed, hr, hne⟩)).1
    · have hne : r' ≠ .linked ed := by
        rintro rfl
        exact hmem (hplaced.puts.tdRole_self.1 hr')
      have hr := (hplaced.puts.tdRole_other hfresh hne).1 hr'
      exact hkeep t r' hr (by rw [hplaced.tdKept t r' hr hne])
  · rcases (hpend t).1 hp with hin | hp
    · rw [(hacc.owned t hin).2]
      rfl
    · rw [(hacc.kept t hp).2]
      exact h.placed t hp
  · have hpos : 0 < added.length := List.length_pos_iff.2 hacc.ne_nil
    by_cases hv : v' = v
    · subst hv
      rw [hself] at hq₀
      cases hq₀
      refine ⟨.inl ⟨hcalls'.trans hcalls, by omega, hdone'.trans hdone⟩, ?_⟩
      rw [hcnt]
      exact_mod_cast OhciLists.length_le_left hacc.nodup fun t ht =>
        ⟨(hpend t).2 (.inl ht), (hacc.owned t ht).1⟩
    · have hq₀ : s.utr v' = some q₀ := by
        rw [← hq₀, hutr, Function.update_of_ne hv]
      obtain ⟨hc, hle⟩ := h.counted v' q₀ hq₀
      have hleft := OhciLists.left_mono (fun t ht => (hpend t).2 (.inr ht)) (fun t ht => (hacc.kept t ht).1) v'
      exact ⟨hc, by omega⟩
  · rw [hplaced.control]
    by_cases hwe : w = ed
    · subst hwe
      rw [hplaced.puts.edRole_self] at hw
      rw [if_pos (Option.some.inj hw)]
      exact .head _
    · rw [hplaced.puts.edRole_of_ne hwe] at hw
      rw [hplaced.puts.tds_of_ne hwe] at hne
      by_cases hctl : r = .control
      · exact absurd (h.inv.control_idle (hidle hctl) hw) hne
      · rw [if_neg hctl]
        exact h.control w hw hne

/-! ## Cancellations -/

theorem or_and_disjoint {x a b : BitVec 32} (h : a &&& b = 0#32) : (x ||| a) &&& b = x &&& b := by
  apply BitVec.eq_of_getLsbD_eq
  intro i hi
  have hbit := congrArg (BitVec.getLsbD · i) h
  simp only [BitVec.getLsbD_and, BitVec.getLsbD_zero] at hbit
  simp only [BitVec.getLsbD_and, BitVec.getLsbD_or, Bool.and_or_distrib_right, hbit, Bool.or_false]

/-- The flag that skips an ED is no part of its endpoint. -/
theorem InfoFits.skip {d : Ed} (h : InfoFits d r) (hne : ∀ k, r ≠ .head k) :
    InfoFits { d with info := d.info ||| ED_SKIP } r := by
  have haddr : (d.info ||| ED_SKIP) &&& ED_EP_ADDR_Msk = d.info &&& ED_EP_ADDR_Msk :=
    or_and_disjoint (by decide)
  have hiso : (d.info ||| ED_SKIP) &&& ED_FORMAT_ISO = d.info &&& ED_FORMAT_ISO :=
    or_and_disjoint (by decide)
  cases r with
  | head k => exact absurd rfl (hne k)
  | control =>
    rw [InfoFits, haddr]
    exact h
  | bulk =>
    rw [InfoFits, haddr]
    exact h
  | int k =>
    rw [InfoFits, haddr, hiso]
    exact h
  | iso k =>
    rw [InfoFits, haddr, hiso]
    exact h

theorem EdRole.Serves.plain (h : r.Serves e) : ∀ k, r ≠ .head k := by
  rintro k rfl
  exact h

/-- What the cancellation of an endpoint leaves. -/
structure QuitEp (s s' : Ohci) (e : EpRef) (u : Unit64) : Prop where
  rest : s' = { s with
    ed := s'.ed
    edRemoveList := u :: s.edRemoveList
    sfEnable := true
    hwPipe := Function.update s.hwPipe e none }
  self : s'.ed u = { s.ed u with info := (s.ed u).info ||| ED_SKIP }
  other : ∀ w, w ≠ u → s'.ed w = s.ed w

theorem quitEp_quits (hun : u ∉ s.edRemoveList) : QuitEp s (quitEp s e u) e u := by
  have heq : quitEp s e u = { s with
      ed := Function.update s.ed u { s.ed u with info := (s.ed u).info ||| ED_SKIP }
      edRemoveList := u :: s.edRemoveList
      sfEnable := true
      hwPipe := Function.update s.hwPipe e none } := by
    rw [quitEp, addToEdRemoveList, if_neg hun]
    rfl
  rw [heq]
  exact ⟨rfl, Function.update_self .., fun w hw => Function.update_of_ne hw ..⟩

/-- Of an ED only the information changes. -/
theorem QuitEp.ed_eq (hquit : QuitEp s s' e u) (w : Unit64) :
    s'.ed w = { s.ed w with info := (s'.ed w).info } := by
  by_cases hw : w = u
  · rw [hw, hquit.self]
  · rw [hquit.other w hw]

theorem PipesOk.quitEp (h : PipesOk s g) (hquit : QuitEp s s' e u) (hpipe : s.hwPipe e = some u) :
    PipesOk s' g := by
  obtain ⟨hun, r, hr, hserves⟩ := h.pipe e u hpipe
  have hremove : s'.edRemoveList = u :: s.edRemoveList := by rw [hquit.rest]
  have hpipe' : s'.hwPipe = Function.update s.hwPipe e none := by rw [hquit.rest]
  refine ⟨fun e' w hw => ?_, fun e₁ e₂ w h₁ h₂ => ?_, ?_, fun w hw => ?_, fun w r' hw => ?_⟩
  · rw [hpipe', Function.update_apply] at hw
    split at hw
    · cases hw
    · obtain ⟨hnot, r', hr', hserves'⟩ := h.pipe e' w hw
      rw [hremove]
      refine ⟨fun hmem => ?_, r', hr', hserves'⟩
      rcases List.mem_cons.1 hmem with rfl | hmem
      · exact absurd (h.inj e' e w hw hpipe) ‹_›
      · exact hnot hmem
  · rw [hpipe', Function.update_apply] at h₁ h₂
    split at h₁
    · cases h₁
    · split at h₂
      · cases h₂
      · exact h.inj e₁ e₂ w h₁ h₂
  · rw [hremove]
    exact List.nodup_cons.2 ⟨hun, h.nodup⟩
  · rw [hremove] at hw
    by_cases hwu : w = u
    · subst hwu
      rw [hquit.self]
      refine ⟨?_, r, hr, hserves.plain⟩
      change ((s.ed w).info ||| ED_SKIP) &&& ED_SKIP ≠ 0
      rw [ED_SKIP, Ne, and_bit_eq_zero (by decide)]
      simp
    · obtain ⟨hskip, r', hr', hne⟩ := h.remove w ((List.mem_cons.1 hw).resolve_left hwu)
      rw [hquit.other w hwu]
      exact ⟨hskip, r', hr', hne⟩
  · have hfits := h.info w r' hw
    by_cases hwu : w = u
    · subst hwu
      rw [hr] at hw
      cases hw
      rw [hquit.self]
      exact hfits.skip hserves.plain
    · rw [hquit.other w hwu]
      exact hfits

theorem OhciInv.quitEp (h : OhciInv s g) (hquit : QuitEp s s' e u) (hpipe : s.hwPipe e = some u) :
    OhciInv s' g := by
  have hnext : s'.nextTD = s.nextTD := by rw [hquit.rest]; rfl
  have hdone : s'.doneQueue = s.doneQueue := by rw [hquit.rest]
  have huse : s'.use = s.use := by rw [hquit.rest]
  refine ⟨h.eds.congr (fun w _ _ => ?_) ?_ ?_ ?_,
    ⟨fun w r' hw => ?_, h.tds.mem, fun w r' hw => ?_, ?_, ?_, h.tds.owner⟩,
    ⟨fun w => ?_, fun w => ?_, fun t ht => ?_⟩, h.pipes.quitEp hquit hpipe⟩
  · rw [Ohci.nextED, hquit.ed_eq w]
    rfl
  · rw [hquit.rest]
  · rw [hquit.rest]
  · rw [hquit.rest]
  · rw [hnext, hquit.ed_eq w]
    exact h.tds.chain w r' hw
  · rw [hquit.ed_eq w]
    exact h.tds.tail w r' hw
  · rw [hdone]
    exact h.tds.retired
  · rw [hdone]
    exact h.tds.nodup
  · rw [huse, hquit.rest]
    exact h.used.used w
  · rw [huse]
    exact h.used.ed w
  · rw [huse]
    exact h.used.td t ht

/-- The endpoint's ED is to be removed, and named no more. -/
theorem OhciSound.quitEp (h : OhciSound s g) (hpipe : s.hwPipe e = some u) :
    OhciSound (quitEp s e u) g := by
  have hquit : QuitEp s (UsbHost.quitEp s e u) e u := quitEp_quits (h.inv.pipes.pipe e u hpipe).1
  generalize UsbHost.quitEp s e u = s' at hquit ⊢
  have htd : s'.td = s.td := by rw [hquit.rest]
  have hutr : s'.utr = s.utr := by rw [hquit.rest]
  have hpend : ∀ t, g.Pending s' t ↔ g.Pending s t := by
    intro t
    refine or_congr_right (exists_congr fun w => and_congr_right fun _ => ?_)
    rw [hquit.ed_eq w]
  refine ⟨h.inv.quitEp hquit hpipe, fun t r' ht => ?_, fun t hp => ?_, fun v q hq => ?_, h.control⟩
  · rw [Ohci.Named, htd, hutr]
    exact h.named t r' ht
  · rw [htd]
    exact h.placed t ((hpend t).1 hp)
  · exact h.counted_same hutr (fun t => (hpend t).2) (fun t _ => by rw [htd]) hq

theorem OhciSound.quit (h : OhciSound s g) (utr ep : Option EpRef) :
    OhciSound (ohciQuitXfer s utr ep).2 g := by
  cases utr with
  | none =>
    cases ep with
    | none => exact h
    | some e =>
      cases hpipe : s.hwPipe e with
      | none =>
        have heq : (ohciQuitXfer s none (some e)).2 = s := by simp only [ohciQuitXfer, hpipe]
        rw [heq]
        exact h
      | some ed =>
        have heq : (ohciQuitXfer s none (some e)).2 = UsbHost.quitEp s e ed := by
          simp only [ohciQuitXfer, hpipe]
        rw [heq]
        exact h.quitEp hpipe
  | some e =>
    cases hpipe : s.hwPipe e with
    | none =>
      have heq : (ohciQuitXfer s (some e) ep).2 = s := by simp only [ohciQuitXfer, hpipe]
      rw [heq]
      exact h
    | some ed =>
      have h' := h.quitEp hpipe
      cases ep with
      | none =>
        have heq : (ohciQuitXfer s (some e) none).2 = UsbHost.quitEp s e ed := by
          simp only [ohciQuitXfer, hpipe]
        rw [heq]
        exact h'
      | some e' =>
        cases hpipe' : (UsbHost.quitEp s e ed).hwPipe e' with
        | none =>
          have heq : (ohciQuitXfer s (some e) (some e')).2 = UsbHost.quitEp s e ed := by
            simp only [ohciQuitXfer, hpipe, hpipe']
          rw [heq]
          exact h'
        | some ed' =>
          have heq : (ohciQuitXfer s (some e) (some e')).2 =
              UsbHost.quitEp (UsbHost.quitEp s e ed) e' ed' := by
            simp only [ohciQuitXfer, hpipe, hpipe']
          rw [heq]
          exact h'.quitEp hpipe'

/-! ## The controller -/

/-- The controller comes to EDs of the lists. -/
theorem OhciInv.linked_role (h : OhciInv s g) (hl : s.Linked u) : ∃ r, g.edRole u = some r := by
  rcases hl with hc | hb | ⟨k, hi⟩
  · exact ⟨_, h.eds.mem_control u (h.eds.control.reaches_iff.1 hc)⟩
  · exact ⟨_, (h.eds.mem_bulk u).1 (h.eds.bulk.reaches_iff.1 hb)⟩
  · obtain ⟨j, -, rfl | hj⟩ := (mem_treeFrom k.val k.isLt).1 ((h.eds.tree k.val k.isLt).reaches_iff.1 hi)
    · exact ⟨_, h.eds.head j⟩
    · obtain ⟨r, hr, -⟩ := (h.eds.mem_int j u).1 hj
      exact ⟨r, hr⟩

/-- The lists after the first TD of an ED went to the done queue. -/
def OhciLists.retire (g : OhciLists) (u x : Unit64) (ts : List Unit64) : OhciLists :=
  { g with
    tdRole := Function.update g.tdRole x (some .retired)
    tds := Function.update g.tds u ts }

section

variable {x : Unit64} {ts : List Unit64}

theorem OhciLists.retire_tdRole (ht : t ≠ x) : (g.retire u x ts).tdRole t = g.tdRole t :=
  Function.update_of_ne ht ..

theorem OhciLists.retire_tdRole_self : (g.retire u x ts).tdRole x = some .retired :=
  Function.update_self ..

/-- What the retirement of a TD leaves. -/
structure RetiredTd (s s' : Ohci) (u x : Unit64) : Prop where
  rest : s' = { s with ed := s'.ed, td := s'.td, doneQueue := x :: s.doneQueue }
  td : ∀ t, (s'.td t).nextTD = (s.td t).nextTD ∧ (s'.td t).utr = (s.td t).utr ∧
    (s'.td t).ed = (s.td t).ed
  ed : ∀ w, s'.ed w = { s.ed w with
    headP := if w = u then (s.td x).nextTD else (s.ed w).headP
    toggleCarry := (s'.ed w).toggleCarry
    halted := (s'.ed w).halted }

theorem hcRetire_retired (s : Ohci) (u x : Unit64) (y : Retired) :
    RetiredTd s (hcRetire s u x y) u x where
  rest := rfl
  td t := by
    change (Function.update s.td x _ t).nextTD = _ ∧ (Function.update s.td x _ t).utr = _ ∧
      (Function.update s.td x _ t).ed = _
    by_cases ht : t = x
    · rw [ht, Function.update_self]
      exact ⟨rfl, rfl, rfl⟩
    · rw [Function.update_of_ne ht]
      exact ⟨rfl, rfl, rfl⟩
  ed w := by
    simp only [hcRetire, Ohci.setEd, Ohci.setTd, Function.update_apply]
    by_cases hw : w = u
    · rw [hw]
      simp
    · simp [hw]

/-- The tail still fits when a TD before it is gone. -/
theorem TailFits.tail {p : Option Unit64} (h : TailFits p (x :: ts) r) (htail : p ≠ some x) :
    TailFits p ts r := by
  cases r with
  | int k =>
    obtain ⟨hsome, hlast⟩ := h
    refine ⟨hsome, ?_⟩
    cases ts with
    | nil => exact absurd hlast.symm htail
    | cons y ys =>
      rw [List.getLast?_cons_cons] at hlast
      exact hlast
  | head k => exact h
  | control => exact h
  | bulk => exact h
  | iso k => exact h

theorem TdsOk.tds_of_head (h : TdsOk s g) (hr : g.edRole u = some r) (hhead : (s.ed u).headP = some x) :
    ∃ ts, g.tds u = x :: ts := by
  have hchain := h.chain u r hr
  rw [hhead] at hchain
  cases htds : g.tds u with
  | nil =>
    rw [htds] at hchain
    cases hchain
  | cons y ts =>
    rw [htds] at hchain
    cases hchain.1
    exact ⟨ts, rfl⟩

theorem TdsOk.head_role (h : TdsOk s g) (hr : g.edRole u = some r) (htds : g.tds u = x :: ts) :
    g.tdRole x = some (.linked u) :=
  (h.mem u r hr x).1 (by rw [htds]; exact .head _)

/-- An ED keeps the TDs behind its first, the others keep theirs. -/
theorem TdsOk.mem_retire (h : TdsOk s g) (hr : g.edRole u = some r) (htds : g.tds u = x :: ts)
    {r' : EdRole} (hw : g.edRole w = some r') :
    t ∈ (g.retire u x ts).tds w ↔ (g.retire u x ts).tdRole t = some (.linked w) := by
  change t ∈ Function.update g.tds u ts w ↔ _
  have htu := h.head_role hr htds
  have hold := h.mem w r' hw t
  by_cases ht : t = x
  · subst ht
    rw [OhciLists.retire_tdRole_self]
    refine iff_of_false (fun hmem => ?_) (by rintro ⟨⟩)
    by_cases hwu : w = u
    · subst hwu
      rw [Function.update_self] at hmem
      have hnd := (h.chain w r hr).nodup
      rw [htds] at hnd
      exact (List.nodup_cons.1 hnd).1 hmem
    · rw [Function.update_of_ne hwu] at hmem
      rw [htu] at hold
      cases hold.1 hmem
      exact hwu rfl
  · rw [OhciLists.retire_tdRole ht, ← hold]
    by_cases hwu : w = u
    · subst hwu
      rw [Function.update_self, htds, List.mem_cons]
      exact (or_iff_right ht).symm
    · rw [Function.update_of_ne hwu]

theorem TdsOk.retire (h : TdsOk s g) (hret : RetiredTd s s' u x) (hr : g.edRole u = some r)
    (htail : (s.ed u).tailP ≠ some x) (htds : g.tds u = x :: ts) : TdsOk s' (g.retire u x ts) := by
  have htu := h.head_role hr htds
  have hnext : s'.nextTD = s.nextTD := funext fun t => (hret.td t).1
  have hdone : s'.doneQueue = x :: s.doneQueue := by rw [hret.rest]
  refine ⟨fun w r' hw => ?_, fun w r' hw t => h.mem_retire hr htds hw, fun w r' hw => ?_, fun t => ?_, ?_,
    fun t w ht => ?_⟩
  · have hold := h.chain w r' hw
    rw [hnext, hret.ed w]
    change Chain _ (if w = u then _ else _) (Function.update g.tds u ts w)
    by_cases hwu : w = u
    · subst hwu
      rw [htds] at hold
      obtain ⟨-, hts⟩ := hold
      rw [if_pos rfl, Function.update_self]
      exact hts
    · rw [if_neg hwu, Function.update_of_ne hwu]
      exact hold
  · have hold := h.tail w r' hw
    change TailFits _ (Function.update g.tds u ts w) r'
    rw [hret.ed w]
    by_cases hwu : w = u
    · subst hwu
      rw [htds] at hold
      rw [Function.update_self]
      exact hold.tail htail
    · rw [Function.update_of_ne hwu]
      exact hold
  · rw [hdone, List.mem_cons]
    by_cases ht : t = x
    · subst ht
      exact iff_of_true (.inl rfl) OhciLists.retire_tdRole_self
    · rw [OhciLists.retire_tdRole ht, ← h.retired]
      exact or_iff_right ht
  · rw [hdone]
    refine List.nodup_cons.2 ⟨fun hmem => ?_, h.nodup⟩
    rw [(h.retired x).1 hmem] at htu
    cases htu
  · by_cases htx : t = x
    · subst htx
      rw [OhciLists.retire_tdRole_self] at ht
      cases ht
    · rw [OhciLists.retire_tdRole htx] at ht
      exact h.owner t w ht

/-- A TD of the lists had a place in them before. -/
theorem OhciLists.role_of_retire {r₀ : TdRole} {o : Option TdRole} (hx : g.tdRole x = some r₀)
    (ht : (g.retire u x ts).tdRole t = o) (ho : o.isSome) : ∃ r', g.tdRole t = some r' := by
  by_cases htx : t = x
  · exact ⟨r₀, htx ▸ hx⟩
  · rw [OhciLists.retire_tdRole htx] at ht
    exact Option.isSome_iff_exists.1 (ht ▸ ho)

theorem OhciInv.retire (h : OhciInv s g) (hret : RetiredTd s s' u x) (hr : g.edRole u = some r)
    (htail : (s.ed u).tailP ≠ some x) (htds : g.tds u = x :: ts) :
    OhciInv s' (g.retire u x ts) := by
  have huse : s'.use = s.use := by rw [hret.rest]
  have hpipe : s'.hwPipe = s.hwPipe := by rw [hret.rest]
  have hremove : s'.edRemoveList = s.edRemoveList := by rw [hret.rest]
  refine ⟨h.eds.same rfl ⟨rfl, rfl, rfl⟩ (fun w _ _ => ?_) ?_ ?_ ?_, h.tds.retire hret hr htail htds,
    ⟨fun w => ?_, fun w => ?_, fun t ht => ?_⟩, ⟨?_, ?_, ?_, fun w hw => ?_, fun w r' hw => ?_⟩⟩
  · rw [Ohci.nextED, hret.ed w]
    rfl
  · rw [hret.rest]
  · rw [hret.rest]
  · rw [hret.rest]
  · rw [huse, hret.rest]
    exact h.used.used w
  · rw [huse]
    exact h.used.ed w
  · obtain ⟨r', hr'⟩ := OhciLists.role_of_retire (h.tds.head_role hr htds) rfl ht
    rw [huse]
    exact h.use_td hr'
  · rw [hpipe, hremove]
    exact h.pipes.pipe
  · rw [hpipe]
    exact h.pipes.inj
  · rw [hremove]
    exact h.pipes.nodup
  · rw [hremove] at hw
    rw [hret.ed w]
    exact h.pipes.remove w hw
  · have hfits := h.pipes.info w r' hw
    rw [hret.ed w]
    cases r' <;> exact hfits

/-- The TDs that wait are those that waited. -/
theorem OhciLists.pending_retire (hret : RetiredTd s s' u x) (htu : g.tdRole x = some (.linked u))
    (htail : (s.ed u).tailP ≠ some x) : (g.retire u x ts).Pending s' t ↔ g.Pending s t := by
  by_cases ht : t = x
  · rw [ht]
    exact iff_of_true (.inl OhciLists.retire_tdRole_self) (.inr ⟨u, htu, htail⟩)
  · have hrole := @OhciLists.retire_tdRole g u t x ts ht
    refine or_congr (by rw [hrole]) (exists_congr fun w => and_congr (by rw [hrole]) ?_)
    rw [hret.ed w]

/-- The first TD of an ED goes to the done queue. -/
theorem OhciSound.retire (h : OhciSound s g) (hserves : HcServes s u x) (w : Retired) :
    ∃ g', OhciSound (hcRetire s u x w) g' := by
  obtain ⟨hlinked, -, -, hhead, htail⟩ := hserves
  obtain ⟨r, hr⟩ := h.inv.linked_role hlinked
  have hret := hcRetire_retired s u x w
  generalize hcRetire s u x w = s' at hret ⊢
  obtain ⟨ts, htds⟩ := h.inv.tds.tds_of_head hr hhead
  have htu := h.inv.tds.head_role hr htds
  have hutr : s'.utr = s.utr := by rw [hret.rest]
  have hpend : ∀ t, (g.retire u x ts).Pending s' t ↔ g.Pending s t := fun t =>
    OhciLists.pending_retire hret htu htail
  refine ⟨g.retire u x ts, h.inv.retire hret hr htail htds, fun t r' ht => ?_, fun t hp => ?_,
    fun v q hq => ?_, fun w hw hne => ?_⟩
  · obtain ⟨r₀, hr₀⟩ := OhciLists.role_of_retire htu ht rfl
    obtain ⟨v, q, hv, hq⟩ := h.named t r₀ hr₀
    exact ⟨v, q, (hret.td t).2.1.trans hv, by rw [hutr]; exact hq⟩
  · rw [(hret.td t).2.2]
    exact h.placed t ((hpend t).1 hp)
  · exact h.counted_same hutr (fun t => (hpend t).2) (fun t _ => (hret.td t).2.1) hq
  · refine h.control w hw ?_
    by_cases hwu : w = u
    · subst hwu
      rw [htds]
      exact List.cons_ne_nil _ _
    · have hsame : (g.retire u x ts).tds w = g.tds w := Function.update_of_ne hwu ..
      rw [hsame] at hne
      exact hne

end

/-! ## The done queue -/

/-- A TD tells its request that it was worked on. -/
theorem OhciSound.tdDone (h : OhciSound s g) (hr : g.tdRole t = some .retired) :
    ∃ v q q', (s.td t).utr = some v ∧ s.utr v = some q ∧ tdDone s t = .ok (s.setUtr v q') ∧
      q'.Counted ∧ q'.tdCnt = q.tdCnt - 1 := by
  obtain ⟨v, q, hv, hq⟩ := h.named t _ hr
  obtain ⟨ed, hed⟩ := Option.isSome_iff_exists.1 (h.placed t (.inl hr))
  obtain ⟨hc, -⟩ := h.counted v q hq
  rw [UsbHost.tdDone]
  simp only [hv, hq, hed]
  cases hiso : (s.td t).isIso with
  | true =>
    obtain ⟨hc', hcnt'⟩ := @Utr.Counted.isoDone q (s.td t) (s.ed ed).bInterval hc
    obtain ⟨hc'', hcnt''⟩ := hc'.tdOff
    exact ⟨v, q, _, rfl, hq, if_pos rfl, hc'', by rw [hcnt'', hcnt']⟩
  | false =>
    obtain ⟨hc', hcnt'⟩ := @Utr.Counted.generalDone q (s.td t) hc
    obtain ⟨hc'', hcnt''⟩ := hc'.tdOff
    exact ⟨v, q, _, rfl, hq, if_neg Bool.false_ne_true, hc'', by rw [hcnt'', hcnt']⟩

/-- The lists without a TD. -/
def OhciLists.without (g : OhciLists) (t : Unit64) : OhciLists :=
  { g with tdRole := Function.update g.tdRole t none }

theorem OhciLists.without_tdRole {x : Unit64} {r : TdRole} :
    (g.without t).tdRole x = some r ↔ x ≠ t ∧ g.tdRole x = some r := by
  change Function.update g.tdRole t none x = some r ↔ _
  by_cases hx : x = t
  · rw [hx, Function.update_self]
    exact iff_of_false (by rintro ⟨⟩) fun hn => hn.1 rfl
  · rw [Function.update_of_ne hx]
    exact (and_iff_right hx).symm

/-- What is left when a TD of the done queue is given back. -/
structure ReclaimedTd (s s' : Ohci) (t : Unit64) : Prop where
  rest : s' = { s with
    pool := s.pool.give t
    use := Function.update s.use t none
    utr := s'.utr
    doneQueue := s.doneQueue.erase t }
  ed : s'.ed = s.ed
  td : s'.td = s.td
  use : s'.use = Function.update s.use t none

theorem free_reclaimed (s : Ohci) (v : Nat) (q : Utr) (t : Unit64) :
    ReclaimedTd s (({ s.setUtr v q with doneQueue := s.doneQueue.erase t } : Ohci).free t) t :=
  ⟨rfl, rfl, rfl, rfl⟩

section

variable (hrec : ReclaimedTd s s' t)
include hrec

theorem TdsOk.without (h : TdsOk s g) (hr : g.tdRole t = some .retired) : TdsOk s' (g.without t) := by
  have hnext : s'.nextTD = s.nextTD := by
    funext x
    rw [Ohci.nextTD, hrec.td]
    rfl
  have hdone : s'.doneQueue = s.doneQueue.erase t := by rw [hrec.rest]
  refine ⟨fun w r' hw => ?_, fun w r' hw x => ?_, fun w r' hw => ?_, fun x => ?_, ?_, fun x w hx => ?_⟩
  · rw [hnext, hrec.ed]
    exact h.chain w r' hw
  · rw [OhciLists.without_tdRole, ← h.mem w r' hw]
    refine (and_iff_right_of_imp fun hx => ?_).symm
    rintro rfl
    rw [(h.mem w r' hw x).1 hx] at hr
    cases hr
  · rw [hrec.ed]
    exact h.tail w r' hw
  · rw [hdone, List.Nodup.mem_erase_iff h.nodup, OhciLists.without_tdRole, h.retired]
  · rw [hdone]
    exact h.nodup.erase t
  · exact h.owner x w (OhciLists.without_tdRole.1 hx).2

theorem OhciInv.without (h : OhciInv s g) (hr : g.tdRole t = some .retired) :
    OhciInv s' (g.without t) := by
  have hpipe : s'.hwPipe = s.hwPipe := by rw [hrec.rest]
  have hremove : s'.edRemoveList = s.edRemoveList := by rw [hrec.rest]
  have hpool : s'.pool = s.pool.give t := by rw [hrec.rest]
  refine ⟨h.eds.same rfl ⟨rfl, rfl, rfl⟩ (fun w _ _ => ?_) ?_ ?_ ?_, h.tds.without hrec hr,
    ⟨fun w => ?_, fun w => ?_, fun x hx => ?_⟩, ⟨?_, ?_, ?_, ?_, ?_⟩⟩
  · rw [Ohci.nextED, hrec.ed]
    rfl
  · rw [hrec.rest]
  · rw [hrec.rest]
  · rw [hrec.rest]
  · rw [hpool, MemPool.give_unitUsed, hrec.use, Function.update_apply]
    split
    · rfl
    · exact h.used.used w
  · change _ ↔ (g.edRole w).isSome
    rw [hrec.use, ← h.used.ed w, Function.update_apply]
    split
    · rename_i hw
      rw [hw, h.use_td hr]
      exact iff_of_false (by rintro ⟨⟩) (by rintro ⟨⟩)
    · rfl
  · obtain ⟨r', hr'⟩ := Option.isSome_iff_exists.1 hx
    obtain ⟨hne, hr'⟩ := OhciLists.without_tdRole.1 hr'
    rw [hrec.use, Function.update_of_ne hne]
    exact h.use_td hr'
  · rw [hpipe, hremove]
    exact h.pipes.pipe
  · rw [hpipe]
    exact h.pipes.inj
  · rw [hremove]
    exact h.pipes.nodup
  · rw [hremove, hrec.ed]
    exact h.pipes.remove
  · rw [hrec.ed]
    exact h.pipes.info

/-- The other TDs that waited still wait. -/
theorem OhciLists.pending_without {x : Unit64} :
    (g.without t).Pending s' x ↔ x ≠ t ∧ g.Pending s x := by
  simp only [OhciLists.Pending, OhciLists.without_tdRole, hrec.ed]
  constructor
  · rintro (⟨hx, hr⟩ | ⟨w, ⟨hx, hr⟩, hne⟩)
    · exact ⟨hx, .inl hr⟩
    · exact ⟨hx, .inr ⟨w, hr, hne⟩⟩
  · rintro ⟨hx, hr | ⟨w, hr, hne⟩⟩
    · exact .inl ⟨hx, hr⟩
    · exact .inr ⟨w, ⟨hx, hr⟩, hne⟩

/-- The TD's request waits for one TD less, the others for as many as before. -/
theorem OhciLists.left_without (hv : (s.td t).utr = some v) (w : Nat) :
    g.left s w ≤ (g.without t).left s' w + if w = v then 1 else 0 := by
  have hleft : g.left s w ≤ (g.without t).left s' w + [t].countP fun t => (s.td t).utr = some w := by
    refine OhciLists.left_le (fun x hp => ?_) (fun x _ => by rw [hrec.td]) w
    by_cases hx : x = t
    · exact .inr (List.mem_singleton.2 hx)
    · exact .inl ((OhciLists.pending_without hrec).2 ⟨hx, hp⟩)
  rw [List.countP_singleton, hv] at hleft
  by_cases hw : w = v
  · rw [decide_eq_true (congrArg some hw.symm), if_pos rfl] at hleft
    rw [if_pos hw]
    exact hleft
  · rw [decide_eq_false fun heq => hw (Option.some.inj heq).symm, if_neg Bool.false_ne_true] at hleft
    rw [if_neg hw]
    exact hleft

end

/-- A TD of the done queue is reclaimed. -/
theorem OhciSound.reclaimed {q' : Utr} (h : OhciSound s g) (hr : g.tdRole t = some .retired)
    (hv : (s.td t).utr = some v) (hq : s.utr v = some q) (hc : q'.Counted)
    (hcnt : q'.tdCnt = q.tdCnt - 1) :
    OhciSound (({ s.setUtr v q' with doneQueue := s.doneQueue.erase t } : Ohci).free t)
      (g.without t) := by
  have hrec := free_reclaimed s v q' t
  have hutr : (({ s.setUtr v q' with doneQueue := s.doneQueue.erase t } : Ohci).free t).utr =
      Function.update s.utr v (some q') := rfl
  generalize ({ s.setUtr v q' with doneQueue := s.doneQueue.erase t } : Ohci).free t = s' at hrec hutr ⊢
  refine ⟨h.inv.without hrec hr, fun x r' hx => ?_, fun x hp => ?_, fun v' q₀ hq₀ => ?_,
    fun w hw hne => h.control w hw hne⟩
  · obtain ⟨v₀, q₀, hv₀, hq₀⟩ := h.named x r' (OhciLists.without_tdRole.1 hx).2
    refine ⟨v₀, if v₀ = v then q' else q₀, by rw [hrec.td]; exact hv₀, ?_⟩
    rw [hutr, Function.update_apply]
    split
    · rfl
    · exact hq₀
  · rw [hrec.td]
    exact h.placed x ((OhciLists.pending_without hrec).1 hp).2
  · have hleft := @OhciLists.left_without s s' g t v hrec hv v'
    rw [hutr, Function.update_apply] at hq₀
    split at hq₀
    · subst ‹v' = v›
      cases hq₀
      obtain ⟨-, hle⟩ := h.counted v' q hq
      rw [if_pos rfl] at hleft
      exact ⟨hc, by omega⟩
    · rename_i hne
      obtain ⟨hc₀, hle⟩ := h.counted v' q₀ hq₀
      rw [if_neg hne] at hleft
      exact ⟨hc₀, by omega⟩

/-- The TDs of the done queue that the interrupt brings, in any order. -/
theorem OhciSound.reclaim {tds : List Unit64} (h : OhciSound s g) (hnd : tds.Nodup)
    (hsub : tds ⊆ s.doneQueue) :
    ∃ s' g', UsbHost.reclaim s tds = .ok s' ∧ OhciSound s' g' ∧ s'.edRemoveList = s.edRemoveList ∧
      s'.sfEnable = s.sfEnable := by
  induction tds generalizing s g with
  | nil => exact ⟨s, g, rfl, h, rfl, rfl⟩
  | cons t tds ih =>
    have hr := (h.inv.tds.retired t).1 (hsub (.head _))
    obtain ⟨v, q, q', hv, hq, hrun, hc, hcnt⟩ := h.tdDone hr
    have h' := h.reclaimed hr hv hq hc hcnt
    obtain ⟨hnot, hnd⟩ := List.nodup_cons.1 hnd
    have hsub' : tds ⊆ s.doneQueue.erase t := by
      intro x hx
      refine (List.Nodup.mem_erase_iff h.inv.tds.nodup).2 ⟨?_, hsub (.tail _ hx)⟩
      rintro rfl
      exact hnot hx
    obtain ⟨s', g', hrun', hsound⟩ := ih h' hnd hsub'
    refine ⟨s', g', ?_, hsound⟩
    rw [UsbHost.reclaim, List.foldlM_cons, hrun]
    exact hrun'

/-! ## Starts of frame -/

/-- What was pending of a request and is not any more was aborted. -/
def AbortedOnly (s s' : Ohci) : Prop :=
  ∀ v q, s.utr v = some q → ∃ q', s'.utr v = some q' ∧
    (q'.calls = q.calls ∧ q'.status = q.status ∨ q.calls = 0 ∧ q'.calls = 1 ∧ q'.status = USBH_ERR_ABORT)

theorem AbortedOnly.refl (s : Ohci) : AbortedOnly s s := fun _ q hq => ⟨q, hq, .inl ⟨rfl, rfl⟩⟩

theorem AbortedOnly.trans {s'' : Ohci} (h : AbortedOnly s s') (h' : AbortedOnly s' s'') :
    AbortedOnly s s'' := by
  intro v q hq
  obtain ⟨q', hq', hcase⟩ := h v q hq
  obtain ⟨q'', hq'', hcase'⟩ := h' v q' hq'
  refine ⟨q'', hq'', ?_⟩
  rcases hcase with ⟨hc, hs⟩ | ⟨hc, hc', hs⟩
  · rcases hcase' with ⟨hc', hs'⟩ | ⟨hc', hc'', hs'⟩
    · exact .inl ⟨hc'.trans hc, hs'.trans hs⟩
    · exact .inr ⟨hc.symm.trans hc', hc'', hs'⟩
  · rcases hcase' with ⟨hc'', hs'⟩ | ⟨hc'', -, -⟩
    · exact .inr ⟨hc, hc''.trans hc', hs'.trans hs⟩
    · rw [hc'] at hc''
      cases hc''

/-- Requests that lose TDs to a removal. -/
theorem Utr.Counted.aborts_status (h : q.Counted) (n : Nat) :
    (Utr.abortTd^[n] q).calls = q.calls ∧ (Utr.abortTd^[n] q).status = q.status ∨
      q.calls = 0 ∧ (Utr.abortTd^[n] q).calls = 1 ∧ (Utr.abortTd^[n] q).status = USBH_ERR_ABORT := by
  induction n with
  | zero => exact .inl ⟨rfl, rfl⟩
  | succ n ih =>
    rw [Function.iterate_succ_apply']
    have hc := (h.aborts n).1
    generalize Utr.abortTd^[n] q = q₁ at ih hc
    rw [Utr.abortTd]
    by_cases hzero : q₁.tdCnt - 1 = 0
    · rw [if_pos hzero, Utr.tdOff, if_pos hzero]
      have hcalls : q₁.calls = 0 := by
        rcases hc with ⟨hcalls, -, -⟩ | ⟨-, hle, -⟩
        · exact hcalls
        · omega
      rcases ih with ⟨hsame, -⟩ | ⟨-, hone, -⟩
      · exact .inr ⟨hsame.symm.trans hcalls, congrArg (· + 1) hcalls, rfl⟩
      · rw [hcalls] at hone
        cases hone
    · rw [if_neg hzero, Utr.tdOff, if_neg hzero]
      exact ih

/-- What the removal of the EDs `us` leaves. -/
structure RemovedEds (s s' : Ohci) (g g' : OhciLists) (us : List Unit64) : Prop where
  sound : OhciSound s' g'
  list : s.edRemoveList = us ++ s'.edRemoveList
  freed : ∀ u ∈ us, s'.use u = none ∧ ∀ t ∈ g.tds u, s'.use t = none
  free : ∀ w, s.use w = none → s'.use w = none
  td : s'.td = s.td
  tds : ∀ w, w ∉ us → g'.tds w = g.tds w
  pending : ∀ t, g'.Pending s' t → g.Pending s t ∧ ∀ u ∈ us, t ∉ g.tds u
  aborted : AbortedOnly s s'

/-- The first ED of the remove list is removed. -/
theorem OhciSound.removeEd {rest : List Unit64} (h : OhciSound s g) (hlist : s.edRemoveList = u :: rest) :
    ∃ s', UsbHost.removeEd s u = .ok s' ∧ RemovedEds s s' g (g.drop u) [u] := by
  obtain ⟨-, r, hr, hne⟩ := h.inv.pipes.remove u (by rw [hlist]; exact .head _)
  have hnamed : ∀ t ∈ g.tds u, s.Named t := fun t ht => h.named t _ ((h.inv.tds.mem u r hr t).1 ht)
  obtain ⟨s', gone, hrun, hgone⟩ := h.inv.removeEd_spec hr hne hnamed
  obtain ⟨huse, -, htd, -, hremove, -⟩ := hgone.kept
  have hall : gone = g.tds u := by
    rcases hgone.freed with heq | ⟨heq, hctl, hmem⟩
    · exact heq
    · rw [heq]
      by_contra hne
      exact hmem (h.control u hctl (Ne.symm hne))
  subst hall
  have hpend : ∀ t, (g.drop u).Pending s' t → g.Pending s t ∧ t ∉ g.tds u := by
    rintro t (ht | ⟨w, ht, hw⟩)
    · obtain ⟨-, ht⟩ := OhciLists.drop_tdRole.1 ht
      refine ⟨.inl ht, fun hmem => ?_⟩
      rw [(h.inv.tds.mem u r hr t).1 hmem] at ht
      cases ht
    · rw [hgone.ed w] at hw
      obtain ⟨hne, ht⟩ := OhciLists.drop_tdRole.1 ht
      refine ⟨.inr ⟨w, ht, hw⟩, fun hmem => ?_⟩
      rw [(h.inv.tds.mem u r hr t).1 hmem] at ht
      exact hne (Option.some.inj ht).symm
  have hlost : ∀ t, g.Pending s t → (g.drop u).Pending s' t ∨ t ∈ g.tds u := by
    rintro t (ht | ⟨w, ht, hw⟩)
    · exact .inl (.inl (OhciLists.drop_tdRole.2 ⟨by rintro ⟨⟩, ht⟩))
    · by_cases hwu : w = u
      · subst hwu
        exact .inr ((h.inv.tds.mem w r hr t).2 ht)
      · refine .inl (.inr ⟨w, OhciLists.drop_tdRole.2 ⟨?_, ht⟩, ?_⟩)
        · rintro ⟨⟩
          exact hwu rfl
        · rw [hgone.ed w]
          exact hw
  refine ⟨s', hrun, ⟨⟨h.inv.remove hr hgone hlist, fun t r' ht => ?_, fun t hp => ?_, fun v q hq => ?_,
    fun w hw hne => ?_⟩, ?_, fun w hw => ?_, fun w hw => ?_, htd, fun w hw => ?_, fun t hp => ?_,
    fun v q hq => ?_⟩⟩
  · obtain ⟨v, q, hv, hq⟩ := h.named t r' (OhciLists.drop_tdRole.1 ht).2
    have hutr := hgone.utr v
    rw [hq] at hutr
    exact ⟨v, _, by rw [htd]; exact hv, hutr⟩
  · rw [htd]
    exact h.placed t (hpend t hp).1
  · rw [hgone.utr v, Option.map_eq_some_iff] at hq
    obtain ⟨q₀, hq₀, rfl⟩ := hq
    obtain ⟨hc, hle⟩ := h.counted v q₀ hq₀
    obtain ⟨hc', hcnt⟩ := hc.aborts ((g.tds u).countP fun t => (s.td t).utr = some v)
    have hleft := OhciLists.left_le hlost (fun t _ => by rw [htd]) v
    refine ⟨hc', ?_⟩
    rw [hcnt]
    omega
  · obtain ⟨hwu, hw⟩ := OhciLists.drop_edRole.1 hw
    have hsame : (g.drop u).tds w = g.tds w := Function.update_of_ne hwu ..
    rw [hsame] at hne
    exact (List.mem_erase_of_ne hwu).2 (h.control w hw hne)
  · rw [hremove, hlist]
    rfl
  · rw [List.mem_singleton.1 hw, huse]
    exact ⟨if_pos rfl, fun t ht => by simp [ht]⟩
  · rw [huse]
    simp [hw]
  · exact Function.update_of_ne (fun heq => hw (List.mem_singleton.2 heq)) ..
  · obtain ⟨hp, hmem⟩ := hpend t hp
    refine ⟨hp, fun w hw => ?_⟩
    rw [List.mem_singleton.1 hw]
    exact hmem
  · obtain ⟨hc, -⟩ := h.counted v q hq
    have hutr := hgone.utr v
    rw [hq] at hutr
    exact ⟨_, hutr, hc.aborts_status _⟩

/-- All EDs of the remove list are removed. -/
theorem OhciSound.removeEds (h : OhciSound s g) :
    ∃ s' g', UsbHost.removeEds s = .ok s' ∧ RemovedEds s s' g g' s.edRemoveList := by
  have hall : ∀ (us : List Unit64) (s : Ohci) (g : OhciLists), OhciSound s g → s.edRemoveList = us →
      ∃ s' g', us.foldlM UsbHost.removeEd s = .ok s' ∧ RemovedEds s s' g g' us := by
    intro us
    induction us with
    | nil =>
      intro s g h hlist
      exact ⟨s, g, rfl, ⟨h, rfl, by rintro _ ⟨⟩, fun _ hw => hw, rfl, fun _ _ => rfl,
        fun t hp => ⟨hp, by rintro _ ⟨⟩⟩, .refl s⟩⟩
    | cons u us ih =>
      intro s g h hlist
      obtain ⟨s₁, hrun, hfirst⟩ := h.removeEd hlist
      have hlist₁ : s₁.edRemoveList = us := by
        have heq := hfirst.list
        rw [hlist] at heq
        exact (List.cons.inj heq).2.symm
      obtain ⟨s', g', hrun', hrest⟩ := ih s₁ _ hfirst.sound hlist₁
      have hnd := h.inv.pipes.nodup
      rw [hlist] at hnd
      have hne : ∀ w ∈ us, w ≠ u := by
        rintro w hw rfl
        exact (List.nodup_cons.1 hnd).1 hw
      have htds : ∀ w ∈ us, (g.drop u).tds w = g.tds w :=
        fun w hw => hfirst.tds w fun hmem => hne w hw (List.mem_singleton.1 hmem)
      have hself := hfirst.freed u (.head _)
      refine ⟨s', g', ?_, ⟨hrest.sound, ?_, fun w hw => ?_, fun w hw => hrest.free w (hfirst.free w hw),
        hrest.td.trans hfirst.td, fun w hw => ?_, fun t hp => ?_, hfirst.aborted.trans hrest.aborted⟩⟩
      · rw [List.foldlM_cons, hrun]
        exact hrun'
      · rw [hfirst.list, hrest.list]
        simp
      · rcases List.mem_cons.1 hw with rfl | hw
        · exact ⟨hrest.free w hself.1, fun t ht => hrest.free t (hself.2 t ht)⟩
        · obtain ⟨hu, ht⟩ := hrest.freed w hw
          rw [htds w hw] at ht
          exact ⟨hu, ht⟩
      · rw [hrest.tds w fun hmem => hw (.tail _ hmem)]
        refine hfirst.tds w fun hmem => hw ?_
        rw [List.mem_singleton.1 hmem]
        exact .head _
      · obtain ⟨hp₁, hnot⟩ := hrest.pending t hp
        obtain ⟨hp₀, hnot₀⟩ := hfirst.pending t hp₁
        refine ⟨hp₀, fun w hw => ?_⟩
        rcases List.mem_cons.1 hw with rfl | hw
        · exact hnot₀ w (.head _)
        · rw [← htds w hw]
          exact hnot w hw
  exact hall s.edRemoveList s g h rfl

/-! ## Runs -/

/-- What the steps keep of the start-of-frame interrupt. -/
def Armed (s : Ohci) : Prop := s.edRemoveList ≠ [] → s.sfEnable = true

/-- Submissions that fit, control transfers one after another. -/
def CarefulOhci (E : Endpoints) (s : Ohci) : OhciOp → Prop
  | .submit _ q sub => SubmissionFits E s sub ∧ MemoryFits E s q sub ∧
      ∀ dev udev, sub = .ctrl dev udev → CtrlIdle s
  | _ => True

theorem Armed.quitEp (h : Armed s) (e : EpRef) (u : Unit64) : Armed (UsbHost.quitEp s e u) := by
  rw [UsbHost.quitEp, addToEdRemoveList]
  split
  · exact h
  · exact fun _ => rfl

theorem Armed.quit (h : Armed s) (utr ep : Option EpRef) : Armed (ohciQuitXfer s utr ep).2 := by
  cases utr with
  | none =>
    cases ep with
    | none => exact h
    | some e =>
      cases hpipe : s.hwPipe e with
      | none => simpa only [ohciQuitXfer, hpipe] using h
      | some ed => simpa only [ohciQuitXfer, hpipe] using h.quitEp e ed
  | some e =>
    cases hpipe : s.hwPipe e with
    | none => simpa only [ohciQuitXfer, hpipe] using h
    | some ed =>
      have h' := h.quitEp e ed
      cases ep with
      | none => simpa only [ohciQuitXfer, hpipe] using h'
      | some e' =>
        cases hpipe' : (UsbHost.quitEp s e ed).hwPipe e' with
        | none => simpa only [ohciQuitXfer, hpipe, hpipe'] using h'
        | some ed' => simpa only [ohciQuitXfer, hpipe, hpipe'] using h'.quitEp e' ed'

/-- A start of frame removes all EDs that wait for it. -/
theorem OhciSound.startOfFrame (h : OhciSound s g) (ha : Armed s) :
    ∃ s' g', UsbHost.startOfFrame s = .ok s' ∧ RemovedEds s s' g g' s.edRemoveList := by
  rw [UsbHost.startOfFrame]
  cases hsf : s.sfEnable with
  | false =>
    have hnil : s.edRemoveList = [] := by
      by_contra hne
      have htrue := ha hne
      rw [hsf] at htrue
      cases htrue
    refine ⟨s, g, rfl, ?_⟩
    rw [hnil]
    exact ⟨h, by rw [hnil]; rfl, by rintro _ ⟨⟩, fun _ hw => hw, rfl, fun _ _ => rfl,
      fun t hp => ⟨hp, by rintro _ ⟨⟩⟩, .refl s⟩
  | true =>
    have h' : OhciSound { s with sfEnable := false } g := by
      refine h.frame ⟨h.inv.used.used, fun _ => .rfl, fun _ ht => ht, fun _ _ => rfl, fun _ _ => rfl, ?_, ?_,
        ?_, ?_, ?_, ?_⟩ rfl
      all_goals rfl
    obtain ⟨s', g', hrun, hall⟩ := h'.removeEds
    exact ⟨s', g', hrun, hall.sound, hall.list, hall.freed, hall.free, hall.td, hall.tds, hall.pending,
      hall.aborted⟩

/-- **A careful step keeps the lists and what waits in them.** -/
theorem OhciSound.step {op : OhciOp} (h : OhciSound s g) (ha : Armed s) (hok : CarefulOhci E s op)
    (hs : OhciStep E s op s') : (∃ g', OhciSound s' g') ∧ Armed s' := by
  cases op with
  | submit v q sub =>
    obtain ⟨hfit, hmem, hidle⟩ := hok
    obtain ⟨hnew, hdone, hcalls, ret, hrun⟩ := hs
    obtain ⟨ret', s₁, hrun', hout⟩ := ohciXfer_spec (u := q) (v := v) h.inv hfit
    rw [hrun] at hrun'
    cases hrun'
    rcases hout with ⟨-, ⟨-, hback⟩ | ⟨-, g', ed, r, info, added, bytes, -, -, hacc⟩⟩ | ⟨hno, -⟩
    · have hrest : s'.utr = s.utr ∧ s'.edRemoveList = s.edRemoveList ∧ s'.sfEnable = s.sfEnable := by
        rw [hback.rest]
        exact ⟨rfl, rfl, rfl⟩
      refine ⟨⟨g, h.frame (hback.sameLists h.inv.used.used) hrest.1⟩, ?_⟩
      rw [Armed, hrest.2.1, hrest.2.2]
      exact ha
    · obtain ⟨ts, new, hplaced, -⟩ := hacc.placed
      refine ⟨⟨g', h.accepted hnew hdone hcalls ?_ hacc⟩, ?_⟩
      · rintro rfl
        obtain ⟨dev, hdev⟩ := hplaced.serves
        cases sub with
        | ctrl dev udev => exact hidle dev udev rfl
        | bulk i => cases hdev
        | int i => cases hdev
        | iso i => cases hdev
      · rw [Armed, hplaced.same.1, hplaced.same.2.1]
        exact ha
    · exact absurd hmem hno
  | quit utr ep =>
    obtain rfl : s' = _ := hs
    exact ⟨⟨g, h.quit utr ep⟩, ha.quit utr ep⟩
  | retire ed t w =>
    obtain ⟨hserves, rfl⟩ := hs
    exact ⟨h.retire hserves w, ha⟩
  | done tds =>
    obtain ⟨hnd, hsub, hrun⟩ := hs
    obtain ⟨s₁, g', hrun', hsound, hlist, hsf⟩ := h.reclaim hnd hsub
    rw [hrun] at hrun'
    cases hrun'
    refine ⟨⟨g', hsound⟩, ?_⟩
    rw [Armed, hlist, hsf]
    exact ha
  | sof =>
    obtain ⟨s₁, g', hrun, hall⟩ := h.startOfFrame ha
    have hs : UsbHost.startOfFrame s = .ok s' := hs
    rw [hrun] at hs
    cases hs
    refine ⟨⟨g', hall.sound⟩, fun hne => absurd ?_ hne⟩
    have hlist := hall.list
    rw [List.self_eq_append_right] at hlist
    exact hlist
  | frame no =>
    obtain rfl : s' = _ := hs
    refine ⟨⟨g, h.frame ⟨h.inv.used.used, fun _ => .rfl, fun _ ht => ht, fun _ _ => rfl, fun _ _ => rfl, ?_,
      ?_, ?_, ?_, ?_, ?_⟩ rfl⟩, ha⟩
    all_goals rfl
  | foreignTake u =>
    obtain ⟨hfree, rfl⟩ := hs
    have hnone := h.inv.used.used.use_none hfree
    refine ⟨⟨g, h.frame ⟨h.inv.used.used.take u .foreign, fun w => ?_, fun t ht => ?_, fun _ _ => rfl,
      fun _ _ => rfl, ?_, ?_, ?_, ?_, ?_, ?_⟩ rfl⟩, ha⟩
    · change Function.update s.use u _ w = _ ↔ _
      rw [Function.update_apply]
      split
      · rename_i hw
        rw [hw, hnone]
        exact iff_of_false (by rintro ⟨⟩) (by rintro ⟨⟩)
      · rfl
    · change Function.update s.use u _ t = _
      rw [Function.update_of_ne, ht]
      rintro rfl
      rw [hnone] at ht
      cases ht
    all_goals rfl
  | foreignGive u =>
    obtain ⟨huse, rfl⟩ := hs
    refine ⟨⟨g, h.frame ⟨h.inv.used.used.free u, fun w => ?_, fun t ht => ?_, fun _ _ => rfl,
      fun _ _ => rfl, ?_, ?_, ?_, ?_, ?_, ?_⟩ rfl⟩, ha⟩
    · change Function.update s.use u _ w = _ ↔ _
      rw [Function.update_apply]
      split
      · rename_i hw
        rw [hw, huse]
        exact iff_of_false (by rintro ⟨⟩) (by rintro ⟨⟩)
      · rfl
    · change Function.update s.use u _ t = _
      rw [Function.update_of_ne, ht]
      rintro rfl
      rw [huse] at ht
      cases ht
    all_goals rfl

/-- The driver at start. -/
theorem OhciSound.of_init {pool : MemPool} (h : ohciInit pool = .ok s) :
    OhciSound s (OhciLists.init s.ied) ∧ Armed s := by
  have hinv := OhciInv.of_init h
  have hnone : ∀ v, s.utr v = none := by
    rw [ohciInit] at h
    split at h
    · cases h
    · cases h
      exact fun _ => rfl
  have hlist : s.edRemoveList = [] := by
    rw [ohciInit] at h
    split at h
    · cases h
    · cases h
      rfl
  refine ⟨⟨hinv, by rintro _ _ ⟨⟩, ?_, fun v q hq => ?_, fun u hu => ?_⟩, fun hne => absurd hlist hne⟩
  · rintro t (ht | ⟨w, ht, -⟩)
    · cases ht
    · cases ht
  · rw [hnone] at hq
    cases hq
  · exact fun hne => absurd rfl hne

theorem ohci_sound {pool : MemPool} {s₀ : Ohci} {labels : List OhciOp} (hinit : ohciInit pool = .ok s₀)
    (hrun : Run (where_ (OhciStep E) (CarefulOhci E)) s₀ labels s) : (∃ g, OhciSound s g) ∧ Armed s := by
  obtain ⟨h₀, ha₀⟩ := OhciSound.of_init hinit
  refine hrun.invariant (I := fun s => (∃ g, OhciSound s g) ∧ Armed s) ?_ ⟨⟨_, h₀⟩, ha₀⟩
  rintro s op s' ⟨⟨g, h⟩, ha⟩ ⟨hok, hs⟩
  exact h.step ha hok hs

end

end NumakerMA35D1.UsbHost

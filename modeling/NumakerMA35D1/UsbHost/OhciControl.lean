import NumakerMA35D1.UsbHost.OhciPeriodic

/-!
# Control submissions, and what every submission comes to

A control transfer takes its TDs, then the ED of endpoint zero or a new one, and makes that ED the whole
control list (`ohciCtrlXfer_spec`). With the other types this gives `ohciXfer_spec`: in every state of
the lists, a submission that fits is refused and nothing has changed, or accepted; and without the room
that its path needs, it leaves less than it found.

Reference: `_ohci.c_`.
-/

namespace NumakerMA35D1.UsbHost

open Embedded

section

variable {E : Endpoints} {s s' s₀ s₁ s₂ : Ohci} {g : OhciLists} {ed t tdSetup tdStatus : Unit64}
  {tdData : Option Unit64} {tds : List Unit64} {d : Ed} {isNew : Bool} {u : Utr} {v dev : Nat}
  {udev : UdevInfo}

/-! ## The TDs of a control transfer -/

/-- The TDs taken from `s` on, of a UTR and not linked yet. -/
structure Allotted (s s' : Ohci) (v : Nat) (tds : List Unit64) : Prop extends TookTds s s' tds where
  utr : ∀ t ∈ tds, (s'.td t).utr = some v

theorem Allotted.nil (s : Ohci) (v : Nat) : Allotted s s v [] := ⟨.nil s, by rintro _ ⟨⟩⟩

theorem Allotted.snoc (h : Allotted s s₀ v tds) (halloc : s₀.allocTd (some v) = (some t, s₁)) :
    Allotted s s₁ v (tds ++ [t]) := by
  refine ⟨h.toTookTds.snoc halloc rfl fun _ _ => rfl, fun x hx => ?_⟩
  obtain ⟨hfree, rfl⟩ := allocTd_some halloc
  change (Function.update s₀.td t (Td.zero (some v)) x).utr = some v
  rcases List.mem_append.1 hx with hx | hx
  · rw [Function.update_of_ne, h.utr x hx]
    intro heq
    exact (h.not_mem hfree).1 (heq ▸ hx)
  · rw [List.mem_singleton.1 hx, Function.update_self]
    rfl

/-- The ED of endpoint zero, a new one where it has none. Reference: `_ohci.c_:377 ohci_ctrl_xfer`. -/
def Ohci.ctrlEd (s : Ohci) (dev : Nat) : Option Unit64 × Ohci :=
  match s.hwPipe (.ep0 dev) with
  | none => s.allocEd
  | some ed => (some ed, s)

/-- A control transfer with its TDs taken. Reference: `_ohci.c_:376 ohci_ctrl_xfer`. -/
def ctrlWith (s : Ohci) (v : Nat) (u : Utr) (dev : Nat) (udev : UdevInfo) (tdSetup : Unit64)
    (tdData : Option Unit64) (tdStatus : Unit64) : Int × Ohci :=
  match s.ctrlEd dev with
  | (none, s) => (USBH_ERR_MEMORY_OUT, s.freeTds (tdSetup :: tdStatus :: tdData.toList))
  | (some ed, s) => (0, ctrlLink s v u dev udev ed tdSetup tdData tdStatus)

/-- The TDs are taken, or there are too few and the driver is as it was. -/
theorem ohciCtrlXfer_cases (hs : s.UseFits) (v : Nat) (u : Utr) (dev : Nat) (udev : UdevInfo) :
    (∃ s', RolledBack s s' ∧ ohciCtrlXfer s v u dev udev = .ok (USBH_ERR_MEMORY_OUT, s')) ∨
    ∃ s₁ tdSetup tdData tdStatus, Allotted s s₁ v (tdSetup :: tdData.toList ++ [tdStatus]) ∧
      (tdData.isSome ↔ 0 < u.dataLen.toNat) ∧
      ohciCtrlXfer s v u dev udev = .ok (ctrlWith s₁ v u dev udev tdSetup tdData tdStatus) := by
  cases hsetup : s.allocTd (some v) with
  | mk setup s₁ =>
    cases setup with
    | none =>
      obtain ⟨rfl, -⟩ := allocTd_none hsetup
      refine .inl ⟨s₁, .refl s₁, ?_⟩
      rw [ohciCtrlXfer]
      by_cases hlen : 0 < u.dataLen.toNat
      · simp only [hsetup, if_pos hlen]
        rfl
      · simp only [hsetup, if_neg hlen]
        rfl
    | some setup =>
      have h₁ : Allotted s s₁ v [setup] := (Allotted.nil s v).snoc hsetup
      by_cases hlen : 0 < u.dataLen.toNat
      · cases hdata : s₁.allocTd (some v) with
        | mk data s₂ =>
          cases data with
          | none =>
            obtain ⟨rfl, -⟩ := allocTd_none hdata
            refine .inl ⟨s₂.freeTds [setup], h₁.freeTds hs (.refl _), ?_⟩
            rw [ohciCtrlXfer]
            simp only [hsetup, if_pos hlen, hdata]
            rfl
          | some data =>
            have h₂ : Allotted s s₂ v [setup, data] := h₁.snoc hdata
            cases hstatus : s₂.allocTd (some v) with
            | mk status s₃ =>
              cases status with
              | none =>
                obtain ⟨rfl, -⟩ := allocTd_none hstatus
                refine .inl ⟨s₃.freeTds [setup, data], h₂.freeTds hs (.refl _), ?_⟩
                rw [ohciCtrlXfer]
                simp only [hsetup, if_pos hlen, hdata, hstatus]
                rfl
              | some status =>
                refine .inr ⟨s₃, setup, some data, status, h₂.snoc hstatus, iff_of_true rfl hlen, ?_⟩
                rw [ohciCtrlXfer, ctrlWith, Ohci.ctrlEd]
                simp only [hsetup, if_pos hlen, hdata, hstatus]
                have hsome : ¬ (0 < u.dataLen.toNat ∧ some data = none) := by rintro ⟨-, ⟨⟩⟩
                cases s₃.hwPipe (.ep0 dev) with
                | some ed =>
                  simp only [if_neg hsome]
                | none =>
                  dsimp only
                  cases s₃.allocEd with
                  | mk ed s₄ =>
                    cases ed with
                    | none => rfl
                    | some ed => simp only [if_neg hsome]
      · cases hstatus : s₁.allocTd (some v) with
        | mk status s₂ =>
          cases status with
          | none =>
            obtain ⟨rfl, -⟩ := allocTd_none hstatus
            refine .inl ⟨s₂.freeTds [setup], h₁.freeTds hs (.refl _), ?_⟩
            rw [ohciCtrlXfer]
            simp only [hsetup, if_neg hlen, hstatus]
            rfl
          | some status =>
            refine .inr ⟨s₂, setup, none, status, h₁.snoc hstatus, iff_of_false (by rintro ⟨⟩) hlen, ?_⟩
            rw [ohciCtrlXfer, ctrlWith, Ohci.ctrlEd]
            simp only [hsetup, if_neg hlen, hstatus]
            cases s₂.hwPipe (.ep0 dev) with
            | some ed =>
              simp only [hlen]
              rfl
            | none =>
              dsimp only
              cases s₂.allocEd with
              | mk ed s₃ =>
                cases ed with
                | none => rfl
                | some ed =>
                  simp only [hlen]
                  rfl

/-! ## The control list -/

/-- The bytes of the TDs of a control transfer. -/
def Utr.ctrlBytes (u : Utr) : List TdBytes :=
  .of .plain u.setupAddr 8 ::
    ((if 0 < u.dataLen.toNat then [.of .data u.buff u.dataLen] else []) ++ [.of .plain 0 0])

/-- What `ctrlLink` leaves. -/
structure CtrlLinked (s₂ s' : Ohci) (v : Nat) (u : Utr) (dev : Nat) (udev : UdevInfo) (ed : Unit64)
    (tds : List Unit64) : Prop where
  chain : Chain s'.nextTD tds.head? tds
  td : ∀ t, t ∉ tds → s'.td t = s₂.td t
  own : ∀ t ∈ tds, (s'.td t).ed = some ed ∧ (s'.td t).utr = (s₂.td t).utr
  bytes : tds.map (fun t => (s'.td t).bytes) = u.ctrlBytes
  edEq : s'.ed = Function.update s₂.ed ed { s₂.ed ed with
    info := edMakeInfo udev none
    tailP := none
    headP := tds.head?
    halted := false
    toggleCarry := false
    nextED := none }
  rest : s' = { s₂ with
    td := s'.td
    ed := s'.ed
    utr := Function.update s₂.utr v (some { u with ep := .ep0 dev, tdCnt := tds.length })
    hwPipe := Function.update s₂.hwPipe (.ep0 dev) (some ed)
    controlHead := some ed }

/-- A TD's place is no part of its bytes. -/
theorem linked_bytes (td : Td) (ed next : Option Unit64) :
    ({ td with ed := ed, nextTD := next } : Td).bytes = td.bytes :=
  rfl

theorem ctrlLink_linked (hnd : (tdSetup :: tdData.toList ++ [tdStatus]).Nodup)
    (hdata : tdData.isSome ↔ 0 < u.dataLen.toNat) :
    CtrlLinked s (ctrlLink s v u dev udev ed tdSetup tdData tdStatus) v u dev udev ed
      (tdSetup :: tdData.toList ++ [tdStatus]) := by
  have hsetupInfo : tdKind (TD_CC ||| TD_T_DATA0 ||| TD_TYPE_CTRL) = .plain := by decide
  have hstatusInfo : tdKind (TD_CC ||| (if u.dirIn then TD_DP_OUT else TD_DP_IN) ||| TD_T_DATA1 |||
      TD_TYPE_CTRL) = .plain := by
    split <;> decide
  have hdataInfo : tdKind (TD_CC ||| TD_R ||| (if u.dirIn then TD_DP_IN else TD_DP_OUT) |||
      TD_T_DATA1 ||| TD_TYPE_CTRL ||| TD_CTRL_DATA) = .data := by
    split <;> decide
  generalize hs' : ctrlLink s v u dev udev ed tdSetup tdData tdStatus = s'
  have hstatus : s'.td tdStatus = { writeTd (s.td tdStatus) (TD_CC |||
      (if u.dirIn then TD_DP_OUT else TD_DP_IN) ||| TD_T_DATA1 ||| TD_TYPE_CTRL) 0 0 with
        ed := some ed, nextTD := none } := by
    rw [← hs']
    cases tdData with
    | none =>
      have hne : tdStatus ≠ tdSetup := by simpa [eq_comm] using hnd
      simp [ctrlLink, Ohci.setTd, Ohci.setEd, Ohci.setUtr, Ohci.setPipe, hne]
    | some data =>
      have hne : tdStatus ≠ tdSetup ∧ tdStatus ≠ data := by
        simp only [List.cons_append, Option.toList_some, List.nil_append, List.nodup_cons, List.mem_cons,
          List.not_mem_nil, or_false, not_or, not_false_eq_true, List.nodup_nil, and_true] at hnd
        exact ⟨Ne.symm hnd.1.2, Ne.symm hnd.2⟩
      simp [ctrlLink, Ohci.setTd, Ohci.setEd, Ohci.setUtr, Ohci.setPipe, hne.1, hne.2]
  have hsetup : s'.td tdSetup = { writeTd (s.td tdSetup) (TD_CC ||| TD_T_DATA0 ||| TD_TYPE_CTRL) u.setupAddr 8
      with ed := some ed, nextTD := some (tdData.getD tdStatus) } := by
    rw [← hs']
    cases tdData with
    | none =>
      have hne : tdSetup ≠ tdStatus := by simpa using hnd
      simp [ctrlLink, Ohci.setTd, Ohci.setEd, Ohci.setUtr, Ohci.setPipe, hne]
    | some data =>
      have hne : tdSetup ≠ data ∧ tdSetup ≠ tdStatus ∧ data ≠ tdStatus := by
        simpa [and_assoc] using hnd
      simp [ctrlLink, Ohci.setTd, Ohci.setEd, Ohci.setUtr, Ohci.setPipe, hne.1, hne.2.1]
  have hother : ∀ t, t ∉ tdSetup :: tdData.toList ++ [tdStatus] → s'.td t = s.td t := by
    intro t ht
    rw [← hs']
    cases tdData with
    | none =>
      simp only [List.cons_append, Option.toList_none, List.nil_append, List.mem_cons, List.not_mem_nil,
        or_false, not_or] at ht
      simp [ctrlLink, Ohci.setTd, Ohci.setEd, Ohci.setUtr, Ohci.setPipe, ht.1, ht.2]
    | some data =>
      simp only [List.cons_append, Option.toList_some, List.nil_append, List.mem_cons, List.not_mem_nil,
        or_false, not_or] at ht
      simp [ctrlLink, Ohci.setTd, Ohci.setEd, Ohci.setUtr, Ohci.setPipe, ht.1, ht.2.1, ht.2.2]
  have hbytes₁ : (s'.td tdSetup).bytes = .of .plain u.setupAddr 8 := by
    rw [hsetup, linked_bytes, writeTd_bytes, hsetupInfo]
  have hbytes₃ : (s'.td tdStatus).bytes = .of .plain 0 0 := by
    rw [hstatus, linked_bytes, writeTd_bytes, hstatusInfo]
  have hrest : s'.ed = Function.update s.ed ed { s.ed ed with
      info := edMakeInfo udev none
      tailP := none
      headP := some tdSetup
      halted := false
      toggleCarry := false
      nextED := none } ∧
      s' = { s with
        td := s'.td
        ed := s'.ed
        utr := Function.update s.utr v (some { u with
          ep := .ep0 dev, tdCnt := if 0 < u.dataLen.toNat then 3 else 2 })
        hwPipe := Function.update s.hwPipe (.ep0 dev) (some ed)
        controlHead := some ed } := by
    rw [← hs']
    cases tdData <;> exact ⟨rfl, rfl⟩
  cases tdData with
  | none =>
    have hlen : ¬ 0 < u.dataLen.toNat := fun h => Bool.false_ne_true (hdata.2 h)
    rw [if_neg hlen] at hrest
    refine ⟨⟨rfl, ?_, ?_⟩, hother, fun t ht => ?_, ?_, hrest.1, hrest.2⟩
    · exact congrArg Td.nextTD hsetup
    · exact congrArg Td.nextTD hstatus
    · simp only [List.cons_append, Option.toList_none, List.nil_append, List.mem_cons, List.not_mem_nil,
        or_false] at ht
      rcases ht with rfl | rfl
      · rw [hsetup]
        exact ⟨rfl, rfl⟩
      · rw [hstatus]
        exact ⟨rfl, rfl⟩
    · rw [Utr.ctrlBytes, if_neg hlen]
      change [(s'.td tdSetup).bytes, (s'.td tdStatus).bytes] = _
      rw [hbytes₁, hbytes₃]
      rfl
  | some data =>
    have hlen : 0 < u.dataLen.toNat := hdata.1 rfl
    have hne : tdSetup ≠ data ∧ tdSetup ≠ tdStatus ∧ data ≠ tdStatus := by
      simpa [and_assoc] using hnd
    have hmore : s'.td data = { writeTd (s.td data) (TD_CC ||| TD_R |||
        (if u.dirIn then TD_DP_IN else TD_DP_OUT) ||| TD_T_DATA1 ||| TD_TYPE_CTRL ||| TD_CTRL_DATA)
        u.buff u.dataLen with ed := some ed, nextTD := some tdStatus } := by
      rw [← hs']
      simp [ctrlLink, Ohci.setTd, Ohci.setEd, Ohci.setUtr, Ohci.setPipe, hne.2.2, Ne.symm hne.1]
    have hbytes₂ : (s'.td data).bytes = .of .data u.buff u.dataLen := by
      rw [hmore, linked_bytes, writeTd_bytes, hdataInfo]
    rw [if_pos hlen] at hrest
    refine ⟨⟨rfl, ?_, ?_, ?_⟩, hother, fun t ht => ?_, ?_, hrest.1, hrest.2⟩
    · exact congrArg Td.nextTD hsetup
    · exact congrArg Td.nextTD hmore
    · exact congrArg Td.nextTD hstatus
    · simp only [List.cons_append, Option.toList_some, List.nil_append, List.mem_cons, List.not_mem_nil,
        or_false] at ht
      rcases ht with rfl | rfl | rfl
      · rw [hsetup]
        exact ⟨rfl, rfl⟩
      · rw [hmore]
        exact ⟨rfl, rfl⟩
      · rw [hstatus]
        exact ⟨rfl, rfl⟩
    · rw [Utr.ctrlBytes, if_pos hlen]
      change [(s'.td tdSetup).bytes, (s'.td data).bytes, (s'.td tdStatus).bytes] = _
      rw [hbytes₁, hbytes₂, hbytes₃]
      rfl

/-- The ED drops the TDs that it had and gets those of the transfer. -/
theorem ctrlLink_ok (h : OhciInv s g) (ht : Taken s s₂ g ed .control d isNew tds)
    (hpipe₂ : s₂.hwPipe = s.hwPipe) (hl : CtrlLinked s₂ s' v u dev udev ed tds)
    (hutr : ∀ t ∈ tds, (s₂.td t).utr = some v) (hnd : tds.Nodup) (hne : tds ≠ [])
    (hdev : udev.devNum.toNat < 128) (howner : ∀ e', s.hwPipe e' = some ed → e' = .ep0 dev) :
    ∃ g', Accepted s s' g g' v u (.ep0 dev) ed .control (edMakeInfo udev none) tds u.ctrlBytes := by
  let g' : OhciLists := { g.put ed .control tds with control := [ed] }
  obtain ⟨⟨hied, -, hbulk⟩, hutr₂, hsame⟩ := ht.rest
  have hed : s'.ed = Function.update s.ed ed { d with
      info := edMakeInfo udev none
      tailP := none
      headP := tds.head?
      halted := false
      toggleCarry := false
      nextED := none } := by
    rw [hl.edEq, ht.ed_eq]
    simp only [Function.update_self, Function.update_idem]
  have hself : s'.ed ed = { d with
      info := edMakeInfo udev none
      tailP := none
      headP := tds.head?
      halted := false
      toggleCarry := false
      nextED := none } := by rw [hed, Function.update_self]
  have hother : ∀ w, w ≠ ed → s'.ed w = s.ed w := by
    intro w hw
    rw [hed, Function.update_of_ne hw]
  have hrest := hl.rest
  have hput : Puts g g' ed .control tds := ⟨rfl, rfl, fun _ => rfl⟩
  have htail : (s'.ed ed).tailP = none := by rw [hself]
  refine ⟨g', ⟨tds, tds, ?_, fun t => ?_, fun t hmem => .inl hmem⟩, hnd, hne,
    ⟨{ u with ep := .ep0 dev, tdCnt := tds.length }, ?_, rfl, rfl, rfl, rfl⟩, fun t hmem => ?_,
    fun t hpend => ?_, ?_, ?_, fun t htd => ?_, ⟨[], ?_⟩, hl.bytes⟩
  rotate_left
  · rw [htail]
    simp
  · rw [hrest, ← hutr₂]
  · exact ⟨(hl.own t hmem).2.trans (hutr t hmem), (hl.own t hmem).1⟩
  · have hnot : t ∉ tds := by
      intro hmem
      have huse : s.use t = some .td := by
        rcases hpend with hr | ⟨w, hr, -⟩
        · exact h.use_td hr
        · exact h.use_td hr
      rw [h.used.used.use_none (ht.newFree t hmem).2] at huse
      cases huse
    have hsame : s₂.td t = s.td t := ht.td t hnot
    rw [hl.td t hnot, hsame]
    exact ⟨rfl, rfl⟩
  · rw [hrest]
    exact ht.total
  · rw [hself]
  · rw [htail] at htd
    cases htd
  · rw [htail, hself]
    simpa using hl.chain
  · refine ⟨hput, ?_, ht.role, ⟨dev, rfl⟩, fun t hmem => .inl hmem, ?_, htail, fun t r' hr _ => ?_,
      fun w r' _ hw => ?_, ?_, ?_, fun t hmem => ?_, ht.unused, ?_, ht.unlisted, howner, .inl ?_, ?_,
      (if_pos rfl).symm⟩
    · refine h.eds.setControl ht.role rfl ⟨rfl, rfl, rfl⟩ (fun w r' _ hw => ?_) ?_ ?_ ?_ ?_
      · rw [Ohci.nextED, hother w hw]
        rfl
      · rw [Ohci.nextED, hself]
      · rw [hrest]
        exact hied
      · rw [hrest]
      · rw [hrest]
        exact hbulk
    · rw [hself]
      exact hl.chain
    · rw [hl.td, ht.kept h hr]
      intro hmem
      have huse := h.use_td hr
      rw [h.used.used.use_none (ht.newFree t hmem).2] at huse
      cases huse
    · rw [Ohci.nextED, hother w hw]
    · rw [hself]
      exact edMakeInfo_ep0 hdev
    · intro w
      rw [hrest]
      exact ht.fits w
    · exact ⟨(ht.newFree t hmem).1, h.used.used.use_none (ht.newFree t hmem).2⟩
    · rw [hrest]
      exact ht.use_eq
    · rw [hrest, hpipe₂]
    · rw [hrest]
      exact hsame

/-- The ED of endpoint zero is of the control list, or dropped from it. -/
theorem OhciInv.pipe_control (h : OhciInv s g) (hpipe : s.hwPipe (.ep0 dev) = some ed) :
    g.edRole ed = some .control ∧ ed ∉ s.edRemoveList := by
  obtain ⟨hun, r, hr, hserves⟩ := h.pipes.pipe _ _ hpipe
  refine ⟨?_, hun⟩
  cases r with
  | control => exact hr
  | head k => cases hserves
  | bulk =>
    obtain ⟨i, hi⟩ := hserves
    cases hi
  | int k =>
    obtain ⟨i, hi⟩ := hserves
    cases hi
  | iso k =>
    obtain ⟨i, hi⟩ := hserves
    cases hi

theorem ohciCtrlXfer_spec (h : OhciInv s g) (hfit : SubmissionFits E s (.ctrl dev udev)) :
    ∃ ret s', ohciCtrlXfer s v u dev udev = .ok (ret, s') ∧
      Outcome E s g v u (.ctrl dev udev) ret s' := by
  have hmem : MemoryFits E s u (.ctrl dev udev) := trivial
  rcases ohciCtrlXfer_cases h.used.used v u dev udev with
    ⟨s', hback, hrun⟩ | ⟨s₁, setup, data, status, htook, hdata, hrun⟩
  · exact ⟨_, s', hrun, .inl ⟨hmem, .inl ⟨by decide, hback⟩⟩⟩
  have hsame : s₁.hwPipe = s.hwPipe := by rw [htook.rest]
  have h₁ := htook.inv h
  have hne : setup :: data.toList ++ [status] ≠ [] := by simp
  rw [hrun, ctrlWith, Ohci.ctrlEd]
  cases hpipe : s₁.hwPipe (.ep0 dev) with
  | some ed =>
    obtain ⟨hr, hun⟩ := h₁.pipe_control hpipe
    have ht := htook.taken (Taken.of_found h₁ hr hun)
    rw [hsame] at hpipe
    obtain ⟨g', hacc⟩ := ctrlLink_ok h ht hsame (ctrlLink_linked htook.nodup hdata) htook.utr htook.nodup
      hne hfit fun e' he' => h.pipes.inj _ _ _ he' hpipe
    refine ⟨0, _, rfl, .inl ⟨hmem, .inr ⟨rfl, g', ed, _, _, _, _, ⟨by rintro _ ⟨⟩, fun _ => .inr hpipe,
      fun hnew => ?_⟩, rfl, hacc⟩⟩⟩
    rw [hr] at hnew
    cases hnew
  | none =>
    cases halloc : s₁.allocEd with
    | mk ed s₂ =>
      cases ed with
      | none =>
        obtain ⟨rfl, -⟩ := allocEd_none halloc
        refine ⟨_, _, rfl, .inl ⟨hmem, .inl ⟨by decide, htook.freeTds h.used.used ?_⟩⟩⟩
        rw [List.cons_append]
        exact (List.perm_append_singleton status data.toList).symm.cons setup
      | some ed =>
        have hgot := Taken.of_alloc h₁ halloc .control id
        have hid : s₂.setEd ed id = s₂ := by
          simp only [Ohci.setEd, id, Function.update_eq_self]
        rw [hid] at hgot
        have ht := htook.taken hgot
        obtain ⟨hpipe₂, htd₂⟩ := allocEd_kept halloc
        have hutr : ∀ t ∈ setup :: data.toList ++ [status], (s₂.td t).utr = some v := by
          rw [htd₂]
          exact htook.utr
        obtain ⟨g', hacc⟩ := ctrlLink_ok h ht (hpipe₂.trans hsame) (ctrlLink_linked htook.nodup hdata)
          hutr htook.nodup hne hfit fun e' he' => absurd he' (ht.owner h e')
        refine ⟨0, _, rfl, .inl ⟨hmem, .inr ⟨rfl, g', ed, _, _, _, _, ⟨by rintro _ ⟨⟩,
          fun hold => ?_, fun _ => ⟨rfl, .inr (hsame ▸ hpipe)⟩⟩, rfl, hacc⟩⟩⟩
        rw [ht.alloc rfl] at hold
        cases hold

/-! ## Every submission -/

/-- A submission that fits is refused and nothing has changed, or accepted; without the room that its
path needs it leaves less than it found. -/
theorem ohciXfer_spec {sub : Submission} (h : OhciInv s g) (hfit : SubmissionFits E s sub) :
    ∃ ret s', ohciXfer E s v u sub = .ok (ret, s') ∧ Outcome E s g v u sub ret s' := by
  cases sub with
  | ctrl dev udev => exact ohciCtrlXfer_spec h hfit
  | bulk i => exact ohciBulkXfer_spec h hfit
  | int i => exact ohciIntXfer_spec h hfit
  | iso i => exact ohciIsoXfer_spec h hfit

/-- What is spoiled is not as it was. -/
theorem Spoiled.not_rolledBack (h : OhciInv s g) (hs : Spoiled s s') : ¬ RolledBack s s' := by
  intro hback
  rcases hs with huse | ⟨e, w, hpipe, hnone⟩
  · exact huse hback.use
  · rw [hback.use] at hnone
    have hpipe : s.hwPipe e = some w := by
      rw [← hpipe, hback.rest]
    obtain ⟨-, r, hr, -⟩ := h.pipes.pipe e w hpipe
    rw [h.use_ed hr] at hnone
    cases hnone

end

end NumakerMA35D1.UsbHost

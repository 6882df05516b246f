import NumakerMA35D1.Lib.Run
import NumakerMA35D1.Canfd.Control

/-!
# Installed filters and accepted frames

`Installed` is what a user of the device has installed: a filter or none in every slot of the two
lists, which only an installing command changes. `FilterExact` says that the controller accepts the
frames some installed filter matches, and no others. It does not hold of every run: an extended
filter has its identifier and its mask exchanged, a standard filter past the list's 64 elements is
written into the extended list, and every command that configures the device again clears both
lists. `installed_run` is that it holds in every state of the runs that keep clear of the three.
-/

namespace NumakerMA35D1.Canfd

open Embedded

/-! ## What is installed -/

/-- The filter in every slot of the two lists. -/
abbrev Installed := CanfdIdType → Nat → Option RtCanFilterItem

/-- No filter installed. -/
def Installed.none : Installed := fun _ _ => Option.none

/-- The slots the driver accepts for a type. -/
def slotLimit : CanfdIdType → Nat
  | .sid => CANFD_MAX_11_BIT_FTR_ELEMS
  | .xid => CANFD_MAX_29_BIT_FTR_ELEMS

/-- A filter installed in a slot. -/
def Installed.set (inst : Installed) (i : Nat) (item : RtCanFilterItem) : Installed :=
  fun ide j => if ide = item.ide ∧ j = i then some item else inst ide j

/-- Filters installed in the slots from the `i`-th on, up to the first one there is no slot for. -/
def Installed.setFrom (inst : Installed) (i : Nat) : List RtCanFilterItem → Installed
  | [] => inst
  | item :: items =>
    if i ≥ slotLimit item.ide then inst else (inst.set i item).setFrom (i + 1) items

/-- What a command does to the installed filters. -/
def Installed.control (board : Board) (inst : Installed) : Cmd → Installed
  | .setFilter items _ => if board.hdr then inst.setFrom 0 items else inst
  | _ => inst

/-- Whether a filter matches a frame: the identifiers agree in the bits of the mask. -/
def RtCanFilterItem.Matches (item : RtCanFilterItem) (frame : RxFrame) : Prop :=
  frame.id &&& (item.mask &&& fieldMask frame.ide.bits) =
    item.id.setWidth 32 &&& (item.mask &&& fieldMask frame.ide.bits)

/-- The controller accepts the frames that some installed filter matches, and no others. -/
def FilterExact (inst : Installed) (psCanfd : CanfdT) : Prop :=
  ∀ frame : RxFrame, accepted psCanfd frame = true ↔
    ∃ i item, inst frame.ide i = some item ∧ item.Matches frame

/-- The element lists of two controllers are the same. -/
def SameLists (psCanfd psCanfd' : CanfdT) : Prop :=
  (∀ ide, listSize psCanfd' ide = listSize psCanfd ide) ∧
    (∀ i < listSize psCanfd .sid, stdElem psCanfd' i = stdElem psCanfd i) ∧
    ∀ i < listSize psCanfd .xid, extElem psCanfd' i = extElem psCanfd i

/-! ## Elements read back -/

variable {id mask fec r : BitVec 32}

theorem stdFilterValue_config : getField (stdFilterValue id mask fec fltrTypeClassic r) 27 3 =
    fec &&& fieldMask 3 := by
  simp [stdFilterValue, getField_or, getField_putField, getField_putField_disjoint]

theorem stdMatches_stdFilterValue (frameId : BitVec 32) :
    stdMatches (stdFilterValue id mask fec fltrTypeClassic r) frameId =
      decide (frameId &&& (mask &&& fieldMask 11) = id &&& fieldMask 11 &&& (mask &&& fieldMask 11)) := by
  have hid1 : getField (stdFilterValue id mask fec fltrTypeClassic r) 16 11 = id &&& fieldMask 11 := by
    simp [stdFilterValue, getField_or, getField_putField, getField_putField_disjoint]
  have hid2 : getField (stdFilterValue id mask fec fltrTypeClassic r) 0 11 = mask &&& fieldMask 11 := by
    simp [stdFilterValue, getField_or, getField_putField, getField_putField_disjoint]
  have htype : getField (stdFilterValue id mask fec fltrTypeClassic r) 30 2 = fltrTypeClassic := by
    simp [stdFilterValue, getField_or, getField_putField, getField_putField_disjoint]
    decide
  rw [stdMatches, hid1, hid2, htype, if_neg (by decide), if_neg (by decide), if_pos rfl]

theorem extFilterLow_config : getField (extFilterLow mask fec) 29 3 = fec &&& fieldMask 3 := by
  simp [extFilterLow, getField_or, getField_putField, getField_putField_disjoint]

theorem extMatches_extFilter (xidam frameId : BitVec 32) :
    extMatches xidam (extFilterLow mask fec, extFilterHigh id fltrTypeClassic r) frameId =
      decide (frameId &&& xidam &&& (id &&& fieldMask 29) =
        mask &&& fieldMask 29 &&& (id &&& fieldMask 29)) := by
  have hid1 : getField (extFilterLow mask fec) 0 29 = mask &&& fieldMask 29 := by
    simp [extFilterLow, getField_or, getField_putField, getField_putField_disjoint]
  have hid2 : getField (extFilterHigh id fltrTypeClassic r) 0 29 = id &&& fieldMask 29 := by
    simp [extFilterHigh, getField_or, getField_putField, getField_putField_disjoint]
  have htype : getField (extFilterHigh id fltrTypeClassic r) 30 2 = fltrTypeClassic := by
    simp [extFilterHigh, getField_or, getField_putField, getField_putField_disjoint]
    decide
  rw [extMatches, hid1, hid2, htype, if_neg (by decide), if_neg (by decide), if_pos rfl]

theorem RtCanFilterItem.fec_cut (item : RtCanFilterItem) :
    item.fec &&& fieldMask 3 = item.fec := by
  rw [fec]
  cases item.mode <;> decide

theorem RtCanFilterItem.fec_ne_dis (item : RtCanFilterItem) : item.fec ≠ fltrElemDis := by
  rw [fec]
  cases item.mode <;> decide

theorem RtCanFilterItem.fec_stores (item : RtCanFilterItem) :
    item.fec = fltrElemStoFifo0 ∨ item.fec = fltrElemSetPriStoFifo0 := by
  rw [fec]
  cases item.mode <;> decide

/-! ## The lists tried -/

theorem firstHit_eq_none {n : Nat} {config : Nat → BitVec 32} {hit : Nat → Bool}
    (h : ∀ i < n, config i ≠ fltrElemDis → hit i = false) : firstHit n config hit = none := by
  have hfind : ((List.range n).find? fun i => config i ≠ fltrElemDis && hit i) = none := by
    rw [List.find?_eq_none]
    intro i hi
    simp only [Bool.and_eq_true, decide_eq_true_iff, not_and, Bool.not_eq_true]
    exact h i (List.mem_range.1 hi)
  rw [firstHit, hfind, Option.map_none]

theorem firstHit_isSome {n i : Nat} (config : Nat → BitVec 32) (hit : Nat → Bool) (hi : i < n)
    (hc : config i ≠ fltrElemDis) (hh : hit i = true) :
    ∃ j < n, config j ≠ fltrElemDis ∧ hit j = true ∧ firstHit n config hit = some (config j) := by
  have hmem : i ∈ List.range n := List.mem_range.2 hi
  cases hfind : (List.range n).find? fun i => config i ≠ fltrElemDis && hit i with
  | none =>
    have := List.find?_eq_none.1 hfind i hmem
    simp [hc, hh] at this
  | some j =>
    have hj := List.find?_some hfind
    simp only [Bool.and_eq_true, decide_eq_true_iff] at hj
    refine ⟨j, List.mem_range.1 (List.mem_of_find?_eq_some hfind), hj.1, hj.2, ?_⟩
    rw [firstHit, hfind, Option.map_some]

/-! ## The invariant -/

/-- A standard element holds a filter, or nothing. -/
def StdHolds (elem : BitVec 32) : Option RtCanFilterItem → Prop
  | none => elem = 0
  | some item => ∃ r,
    elem = stdFilterValue (item.id.setWidth 32) item.mask item.fec fltrTypeClassic r

/-- An extended element holds a filter as the driver writes it, or nothing. -/
def ExtHolds (elem : BitVec 32 × BitVec 32) : Option RtCanFilterItem → Prop
  | none => elem = (0, 0)
  | some item => ∃ r,
    elem = (extFilterLow item.mask item.fec,
      extFilterHigh (item.id.setWidth 32) fltrTypeClassic r)

/-- The lists of the default configuration hold the installed filters, the registers are those of an
opened controller, and only a running controller has filters. -/
structure FilterInv (inst : Installed) (psCanfd : CanfdT) : Prop where
  sidfc : psCanfd.SIDFC = 0x400000#32
  xidfc : psCanfd.XIDFC = 0x400100#32
  xidam : getField psCanfd.XIDAM 0 29 = fieldMask 29
  gfc : psCanfd.GFC = 0x3c#32
  std : ∀ i < 64, StdHolds (stdElem psCanfd i) (inst .sid i)
  ext : ∀ i < 64, ExtHolds (extElem psCanfd i) (inst .xid i)
  bound : ∀ ide i, 64 ≤ i → inst ide i = none
  xid : ∀ i item, inst .xid i = some item → item.id.setWidth 32 = item.mask &&& fieldMask 29
  stopped : running psCanfd = false → inst = Installed.none

variable {inst : Installed} {psCanfd psCanfd' : CanfdT} {i : Nat}

theorem FilterInv.listSize (h : FilterInv inst psCanfd) (ide : CanfdIdType) :
    listSize psCanfd ide = 64 := by
  cases ide
  · rw [Canfd.listSize, h.sidfc]; decide
  · rw [Canfd.listSize, h.xidfc]; decide

theorem FilterInv.elem_none (h : FilterInv inst psCanfd) {ide : CanfdIdType} (hi : i < 64)
    (hinst : inst ide i = none) : elemConfig psCanfd ide i = fltrElemDis := by
  cases ide with
  | sid =>
    have := h.std i hi
    rw [hinst] at this
    rw [elemConfig, show stdElem psCanfd i = 0 from this]
    decide
  | xid =>
    have := h.ext i hi
    rw [hinst] at this
    rw [elemConfig, show extElem psCanfd i = (0, 0) from this]
    decide

theorem FilterInv.elem_some (h : FilterInv inst psCanfd) {frame : RxFrame} (hi : i < 64)
    {item : RtCanFilterItem} (hinst : inst frame.ide i = some item) :
    elemConfig psCanfd frame.ide i = item.fec ∧
      (elemMatches psCanfd frame.id frame.ide i = true ↔ item.Matches frame) := by
  have hid := frame.id_lt
  rw [RtCanFilterItem.Matches]
  cases hide : frame.ide with
  | sid =>
    rw [hide] at hinst
    have hstd := h.std i hi
    rw [hinst] at hstd
    obtain ⟨r, hr⟩ := hstd
    have hcut : ∀ a m : BitVec 32, a &&& fieldMask 11 &&& (m &&& fieldMask 11) =
        a &&& (m &&& fieldMask 11) := by
      intro a m
      ext j hj
      simp only [BitVec.getElem_and]
      cases a[j] <;> cases m[j] <;> simp
    rw [elemConfig, elemMatches, hr, stdFilterValue_config, item.fec_cut,
      stdMatches_stdFilterValue, decide_eq_true_iff, hcut]
    exact ⟨rfl, Iff.rfl⟩
  | xid =>
    rw [hide] at hinst hid
    have hext := h.ext i hi
    rw [hinst] at hext
    obtain ⟨r, hr⟩ := hext
    -- the exchanged words say the same as the right ones since the identifier is the mask
    have heq := h.xid i item hinst
    have hframe : frame.id &&& fieldMask 29 = frame.id := and_fieldMask hid
    have hcut : item.id.setWidth 32 &&& fieldMask 29 = item.id.setWidth 32 := by
      rw [heq, BitVec.and_assoc, BitVec.and_self]
    rw [elemConfig, elemMatches, hr, extFilterLow_config, item.fec_cut, extMatches_extFilter,
      decide_eq_true_iff, hcut, h.xidam, hframe]
    refine ⟨rfl, ?_⟩
    show _ ↔ frame.id &&& (item.mask &&& fieldMask 29) =
      item.id.setWidth 32 &&& (item.mask &&& fieldMask 29)
    rw [← heq]

/-- The invariant gives the exact acceptance. -/
theorem FilterInv.exact (h : FilterInv inst psCanfd) : FilterExact inst psCanfd := by
  intro frame
  have hremote : rejectsRemote psCanfd frame.ide = false := by
    cases frame.ide <;> rw [rejectsRemote, h.gfc] <;> decide
  have hnon : nonMatching psCanfd frame.ide ≠ 0 := by
    cases frame.ide <;> rw [nonMatching, h.gfc] <;> decide
  rw [accepted, hremote, Bool.and_false, Bool.not_false, Bool.and_true, h.listSize]
  cases hrun : running psCanfd with
  | false =>
    rw [h.stopped hrun]
    simp [Installed.none]
  | true =>
    rw [Bool.true_and]
    constructor
    · intro hacc
      by_contra hno
      have hnone : firstHit 64 (elemConfig psCanfd frame.ide)
          (elemMatches psCanfd frame.id frame.ide) = none := by
        refine firstHit_eq_none fun i hi hc => ?_
        cases hinst : inst frame.ide i with
        | none => exact absurd (h.elem_none hi hinst) hc
        | some item =>
          rw [Bool.eq_false_iff]
          intro hhit
          exact hno ⟨i, item, hinst, (h.elem_some hi hinst).2.1 hhit⟩
      rw [hnone] at hacc
      exact hnon (of_decide_eq_true hacc)
    · rintro ⟨i, item, hinst, hmatch⟩
      have hi : i < 64 := by
        by_contra hge
        rw [h.bound _ _ (not_lt.1 hge)] at hinst
        cases hinst
      obtain ⟨hc, hm⟩ := h.elem_some hi hinst
      obtain ⟨j, hj, hcj, -, hfirst⟩ := firstHit_isSome
        (elemConfig psCanfd frame.ide) (elemMatches psCanfd frame.id frame.ide) hi
        (by rw [hc]; exact item.fec_ne_dis) (hm.2 hmatch)
      rw [hfirst]
      cases hinstj : inst frame.ide j with
      | none => exact absurd (h.elem_none hj hinstj) hcj
      | some itemj =>
        rw [(h.elem_some hj hinstj).1]
        exact decide_eq_true itemj.fec_stores

/-! ## Installing -/

/-- Filters whose installing keeps clear of the defects: a standard filter has an element in the
list of the default configuration, and an extended filter's identifier is its mask. The filters past
the first one there is no slot for do not count. -/
def SafeItems (i : Nat) : List RtCanFilterItem → Prop
  | [] => True
  | item :: items =>
    match item.ide with
    | .sid => i ≥ CANFD_MAX_11_BIT_FTR_ELEMS ∨ i < 64 ∧ SafeItems (i + 1) items
    | .xid => i ≥ CANFD_MAX_29_BIT_FTR_ELEMS ∨
      item.id.setWidth 32 = item.mask &&& fieldMask 29 ∧ SafeItems (i + 1) items

theorem FilterInv.listsApart (h : FilterInv inst psCanfd) : ListsApart psCanfd := by
  rw [ListsApart, flssa, flesa, h.sidfc, h.xidfc]
  decide

theorem Installed.set_eq {item : RtCanFilterItem} {ide : CanfdIdType} (hide : item.ide = ide)
    (j : Nat) : (inst.set i item) ide j = if j = i then some item else inst ide j := by
  simp [Installed.set, hide]

theorem Installed.set_ne {item : RtCanFilterItem} {ide : CanfdIdType} (hide : item.ide ≠ ide) :
    (inst.set i item) ide = inst ide := by
  funext j
  exact if_neg fun hc => hide hc.1.symm

/-- What the registers and the running state keep of the invariant when the lists change. -/
theorem FilterInv.of_lists (h : FilterInv inst psCanfd) (hrun : running psCanfd = true)
    {sram : WordMem} {item : RtCanFilterItem} (hi : i < 64)
    (hstd : ∀ j < 64, StdHolds (stdElem { psCanfd with sram } j) ((inst.set i item) .sid j))
    (hext : ∀ j < 64, ExtHolds (extElem { psCanfd with sram } j) ((inst.set i item) .xid j))
    (hxid : item.ide = .xid → item.id.setWidth 32 = item.mask &&& fieldMask 29) :
    FilterInv (inst.set i item) { psCanfd with sram } where
  sidfc := h.sidfc
  xidfc := h.xidfc
  xidam := h.xidam
  gfc := h.gfc
  std := hstd
  ext := hext
  bound := by
    intro ide j hj
    rw [Installed.set, if_neg (fun hc => by omega), h.bound ide j hj]
  xid := by
    intro j item' hinst
    rw [Installed.set] at hinst
    split at hinst
    · next hc =>
      cases hinst
      exact hxid hc.1.symm
    · exact h.xid j item' hinst
  stopped := by
    intro hstop
    have hrun' : running { psCanfd with sram } = true := hrun
    rw [hrun'] at hstop
    exact absurd hstop (by decide)

/-- A standard filter written to its element is installed. -/
theorem FilterInv.setSID (h : FilterInv inst psCanfd) (hrun : running psCanfd = true) (hi : i < 64)
    {item : RtCanFilterItem} (hide : item.ide = .sid) (r : BitVec 32) :
    FilterInv (inst.set i item) (canfdSetSIDFltr psCanfd i
      (stdFilterValue (item.id.setWidth 32) item.mask item.fec fltrTypeClassic r)) := by
  have hlim : i < CANFD_MAX_11_BIT_FTR_ELEMS := lt_trans hi (by decide)
  have hstd : ∀ j, stdElem (canfdSetSIDFltr psCanfd i _) j = _ := stdElem_setSID hlim
    (stdFilterValue (item.id.setWidth 32) item.mask item.fec fltrTypeClassic r)
  have hext := extElem_setSID h.listsApart hi
    (stdFilterValue (item.id.setWidth 32) item.mask item.fec fltrTypeClassic r)
  rw [canfdSetSIDFltr, if_neg (not_le.2 hlim)] at hstd hext ⊢
  refine h.of_lists hrun hi ?_ ?_ (fun hc => absurd (hide.symm.trans hc) (by decide))
  · intro j hj
    rw [hstd, Installed.set_eq hide]
    split
    · exact ⟨r, rfl⟩
    · exact h.std j hj
  · intro j hj
    rw [hext, Installed.set_ne (by rw [hide]; decide)]
    exact h.ext j hj

/-- An extended filter written to its element is installed when its identifier is its mask. -/
theorem FilterInv.setXID (h : FilterInv inst psCanfd) (hrun : running psCanfd = true) (hi : i < 64)
    {item : RtCanFilterItem} (hide : item.ide = .xid)
    (heq : item.id.setWidth 32 = item.mask &&& fieldMask 29) (r : BitVec 32) :
    FilterInv (inst.set i item) (canfdSetXIDFltr psCanfd i (extFilterLow item.mask item.fec)
      (extFilterHigh (item.id.setWidth 32) fltrTypeClassic r)) := by
  have hlim : i < CANFD_MAX_29_BIT_FTR_ELEMS := hi
  have hext : ∀ j, extElem (canfdSetXIDFltr psCanfd i _ _) j = _ := extElem_setXID hlim
    (extFilterLow item.mask item.fec) (extFilterHigh (item.id.setWidth 32) fltrTypeClassic r)
  have hstd : ∀ {j}, j < 64 → _ := stdElem_setXID h.listsApart hlim
    (extFilterLow item.mask item.fec) (extFilterHigh (item.id.setWidth 32) fltrTypeClassic r)
  rw [canfdSetXIDFltr, if_neg (not_le.2 hlim)] at hstd hext ⊢
  refine h.of_lists hrun hi ?_ ?_ (fun _ => heq)
  · intro j hj
    rw [hstd hj, Installed.set_ne (by rw [hide]; decide)]
    exact h.std j hj
  · intro j hj
    rw [hext, Installed.set_eq hide]
    split
    · exact ⟨r, rfl⟩
    · exact h.ext j hj

/-- The loop of an installing command keeps the invariant and the controller running. -/
theorem setFilterFrom_inv (reserved1 : Nat → BitVec 32) :
    ∀ {items : List RtCanFilterItem} {inst : Installed} {psCanfd : CanfdT} {i : Nat},
      FilterInv inst psCanfd → running psCanfd = true → SafeItems i items →
      FilterInv (inst.setFrom i items) (setFilterFrom reserved1 psCanfd i items).2
  | [], _, _, _, h, _, _ => h
  | item :: items, inst, psCanfd, i, h, hrun, hsafe => by
    rw [SafeItems] at hsafe
    rw [Installed.setFrom, setFilterFrom]
    cases hide : item.ide with
    | sid =>
      rw [hide] at hsafe
      dsimp only at hsafe ⊢
      by_cases hlim : i ≥ CANFD_MAX_11_BIT_FTR_ELEMS
      · rw [if_pos (show i ≥ slotLimit .sid from hlim), if_pos hlim]
        exact h
      · rw [if_neg (show ¬ i ≥ slotLimit .sid from hlim), if_neg hlim]
        obtain ⟨hi, hsafe'⟩ := hsafe.resolve_left hlim
        have hrun' : ∀ v, running (canfdSetSIDFltr psCanfd i v) = true := by
          intro v
          rw [canfdSetSIDFltr, if_neg hlim]
          exact hrun
        exact setFilterFrom_inv reserved1 (h.setSID hrun hi hide _) (hrun' _) hsafe'
    | xid =>
      rw [hide] at hsafe
      dsimp only at hsafe ⊢
      by_cases hlim : i ≥ CANFD_MAX_29_BIT_FTR_ELEMS
      · rw [if_pos (show i ≥ slotLimit .xid from hlim), if_pos hlim]
        exact h
      · rw [if_neg (show ¬ i ≥ slotLimit .xid from hlim), if_neg hlim]
        obtain ⟨heq, hsafe'⟩ := hsafe.resolve_left hlim
        have hi : i < 64 := not_le.1 hlim
        have hrun' : ∀ v w, running (canfdSetXIDFltr psCanfd i v w) = true := by
          intro v w
          rw [canfdSetXIDFltr, if_neg hlim]
          exact hrun
        exact setFilterFrom_inv reserved1 (h.setXID hrun hi hide heq _) (hrun' _ _) hsafe'

end NumakerMA35D1.Canfd

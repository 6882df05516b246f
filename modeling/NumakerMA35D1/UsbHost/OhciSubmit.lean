import NumakerMA35D1.UsbHost.OhciLink

/-!
# Submissions to the OHCI driver

What a submission leaves. When it is for an endpoint that it fits (`SubmissionFits`), and the pool has
room or the path that fails gives back what it took (`MemoryFits`), the submission is refused and
nothing changed, or its TDs are put behind those of the endpoint's ED (`Accepted`). `Outcome` says so;
`ohciBulkXfer_spec` proves it of the bulk transfers.

Reference: `_ohci.c_`.
-/

namespace NumakerMA35D1.UsbHost

open Embedded

/-! ## What is submitted -/

/-- Reference: `_ohci.c_:313 ed_make_info`. -/
def EpInfo.number (ep : EpInfo) : BitVec 8 := ep.bEndpointAddress &&& 0x0f#8

/-- Reference: `usb.h:175 EP_ATTR_TT_MASK`. -/
def EpInfo.type (ep : EpInfo) : BitVec 8 := ep.bmAttributes &&& 0x03#8

/-- The first head of the interrupt tree that an endpoint's ED is looked for at. -/
def intHead (E : Endpoints) (s : Ohci) (i : Nat) : Unit64 :=
  s.ied (getIntTreeHeadNode (E i).2.bInterval.toNat)

/-- The endpoint's information on an ED. -/
def epInfo (E : Endpoints) (i : Nat) : BitVec 32 := edMakeInfo (E i).1 (some (E i).2)

/-- The ED that the submission finds is no other endpoint's. -/
def Unshared (E : Endpoints) (s : Ohci) (i : Nat) (head : Option Unit64) : Prop :=
  ∀ u e, s.findEd head (epInfo E i) = .ok (some u) → s.hwPipe e = some u → e = .ep i

/-- The submission is for an endpoint of its type: control transfers go to a device of an address of
seven bits, the others to endpoints that have a number and, when they are periodic, an interval. -/
def SubmissionFits (E : Endpoints) (s : Ohci) : Submission → Prop
  | .ctrl _ udev => udev.devNum.toNat < 128
  | .bulk i => (E i).2.type = 2#8 ∧ (E i).2.number ≠ 0 ∧ Unshared E s i s.bulkHead
  | .int i => (E i).2.type = 3#8 ∧ (E i).2.number ≠ 0 ∧ 0 < (E i).2.bInterval.toNat ∧
      Unshared E s i (some (intHead E s i))
  | .iso i => (E i).2.type = 1#8 ∧ (E i).2.number ≠ 0 ∧ 0 < (E i).2.bInterval.toNat ∧
      Unshared E s i (some (intHead E s i))

/-- The pool has room for the units of a bulk transfer, or the transfer takes none: the endpoint's ED is busy, or there
is not even one unit for a new ED. An idle ED that is in the list is freed where the TDs run out. -/
def BulkRoom (E : Endpoints) (s : Ohci) (u : Utr) (i : Nat) : Option Unit64 → Prop
  | none => s.pool.room = 0 ∨ (u.bulkTds (E i).2).length + 1 ≤ s.pool.room
  | some ed => (s.ed ed).headP ≠ (s.ed ed).tailP ∨ (u.bulkTds (E i).2).length ≤ s.pool.room

/-- The pool has room for the submission, or the path that runs out of memory gives back what it took. That of a
control transfer always does; that of an interrupt transfer does but where there is one unit and a new ED is needed; that
of an isochronous transfer does for a new ED, but frees one that is in the list. -/
def MemoryFits (E : Endpoints) (s : Ohci) (u : Utr) : Submission → Prop
  | .ctrl _ _ => True
  | .bulk i => ∀ found, s.findEd s.bulkHead (epInfo E i) = .ok found → BulkRoom E s u i found
  | .int i => u.dataLen.toNat ≤ 64 → s.findEd (some (intHead E s i)) (epInfo E i) = .ok none →
      s.pool.room ≠ 1
  | .iso i => ∀ ed, s.findEd (some (intHead E s i)) (epInfo E i) = .ok (some ed) →
      IF_PER_UTR ≤ s.pool.room

/-! ## Bits -/

section

variable {udev : UdevInfo} {ep : EpInfo}

theorem and_bit_eq_zero {x : BitVec 32} {k : Nat} (hk : k < 32) :
    x &&& 1#32 <<< k = 0 ↔ x.getLsbD k = false := by
  constructor
  · intro h
    have hbit := congrArg (BitVec.getLsbD · k) h
    simpa [hk] using hbit
  · intro h
    apply BitVec.eq_of_getLsbD_eq
    intro i hi
    by_cases hik : i = k
    · subst hik
      simp [h]
    · simp [BitVec.getLsbD_one]
      omega

/-- The information of an endpoint does not skip it. -/
theorem edMakeInfo_skip : edMakeInfo udev (some ep) &&& ED_SKIP = 0 := by
  rw [ED_SKIP, and_bit_eq_zero (by decide), edMakeInfo]
  cases hspeed : udev.speed <;> simp [ED_FORMAT_ISO] <;> split <;> split <;> simp

theorem edMakeInfo_ne_skip : edMakeInfo udev (some ep) ≠ ED_SKIP := by
  intro h
  refine absurd (show edMakeInfo udev (some ep) &&& ED_SKIP = 0 from edMakeInfo_skip) ?_
  rw [h]
  decide

theorem edMakeInfo_iso : edMakeInfo udev (some ep) &&& ED_FORMAT_ISO = 0 ↔ ep.type ≠ 1#8 := by
  rw [ED_FORMAT_ISO, and_bit_eq_zero (by decide), edMakeInfo, EpInfo.type]
  cases hspeed : udev.speed <;> simp [ED_FORMAT_ISO] <;> split <;> split <;> simp_all

/-- An endpoint with a number is not endpoint zero. -/
theorem edMakeInfo_addr (h : ep.number ≠ 0) : edMakeInfo udev (some ep) &&& ED_EP_ADDR_Msk ≠ 0 := by
  intro h0
  apply h
  apply BitVec.eq_of_getLsbD_eq
  intro j hj
  rcases Nat.lt_or_ge j 4 with hj4 | hj4
  · have hbit : (edMakeInfo udev (some ep) &&& ED_EP_ADDR_Msk).getLsbD (7 + j) = false := by
      rw [h0]
      exact BitVec.getLsbD_zero
    have hmask : ED_EP_ADDR_Msk.getLsbD (7 + j) = true := by
      interval_cases j <;> decide
    rw [BitVec.getLsbD_and, hmask, Bool.and_true, edMakeInfo] at hbit
    simp only [BitVec.getLsbD_or, Bool.or_eq_false_iff, BitVec.getLsbD_shiftLeft] at hbit
    have hnum := hbit.1.1.1.1.2
    have h32 : 7 + j < 32 := by omega
    have h7 : ¬ 7 + j < 7 := by omega
    have hj32 : j < 32 := by omega
    rw [Nat.add_sub_cancel_left, BitVec.getLsbD_setWidth] at hnum
    simp only [h32, h7, hj32, decide_true, decide_false, Bool.not_false, Bool.true_and] at hnum
    exact hnum.trans BitVec.getLsbD_zero.symm
  · have hmask : (0x0f#8).getLsbD j = false := by
      interval_cases j <;> decide
    rw [EpInfo.number, BitVec.getLsbD_and, hmask, Bool.and_false]
    exact BitVec.getLsbD_zero.symm

/-- Endpoint zero of a device of an address of seven bits. -/
theorem edMakeInfo_ep0 (h : udev.devNum.toNat < 128) :
    edMakeInfo udev none &&& ED_EP_ADDR_Msk = 0 := by
  have hdev : ∀ j, 7 ≤ j → udev.devNum.getLsbD j = false := by
    intro j hj
    rw [BitVec.getLsbD, Nat.testBit_lt_two_pow]
    calc udev.devNum.toNat < 2 ^ 7 := h
      _ ≤ 2 ^ j := Nat.pow_le_pow_right (by decide) hj
  have hmask : ∀ j, ED_EP_ADDR_Msk.getLsbD j = true → 7 ≤ j ∧ j ≤ 10 := by
    intro j hj
    by_cases hlt : j < 32
    · revert hj
      interval_cases j <;> decide
    · rw [BitVec.getLsbD_of_ge _ _ (by omega)] at hj
      cases hj
  apply BitVec.eq_of_getLsbD_eq
  intro j hj
  rw [BitVec.getLsbD_and]
  cases hbit : ED_EP_ADDR_Msk.getLsbD j with
  | false => simp
  | true =>
    obtain ⟨hj7, hj10⟩ := hmask j hbit
    have hspeed : (if udev.speed = .LOW then 1#32 <<< 13 else 0#32).getLsbD j = false := by
      split
      · interval_cases j <;> decide
      · exact BitVec.getLsbD_zero
    have h16 : j < 16 := by omega
    simp only [edMakeInfo, BitVec.getLsbD_or, BitVec.getLsbD_shiftLeft, hspeed, h16, hdev j hj7,
      BitVec.getLsbD_setWidth, decide_true, Bool.not_true, Bool.and_false, Bool.false_and,
      Bool.or_false]
    exact BitVec.getLsbD_zero.symm

end

/-! ## What is looked for -/

section

variable {s : Ohci} {g : OhciLists} {head : Option Unit64} {xs : List Unit64}

/-- A list of units that differ is no longer than the pool. -/
theorem Chain.length_le {next : Unit64 → Option Unit64} (h : Chain next head xs) :
    xs.length ≤ MEM_POOL_UNIT_NUM := by
  have hle := (Chain.nodup h).length_le_card
  rwa [Fintype.card_fin] at hle

theorem findEd_chain (h : Chain s.nextED head xs) (info : BitVec 32) :
    s.findEd head info = .ok (xs.find? fun u => (s.ed u).info = info) := by
  rw [Ohci.findEd, walk_chain h _ (Chain.length_le h)]

/-- Only the EDs matter. -/
theorem findEd_congr {s' : Ohci} (hed : s'.ed = s.ed) (head : Option Unit64) (info : BitVec 32) :
    s'.findEd head info = s.findEd head info := by
  have hnext : s'.nextED = s.nextED := by
    funext u
    rw [Ohci.nextED, hed]
    rfl
  rw [Ohci.findEd, Ohci.findEd, hnext, hed]

theorem lastTd_chain {t : Unit64} (h : Chain s.nextTD (some t) xs) :
    ∃ last, xs.getLast? = some last ∧ s.lastTd t = .ok last := by
  obtain ⟨last, hlast⟩ : ∃ last, xs.getLast? = some last := by
    cases xs with
    | nil => cases h
    | cons x xs => exact ⟨_, List.getLast?_eq_some_getLast (List.cons_ne_nil x xs)⟩
  refine ⟨last, hlast, ?_⟩
  rw [Ohci.lastTd, walk_chain h _ (Chain.length_le h), find_last h, hlast]

/-- The bulk list is looked through. -/
theorem OhciInv.findBulk (h : OhciInv s g) (info : BitVec 32) :
    ∃ found, s.findEd s.bulkHead info = .ok found ∧
      (∀ u, found = some u → g.edRole u = some .bulk ∧ (s.ed u).info = info) ∧
      (found = none → ∀ u, g.edRole u = some .bulk → (s.ed u).info ≠ info) := by
  refine ⟨_, findEd_chain h.eds.bulk info, fun u hu => ⟨?_, ?_⟩, fun hnone u hu heq => ?_⟩
  · exact (h.eds.mem_bulk u).1 (List.mem_of_find?_eq_some hu)
  · simpa using List.find?_some hu
  · have hall := List.find?_eq_none.1 hnone u ((h.eds.mem_bulk u).2 hu)
    simp [heq] at hall

/-- The interrupt tree is looked through from a head on. -/
theorem OhciInv.findTree (h : OhciInv s g) (k : Fin 6) {info : BitVec 32} (hinfo : info ≠ ED_SKIP) :
    ∃ found, s.findEd (some (s.ied k)) info = .ok found ∧
      (∀ u, found = some u → (s.ed u).info = info ∧ ∃ j r, g.edRole u = some r ∧ r.Periodic j) ∧
      (found = none → ∀ u r, g.edRole u = some r → r.Periodic k → (s.ed u).info ≠ info) := by
  refine ⟨_, findEd_chain (h.eds.tree k.val k.isLt) info, fun u hu => ?_, fun hnone u r hr hper heq => ?_⟩
  · have hfound : (s.ed u).info = info := by simpa using List.find?_some hu
    refine ⟨hfound, ?_⟩
    obtain ⟨j, -, hj⟩ := (mem_treeFrom k.val k.isLt).1 (List.mem_of_find?_eq_some hu)
    rcases hj with rfl | hj
    · exact absurd (hfound.symm.trans (h.pipes.info _ _ (h.eds.head j))) hinfo
    · obtain ⟨r, hr, hper⟩ := (h.eds.mem_int j u).1 hj
      exact ⟨j, r, hr, hper⟩
  · have hmem : u ∈ treeFrom s.ied g.int k.val k.isLt :=
      (mem_treeFrom k.val k.isLt).2 ⟨k, Nat.le_refl _, .inr ((h.eds.mem_int k u).2 ⟨r, hr, hper⟩)⟩
    have hall := List.find?_eq_none.1 hnone u hmem
    simp [heq] at hall

end

/-! ## An ED that TDs are put at -/

/-- The ED `ed`, found or taken from the pool, has the role `r` and the TDs `ts` and is `e`'s. The
units `new` were taken for TDs; nothing else has changed but links. -/
structure Placed (s s' : Ohci) (g g' : OhciLists) (e : EpRef) (ed : Unit64) (r : EdRole)
    (ts new : List Unit64) : Prop where
  puts : Puts g g' ed r ts
  eds : EdsOk s' g'
  role : g.edRole ed = none ∨ g.edRole ed = some r
  serves : r.Serves e
  fresh : ∀ t ∈ ts, t ∈ new ∨ g.tdRole t = some (.linked ed)
  chain : Chain s'.nextTD (s'.ed ed).headP ts
  tail : TailFits (s'.ed ed).tailP ts r
  tdKept : ∀ t r', g.tdRole t = some r' → r' ≠ .linked ed → s'.td t = s.td t
  edKept : ∀ w r', g.edRole w = some r' → w ≠ ed → s'.ed w = { s.ed w with nextED := s'.nextED w }
  info : InfoFits (s'.ed ed) r
  fits : s'.UseFits
  newFree : ∀ t ∈ new, t ≠ ed ∧ s.use t = none
  unused : s.use ed ≠ some .td
  use : s'.use = fun u => if u ∈ new then some .td else Function.update s.use ed (some .ed) u
  unlisted : ed ∉ s.edRemoveList
  owner : ∀ e', s.hwPipe e' = some ed → e' = e
  pipe : s'.hwPipe = Function.update s.hwPipe e (some ed) ∨
    s'.hwPipe = s.hwPipe ∧ g.edRole ed = none ∧ ∃ k, r = .iso k
  same : s'.edRemoveList = s.edRemoveList ∧ s'.sfEnable = s.sfEnable ∧ s'.doneQueue = s.doneQueue
  control : g'.control = if r = .control then [ed] else g.control

section

variable {E : Endpoints} {s s' : Ohci} {g g' : OhciLists} {e : EpRef} {ed w t : Unit64} {r : EdRole}
  {ts new : List Unit64}

theorem Placed.use_other (hp : Placed s s' g g' e ed r ts new) (hw : w ≠ ed) :
    s'.use w = some .ed ↔ s.use w = some .ed := by
  rw [hp.use]
  by_cases hmem : w ∈ new
  · simp [hmem, (hp.newFree w hmem).2]
  · simp [hmem, hw]

theorem Placed.use_kept (hp : Placed s s' g g' e ed r ts new) (ht : s.use t = some .td) :
    s'.use t = some .td := by
  have hne : t ≠ ed := by
    rintro rfl
    exact hp.unused ht
  rw [hp.use]
  simp [hne, ht]

theorem Placed.inv (hp : Placed s s' g g' e ed r ts new) (h : OhciInv s g) : OhciInv s' g' where
  eds := hp.eds
  tds := by
    refine h.tds.put hp.puts (fun t ht => ?_) hp.chain hp.tail (fun t r' ht hne => ?_)
      (fun w r' hw hne => ?_) hp.same.2.2
    · rcases hp.fresh t ht with hnew | hold
      · exact .inl (h.tdRole_none (by rw [(hp.newFree t hnew).2]; rintro ⟨⟩))
      · exact .inr hold
    · exact congrArg Td.nextTD (hp.tdKept t r' ht hne)
    · rw [hp.edKept w r' hw hne]
      exact ⟨rfl, rfl⟩
  used := by
    refine h.used.put hp.puts hp.fits ?_ (fun t ht => ?_) (fun w hw => hp.use_other hw)
      fun t ht => hp.use_kept ht
    · rw [hp.use]
      have hmem : ed ∉ new := fun hmem => (hp.newFree ed hmem).1 rfl
      simp [hmem]
    · rcases hp.fresh t ht with hnew | hold
      · rw [hp.use]
        simp [hnew]
      · exact hp.use_kept (h.use_td hold)
  pipes := by
    refine h.pipes.put hp.puts hp.unlisted hp.info (fun w r' hw hne => ?_) hp.same.1 ?_
      hp.owner
    · rw [hp.edKept w r' hw hne]
      exact ⟨rfl, rfl⟩
    · rcases hp.pipe with hpipe | ⟨hpipe, hnone, -⟩
      · exact .inl ⟨hpipe, hp.serves⟩
      · refine .inr ⟨hpipe, fun e' he' => ?_⟩
        obtain ⟨-, r', hr', -⟩ := h.pipes.pipe e' ed he'
        rw [hnone] at hr'
        cases hr'

end

/-! ## An ED found or taken -/

/-- The ED `ed` that a submission has found, or taken from the pool, with the contents `d`, and the
units `new` that it has taken for TDs. -/
structure Taken (s s₁ : Ohci) (g : OhciLists) (ed : Unit64) (r : EdRole) (d : Ed) (isNew : Bool)
    (new : List Unit64) : Prop where
  eq : s₁ = { s with
    pool := s₁.pool
    use := fun u => if u ∈ new then some .td else Function.update s.use ed (some .ed) u
    ed := Function.update s.ed ed d
    td := s₁.td
    hwPipe := s₁.hwPipe }
  fits : s₁.UseFits
  total : s₁.pool.total = s.pool.total
  free : ∀ u, s₁.pool.unitUsed u = false → s.pool.unitUsed u = false
  newFree : ∀ t ∈ new, t ≠ ed ∧ s.pool.unitUsed t = false
  td : ∀ t, t ∉ new → s₁.td t = s.td t
  unlisted : ed ∉ s.edRemoveList
  unused : s.use ed ≠ some .td
  found : isNew = false → g.edRole ed = some r ∧ d = s.ed ed
  alloc : isNew = true → g.edRole ed = none

section

variable {s s₀ s₁ s₂ : Ohci} {g : OhciLists} {ed t : Unit64} {r : EdRole} {d : Ed} {isNew : Bool}
  {tds new : List Unit64} {r' : TdRole}

/-- TDs that have no place yet do not matter. -/
theorem TookTds.inv (ht : TookTds s s₁ tds) (h : OhciInv s g) : OhciInv s₁ g := by
  have hnone : ∀ t ∈ tds, s.use t = none := fun t hmem => h.used.used.use_none (ht.free t hmem)
  refine h.frame ⟨ht.fits h.used.used, fun u => ?_, fun t huse => ?_, fun u _ => ?_, fun t huse => ?_,
    ?_, ?_, ?_, ?_, ?_, ?_⟩
  · rw [ht.use]
    by_cases hu : u ∈ tds
    · simp [hu, hnone u hu]
    · simp [hu]
  · rw [ht.use]
    simp [huse]
  · rw [ht.rest]
  · refine ht.td t fun hmem => ?_
    rw [hnone t hmem] at huse
    cases huse
  all_goals rw [ht.rest]

theorem Taken.of_found (h : OhciInv s g) (hr : g.edRole ed = some r) (hun : ed ∉ s.edRemoveList) :
    Taken s s g ed r (s.ed ed) false [] where
  eq := by
    have huse : (fun u => if u ∈ ([] : List Unit64) then some UnitUse.td else
        Function.update s.use ed (some .ed) u) = s.use := by
      simp only [List.not_mem_nil, if_false]
      exact Function.update_eq_self_iff.2 (h.use_ed hr).symm
    rw [huse, Function.update_eq_self]
  fits := h.used.used
  total := rfl
  free _ hu := hu
  newFree := by rintro _ ⟨⟩
  td _ _ := rfl
  unlisted := hun
  unused := by
    rw [h.use_ed hr]
    rintro ⟨⟩
  found _ := ⟨hr, rfl⟩
  alloc := by rintro ⟨⟩

theorem Taken.of_alloc (h : OhciInv s g) (halloc : s.allocEd = (some ed, s₀)) (r : EdRole)
    (f : Ed → Ed) : Taken s (s₀.setEd ed f) g ed r (f Ed.zero) true [] := by
  obtain ⟨hfree, rfl⟩ := allocEd_some halloc
  have hnone := h.used.used.use_none hfree
  have hrole : g.edRole ed = none := h.edRole_none (by rw [hnone]; rintro ⟨⟩)
  refine ⟨?_, h.used.used.take ed .ed, MemPool.total_take hfree, fun u hu => ?_, by rintro _ ⟨⟩,
    fun _ _ => rfl, fun hmem => ?_, ?_, by rintro ⟨⟩, fun _ => hrole⟩
  · simp only [Ohci.setEd, Ohci.take, Function.update_self, Function.update_idem, List.not_mem_nil,
      if_false]
  · have hu : (s.pool.take ed).unitUsed u = false := hu
    rw [MemPool.take_unitUsed] at hu
    split at hu
    · cases hu
    · exact hu
  · obtain ⟨-, r', hr', -⟩ := h.pipes.remove ed hmem
    rw [hrole] at hr'
    cases hr'
  · rw [hnone]
    rintro ⟨⟩

theorem Taken.not_mem (ht : Taken s s₁ g ed r d isNew new) : ed ∉ new :=
  fun hmem => (ht.newFree ed hmem).1 rfl

theorem Taken.rest (ht : Taken s s₁ g ed r d isNew new) :
    (s₁.ied = s.ied ∧ s₁.controlHead = s.controlHead ∧ s₁.bulkHead = s.bulkHead) ∧ s₁.utr = s.utr ∧
      s₁.edRemoveList = s.edRemoveList ∧ s₁.sfEnable = s.sfEnable ∧ s₁.doneQueue = s.doneQueue := by
  rw [ht.eq]
  exact ⟨⟨rfl, rfl, rfl⟩, rfl, rfl, rfl, rfl⟩

theorem Taken.ed_eq (ht : Taken s s₁ g ed r d isNew new) : s₁.ed = Function.update s.ed ed d := by
  rw [ht.eq]

theorem Taken.use_eq (ht : Taken s s₁ g ed r d isNew new) : s₁.use =
    fun u => if u ∈ new then some .td else Function.update s.use ed (some .ed) u := by
  rw [ht.eq]

theorem Taken.use_self (ht : Taken s s₁ g ed r d isNew new) : s₁.use ed = some .ed := by
  rw [ht.eq]
  simp [ht.not_mem]

/-- The endpoints' EDs may change. -/
theorem Taken.setPipe (ht : Taken s s₁ g ed r d isNew new) (e : EpRef) (w : Option Unit64) :
    Taken s (s₁.setPipe e w) g ed r d isNew new := by
  refine { ht with eq := ?_ }
  rw [Ohci.setPipe, ht.eq]

/-- A new ED may get other contents. -/
theorem Taken.setEd (ht : Taken s s₁ g ed r d true new) (f : Ed → Ed) :
    Taken s (s₁.setEd ed f) g ed r (f d) true new := by
  refine { ht with eq := ?_, found := (by rintro ⟨⟩) }
  have hself : s₁.ed ed = d := by rw [ht.ed_eq, Function.update_self]
  rw [Ohci.setEd, hself, ht.eq]
  simp only [Function.update_idem]

/-- More TDs are taken. -/
theorem Taken.took (ht : Taken s s₁ g ed r d isNew new) (htds : TookTds s₁ s₂ tds) :
    Taken s s₂ g ed r d isNew (new ++ tds) := by
  refine ⟨?_, htds.fits ht.fits, htds.total.trans ht.total, fun u hu => ?_, fun t hmem => ?_,
    fun t hmem => ?_, ht.unlisted, ht.unused, ht.found, ht.alloc⟩
  · have huse : s₂.use = fun u => if u ∈ new ++ tds then some .td else
        Function.update s.use ed (some .ed) u := by
      rw [htds.use, ht.eq]
      funext u
      by_cases hu : u ∈ tds
      · simp [hu]
      · by_cases hu' : u ∈ new <;> simp [hu, hu']
    rw [← huse, htds.rest, ht.eq]
  · have hu : s₁.pool.unitUsed u = false := by
      rw [htds.pool, MemPool.takes_unitUsed, Bool.or_eq_false_iff] at hu
      exact hu.1
    exact ht.free u hu
  · rcases List.mem_append.1 hmem with hmem | hmem
    · exact ht.newFree t hmem
    · refine ⟨?_, ht.free t (htds.free t hmem)⟩
      rintro rfl
      have hfree := htds.free t hmem
      rw [ht.fits t, ht.use_self] at hfree
      cases hfree
  · rw [htds.td t fun h => hmem (List.mem_append_right _ h)]
    exact ht.td t fun h => hmem (List.mem_append_left _ h)

/-- TDs were taken before. -/
theorem TookTds.taken (htds : TookTds s s₁ tds)
    (ht : Taken s₁ s₂ g ed r d isNew []) : Taken s s₂ g ed r d isNew tds := by
  have hed : ed ∉ tds := by
    intro hmem
    refine ht.unused ?_
    rw [htds.use]
    simp [hmem]
  refine ⟨?_, ht.fits, ht.total.trans htds.total, fun u hu => ?_, fun t hmem => ⟨?_, htds.free t hmem⟩,
    fun t hmem => ?_, ?_, ?_, fun hnew => ?_, ht.alloc⟩
  · have huse : (fun u => if u ∈ ([] : List Unit64) then some UnitUse.td else
        Function.update s₁.use ed (some .ed) u) =
        fun u => if u ∈ tds then some .td else Function.update s.use ed (some .ed) u := by
      rw [htds.use]
      funext u
      by_cases hu : u = ed
      · subst hu
        simp [hed]
      · simp [hu]
    rw [← huse, ht.eq, htds.rest]
  · have hu := ht.free u hu
    rw [htds.pool, MemPool.takes_unitUsed, Bool.or_eq_false_iff] at hu
    exact hu.1
  · rintro rfl
    exact hed hmem
  · rw [ht.td t List.not_mem_nil]
    exact htds.td t hmem
  · have hun := ht.unlisted
    rwa [htds.rest] at hun
  · intro huse
    refine ht.unused ?_
    rw [htds.use]
    simp [hed, huse]
  · obtain ⟨hr, hd⟩ := ht.found hnew
    refine ⟨hr, ?_⟩
    rw [hd, htds.rest]

theorem Taken.role (ht : Taken s s₁ g ed r d isNew new) :
    g.edRole ed = none ∨ g.edRole ed = some r := by
  cases hnew : isNew with
  | false => exact .inr (ht.found hnew).1
  | true => exact .inl (ht.alloc hnew)

/-- A TD that has a place is as it was. -/
theorem Taken.kept (ht : Taken s s₁ g ed r d isNew new) (h : OhciInv s g)
    (hr : g.tdRole t = some r') : s₁.td t = s.td t := by
  refine ht.td t fun hmem => ?_
  have hnone := h.used.used.use_none (ht.newFree t hmem).2
  rw [h.use_td hr] at hnone
  cases hnone

/-- A new ED is no endpoint's. -/
theorem Taken.owner (ht : Taken s s₁ g ed r d true new) (h : OhciInv s g) (e : EpRef) :
    s.hwPipe e ≠ some ed := by
  intro he
  obtain ⟨-, r', hr', -⟩ := h.pipes.pipe e ed he
  rw [ht.alloc rfl] at hr'
  cases hr'

end

/-! ## The bytes of a TD -/

/-- What a TD is to `td_done`: `data` when its bytes are counted. Reference: `_ohci.c_:955 td_done`. -/
inductive TdKind
  | plain | data | iso
deriving DecidableEq

@[inherit_doc TdKind]
def tdKind (info : BitVec 32) : TdKind :=
  if info &&& TD_TYPE_Msk = TD_TYPE_ISO then .iso
  else if info &&& TD_TYPE_Msk = TD_TYPE_CTRL ∧ info &&& TD_CTRL_DATA = 0 then .plain
  else .data

/-- The bytes that a TD is for, as the controller and `td_done` read them. -/
structure TdBytes where
  kind : TdKind
  cbp : BitVec 32
  be : BitVec 32
  buffStart : BitVec 32
deriving DecidableEq

/-- The bytes of a buffer as `writeTd` writes them. -/
def TdBytes.of (kind : TdKind) (buff len : BitVec 32) : TdBytes :=
  if buff = 0 ∨ len = 0 then ⟨kind, 0, 0, 0⟩ else ⟨kind, buff, buff + len - 1, buff⟩

def Td.bytes (td : Td) : TdBytes := ⟨tdKind td.info, td.cbp, td.be, td.buffStart⟩

theorem writeTd_bytes (td : Td) (info buff len : BitVec 32) :
    (writeTd td info buff len).bytes = .of (tdKind info) buff len := by
  rw [Td.bytes, writeTd, TdBytes.of]
  dsimp only
  split <;> rfl

/-- The loop writes each TD as given, and no TD that was taken before. -/
theorem chainTds_bytes {v : Nat} {ed : Unit64} {writes : List (Td → Td)} {tds tds' : List Unit64}
    {s s' : Ohci} (hrun : chainTds v ed writes tds s = (tds', true, s')) :
    ∃ new, tds' = tds ++ new ∧
      new.map (fun t => (s'.td t).bytes) = writes.map (fun write => (write (Td.zero (some v))).bytes) ∧
      ∀ t, s.pool.unitUsed t = true → (s'.td t).bytes = (s.td t).bytes := by
  induction writes generalizing tds s with
  | nil =>
    cases hrun
    exact ⟨[], (List.append_nil _).symm, rfl, fun _ _ => rfl⟩
  | cons write writes ih =>
    rw [chainTds] at hrun
    split at hrun
    · cases hrun
    · rename_i t s₁ halloc
      obtain ⟨hfree, rfl⟩ := allocTd_some halloc
      dsimp only at hrun
      generalize hs₂ : Ohci.setTd { s.take t .td with td := Function.update s.td t (Td.zero (some v)) } t
        (fun td => { write td with ed := some ed }) = s₂ at hrun
      have hs₂t : s₂.td t = { write (Td.zero (some v)) with ed := some ed } := by
        rw [← hs₂]
        simp [Ohci.setTd]
      have hs₂o : ∀ x, x ≠ t → s₂.td x = s.td x := by
        intro x hx
        rw [← hs₂]
        simp [Ohci.setTd, hx]
      have hs₂u : ∀ x, x = t ∨ s.pool.unitUsed x = true → s₂.pool.unitUsed x = true := by
        intro x hx
        rw [← hs₂]
        change (s.pool.take t).unitUsed x = true
        rw [MemPool.take_unitUsed]
        rcases hx with rfl | hx
        · rw [if_pos rfl]
        · split
          · rfl
          · exact hx
      have hdone : ∀ s₃ : Ohci, s₃.pool = s₂.pool → (∀ x, (s₃.td x).bytes = (s₂.td x).bytes) →
          chainTds v ed writes (tds ++ [t]) s₃ = (tds', true, s') → ∃ new, tds' = tds ++ new ∧
            new.map (fun t => (s'.td t).bytes) =
              (write :: writes).map (fun write => (write (Td.zero (some v))).bytes) ∧
            ∀ t, s.pool.unitUsed t = true → (s'.td t).bytes = (s.td t).bytes := by
        intro s₃ hpool htd hrun
        obtain ⟨new, hnew, hbytes, hold⟩ := ih hrun
        rw [hpool] at hold
        refine ⟨t :: new, ?_, ?_, fun x hx => ?_⟩
        · rw [hnew, List.append_assoc]
          rfl
        · rw [List.map_cons, List.map_cons, hbytes, hold t (hs₂u t (.inl rfl)), htd, hs₂t]
          rfl
        · have hxt : x ≠ t := by
            rintro rfl
            rw [hfree] at hx
            cases hx
          rw [hold x (hs₂u x (.inr hx)), htd, hs₂o x hxt]
      cases hl : tds.getLast? with
      | none =>
        rw [hl] at hrun
        exact hdone s₂ rfl (fun _ => rfl) hrun
      | some last =>
        rw [hl] at hrun
        refine hdone (s₂.setTd last fun td => { td with nextTD := some t }) rfl (fun x => ?_) hrun
        change (Function.update s₂.td last _ x).bytes = _
        by_cases hx : x = last
        · rw [hx, Function.update_self]
          rfl
        · rw [Function.update_of_ne hx]

/-- The bytes of the TDs of a submission. -/
def Submission.Writes (E : Endpoints) (v : Nat) (u : Utr) (bytes : List TdBytes) : Submission → Prop
  | .ctrl _ _ => bytes = .of .plain u.setupAddr 8 ::
      ((if 0 < u.dataLen.toNat then [.of .data u.buff u.dataLen] else []) ++ [.of .plain 0 0])
  | .bulk i => bytes = (u.bulkTds (E i).2).map fun write => (write (Td.zero (some v))).bytes
  | .int _ => bytes = [.of .data u.buff u.dataLen]
  | .iso _ => True

/-! ## TDs that wait -/

/-- The TD is at an ED, before its tail, or in the done queue. -/
def OhciLists.Pending (g : OhciLists) (s : Ohci) (t : Unit64) : Prop :=
  g.tdRole t = some .retired ∨ ∃ u, g.tdRole t = some (.linked u) ∧ (s.ed u).tailP ≠ some t

/-- A TD that waits is as it was. -/
theorem Taken.pending_td {s s₁ : Ohci} {g : OhciLists} {ed t : Unit64} {r : EdRole} {d : Ed}
    {isNew : Bool} {new : List Unit64} (ht : Taken s s₁ g ed r d isNew new) (h : OhciInv s g)
    (hpend : g.Pending s t) : s₁.td t = s.td t := by
  rcases hpend with hr | ⟨w, hr, -⟩
  · exact ht.kept h hr
  · exact ht.kept h hr

/-- A submission that is accepted: the TDs `added` of the UTR `v` are behind those that the ED had,
which a control transfer drops. -/
structure Accepted (s s' : Ohci) (g g' : OhciLists) (v : Nat) (u : Utr) (e : EpRef) (ed : Unit64)
    (r : EdRole) (info : BitVec 32) (added : List Unit64) (bytes : List TdBytes) : Prop where
  placed : ∃ ts new, Placed s s' g g' e ed r ts new ∧
    (∀ t, (t ∈ ts ∧ (s'.ed ed).tailP ≠ some t) ↔ t ∈ added ∨
      (r ≠ .control ∧ g.tdRole t = some (.linked ed) ∧ (s.ed ed).tailP ≠ some t)) ∧
    ∀ t ∈ added, t ∈ new ∨ (s.ed ed).tailP = some t ∧ g.tdRole t = some (.linked ed)
  nodup : added.Nodup
  ne_nil : added ≠ []
  utr : ∃ u', s'.utr = Function.update s.utr v (some u') ∧ u'.ep = e ∧ u'.tdCnt = added.length ∧
    u'.bIsTransferDone = u.bIsTransferDone ∧ u'.calls = u.calls
  owned : ∀ t ∈ added, (s'.td t).utr = some v ∧ (s'.td t).ed = some ed
  kept : ∀ t, g.Pending s t → (s'.td t).utr = (s.td t).utr ∧ (s'.td t).ed = (s.td t).ed
  total : s'.pool.total = s.pool.total
  info : (s'.ed ed).info = info
  dummy : ∀ t, (s'.ed ed).tailP = some t → (s'.td t).utr = some v
  order : ∃ old, Chain s'.nextTD (s'.ed ed).headP (old ++ added ++ (s'.ed ed).tailP.toList)
  written : added.map (fun t => (s'.td t).bytes) = bytes

/-- What an ED of an endpoint is for. -/
def roleOf (E : Endpoints) : EpRef → EdRole
  | .ep0 _ => .control
  | .ep i =>
    if (E i).2.type = 2#8 then .bulk
    else if (E i).2.type = 3#8 then .int (getIntTreeHeadNode (E i).2.bInterval.toNat)
    else .iso (getIntTreeHeadNode (E i).2.bInterval.toNat)

/-- The ED that a submission takes: one that has the endpoint's information, or is named by it; a new
one where the list has none. -/
structure Chosen (E : Endpoints) (s : Ohci) (g : OhciLists) (e : EpRef) (ed : Unit64) (r : EdRole)
    (info : BitVec 32) : Prop where
  ofEp : ∀ i, e = .ep i → info = epInfo E i
  found : g.edRole ed = some r → (s.ed ed).info = info ∨ s.hwPipe e = some ed
  new : g.edRole ed = none → r = roleOf E e ∧
    ((∀ w, g.edRole w = some r → (s.ed w).info ≠ info) ∨ s.hwPipe e = none)

/-- The endpoint of a submission. -/
def Submission.ep : Submission → EpRef
  | .ctrl dev _ => .ep0 dev
  | .bulk i | .int i | .iso i => .ep i

/-- The pool is not as it was, or an endpoint names an ED that is free. -/
def Spoiled (s s' : Ohci) : Prop := s'.use ≠ s.use ∨ ∃ e w, s'.hwPipe e = some w ∧ s'.use w = none

/-- What a submission comes to: it is refused and nothing has changed, or accepted; and without the
room that it needs, it leaves less than it found. -/
def Outcome (E : Endpoints) (s : Ohci) (g : OhciLists) (v : Nat) (u : Utr) (sub : Submission)
    (ret : Int) (s' : Ohci) : Prop :=
  (MemoryFits E s u sub ∧
    (ret ≠ 0 ∧ RolledBack s s' ∨
      ret = 0 ∧ ∃ g' ed r info added bytes, Chosen E s g sub.ep ed r info ∧ sub.Writes E v u bytes ∧
        Accepted s s' g g' v u sub.ep ed r info added bytes)) ∨
  ¬ MemoryFits E s u sub ∧ ret = USBH_ERR_MEMORY_OUT ∧ Spoiled s s'

/-! ## Bulk transfers -/

section

variable {E : Endpoints} {s s' s₁ : Ohci} {g g' : OhciLists} {e : EpRef} {ed : Unit64} {r : EdRole}
  {ts : List Unit64} {d : Ed} {isNew : Bool} {u : Utr} {v i : Nat}

theorem bulkContents_keep {info buff : BitVec 32} {fuel len : Nat} :
    ∀ write ∈ bulkContents info fuel buff len, ∀ td,
      (write td).nextTD = td.nextTD ∧ (write td).utr = td.utr := by
  induction fuel generalizing buff len with
  | zero => simp [bulkContents]
  | succ fuel ih =>
    intro write hwrite td
    rw [bulkContents] at hwrite
    rcases List.mem_cons.1 hwrite with rfl | hwrite
    · exact ⟨rfl, rfl⟩
    · by_cases hmore : len - (if len > 4096 then 4096 else len) > 0
      · rw [if_pos hmore] at hwrite
        exact ih write hwrite td
      · rw [if_neg hmore] at hwrite
        cases hwrite

theorem startBulk_eq (s : Ohci) (ed : Unit64) (tds : List Unit64) (isNew : Bool) :
    startBulk s ed tds isNew = { s with
      ed := Function.update s.ed ed { s.ed ed with
        headP := tds.head?
        halted := false
        toggleCarry := if isNew then false else (s.ed ed).toggleCarry
        nextED := if isNew then s.bulkHead else (s.ed ed).nextED }
      bulkHead := if isNew then some ed else s.bulkHead } := by
  cases isNew with
  | false => rfl
  | true =>
    simp only [startBulk, Ohci.setEd, if_true, Function.update_self, Function.update_idem]

/-- A new ED is the first of the bulk list, one that was found keeps its place. -/
theorem bulk_eds (h : OhciInv s g) (hgot : Taken s s₁ g ed .bulk d isNew []) {tds : List Unit64}
    (hself : s'.nextED ed = if isNew then s.bulkHead else d.nextED)
    (hother : ∀ w, w ≠ ed → s'.nextED w = s.nextED w) (hied : s'.ied = s.ied)
    (hcontrol : s'.controlHead = s.controlHead)
    (hbulk : s'.bulkHead = if isNew then some ed else s.bulkHead) :
    EdsOk s' { g.put ed .bulk tds with bulk := if isNew then ed :: g.bulk else g.bulk } := by
  cases isNew with
  | false =>
    obtain ⟨hold, rfl⟩ := hgot.found rfl
    refine h.eds.same ?_ ⟨rfl, rfl, rfl⟩ (fun w r' _ => ?_) hied hcontrol hbulk
    · exact Function.update_eq_self_iff.2 hold.symm
    · by_cases hw : w = ed
      · rw [hw]
        exact hself
      · exact hother w hw
  | true =>
    have hnone := hgot.alloc rfl
    refine h.eds.pushBulk hnone rfl ⟨rfl, rfl, rfl⟩ (fun w r' hw => hother w ?_) hself hied hcontrol hbulk
    rintro rfl
    rw [hnone] at hw
    cases hw

/-- The ED has no TDs, and gets those of the transfer. -/
theorem bulkLink_ok (h : OhciInv s g) (hgot : Taken s s₁ g ed .bulk d isNew [])
    (hpipe₁ : s₁.hwPipe = s.hwPipe) (hd : d.tailP = none)
    (hempty : ∀ t, g.tdRole t ≠ some (.linked ed)) (hinfo : InfoFits d .bulk)
    (howner : ∀ e', s.hwPipe e' = some ed → e' = .ep i)
    (hroom : (u.bulkTds (E i).2).length ≤ s₁.pool.room) :
    ∃ s' g' tds, bulkLink E s₁ v u i ed isNew = (0, s') ∧
      Accepted s s' g g' v u (.ep i) ed .bulk d.info tds
        ((u.bulkTds (E i).2).map fun write => (write (Td.zero (some v))).bytes) := by
  cases hrun : chainTds v ed (u.bulkTds (E i).2) [] (s₁.setPipe (.ep i) (some ed)) with
  | mk tds rest =>
    obtain ⟨all, s₂⟩ := rest
    obtain ⟨hfresh, hlen, hall⟩ := chainTds_spec bulkContents_keep (.nil _ v ed) hrun
    have hall : all = true := hall.2 hroom
    subst hall
    rw [bulkLink, hrun]
    refine ⟨_, { g.put ed .bulk tds with bulk := if isNew then ed :: g.bulk else g.bulk }, tds, rfl, ?_⟩
    have htaken := (hgot.setPipe (.ep i) (some ed)).took hfresh.toTookTds
    have heq := htaken.eq
    have hpipe₂ : s₂.hwPipe = Function.update s.hwPipe (.ep i) (some ed) := by
      rw [hfresh.rest, ← hpipe₁]
      rfl
    dsimp only
    rw [startBulk_eq]
    generalize hs' : Ohci.setUtr _ _ _ = s'
    have hed : s'.ed = Function.update s.ed ed { d with
        headP := tds.head?
        halted := false
        toggleCarry := if isNew then false else d.toggleCarry
        nextED := if isNew then s.bulkHead else d.nextED } := by
      rw [← hs', heq]
      simp only [Ohci.setUtr, Function.update_self, Function.update_idem]
    have htd : s'.td = s₂.td := by rw [← hs']; rfl
    have hself : s'.ed ed = { d with
        headP := tds.head?
        halted := false
        toggleCarry := if isNew then false else d.toggleCarry
        nextED := if isNew then s.bulkHead else d.nextED } := by
      rw [hed, Function.update_self]
    have hother : ∀ w, w ≠ ed → s'.ed w = s.ed w := by
      intro w hw
      rw [hed, Function.update_of_ne hw]
    have hbulk : s'.bulkHead = if isNew then some ed else s.bulkHead := by rw [← hs', heq]; rfl
    have hrest : s'.ied = s.ied ∧ s'.controlHead = s.controlHead ∧
        s'.hwPipe = Function.update s.hwPipe (.ep i) (some ed) ∧
        s'.edRemoveList = s.edRemoveList ∧ s'.sfEnable = s.sfEnable ∧
        s'.doneQueue = s.doneQueue := by
      rw [← hs', ← hpipe₂, heq]
      exact ⟨rfl, rfl, rfl, rfl, rfl, rfl⟩
    obtain ⟨hied, hcontrol, hpipe, hsame⟩ := hrest
    have hnone : (s'.ed ed).tailP = none := by
      rw [hself]
      exact hd
    have hnext : s'.nextTD = s₂.nextTD := by
      funext t
      rw [Ohci.nextTD, htd]
      rfl
    refine ⟨⟨tds, tds, ?_, fun t => ?_, fun t ht => .inl ht⟩, hfresh.nodup, ?_,
      ⟨{ u with ep := .ep i, tdCnt := tds.length, status := 0 }, ?_, rfl, rfl, rfl, rfl⟩, fun t ht => ?_,
      fun t ht => ?_, ?_, ?_, fun t ht => ?_, ⟨[], ?_⟩, ?_⟩
    rotate_left
    · rw [hnone]
      simp [hempty t]
    · rw [← List.length_pos_iff, hlen rfl, bulkContents]
      exact Nat.succ_pos _
    · rw [← hs', heq]
      rfl
    · rw [htd]
      exact hfresh.utr t ht
    · rw [htd, htaken.pending_td h ht]
      exact ⟨rfl, rfl⟩
    · have hpool : s'.pool = s₂.pool := by
        rw [← hs']
        rfl
      rw [hpool, htaken.total]
    · rw [hself]
    · rw [hnone] at ht
      cases ht
    · rw [hself, hnext, hd]
      simpa using hfresh.chain
    · obtain ⟨new, hnew, hbytes, -⟩ := chainTds_bytes hrun
      rw [htd, hnew]
      exact hbytes
    refine ⟨⟨rfl, rfl, fun _ => rfl⟩, ?_, hgot.role, ⟨i, rfl⟩, fun t ht => .inl ht, ?_, hnone, ?_, ?_, ?_,
      ?_, fun t ht => ⟨(htaken.newFree t ht).1, h.used.used.use_none (htaken.newFree t ht).2⟩,
      hgot.unused, ?_, hgot.unlisted, howner, .inl hpipe, hsame, (if_neg (by rintro ⟨⟩)).symm⟩
    · refine bulk_eds h hgot ?_ (fun w hw => ?_) hied hcontrol hbulk
      · rw [Ohci.nextED, hself]
      · rw [Ohci.nextED, hother w hw]
        rfl
    · rw [hself, hnext]
      exact hfresh.chain
    · intro t r' ht _
      rw [htd]
      exact htaken.kept h ht
    · intro w r' _ hw
      rw [Ohci.nextED, hother w hw]
    · rw [hself]
      exact hinfo
    · rw [← hs']
      exact htaken.fits
    · rw [← hs']
      change s₂.use = _
      rw [heq]
      rfl

/-- The pool has no room for the TDs. -/
theorem bulkLink_out (hroom : ¬ (u.bulkTds (E i).2).length ≤ s₁.pool.room) :
    ∃ s', bulkLink E s₁ v u i ed isNew = (USBH_ERR_MEMORY_OUT, s') ∧ s'.hwPipe (.ep i) = some ed ∧
      s'.use ed = none := by
  cases hrun : chainTds v ed (u.bulkTds (E i).2) [] (s₁.setPipe (.ep i) (some ed)) with
  | mk tds rest =>
    obtain ⟨all, s₂⟩ := rest
    obtain ⟨hfresh, -, hall⟩ := chainTds_spec bulkContents_keep (.nil _ v ed) hrun
    have hall : all = false := by
      cases all with
      | false => rfl
      | true => exact absurd (hall.1 rfl) hroom
    subst hall
    rw [bulkLink, hrun]
    refine ⟨_, rfl, ?_, ?_⟩
    · rw [freeTds_eq]
      change s₂.hwPipe (.ep i) = some ed
      rw [hfresh.rest]
      exact Function.update_self ..
    · exact Function.update_self ..

/-- An ED that is found is not to be removed. -/
theorem OhciInv.unlisted (h : OhciInv s g) (hinfo : (s.ed ed).info = epInfo E i) :
    ed ∉ s.edRemoveList := by
  intro hmem
  refine (h.pipes.remove ed hmem).1 ?_
  rw [hinfo]
  exact edMakeInfo_skip

theorem ohciBulkXfer_spec (h : OhciInv s g) (hfit : SubmissionFits E s (.bulk i)) :
    ∃ ret s', ohciBulkXfer E s v u i = .ok (ret, s') ∧ Outcome E s g v u (.bulk i) ret s' := by
  obtain ⟨htype, hnumber, hshare⟩ := hfit
  obtain ⟨found, hfind, hfound, hnone⟩ := h.findBulk (epInfo E i)
  have hmem : MemoryFits E s u (.bulk i) ↔ BulkRoom E s u i found := by
    refine ⟨fun hm => hm found hfind, fun hm found' hfind' => ?_⟩
    rw [hfind] at hfind'
    cases hfind'
    exact hm
  have haddr : epInfo E i &&& ED_EP_ADDR_Msk ≠ 0 := edMakeInfo_addr hnumber
  rw [ohciBulkXfer]
  change ∃ ret s', (s.findEd s.bulkHead (epInfo E i) >>= _) = .ok (ret, s') ∧ _
  rw [hfind]
  cases found with
  | some ed =>
    obtain ⟨hrole, hinfo⟩ := hfound ed rfl
    by_cases hbusy : (s.ed ed).headP ≠ (s.ed ed).tailP
    · refine ⟨USBH_ERR_OHCI_EP_BUSY, s, if_pos hbusy, .inl ⟨hmem.2 (.inl hbusy), .inl ⟨?_, .refl s⟩⟩⟩
      decide
    · have hgot := Taken.of_found h hrole (h.unlisted hinfo)
      have htail : (s.ed ed).tailP = none := h.tds.tail ed _ hrole
      have hempty : ∀ t, g.tdRole t ≠ some (.linked ed) := by
        intro t ht
        have hchain := h.tds.chain ed _ hrole
        have hhead : (s.ed ed).headP = none := (not_not.1 hbusy).trans htail
        have hmem := (h.tds.mem ed _ hrole t).2 ht
        rw [hhead] at hchain
        cases htds : g.tds ed with
        | nil =>
          rw [htds] at hmem
          cases hmem
        | cons x xs =>
          rw [htds] at hchain
          cases hchain.1
      by_cases hroom : (u.bulkTds (E i).2).length ≤ s.pool.room
      · obtain ⟨s', g', tds, hrun, hacc⟩ := bulkLink_ok (v := v) h hgot rfl htail hempty
          (h.pipes.info ed _ hrole) (fun e' he' => hshare ed e' hfind he') hroom
        refine ⟨0, s', ?_, .inl ⟨hmem.2 (.inr hroom), .inr ⟨rfl, g', ed, .bulk, _, tds, _, ?_, rfl, hacc⟩⟩⟩
        · exact (if_neg hbusy).trans (congrArg Except.ok hrun)
        · refine ⟨?_, fun _ => .inl rfl, fun hnew => ?_⟩
          · rintro j ⟨⟩
            exact hinfo
          · rw [hrole] at hnew
            cases hnew
      · obtain ⟨s', hrun, hpipe, huse⟩ := @bulkLink_out _ _ ed false _ v _ hroom
        refine ⟨USBH_ERR_MEMORY_OUT, s', ?_, .inr ⟨fun hm => ?_, rfl, .inr ⟨_, ed, hpipe, huse⟩⟩⟩
        · exact (if_neg hbusy).trans (congrArg Except.ok hrun)
        · rcases hmem.1 hm with hbusy' | hroom'
          · exact hbusy hbusy'
          · exact hroom hroom'
  | none =>
    cases halloc : s.allocEd with
    | mk ed s₀ =>
      cases ed with
      | none =>
        obtain ⟨rfl, hfull⟩ := allocEd_none halloc
        refine ⟨USBH_ERR_MEMORY_OUT, s₀, rfl, .inl ⟨hmem.2 (.inl (MemPool.room_eq_zero.2 hfull)),
          .inl ⟨?_, .refl s₀⟩⟩⟩
        decide
      | some ed =>
        have hgot := Taken.of_alloc h halloc .bulk fun d => { d with info := epInfo E i }
        have hroom₀ : s.pool.room = (s₀.setEd ed fun d => { d with info := epInfo E i }).pool.room + 1 := by
          obtain ⟨hfree, rfl⟩ := allocEd_some halloc
          exact MemPool.room_take hfree
        have hpipe₁ : (s₀.setEd ed fun d => { d with info := epInfo E i }).hwPipe = s.hwPipe := by
          obtain ⟨-, rfl⟩ := allocEd_some halloc
          rfl
        have hrole := hgot.alloc rfl
        have hempty : ∀ t, g.tdRole t ≠ some (.linked ed) := by
          intro t ht
          have hsome := h.tds.owner t ed ht
          rw [hrole] at hsome
          cases hsome
        have howner : ∀ e', s.hwPipe e' = some ed → e' = .ep i :=
          fun e' he' => absurd he' (hgot.owner h e')
        by_cases hroom : (u.bulkTds (E i).2).length ≤
            (s₀.setEd ed fun d => { d with info := epInfo E i }).pool.room
        · obtain ⟨s', g', tds, hrun, hacc⟩ := bulkLink_ok (v := v) h hgot hpipe₁ rfl hempty ⟨haddr, rfl⟩
            howner hroom
          refine ⟨0, s', congrArg Except.ok hrun, .inl ⟨hmem.2 (.inr (by omega)), .inr ⟨rfl, g', ed,
            .bulk, _, tds, _, ⟨?_, ?_, fun _ => ⟨?_, .inl fun w hw => hnone rfl w hw⟩⟩, rfl, hacc⟩⟩⟩
          · rintro j ⟨⟩
            rfl
          · intro hold
            rw [hrole] at hold
            cases hold
          · change EdRole.bulk = roleOf E (.ep i)
            rw [roleOf, if_pos htype]
        · obtain ⟨s', hrun, hpipe, huse⟩ := @bulkLink_out _ _ ed true _ v _ hroom
          refine ⟨USBH_ERR_MEMORY_OUT, s', congrArg Except.ok hrun, .inr ⟨fun hm => ?_, rfl,
            .inr ⟨_, ed, hpipe, huse⟩⟩⟩
          rcases hmem.1 hm with hzero | hroom'
          · omega
          · omega

end

end NumakerMA35D1.UsbHost

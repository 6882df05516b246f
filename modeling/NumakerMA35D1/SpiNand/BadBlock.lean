import NumakerMA35D1.SpiNand.Spinand
import NumakerMA35D1.Lib.Run
import NumakerMA35D1.Lib.Outcome

/-!
# Bad blocks reported

`badBlocks_run`: in every state of a run in which no program of a bad-block mark fails, a block is
reported bad when it was marked, and a check is right about the marks of the block's first two pages
exactly when it looks at the second of them or need not. The second page is looked at only in blocks
whose number is a multiple of the page size: the unit of the test is one of bytes, the address one
of pages. `spinand_program_execute` takes a failed program for a success, as it compares the two
failure bits with one of them.
-/

namespace NumakerMA35D1.SpiNand

open Embedded

section

variable (info : NuSpinandInfo)

/-- The bad-block mark in the spare area of a page. -/
def markOf (c : Chip) (page : Nat) : Byte := c.cell (rowOf page) info.u16PageSize

/-- The mark of the first or the second page is not that of a good block. -/
def MarkedBad (c : Chip) (block : Nat) : Prop :=
  markOf info c (pageOf info block) ≠ 0xFF#8 ∨ markOf info c (pageOf info block + 1) ≠ 0xFF#8

/-- The second page of the block is looked at. -/
def LooksAtSecond (block : Nat) : Prop :=
  pageOf info block % (info.u32PagePerBlock * info.u16PageSize) = 0

/-- A check of the block reports it bad, from whatever answers it gets. -/
def ReportedBad (c : Chip) (block : Nat) : Prop :=
  markOf info c (pageOf info block) ≠ 0xFF#8 ∨
    LooksAtSecond info block ∧ markOf info c (pageOf info block + 1) ≠ 0xFF#8

/-- A call of an MTD operation. -/
inductive MtdOp
  | read (page dataLen spareLen : Nat)
  | write (page : Nat) (data spare : List Byte)
  | erase (block : Nat)
  | check (block : Nat)
  | mark (block : Nat)

variable (device : MtdNand)

/-- The operation of a call. -/
def MtdOp.run : MtdOp → Step
  | .read page dataLen spareLen => spinandReadPage info device page dataLen spareLen
  | .write page data spare => spinandWritePage info device page data spare
  | .erase block => spinandEraseBlock info device block
  | .check block => spinandCheckBlock info device block
  | .mark block => spinandMarkBadblock info device block

/-- The blocks marked bad with success, after a call. -/
def markedAfter : MtdOp → Err → List Nat → List Nat
  | .mark block, .eok, marked => block :: marked
  | _, _, marked => marked

/-- A call that returns, with the answers it gets, and the blocks marked before and after. -/
def mtdStep (s : Chip × List Nat) (call : MtdOp × (Nat → Answer)) (s' : Chip × List Nat) : Prop :=
  ∃ r b, call.1.run info device ⟨s.1, call.2, 0⟩ = .ok (r, b) ∧
    s' = (b.chip, markedAfter call.1 r s.2)

/-- No program of a mark fails. -/
def MarkHolds (_ : Chip × List Nat) : MtdOp × (Nat → Answer) → Prop
  | (.mark _, answers) => ∀ n, (answers n).programFails = false
  | _ => True

end

/-! ## What the steps do to the cells -/

/-- Outside the pages that may be erased the cells can only lose bits. -/
def Worn (erased : Nat → Prop) (c c' : Chip) : Prop :=
  ∀ p, ¬ erased p → ∀ col, ∃ x, c'.cell p col = c.cell p col &&& x

section

variable {info : NuSpinandInfo} {erased : Nat → Prop} {c c' c'' : Chip} {b b' : Bus} {r : Err}
  {x y : Step} {page block : Nat} {err : Err}

theorem Worn.refl : Worn erased c c := fun _ _ _ => ⟨BitVec.allOnes 8, (BitVec.and_allOnes).symm⟩

theorem Worn.trans (h : Worn erased c c') (h' : Worn erased c' c'') : Worn erased c c'' := by
  intro p hp col
  obtain ⟨x, hx⟩ := h p hp col
  obtain ⟨y, hy⟩ := h' p hp col
  exact ⟨x &&& y, by rw [hy, hx, BitVec.and_assoc]⟩

/-- A cell that is not all ones stays so. -/
theorem Worn.ne_erased (h : Worn erased c c') {p col : Nat} (hp : ¬ erased p)
    (hne : c.cell p col ≠ 0xFF#8) : c'.cell p col ≠ 0xFF#8 := by
  obtain ⟨x, hx⟩ := h p hp col
  intro hall
  have hones : c.cell p col &&& x = BitVec.allOnes 8 := hx.symm.trans hall
  exact hne (BitVec.and_eq_allOnes_iff.1 hones).1

/-- A step wears the cells: outside the erased pages they only lose bits. -/
def Step.Wears (x : Step) (erased : Nat → Prop) : Prop :=
  ∀ b r b', x b = .ok (r, b') → Worn erased b.chip b'.chip

/-- What a sequence of two parts comes to. -/
theorem Step.then_ok (h : x.then y b = .ok (r, b')) :
    (∃ b₁, x b = .ok (.eok, b₁) ∧ y b₁ = .ok (r, b')) ∨ r ≠ .eok ∧ x b = .ok (r, b') := by
  rw [Step.then] at h
  split at h
  · exact .inl ⟨_, ‹_›, h⟩
  · rename_i hnot
    refine .inr ⟨?_, h⟩
    rintro rfl
    exact hnot _ h

theorem Step.then_EOK (h : x.then y b = .ok (.eok, b')) :
    ∃ b₁, x b = .ok (.eok, b₁) ∧ y b₁ = .ok (.eok, b') := by
  rcases Step.then_ok h with hboth | ⟨hne, -⟩
  · exact hboth
  · exact absurd rfl hne

theorem Step.Wears.then (hx : x.Wears erased) (hy : y.Wears erased) : (x.then y).Wears erased := by
  intro b r b' h
  rcases Step.then_ok h with ⟨b₁, h₁, h₂⟩ | ⟨-, h₁⟩
  · exact (hx _ _ _ h₁).trans (hy _ _ _ h₂)
  · exact hx _ _ _ h₁

theorem nuQspiSend_ok {cmd : Command} (h : nuQspiSend info cmd b = .ok (r, b')) :
    r = .eok ∧ b'.answers = b.answers ∧
        b'.chip = b.chip.execute info.u32PagePerBlock b.answer cmd ∨
      r = .eio ∧ b'.answers = b.answers ∧ b'.chip = b.chip := by
  rw [nuQspiSend] at h
  split at h
  · cases h
    exact .inl ⟨rfl, rfl, rfl⟩
  · cases h
    exact .inr ⟨rfl, rfl, rfl⟩

theorem spinandWait_ok (h : spinandWait err b = .ok (r, b')) :
    b'.answers = b.answers ∧ b'.chip = b.chip := by
  rw [spinandWait] at h
  split at h
  · cases h
    exact ⟨rfl, rfl⟩
  · cases h
    exact ⟨rfl, rfl⟩

theorem statusCheck_ok {good : BitVec 8 → Bool} (h : statusCheck good err b = .ok (r, b')) :
    b'.answers = b.answers ∧ b'.chip = b.chip := by
  rw [statusCheck] at h
  split at h
  · split at h
    · cases h
      exact ⟨rfl, rfl⟩
    · cases h
      exact ⟨rfl, rfl⟩
  · cases h

/-- A command wears the cells, with the pages of the block it erases, if it is an erase. -/
theorem Chip.execute_worn {ppb : Nat} {a : Answer} {cmd : Command}
    (h : ∀ row, cmd = .blockErase row → ∀ p, p / ppb = row / ppb → erased p) :
    Worn erased c (c.execute ppb a cmd) := by
  cases cmd with
  | writeEnable => exact Worn.refl
  | pageRead row => exact Worn.refl
  | programDataLoad column data => exact Worn.refl
  | read => exact Worn.refl
  | blockErase row =>
    rw [Chip.execute]
    split
    · intro p hp col
      refine ⟨BitVec.allOnes 8, ?_⟩
      rw [BitVec.and_allOnes]
      exact if_neg fun hrow => hp (h row rfl p hrow)
    · exact Worn.refl
  | programExecute row =>
    rw [Chip.execute]
    split
    · intro p hp col
      by_cases hrow : p = row
      · by_cases hfail : a.programFails = true
        · exact ⟨a.left p col, by simp only [if_pos hrow, if_pos hfail]⟩
        · exact ⟨c.cache col, by simp only [if_pos hrow, if_neg hfail]⟩
      · exact ⟨BitVec.allOnes 8, by simp only [if_neg hrow, BitVec.and_allOnes]⟩
    · exact Worn.refl

theorem nuQspiSend_wears {cmd : Command}
    (h : ∀ row, cmd = .blockErase row →
      ∀ p, p / info.u32PagePerBlock = row / info.u32PagePerBlock → erased p) :
    (nuQspiSend info cmd).Wears erased := by
  intro b r b' hsend
  rcases nuQspiSend_ok hsend with ⟨-, -, hchip⟩ | ⟨-, -, hchip⟩
  · rw [hchip]
    exact Chip.execute_worn h
  · rw [hchip]
    exact Worn.refl

theorem spinandWait_wears : (spinandWait err).Wears erased := by
  intro b r b' h
  rw [(spinandWait_ok h).2]
  exact Worn.refl

theorem statusCheck_wears {good : BitVec 8 → Bool} : (statusCheck good err).Wears erased := by
  intro b r b' h
  rw [(statusCheck_ok h).2]
  exact Worn.refl

theorem spinandReadDataload_wears : (spinandReadDataload info page).Wears erased :=
  Step.Wears.then (nuQspiSend_wears fun _ h => nomatch h) (Step.Wears.then spinandWait_wears statusCheck_wears)

theorem spinandProgramDataload_wears {column : Nat} {data spare : List Byte} :
    (spinandProgramDataload info column data spare).Wears erased :=
  Step.Wears.then (nuQspiSend_wears fun _ h => nomatch h) (nuQspiSend_wears fun _ h => nomatch h)

theorem spinandProgramExecute_wears : (spinandProgramExecute info page).Wears erased :=
  Step.Wears.then (nuQspiSend_wears fun _ h => nomatch h) (Step.Wears.then spinandWait_wears statusCheck_wears)

theorem spinandBlockErase_wears
    (h : ∀ p, p / info.u32PagePerBlock = rowOf page / info.u32PagePerBlock → erased p) :
    (spinandBlockErase info page).Wears erased :=
  Step.Wears.then (nuQspiSend_wears fun _ h => nomatch h) <|
    Step.Wears.then (nuQspiSend_wears fun row hrow p hp => h p (by cases hrow; exact hp))
      (Step.Wears.then spinandWait_wears statusCheck_wears)

theorem spinandBlockMarkbad_wears
    (h : ∀ p, p / info.u32PagePerBlock = rowOf page / info.u32PagePerBlock → erased p) :
    (spinandBlockMarkbad info page).Wears erased :=
  Step.Wears.then (spinandBlockErase_wears h)
    (Step.Wears.then spinandProgramDataload_wears spinandProgramExecute_wears)

/-! ## What the marks say -/

/-- The mark read is the page's. -/
theorem readMark_ok {m : Byte} (h : readMark info page b = .ok (m, b')) :
    m = markOf info b.chip page ∧ b'.chip.cell = b.chip.cell ∧ b'.answers = b.answers := by
  rw [readMark] at h
  split at h
  · rename_i b₃ hread
    cases h
    obtain ⟨b₂, hload, hlast⟩ := Step.then_EOK hread
    obtain ⟨b₁, hsend, hrest⟩ := Step.then_EOK hload
    obtain ⟨b₁', hwait, hstatus⟩ := Step.then_EOK hrest
    have hchip₂ : b₂.chip = b₁.chip :=
      (statusCheck_ok hstatus).2.trans (spinandWait_ok hwait).2
    have hans₂ : b₂.answers = b₁.answers :=
      (statusCheck_ok hstatus).1.trans (spinandWait_ok hwait).1
    rcases nuQspiSend_ok hsend with ⟨-, hans₁, hchip₁⟩ | ⟨hne, -⟩
    · rcases nuQspiSend_ok hlast with ⟨-, hans₃, hchip₃⟩ | ⟨hne, -⟩
      · rw [hchip₃, hchip₂, hchip₁, hans₃, hans₂, hans₁]
        exact ⟨rfl, rfl, rfl⟩
      · cases hne
    · cases hne
  · cases h

/-- What a look at a block says, and that it leaves the cells as they are. -/
theorem spinandBlockIsbad_ok {bad : Bool}
    (h : spinandBlockIsbad info (pageOf info block) b = .ok (bad, b')) :
    (bad = true ↔ ReportedBad info b.chip block) ∧ b'.chip.cell = b.chip.cell ∧
      b'.answers = b.answers := by
  obtain ⟨⟨m, b₁⟩, hfirst, h⟩ := bind_eq_ok.1 h
  obtain ⟨rfl, hcell₁, hans₁⟩ := readMark_ok hfirst
  by_cases hmark : markOf info b.chip (pageOf info block) ≠ 0xFF#8
  · cases (if_pos hmark).symm.trans h
    exact ⟨⟨fun _ => .inl hmark, fun _ => rfl⟩, hcell₁, hans₁⟩
  · have h := (if_neg hmark).symm.trans h
    by_cases hsecond : LooksAtSecond info block
    · have h := (if_pos hsecond).symm.trans h
      obtain ⟨⟨m', b₂⟩, hnext, h⟩ := bind_eq_ok.1 h
      obtain ⟨rfl, hcell₂, hans₂⟩ := readMark_ok hnext
      cases h
      have hmark' : markOf info b₁.chip (pageOf info block + 1) =
          markOf info b.chip (pageOf info block + 1) := by
        rw [markOf, markOf, hcell₁]
      refine ⟨?_, hcell₂.trans hcell₁, hans₂.trans hans₁⟩
      rw [decide_eq_true_iff, hmark']
      exact ⟨fun hne => .inr ⟨hsecond, hne⟩, fun hbad => (hbad.resolve_left hmark).2⟩
    · cases (if_neg hsecond).symm.trans h
      refine ⟨⟨fun hno => absurd hno Bool.false_ne_true, ?_⟩, hcell₁, hans₁⟩
      rintro (hbad | ⟨hlooks, -⟩)
      · exact absurd hbad hmark
      · exact absurd hlooks hsecond

/-- A mark programmed with success, by a program that does not fail, is not that of a good block. -/
theorem spinandBlockMarkbad_EOK (hprogram : ∀ n, (b.answers n).programFails = false)
    (h : spinandBlockMarkbad info page b = .ok (.eok, b')) : markOf info b'.chip page ≠ 0xFF#8 := by
  obtain ⟨b₁, herase, h⟩ := Step.then_EOK h
  obtain ⟨b₂, hload, h⟩ := Step.then_EOK h
  obtain ⟨b₃, hsend, h⟩ := Step.then_EOK h
  obtain ⟨b₄, hwait, hstatus⟩ := Step.then_EOK h
  have hlast : b'.chip = b₃.chip := (statusCheck_ok hstatus).2.trans (spinandWait_ok hwait).2
  -- the answers are those of the call throughout
  obtain ⟨c₁, henable, herase⟩ := Step.then_EOK herase
  obtain ⟨c₂, herased, herase⟩ := Step.then_EOK herase
  obtain ⟨c₃, hready, hdone⟩ := Step.then_EOK herase
  obtain ⟨d₁, hlatch, hdata⟩ := Step.then_EOK hload
  have hanswers : b₂.answers = b.answers := by
    have h₁ := (nuQspiSend_ok henable).elim (·.2.1) (·.2.1)
    have h₂ := (nuQspiSend_ok herased).elim (·.2.1) (·.2.1)
    have h₃ := (spinandWait_ok hready).1
    have h₄ := (statusCheck_ok hdone).1
    have h₅ := (nuQspiSend_ok hlatch).elim (·.2.1) (·.2.1)
    have h₆ := (nuQspiSend_ok hdata).elim (·.2.1) (·.2.1)
    rw [h₆, h₅, h₄, h₃, h₂, h₁]
  rcases nuQspiSend_ok hlatch with ⟨-, -, hwel⟩ | ⟨hne, -⟩
  · rcases nuQspiSend_ok hdata with ⟨-, -, hcache⟩ | ⟨hne, -⟩
    · rcases nuQspiSend_ok hsend with ⟨-, -, hcell⟩ | ⟨hne, -⟩
      · have hholds : b₂.answer.programFails = false := by
          rw [Bus.answer, hanswers]
          exact hprogram _
        have hset : b₂.chip.wel = true := by
          rw [hcache, hwel]
          rfl
        have hmark : b₂.chip.cache info.u16PageSize = 0xF0#8 := by
          rw [hcache]
          simp only [Chip.execute, le_refl, if_true, Nat.sub_self, List.append_nil]
          rfl
        have hprogrammed : markOf info b'.chip page =
            b₂.chip.cell (rowOf page) info.u16PageSize &&& 0xF0#8 := by
          rw [markOf, hlast, hcell, Chip.execute, if_pos hset]
          simp only [if_true, hholds, hmark]
          rfl
        rw [hprogrammed]
        intro hall
        have hones : b₂.chip.cell (rowOf page) info.u16PageSize &&& 0xF0#8 = BitVec.allOnes 8 := hall
        exact absurd (BitVec.and_eq_allOnes_iff.1 hones).2 (by decide)
      · cases hne
    · cases hne
  · cases hne

/-- Blocks that are not erased go on being reported bad. -/
theorem ReportedBad.worn (h : ReportedBad info c block) (hw : Worn erased c c')
    (hkeep : ¬ erased (rowOf (pageOf info block)))
    (hkeep' : ¬ erased (rowOf (pageOf info block + 1))) : ReportedBad info c' block := by
  rcases h with hfirst | ⟨hlooks, hsecond⟩
  · exact .inl (hw.ne_erased hkeep hfirst)
  · exact .inr ⟨hlooks, hw.ne_erased hkeep' hsecond⟩

/-! ## Every run -/

variable {device : MtdNand}

/-- The geometry of the chips of the list. -/
theorem geometry (h : info ∈ gSpinandflashList) :
    info.u32PagePerBlock = 64 ∧ info.u16PageSize = 2048 := by
  rcases List.mem_cons.1 h with rfl | h
  · exact ⟨rfl, rfl⟩
  rcases List.mem_cons.1 h with rfl | h
  · exact ⟨rfl, rfl⟩
  rcases List.mem_singleton.1 h with rfl
  exact ⟨rfl, rfl⟩

/-- The partition's pages have an address. -/
def Addressed (info : NuSpinandInfo) (device : MtdNand) : Prop :=
  (device.blockEnd + 1) * info.u32PagePerBlock ≤ 2 ^ 24

instance : Decidable (Addressed info device) := inferInstanceAs (Decidable (_ ≤ _))

/-- The first two pages of a block are the block's. -/
theorem rowOf_pageOf (hinfo : info ∈ gSpinandflashList) (hdev : Addressed info device)
    (hblock : block ≤ device.blockEnd) :
    rowOf (pageOf info block) / info.u32PagePerBlock = block ∧
      rowOf (pageOf info block + 1) / info.u32PagePerBlock = block := by
  rw [Addressed] at hdev
  rw [rowOf, rowOf, pageOf]
  rw [(geometry hinfo).1] at hdev ⊢
  omega

/-- What a run keeps: the blocks marked with success are reported bad. -/
def MarkedKept (info : NuSpinandInfo) (device : MtdNand) (s : Chip × List Nat) : Prop :=
  ∀ block ∈ s.2, block ≤ device.blockEnd ∧ ReportedBad info s.1 block

theorem MarkedKept.worn {marked : List Nat} (hinfo : info ∈ gSpinandflashList)
    (hdev : Addressed info device) (h : MarkedKept info device (c, marked))
    (hw : Worn erased c c')
    (herased : ∀ p, erased p → ¬ ReportedBad info c (p / info.u32PagePerBlock)) :
    MarkedKept info device (c', marked) := by
  intro block hmem
  obtain ⟨hblock, hbad⟩ := h block hmem
  obtain ⟨hfirst, hsecond⟩ := rowOf_pageOf hinfo hdev hblock
  refine ⟨hblock, hbad.worn hw (fun hp => ?_) fun hp => ?_⟩
  · exact herased _ hp (hfirst.symm ▸ hbad)
  · exact herased _ hp (hsecond.symm ▸ hbad)

/-- A call that erases nothing. -/
theorem MarkedKept.of_wears {marked : List Nat} (hinfo : info ∈ gSpinandflashList)
    (hdev : Addressed info device) (h : MarkedKept info device (b.chip, marked))
    (hx : x.Wears fun _ => False) (hok : x b = .ok (r, b')) :
    MarkedKept info device (b'.chip, marked) :=
  h.worn hinfo hdev (hx _ _ _ hok) fun _ hp => hp.elim

/-- A call that erases a block which is not reported bad. -/
theorem MarkedKept.of_erase {marked : List Nat} (hinfo : info ∈ gSpinandflashList)
    (hdev : Addressed info device) (h : MarkedKept info device (b.chip, marked))
    (hblock : block ≤ device.blockEnd) (hgood : ¬ ReportedBad info b.chip block)
    (hx : x.Wears fun p => p / info.u32PagePerBlock =
      rowOf (pageOf info block) / info.u32PagePerBlock)
    (hok : x b = .ok (r, b')) : MarkedKept info device (b'.chip, marked) := by
  refine h.worn hinfo hdev (hx _ _ _ hok) fun p hp => ?_
  rw [hp, (rowOf_pageOf hinfo hdev hblock).1]
  exact hgood

/-- The cells decide what is reported. -/
theorem ReportedBad.congr (hcell : c'.cell = c.cell) :
    ReportedBad info c' block ↔ ReportedBad info c block := by
  rw [ReportedBad, ReportedBad, markOf, markOf, markOf, markOf, hcell]

theorem MarkedKept.congr {marked : List Nat} (hcell : c'.cell = c.cell)
    (h : MarkedKept info device (c, marked)) : MarkedKept info device (c', marked) :=
  fun block hmem => ⟨(h block hmem).1, (ReportedBad.congr hcell).2 (h block hmem).2⟩

/-- What a check says, and that it leaves the cells as they are. -/
theorem spinandCheckBlock_ok (hblock : block ≤ device.blockEnd)
    (h : spinandCheckBlock info device block b = .ok (r, b')) :
    (r = .error ↔ ReportedBad info b.chip block) ∧ b'.chip.cell = b.chip.cell := by
  obtain ⟨⟨bad, b₁⟩, hbad, h⟩ := bind_eq_ok.1 ((if_neg (Nat.not_lt.2 hblock)).symm.trans h)
  obtain ⟨hiff, hcell, -⟩ := spinandBlockIsbad_ok hbad
  cases h
  refine ⟨?_, hcell⟩
  rw [← hiff]
  cases bad with
  | true => exact ⟨fun _ => rfl, fun _ => rfl⟩
  | false => exact ⟨(fun hno => nomatch hno), fun hno => absurd hno Bool.false_ne_true⟩

/-- A call keeps what was marked, and marks what it marks. -/
theorem markedKept_step (hinfo : info ∈ gSpinandflashList) (hdev : Addressed info device)
    {s s' : Chip × List Nat} {call : MtdOp × (Nat → Answer)}
    (h : MarkedKept info device s) (hs : where_ (mtdStep info device) MarkHolds s call s') :
    MarkedKept info device s' := by
  obtain ⟨c, marked⟩ := s
  obtain ⟨op, answers⟩ := call
  obtain ⟨hholds, r, b', hrun, rfl⟩ := hs
  have hb : MarkedKept info device ((⟨c, answers, 0⟩ : Bus).chip, marked) := h
  cases op with
  | read page dataLen spareLen =>
    simp only [MtdOp.run, spinandReadPage] at hrun
    split at hrun
    · cases hrun
      exact h
    · refine hb.of_wears hinfo hdev ?_ hrun
      refine Step.Wears.then spinandReadDataload_wears (Step.Wears.then ?_ ?_) <;> split
      · exact nuQspiSend_wears fun _ hno => nomatch hno
      · intro b r b' hok
        cases hok
        exact Worn.refl
      · exact nuQspiSend_wears fun _ hno => nomatch hno
      · intro b r b' hok
        cases hok
        exact Worn.refl
  | write page data spare =>
    simp only [MtdOp.run, spinandWritePage] at hrun
    split at hrun
    · cases hrun
      exact h
    · refine hb.of_wears hinfo hdev (Step.Wears.then ?_ spinandProgramExecute_wears) hrun
      split
      · exact spinandProgramDataload_wears
      · exact spinandProgramDataload_wears
  | check block =>
    rcases Nat.lt_or_ge device.blockEnd block with hbeyond | hblock
    · cases (if_pos hbeyond).symm.trans hrun
      exact h
    · exact h.congr (spinandCheckBlock_ok hblock hrun).2
  | erase block =>
    rcases Nat.lt_or_ge device.blockEnd block with hbeyond | hblock
    · cases (if_pos hbeyond).symm.trans hrun
      exact h
    · obtain ⟨⟨bad, b₁⟩, hbad, hrun⟩ :=
        bind_eq_ok.1 ((if_neg (Nat.not_lt.2 hblock)).symm.trans hrun)
      obtain ⟨hiff, hcell, -⟩ := spinandBlockIsbad_ok hbad
      have h₁ : MarkedKept info device (b₁.chip, marked) := h.congr hcell
      cases bad with
      | true =>
        cases hrun
        exact h₁
      | false =>
        refine h₁.of_erase hinfo hdev hblock ?_ (spinandBlockErase_wears fun _ hp => hp) hrun
        rw [ReportedBad.congr hcell, ← hiff]
        exact Bool.false_ne_true
  | mark block =>
    rcases Nat.lt_or_ge device.blockEnd block with hbeyond | hblock
    · cases (if_pos hbeyond).symm.trans hrun
      exact h
    · obtain ⟨⟨bad, b₁⟩, hbad, hrun⟩ :=
        bind_eq_ok.1 ((if_neg (Nat.not_lt.2 hblock)).symm.trans hrun)
      obtain ⟨hiff, hcell, hans⟩ := spinandBlockIsbad_ok hbad
      have h₁ : MarkedKept info device (b₁.chip, marked) := h.congr hcell
      cases bad with
      | true =>
        cases hrun
        intro block' hmem
        rcases List.mem_cons.1 hmem with rfl | hmem
        · exact ⟨hblock, (ReportedBad.congr hcell).2 (hiff.1 rfl)⟩
        · exact h₁ block' hmem
      | false =>
        have h₂ : MarkedKept info device (b'.chip, marked) := by
          refine h₁.of_erase hinfo hdev hblock ?_ (spinandBlockMarkbad_wears fun _ hp => hp) hrun
          rw [ReportedBad.congr hcell, ← hiff]
          exact Bool.false_ne_true
        cases r with
        | eok =>
          intro block' hmem
          rcases List.mem_cons.1 hmem with rfl | hmem
          · refine ⟨hblock, .inl (spinandBlockMarkbad_EOK ?_ hrun)⟩
            rw [hans]
            exact hholds
          · exact h₂ block' hmem
        | _ => exact h₂

end

/-- In every state of a run in which no program of a mark fails, a check that returns is right about
a block exactly when it looks at the marks that decide, and reports every block bad that was marked
with success. -/
theorem badBlocks_run {info : NuSpinandInfo} {device : MtdNand} (hinfo : info ∈ gSpinandflashList)
    (hdev : Addressed info device) {c₀ c : Chip} {calls : List (MtdOp × (Nat → Answer))}
    {marked : List Nat}
    (h : Run (where_ (mtdStep info device) MarkHolds) (c₀, []) calls (c, marked)) :
    ∀ block ≤ device.blockEnd, ∀ answers r b,
      spinandCheckBlock info device block ⟨c, answers, 0⟩ = .ok (r, b) →
      ((r = .error ↔ MarkedBad info c block) ↔
        LooksAtSecond info block ∨ markOf info c (pageOf info block) ≠ 0xFF#8 ∨
          markOf info c (pageOf info block + 1) = 0xFF#8) ∧
      (block ∈ marked → r = .error) := by
  intro block hblock answers r b hcheck
  have hkept : MarkedKept info device (c, marked) :=
    h.invariant (I := MarkedKept info device) (markedKept_step hinfo hdev)
      fun _ hno => absurd hno List.not_mem_nil
  have hiff : r = .error ↔ ReportedBad info c block := (spinandCheckBlock_ok hblock hcheck).1
  refine ⟨?_, fun hmem => hiff.2 (hkept block hmem).2⟩
  rw [hiff, ReportedBad, MarkedBad]
  tauto

/-- A chip of the list. -/
def w25n01 : NuSpinandInfo := ⟨0xEFAA21, 2048, 64, 1024, 64⟩

/-- Every transfer goes and nothing fails. -/
def noFailure : Nat → Answer := fun _ => ⟨true, false, false, fun _ _ => 0#8, 0#2, true⟩

/-- A chip in whose cells one mark may be missing. -/
def chipWith (cell : Nat → Nat → Byte) : Chip := ⟨cell, fun _ => 0xFF#8, false, false, false, 0#2⟩

/-- A block of an erased chip marked and checked. -/
theorem badBlocks_run_mark :
    ∃ c r b, (mtdStep w25n01 ⟨1023⟩ (chipWith fun _ _ => 0xFF#8, []) (.mark 5, noFailure)
        (c, [5])) ∧
      spinandCheckBlock w25n01 ⟨1023⟩ 5 ⟨c, noFailure, 0⟩ = .ok (r, b) ∧ r = .error := by
  have hstep : mtdStep w25n01 ⟨1023⟩ (chipWith fun _ _ => 0xFF#8, []) (.mark 5, noFailure)
    (_, [5]) := ⟨.eok, _, rfl, rfl⟩
  have hrun : Run (where_ (mtdStep w25n01 ⟨1023⟩) MarkHolds) (chipWith fun _ _ => 0xFF#8, [])
      [(.mark 5, noFailure)] (_, [5]) := .snoc .nil ⟨fun _ => rfl, hstep⟩
  have hblock : 5 ≤ (⟨1023⟩ : MtdNand).blockEnd := by decide
  refine ⟨_, .error, _, hstep, rfl, ?_⟩
  exact (badBlocks_run List.mem_cons_self (by decide) hrun 5 hblock noFailure .error _ rfl).2
    List.mem_cons_self

/-- Every check of every run is right, and reports bad what was marked. -/
def BadBlocksRight : Prop :=
  ∀ info ∈ gSpinandflashList, ∀ device, Addressed info device →
    ∀ (c₀ : Chip) (calls : List (MtdOp × (Nat → Answer))) (s : Chip × List Nat),
      Run (mtdStep info device) (c₀, []) calls s →
        ∀ block ≤ device.blockEnd, ∀ answers r b,
          spinandCheckBlock info device block ⟨s.1, answers, 0⟩ = .ok (r, b) →
            (r = .error ↔ MarkedBad info s.1 block) ∧ (block ∈ s.2 → r = .error)

/-- The mark of the second page of block 5 is not looked at. -/
theorem not_badBlocksRight : ¬ BadBlocksRight := by
  intro h
  have hright := h w25n01 (List.mem_cons_self ..) ⟨1023⟩ (by decide)
    (chipWith fun p col => if p = 321 ∧ col = 2048 then 0#8 else 0xFF#8) [] _ .nil 5 (by decide)
    noFailure .eok _ rfl
  exact nomatch hright.1.2 (.inr (by decide))

end NumakerMA35D1.SpiNand

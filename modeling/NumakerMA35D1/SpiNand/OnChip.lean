import NumakerMA35D1.SpiNand.Status

/-!
# The chip's replies

`Spinand.lean` has the driver on a chip with cells (`Bus`) and `Status.lean` the same functions on replies that
may be anything (`Line`). The two agree: what a function does on a chip, it does on a line with the replies that
the chip gives (`FollowsChip`), one to each transfer and to each wait.

`mtd_followsChip`: the operations of both, for every chip of the list and every partition.

Reference: `spinand.c`, `drv_spinand.c`.
-/

namespace NumakerMA35D1.SpiNand.Status

open Embedded

/-- The line's next replies are these. -/
def Line.Gives (l : Line) (rs : List Reply) : Prop := ∀ i r, rs[i]? = some r → l.reply i = r

/-- What one function does on a chip, the other does on a line: for the replies that the chip gives, it halts or
returns what the first does, and has used them up. -/
def FollowsChip {α : Type} (x : Bus → Except Halt (α × Bus)) (y : Line → Except Halt (α × Line)) : Prop :=
  ∀ b, ∃ rs : List Reply, ∀ l : Line, l.Gives rs →
    (y l).map Prod.fst = (x b).map Prod.fst ∧
      ∀ a l', y l = .ok (a, l') → l'.replies = l.replies ∧ l'.now = l.now + rs.length

section

variable {α β : Type} {x : Bus → Except Halt (α × Bus)} {y : Line → Except Halt (α × Line)}
  {rs rs' : List Reply} {l l' : Line} {b b' : Bus} {a : α}

theorem Line.Gives.left (h : l.Gives (rs ++ rs')) : l.Gives rs := fun i r hr =>
  h i r (by rw [List.getElem?_append_left (List.getElem?_eq_some_iff.1 hr).1, hr])

theorem Line.Gives.right (h : l.Gives (rs ++ rs')) (hreplies : l'.replies = l.replies)
    (hnow : l'.now = l.now + rs.length) : l'.Gives rs' := by
  intro i r hr
  have hi := h (rs.length + i) r (by
    rw [List.getElem?_append_right (Nat.le_add_right ..), Nat.add_sub_cancel_left, hr])
  rw [← hi, Line.reply, Line.reply, hreplies, hnow, Nat.add_assoc]

/-- A result of both, from the result of the chip's function. -/
theorem eq_ok_of_map (hx : x b = .ok (a, b')) (h : (y l).map Prod.fst = (x b).map Prod.fst) :
    ∃ l', y l = .ok (a, l') := by
  rw [hx] at h
  cases hy : y l with
  | error e =>
    rw [hy] at h
    cases h
  | ok p =>
    rw [hy] at h
    have hfst : p.1 = a := Except.ok.inj h
    exact ⟨p.2, by rw [← hfst]⟩

theorem FollowsChip.pure (a : α) : FollowsChip (fun b => .ok (a, b)) (fun l => .ok (a, l)) := by
  refine fun _ => ⟨[], fun l _ => ⟨rfl, fun a' l' h => ?_⟩⟩
  cases h
  exact ⟨rfl, rfl⟩

theorem FollowsChip.ite {p : Prop} [Decidable p] {x' : Bus → Except Halt (α × Bus)}
    {y' : Line → Except Halt (α × Line)} (h : FollowsChip x y) (h' : FollowsChip x' y') :
    FollowsChip (fun b => if p then x b else x' b) (fun l => if p then y l else y' l) := by
  by_cases hp : p
  · simpa only [if_pos hp] using h
  · simpa only [if_neg hp] using h'

/-- A function of one transfer or one wait. -/
theorem FollowsChip.one (f : Bus → Reply)
    (h : ∀ b l, l.reply 0 = f b → (y l).map Prod.fst = (x b).map Prod.fst ∧
      ∀ a l', y l = .ok (a, l') → l'.replies = l.replies ∧ l'.now = l.now + 1) : FollowsChip x y :=
  fun b => ⟨[f b], fun l hl => h b l (hl 0 (f b) rfl)⟩

/-- The replies of a function and of what follows it. -/
theorem FollowsChip.bind {f : α → Bus → Except Halt (β × Bus)} {g : α → Line → Except Halt (β × Line)}
    (h : FollowsChip x y) (hf : ∀ a, FollowsChip (f a) (g a)) :
    FollowsChip (fun b => x b >>= fun p => f p.1 p.2) (fun l => y l >>= fun p => g p.1 p.2) := by
  intro b
  obtain ⟨rs, hrs⟩ := h b
  cases hx : x b with
  | error e =>
    refine ⟨rs, fun l hl => ?_⟩
    have hmap := (hrs l hl).1
    rw [hx] at hmap
    cases hy : y l with
    | error e' =>
      rw [hy] at hmap
      cases hmap
      simp only [hx, hy, error_bind]
      refine ⟨rfl, fun a l' h => ?_⟩
      cases h
    | ok p =>
      rw [hy] at hmap
      cases hmap
  | ok p =>
    obtain ⟨rs', hrs'⟩ := hf p.1 p.2
    refine ⟨rs ++ rs', fun l hl => ?_⟩
    obtain ⟨hmap, hused⟩ := hrs l hl.left
    obtain ⟨l₁, hy⟩ := eq_ok_of_map hx hmap
    obtain ⟨hreplies, hnow⟩ := hused p.1 l₁ hy
    obtain ⟨hmap', hused'⟩ := hrs' l₁ (hl.right hreplies hnow)
    simp only [hx, hy, ok_bind]
    refine ⟨hmap', fun a l₂ h₂ => ?_⟩
    obtain ⟨hreplies', hnow'⟩ := hused' a l₂ h₂
    rw [hreplies', hnow', hreplies, hnow, List.length_append]
    exact ⟨rfl, Nat.add_assoc ..⟩

end

theorem FollowsChip.then {x x' : Step} {y y' : Part} (h : FollowsChip x y) (h' : FollowsChip x' y') :
    FollowsChip (x.then x') (y.then y') := by
  have hstep : x.then x' = fun b => x b >>= fun p => if p.1 = .eok then x' p.2 else .ok (p.1, p.2) := by
    funext b
    rw [Step.then]
    rcases x b with e | ⟨e, b'⟩
    · rfl
    · cases e <;> rfl
  have hpart : y.then y' = fun l => y l >>= fun p => if p.1 = .eok then y' p.2 else .ok (p.1, p.2) := by
    funext l
    rw [Part.then]
    rcases y l with e | ⟨e, l'⟩
    · rfl
    · cases e <;> rfl
  have hnext (e : Err) : FollowsChip (fun b => if e = .eok then x' b else .ok (e, b))
      (fun l => if e = .eok then y' l else .ok (e, l)) := .ite h' (.pure e)
  rw [hstep, hpart]
  exact h.bind hnext

section

variable (info : NuSpinandInfo) (cmd : Command) (page : Nat)

/-! ## The chip functions -/

theorem nuQspiSend_followsChip : FollowsChip (SpiNand.nuQspiSend info cmd) (nuQspiSend cmd) := by
  refine .one (fun b => ⟨b.answer.goes, [], 0#8, 0#8⟩) fun b l hl => ?_
  rw [SpiNand.nuQspiSend, nuQspiSend, hl]
  by_cases hgoes : b.answer.goes
  · rw [if_pos hgoes, if_pos hgoes]
    refine ⟨rfl, fun a l' h => ?_⟩
    cases h
    exact ⟨rfl, rfl⟩
  · rw [if_neg hgoes, if_neg hgoes]
    refine ⟨rfl, fun a l' h => ?_⟩
    cases h
    exact ⟨rfl, rfl⟩

/-- A chip that is ready in time shows it with the first value of the register. -/
theorem wait_followsChip (err : Err) : FollowsChip (spinandWait err) (wait err) := by
  refine .one (fun b => ⟨true, if b.answer.ready then [some 0#8] else [], 0#8, 0#8⟩) fun b l hl => ?_
  rw [spinandWait, wait, hl]
  by_cases hready : b.answer.ready
  · rw [if_pos hready]
    refine ⟨by simp [hready, spinandIsbusy, Except.map], fun a l' h => ?_⟩
    cases h
    exact ⟨rfl, rfl⟩
  · rw [if_neg hready]
    refine ⟨by simp [hready, spinandIsbusy, Except.map], fun a l' h => ?_⟩
    cases h
    exact ⟨rfl, rfl⟩

theorem statusCheck_followsChip (good : BitVec 8 → Bool) (err : Err) :
    FollowsChip (SpiNand.statusCheck good err) (statusCheck good err) := by
  refine .one (fun b => ⟨b.answer.goes, [], b.chip.status3, 0#8⟩) fun b l hl => ?_
  rw [SpiNand.statusCheck, statusCheck, hl]
  by_cases hgoes : b.answer.goes
  · rw [if_pos hgoes, if_pos hgoes]
    refine ⟨?_, fun a l' h => ?_⟩
    · by_cases hgood : good b.chip.status3 <;> simp [hgood, Except.map]
    · cases h
      exact ⟨rfl, rfl⟩
  · rw [if_neg hgoes, if_neg hgoes]
    refine ⟨rfl, fun a l' h => ?_⟩
    cases h

theorem spinandProgramDataload_followsChip (column : Nat) (data spare : List Byte) :
    FollowsChip (SpiNand.spinandProgramDataload info column data spare)
      (spinandProgramDataload column data spare) :=
  (nuQspiSend_followsChip info _).then (nuQspiSend_followsChip info _)

theorem operation_followsChip (late : Err) (good : BitVec 8 → Bool) (bad : Err) :
    FollowsChip ((SpiNand.nuQspiSend info cmd).then ((spinandWait late).then (SpiNand.statusCheck good bad)))
      (operation cmd late good bad) :=
  (nuQspiSend_followsChip info cmd).then ((wait_followsChip late).then (statusCheck_followsChip good bad))

theorem spinandProgramExecute_followsChip :
    FollowsChip (SpiNand.spinandProgramExecute info page) (spinandProgramExecute page) :=
  operation_followsChip info (.programExecute (rowOf page)) .mtdEio programGood .mtdEio

theorem spinandReadDataload_followsChip :
    FollowsChip (SpiNand.spinandReadDataload info page) (spinandReadDataload page) :=
  operation_followsChip info (.pageRead (rowOf page)) .eio loadGood .mtdEecc

theorem spinandBlockErase_followsChip :
    FollowsChip (SpiNand.spinandBlockErase info page) (spinandBlockErase page) :=
  (nuQspiSend_followsChip info .writeEnable).then
    (operation_followsChip info (.blockErase (rowOf page)) .eio eraseGood .error)

/-- The byte that comes back is the one of the page buffer. -/
theorem readMark_followsChip : FollowsChip (SpiNand.readMark info page) (readMark page) := by
  have hchip : SpiNand.readMark info page = fun b => SpiNand.spinandReadDataload info page b >>= fun p =>
      if p.1 = .eok ∧ p.2.answer.goes = true then
        .ok (p.2.chip.cache info.u16PageSize, (p.2.withChip p.2.chip).next)
      else .error .assert := by
    funext b
    rw [SpiNand.readMark, Step.then]
    rcases SpiNand.spinandReadDataload info page b with e | ⟨e, b'⟩
    · rfl
    · cases e <;> try rfl
      by_cases hgoes : b'.answer.goes <;>
        simp [SpiNand.nuQspiSend, hgoes, Chip.execute]
  have hline : readMark page = fun l => spinandReadDataload page l >>= fun p =>
      if p.1 = .eok ∧ (p.2.reply 0).goes = true then .ok ((p.2.reply 0).data, p.2.saw [.sent .read])
      else .error .assert := by
    funext l
    rw [readMark, Part.then]
    rcases spinandReadDataload page l with e | ⟨e, l'⟩
    · rfl
    · cases e <;> try rfl
      by_cases hgoes : (l'.reply 0).goes
      · simp only [nuQspiSend, hgoes, if_true, and_true, ok_bind]
        rfl
      · simp [nuQspiSend, hgoes]
  have hlast (e : Err) : FollowsChip
      (fun b => if e = .eok ∧ b.answer.goes = true then
          .ok (b.chip.cache info.u16PageSize, (b.withChip b.chip).next)
        else .error .assert)
      (fun l => if e = .eok ∧ (l.reply 0).goes = true then .ok ((l.reply 0).data, l.saw [.sent .read])
        else .error .assert) := by
    refine .one (fun b => ⟨b.answer.goes, [], 0#8, b.chip.cache info.u16PageSize⟩) fun b l hl => ?_
    rw [hl]
    by_cases hgoes : e = .eok ∧ b.answer.goes = true
    · rw [if_pos hgoes, if_pos hgoes]
      refine ⟨rfl, fun a l' h => ?_⟩
      cases h
      exact ⟨rfl, rfl⟩
    · rw [if_neg hgoes, if_neg hgoes]
      refine ⟨rfl, fun a l' h => ?_⟩
      cases h
  rw [hchip, hline]
  exact (spinandReadDataload_followsChip info page).bind hlast

theorem spinandBlockIsbad_followsChip :
    FollowsChip (SpiNand.spinandBlockIsbad info page) (spinandBlockIsbad info page) := by
  have hsecond : FollowsChip
      (fun b => SpiNand.readMark info (page + 1) b >>= fun p => .ok (decide (p.1 ≠ 0xFF#8), p.2))
      (fun l => readMark (page + 1) l >>= fun p => .ok (decide (p.1 ≠ 0xFF#8), p.2)) :=
    (readMark_followsChip info (page + 1)).bind fun mark => .pure (decide (mark ≠ 0xFF#8))
  have hfirst (mark : Byte) : FollowsChip
      (fun b => if mark ≠ 0xFF#8 then .ok (true, b)
        else if page % (info.u32PagePerBlock * info.u16PageSize) = 0 then
          SpiNand.readMark info (page + 1) b >>= fun p => .ok (decide (p.1 ≠ 0xFF#8), p.2)
        else .ok (false, b))
      (fun l => if mark ≠ 0xFF#8 then .ok (true, l)
        else if page % (info.u32PagePerBlock * info.u16PageSize) = 0 then
          readMark (page + 1) l >>= fun p => .ok (decide (p.1 ≠ 0xFF#8), p.2)
        else .ok (false, l)) :=
    .ite (.pure true) (.ite hsecond (.pure false))
  exact (readMark_followsChip info page).bind hfirst

/-! ## The MTD operations -/

variable (device : MtdNand)

theorem spinandReadPage_followsChip (dataLen spareLen : Nat) :
    FollowsChip (SpiNand.spinandReadPage info device page dataLen spareLen)
      (spinandReadPage info device page dataLen spareLen) := by
  have hread (n : Nat) : FollowsChip
      (if n ≠ 0 then SpiNand.nuQspiSend info .read else fun b => .ok (.eok, b))
      (if n ≠ 0 then nuQspiSend .read else fun l => .ok (.eok, l)) := by
    split
    · exact nuQspiSend_followsChip info .read
    · exact .pure Err.eok
  exact .ite (.pure Err.mtdEio)
    ((spinandReadDataload_followsChip info page).then ((hread dataLen).then (hread spareLen)))

theorem spinandWritePage_followsChip (data spare : List Byte) :
    FollowsChip (SpiNand.spinandWritePage info device page data spare)
      (spinandWritePage info device page data spare) := by
  have hload : FollowsChip
      (if data ≠ [] then SpiNand.spinandProgramDataload info 0 data spare
        else SpiNand.spinandProgramDataload info info.u16PageSize [] spare)
      (if data ≠ [] then spinandProgramDataload 0 data spare
        else spinandProgramDataload info.u16PageSize [] spare) := by
    split
    · exact spinandProgramDataload_followsChip info 0 data spare
    · exact spinandProgramDataload_followsChip info info.u16PageSize [] spare
  exact .ite (.pure Err.mtdEio) (hload.then (spinandProgramExecute_followsChip info page))

theorem spinandEraseBlock_followsChip (block : Nat) :
    FollowsChip (SpiNand.spinandEraseBlock info device block) (spinandEraseBlock info device block) := by
  have herase (bad : Bool) : FollowsChip
      (fun b => if bad = true then .ok (.error, b) else SpiNand.spinandBlockErase info (pageOf info block) b)
      (fun l => if bad = true then .ok (.error, l) else spinandBlockErase (pageOf info block) l) :=
    .ite (.pure Err.error) (spinandBlockErase_followsChip info (pageOf info block))
  exact .ite (.pure Err.mtdEio) ((spinandBlockIsbad_followsChip info (pageOf info block)).bind herase)

end

/-- The operations that both have: what they return on a chip, they return on the replies that the chip
gives. -/
theorem mtd_followsChip (info : NuSpinandInfo) (device : MtdNand) :
    (∀ page dataLen spareLen, FollowsChip (SpiNand.spinandReadPage info device page dataLen spareLen)
      (spinandReadPage info device page dataLen spareLen)) ∧
    (∀ page data spare, FollowsChip (SpiNand.spinandWritePage info device page data spare)
      (spinandWritePage info device page data spare)) ∧
    ∀ block, FollowsChip (SpiNand.spinandEraseBlock info device block)
      (spinandEraseBlock info device block) :=
  ⟨fun page dataLen spareLen => spinandReadPage_followsChip info page device dataLen spareLen,
    fun page data spare => spinandWritePage_followsChip info page device data spare,
    fun block => spinandEraseBlock_followsChip info device block⟩

end NumakerMA35D1.SpiNand.Status

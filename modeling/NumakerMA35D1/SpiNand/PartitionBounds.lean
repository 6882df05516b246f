import NumakerMA35D1.SpiNand.BadBlock
import NumakerMA35D1.SpiNand.Console
import NumakerMA35D1.Lib.Confined

/-!
# Operations and the bounds of their partition

An operation stays in a partition when what it does depends on the cells of the partition's blocks
only and changes only those (`Confined`). `partitionCall_iff`: an operation or a command stays in its
partition and rejects arguments outside exactly when no argument lies below the partition, as only
the upper bound is checked; the command that erases all blocks counts them from the start of the chip.
-/

namespace NumakerMA35D1.SpiNand

open Embedded

/-! ## Confined to blocks -/

/-- Two chips with the same answers to come that differ at most in the cells of other blocks. -/
structure Alike (ppb : Nat) (inside : Nat → Prop) (b b' : Bus) : Prop where
  answers : b.answers = b'.answers
  now : b.now = b'.now
  cache : b.chip.cache = b'.chip.cache
  wel : b.chip.wel = b'.chip.wel
  eFail : b.chip.eFail = b'.chip.eFail
  pFail : b.chip.pFail = b'.chip.pFail
  ecc : b.chip.ecc = b'.chip.ecc
  cell : ∀ row, inside (row / ppb) → b.chip.cell row = b'.chip.cell row

/-- The cells of other blocks are as they were. -/
def Kept (ppb : Nat) (inside : Nat → Prop) (b b' : Bus) : Prop :=
  ∀ row, ¬ inside (row / ppb) → b'.chip.cell row = b.chip.cell row

section
variable {ppb : Nat} {inside : Nat → Prop} {b b' b'' : Bus} {x y : Step} {info : NuSpinandInfo}
  {page block : Nat} {err : Err}

theorem Kept.refl (b : Bus) : Kept ppb inside b b := fun _ _ => rfl

theorem Kept.trans (h : Kept ppb inside b b') (h' : Kept ppb inside b' b'') :
    Kept ppb inside b b'' :=
  fun row hrow => (h' row hrow).trans (h row hrow)

/-- A computation on the bus that stays in a set of blocks. -/
def StaysIn {α : Type} (ppb : Nat) (inside : Nat → Prop) (m : Bus → Except Halt (α × Bus)) : Prop :=
  Confined (Alike ppb inside) (Kept ppb inside) m

theorem Alike.answer (h : Alike ppb inside b b') : b.answer = b'.answer := by
  rw [Bus.answer, Bus.answer, h.answers, h.now]

theorem Alike.status3 (h : Alike ppb inside b b') : b.chip.status3 = b'.chip.status3 := by
  rw [Chip.status3, Chip.status3, h.ecc, h.pFail, h.eFail, h.wel]

/-- An answer used up on both. -/
theorem Alike.next (h : Alike ppb inside b b') : Alike ppb inside b.next b'.next :=
  { h with now := congrArg (· + 1) h.now }

/-- A computation and then, by its value, another. -/
theorem StaysIn.bind {α β : Type} {m : Bus → Except Halt (α × Bus)}
    {f : α × Bus → Except Halt (β × Bus)} (h : StaysIn ppb inside m)
    (hf : ∀ a, StaysIn ppb inside fun b => f (a, b)) :
    StaysIn ppb inside fun b => m b >>= f :=
  Confined.bind h (fun hst htu => Kept.trans hst htu) hf

theorem StaysIn.pure {α : Type} (a : α) :
    StaysIn ppb inside fun b => (.ok (a, b) : Except Halt (α × Bus)) :=
  Confined.pure Kept.refl a

theorem StaysIn.ite {α : Type} {m n : Bus → Except Halt (α × Bus)} {c : Prop} [Decidable c]
    (hm : c → StaysIn ppb inside m) (hn : ¬ c → StaysIn ppb inside n) :
    StaysIn ppb inside fun b => if c then m b else n b :=
  Confined.ite hm hn

/-- The next part, unless this one failed. -/
theorem StaysIn.then (hx : StaysIn ppb inside x) (hy : StaysIn ppb inside y) :
    StaysIn ppb inside (x.then y) := by
  have heq : x.then y =
      fun b => x b >>= fun r => if r.1 = .eok then y r.2 else .ok (r.1, r.2) := by
    funext b
    rw [Step.then]
    cases hx : x b with
    | error e => rfl
    | ok r =>
      obtain ⟨e, b'⟩ := r
      cases e <;> rfl
  rw [heq]
  exact hx.bind fun e => StaysIn.ite (c := e = .eok) (fun _ => hy) fun _ => StaysIn.pure e

/-- The page a command is about. -/
def Command.row : Command → Option Nat
  | .pageRead row | .blockErase row | .programExecute row => some row
  | _ => none

/-- A command executed on chips alike. -/
theorem Alike.execute (h : Alike ppb inside b b') {cmd : Command} (a : Answer)
    (hrow : ∀ row, cmd.row = some row → inside (row / ppb)) :
    Alike ppb inside (b.withChip (b.chip.execute ppb a cmd)).next
      (b'.withChip (b'.chip.execute ppb a cmd)).next := by
  refine Alike.next ?_
  cases cmd with
  | writeEnable => exact { h with wel := rfl }
  | read => exact { h with }
  | programDataLoad column data => exact { h with cache := rfl }
  | pageRead row => exact { h with cache := h.cell row (hrow row rfl), ecc := rfl }
  | blockErase row =>
    simp only [Chip.execute, h.wel]
    split
    · refine { h with cell := fun p hp => ?_, wel := rfl, eFail := rfl, pFail := rfl }
      funext col
      simp only [Bus.withChip_chip, h.cell p hp]
    · exact { h with wel := h.wel }
  | programExecute row =>
    simp only [Chip.execute, h.wel]
    split
    · refine { h with cell := fun p hp => ?_, wel := rfl, eFail := rfl, pFail := rfl }
      funext col
      simp only [Bus.withChip_chip, h.cell p hp, h.cache]
    · exact { h with wel := h.wel }

/-- A command changes cells of its page's block only. -/
theorem Chip.execute_kept {c : Chip} {cmd : Command} (a : Answer)
    (hrow : ∀ row, cmd.row = some row → inside (row / ppb)) {p : Nat} (hp : ¬ inside (p / ppb)) :
    (c.execute ppb a cmd).cell p = c.cell p := by
  cases cmd with
  | writeEnable | read | programDataLoad | pageRead => rfl
  | blockErase row =>
    rw [Chip.execute]
    have hne : p / ppb ≠ row / ppb := fun heq => hp (heq ▸ hrow row rfl)
    split
    · funext col
      simp only [if_neg hne]
    · rfl
  | programExecute row =>
    rw [Chip.execute]
    have hne : p ≠ row := fun heq => hp (heq ▸ hrow row rfl)
    split
    · funext col
      simp only [if_neg hne]
    · rfl

theorem nuQspiSend_staysIn {cmd : Command}
    (hrow : ∀ row, cmd.row = some row → inside (row / info.u32PagePerBlock)) :
    StaysIn info.u32PagePerBlock inside (nuQspiSend info cmd) where
  reads {b b'} h := by
    rw [nuQspiSend, nuQspiSend, ← h.answer]
    split
    · exact ⟨rfl, h.execute _ hrow⟩
    · exact ⟨rfl, h.next⟩
  writes {b r b'} hok := by
    intro p hp
    rcases nuQspiSend_ok hok with ⟨-, -, hchip⟩ | ⟨-, -, hchip⟩
    · rw [hchip, Chip.execute_kept _ hrow hp]
    · rw [hchip]

theorem spinandWait_staysIn : StaysIn ppb inside (spinandWait err) where
  reads {b b'} h := by
    rw [spinandWait, spinandWait, ← h.answer]
    split
    · exact ⟨rfl, h.next⟩
    · exact ⟨rfl, h.next⟩
  writes {b r b'} hok := by
    intro p _
    rw [(spinandWait_ok hok).2]

theorem statusCheck_staysIn {good : BitVec 8 → Bool} :
    StaysIn ppb inside (statusCheck good err) where
  reads {b b'} h := by
    rw [statusCheck, statusCheck, ← h.answer, ← h.status3]
    split
    · split
      · exact ⟨rfl, h.next⟩
      · exact ⟨rfl, h.next⟩
    · trivial
  writes {b r b'} hok := by
    intro p _
    rw [(statusCheck_ok hok).2]

theorem spinandReadDataload_staysIn (h : inside (rowOf page / info.u32PagePerBlock)) :
    StaysIn info.u32PagePerBlock inside (spinandReadDataload info page) :=
  StaysIn.then (nuQspiSend_staysIn fun row hrow => by cases hrow; exact h)
    (StaysIn.then spinandWait_staysIn statusCheck_staysIn)

theorem spinandProgramDataload_staysIn {column : Nat} {data spare : List Byte} :
    StaysIn info.u32PagePerBlock inside (spinandProgramDataload info column data spare) :=
  StaysIn.then (nuQspiSend_staysIn (by rintro _ ⟨⟩))
    (nuQspiSend_staysIn (by rintro _ ⟨⟩))

theorem spinandProgramExecute_staysIn (h : inside (rowOf page / info.u32PagePerBlock)) :
    StaysIn info.u32PagePerBlock inside (spinandProgramExecute info page) :=
  StaysIn.then (nuQspiSend_staysIn fun row hrow => by cases hrow; exact h)
    (StaysIn.then spinandWait_staysIn statusCheck_staysIn)

theorem spinandBlockErase_staysIn (h : inside (rowOf page / info.u32PagePerBlock)) :
    StaysIn info.u32PagePerBlock inside (spinandBlockErase info page) :=
  StaysIn.then (nuQspiSend_staysIn (by rintro _ ⟨⟩))
    (StaysIn.then (nuQspiSend_staysIn fun row hrow => by cases hrow; exact h)
      (StaysIn.then spinandWait_staysIn statusCheck_staysIn))

theorem readMark_staysIn (h : inside (rowOf page / info.u32PagePerBlock)) :
    StaysIn info.u32PagePerBlock inside (readMark info page) := by
  have hread : StaysIn info.u32PagePerBlock inside
      ((spinandReadDataload info page).then (nuQspiSend info .read)) :=
    (spinandReadDataload_staysIn h).then (nuQspiSend_staysIn (by rintro _ ⟨⟩))
  refine ⟨fun {b b'} hlike => ?_, fun {b m b'} hok => ?_⟩
  · have hr := hread.reads hlike
    rw [readMark, readMark]
    generalize (spinandReadDataload info page).then (nuQspiSend info .read) b = r at hr ⊢
    generalize (spinandReadDataload info page).then (nuQspiSend info .read) b' = r' at hr ⊢
    cases r with
    | error e =>
      cases r' with
      | error e' => trivial
      | ok x => cases hr
    | ok x =>
      cases r' with
      | error e' => cases hr
      | ok x' =>
        obtain ⟨err, c⟩ := x
        obtain ⟨err', c'⟩ := x'
        obtain ⟨rfl, hc⟩ := hr
        cases err with
        | eok => exact ⟨congrFun hc.cache _, hc⟩
        | error | eio | mtdEio | mtdEecc => trivial
  · intro p _
    rw [(readMark_ok hok).2.1]

theorem spinandBlockIsbad_staysIn (h : inside (rowOf page / info.u32PagePerBlock))
    (h' : inside (rowOf (page + 1) / info.u32PagePerBlock)) :
    StaysIn info.u32PagePerBlock inside (spinandBlockIsbad info page) := by
  refine (readMark_staysIn h).bind fun mark => ?_
  refine StaysIn.ite (fun _ => StaysIn.pure true) fun _ => ?_
  refine StaysIn.ite (fun _ => ?_) fun _ => StaysIn.pure false
  exact (readMark_staysIn h').bind fun mark => StaysIn.pure _

end

/-! ## Calls on a partition -/

/-- A block lies in the partition. -/
def Partition.Has (device : Partition) (block : Nat) : Prop :=
  device.blockStart ≤ block ∧ block ≤ device.blockEnd

/-- A partition of the chip. -/
def Partition.Valid (info : NuSpinandInfo) (device : Partition) : Prop :=
  device.blockStart ≤ device.blockEnd ∧ device.blockEnd < info.u32BlockPerFlash

/-- A call of an MTD operation, or of a command that erases or marks blocks. -/
inductive Call
  | read (page dataLen spareLen : Nat)
  | write (page : Nat) (data spare : List Byte)
  | move (srcPage dstPage : Nat)
  | erase (block : Nat)
  | check (block : Nat)
  | mark (block : Nat)
  | nerase (block : BitVec 32)
  | nmarkbad (block : BitVec 32)
  | neraseForce
  | neraseAll

section

variable (info : NuSpinandInfo) (device : Partition)

/-- The function called. -/
def Call.run : Call → Step
  | .read page dataLen spareLen => spinandReadPage info device.toMtdNand page dataLen spareLen
  | .write page data spare => spinandWritePage info device.toMtdNand page data spare
  | .move srcPage dstPage => spinandMovePage info device.toMtdNand srcPage dstPage
  | .erase block => spinandEraseBlock info device.toMtdNand block
  | .check block => spinandCheckBlock info device.toMtdNand block
  | .mark block => spinandMarkBadblock info device.toMtdNand block
  | .nerase block => SpiNand.nerase info device block
  | .nmarkbad block => SpiNand.nmarkbad info device block
  | .neraseForce => SpiNand.neraseForce info device
  | .neraseAll => SpiNand.neraseAll info device

/-- An argument lies outside the partition. A command's block is a number of the partition's. -/
def Call.Outside : Call → Prop
  | .read page _ _ | .write page _ _ => ¬ device.Has (page / info.u32PagePerBlock)
  | .move srcPage dstPage =>
    ¬ device.Has (srcPage / info.u32PagePerBlock) ∨ ¬ device.Has (dstPage / info.u32PagePerBlock)
  | .erase block | .check block | .mark block => ¬ device.Has block
  | .nerase block | .nmarkbad block =>
    block.toInt < 0 ∨ (device.blockEnd - device.blockStart : Int) < block.toInt
  | .neraseForce | .neraseAll => False

/-- The call reads, programs and erases blocks of the partition only, and with an argument outside it
returns an error and leaves the chip as it is. -/
def Call.Right (call : Call) : Prop :=
  StaysIn info.u32PagePerBlock device.Has (call.run info device) ∧
    (call.Outside info device → ∀ b, ∃ r b', call.run info device b = .ok (r, b') ∧
      r ≠ .eok ∧ b'.chip = b.chip)

/-- No argument lies below the partition, unless another one is above it; the command that erases all
blocks is given a partition at the start of the chip, or one of no blocks. -/
def Call.NotBelow : Call → Prop
  | .read page _ _ | .write page _ _ => device.blockStart ≤ page / info.u32PagePerBlock
  | .move srcPage dstPage =>
    device.blockStart ≤ srcPage / info.u32PagePerBlock ∧
        device.blockStart ≤ dstPage / info.u32PagePerBlock ∨
      device.blockEnd < srcPage / info.u32PagePerBlock ∨
      device.blockEnd < dstPage / info.u32PagePerBlock
  | .erase block | .check block | .mark block => device.blockStart ≤ block
  | .nerase block | .nmarkbad block => device.blockStart ≤ absoluteBlock device block
  | .neraseForce => True
  | .neraseAll => device.blockStart = 0 ∨ device.blockTotal = 0

end

section
variable {info : NuSpinandInfo} {device : Partition} {page block : Nat} {x : Step}

/-- The pages of a partition of the chip have an address. -/
theorem Partition.Valid.addressed (h : device.Valid info) (hinfo : info ∈ gSpinandflashList) :
    Addressed info device.toMtdNand := by
  have hblocks : info.u32BlockPerFlash ≤ 4096 := by
    rcases List.mem_cons.1 hinfo with rfl | hinfo
    · decide
    rcases List.mem_cons.1 hinfo with rfl | hinfo
    · decide
    rcases List.mem_singleton.1 hinfo with rfl
    decide
  have hend := h.2
  rw [Addressed, (geometry hinfo).1]
  omega

/-- The address of a page up to the partition's end is that of its block. -/
theorem rowOf_page (hinfo : info ∈ gSpinandflashList) (hdev : Addressed info device.toMtdNand)
    (hpage : page / info.u32PagePerBlock ≤ device.blockEnd) : rowOf page = page := by
  rw [Addressed] at hdev
  rw [rowOf]
  rw [(geometry hinfo).1] at hdev hpage
  omega

/-! ### Calls above the partition -/

/-- A call that is rejected. -/
def Rejects (x : Step) : Prop := ∀ b, x b = .ok (.mtdEio, b)

theorem Rejects.staysIn {ppb : Nat} {inside : Nat → Prop} (h : Rejects x) :
    StaysIn ppb inside x := by
  have heq : x = fun b => .ok (.mtdEio, b) := funext h
  rw [heq]
  exact StaysIn.pure _

theorem Rejects.fails (h : Rejects x) (b : Bus) :
    ∃ r b', x b = .ok (r, b') ∧ r ≠ .eok ∧ b'.chip = b.chip :=
  ⟨.mtdEio, b, h b, nofun, rfl⟩

/-- A command whose operation is rejected fails. -/
theorem Rejects.command (h : Rejects x) (b : Bus) :
    (x b >>= fun r => .ok (commandResult r.1, r.2)) = .ok (.error, b) := by
  rw [h b]
  rfl

/-! ### Calls in the partition -/

theorem spinandReadPage_staysIn {dataLen spareLen : Nat}
    (h : device.Has (rowOf page / info.u32PagePerBlock)) :
    StaysIn info.u32PagePerBlock device.Has
      (spinandReadPage info device.toMtdNand page dataLen spareLen) := by
  refine StaysIn.ite (fun _ => StaysIn.pure _) fun _ => ?_
  refine (spinandReadDataload_staysIn h).then (StaysIn.then ?_ ?_) <;> split
  · exact nuQspiSend_staysIn fun _ hrow => nomatch hrow
  · exact StaysIn.pure _
  · exact nuQspiSend_staysIn fun _ hrow => nomatch hrow
  · exact StaysIn.pure _

theorem spinandWritePage_staysIn {data spare : List Byte}
    (h : device.Has (rowOf page / info.u32PagePerBlock)) :
    StaysIn info.u32PagePerBlock device.Has
      (spinandWritePage info device.toMtdNand page data spare) := by
  refine StaysIn.ite (fun _ => StaysIn.pure _) fun _ => ?_
  refine StaysIn.then ?_ (spinandProgramExecute_staysIn h)
  split
  · exact spinandProgramDataload_staysIn
  · exact spinandProgramDataload_staysIn

theorem spinandMovePage_staysIn {srcPage dstPage : Nat}
    (hsrc : device.Has (rowOf srcPage / info.u32PagePerBlock))
    (hdst : device.Has (rowOf dstPage / info.u32PagePerBlock)) :
    StaysIn info.u32PagePerBlock device.Has
      (spinandMovePage info device.toMtdNand srcPage dstPage) := by
  refine StaysIn.ite (fun _ => StaysIn.pure _) fun _ => ?_
  exact (spinandReadDataload_staysIn hsrc).then
    ((nuQspiSend_staysIn (by rintro _ ⟨⟩)).then (spinandProgramExecute_staysIn hdst))

theorem spinandBlockMarkbad_staysIn (h : device.Has (rowOf page / info.u32PagePerBlock)) :
    StaysIn info.u32PagePerBlock device.Has (spinandBlockMarkbad info page) :=
  (spinandBlockErase_staysIn h).then
    (spinandProgramDataload_staysIn.then (spinandProgramExecute_staysIn h))

section
variable (h : device.Has (rowOf (pageOf info block) / info.u32PagePerBlock))
  (h' : device.Has (rowOf (pageOf info block + 1) / info.u32PagePerBlock))

include h in
theorem spinandEraseBlockForce_staysIn : StaysIn info.u32PagePerBlock device.Has
    (spinandEraseBlockForce info device.toMtdNand block) :=
  StaysIn.ite (fun _ => StaysIn.pure _) fun _ => spinandBlockErase_staysIn h

include h h'

theorem spinandEraseBlock_staysIn : StaysIn info.u32PagePerBlock device.Has
    (spinandEraseBlock info device.toMtdNand block) := by
  refine StaysIn.ite (fun _ => StaysIn.pure _) fun _ => ?_
  exact (spinandBlockIsbad_staysIn h h').bind fun bad =>
    StaysIn.ite (fun _ => StaysIn.pure _) fun _ => spinandBlockErase_staysIn h

theorem spinandCheckBlock_staysIn : StaysIn info.u32PagePerBlock device.Has
    (spinandCheckBlock info device.toMtdNand block) := by
  refine StaysIn.ite (fun _ => StaysIn.pure _) fun _ => ?_
  exact (spinandBlockIsbad_staysIn h h').bind fun bad => StaysIn.pure _

theorem spinandMarkBadblock_staysIn : StaysIn info.u32PagePerBlock device.Has
    (spinandMarkBadblock info device.toMtdNand block) := by
  refine StaysIn.ite (fun _ => StaysIn.pure _) fun _ => ?_
  exact (spinandBlockIsbad_staysIn h h').bind fun bad =>
    StaysIn.ite (fun _ => StaysIn.pure _) fun _ => spinandBlockMarkbad_staysIn h

end

/-- A call whose block is not below the partition stays in it: it is rejected, or the block's first
two pages are the partition's. -/
theorem staysIn_of_le {op : Nat → Step} (hinfo : info ∈ gSpinandflashList)
    (hdev : Addressed info device.toMtdNand) (hblock : device.blockStart ≤ block)
    (hreject : device.blockEnd < block → Rejects (op block))
    (hop : device.Has (rowOf (pageOf info block) / info.u32PagePerBlock) →
      device.Has (rowOf (pageOf info block + 1) / info.u32PagePerBlock) →
      StaysIn info.u32PagePerBlock device.Has (op block)) :
    StaysIn info.u32PagePerBlock device.Has (op block) := by
  rcases Nat.lt_or_ge device.blockEnd block with habove | hle
  · exact (hreject habove).staysIn
  · obtain ⟨hfirst, hsecond⟩ := rowOf_pageOf hinfo hdev hle
    exact hop (hfirst.symm ▸ ⟨hblock, hle⟩) (hsecond.symm ▸ ⟨hblock, hle⟩)

theorem spinandEraseBlock_rejects (h : device.blockEnd < block) :
    Rejects (spinandEraseBlock info device.toMtdNand block) :=
  fun _ => if_pos h

theorem spinandCheckBlock_rejects (h : device.blockEnd < block) :
    Rejects (spinandCheckBlock info device.toMtdNand block) :=
  fun _ => if_pos h

theorem spinandMarkBadblock_rejects (h : device.blockEnd < block) :
    Rejects (spinandMarkBadblock info device.toMtdNand block) :=
  fun _ => if_pos h

theorem spinandEraseBlockForce_rejects (h : device.blockEnd < block) :
    Rejects (spinandEraseBlockForce info device.toMtdNand block) :=
  fun _ => if_pos h

/-- The forced erases stay in the partition: they end with the first one above it. -/
theorem neraseForceFrom_staysIn (hinfo : info ∈ gSpinandflashList)
    (hdev : Addressed info device.toMtdNand) (n block : Nat) :
    StaysIn info.u32PagePerBlock device.Has (neraseForceFrom info device block n) := by
  induction n generalizing block with
  | zero => exact StaysIn.pure _
  | succ n ih =>
    have hop : StaysIn info.u32PagePerBlock device.Has
        (spinandEraseBlockForce info device.toMtdNand (block + device.blockStart)) :=
      staysIn_of_le hinfo hdev (Nat.le_add_left _ _) spinandEraseBlockForce_rejects
        fun h _ => spinandEraseBlockForce_staysIn h
    exact hop.bind fun r =>
      StaysIn.ite (c := r ≠ .eok) (fun _ => StaysIn.pure _) fun _ => ih (block + 1)

/-- The erases of all blocks stay in a partition that starts where the chip does. -/
theorem neraseAllFrom_staysIn (hinfo : info ∈ gSpinandflashList)
    (hdev : Addressed info device.toMtdNand) (hstart : device.blockStart = 0) (n index : Nat) :
    StaysIn info.u32PagePerBlock device.Has (neraseAllFrom info device index n) := by
  induction n generalizing index with
  | zero => exact StaysIn.pure _
  | succ n ih =>
    have hop : StaysIn info.u32PagePerBlock device.Has
        (spinandEraseBlock info device.toMtdNand index) :=
      staysIn_of_le hinfo hdev (hstart ▸ Nat.zero_le _) spinandEraseBlock_rejects
        fun h h' => spinandEraseBlock_staysIn h h'
    exact hop.bind fun r => ih (index + 1)

/-! ### A chip that does not fail -/

/-- Every answer is a good one, and the chip reports no failure. -/
structure Sound (b : Bus) : Prop where
  answers : b.answers = noFailure
  eFail : b.chip.eFail = false
  pFail : b.chip.pFail = false
  ecc : b.chip.ecc = 0#2

/-- A part that succeeds on a sound bus and leaves it sound. -/
def Succeeds (x : Step) : Prop := ∀ b, Sound b → ∃ b', x b = .ok (.eok, b') ∧ Sound b'

theorem Succeeds.then {y : Step} (hx : Succeeds x) (hy : Succeeds y) : Succeeds (x.then y) := by
  intro b hb
  obtain ⟨b₁, h₁, hb₁⟩ := hx b hb
  obtain ⟨b₂, h₂, hb₂⟩ := hy b₁ hb₁
  exact ⟨b₂, by rw [Step.then, h₁]; exact h₂, hb₂⟩

theorem Sound.answer {b : Bus} (h : Sound b) : b.answer = noFailure 0 := by
  rw [Bus.answer, h.answers]
  rfl

/-- A command executed on a sound bus. -/
theorem nuQspiSend_sound {b : Bus} (h : Sound b) (cmd : Command) :
    nuQspiSend info cmd b = .ok (.eok,
        (b.withChip (b.chip.execute info.u32PagePerBlock (noFailure 0) cmd)).next) ∧
      Sound (b.withChip (b.chip.execute info.u32PagePerBlock (noFailure 0) cmd)).next := by
  constructor
  · rw [nuQspiSend, h.answer]
    exact if_pos rfl
  · have hanswers : (b.withChip (b.chip.execute info.u32PagePerBlock (noFailure 0) cmd)).next.answers
        = noFailure := h.answers
    cases cmd with
    | writeEnable | read | programDataLoad => exact ⟨hanswers, h.eFail, h.pFail, h.ecc⟩
    | pageRead row => exact ⟨hanswers, h.eFail, h.pFail, rfl⟩
    | blockErase row | programExecute row =>
      refine ⟨hanswers, ?_, ?_, ?_⟩ <;> rw [Bus.next_chip, Bus.withChip_chip, Chip.execute] <;> split
      · rfl
      · exact h.eFail
      · rfl
      · exact h.pFail
      · exact h.ecc
      · exact h.ecc

theorem nuQspiSend_succeeds (cmd : Command) : Succeeds (nuQspiSend info cmd) :=
  fun _ hb => ⟨_, nuQspiSend_sound hb cmd⟩

theorem spinandWait_succeeds {err : Err} : Succeeds (spinandWait err) := by
  intro b hb
  refine ⟨b.next, ?_, hb.answers, hb.eFail, hb.pFail, hb.ecc⟩
  rw [spinandWait, hb.answer]
  exact if_pos rfl

/-- The status of a chip that reports no failure passes every test of it. -/
theorem statusCheck_succeeds {good : BitVec 8 → Bool} {err : Err}
    (hgood : good 0x00#8 = true ∧ good 0x02#8 = true) : Succeeds (statusCheck good err) := by
  intro b hb
  refine ⟨b.next, ?_, hb.answers, hb.eFail, hb.pFail, hb.ecc⟩
  have hstatus : good b.chip.status3 = true := by
    rw [Chip.status3, hb.ecc, hb.pFail, hb.eFail]
    cases b.chip.wel with
    | true => exact hgood.2
    | false => exact hgood.1
  rw [statusCheck, hb.answer]
  exact (if_pos rfl).trans (if_pos hstatus)

theorem spinandReadDataload_succeeds : Succeeds (spinandReadDataload info page) :=
  (nuQspiSend_succeeds _).then (spinandWait_succeeds.then (statusCheck_succeeds (by decide)))

theorem spinandProgramDataload_succeeds {column : Nat} {data spare : List Byte} :
    Succeeds (spinandProgramDataload info column data spare) :=
  (nuQspiSend_succeeds _).then (nuQspiSend_succeeds _)

theorem spinandProgramExecute_succeeds : Succeeds (spinandProgramExecute info page) :=
  (nuQspiSend_succeeds _).then (spinandWait_succeeds.then (statusCheck_succeeds (by decide)))

theorem spinandBlockErase_succeeds : Succeeds (spinandBlockErase info page) :=
  (nuQspiSend_succeeds _).then <| (nuQspiSend_succeeds _).then <|
    spinandWait_succeeds.then (statusCheck_succeeds (by decide))

/-- An erase on a sound bus: the block's cells are all ones, the others as they were. -/
theorem spinandBlockErase_cell {b b' : Bus} (hb : Sound b)
    (h : spinandBlockErase info page b = .ok (.eok, b')) (p col : Nat) :
    b'.chip.cell p col =
      if p / info.u32PagePerBlock = rowOf page / info.u32PagePerBlock then 0xFF#8
      else b.chip.cell p col := by
  obtain ⟨b₁, henable, h⟩ := Step.then_EOK h
  obtain ⟨b₂, herase, h⟩ := Step.then_EOK h
  obtain ⟨b₃, hwait, hstatus⟩ := Step.then_EOK h
  obtain ⟨henable', hb₁⟩ := @nuQspiSend_sound info _ hb .writeEnable
  cases henable.symm.trans henable'
  cases herase.symm.trans (nuQspiSend_sound hb₁ _).1
  rw [(statusCheck_ok hstatus).2, (spinandWait_ok hwait).2]
  rfl

/-- A sound bus on a chip without bad blocks. -/
structure Clean (info : NuSpinandInfo) (b : Bus) : Prop extends Sound b where
  good : ∀ row, b.chip.cell row info.u16PageSize = 0xFF#8

/-- The mark of a page is found good. -/
theorem readMark_clean {b : Bus} (h : Clean info b) (page : Nat) :
    ∃ b', readMark info page b = .ok (0xFF#8, b') ∧ Clean info b' ∧
      b'.chip.cell = b.chip.cell := by
  have hread : Succeeds ((spinandReadDataload info page).then (nuQspiSend info .read)) :=
    spinandReadDataload_succeeds.then (nuQspiSend_succeeds _)
  obtain ⟨b', hok, hsound⟩ := hread b h.toSound
  have hmark : readMark info page b = .ok (b'.chip.cache info.u16PageSize, b') := by
    rw [readMark, hok]
  obtain ⟨hm, hcell, -⟩ := readMark_ok hmark
  rw [markOf, h.good] at hm
  exact ⟨b', hm ▸ hmark, ⟨hsound, fun row => hcell ▸ h.good row⟩, hcell⟩

/-- A block is found good. -/
theorem spinandBlockIsbad_clean {b : Bus} (h : Clean info b) (page : Nat) :
    ∃ b', spinandBlockIsbad info page b = .ok (false, b') ∧ Clean info b' ∧
      b'.chip.cell = b.chip.cell := by
  obtain ⟨b₁, hfirst, h₁, hcell₁⟩ := readMark_clean h page
  obtain ⟨b₂, hsecond, h₂, hcell₂⟩ := readMark_clean h₁ (page + 1)
  rw [spinandBlockIsbad, hfirst, ok_bind]
  dsimp only
  rw [if_neg (not_not.2 rfl)]
  split
  · exact ⟨b₂, by rw [hsecond]; rfl, h₂, hcell₂.trans hcell₁⟩
  · exact ⟨b₁, rfl, h₁, hcell₁⟩

/-- An erase of a block up to the partition's end succeeds on a clean chip, and the block's cells are
all ones then. -/
theorem spinandEraseBlock_clean {b : Bus} (h : Clean info b) (hblock : block ≤ device.blockEnd) :
    ∃ b', spinandEraseBlock info device.toMtdNand block b = .ok (.eok, b') ∧ Clean info b' ∧
      ∀ p col, b'.chip.cell p col =
        if p / info.u32PagePerBlock = rowOf (pageOf info block) / info.u32PagePerBlock then 0xFF#8
        else b.chip.cell p col := by
  obtain ⟨b₁, hbad, h₁, hcell₁⟩ := spinandBlockIsbad_clean h (pageOf info block)
  obtain ⟨b₂, herase, h₂⟩ := @spinandBlockErase_succeeds info (pageOf info block) b₁
    h₁.toSound
  have hcell := spinandBlockErase_cell h₁.toSound herase
  rw [hcell₁] at hcell
  refine ⟨b₂, ?_, ⟨h₂, fun row => ?_⟩, hcell⟩
  · rw [spinandEraseBlock, if_neg (Nat.not_lt.2 hblock), hbad, ok_bind]
    exact herase
  · rw [hcell]
    split
    · rfl
    · exact h.good row

theorem spinandCheckBlock_clean {b : Bus} (h : Clean info b) (hblock : block ≤ device.blockEnd) :
    ∃ b', spinandCheckBlock info device.toMtdNand block b = .ok (.eok, b') := by
  obtain ⟨b₁, hbad, -⟩ := spinandBlockIsbad_clean h (pageOf info block)
  exact ⟨b₁, by rw [spinandCheckBlock, if_neg (Nat.not_lt.2 hblock), hbad]; rfl⟩

theorem spinandMarkBadblock_clean {b : Bus} (h : Clean info b) (hblock : block ≤ device.blockEnd) :
    ∃ b', spinandMarkBadblock info device.toMtdNand block b = .ok (.eok, b') := by
  obtain ⟨b₁, hbad, h₁, -⟩ := spinandBlockIsbad_clean h (pageOf info block)
  have hmark : Succeeds (spinandBlockMarkbad info (pageOf info block)) :=
    spinandBlockErase_succeeds.then
      (spinandProgramDataload_succeeds.then spinandProgramExecute_succeeds)
  obtain ⟨b₂, hok, -⟩ := hmark b₁ h₁.toSound
  refine ⟨b₂, ?_⟩
  rw [spinandMarkBadblock, if_neg (Nat.not_lt.2 hblock), hbad, ok_bind]
  exact hok

/-- The erases of all blocks, from one on, succeed on a clean chip; a cell of all ones stays so. -/
theorem neraseAllFrom_clean (n index : Nat) {b : Bus} (h : Clean info b) :
    ∃ b', neraseAllFrom info device index n b = .ok (.eok, b') ∧
      ∀ p col, b.chip.cell p col = 0xFF#8 → b'.chip.cell p col = 0xFF#8 := by
  induction n generalizing index b with
  | zero => exact ⟨b, rfl, fun _ _ hcell => hcell⟩
  | succ n ih =>
    rcases Nat.lt_or_ge device.blockEnd index with habove | hle
    · obtain ⟨b', hrest, hkeep⟩ := ih (index + 1) h
      refine ⟨b', ?_, hkeep⟩
      rw [neraseAllFrom]
      dsimp only
      rw [spinandEraseBlock_rejects habove, ok_bind]
      exact hrest
    · obtain ⟨b₁, herase, h₁, hcell⟩ := spinandEraseBlock_clean h hle
      obtain ⟨b', hrest, hkeep⟩ := ih (index + 1) h₁
      refine ⟨b', ?_, fun p col hp => hkeep p col ?_⟩
      · rw [neraseAllFrom]
        dsimp only
        rw [herase, ok_bind]
        exact hrest
      · rw [hcell, hp, ite_self]

/-! ## Exactly the calls not below the partition -/

/-- An erased chip, on a bus where nothing fails. -/
def erasedBus : Bus := ⟨chipWith fun _ _ => 0xFF#8, noFailure, 0⟩

theorem clean_erasedBus : Clean info erasedBus := ⟨⟨rfl, rfl, rfl, rfl⟩, fun _ => rfl⟩

/-- A right call with an argument outside the partition does not succeed. -/
theorem Call.Right.not_EOK {call : Call} (h : call.Right info device)
    (hout : call.Outside info device) {b b' : Bus} : call.run info device b ≠ .ok (.eok, b') := by
  intro hok
  obtain ⟨r, b'', hr, hne, -⟩ := h.2 hout b
  cases hok.symm.trans hr
  exact hne rfl

theorem spinandReadPage_succeeds {dataLen spareLen : Nat}
    (h : page / info.u32PagePerBlock ≤ device.blockEnd) :
    Succeeds (spinandReadPage info device.toMtdNand page dataLen spareLen) := by
  have hrest : Succeeds ((spinandReadDataload info page).then (fun b =>
      (if dataLen ≠ 0 then nuQspiSend info .read else fun b => .ok (.eok, b)).then
        (if spareLen ≠ 0 then nuQspiSend info .read else fun b => .ok (.eok, b)) b)) := by
    refine spinandReadDataload_succeeds.then (Succeeds.then ?_ ?_) <;> split
    · exact nuQspiSend_succeeds _
    · exact fun b hb => ⟨b, rfl, hb⟩
    · exact nuQspiSend_succeeds _
    · exact fun b hb => ⟨b, rfl, hb⟩
  intro b hb
  rw [spinandReadPage, if_neg (Nat.not_lt.2 h)]
  exact hrest b hb

theorem spinandWritePage_succeeds {data spare : List Byte}
    (h : page / info.u32PagePerBlock ≤ device.blockEnd) :
    Succeeds (spinandWritePage info device.toMtdNand page data spare) := by
  intro b hb
  rw [spinandWritePage, if_neg (Nat.not_lt.2 h)]
  split
  · exact (spinandProgramDataload_succeeds.then spinandProgramExecute_succeeds) b hb
  · exact (spinandProgramDataload_succeeds.then spinandProgramExecute_succeeds) b hb

theorem spinandMovePage_succeeds {srcPage dstPage : Nat}
    (hsrc : srcPage / info.u32PagePerBlock ≤ device.blockEnd)
    (hdst : dstPage / info.u32PagePerBlock ≤ device.blockEnd) :
    Succeeds (spinandMovePage info device.toMtdNand srcPage dstPage) := by
  intro b hb
  rw [spinandMovePage, if_neg (not_or.2 ⟨Nat.not_lt.2 hsrc, Nat.not_lt.2 hdst⟩)]
  exact (spinandReadDataload_succeeds.then
    ((nuQspiSend_succeeds _).then spinandProgramExecute_succeeds)) b hb

/-- A call about one block that is not below the partition is right. -/
theorem Call.right_of_block {call : Call} (hblock : device.blockStart ≤ block)
    (hout : call.Outside info device ↔ ¬ device.Has block)
    (habove : device.blockEnd < block → Rejects (call.run info device))
    (hin : block ≤ device.blockEnd →
      StaysIn info.u32PagePerBlock device.Has (call.run info device)) :
    call.Right info device := by
  rcases Nat.lt_or_ge device.blockEnd block with hgt | hle
  · exact ⟨(habove hgt).staysIn, fun _ => (habove hgt).fails⟩
  · exact ⟨hin hle, fun h => absurd ⟨hblock, hle⟩ (hout.1 h)⟩

/-- A command's number is outside the partition exactly when the block it stands for is. -/
theorem absoluteBlock_has (hvalid : device.Valid info) (hinfo : info ∈ gSpinandflashList)
    (number : BitVec 32) :
    (number.toInt < 0 ∨ (device.blockEnd - device.blockStart : Int) < number.toInt) ↔
      ¬ device.Has (absoluteBlock device number) := by
  have hdev := hvalid.addressed hinfo
  rw [Addressed, (geometry hinfo).1] at hdev
  have hle := hvalid.1
  have hlt := number.isLt
  rw [Partition.Has, absoluteBlock, BitVec.toInt_eq_toNat_cond]
  split <;> omega

/-- A command that makes one operation is right when the block is not below the partition. -/
theorem Call.right_of_command {call : Call} {op : Step} {number : BitVec 32}
    (hvalid : device.Valid info) (hinfo : info ∈ gSpinandflashList)
    (hrun : call.run info device = fun b => op b >>= fun r => .ok (commandResult r.1, r.2))
    (hout : call.Outside info device ↔
      number.toInt < 0 ∨ (device.blockEnd - device.blockStart : Int) < number.toInt)
    (hblock : device.blockStart ≤ absoluteBlock device number)
    (hreject : device.blockEnd < absoluteBlock device number → Rejects op)
    (hop : StaysIn info.u32PagePerBlock device.Has op) : call.Right info device := by
  rw [Call.Right, hrun, hout, absoluteBlock_has hvalid hinfo]
  refine ⟨hop.bind fun r => StaysIn.pure (commandResult r), fun hnot b => ?_⟩
  have habove : device.blockEnd < absoluteBlock device number :=
    Nat.not_le.1 fun hle => hnot ⟨hblock, hle⟩
  exact ⟨.error, b, (hreject habove).command b, nofun, rfl⟩

/-- A call not below the partition is right. -/
theorem Call.NotBelow.right {call : Call} (h : call.NotBelow info device)
    (hinfo : info ∈ gSpinandflashList) (hvalid : device.Valid info) : call.Right info device := by
  have hdev := hvalid.addressed hinfo
  have hrow : ∀ {page}, device.blockStart ≤ page / info.u32PagePerBlock →
      page / info.u32PagePerBlock ≤ device.blockEnd →
      device.Has (rowOf page / info.u32PagePerBlock) := by
    intro page hstart hle
    rw [rowOf_page hinfo hdev hle]
    exact ⟨hstart, hle⟩
  cases call with
  | read page dataLen spareLen =>
    exact right_of_block h Iff.rfl (fun hgt _ => if_pos hgt)
      fun hle => spinandReadPage_staysIn (hrow h hle)
  | write page data spare =>
    exact right_of_block h Iff.rfl (fun hgt _ => if_pos hgt)
      fun hle => spinandWritePage_staysIn (hrow h hle)
  | move srcPage dstPage =>
    by_cases habove : device.blockEnd < srcPage / info.u32PagePerBlock ∨
        device.blockEnd < dstPage / info.u32PagePerBlock
    · have hreject : Rejects (spinandMovePage info device.toMtdNand srcPage dstPage) :=
        fun _ => if_pos habove
      exact ⟨hreject.staysIn, fun _ => hreject.fails⟩
    · obtain ⟨hsrc, hdst⟩ := h.resolve_right habove
      obtain ⟨hsrc', hdst'⟩ := not_or.1 habove
      refine ⟨spinandMovePage_staysIn (hrow hsrc (Nat.not_lt.1 hsrc')) (hrow hdst (Nat.not_lt.1 hdst')),
        fun hout => ?_⟩
      rcases hout with hout | hout
      · exact absurd ⟨hsrc, Nat.not_lt.1 hsrc'⟩ hout
      · exact absurd ⟨hdst, Nat.not_lt.1 hdst'⟩ hout
  | erase block =>
    exact right_of_block h Iff.rfl spinandEraseBlock_rejects fun _ =>
      staysIn_of_le hinfo hdev h spinandEraseBlock_rejects spinandEraseBlock_staysIn
  | check block =>
    exact right_of_block h Iff.rfl spinandCheckBlock_rejects fun _ =>
      staysIn_of_le hinfo hdev h spinandCheckBlock_rejects spinandCheckBlock_staysIn
  | mark block =>
    exact right_of_block h Iff.rfl spinandMarkBadblock_rejects fun _ =>
      staysIn_of_le hinfo hdev h spinandMarkBadblock_rejects spinandMarkBadblock_staysIn
  | nerase number =>
    exact right_of_command hvalid hinfo rfl Iff.rfl h spinandEraseBlock_rejects
      (staysIn_of_le hinfo hdev h spinandEraseBlock_rejects spinandEraseBlock_staysIn)
  | nmarkbad number =>
    exact right_of_command hvalid hinfo rfl Iff.rfl h spinandMarkBadblock_rejects
      (staysIn_of_le hinfo hdev h spinandMarkBadblock_rejects spinandMarkBadblock_staysIn)
  | neraseForce => exact ⟨neraseForceFrom_staysIn hinfo hdev _ _, fun hno => hno.elim⟩
  | neraseAll =>
    refine ⟨?_, fun hno => hno.elim⟩
    rcases h with hstart | htotal
    · exact neraseAllFrom_staysIn hinfo hdev hstart _ _
    · rw [Call.run, SpiNand.neraseAll, htotal]
      exact StaysIn.pure _

/-- A chip with one byte programmed, in block zero. -/
def markedBus : Bus :=
  ⟨chipWith fun p col => if p = 0 ∧ col = 0 then 0#8 else 0xFF#8, noFailure, 0⟩

/-- The erases of all blocks of a partition that starts above block zero erase that block. -/
theorem not_staysIn_neraseAll (hinfo : info ∈ gSpinandflashList) (hvalid : device.Valid info)
    (hstart : 0 < device.blockStart) (htotal : 0 < device.blockTotal) :
    ¬ StaysIn info.u32PagePerBlock device.Has (SpiNand.neraseAll info device) := by
  intro hstays
  obtain ⟨n, hn⟩ := Nat.exists_eq_succ_of_ne_zero htotal.ne'
  have hmark : ∀ row, ¬ (row = 0 ∧ info.u16PageSize = 0) := by
    intro row h
    have hcol := h.2
    rw [(geometry hinfo).2] at hcol
    cases hcol
  have hclean : Clean info markedBus := ⟨⟨rfl, rfl, rfl, rfl⟩, fun row => if_neg (hmark row)⟩
  obtain ⟨b₁, herase, h₁, hcell⟩ :=
    @spinandEraseBlock_clean info device 0 markedBus hclean (Nat.zero_le _)
  obtain ⟨b', hrest, hkeep⟩ := @neraseAllFrom_clean info device n 1 b₁ h₁
  have hrun : SpiNand.neraseAll info device markedBus = .ok (.eok, b') := by
    rw [SpiNand.neraseAll, hn, neraseAllFrom]
    dsimp only
    rw [herase, ok_bind]
    exact hrest
  have hblock : 0 / info.u32PagePerBlock = rowOf (pageOf info 0) / info.u32PagePerBlock := by
    rw [(rowOf_pageOf hinfo (hvalid.addressed hinfo) (Nat.zero_le _)).1, Nat.zero_div]
  have herased : b₁.chip.cell 0 0 = 0xFF#8 := (hcell 0 0).trans (if_pos hblock)
  have hout : ¬ device.Has (0 / info.u32PagePerBlock) := by
    rw [Nat.zero_div]
    exact fun hin => absurd hin.1 (Nat.not_le.2 hstart)
  have hends := hkeep 0 0 herased
  rw [hstays.writes hrun 0 hout] at hends
  exact absurd hends (by decide)

/-- A call on a partition stays in it and rejects what is outside exactly when no argument is below
it. -/
theorem partitionCall_iff (hinfo : info ∈ gSpinandflashList) (hvalid : device.Valid info)
    (call : Call) : call.Right info device ↔ call.NotBelow info device := by
  refine ⟨fun hright => ?_, fun h => h.right hinfo hvalid⟩
  by_contra hbelow
  have hclean : Clean info erasedBus := clean_erasedBus
  have hle := hvalid.1
  cases call with
  | read page dataLen spareLen =>
    have hlt := Nat.not_le.1 hbelow
    have hreads : Succeeds (spinandReadPage info device.toMtdNand page dataLen spareLen) :=
      spinandReadPage_succeeds (hlt.le.trans hle)
    obtain ⟨b', hok, -⟩ := hreads erasedBus hclean.toSound
    exact hright.not_EOK (fun hin => absurd hin.1 hbelow) hok
  | write page data spare =>
    have hlt := Nat.not_le.1 hbelow
    have hwrites : Succeeds (spinandWritePage info device.toMtdNand page data spare) :=
      spinandWritePage_succeeds (hlt.le.trans hle)
    obtain ⟨b', hok, -⟩ := hwrites erasedBus hclean.toSound
    exact hright.not_EOK (fun hin => absurd hin.1 hbelow) hok
  | move srcPage dstPage =>
    obtain ⟨hboth, habove⟩ := not_or.1 hbelow
    obtain ⟨hsrc, hdst⟩ := not_or.1 habove
    obtain ⟨b', hok, -⟩ := spinandMovePage_succeeds (Nat.not_lt.1 hsrc) (Nat.not_lt.1 hdst)
      erasedBus hclean.toSound
    refine hright.not_EOK ?_ hok
    by_contra hin
    obtain ⟨hsrc', hdst'⟩ := not_or.1 hin
    exact hboth ⟨(not_not.1 hsrc').1, (not_not.1 hdst').1⟩
  | erase block =>
    have hlt := Nat.not_le.1 hbelow
    obtain ⟨b', hok, -⟩ := spinandEraseBlock_clean hclean (hlt.le.trans hle)
    exact hright.not_EOK (fun hin => absurd hin.1 hbelow) hok
  | check block =>
    have hlt := Nat.not_le.1 hbelow
    obtain ⟨b', hok⟩ := spinandCheckBlock_clean hclean (hlt.le.trans hle)
    exact hright.not_EOK (fun hin => absurd hin.1 hbelow) hok
  | mark block =>
    have hlt := Nat.not_le.1 hbelow
    obtain ⟨b', hok⟩ := spinandMarkBadblock_clean hclean (hlt.le.trans hle)
    exact hright.not_EOK (fun hin => absurd hin.1 hbelow) hok
  | nerase number =>
    have hlt := Nat.not_le.1 hbelow
    obtain ⟨b', hok, -⟩ := spinandEraseBlock_clean hclean (hlt.le.trans hle)
    have hrun : (Call.nerase number).run info device erasedBus = .ok (.eok, b') := by
      rw [Call.run, SpiNand.nerase, hok]
      rfl
    exact hright.not_EOK ((absoluteBlock_has hvalid hinfo number).2
      fun hin => absurd hin.1 hbelow) hrun
  | nmarkbad number =>
    have hlt := Nat.not_le.1 hbelow
    obtain ⟨b', hok⟩ := spinandMarkBadblock_clean hclean (hlt.le.trans hle)
    have hrun : (Call.nmarkbad number).run info device erasedBus = .ok (.eok, b') := by
      rw [Call.run, SpiNand.nmarkbad, hok]
      rfl
    exact hright.not_EOK ((absoluteBlock_has hvalid hinfo number).2
      fun hin => absurd hin.1 hbelow) hrun
  | neraseForce => exact hbelow trivial
  | neraseAll =>
    obtain ⟨hstart, htotal⟩ := not_or.1 hbelow
    exact not_staysIn_neraseAll hinfo hvalid (Nat.pos_of_ne_zero hstart) (Nat.pos_of_ne_zero htotal)
      hright.1

end

/-- The largest chip of the list. -/
def w25n04 : NuSpinandInfo := ⟨0xEFBA23, 2048, 64, 4096, 64⟩

/-- The board's partition for a file system. -/
def nand1 : Partition := ⟨⟨4095⟩, 64, 4032⟩

theorem nand1_valid : nand1.Valid w25n04 := ⟨by decide, by decide⟩

/-- The command that erases the sixth block of the partition. -/
theorem partitionCall_iff_nerase : (Call.nerase 5#32).Right w25n04 nand1 :=
  (partitionCall_iff (.tail _ (.tail _ (.head _))) nand1_valid _).2
    (show 64 ≤ absoluteBlock nand1 5#32 by decide)

/-- Every call stays in its partition and rejects what is outside. -/
def PartitionsRight : Prop :=
  ∀ info ∈ gSpinandflashList, ∀ device, device.Valid info → ∀ call : Call, call.Right info device

/-- An erase of a block of the partition before succeeds. -/
theorem not_partitionsRight : ¬ PartitionsRight := by
  intro h
  have hright : (Call.erase 5).Right w25n04 nand1 :=
    h w25n04 (.tail _ (.tail _ (.head _))) nand1 nand1_valid (.erase 5)
  have hblock : 5 ≤ nand1.blockEnd := by decide
  obtain ⟨b', hok, -⟩ := @spinandEraseBlock_clean w25n04 nand1 5 erasedBus clean_erasedBus hblock
  exact hright.not_EOK (fun hin => absurd hin.1 (by decide)) hok

end NumakerMA35D1.SpiNand

import NumakerMA35D1.SpiNand.Spinand
import NumakerMA35D1.Lib.Outcome

/-!
# What the status register says

The page operations on a device whose status register may return any value at any time: the functions of
`Spinand.lean` once more, without cells and with a log (`OnChip.lean` has that they agree). A `Line` is the
bus with the device's replies, one to each transfer and to each wait, and the log of what was sent and what
the register returned. An operation is right (`Right`) when it returns success only if every load, program
or erase that it sent was finished and the register, read after that, did not report its failure.

`mtdStatus_iff`: a page read and a block erase are right whatever the device returns; a page write and a page
move are right exactly when the register does not report a failed program at their end.

Reference: `spinand.c`, `drv_spinand.c`.
-/

namespace NumakerMA35D1.SpiNand.Status

/-! ## The bus -/

/-- What comes back: whether the transfer goes, the values of the register that a wait reads before its
time-out (none where the read fails), the value of the register, and the byte read. -/
structure Reply where
  goes : Bool
  polls : List (Option (BitVec 8))
  status : BitVec 8
  data : Byte

/-- What was sent, a value of the register while the driver waits, and one that it asks for after that. -/
inductive Event
  | sent (cmd : Command)
  | poll (sr : BitVec 8)
  | report (sr : BitVec 8)

/-- The replies, the number of the next one, and what has happened. -/
structure Line where
  replies : Nat → Reply
  now : Nat
  log : List Event

/-- The reply `k` from the next one on. -/
def Line.reply (l : Line) (k : Nat) : Reply := l.replies (l.now + k)

/-- A reply used up. -/
def Line.saw (l : Line) (es : List Event) : Line :=
  { l with now := l.now + 1, log := l.log ++ es }

/-- A part of a function: an error code and the bus after it. -/
abbrev Part := Line → Except Halt (Err × Line)

/-- The next part, unless this one failed. -/
def Part.then (x y : Part) : Part := fun l =>
  match x l with
  | .ok (.eok, l') => y l'
  | r => r

section

variable (info : NuSpinandInfo)

/-- A transfer of a command, the lock of the bus had (`SpiNand.nuQspiSend`). Reference: `drv_spinand.c:118
nu_qspi_send`. -/
def nuQspiSend (cmd : Command) : Part := fun l =>
  if (l.reply 0).goes then .ok (.eok, l.saw [.sent cmd]) else .ok (.eio, l.saw [])

/-- Whether the device is busy to the end of a wait, and the values read. A wait ends with its time-out
when there is no further value. Reference: `spinand.c:249 spinand_isbusy`. -/
def spinandIsbusy : List (Option (BitVec 8)) → Bool × List Event
  | [] | none :: _ => (true, [])
  | some sr :: polls =>
    if sr &&& 1#8 ≠ 0#8 then ((spinandIsbusy polls).1, .poll sr :: (spinandIsbusy polls).2)
    else (false, [.poll sr])

/-- The wait of a function, with its error. -/
def wait (err : Err) : Part := fun l =>
  .ok (if (spinandIsbusy (l.reply 0).polls).1 then err else .eok,
    l.saw (spinandIsbusy (l.reply 0).polls).2)

/-- The test of register 3 in a function, with its error.
Reference: `spinand.c:328 spinand_status_register_read`. -/
def statusCheck (good : BitVec 8 → Bool) (err : Err) : Part := fun l =>
  if (l.reply 0).goes then
    .ok (if good (l.reply 0).status then .eok else err, l.saw [.report (l.reply 0).status])
  else .error .assert

/-- Reference: `spinand.c:282 spinand_program_dataload`. -/
def spinandProgramDataload (column : Nat) (data spare : List Byte) : Part :=
  (nuQspiSend .writeEnable).then (nuQspiSend (.programDataLoad column (data ++ spare)))

/-- The test of a program. Reference: `spinand.c:423`. -/
def programGood (sr : BitVec 8) : Bool := (sr &&& 0x0C#8) >>> 2 ≠ 1#8

/-- The test of an erase. Reference: `spinand.c:466 spinand_program_erase_isfail`. -/
def eraseGood (sr : BitVec 8) : Bool := (sr &&& 0x0C#8) >>> 2 = 0#8

/-- The test of a load. Reference: `spinand.c:473 spinand_hwecc_status_get`, `spinand.c:524`. -/
def loadGood (sr : BitVec 8) : Bool :=
  (sr &&& 0x30#8) >>> 4 = 0#8 ∨ (sr &&& 0x30#8) >>> 4 = 1#8

/-- A command, the wait for its end and the test of the register. -/
def operation (cmd : Command) (late : Err) (good : BitVec 8 → Bool) (bad : Err) : Part :=
  (nuQspiSend cmd).then ((wait late).then (statusCheck good bad))

/-- Reference: `spinand.c:404 spinand_program_execute`. -/
def spinandProgramExecute (page : Nat) : Part :=
  operation (.programExecute (rowOf page)) .mtdEio programGood .mtdEio

/-- Reference: `spinand.c:503 spinand_read_dataload`. -/
def spinandReadDataload (page : Nat) : Part :=
  operation (.pageRead (rowOf page)) .eio loadGood .mtdEecc

/-- Reference: `spinand.c:580 spinand_block_erase`. -/
def spinandBlockErase (page : Nat) : Part :=
  (nuQspiSend .writeEnable).then (operation (.blockErase (rowOf page)) .eio eraseGood .error)

/-- The bad-block mark of a page, once it is loaded and read; each must succeed.
Reference: `spinand.c:542` to `:546`. -/
def readMark (page : Nat) (l : Line) : Except Halt (Byte × Line) :=
  match (spinandReadDataload page).then (nuQspiSend .read) l with
  | .ok (.eok, l') => .ok ((l'.replies (l'.now - 1)).data, l')
  | _ => .error .assert

/-- Reference: `spinand.c:535 spinand_block_isbad`. The loop goes on to the second page once at most: the
address after a multiple of the unit is none. -/
def spinandBlockIsbad (page : Nat) (l : Line) : Except Halt (Bool × Line) := do
  let (mark, l) ← readMark page l
  if mark ≠ 0xFF#8 then .ok (true, l)
  else if page % (info.u32PagePerBlock * info.u16PageSize) = 0 then do
    let (mark, l) ← readMark (page + 1) l
    .ok (mark ≠ 0xFF#8, l)
  else .ok (false, l)

/-! ## The MTD operations -/

variable (device : MtdNand)

/-- Whether the partition has a page. Reference: `drv_spinand.c:184`. -/
def Inside (page : Nat) : Prop := page / info.u32PagePerBlock ≤ device.blockEnd

/-- Reference: `drv_spinand.c:171 spinand_read_page`. -/
def spinandReadPage (page dataLen spareLen : Nat) : Part := fun l =>
  if page / info.u32PagePerBlock > device.blockEnd then .ok (.mtdEio, l)
  else (spinandReadDataload page).then
    ((if dataLen ≠ 0 then nuQspiSend .read else fun l => .ok (.eok, l)).then
      (if spareLen ≠ 0 then nuQspiSend .read else fun l => .ok (.eok, l))) l

/-- Reference: `drv_spinand.c:221 spinand_write_page`. -/
def spinandWritePage (page : Nat) (data spare : List Byte) : Part := fun l =>
  if page / info.u32PagePerBlock > device.blockEnd then .ok (.mtdEio, l)
  else
    (if data ≠ [] then spinandProgramDataload 0 data spare
      else spinandProgramDataload info.u16PageSize [] spare).then
      (spinandProgramExecute page) l

/-- Reference: `drv_spinand.c:273 spinand_move_page`. -/
def spinandMovePage (srcPage dstPage : Nat) : Part := fun l =>
  if srcPage / info.u32PagePerBlock > device.blockEnd ∨
      dstPage / info.u32PagePerBlock > device.blockEnd then .ok (.mtdEio, l)
  else (spinandReadDataload srcPage).then
    ((nuQspiSend .writeEnable).then (spinandProgramExecute dstPage)) l

/-- Reference: `drv_spinand.c:349 spinand_erase_block`. -/
def spinandEraseBlock (block : Nat) : Part := fun l =>
  if block > device.blockEnd then .ok (.mtdEio, l)
  else do
    let (bad, l) ← spinandBlockIsbad info (pageOf info block) l
    if bad then .ok (.error, l) else spinandBlockErase (pageOf info block) l

end

/-! ## What the device said -/

/-- A value of the register that reports the failure of the operation a command starts: an error that was
not corrected, or a failed program or erase. Reference: `spinand.c:470`, `spinand.c:477`. -/
def Fails : Command → BitVec 8 → Prop
  | .pageRead _, sr => sr.getLsbD 5 = true
  | .programExecute _, sr | .blockErase _, sr => sr.getLsbD 2 = true ∨ sr.getLsbD 3 = true
  | _, _ => False

/-- The device works on a command after its transfer. -/
def Works : Command → Prop
  | .pageRead _ | .programExecute _ | .blockErase _ => True
  | _ => False

/-- What the register returned after a command, up to the next command. -/
def returned : List Event → List Event
  | [] | .sent _ :: _ => []
  | .poll sr :: es => .poll sr :: returned es
  | .report sr :: es => .report sr :: returned es

/-- A command was finished, and the register was read then and did not report its failure. -/
structure Done (cmd : Command) (es : List Event) : Prop where
  finished : ∃ sr, .poll sr ∈ es ∧ sr.getLsbD 0 = false
  reported : ∃ sr, .report sr ∈ es
  good : ∀ sr, .report sr ∈ es → ¬ Fails cmd sr

/-- Every command was done. -/
def AllDone : List Event → Prop
  | [] => True
  | .sent cmd :: es => (Works cmd → Done cmd (returned es)) ∧ AllDone es
  | .poll _ :: es | .report _ :: es => AllDone es

/-- A function returns success only when commands were sent and every command it sent was done. -/
def Right (cmds : List Command) (x : Part) (l : Line) : Prop :=
  ∀ l', x l = .ok (.eok, l') →
    ∃ es, l'.log = l.log ++ es ∧ AllDone es ∧ ∀ cmd ∈ cmds, .sent cmd ∈ es

/-- From the reply `k` on, a command is sent, its end waited for, and the register read with a value that
has a property. -/
structure Passes (good : BitVec 8 → Prop) (l : Line) (k : Nat) : Prop where
  sent : (l.reply k).goes = true
  ready : (spinandIsbusy (l.reply (k + 1)).polls).1 = false
  read : (l.reply (k + 2)).goes = true
  good : good (l.reply (k + 2)).status

/-- A failed program. -/
def PFail (sr : BitVec 8) : Prop := sr.getLsbD 3 = true

/-- The write does not reach the end of a program that the register then reports as failed. -/
def WriteHolds (info : NuSpinandInfo) (device : MtdNand) (page : Nat) (l : Line) : Prop :=
  ¬ (Inside info device page ∧ (l.reply 0).goes = true ∧ (l.reply 1).goes = true ∧ Passes PFail l 2)

/-- The move does not reach the end of a program that the register then reports as failed. -/
def MoveHolds (info : NuSpinandInfo) (device : MtdNand) (srcPage dstPage : Nat) (l : Line) : Prop :=
  ¬ (Inside info device srcPage ∧ Inside info device dstPage ∧ Passes (loadGood · = true) l 0 ∧
    (l.reply 3).goes = true ∧ Passes PFail l 4)

variable {x y : Part} {l l' : Line} {cmd : Command} {cmds cmds' : List Command} {es es' : List Event}
  {late bad r : Err} {good : BitVec 8 → Bool} {page : Nat}

/-! ## The parts of a function -/

theorem then_eok : x.then y l = .ok (.eok, l') ↔ ∃ l₁, x l = .ok (.eok, l₁) ∧ y l₁ = .ok (.eok, l') := by
  unfold Part.then
  constructor
  · intro h
    split at h
    · next l₁ hx => exact ⟨l₁, hx, h⟩
    · next hne => exact absurd h (hne l')
  · rintro ⟨l₁, hx, hy⟩
    rw [hx]
    exact hy

theorem nuQspiSend_eok :
    nuQspiSend cmd l = .ok (.eok, l') ↔ (l.reply 0).goes = true ∧ l' = l.saw [.sent cmd] := by
  unfold nuQspiSend
  split
  · next hgoes =>
    constructor
    · intro h
      cases h
      exact ⟨hgoes, rfl⟩
    · rintro ⟨-, rfl⟩
      rfl
  · next hgoes =>
    constructor
    · intro h
      cases h
    · exact fun h => absurd h.1 hgoes

/-- A command whose end is waited for succeeds exactly when it passes. -/
theorem operation_eok (hlate : late ≠ .eok) (hbad : bad ≠ .eok) :
    operation cmd late good bad l = .ok (.eok, l') ↔ Passes (good · = true) l 0 ∧
      l' = ⟨l.replies, l.now + 3, l.log ++ .sent cmd ::
        ((spinandIsbusy (l.reply 1).polls).2 ++ [.report (l.reply 2).status])⟩ := by
  have hline : ((l.saw [.sent cmd]).saw (spinandIsbusy (l.reply 1).polls).2).saw
      [.report (l.reply 2).status] = ⟨l.replies, l.now + 3, l.log ++ .sent cmd ::
        ((spinandIsbusy (l.reply 1).polls).2 ++ [.report (l.reply 2).status])⟩ := by
    simp [Line.saw]
  rw [operation, then_eok]
  constructor
  · rintro ⟨l₁, hsend, h⟩
    obtain ⟨hsent, rfl⟩ := nuQspiSend_eok.1 hsend
    obtain ⟨l₂, hwait, hcheck⟩ := then_eok.1 h
    obtain ⟨hready, rfl⟩ := Prod.mk.inj (Except.ok.inj hwait)
    have hready : (spinandIsbusy (l.reply 1).polls).1 = false := by
      by_contra hbusy
      rw [Bool.not_eq_false] at hbusy
      exact hlate (by rwa [show (l.saw [.sent cmd]).reply 0 = l.reply 1 from rfl, hbusy,
        if_pos rfl] at hready)
    unfold statusCheck at hcheck
    split at hcheck
    · next hread =>
      obtain ⟨hgood, rfl⟩ := Prod.mk.inj (Except.ok.inj hcheck)
      split at hgood
      · exact ⟨⟨hsent, hready, hread, ‹_›⟩, hline⟩
      · exact absurd hgood hbad
    · cases hcheck
  · rintro ⟨hpasses, rfl⟩
    refine ⟨l.saw [.sent cmd], nuQspiSend_eok.2 ⟨hpasses.sent, rfl⟩,
      then_eok.2 ⟨(l.saw [.sent cmd]).saw (spinandIsbusy (l.reply 1).polls).2, ?_, ?_⟩⟩
    · unfold wait
      rw [show (l.saw [.sent cmd]).reply 0 = l.reply 1 from rfl, hpasses.ready]
      rfl
    · rw [← hline, statusCheck]
      change (if (l.reply 2).goes then Except.ok (if good (l.reply 2).status then Err.eok else bad, _)
        else _) = _
      rw [hpasses.read, if_pos rfl, hpasses.good, if_pos rfl]
      rfl

/-! ## Logs -/

/-- Nothing was sent. -/
def Unsent (es : List Event) : Prop := ∀ cmd, .sent cmd ∉ es

/-- The log is empty or begins with a command. -/
def BeginsSent (es : List Event) : Prop := es = [] ∨ ∃ cmd rest, es = .sent cmd :: rest

/-- A wait only reads the register. -/
theorem spinandIsbusy_polls (polls : List (Option (BitVec 8))) :
    ∀ e ∈ (spinandIsbusy polls).2, ∃ sr, e = .poll sr := by
  induction polls with
  | nil => exact fun _ h => absurd h List.not_mem_nil
  | cons p polls ih =>
    cases p with
    | none => exact fun _ h => absurd h List.not_mem_nil
    | some sr =>
      intro e he
      rw [spinandIsbusy] at he
      split at he
      · rcases List.mem_cons.1 he with rfl | he
        · exact ⟨sr, rfl⟩
        · exact ih e he
      · rw [List.mem_singleton.1 he]
        exact ⟨sr, rfl⟩

/-- A wait that ends with the device ready has read that it is. -/
theorem spinandIsbusy_ready {polls : List (Option (BitVec 8))} (h : (spinandIsbusy polls).1 = false) :
    ∃ sr, .poll sr ∈ (spinandIsbusy polls).2 ∧ sr.getLsbD 0 = false := by
  induction polls with
  | nil => cases h
  | cons p polls ih =>
    cases p with
    | none => cases h
    | some sr =>
      rw [spinandIsbusy] at h ⊢
      split at h
      · next hbusy =>
        obtain ⟨sr', hin, hready⟩ := ih h
        rw [if_pos hbusy]
        exact ⟨sr', List.mem_cons_of_mem _ hin, hready⟩
      · next hready =>
        rw [if_neg hready]
        refine ⟨sr, List.mem_singleton_self _, ?_⟩
        rw [not_not] at hready
        have hbit := congrArg (fun v : BitVec 8 => v.getLsbD 0) hready
        simpa using hbit

theorem returned_append (h : Unsent es) (hbegins : BeginsSent es') : returned (es ++ es') = es := by
  induction es with
  | nil =>
    rcases hbegins with rfl | ⟨cmd, rest, rfl⟩
    · rfl
    · rfl
  | cons e es ih =>
    have hrest : returned (es ++ es') = es := ih fun cmd hin => h cmd (List.mem_cons_of_mem _ hin)
    cases e with
    | sent cmd => exact absurd (List.mem_cons_self ..) (h cmd)
    | poll sr => rw [List.cons_append, returned, hrest]
    | report sr => rw [List.cons_append, returned, hrest]

theorem returned_begins (hbegins : BeginsSent es') : returned (es ++ es') = returned es := by
  induction es with
  | nil =>
    rcases hbegins with rfl | ⟨cmd, rest, rfl⟩
    · rfl
    · rfl
  | cons e es ih =>
    cases e with
    | sent cmd => rfl
    | poll sr => rw [List.cons_append, returned, returned, ih]
    | report sr => rw [List.cons_append, returned, returned, ih]

theorem AllDone.of_unsent (h : Unsent es) : AllDone es := by
  induction es with
  | nil => exact trivial
  | cons e es ih =>
    have hrest : AllDone es := ih fun cmd hin => h cmd (List.mem_cons_of_mem _ hin)
    cases e with
    | sent cmd => exact absurd (List.mem_cons_self ..) (h cmd)
    | poll sr => exact hrest
    | report sr => exact hrest

/-- Of one log after another, the later one begun with a command. -/
theorem allDone_append (hbegins : BeginsSent es') : AllDone (es ++ es') ↔ AllDone es ∧ AllDone es' := by
  induction es with
  | nil => exact ⟨fun h => ⟨trivial, h⟩, And.right⟩
  | cons e es ih =>
    cases e with
    | sent cmd =>
      rw [List.cons_append, AllDone, AllDone, returned_begins hbegins, ih, and_assoc]
    | poll sr => exact ih
    | report sr => exact ih

/-- The log of a command whose end was waited for. -/
theorem allDone_operation {polls : List (Option (BitVec 8))} {sr : BitVec 8}
    (hready : (spinandIsbusy polls).1 = false) (hworks : Works cmd) :
    AllDone (.sent cmd :: ((spinandIsbusy polls).2 ++ [.report sr])) ↔ ¬ Fails cmd sr := by
  have hunsent : Unsent ((spinandIsbusy polls).2 ++ [.report sr]) := by
    intro c hin
    rcases List.mem_append.1 hin with hin | hin
    · obtain ⟨sr', heq⟩ := spinandIsbusy_polls polls _ hin
      cases heq
    · cases List.mem_singleton.1 hin
  have hreturned : returned ((spinandIsbusy polls).2 ++ [.report sr]) =
      (spinandIsbusy polls).2 ++ [.report sr] := by
    have h := returned_append hunsent (.inl rfl)
    rwa [List.append_nil] at h
  rw [AllDone, hreturned]
  constructor
  · rintro ⟨hdone, -⟩
    exact (hdone hworks).good sr (by simp)
  · intro hgood
    refine ⟨fun _ => ⟨?_, ⟨sr, by simp⟩, fun sr' hin => ?_⟩, .of_unsent hunsent⟩
    · obtain ⟨sr', hin, hbit⟩ := spinandIsbusy_ready hready
      exact ⟨sr', List.mem_append_left _ hin, hbit⟩
    · rcases List.mem_append.1 hin with hin | hin
      · obtain ⟨sr', heq⟩ := spinandIsbusy_polls polls _ hin
        cases heq
      · cases List.mem_singleton.1 hin
        exact hgood

/-! ## Functions that are right whatever the device returns -/

/-- What was sent from one bus to another, every command of it done, some commands among it. -/
def Sent (cmds : List Command) (l l' : Line) : Prop :=
  ∃ es, l'.log = l.log ++ es ∧ BeginsSent es ∧ AllDone es ∧ ∀ cmd ∈ cmds, .sent cmd ∈ es

/-- A function that is right whatever the device returns. -/
def Honest (cmds : List Command) (x : Part) : Prop :=
  ∀ l l', x l = .ok (.eok, l') → Sent cmds l l'

theorem Sent.refl (l : Line) : Sent [] l l :=
  ⟨[], (List.append_nil _).symm, .inl rfl, trivial, by simp⟩

theorem Sent.trans {l₁ l₂ : Line} (h : Sent cmds l l₁) (h' : Sent cmds' l₁ l₂) :
    Sent (cmds ++ cmds') l l₂ := by
  obtain ⟨es, hlog, hbegins, hdone, hin⟩ := h
  obtain ⟨es', hlog', hbegins', hdone', hin'⟩ := h'
  refine ⟨es ++ es', ?_, ?_, (allDone_append hbegins').2 ⟨hdone, hdone'⟩, fun cmd hcmd => ?_⟩
  · rw [hlog', hlog, List.append_assoc]
  · rcases hbegins with rfl | ⟨cmd, rest, rfl⟩
    · exact hbegins'
    · exact .inr ⟨cmd, rest ++ es', rfl⟩
  · rcases List.mem_append.1 hcmd with hcmd | hcmd
    · exact List.mem_append_left _ (hin cmd hcmd)
    · exact List.mem_append_right _ (hin' cmd hcmd)

theorem Sent.fewer (h : Sent cmds l l') (hsub : ∀ cmd ∈ cmds', cmd ∈ cmds) : Sent cmds' l l' := by
  obtain ⟨es, hlog, hbegins, hdone, hin⟩ := h
  exact ⟨es, hlog, hbegins, hdone, fun cmd hcmd => hin cmd (hsub cmd hcmd)⟩

theorem Honest.right (h : Honest cmds x) (l : Line) : Right cmds x l := by
  intro l' hx
  obtain ⟨es, hlog, -, hdone, hin⟩ := h l l' hx
  exact ⟨es, hlog, hdone, hin⟩

theorem Honest.then (hx : Honest cmds x) (hy : Honest cmds' y) : Honest (cmds ++ cmds') (x.then y) := by
  intro l l' h
  obtain ⟨l₁, hl₁, hl'⟩ := then_eok.1 h
  exact (hx l l₁ hl₁).trans (hy l₁ l' hl')

theorem Honest.fewer (h : Honest cmds x) (hsub : ∀ cmd ∈ cmds', cmd ∈ cmds) : Honest cmds' x :=
  fun l l' hx => (h l l' hx).fewer hsub

theorem nuQspiSend_honest (hidle : ¬ Works cmd) : Honest [cmd] (nuQspiSend cmd) := by
  intro l l' h
  obtain ⟨-, rfl⟩ := nuQspiSend_eok.1 h
  refine ⟨[.sent cmd], rfl, .inr ⟨cmd, [], rfl⟩, ⟨fun hworks => absurd hworks hidle, trivial⟩, ?_⟩
  intro c hc
  rw [List.mem_singleton.1 hc]
  exact List.mem_singleton_self _

theorem operation_honest (hlate : late ≠ .eok) (hbad : bad ≠ .eok) (hworks : Works cmd)
    (hgood : ∀ sr, good sr = true → ¬ Fails cmd sr) : Honest [cmd] (operation cmd late good bad) := by
  intro l l' h
  obtain ⟨hpasses, rfl⟩ := (operation_eok hlate hbad).1 h
  refine ⟨_, rfl, .inr ⟨cmd, _, rfl⟩, ?_, ?_⟩
  · exact (allDone_operation hpasses.ready hworks).2 (hgood _ hpasses.good)
  · intro c hc
    rw [List.mem_singleton.1 hc]
    exact List.mem_cons_self ..

theorem loadGood_iff (sr : BitVec 8) : loadGood sr = true ↔ sr.getLsbD 5 = false := by
  revert sr
  decide +kernel

theorem eraseGood_iff (sr : BitVec 8) :
    eraseGood sr = true ↔ sr.getLsbD 2 = false ∧ sr.getLsbD 3 = false := by
  revert sr
  decide +kernel

/-- The test of a program accepts a value with a failure exactly when it reports a failed program. -/
theorem programGood_fails_iff (sr : BitVec 8) :
    programGood sr = true ∧ (sr.getLsbD 2 = true ∨ sr.getLsbD 3 = true) ↔ sr.getLsbD 3 = true := by
  revert sr
  decide +kernel

theorem spinandReadDataload_honest (page : Nat) :
    Honest [.pageRead (rowOf page)] (spinandReadDataload page) := by
  refine operation_honest (by decide) (by decide) trivial fun sr hgood hfails => ?_
  rw [loadGood_iff] at hgood
  rw [Fails, hgood] at hfails
  cases hfails

theorem spinandBlockErase_honest (page : Nat) :
    Honest [.blockErase (rowOf page)] (spinandBlockErase page) := by
  refine Honest.fewer (.then (nuQspiSend_honest fun h => h)
    (operation_honest (by decide) (by decide) trivial fun sr hgood hfails => ?_)) (by simp)
  obtain ⟨herase, hprogram⟩ := (eraseGood_iff sr).1 hgood
  rw [Fails, herase, hprogram] at hfails
  rcases hfails with h | h <;> cases h

theorem readMark_sent {m : Byte} (h : readMark page l = .ok (m, l')) : Sent [] l l' := by
  have hhonest : Honest [] ((spinandReadDataload page).then (nuQspiSend .read)) :=
    Honest.fewer ((spinandReadDataload_honest page).then (nuQspiSend_honest fun h => h)) (by simp)
  unfold readMark at h
  split at h
  · next hread =>
    cases h
    exact hhonest l _ hread
  · cases h

theorem spinandBlockIsbad_sent {info : NuSpinandInfo} {b : Bool}
    (h : spinandBlockIsbad info page l = .ok (b, l')) : Sent [] l l' := by
  unfold spinandBlockIsbad at h
  obtain ⟨r, hmark, h⟩ := Embedded.bind_eq_ok.1 h
  have hfirst := readMark_sent hmark
  dsimp only at h
  split at h
  · cases h
    exact hfirst
  · split at h
    · obtain ⟨r', hmark', h⟩ := Embedded.bind_eq_ok.1 h
      cases h
      exact hfirst.trans (readMark_sent hmark')
    · cases h
      exact hfirst

variable {info : NuSpinandInfo} {device : MtdNand}

/-- A page read is right. -/
theorem spinandReadPage_right (page dataLen spareLen : Nat) (l : Line) :
    Right [.pageRead (rowOf page)] (spinandReadPage info device page dataLen spareLen) l := by
  have hskip : Honest [] fun l => .ok (.eok, l) := by
    intro l l' h
    cases h
    exact .refl l
  have hread : ∀ n : Nat, Honest [] (if n ≠ 0 then nuQspiSend .read else fun l => .ok (.eok, l)) := by
    intro n
    split
    · exact (@nuQspiSend_honest .read fun h => h).fewer (by simp)
    · exact hskip
  have hhonest := (spinandReadDataload_honest page).then ((hread dataLen).then (hread spareLen))
  intro l' h
  unfold spinandReadPage at h
  split at h
  · cases h
  · exact hhonest.right l l' h

/-- A block erase is right. -/
theorem spinandEraseBlock_right (block : Nat) (l : Line) :
    Right [.blockErase (rowOf (pageOf info block))] (spinandEraseBlock info device block) l := by
  intro l' h
  unfold spinandEraseBlock at h
  split at h
  · cases h
  · obtain ⟨r, hbad, h⟩ := Embedded.bind_eq_ok.1 h
    dsimp only at h
    split at h
    · cases h
    · obtain ⟨es, hlog, -, hdone, hin⟩ :=
        (spinandBlockIsbad_sent hbad).trans (spinandBlockErase_honest _ _ _ h)
      exact ⟨es, hlog, hdone, hin⟩

/-! ## Functions that end with a program -/

/-- After parts that are right, a program is right exactly when the register does not report it as failed. -/
theorem program_right_iff {l₁ : Line} (hx : Honest cmds x) (hl₁ : x l = .ok (.eok, l₁)) :
    Right (cmds ++ [.programExecute (rowOf page)]) (x.then (spinandProgramExecute page)) l ↔
      ¬ Passes PFail l₁ 0 := by
  obtain ⟨es, hlog, -, hdone, hin⟩ := hx l l₁ hl₁
  -- the log when the program is accepted
  have hend : ∀ l', (x.then (spinandProgramExecute page)) l = .ok (.eok, l') ↔
      Passes (programGood · = true) l₁ 0 ∧ l' = ⟨l₁.replies, l₁.now + 3, l₁.log ++
        .sent (.programExecute (rowOf page)) ::
          ((spinandIsbusy (l₁.reply 1).polls).2 ++ [.report (l₁.reply 2).status])⟩ := by
    intro l'
    rw [then_eok, ← @operation_eok _ _ _ .mtdEio .mtdEio _ (by decide) (by decide)]
    constructor
    · rintro ⟨l₂, hl₂, h⟩
      cases hl₁.symm.trans hl₂
      exact h
    · exact fun h => ⟨l₁, hl₁, h⟩
  constructor
  · intro hright hpfail
    have hgood := (programGood_fails_iff _).2 hpfail.good
    obtain ⟨es', hlog', hdone', -⟩ := hright _ ((hend _).2
      ⟨⟨hpfail.sent, hpfail.ready, hpfail.read, hgood.1⟩, rfl⟩)
    have hes : es ++ .sent (.programExecute (rowOf page)) ::
        ((spinandIsbusy (l₁.reply 1).polls).2 ++ [.report (l₁.reply 2).status]) = es' := by
      have hlog' : l₁.log ++ _ = l.log ++ es' := hlog'
      rw [hlog, List.append_assoc] at hlog'
      exact List.append_cancel_left hlog'
    rw [← hes, allDone_append (.inr ⟨_, _, rfl⟩)] at hdone'
    exact (@allDone_operation (.programExecute (rowOf page)) _ _ hpfail.ready trivial).1 hdone'.2
      hgood.2
  · intro hpfail l' h
    obtain ⟨hpasses, rfl⟩ := (hend l').1 h
    have hgood : ¬ Fails (.programExecute (rowOf page)) (l₁.reply 2).status := fun hfails =>
      hpfail ⟨hpasses.sent, hpasses.ready, hpasses.read,
        (programGood_fails_iff _).1 ⟨hpasses.good, hfails⟩⟩
    refine ⟨es ++ _, ?_, (allDone_append (.inr ⟨_, _, rfl⟩)).2
      ⟨hdone, (@allDone_operation (.programExecute (rowOf page)) _ _ hpasses.ready trivial).2 hgood⟩,
      fun cmd hcmd => ?_⟩
    · rw [hlog, List.append_assoc]
    · rcases List.mem_append.1 hcmd with hcmd | hcmd
      · exact List.mem_append_left _ (hin cmd hcmd)
      · rw [List.mem_singleton.1 hcmd]
        exact List.mem_append_right _ (List.mem_cons_self ..)

/-- The same replies from a later bus on. -/
theorem passes_shift {P : BitVec 8 → Prop} {k : Nat} (hreplies : l'.replies = l.replies)
    (hnow : l'.now = l.now + k) : Passes P l' 0 ↔ Passes P l k := by
  have hreply : ∀ i, l'.reply (0 + i) = l.reply (k + i) := by
    intro i
    rw [Line.reply, Line.reply, hreplies, hnow, Nat.zero_add, Nat.add_assoc]
  have h0 : l'.reply 0 = l.reply k := hreply 0
  constructor
  · rintro ⟨hsent, hready, hread, hgood⟩
    rw [hreply] at hready hread hgood
    exact ⟨h0 ▸ hsent, hready, hread, hgood⟩
  · rintro ⟨hsent, hready, hread, hgood⟩
    refine ⟨h0 ▸ hsent, ?_, ?_, ?_⟩
    · rwa [hreply]
    · rwa [hreply]
    · rwa [hreply]

theorem then_assoc (x y z : Part) : (x.then y).then z = x.then (y.then z) := by
  funext l
  unfold Part.then
  cases x l with
  | error e => rfl
  | ok r =>
    obtain ⟨err, l₁⟩ := r
    cases err <;> rfl

/-- A function that fails before its last part. -/
theorem right_of_fails (hne : ∀ l', x l ≠ .ok (.eok, l')) : Right cmds (x.then y) l := by
  intro l' h
  obtain ⟨l₁, hl₁, -⟩ := then_eok.1 h
  exact absurd hl₁ (hne l₁)

/-- What a part that only sends commands without an end to wait for leaves. -/
theorem nuQspiSend_then {cmd' : Command} :
    ((nuQspiSend cmd).then (nuQspiSend cmd')) l = .ok (.eok, l') ↔
      ((l.reply 0).goes = true ∧ (l.reply 1).goes = true) ∧
        l' = (l.saw [.sent cmd]).saw [.sent cmd'] := by
  rw [then_eok]
  constructor
  · rintro ⟨l₁, h, h'⟩
    obtain ⟨hfirst, rfl⟩ := nuQspiSend_eok.1 h
    obtain ⟨hsecond, rfl⟩ := nuQspiSend_eok.1 h'
    exact ⟨⟨hfirst, hsecond⟩, rfl⟩
  · rintro ⟨⟨hfirst, hsecond⟩, rfl⟩
    exact ⟨_, nuQspiSend_eok.2 ⟨hfirst, rfl⟩, nuQspiSend_eok.2 ⟨hsecond, rfl⟩⟩

theorem spinandWritePage_right_iff (page : Nat) (data spare : List Byte) (l : Line) :
    Right [.programExecute (rowOf page)] (spinandWritePage info device page data spare) l ↔
      WriteHolds info device page l := by
  by_cases hout : page / info.u32PagePerBlock > device.blockEnd
  · refine iff_of_true (fun l' h => ?_) fun h => absurd h.1 (Nat.not_le.2 hout)
    rw [spinandWritePage, if_pos hout] at h
    cases h
  -- either way the cache is loaded with two transfers
  obtain ⟨column, bytes, hload⟩ : ∃ column bytes, ∀ l, spinandWritePage info device page data spare l =
      ((nuQspiSend .writeEnable).then (nuQspiSend (.programDataLoad column bytes))).then
        (spinandProgramExecute page) l := by
    by_cases hdata : data ≠ []
    · exact ⟨_, _, fun l => by rw [spinandWritePage, if_neg hout, if_pos hdata]; rfl⟩
    · exact ⟨_, _, fun l => by rw [spinandWritePage, if_neg hout, if_neg hdata]; rfl⟩
  have hright : Right [.programExecute (rowOf page)] (spinandWritePage info device page data spare) l ↔
      Right [.programExecute (rowOf page)]
        (((nuQspiSend .writeEnable).then (nuQspiSend (.programDataLoad column bytes))).then
          (spinandProgramExecute page)) l := by
    unfold Right
    rw [hload]
  have hhonest : Honest [] ((nuQspiSend .writeEnable).then (nuQspiSend (.programDataLoad column bytes))) :=
    ((@nuQspiSend_honest .writeEnable fun h => h).then
      (@nuQspiSend_honest (.programDataLoad column bytes) fun h => h)).fewer (by simp)
  rw [hright]
  by_cases hsent : (l.reply 0).goes = true ∧ (l.reply 1).goes = true
  · refine (program_right_iff hhonest (nuQspiSend_then.2 ⟨hsent, rfl⟩)).trans ?_
    have hshift : Passes PFail
        ((l.saw [.sent .writeEnable]).saw [.sent (.programDataLoad column bytes)]) 0 ↔
          Passes PFail l 2 := passes_shift rfl rfl
    rw [hshift]
    exact ⟨fun hno h => hno h.2.2.2, fun hno h => hno ⟨Nat.not_lt.1 hout, hsent.1, hsent.2, h⟩⟩
  · refine iff_of_true (right_of_fails fun l' h => ?_) fun h => hsent ⟨h.2.1, h.2.2.1⟩
    exact hsent (nuQspiSend_then.1 h).1

theorem spinandMovePage_right_iff (srcPage dstPage : Nat) (l : Line) :
    Right [.pageRead (rowOf srcPage), .programExecute (rowOf dstPage)]
      (spinandMovePage info device srcPage dstPage) l ↔ MoveHolds info device srcPage dstPage l := by
  by_cases hout : srcPage / info.u32PagePerBlock > device.blockEnd ∨
      dstPage / info.u32PagePerBlock > device.blockEnd
  · refine iff_of_true (fun l' h => ?_) fun h => ?_
    · rw [spinandMovePage, if_pos hout] at h
      cases h
    · rcases hout with hout | hout
      · exact absurd h.1 (Nat.not_le.2 hout)
      · exact absurd h.2.1 (Nat.not_le.2 hout)
  obtain ⟨hsrc, hdst⟩ := not_or.1 hout
  have hright : Right [.pageRead (rowOf srcPage), .programExecute (rowOf dstPage)]
      (spinandMovePage info device srcPage dstPage) l ↔
        Right ([.pageRead (rowOf srcPage)] ++ [.programExecute (rowOf dstPage)])
          (((spinandReadDataload srcPage).then (nuQspiSend .writeEnable)).then
            (spinandProgramExecute dstPage)) l := by
    unfold Right spinandMovePage
    rw [if_neg hout, then_assoc]
    rfl
  have hhonest : Honest [.pageRead (rowOf srcPage)]
      ((spinandReadDataload srcPage).then (nuQspiSend .writeEnable)) :=
    ((spinandReadDataload_honest srcPage).then
      (@nuQspiSend_honest .writeEnable fun h => h)).fewer (by simp)
  -- when the load and the write-enable come through
  have hend : ∀ l', ((spinandReadDataload srcPage).then (nuQspiSend .writeEnable)) l = .ok (.eok, l') →
      (Passes (loadGood · = true) l 0 ∧ (l.reply 3).goes = true) ∧ l'.replies = l.replies ∧
        l'.now = l.now + 4 := by
    intro l' h
    obtain ⟨l₁, hload, hsend⟩ := then_eok.1 h
    obtain ⟨hpasses, rfl⟩ := (operation_eok (by decide) (by decide)).1 hload
    obtain ⟨hgoes, rfl⟩ := nuQspiSend_eok.1 hsend
    exact ⟨⟨hpasses, hgoes⟩, rfl, rfl⟩
  rw [hright]
  by_cases hsent : Passes (loadGood · = true) l 0 ∧ (l.reply 3).goes = true
  · obtain ⟨l₁, hl₁⟩ : ∃ l₁, ((spinandReadDataload srcPage).then (nuQspiSend .writeEnable)) l =
        .ok (.eok, l₁) :=
      ⟨_, then_eok.2 ⟨_, (operation_eok (by decide) (by decide)).2 ⟨hsent.1, rfl⟩,
        nuQspiSend_eok.2 ⟨hsent.2, rfl⟩⟩⟩
    obtain ⟨-, hreplies, hnow⟩ := hend l₁ hl₁
    rw [program_right_iff hhonest hl₁, passes_shift hreplies hnow]
    exact ⟨fun hno h => hno h.2.2.2.2,
      fun hno h => hno ⟨Nat.not_lt.1 hsrc, Nat.not_lt.1 hdst, hsent.1, hsent.2, h⟩⟩
  · refine iff_of_true (right_of_fails fun l' h => ?_) fun h => hsent ⟨h.2.2.1, h.2.2.2.1⟩
    exact hsent (hend l' h).1

/-- The operations on every device: a read and an erase are right, a write and a move exactly when the
register does not report a failed program at their end. -/
theorem mtdStatus_iff (info : NuSpinandInfo) (device : MtdNand) (l : Line) :
    (∀ page dataLen spareLen,
      Right [.pageRead (rowOf page)] (spinandReadPage info device page dataLen spareLen) l) ∧
    (∀ block, Right [.blockErase (rowOf (pageOf info block))] (spinandEraseBlock info device block) l) ∧
    (∀ page data spare,
      Right [.programExecute (rowOf page)] (spinandWritePage info device page data spare) l ↔
        WriteHolds info device page l) ∧
    ∀ srcPage dstPage,
      Right [.pageRead (rowOf srcPage), .programExecute (rowOf dstPage)]
        (spinandMovePage info device srcPage dstPage) l ↔ MoveHolds info device srcPage dstPage l :=
  ⟨fun page dataLen spareLen => spinandReadPage_right page dataLen spareLen l,
    fun block => spinandEraseBlock_right block l,
    fun page data spare => spinandWritePage_right_iff page data spare l,
    fun srcPage dstPage => spinandMovePage_right_iff srcPage dstPage l⟩

/-- A device that reports a failed program each time. -/
def failing : Line := ⟨fun _ => ⟨true, [some 0x08#8], 0x08#8, 0xFF#8⟩, 0, []⟩

/-- A page write returns success while the register reports a failed program. -/
theorem not_writeRight : ¬ ∀ info device l page data spare,
    Right [.programExecute (rowOf page)] (spinandWritePage info device page data spare) l := by
  intro h
  refine (spinandWritePage_right_iff 0 [0#8] [] failing).1
    (h ⟨0xEFAA21, 2048, 64, 1024, 64⟩ ⟨1023⟩ failing 0 [0#8] []) ?_
  exact ⟨Nat.zero_le _, rfl, rfl, rfl, rfl, rfl, rfl⟩

end NumakerMA35D1.SpiNand.Status

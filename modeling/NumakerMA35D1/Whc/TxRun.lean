import NumakerMA35D1.Whc.DrvWhc
import NumakerMA35D1.Lib.Run

/-!
# Transmit buffers over runs

`whcTx_run`: over every run whose steps meet `WhcMeets`, of any number of writers, acknowledges and
interrupts in any order, each accepted buffer is reported once, after its acknowledge, and stays the
channel's pending one until then. A step that does not meet the condition breaks this: a write
stores its buffer before it knows that the channel is free, so a refused one replaces the buffer of
the write that is pending (`not_whcRight`).

Reference: `drv_whc.c`, `nu_whc.c`.
-/

namespace NumakerMA35D1.Whc

open Embedded

/-! ## Specification -/

/-- The buffers accepted and not yet reported. -/
def Chan.pending (c : Chan) : List Addr := c.accepted.drop c.reported.length

/-- The interrupt has looked at the pending buffer of the channel and not yet cleared its flag. -/
def Isr.Past : Isr → Ch → Prop
  | .called c _, ch => c = ch
  | .clear c _, ch => c = ch
  | _, _ => False

/-- The buffers accepted are acknowledged in order and, after that, reported in order, each once; at
most one is pending, it is the one in the driver's slot, and once it is acknowledged the interrupt
that reports it is to come. -/
structure ChanRight (c : Chan) (past : Prop) : Prop where
  inOrder : c.acked ++ c.msg.toList = c.accepted
  afterAck : c.reported <+: c.acked
  one : c.pending.length ≤ 1
  slot : ∀ b ∈ c.pending, c.pvTxBuf = b
  coming : c.reported ≠ c.acked → c.txif = true ∧ ¬ past

variable {T : Type} [DecidableEq T]

/-- Every channel is right. -/
def WhcRight (s : Driver T) : Prop := ∀ ch, ChanRight (s.chan ch) (s.isr.Past ch)

/-- A write stores its buffer only while no other buffer of the channel is pending, and the
controller takes it only while none is pending and the slot still has it; the interrupt finds a
callback and a buffer; no write is accepted between the callback and the forgetting of its buffer,
and no acknowledge comes between the report and the clearing of the flag. -/
def WhcMeets (s : Driver T) : WhcOp T → Prop
  | .write _ ch buffer size =>
    size = sizeofNuWhcMsg → buffer &&& 3 = 0 → ∀ p ∈ (s.chan ch).pending, buffer = p
  | .send t => ∀ ch buffer, s.writer t = .ready ch buffer →
      (s.chan ch).pending = [] ∧ (s.chan ch).pvTxBuf = buffer
  | .ack ch => ¬ s.isr.Past ch
  | .isrServe => ∀ ch chs, s.isr = .serve (ch :: chs) →
      (s.chan ch).txComplete = true ∧ (s.chan ch).pvTxBuf ≠ 0
  | .isrNull => ∀ ch chs, s.isr = .called ch chs → ∀ p ∈ (s.chan ch).pending, 0 = p
  | _ => True

/-- One step. -/
def whcStep (s : Driver T) (op : WhcOp T) (s' : Driver T) : Prop := whcExec s op = some s'

/-! ## The invariant -/

/-- The channels the interrupt still has to serve. -/
def Isr.waiting : Isr → List Ch
  | .idle => []
  | .serve chs => chs
  | .called _ chs => chs
  | .clear _ chs => chs

/-- A flag is that of an acknowledged buffer, or is about to be cleared, and the interrupt serves
flagged channels. -/
structure Flagged (s : Driver T) : Prop where
  flag : ∀ ch, (s.chan ch).txif = true → (s.chan ch).reported ≠ (s.chan ch).acked ∨ s.isr.Past ch
  nodup : s.isr.waiting.Nodup
  waiting : ∀ ch ∈ s.isr.waiting, (s.chan ch).txif = true ∧ ¬ s.isr.Past ch

variable {s s' : Driver T} {op : WhcOp T} {ch : Ch} {c : Chan} {past : Prop} {b : Addr}

theorem ChanRight.mono {past' : Prop} (h : ChanRight c past) (hpast : past' → past) :
    ChanRight c past' :=
  ⟨h.inOrder, h.afterAck, h.one, h.slot, fun hne =>
    ⟨(h.coming hne).1, fun hp => (h.coming hne).2 (hpast hp)⟩⟩

omit [DecidableEq T] in
/-- A step on one channel: the others are as right as before. -/
theorem WhcRight.update_iff {w : T → Writer} {i : Isr} (h : WhcRight s)
    (hpast : ∀ ch', ch' ≠ ch → i.Past ch' → s.isr.Past ch') :
    WhcRight ⟨Function.update s.chan ch c, w, i⟩ ↔ ChanRight c (i.Past ch) := by
  constructor
  · intro h'
    have hr := h' ch
    simp only [Function.update_self] at hr
    exact hr
  · intro h' ch'
    by_cases hch : ch' = ch
    · subst hch
      simp only [Function.update_self]
      exact h'
    · simp only [Function.update_of_ne hch]
      exact (h ch').mono (hpast ch' hch)

/-! ## One channel -/

/-- Another buffer stored. -/
theorem ChanRight.store_iff (h : ChanRight c past) :
    ChanRight { c with pvTxBuf := b } past ↔ ∀ p ∈ c.pending, b = p :=
  ⟨fun h' => h'.slot, fun hs => ⟨h.inOrder, h.afterAck, h.one, hs, h.coming⟩⟩

theorem ChanRight.reported_length_le (h : ChanRight c past) :
    c.reported.length ≤ c.accepted.length := by
  have hlen := congrArg List.length h.inOrder
  rw [List.length_append] at hlen
  have hle := h.afterAck.length_le
  omega

/-- The buffers reported and those pending are those accepted. -/
theorem ChanRight.reported_append (h : ChanRight c past) : c.reported ++ c.pending = c.accepted := by
  have hpre : c.reported <+: c.accepted := by
    rw [← h.inOrder]
    exact h.afterAck.trans (List.prefix_append _ _)
  obtain ⟨rest, hrest⟩ := hpre
  rw [Chan.pending, ← hrest, List.drop_left]

/-- A message taken by the controller. -/
theorem ChanRight.send_iff (h : ChanRight c past) :
    ChanRight (c.send b) past ↔ c.pending = [] ∧ c.pvTxBuf = b := by
  have hpending : (c.send b).pending = c.pending ++ [b] :=
    List.drop_append_of_le_length h.reported_length_le
  constructor
  · intro h'
    have hlen := h'.one
    rw [hpending, List.length_append, List.length_singleton] at hlen
    have hslot := h'.slot b (by rw [hpending]; exact List.mem_append_right _ (List.mem_singleton.2 rfl))
    exact ⟨List.eq_nil_of_length_eq_zero (by omega), hslot⟩
  · rintro ⟨hnil, hslot⟩
    have hall : c.reported = c.accepted := by
      rw [← h.reported_append, hnil, List.append_nil]
    have hle := h.afterAck.length_le
    have hlen := congrArg List.length h.inOrder
    rw [List.length_append, ← hall] at hlen
    have hmsg : c.msg.toList = [] := List.eq_nil_of_length_eq_zero (by omega)
    have hack : c.acked = c.accepted := by
      rw [← h.inOrder, hmsg, List.append_nil]
    refine ⟨?_, h.afterAck, ?_, ?_, ?_⟩
    · change c.acked ++ [b] = c.accepted ++ [b]
      rw [hack]
    · rw [hpending, hnil]
      exact Nat.le_refl 1
    · rw [hpending, hnil]
      intro p hp
      rw [List.nil_append, List.mem_singleton] at hp
      exact hslot.trans hp.symm
    · intro hne
      exact absurd (hall.trans hack.symm) hne

/-- A message acknowledged. -/
theorem ChanRight.ack_iff (h : ChanRight c past) (hmsg : c.msg = some b) :
    ChanRight c.ack past ↔ ¬ past := by
  have hacked : c.ack.acked = c.acked ++ [b] := by
    rw [Chan.ack, hmsg]
    rfl
  constructor
  · intro h'
    refine (h'.coming ?_).2
    rw [hacked]
    intro heq
    have hlen := congrArg List.length heq
    have hle := h.afterAck.length_le
    rw [List.length_append, List.length_singleton] at hlen
    change c.reported.length = _ at hlen
    omega
  · intro hpast
    refine ⟨?_, ?_, h.one, h.slot, fun _ => ⟨rfl, hpast⟩⟩
    · change (c.acked ++ c.msg.toList) ++ [] = c.accepted
      rw [List.append_nil, h.inOrder]
    · rw [hacked]
      exact h.afterAck.trans (List.prefix_append _ _)

/-- An acknowledged buffer that is not reported is the one pending, in the slot. -/
theorem ChanRight.acked_eq (h : ChanRight c past) (hne : c.reported ≠ c.acked) :
    c.acked = c.reported ++ [c.pvTxBuf] ∧ c.msg = none := by
  obtain ⟨rest, hrest⟩ := h.afterAck
  have hrest0 : rest ≠ [] := by
    rintro rfl
    rw [List.append_nil] at hrest
    exact hne hrest
  have hpending : c.pending = rest ++ c.msg.toList := by
    have happ := h.reported_append
    rw [← h.inOrder, ← hrest, List.append_assoc] at happ
    exact List.append_cancel_left happ
  have hone := h.one
  rw [hpending, List.length_append] at hone
  cases rest with
  | nil => exact absurd rfl hrest0
  | cons p rest =>
    rw [List.length_cons] at hone
    have hnil : rest = [] := List.eq_nil_of_length_eq_zero (by omega)
    have hmsg : c.msg.toList = [] := List.eq_nil_of_length_eq_zero (by omega)
    subst hnil
    have hslot := h.slot p (by rw [hpending]; exact List.mem_append_left _ (List.mem_singleton.2 rfl))
    exact ⟨by rw [← hrest, hslot], Option.toList_eq_nil_iff.1 hmsg⟩

/-- The pending buffer reported once it is acknowledged. -/
theorem ChanRight.report (h : ChanRight c past) (hne : c.reported ≠ c.acked) :
    ChanRight { c with reported := c.reported ++ [c.pvTxBuf] } True := by
  obtain ⟨hacked, hmsg⟩ := h.acked_eq hne
  have haccepted : c.accepted = c.reported ++ [c.pvTxBuf] := by
    rw [← h.inOrder, hmsg, ← hacked]
    exact List.append_nil _
  have hpending : ({ c with reported := c.reported ++ [c.pvTxBuf] } : Chan).pending = [] := by
    rw [Chan.pending, haccepted]
    exact List.drop_length
  refine ⟨h.inOrder, ?_, ?_, ?_, ?_⟩
  · rw [hacked]
  · rw [hpending]
    exact Nat.zero_le 1
  · rw [hpending]
    exact fun _ hp => nomatch hp
  · exact fun hno => absurd hacked.symm hno

/-! ## Steps -/

omit [DecidableEq T] in
theorem Flagged.update {w : T → Writer} {i : Isr} (hf : Flagged s)
    (hflag : c.txif = true → c.reported ≠ c.acked ∨ i.Past ch)
    (hpast : ∀ ch', ch' ≠ ch → s.isr.Past ch' → i.Past ch')
    (hnodup : i.waiting.Nodup)
    (hwait : ∀ ch' ∈ i.waiting,
      (ch' = ch → c.txif = true) ∧ ch' ∈ s.isr.waiting ∧ ¬ i.Past ch') :
    Flagged ⟨Function.update s.chan ch c, w, i⟩ := by
  refine ⟨fun ch' hset => ?_, hnodup, fun ch' hmem => ?_⟩
  · by_cases hch : ch' = ch
    · subst hch
      simp only [Function.update_self] at hset ⊢
      exact hflag hset
    · simp only [Function.update_of_ne hch] at hset ⊢
      exact (hf.flag ch' hset).imp_right (hpast ch' hch)
  · obtain ⟨hset, hin, hno⟩ := hwait ch' hmem
    refine ⟨?_, hno⟩
    by_cases hch : ch' = ch
    · subst hch
      simp only [Function.update_self]
      exact hset rfl
    · simp only [Function.update_of_ne hch]
      exact (hf.waiting ch' hin).1

/-- A write keeps what holds if and only if its buffer takes no pending one's place. -/
theorem whcRight_write {t : T} {size : Nat} (h : WhcRight s) :
    WhcRight (write s t ch b size) ↔ WhcMeets s (.write t ch b size) := by
  unfold write
  split
  · next hbad =>
    refine ⟨fun _ hsize halign => ?_, fun _ => h⟩
    rcases hbad with hne | hne
    · exact absurd hsize.symm hne
    · exact absurd halign hne
  · next hgood =>
    have hsize : size = sizeofNuWhcMsg := by
      by_contra hne
      exact hgood (.inl (Ne.symm hne))
    have halign : b &&& 3 = 0 := by
      by_contra hne
      exact hgood (.inr hne)
    refine (h.update_iff fun _ _ => id).trans ((h ch).store_iff.trans ?_)
    exact ⟨fun hp _ _ => hp, fun hm => hm hsize halign⟩

/-- An operation keeps what holds if and only if it meets its condition. -/
theorem whcRight_step (h : WhcRight s) (hf : Flagged s) (hstep : whcStep s op s') :
    WhcRight s' ↔ WhcMeets s op := by
  unfold whcStep whcExec at hstep
  cases op with
  | setTxComplete ch on =>
    cases hstep
    have hr := h ch
    refine (h.update_iff fun _ _ => id).trans (iff_of_true ?_ trivial)
    exact ⟨hr.inOrder, hr.afterAck, hr.one, hr.slot, hr.coming⟩
  | write t ch b size =>
    dsimp only at hstep
    split at hstep
    · cases hstep
      exact whcRight_write h
    · cases hstep
  | check t =>
    dsimp only at hstep
    split at hstep
    · cases hstep
      exact iff_of_true h trivial
    · cases hstep
  | send t =>
    dsimp only at hstep
    split at hstep
    · next ch b hw =>
      cases hstep
      refine (h.update_iff fun _ _ => id).trans ((h ch).send_iff.trans ?_)
      constructor
      · intro hm ch' b' hw'
        rw [hw] at hw'
        cases hw'
        exact hm
      · exact fun hm => hm ch b hw
    · cases hstep
  | ack ch =>
    dsimp only at hstep
    split at hstep
    · next b hmsg =>
      cases hstep
      exact (h.update_iff fun _ _ => id).trans ((h ch).ack_iff hmsg)
    · cases hstep
  | isrEnter =>
    dsimp only at hstep
    split at hstep
    · next hidle =>
      cases hstep
      refine iff_of_true (fun ch => (h ch).mono False.elim) trivial
    · cases hstep
  | isrServe =>
    dsimp only at hstep
    split at hstep
    · next ch chs hserve =>
      cases hstep
      have hwait := hf.waiting ch (by rw [hserve]; exact List.mem_cons_self)
      have hne := (hf.flag ch hwait.1).resolve_right hwait.2
      have hmeets : WhcMeets s .isrServe ↔
          (s.chan ch).txComplete = true ∧ (s.chan ch).pvTxBuf ≠ 0 := by
        constructor
        · exact fun hm => hm ch chs hserve
        · intro hm ch' chs' heq
          rw [hserve] at heq
          cases heq
          exact hm
      rw [hmeets]
      unfold Driver.serve
      dsimp only
      split
      · next hm =>
        refine (h.update_iff (i := .called ch chs) fun ch' hch hp => absurd hp.symm hch).trans
          (iff_of_true ?_ hm)
        exact ((h ch).report hne).mono fun _ => trivial
      · next hm =>
        refine iff_of_false (fun h' => ?_) hm
        exact ((h' ch).coming hne).2 rfl
    · cases hstep
  | isrNull =>
    dsimp only at hstep
    split at hstep
    · next ch chs hcalled =>
      cases hstep
      refine (h.update_iff (i := .clear ch chs) fun ch' hch hp => absurd hp.symm hch).trans ?_
      have hr : ChanRight (s.chan ch) (ch = ch) := by
        have hr := h ch
        rw [hcalled] at hr
        exact hr
      refine hr.store_iff.trans ?_
      constructor
      · intro hm ch' chs' heq
        rw [hcalled] at heq
        cases heq
        exact hm
      · exact fun hm => hm ch chs hcalled
    · cases hstep
  | isrClear =>
    dsimp only at hstep
    split at hstep
    · next ch chs hclear =>
      cases hstep
      refine (h.update_iff (i := .serve chs) fun ch' hch hp => False.elim hp).trans
        (iff_of_true ?_ trivial)
      have hr := h ch
      rw [hclear] at hr
      exact ⟨hr.inOrder, hr.afterAck, hr.one, hr.slot, fun hne => absurd rfl (hr.coming hne).2⟩
    · cases hstep
  | isrExit =>
    dsimp only at hstep
    split at hstep
    · cases hstep
      refine iff_of_true (fun ch => (h ch).mono False.elim) trivial
    · cases hstep

/-- Operations keep the flags. -/
theorem flagged_step (h : WhcRight s) (hf : Flagged s) (hstep : whcStep s op s') : Flagged s' := by
  unfold whcStep whcExec at hstep
  cases op with
  | setTxComplete ch on =>
    cases hstep
    exact hf.update (hf.flag ch) (fun _ _ => id) hf.nodup fun ch' hch =>
      ⟨fun heq => heq ▸ (hf.waiting ch' hch).1, hch, (hf.waiting ch' hch).2⟩
  | write t ch b size =>
    dsimp only at hstep
    split at hstep
    · cases hstep
      unfold write
      split
      · exact hf
      · exact hf.update (hf.flag ch) (fun _ _ => id) hf.nodup fun ch' hch =>
          ⟨fun heq => heq ▸ (hf.waiting ch' hch).1, hch, (hf.waiting ch' hch).2⟩
    · cases hstep
  | check t =>
    dsimp only at hstep
    split at hstep
    · cases hstep
      exact ⟨hf.flag, hf.nodup, hf.waiting⟩
    · cases hstep
  | send t =>
    dsimp only at hstep
    split at hstep
    · next ch b hw =>
      cases hstep
      exact hf.update (hf.flag ch) (fun _ _ => id) hf.nodup fun ch' hch =>
        ⟨fun heq => heq ▸ (hf.waiting ch' hch).1, hch, (hf.waiting ch' hch).2⟩
    · cases hstep
  | ack ch =>
    dsimp only at hstep
    split at hstep
    · next b hmsg =>
      cases hstep
      refine hf.update (fun _ => .inl ?_) (fun _ _ => id) hf.nodup fun ch' hch =>
        ⟨fun _ => rfl, hch, (hf.waiting ch' hch).2⟩
      intro heq
      have hlen := congrArg List.length heq
      have hle := (h ch).afterAck.length_le
      rw [Chan.ack, hmsg, Option.toList_some, List.length_append, List.length_singleton] at hlen
      change (s.chan ch).reported.length = _ at hlen
      omega
    · cases hstep
  | isrEnter =>
    dsimp only at hstep
    split at hstep
    · next hidle =>
      cases hstep
      refine ⟨fun ch hset => ?_, List.Nodup.filter (fun ch => (s.chan ch).txif)
        (List.nodup_finRange 4), fun ch hmem => ?_⟩
      · have hflag := hf.flag ch hset
        rw [hidle] at hflag
        exact hflag.imp_right False.elim
      · exact ⟨(List.mem_filter.1 hmem).2, id⟩
    · cases hstep
  | isrServe =>
    dsimp only at hstep
    split at hstep
    · next ch chs hserve =>
      cases hstep
      have hnodup := hf.nodup
      have hwait := hf.waiting
      rw [hserve] at hnodup hwait
      have hno : ∀ {ch'}, ch' ∈ chs → ¬ ch = ch' := by
        rintro ch' hmem rfl
        exact (List.nodup_cons.1 hnodup).1 hmem
      have hpast : ∀ {ch'}, ¬ s.isr.Past ch' := by
        rw [hserve]
        exact id
      unfold Driver.serve
      dsimp only
      split
      · refine hf.update (i := .called ch chs) (fun _ => .inr rfl)
          (fun _ _ hp => absurd hp hpast) (List.nodup_cons.1 hnodup).2 fun ch' hmem =>
          ⟨fun heq => absurd heq.symm (hno hmem), ?_, hno hmem⟩
        rw [hserve]
        exact List.mem_cons_of_mem ch hmem
      · refine ⟨fun ch' hset => (hf.flag ch' hset).imp_right fun hp => absurd hp hpast,
          (List.nodup_cons.1 hnodup).2, fun ch' hmem =>
          ⟨(hwait ch' (List.mem_cons_of_mem ch hmem)).1, hno hmem⟩⟩
    · cases hstep
  | isrNull =>
    dsimp only at hstep
    split at hstep
    · next ch chs hcalled =>
      cases hstep
      have hnodup := hf.nodup
      have hwait := hf.waiting
      rw [hcalled] at hnodup hwait
      refine hf.update (i := .clear ch chs) (fun _ => .inr rfl) (fun ch' _ hp => ?_) hnodup
        fun ch' hmem => ⟨fun heq => absurd heq.symm (hwait ch' hmem).2, ?_, (hwait ch' hmem).2⟩
      · rw [hcalled] at hp
        exact hp
      · rw [hcalled]
        exact hmem
    · cases hstep
  | isrClear =>
    dsimp only at hstep
    split at hstep
    · next ch chs hclear =>
      cases hstep
      have hnodup := hf.nodup
      have hwait := hf.waiting
      rw [hclear] at hnodup hwait
      refine hf.update (i := .serve chs) (fun hset => Bool.noConfusion hset)
        (fun ch' hne hp => ?_) hnodup
        fun ch' hmem => ⟨fun heq => absurd heq.symm (hwait ch' hmem).2, ?_, id⟩
      · rw [hclear] at hp
        exact absurd hp.symm hne
      · rw [hclear]
        exact hmem
    · cases hstep
  | isrExit =>
    dsimp only at hstep
    split at hstep
    · next hserve =>
      cases hstep
      refine ⟨fun ch hset => (hf.flag ch hset).imp_right fun hp => ?_, List.nodup_nil,
        (fun ch hmem => nomatch hmem)⟩
      rw [hserve] at hp
      exact False.elim hp
    · cases hstep

omit [DecidableEq T] in
/-- Nothing is sent at the start. -/
theorem whcRight_start : WhcRight (Driver.start : Driver T) ∧ Flagged (Driver.start : Driver T) := by
  refine ⟨fun ch => ⟨rfl, List.prefix_rfl, Nat.zero_le 1, (fun b hb => nomatch hb),
    fun hne => absurd rfl hne⟩, fun ch hset => Bool.noConfusion hset, List.nodup_nil,
    (fun ch hmem => nomatch hmem)⟩

/-- Over every run whose steps meet the condition each accepted buffer is reported once, after its
acknowledge, and stays pending until then; a next step keeps this if and only if it meets the
condition. -/
theorem whcTx_run {ops : List (WhcOp T)} (h : Run (where_ whcStep WhcMeets) Driver.start ops s) :
    WhcRight s ∧ ∀ op s', whcStep s op s' → (WhcRight s' ↔ WhcMeets s op) := by
  have hinv : WhcRight s ∧ Flagged s :=
    Run.invariant (I := fun s => WhcRight s ∧ Flagged s)
      (fun hi hstep => ⟨(whcRight_step hi.1 hi.2 hstep.2).2 hstep.1,
        flagged_step hi.1 hi.2 hstep.2⟩) whcRight_start h
  exact ⟨hinv.1, fun op s' hstep => whcRight_step hinv.1 hinv.2 hstep⟩

/-! ## A write while another is pending -/

/-- A second write before the first is acknowledged. -/
def refusedWrite : List (WhcOp Unit) :=
  [.setTxComplete 0 true, .write () 0 0x10 16, .check (), .send (), .write () 0 0x20 16, .check (),
    .ack 0, .isrEnter, .isrServe]

/-- The second write is refused, its buffer is reported in the place of the first one. -/
theorem not_whcRight : ¬ ∀ (ops : List (WhcOp Unit)) (s : Driver Unit),
    Run whcStep Driver.start ops s → WhcRight s := by
  intro h
  have hsome : (refusedWrite.foldlM whcExec Driver.start).isSome = true := by decide +kernel
  have hright := h refusedWrite _ (Run.of_foldlM id (Option.some_get hsome).symm)
  have hreported : ([0x20] : List Addr) <+: [0x10] := (hright 0).afterAck
  exact absurd hreported (by decide)

/-- `whcTx_run` on a write that is acknowledged and reported. -/
theorem whcTx_run_write : ∃ s : Driver Unit, (s.chan 0).reported = [0x10] ∧
    WhcRight s ∧ ∀ op s', whcStep s op s' → (WhcRight s' ↔ WhcMeets s op) := by
  have hset : Run (where_ whcStep WhcMeets) (Driver.start : Driver Unit) [.setTxComplete 0 true] _ :=
    .snoc .nil ⟨trivial, rfl⟩
  have hwrite := hset.snoc (a := WhcOp.write () 0 0x10 16) ⟨fun _ _ p hp => (nomatch hp), rfl⟩
  have hcheck := hwrite.snoc (a := WhcOp.check ()) ⟨trivial, rfl⟩
  have hsend := hcheck.snoc (a := WhcOp.send ()) ⟨fun _ _ hw => by cases hw; exact ⟨rfl, rfl⟩, rfl⟩
  have hack := hsend.snoc (a := WhcOp.ack 0) ⟨id, rfl⟩
  have henter := hack.snoc (a := WhcOp.isrEnter) ⟨trivial, rfl⟩
  have hserve := henter.snoc (a := WhcOp.isrServe)
    ⟨fun _ _ hs => by cases hs; exact ⟨rfl, by decide⟩, rfl⟩
  exact ⟨_, rfl, whcTx_run hserve⟩

end NumakerMA35D1.Whc

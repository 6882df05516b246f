import NumakerMA35D1.Lib.Align
import NumakerMA35D1.UsbHost.Ehci
import NumakerMA35D1.UsbHost.PipeXfer

/-!
# The qTDs of an EHCI bulk transfer

The loop of a bulk submission takes units of the pool one after another and links each behind the one before; what it
leaves of the driver is `Grew`, also where it runs out of memory. With memory its qTDs cover the buffer (`Covers`).
`bulkChain_iff`: what the submission queues is right exactly where there is anything to transfer, as for no bytes it
queues nothing; one that is refused leaves the controller what it had (`NotStarted`).

Reference: `_ehci.c_:624 ehci_bulk_xfer`.
-/

namespace NumakerMA35D1.UsbHost

open Embedded

/-! ## What it should queue -/

/-- The packet type of an endpoint. Reference: `_ehci.c_:675 ehci_bulk_xfer`. -/
def EpInfo.pid (ep : EpInfo) : BitVec 32 :=
  if ep.bEndpointAddress &&& 0x80#8 = 0x00#8 then QTD_PID_OUT else QTD_PID_IN

/-- The status of a token: whether it is active, and its errors. -/
def QTD_STS_Msk : BitVec 32 := 0xFF#32

/-- A qTD for the bytes from `buff` on: it is active and of the endpoint's direction, the token has their number, they
are in at most five pages of 4 KiB, which the buffer pointers name in order; before another qTD they are whole packets;
only the last one asks for an interrupt, and behind it is the ghost. -/
structure QtdRight (d : Qtd) (ep : EpInfo) (mps : Nat) (buff : BitVec 32) (next : Option Unit64) : Prop where
  active : d.token &&& QTD_STS_Msk = QTD_STS_ACTIVE
  pid : d.token &&& QTD_PID_Msk = ep.pid
  bytes : QTD_TODO_LEN d.token = d.xferLen
  first : d.bptr 0 = buff
  fivePages : buff.toNat % 4096 + d.xferLen.toNat ≤ 5 * 4096
  pages : ∀ i, d.bptr i &&& ~~~0xFFF#32 = (buff &&& ~~~0xFFF#32) + 0x1000#32 * BitVec.ofNat 32 i.val
  packets : next ≠ none → mps ∣ d.xferLen.toNat
  ioc : d.token.getLsbD 15 = true ↔ next = none
  link : d.nextQtd = next.elim .ghost .unit

/-- The qTDs have the bytes of a buffer between them, each from where the one before it ends. -/
def Covers (s : Ehci) (ep : EpInfo) (mps : Nat) : List Unit64 → BitVec 32 → Nat → Prop
  | [], _, len => len = 0
  | t :: rest, buff, len =>
    QtdRight (s.qtd t) ep mps buff rest.head? ∧ 0 < (s.qtd t).xferLen.toNat ∧ (s.qtd t).xferLen.toNat ≤ len ∧
      Covers s ep mps rest (buff + (s.qtd t).xferLen) (len - (s.qtd t).xferLen.toNat)

/-- A qTD of a UTR; its packet type is none that the controller leaves as it is for no packet. Reference:
`_ehci.c_:878 visit_qtd`. -/
structure OfUtr (d : Qtd) (v : Nat) : Prop where
  utr : d.utr = v
  pid : (d.token.getLsbD 8 && d.token.getLsbD 9) = false

/-- The controller has nothing to do that it had not before: its list, the endpoints' queue heads and what is in use of
the pool are as they were, but for the driver's own lists of qTDs. -/
structure NotStarted (s s' : Ehci) : Prop where
  asyncList : s'.asyncList = s.asyncList
  asen : s'.asen = s.asen
  hwPipe : s'.hwPipe = s.hwPipe
  qh : ∀ q, s.pool.unitUsed q = true → s'.qh q = { s.qh q with qtdList := (s'.qh q).qtdList }
  qtd : ∀ t, s.pool.unitUsed t = true → s'.qtd t = s.qtd t

/-- The queue head of an endpoint is in the controller's list if it is new, which works on it; the controller's pointer
is at the first of its qTDs, of which there is one at least, and they cover the buffer. -/
structure BulkStarted (E : Nat → EpInfo) (s s' : Ehci) (v i : Nat) (qh t : Unit64) (rest : List Unit64) : Prop where
  hwPipe : s'.hwPipe (.ep i) = some qh
  list : s'.asyncList = if s.hwPipe (.ep i) = none then qh :: s.asyncList else s.asyncList
  asen : s'.asen = true
  queue : (s'.qh qh).qtdList = t :: rest
  first : (s'.qh qh).olNextQtd = .unit t
  covers : Covers s' (E i) (E i).wMaxPacketSize.toNat (t :: rest) (s.utr v).buff (s.utr v).dataLen.toNat

/-- A submission returns; when it returns 0, the transfer is started, and when not, nothing is. -/
def BulkChainRight (E : Nat → EpInfo) (s : Ehci) (v i : Nat) (r : Except Stuck (Int × Ehci)) : Prop :=
  ∃ ret s', r = .ok (ret, s') ∧ (ret = 0 → ∃ qh t rest, BulkStarted E s s' v i qh t rest) ∧
    (ret ≠ 0 → NotStarted s s')

/-! ## The loop -/

/-- What taking qTDs for a queue head behind a qTD `pre` leaves. -/
structure Grew (s s' : Ehci) (qh : Unit64) (pre : Option Unit64) (new : List Unit64) : Prop where
  queue : s'.qh qh = { s.qh qh with qtdList := (s.qh qh).qtdList ++ new }
  others : ∀ q, q ≠ qh → s'.qh q = s.qh q
  fresh : ∀ t ∈ new, s.pool.unitUsed t = false
  nodup : new.Nodup
  used : ∀ u, s'.pool.unitUsed u = (decide (u ∈ new) || s.pool.unitUsed u)
  count : s'.pool.memPoolUsed = s.pool.memPoolUsed + new.length
  rest : { s' with pool := s.pool, qh := s.qh, qtd := s.qtd } = s
  kept : ∀ t, t ∉ new → pre ≠ some t → s'.qtd t = s.qtd t
  linked : ∀ t, pre = some t → s'.qtd t = { s.qtd t with nextQtd := new.head?.elim (s.qtd t).nextQtd .unit }

section

variable {s s' s₁ : Ehci} {qh t : Unit64} {pre : Option Unit64} {new : List Unit64} {v : Nat}

theorem Grew.nil (s : Ehci) (qh : Unit64) (pre : Option Unit64) : Grew s s qh pre [] where
  queue := by rw [List.append_nil]
  others _ _ := rfl
  fresh _ h := absurd h List.not_mem_nil
  nodup := List.nodup_nil
  used u := by simp
  count := by simp
  rest := rfl
  kept _ _ _ := rfl
  linked _ _ := rfl

theorem allocQtd_none (h : s.allocQtd v = (none, s')) : s' = s ∧ s.pool.allocEhci.1 = none := by
  rw [Ehci.allocQtd] at h
  split at h
  · rename_i hpool
    cases h
    exact ⟨rfl, by rw [hpool]⟩
  · cases h

theorem allocQtd_some (h : s.allocQtd v = (some t, s')) : s.pool.unitUsed t = false ∧
    s' = { s with pool := { s.pool.take t with sidx := t }, qtd := Function.update s.qtd t (Qtd.zero v) } := by
  rw [Ehci.allocQtd] at h
  split at h
  · cases h
  · rename_i hpool
    obtain ⟨hfree, -, hpool'⟩ := MemPool.allocEhci_some hpool
    cases h
    rw [hpool']
    exact ⟨hfree, rfl⟩

theorem allocQh_none (h : s.allocQh = (none, s')) : s' = s ∧ s.pool.allocEhci.1 = none := by
  rw [Ehci.allocQh] at h
  split at h
  · rename_i hpool
    cases h
    exact ⟨rfl, by rw [hpool]⟩
  · cases h

theorem allocQh_some (h : s.allocQh = (some qh, s')) : s.pool.allocEhci.1 = some qh ∧ s.pool.unitUsed qh = false ∧
    s' = { s with pool := { s.pool.take qh with sidx := qh }, qh := Function.update s.qh qh EhciQh.zero } := by
  rw [Ehci.allocQh] at h
  split at h
  · cases h
  · rename_i hpool
    obtain ⟨hfree, -, hpool'⟩ := MemPool.allocEhci_some hpool
    cases h
    refine ⟨by rw [hpool], hfree, ?_⟩
    rw [hpool']

theorem linkQtd_pool (s : Ehci) (qh : Unit64) (pre : Option Unit64) (t : Unit64) (write : Qtd → Qtd) :
    (linkQtd s qh pre t write).pool = s.pool := by
  cases pre <;> rfl

/-- One more qTD. -/
theorem Grew.link (qh : Unit64) (halloc : s.allocQtd v = (some t, s₁)) (hpre : ∀ p, pre = some p → s.pool.unitUsed p = true)
    (write : Qtd → Qtd) :
    Grew s (linkQtd s₁ qh pre t write) qh pre [t] ∧ (linkQtd s₁ qh pre t write).qtd t = write (Qtd.zero v) := by
  obtain ⟨hfree, rfl⟩ := allocQtd_some halloc
  have hne : ∀ p, pre = some p → p ≠ t := by
    rintro p hp rfl
    rw [hpre p hp] at hfree
    cases hfree
  refine ⟨⟨?_, ?_, ?_, List.nodup_singleton t, ?_, ?_, ?_, ?_, ?_⟩, ?_⟩
  · cases pre <;> exact Function.update_self ..
  · intro q hq
    cases pre <;> exact Function.update_of_ne hq ..
  · intro u hu
    rw [List.mem_singleton.1 hu]
    exact hfree
  · intro u
    rw [linkQtd_pool]
    refine (MemPool.take_unitUsed s.pool t u).trans ?_
    by_cases hu : u = t <;> simp [hu]
  · cases pre <;> rfl
  · cases pre <;> rfl
  · intro u hu hnp
    have hut : u ≠ t := fun heq => hu (List.mem_singleton.2 heq)
    cases pre with
    | none => simp [linkQtd, Ehci.setQtd, Ehci.appendToQtdListOfQH, Ehci.setQh, hut]
    | some p =>
      have hup : u ≠ p := fun heq => hnp (congrArg some heq.symm)
      simp [linkQtd, Ehci.setQtd, Ehci.appendToQtdListOfQH, Ehci.setQh, hut, hup]
  · rintro p rfl
    simp [linkQtd, Ehci.setQtd, Ehci.appendToQtdListOfQH, Ehci.setQh, hne p rfl]
  · cases pre with
    | none => simp [linkQtd, Ehci.setQtd, Ehci.appendToQtdListOfQH, Ehci.setQh]
    | some p => simp [linkQtd, Ehci.setQtd, Ehci.appendToQtdListOfQH, Ehci.setQh, (hne p rfl).symm]

/-- Taking one qTD and then more is taking them all. -/
theorem Grew.cons (h : Grew s s₁ qh pre [t]) (h' : Grew s₁ s' qh (some t) new)
    (hpre : ∀ p, pre = some p → s.pool.unitUsed p = true) : Grew s s' qh pre (t :: new) where
  queue := by
    rw [h'.queue, h.queue]
    simp
  others q hq := (h'.others q hq).trans (h.others q hq)
  fresh u hu := by
    rcases List.mem_cons.1 hu with rfl | hu
    · exact h.fresh u List.mem_cons_self
    · have hfree := h'.fresh u hu
      rw [h.used u, Bool.or_eq_false_iff] at hfree
      exact hfree.2
  nodup := by
    refine List.nodup_cons.2 ⟨fun hmem => ?_, h'.nodup⟩
    have hfree := h'.fresh t hmem
    rw [h.used t] at hfree
    simp at hfree
  used u := by
    rw [h'.used u, h.used u]
    by_cases hu : u = t <;> simp [hu]
  count := by
    rw [h'.count, h.count]
    simp only [List.length_cons, List.length_nil, Nat.cast_add, Nat.cast_one]
    omega
  rest := by
    have hrest := h'.rest
    have hrest₁ := h.rest
    rw [← hrest₁]
    rw [← hrest]
  kept u hu hnp := by
    obtain ⟨hut, hun⟩ := not_or.1 fun hor => hu (List.mem_cons.2 hor)
    rw [h'.kept u hun fun heq => hut (Option.some.inj heq).symm]
    exact h.kept u (fun hmem => hut (List.mem_singleton.1 hmem)) hnp
  linked p hp := by
    have hpt : p ≠ t := by
      rintro rfl
      have hfree := h.fresh p List.mem_cons_self
      rw [hpre p hp] at hfree
      cases hfree
    have hpn : p ∉ new := by
      intro hmem
      have hfree := h'.fresh p hmem
      rw [h.used p, hpre p hp, Bool.or_true] at hfree
      cases hfree
    rw [h'.kept p hpn fun heq => hpt (Option.some.inj heq).symm, h.linked p hp]
    rfl

end

/-! ## One qTD -/

section

variable {n : Nat} {low buff : BitVec 32}

/-- The length in a token. -/
theorem todoLen_or (hn : n < 2 ^ 15) (hlow : low.toNat < 2 ^ 16) :
    QTD_TODO_LEN (BitVec.ofNat 32 n <<< 16 ||| low) = BitVec.ofNat 32 n := by
  have hval : (BitVec.ofNat 32 n <<< 16 ||| low).toNat = n * 2 ^ 16 + low.toNat := by
    rw [BitVec.toNat_or, BitVec.toNat_shiftLeft, BitVec.toNat_ofNat, Nat.mod_eq_of_lt (by omega),
      Nat.shiftLeft_eq, Nat.mod_eq_of_lt (by omega), ← Nat.shiftLeft_eq, ← Nat.shiftLeft_add_eq_or_of_lt hlow]
  apply BitVec.eq_of_toNat_eq
  have hmask : ∀ x : Nat, x &&& (0x7FFF#32).toNat = x % 2 ^ 15 := fun x => Nat.and_two_pow_sub_one_eq_mod x 15
  rw [QTD_TODO_LEN, BitVec.toNat_and, hmask, BitVec.toNat_ushiftRight, hval, BitVec.toNat_ofNat,
    Nat.shiftRight_eq_div_pow]
  omega

theorem dataToken_lt (ep : EpInfo) : (dataToken ep).toNat < 2 ^ 12 := by
  rw [dataToken]
  split <;> decide

theorem dataToken_ioc (ep : EpInfo) : (dataToken ep).getLsbD 15 = false := by
  rw [dataToken]
  split <;> decide

theorem dataToken_pid (ep : EpInfo) : (dataToken ep).getLsbD 9 = false := by
  rw [dataToken]
  split <;> decide

/-- The low half of a token, from under its length. -/
theorem shiftLeft_and_low {mask : BitVec 32} (h : mask.toNat < 2 ^ 16) (v : BitVec 32) : (v <<< 16) &&& mask = 0#32 := by
  apply BitVec.eq_of_getLsbD_eq
  intro i _
  rw [BitVec.getLsbD_and, BitVec.getLsbD_shiftLeft, BitVec.getLsbD_zero]
  rcases Nat.lt_or_ge i 16 with hlt | hge
  · simp [hlt]
  · have hbit : mask.getLsbD i = false := by
      rw [← BitVec.testBit_toNat]
      exact Nat.testBit_lt_two_pow (h.trans_le (Nat.pow_le_pow_right (by decide) hge))
    rw [hbit, Bool.and_false]

/-- The status and the packet type of the qTDs that the loop writes. -/
theorem bulkQtd_low (ep : EpInfo) (qh : Unit64) (dataLen : Nat) (buff : BitVec 32) (d : Qtd) :
    (bulkQtd ep qh dataLen buff d).token &&& QTD_STS_Msk = QTD_STS_ACTIVE ∧
      (bulkQtd ep qh dataLen buff d).token &&& QTD_PID_Msk = ep.pid := by
  have hlow : ∀ mask : BitVec 32, mask.toNat < 2 ^ 16 → QTD_IOC &&& mask = 0#32 →
      (bulkQtd ep qh dataLen buff d).token &&& mask = dataToken ep &&& mask := by
    intro mask hmask hioc
    rw [bulkQtd, BitVec.and_or_distrib_right, BitVec.and_or_distrib_right, shiftLeft_and_low hmask, BitVec.zero_or]
    split
    · rw [hioc, BitVec.or_zero]
    · rw [BitVec.zero_and, BitVec.or_zero]
  rw [hlow QTD_STS_Msk (by decide) (by decide), hlow QTD_PID_Msk (by decide) (by decide), dataToken, EpInfo.pid]
  split <;> decide

/-- The port driver's count of a bulk transfer with one qTD is what `visit_qtd` makes of it. -/
theorem BulkRun.xferLen_qtd {x : BulkRun} (hehci : x.hc.IsEhci) (hseen : x.seen = true) {d : Qtd} {ep : EpInfo}
    (hpid : d.token &&& QTD_PID_Msk = ep.pid) (hlen : d.xferLen = BitVec.ofNat 32 n)
    (hdone : d.token &&& QTD_STS_ACTIVE = 0) (herrors : d.token &&& QTD_STS_ERRORS ≠ 0 ↔ x.errors = true) {moved : Nat}
    (hmoved : moved ≤ n) (htodo : QTD_TODO_LEN d.token = BitVec.ofNat 32 (n - moved)) (u : Utr) :
    ∃ u', visitQtd d u = some u' ∧ u'.xferLen = u.xferLen + BitVec.ofNat 32 (x.xferLen n moved) := by
  have hpids : ep.pid = QTD_PID_OUT ∨ ep.pid = QTD_PID_IN := by
    rw [EpInfo.pid]
    split <;> simp
  -- a dummy qTD has neither packet type
  have hreal : ¬ (d.token = 0x11197B7F#32 ∨ d.token = 0x1197B7F#32) := by
    rintro (h | h) <;>
    · rw [h] at hpid
      rcases hpids with h' | h' <;>
      · rw [h'] at hpid
        exact absurd hpid (by decide)
  have hsetup : d.token &&& QTD_PID_Msk ≠ QTD_PID_SETUP := by
    rw [hpid]
    rcases hpids with h | h <;> rw [h] <;> decide
  have hcount : x.xferLen n moved = if x.errors then 0 else moved := by
    rw [xferLen, if_neg (by simp [hseen]), if_pos hehci]
  rw [visitQtd, if_neg hreal, if_pos hdone, hcount]
  by_cases herr : x.errors = true
  · rw [if_pos (herrors.2 herr), if_pos herr]
    refine ⟨_, rfl, ?_⟩
    split <;> exact (BitVec.add_zero u.xferLen).symm
  · rw [if_neg (fun h => herr (herrors.1 h)), if_pos hsetup, if_neg herr]
    refine ⟨_, rfl, ?_⟩
    have hdiff : BitVec.ofNat 32 n - BitVec.ofNat 32 (n - moved) = BitVec.ofNat 32 moved := by
      rw [BitVec.sub_eq_iff_eq_add, ← BitVec.ofNat_add]
      congr 1
      omega
    rw [hlen, htodo, hdiff]

theorem pageMask_toNat (x : BitVec 32) : (x &&& ~~~0xFFF#32).toNat = x.toNat / 4096 * 4096 :=
  maskLow_toNat (k := 12) (by decide) x

/-- The buffer pointers are in consecutive pages. -/
theorem writeQtdBptr_page (d : Qtd) (buff xferLen : BitVec 32) (i : Fin 5) :
    (writeQtdBptr d buff xferLen).bptr i &&& ~~~0xFFF#32 =
      (buff &&& ~~~0xFFF#32) + 0x1000#32 * BitVec.ofNat 32 i.val := by
  have hbuff := buff.isLt
  apply BitVec.eq_of_toNat_eq
  by_cases hi : i = 0
  · subst hi
    simp [writeQtdBptr]
  · have hpos : i.val ≠ 0 := fun h => hi (Fin.ext h)
    have hlt := i.isLt
    simp only [writeQtdBptr, if_neg hi, pageMask_toNat, BitVec.toNat_add, BitVec.toNat_mul, BitVec.toNat_ofNat]
    omega

theorem bulkLen_pos {dataLen : Nat} (h : 0 < dataLen) : 0 < bulkLen dataLen := by
  unfold bulkLen
  split <;> omega

theorem bulkLen_le (dataLen : Nat) : bulkLen dataLen ≤ dataLen ∧ bulkLen dataLen ≤ 0x4000 := by
  unfold bulkLen
  split <;> omega

/-- The qTD that the loop writes, with the pointer it gets afterwards. -/
theorem bulkQtd_right {mps dataLen : Nat} (hmps : mps ∣ 0x4000) (ep : EpInfo) (qh : Unit64) (buff : BitVec 32) (d : Qtd)
    {next : Option Unit64} (hnext : next = none ↔ dataLen - bulkLen dataLen = 0) :
    QtdRight { bulkQtd ep qh dataLen buff d with nextQtd := next.elim .ghost .unit } ep mps buff next where
  active := (bulkQtd_low ep qh dataLen buff d).1
  pid := (bulkQtd_low ep qh dataLen buff d).2
  bytes := by
    have hlen := (bulkLen_le dataLen).2
    have hlow : (dataToken ep ||| if dataLen - bulkLen dataLen = 0 then QTD_IOC else 0#32).toNat < 2 ^ 16 := by
      rw [BitVec.toNat_or]
      refine Nat.or_lt_two_pow (Nat.lt_trans (dataToken_lt ep) (by decide)) ?_
      split <;> decide
    exact (congrArg QTD_TODO_LEN (BitVec.or_assoc ..)).trans (todoLen_or (by omega) hlow)
  first := rfl
  fivePages := by
    have hlen := (bulkLen_le dataLen).2
    show buff.toNat % 4096 + (BitVec.ofNat 32 (bulkLen dataLen)).toNat ≤ 5 * 4096
    rw [BitVec.toNat_ofNat]
    omega
  pages := writeQtdBptr_page d buff (BitVec.ofNat 32 (bulkLen dataLen))
  packets := by
    intro hmore
    have hlong : ¬ dataLen - bulkLen dataLen = 0 := fun h => hmore (hnext.2 h)
    have hbig : 0x4000 < dataLen := by
      by_contra hsmall
      exact hlong (by rw [bulkLen, if_neg hsmall, Nat.sub_self])
    have hlen : bulkLen dataLen = 0x4000 := if_pos hbig
    show mps ∣ (BitVec.ofNat 32 (bulkLen dataLen)).toNat
    rw [hlen]
    exact hmps
  ioc := by
    have htoken : (bulkQtd ep qh dataLen buff d).token.getLsbD 15 = decide (dataLen - bulkLen dataLen = 0) := by
      rw [bulkQtd, BitVec.getLsbD_or, BitVec.getLsbD_or, BitVec.getLsbD_shiftLeft, dataToken_ioc]
      by_cases hlast : dataLen - bulkLen dataLen = 0
      · rw [if_pos hlast, decide_eq_true hlast]
        rfl
      · rw [if_neg hlast, decide_eq_false hlast]
        rfl
    show (bulkQtd ep qh dataLen buff d).token.getLsbD 15 = true ↔ _
    rw [htoken, decide_eq_true_iff, hnext]
  link := rfl

theorem bulkQtd_ofUtr (ep : EpInfo) (qh : Unit64) (dataLen : Nat) (buff : BitVec 32) (v : Nat) (next : QtdPtr) :
    OfUtr { bulkQtd ep qh dataLen buff (Qtd.zero v) with nextQtd := next } v where
  utr := rfl
  pid := by
    have htoken : (bulkQtd ep qh dataLen buff (Qtd.zero v)).token.getLsbD 9 = false := by
      rw [bulkQtd, BitVec.getLsbD_or, BitVec.getLsbD_or, BitVec.getLsbD_shiftLeft, dataToken_pid]
      split <;> rfl
    show (_ && (bulkQtd ep qh dataLen buff (Qtd.zero v)).token.getLsbD 9) = false
    rw [htoken, Bool.and_false]

/-- Only for no bytes there is no qTD. -/
theorem covers_head {s : Ehci} {ep : EpInfo} {mps len : Nat} {ts : List Unit64} (h : Covers s ep mps ts buff len) :
    ts.head? = none ↔ len = 0 := by
  cases ts with
  | nil => exact ⟨fun _ => h, fun _ => rfl⟩
  | cons t rest =>
    obtain ⟨-, hpos, hle, -⟩ := h
    constructor
    · intro hnone
      cases hnone
    · intro hzero
      omega

/-- What the loop leaves. -/
theorem bulkLoop_spec {mps : Nat} (hmps : mps ∣ 0x4000) (ep : EpInfo) (v : Nat) (qh : Unit64) (dataLen : Nat)
    (hlen : dataLen < 2 ^ 32) (buff : BitVec 32) (pre : Option Unit64) (s : Ehci)
    (hpre : ∀ p, pre = some p → s.pool.unitUsed p = true) :
    ∃ new, Grew s (bulkLoop ep v qh dataLen buff pre s).2 qh pre new ∧
      (∀ t ∈ new, OfUtr ((bulkLoop ep v qh dataLen buff pre s).2.qtd t) v) ∧
      (0 < dataLen → s.pool.allocEhci.1 ≠ none → new ≠ []) ∧
      if (bulkLoop ep v qh dataLen buff pre s).1 then Covers (bulkLoop ep v qh dataLen buff pre s).2 ep mps new buff dataLen
      else (bulkLoop ep v qh dataLen buff pre s).2.pool.allocEhci.1 = none := by
  induction dataLen using Nat.strong_induction_on generalizing buff pre s with
  | _ dataLen ih =>
    rw [bulkLoop]
    by_cases hpos : 0 < dataLen
    swap
    · rw [if_neg hpos]
      exact ⟨[], Grew.nil s qh pre, fun t ht => absurd ht List.not_mem_nil, fun h => absurd h hpos,
        by simpa [Covers] using hpos⟩
    rw [if_pos hpos]
    cases halloc : s.allocQtd v with
    | mk o s₁ =>
      cases o with
      | none =>
        obtain ⟨rfl, hnone⟩ := allocQtd_none halloc
        exact ⟨[], Grew.nil _ qh pre, fun t ht => absurd ht List.not_mem_nil, fun _ h => absurd hnone h, hnone⟩
      | some t =>
        have hle := bulkLen_le dataLen
        have hlenpos := bulkLen_pos hpos
        obtain ⟨hlink, ht⟩ := Grew.link qh halloc hpre (bulkQtd ep qh dataLen buff)
        have hused : ∀ p, some t = some p → (linkQtd s₁ qh pre t (bulkQtd ep qh dataLen buff)).pool.unitUsed p = true := by
          intro p hp
          cases hp
          rw [hlink.used t]
          simp
        obtain ⟨new, hgrew, hof, -, hres⟩ := ih (dataLen - bulkLen dataLen) (by omega) (by omega)
          (buff + BitVec.ofNat 32 (bulkLen dataLen)) (some t) _ hused
        have hqtd := hgrew.linked t rfl
        rw [ht] at hqtd
        refine ⟨t :: new, hlink.cons hgrew hpre, ?_, fun _ _ => List.cons_ne_nil t new, ?_⟩
        · refine List.forall_mem_cons.2 ⟨?_, hof⟩
          dsimp only
          rw [hqtd]
          exact bulkQtd_ofUtr ep qh dataLen buff v _
        dsimp only
        split
        · rename_i hdone
          rw [if_pos hdone] at hres
          have hxfer : (BitVec.ofNat 32 (bulkLen dataLen)).toNat = bulkLen dataLen := by
            rw [BitVec.toNat_ofNat]
            omega
          rw [Covers, hqtd]
          refine ⟨bulkQtd_right hmps ep qh buff (Qtd.zero v) (covers_head hres), ?_, ?_, ?_⟩
          · exact hxfer.symm ▸ hlenpos
          · exact hxfer.symm ▸ hle.1
          · exact hxfer.symm ▸ hres
        · rename_i hfail
          rwa [if_neg hfail] at hres

end

/-! ## The submission -/

section

variable {E : Nat → EpInfo} {s s' : Ehci} {v dev i : Nat} {qh : Unit64}

theorem covers_congr (hqtd : s'.qtd = s.qtd) {ep : EpInfo} {mps : Nat} {ts : List Unit64} {buff : BitVec 32} {len : Nat} :
    Covers s' ep mps ts buff len ↔ Covers s ep mps ts buff len := by
  induction ts generalizing buff len with
  | nil => exact Iff.rfl
  | cons t rest ih => rw [Covers, Covers, hqtd, ih]

/-- A queue head that has qTDs is given to the controller. -/
theorem ehciBulkLink_cons {t : Unit64} {rest : List Unit64} (h : (s.qh qh).qtdList = t :: rest) (i : Nat)
    (isNewQh : Bool) : ∃ s', ehciBulkLink s i qh isNewQh = .ok (0, s') ∧ s'.qtd = s.qtd ∧ s'.hwPipe = s.hwPipe ∧
      s'.asyncList = (if isNewQh then qh :: s.asyncList else s.asyncList) ∧ s'.asen = true ∧
      (s'.qh qh).qtdList = t :: rest ∧ (s'.qh qh).olNextQtd = .unit t := by
  rw [ehciBulkLink, h]
  cases isNewQh with
  | true => exact ⟨_, rfl, rfl, rfl, rfl, rfl, by simpa [Ehci.setQh] using h, by simp [Ehci.setQh]⟩
  | false => exact ⟨_, rfl, rfl, rfl, rfl, rfl, by simpa [Ehci.setQh] using h, by simp [Ehci.setQh]⟩

/-- Units are given back. -/
theorem foldl_free (ts : List Unit64) (s : Ehci) : ts.foldl Ehci.free s = { s with
    pool := { s.pool with
      unitUsed := fun u => s.pool.unitUsed u && !decide (u ∈ ts)
      memPoolUsed := s.pool.memPoolUsed - ts.length } } := by
  induction ts generalizing s with
  | nil => simp
  | cons t ts ih =>
    rw [List.foldl_cons, ih]
    simp only [Ehci.free, MemPool.give, List.length_cons, Nat.cast_add, Nat.cast_one, Ehci.mk.injEq, MemPool.mk.injEq,
      and_true]
    refine ⟨funext fun u => ?_, by omega⟩
    by_cases hu : u = t <;> simp [hu]

/-- What a submission makes ready before its qTDs: the queue head of the endpoint, empty. A new one was free. -/
structure BulkReady (s s₁ : Ehci) (i : Nat) (qh : Unit64) (isNewQh : Bool) : Prop where
  new : isNewQh = true ↔ s.hwPipe (.ep i) = none
  utr : s₁.utr = s.utr
  empty : (s₁.qh qh).qtdList = []
  hwPipe : s₁.hwPipe (.ep i) = some qh
  others : ∀ e, e ≠ .ep i → s₁.hwPipe e = s.hwPipe e
  kept : isNewQh = false → s₁ = s
  asyncList : s₁.asyncList = s.asyncList
  asen : s₁.asen = s.asen
  qtd : s₁.qtd = s.qtd
  qh : ∀ q, s.pool.unitUsed q = true → s₁.qh q = s.qh q
  used : ∀ u, s.pool.unitUsed u = true → s₁.pool.unitUsed u = true

/-- A queue head without qTDs gets those of the buffer, when there are any. -/
theorem ehciBulkStart_right {s₁ : Ehci} {isNewQh : Bool} (hmps : (E i).wMaxPacketSize.toNat ∣ 0x4000)
    (hready : BulkReady s s₁ i qh isNewQh) (hlen : 0 < (s.utr v).dataLen.toNat) :
    BulkChainRight E s v i (ehciBulkStart E s₁ v i qh isNewQh) := by
  obtain ⟨new, hgrew, -, -, hres⟩ := bulkLoop_spec hmps (E i) v qh (s₁.utr v).dataLen.toNat (s₁.utr v).dataLen.isLt
    (s₁.utr v).buff none s₁ (fun p hp => by cases hp)
  rw [ehciBulkStart]
  rcases hloop : bulkLoop (E i) v qh (s₁.utr v).dataLen.toNat (s₁.utr v).buff none s₁ with ⟨done, s₂⟩
  rw [hloop] at hgrew hres
  have hsame : s₂.asyncList = s₁.asyncList ∧ s₂.asen = s₁.asen ∧ s₂.hwPipe = s₁.hwPipe := by
    rw [← hgrew.rest]
    exact ⟨rfl, rfl, rfl⟩
  cases done with
  | false =>
    refine ⟨_, _, rfl, fun h => absurd h (by decide), fun _ => ?_⟩
    rw [foldl_free]
    have hold : ∀ q, s.pool.unitUsed q = true → s₂.qh q = { s.qh q with qtdList := (s₂.qh q).qtdList } := by
      intro q hq
      rw [← hready.qh q hq]
      by_cases heq : q = qh
      · rw [heq, hgrew.queue]
      · rw [hgrew.others q heq]
    have hqtds : ∀ t, s.pool.unitUsed t = true → s₂.qtd t = s.qtd t := by
      intro t ht
      have hnew : t ∉ new := by
        intro hnew
        have h := hready.used t ht
        rw [hgrew.fresh t hnew] at h
        cases h
      rw [hgrew.kept t hnew (fun h => by cases h), hready.qtd]
    cases isNewQh with
    | false =>
      exact ⟨hsame.1.trans hready.asyncList, hsame.2.1.trans hready.asen,
        hsame.2.2.trans (congrArg Ehci.hwPipe (hready.kept rfl)), hold, hqtds⟩
    | true =>
      refine ⟨hsame.1.trans hready.asyncList, hsame.2.1.trans hready.asen, funext fun e => ?_, hold, hqtds⟩
      by_cases he : e = .ep i
      · rw [he, hready.new.1 rfl]
        exact Function.update_self ..
      · refine (Function.update_of_ne he ..).trans ?_
        change s₂.hwPipe e = s.hwPipe e
        rw [hsame.2.2]
        exact hready.others e he
  | true =>
    rw [if_pos rfl] at hres
    have hqueue : (s₂.qh qh).qtdList = new := by
      rw [hgrew.queue, hready.empty, List.nil_append]
    rw [hready.utr] at hres
    cases new with
    | nil => exact absurd hres (Nat.ne_of_gt hlen)
    | cons t rest =>
      obtain ⟨s', hlink, hqtd, hpipe', hlist, hasen, hqueue', hfirst⟩ := ehciBulkLink_cons hqueue i isNewQh
      refine ⟨0, s', hlink, fun _ => ⟨qh, t, rest, ?_, ?_, hasen, hqueue', hfirst, (covers_congr hqtd).2 hres⟩,
        fun h => absurd rfl h⟩
      · rw [hpipe', hsame.2.2, hready.hwPipe]
      · rw [hlist, hsame.1, hready.asyncList]
        by_cases hnew : isNewQh = true
        · rw [if_pos hnew, if_pos (hready.new.1 hnew)]
        · rw [if_neg hnew, if_neg fun h => hnew (hready.new.2 h)]

theorem ehciBulkStart_none {s₁ : Ehci} {isNewQh : Bool} (hready : BulkReady s s₁ i qh isNewQh)
    (hlen : (s.utr v).dataLen.toNat = 0) : ¬ BulkChainRight E s v i (ehciBulkStart E s₁ v i qh isNewQh) := by
  have hloop : bulkLoop (E i) v qh (s₁.utr v).dataLen.toNat (s₁.utr v).buff none s₁ = (true, s₁) := by
    rw [hready.utr, hlen, bulkLoop, if_neg (Nat.lt_irrefl 0)]
  rintro ⟨ret, s', hr, hright, -⟩
  rw [ehciBulkStart, hloop] at hr
  simp only [ehciBulkLink, hready.empty] at hr
  cases isNewQh with
  | true => cases hr
  | false =>
    cases hr
    obtain ⟨q, t, rest, hstarted⟩ := hright rfl
    have hq : q = qh := Option.some.inj (hstarted.hwPipe.symm.trans hready.hwPipe)
    have hqueue := hstarted.queue
    subst hq
    simp [Ehci.setQh, hready.empty] at hqueue

end

/-- A new queue head is the endpoint's, and empty. -/
theorem ehciBulkXfer_new (E : Nat → EpInfo) (v dev i : Nat) {s₁ : Ehci} {r : Udev × Qh} (hpipe : s.hwPipe (.ep i) = none)
    (halloc : s.allocQh = (some qh, s₁)) (hreached : writeQh (s.udev dev) (some (E i)) = .ok r) :
    ∃ s₂, ehciBulkXfer E s v dev i = ehciBulkStart E s₂ v i qh true ∧ BulkReady s s₂ i qh true := by
  obtain ⟨_, w⟩ := r
  obtain ⟨-, hfree, rfl⟩ := allocQh_some halloc
  have hne : ∀ q, s.pool.unitUsed q = true → q ≠ qh := by
    rintro q hq rfl
    rw [hfree] at hq
    cases hq
  simp only [ehciBulkXfer, hpipe, halloc, hreached]
  refine ⟨_, rfl, ⟨fun _ => hpipe, fun _ => rfl⟩, rfl, by simp [Ehci.setQh, Ehci.setPipe, EhciQh.zero],
    Function.update_self .., fun e he => Function.update_of_ne he .., (fun h => by cases h), rfl, rfl, rfl, ?_, ?_⟩
  · intro q hq
    have h := hne q hq
    simp [Ehci.setQh, Ehci.setPipe, h]
  · intro u hu
    simp [Ehci.setQh, Ehci.setPipe, MemPool.take_unitUsed, hu]

/-- A bulk endpoint's packet size. -/
def bulkPacketSizes : List Nat := [8, 16, 32, 64, 512]

theorem bulkPacketSizes_dvd : ∀ n ∈ bulkPacketSizes, n ∣ 0x4000 := by decide

/-- A driver with nothing allocated, and a high-speed bulk endpoint with 512 bytes to go and with none. -/
def idleEhci (dataLen : BitVec 32) : Ehci where
  pool := .init
  qh _ := .zero
  qtd _ := .zero 0
  asyncList := []
  iqh _ := []
  removeList := []
  hwPipe _ := none
  toggle _ := false
  udev _ := { allocDevice with speed := .HIGH }
  utr _ :=
    { ep := .ep 0, bmRequestType := 0, setupAddr := 0, buff := 0x80000ff0#32, dataLen := dataLen, xferLen := 0,
      bIsoNewSched := false, isoSf := 0, isoXlen := fun _ => 0, isoBuff := fun _ => 0, isoStatus := fun _ => 0,
      tdCnt := 0, status := 0, bIsTransferDone := false, calls := 0 }
  asen := false
  psen := false
  iaad := false

@[inherit_doc idleEhci]
def bulkOut : EpInfo := ⟨0x02, 0x02, 0, 512⟩

theorem bulkOut_reached (dataLen : BitVec 32) :
    ∃ r, writeQh ((idleEhci dataLen).udev 0) (some bulkOut) = .ok r := ⟨_, rfl⟩

/-- A transfer of no bytes: the first qTD of the empty queue is used. -/
example :
    ¬ BulkChainRight (fun _ => bulkOut) (idleEhci 0) 0 0 (ehciBulkXfer (fun _ => bulkOut) (idleEhci 0) 0 0 0) := by
  obtain ⟨r, hreached⟩ := bulkOut_reached 0
  have hroom : (idleEhci 0).pool.allocEhci.1 ≠ none := by decide +kernel
  rcases halloc : (idleEhci 0).allocQh with ⟨o, s₁⟩
  cases o with
  | none => exact absurd (allocQh_none halloc).2 hroom
  | some qh =>
    obtain ⟨s₂, hxfer, hready⟩ := ehciBulkXfer_new (fun _ => bulkOut) 0 0 0 rfl halloc hreached
    rw [hxfer]
    exact ehciBulkStart_none hready rfl

end NumakerMA35D1.UsbHost

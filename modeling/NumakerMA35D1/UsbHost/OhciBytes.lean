import NumakerMA35D1.UsbHost.OhciSafe
import NumakerMA35D1.UsbHost.PipeXfer

/-!
# The bytes of an OHCI transfer

A TD encodes its bytes as a current and an end pointer, zero for none and for all moved alike. What a
control, bulk or interrupt transfer queues is right (`TransferRight`) when the TDs cover the buffer in
order, each in two pages at most, and `td_done` counts the bytes that were moved however the controller
retires them. `ohciTds_iff`: that is so exactly where the bytes fit the encoding (`BytesFit`); a bulk or
interrupt transfer of no bytes is counted as one byte.

Reference: `_ohci.c_`.
-/

namespace NumakerMA35D1.UsbHost

open Embedded

/-! ## What should be queued -/

/-- How many bytes a TD is for. -/
def TdBytes.size (b : TdBytes) : Nat := if b.cbp = 0 then 0 else (b.be - b.cbp + 1).toNat

/-- The first byte of a TD is in the page of the last one, or in the page before. -/
def TdBytes.TwoPages (b : TdBytes) : Prop :=
  b.cbp = 0 ∨ b.cbp.toNat / 4096 ≤ b.be.toNat / 4096 ∧ b.be.toNat / 4096 ≤ b.cbp.toNat / 4096 + 1

/-- TDs have the bytes of a buffer between them, each from where the one before it ends. -/
def TdsCover : List TdBytes → BitVec 32 → Nat → Prop
  | [], _, len => len = 0
  | b :: rest, buff, len =>
    (b.size = 0 ∨ b.cbp = buff) ∧ b.size ≤ len ∧ TdsCover rest (buff + BitVec.ofNat 32 b.size) (len - b.size)

/-- A TD that the controller retires after `moved` of its bytes. -/
structure Retirement where
  td : Td
  moved : Nat
  w : Retired

/-- The TD as the controller gives it back: with the pointer to the next byte, zero when all were
moved. -/
def Retirement.after (m : Retirement) : Td :=
  m.td.retire { m.w with
    cbp := if m.moved = m.td.bytes.size then 0 else m.td.cbp + BitVec.ofNat 32 m.moved }

/-- TDs as `td_done` takes them. -/
def Utr.retirements (q : Utr) (ms : List Retirement) : Utr :=
  ms.foldl (fun q m => (q.generalDone m.after).tdOff) q

/-- The bytes that were moved to or from the buffer. -/
def movedBytes (ms : List Retirement) : Nat :=
  ((ms.filter fun m => m.td.bytes.kind = .data).map Retirement.moved).sum

/-- The TDs queued for a request are right, for every way to retire them, in every order. -/
structure TransferRight (q : Utr) (tds : List Td) : Prop where
  cover : TdsCover ((tds.map Td.bytes).filter fun b => b.kind = .data) q.buff q.dataLen.toNat
  pages : ∀ td ∈ tds, td.bytes.TwoPages
  general : ∀ td ∈ tds, td.isIso = false
  count : ∀ (q' : Utr) (ms : List Retirement), (ms.map Retirement.td).Perm tds →
    (∀ m ∈ ms, m.moved ≤ m.td.bytes.size) →
    (q'.retirements ms).xferLen = q'.xferLen + BitVec.ofNat 32 (movedBytes ms)

/-- The bytes of a transfer fit what TDs encode. -/
def BytesFit (q : Utr) : Submission → Prop
  | .ctrl _ _ => q.dataLen = 0 ∨ q.buff ≠ 0 ∧ q.buff.toNat % 4096 + q.dataLen.toNat ≤ 8192
  | .bulk _ | .int _ => q.buff ≠ 0 ∧ q.dataLen ≠ 0
  | .iso _ => True

/-- The TDs of a request at an ED before its tail, in their order. -/
def QueuedTds (s : Ohci) (ed : Unit64) (v : Nat) (tds : List Unit64) : Prop :=
  ∃ all, Chain s.nextTD (s.ed ed).headP all ∧
    tds = all.filter fun t => (s.td t).utr = some v ∧ (s.ed ed).tailP ≠ some t

/-! ## One TD -/

section

variable {q : Utr} {td : Td} {b : TdBytes} {kind : TdKind} {buff len : BitVec 32} {n : Nat} {w : Retired}

theorem tdKind_iso : td.bytes.kind = .iso ↔ td.isIso = true := by
  rw [Td.bytes, tdKind, Td.isIso, decide_eq_true_iff]
  split
  · exact iff_of_true rfl ‹_›
  · split <;> exact iff_of_false (by rintro ⟨⟩) ‹_›

/-- The controller leaves the kind of a TD. -/
theorem retire_kind (td : Td) (w : Retired) : tdKind (td.retire w).info = tdKind td.info := by
  have hcc : ∀ cc : BitVec 4, (cc.setWidth 32 <<< 28) &&& TD_TYPE_Msk = 0 ∧
      (cc.setWidth 32 <<< 28) &&& TD_CTRL_DATA = 0 := by decide
  have htype : (td.retire w).info &&& TD_TYPE_Msk = td.info &&& TD_TYPE_Msk := by
    rw [Td.retire, BitVec.and_or_distrib_right, (hcc w.cc).1, BitVec.and_assoc]
    exact BitVec.or_zero
  have hdata : (td.retire w).info &&& TD_CTRL_DATA = td.info &&& TD_CTRL_DATA := by
    rw [Td.retire, BitVec.and_or_distrib_right, (hcc w.cc).2, BitVec.and_assoc]
    exact BitVec.or_zero
  rw [tdKind, tdKind, htype, hdata]

/-- What a TD adds to the count of its request. -/
theorem generalDone_xferLen (q : Utr) (td : Td) (h : tdKind td.info ≠ .iso) : (q.generalDone td).tdOff.xferLen =
    q.xferLen + if tdKind td.info = .data then td.moved else 0 := by
  have hoff : ∀ q : Utr, q.tdOff.xferLen = q.xferLen := by
    intro q
    rw [Utr.tdOff]
    split <;> rfl
  have hiso : td.info &&& TD_TYPE_Msk ≠ TD_TYPE_ISO := by
    intro hiso
    rw [tdKind, if_pos hiso] at h
    exact h rfl
  rw [hoff, tdKind, if_neg hiso, Utr.generalDone]
  by_cases hplain : td.info &&& TD_TYPE_Msk = TD_TYPE_CTRL ∧ td.info &&& TD_CTRL_DATA = 0
  · have hne : TdKind.plain ≠ .data := by decide
    rw [if_pos hplain, if_pos hplain, if_neg hne]
    split <;> exact (BitVec.add_zero q.xferLen).symm
  · rw [if_neg hplain, if_neg hplain, if_pos rfl]
    split <;> rfl

/-- The bytes of a TD are counted right, however it is retired. -/
def TdBytes.Exact (b : TdBytes) : Prop :=
  ∀ (td : Td) (w : Retired) (n : Nat), td.bytes = b → n ≤ b.size →
    (Retirement.after ⟨td, n, w⟩).moved = BitVec.ofNat 32 n

theorem TdBytes.of_size (kind : TdKind) (hlen : buff.toNat + len.toNat ≤ 2 ^ 32) (hbuff : buff ≠ 0) (h0 : len ≠ 0) :
    (TdBytes.of kind buff len).size = len.toNat := by
  rw [TdBytes.of, if_neg (not_or.2 ⟨hbuff, h0⟩), TdBytes.size, if_neg hbuff]
  congr 1
  change buff + len - 1 - buff + 1 = len
  bv_omega

/-- Bytes of a buffer with an address are counted right. -/
theorem TdBytes.of_exact (hlen : buff.toNat + len.toNat ≤ 2 ^ 32) (hbuff : buff ≠ 0) (h0 : len ≠ 0) :
    (TdBytes.of kind buff len).Exact := by
  intro td w n hb hn
  have hsize := TdBytes.of_size kind hlen hbuff h0
  rw [hsize] at hn
  have hcbp : td.cbp = buff ∧ td.be = buff + len - 1 ∧ td.buffStart = buff := by
    rw [TdBytes.of, if_neg (not_or.2 ⟨hbuff, h0⟩)] at hb
    have hcbp := congrArg TdBytes.cbp hb
    have hbe := congrArg TdBytes.be hb
    have hstart := congrArg TdBytes.buffStart hb
    exact ⟨hcbp, hbe, hstart⟩
  obtain ⟨hcbp, hbe, hstart⟩ := hcbp
  rw [Td.moved, Retirement.after, hb, hsize]
  simp only [Td.retire, hcbp, hbe, hstart]
  by_cases hall : n = len.toNat
  · rw [if_pos hall, if_pos rfl, hall, BitVec.ofNat_toNat, BitVec.setWidth_eq]
    bv_omega
  · have hne : buff + BitVec.ofNat 32 n ≠ 0 := by bv_omega
    rw [if_neg hall, if_neg hne]
    bv_omega

/-- Without an address or a length there are no bytes, and one is counted. -/
theorem TdBytes.of_dead (td : Td) (w : Retired) (h : buff = 0 ∨ len = 0) : (TdBytes.of kind buff len).size = 0 ∧
    (td.bytes = .of kind buff len → (Retirement.after ⟨td, 0, w⟩).moved = 1) := by
  rw [TdBytes.of, if_pos h]
  refine ⟨rfl, fun hb => ?_⟩
  have hbe := congrArg TdBytes.be hb
  have hstart := congrArg TdBytes.buffStart hb
  have hsize : td.bytes.size = 0 := by
    rw [hb]
    rfl
  change td.be = 0 at hbe
  change td.buffStart = 0 at hstart
  rw [Td.moved, Retirement.after, hsize]
  simp only [Td.retire, if_true, hbe, hstart]
  decide

theorem TdBytes.of_twoPages (hlen : buff.toNat + len.toNat ≤ 2 ^ 32) :
    (TdBytes.of kind buff len).TwoPages ↔
      buff = 0 ∨ len = 0 ∨ buff.toNat % 4096 + len.toNat ≤ 8192 := by
  by_cases hdead : buff = 0 ∨ len = 0
  · rw [TdBytes.of, if_pos hdead]
    refine iff_of_true (.inl rfl) ?_
    rcases hdead with h | h
    · exact .inl h
    · exact .inr (.inl h)
  · obtain ⟨hbuff, h0⟩ := not_or.1 hdead
    have hbe : (buff + len - 1).toNat = buff.toNat + len.toNat - 1 := by
      have hpos : 0 < len.toNat := by bv_omega
      bv_omega
    have hpos : 0 < len.toNat := by bv_omega
    rw [TdBytes.of, if_neg hdead, TdBytes.TwoPages]
    simp only [hbuff, h0, false_or, hbe]
    omega

/-- The port driver's count of a bulk transfer with one TD is what `td_done` makes of it. -/
theorem BulkRun.xferLen_td {x : BulkRun} (hohci : ¬ x.hc.IsEhci) (hseen : x.seen = true) (hbuff : buff ≠ 0)
    (hlen : buff.toNat + n < 2 ^ 32) (hb : td.bytes = .of .data buff (BitVec.ofNat 32 n)) {moved : Nat}
    (hmoved : moved ≤ n) (w : Retired) (q : Utr) :
    (q.generalDone (Retirement.after ⟨td, moved, w⟩)).tdOff.xferLen =
      q.xferLen + BitVec.ofNat 32 (x.xferLen n moved) := by
  have hkind : tdKind (Retirement.after ⟨td, moved, w⟩).info = .data := by
    refine (retire_kind td _).trans ?_
    have h := congrArg TdBytes.kind hb
    rw [TdBytes.of] at h
    split at h <;> exact h
  have hne : tdKind (Retirement.after ⟨td, moved, w⟩).info ≠ .iso := by
    rw [hkind]
    decide
  have hn : (BitVec.ofNat 32 n).toNat = n := Nat.mod_eq_of_lt (by omega)
  rw [generalDone_xferLen q _ hne, if_pos hkind, BulkRun.xferLen, if_neg (by simp [hseen]), if_neg hohci]
  by_cases h0 : n = 0
  · obtain rfl : moved = 0 := by omega
    subst h0
    rw [(TdBytes.of_dead td w (.inr rfl)).2 hb]
    rfl
  · have hne0 : BitVec.ofNat 32 n ≠ 0 := by
      intro h
      rw [h] at hn
      exact h0 hn.symm
    have hle : buff.toNat + (BitVec.ofNat 32 n).toNat ≤ 2 ^ 32 := by omega
    rw [if_neg h0, TdBytes.of_exact hle hbuff hne0 td w moved hb
      (by rw [TdBytes.of_size .data hle hbuff hne0, hn]; exact hmoved)]

/-! ## All TDs -/

/-- Where the TDs that count are exact, the count is right. -/
theorem retirements_xferLen {ms : List Retirement} (hiso : ∀ m ∈ ms, m.td.bytes.kind ≠ .iso)
    (hexact : ∀ m ∈ ms, m.td.bytes.kind = .data → m.td.bytes.Exact)
    (hmoved : ∀ m ∈ ms, m.moved ≤ m.td.bytes.size) (q : Utr) :
    (q.retirements ms).xferLen = q.xferLen + BitVec.ofNat 32 (movedBytes ms) := by
  induction ms generalizing q with
  | nil => exact (BitVec.add_zero _).symm
  | cons m ms ih =>
    have hm : m ∈ m :: ms := List.mem_cons_self ..
    have hkind : tdKind m.after.info = m.td.bytes.kind := retire_kind m.td _
    have hrest := ih (fun m' h => hiso m' (List.mem_cons_of_mem _ h))
      (fun m' h => hexact m' (List.mem_cons_of_mem _ h))
      (fun m' h => hmoved m' (List.mem_cons_of_mem _ h)) (q.generalDone m.after).tdOff
    have hone := generalDone_xferLen q m.after (by rw [hkind]; exact hiso m hm)
    change ((q.generalDone m.after).tdOff.retirements ms).xferLen = _
    rw [hrest, hone, hkind, movedBytes, movedBytes, List.filter_cons]
    by_cases hdata : m.td.bytes.kind = .data
    · have hmv := hexact m hm hdata m.td m.w m.moved rfl (hmoved m hm)
      rw [if_pos hdata, if_pos (decide_eq_true hdata), hmv, List.map_cons, List.sum_cons, BitVec.ofNat_add,
        BitVec.add_assoc]
    · have hzero : q.xferLen + 0 = q.xferLen := BitVec.add_zero q.xferLen
      rw [if_neg hdata, if_neg (by simp [hdata]), hzero]

/-- The bytes decide. -/
theorem TransferRight.of_bytes {tds : List Td}
    (hcover : TdsCover ((tds.map Td.bytes).filter fun b => b.kind = .data) q.buff q.dataLen.toNat)
    (h : ∀ b ∈ tds.map Td.bytes, b.kind ≠ .iso ∧ b.TwoPages ∧ (b.kind = .data → b.Exact)) :
    TransferRight q tds where
  cover := hcover
  pages td htd := (h _ (List.mem_map_of_mem htd)).2.1
  general td htd := by
    cases hiso : td.isIso with
    | false => rfl
    | true => exact absurd (tdKind_iso.2 hiso) (h _ (List.mem_map_of_mem htd)).1
  count q' ms hperm hmoved := by
    have hmem : ∀ m ∈ ms, m.td.bytes ∈ tds.map Td.bytes := by
      intro m hm
      exact List.mem_map_of_mem (hperm.mem_iff.1 (List.mem_map_of_mem hm))
    exact retirements_xferLen (fun m hm => (h _ (hmem m hm)).1) (fun m hm => (h _ (hmem m hm)).2.2) hmoved q'

/-- A transfer of one TD without bytes counts one. -/
theorem TransferRight.alive (h : TransferRight q [td]) (hb : td.bytes = .of .data buff len) :
    buff ≠ 0 ∧ len ≠ 0 := by
  by_contra hdead
  rw [not_and_or, not_not, not_not] at hdead
  let m : Retirement := ⟨td, 0, ⟨0, 0, 0, false⟩⟩
  have hcount := h.count q [m] (List.Perm.refl _) (fun m' hm => by
    rw [List.mem_singleton.1 hm]
    exact Nat.zero_le _)
  have hkind : td.bytes.kind = .data := by
    rw [hb, TdBytes.of]
    split <;> rfl
  have hkind' : tdKind m.after.info = .data := (retire_kind td _).trans hkind
  have hone := generalDone_xferLen q m.after (by rw [hkind']; decide)
  have hmoved : m.after.moved = 1 := (TdBytes.of_dead _ _ hdead).2 hb
  have hzero : movedBytes [m] = 0 := by
    rw [movedBytes, List.filter_cons, if_pos (decide_eq_true hkind)]
    rfl
  rw [hkind', if_pos rfl, hmoved] at hone
  rw [hzero] at hcount
  change (q.generalDone m.after).tdOff.xferLen = _ at hcount
  rw [hone] at hcount
  have hne : ∀ x : BitVec 32, x + 1 ≠ x + BitVec.ofNat 32 0 := by
    intro x hx
    bv_omega
  exact hne _ hcount

/-! ## Transfers -/

/-- The kind of a bulk TD. -/
theorem bulkTdInfo_kind (ep : EpInfo) : tdKind (bulkTdInfo ep) = .data := by
  rw [bulkTdInfo]
  split <;> decide

@[simp] theorem TdBytes.of_kind : (TdBytes.of kind buff len).kind = kind := by
  rw [TdBytes.of]
  split <;> rfl

/-- What writes a chunk. -/
theorem bulkContents_mem {info : BitVec 32} {fuel n : Nat} {buff : BitVec 32} {write : Td → Td}
    (h : write ∈ bulkContents info fuel buff n) :
    ∃ buff' len', write = fun td => writeTd td info buff' len' := by
  induction fuel generalizing buff n with
  | zero => cases h
  | succ fuel ih =>
    rw [bulkContents] at h
    rcases List.mem_cons.1 h with rfl | h
    · exact ⟨_, _, rfl⟩
    · by_cases hmore : n - (if n > 4096 then 4096 else n) > 0
      · rw [if_pos hmore] at h
        exact ih h
      · rw [if_neg hmore] at h
        cases h

/-- The bytes of the chunks of a buffer. -/
def chunkBytes (info : BitVec 32) (td : Td) (fuel : Nat) (buff : BitVec 32) (len : Nat) : List TdBytes :=
  (bulkContents info fuel buff len).map fun write => (write td).bytes

theorem chunkBytes_succ (info : BitVec 32) (td : Td) (fuel : Nat) (buff : BitVec 32) (len : Nat) :
    chunkBytes info td (fuel + 1) buff len =
      TdBytes.of (tdKind info) buff (BitVec.ofNat 32 (min len 4096)) ::
        if len ≤ 4096 then [] else chunkBytes info td fuel (buff + 4096) (len - 4096) := by
  rw [chunkBytes, bulkContents]
  by_cases hle : len ≤ 4096
  · have hn : ¬ len > 4096 := by omega
    rw [if_neg hn, Nat.sub_self, if_neg (Nat.lt_irrefl 0), if_pos hle, Nat.min_eq_left hle, List.map_singleton,
      writeTd_bytes]
  · have hn : len > 4096 := by omega
    have hmin : min len 4096 = 4096 := by omega
    rw [if_pos hn, if_pos (by omega), if_neg hle, hmin, List.map_cons, writeTd_bytes]
    rfl

/-- The chunks of a buffer with an address cover it. -/
theorem chunkBytes_right {info : BitVec 32} (hinfo : tdKind info = .data) (td : Td) {fuel n : Nat}
    {buff : BitVec 32} (hfuel : n ≤ 4096 * fuel) (hlen : buff.toNat + n ≤ 2 ^ 32) (hbuff : buff ≠ 0)
    (hpos : 0 < n) :
    TdsCover (chunkBytes info td fuel buff n) buff n ∧
      ∀ b ∈ chunkBytes info td fuel buff n, b.kind = .data ∧ b.TwoPages ∧ b.Exact := by
  induction fuel generalizing buff n with
  | zero => omega
  | succ fuel ih =>
    have hchunk : (BitVec.ofNat 32 (min n 4096)).toNat = min n 4096 := by
      rw [BitVec.toNat_ofNat]
      omega
    have hfits : buff.toNat + (BitVec.ofNat 32 (min n 4096)).toNat ≤ 2 ^ 32 := by
      rw [hchunk]
      omega
    have hne : BitVec.ofNat 32 (min n 4096) ≠ 0 := by
      intro h0
      rw [h0] at hchunk
      change 0 = _ at hchunk
      omega
    have hsize := TdBytes.of_size .data hfits hbuff hne
    rw [hchunk] at hsize
    have hfirst : (TdBytes.of .data buff (BitVec.ofNat 32 (min n 4096))).cbp = buff := by
      rw [TdBytes.of, if_neg (not_or.2 ⟨hbuff, hne⟩)]
    have hone : (TdBytes.of .data buff (BitVec.ofNat 32 (min n 4096))).TwoPages := by
      rw [TdBytes.of_twoPages hfits, hchunk]
      omega
    have hexact : (TdBytes.of .data buff (BitVec.ofNat 32 (min n 4096))).Exact :=
      TdBytes.of_exact hfits hbuff hne
    rw [chunkBytes_succ, hinfo]
    by_cases hle : n ≤ 4096
    · have hmin : min n 4096 = n := by omega
      rw [if_pos hle]
      refine ⟨⟨.inr hfirst, ?_, ?_⟩, fun b hb => ?_⟩
      · omega
      · change n - _ = 0
        omega
      · rw [List.mem_singleton.1 hb]
        exact ⟨TdBytes.of_kind, hone, hexact⟩
    · have hmin : min n 4096 = 4096 := by omega
      have hnext : (buff + 4096#32).toNat = buff.toNat + 4096 := by bv_omega
      have hrest : TdsCover (chunkBytes info td fuel (buff + 4096#32) (n - 4096)) (buff + 4096#32) (n - 4096) ∧
          ∀ b ∈ chunkBytes info td fuel (buff + 4096#32) (n - 4096), b.kind = .data ∧ b.TwoPages ∧ b.Exact :=
        ih (by omega) (by omega) (by bv_omega) (by omega)
      obtain ⟨hcover, hall⟩ := hrest
      rw [if_neg hle]
      refine ⟨⟨.inr hfirst, ?_, ?_⟩, fun b hb => ?_⟩
      · omega
      · rw [hsize, hmin]
        exact hcover
      · rcases List.mem_cons.1 hb with rfl | hb
        · exact ⟨TdBytes.of_kind, hone, hexact⟩
        · exact hall b hb

theorem tdsCover_cons {rest : List TdBytes} {len : Nat} : TdsCover (b :: rest) buff len ↔
    (b.size = 0 ∨ b.cbp = buff) ∧ b.size ≤ len ∧
      TdsCover rest (buff + BitVec.ofNat 32 b.size) (len - b.size) :=
  Iff.rfl

/-- Without an address the first chunk has no bytes, and the second one does not begin at the buffer. -/
theorem chunkBytes_null {info : BitVec 32} {td : Td} {fuel n : Nat} (hfuel : n ≤ 4096 * fuel)
    (hlen : n ≤ 2 ^ 32) (hpos : 0 < n) : ¬ TdsCover (chunkBytes info td fuel 0 n) 0 n := by
  cases fuel with
  | zero => omega
  | succ fuel =>
    have hsize : (TdBytes.of (tdKind info) 0 (BitVec.ofNat 32 (min n 4096))).size = 0 :=
      (TdBytes.of_dead td ⟨0, 0, 0, false⟩ (.inl rfl)).1
    rw [chunkBytes_succ, tdsCover_cons, hsize]
    rintro ⟨-, -, hrest⟩
    by_cases hle : n ≤ 4096
    · rw [if_pos hle] at hrest
      change n - 0 = 0 at hrest
      omega
    · cases fuel with
      | zero => omega
      | succ fuel =>
        have hnext : (0 : BitVec 32) + 4096 = 4096 := by decide
        rw [if_neg hle, chunkBytes_succ, hnext, tdsCover_cons] at hrest
        obtain ⟨hfirst, -, -⟩ := hrest
        have hchunk : (BitVec.ofNat 32 (min (n - 4096) 4096)).toNat = min (n - 4096) 4096 := by
          rw [BitVec.toNat_ofNat]
          omega
        have hne : BitVec.ofNat 32 (min (n - 4096) 4096) ≠ 0 := by
          intro h0
          rw [h0] at hchunk
          change 0 = _ at hchunk
          omega
        have hpage : (4096 : BitVec 32).toNat = 4096 := by decide
        have hfits : (4096 : BitVec 32).toNat + (BitVec.ofNat 32 (min (n - 4096) 4096)).toNat ≤ 2 ^ 32 := by
          rw [hchunk, hpage]
          omega
        have hlive : (TdBytes.of (tdKind info) 4096 (BitVec.ofNat 32 (min (n - 4096) 4096))).size =
            min (n - 4096) 4096 := by
          rw [TdBytes.of_size _ hfits (by decide) hne, hchunk]
        rcases hfirst with h0 | hcbp
        · rw [hlive] at h0
          omega
        · rw [TdBytes.of, if_neg (not_or.2 ⟨by decide, hne⟩)] at hcbp
          have hzero : (4096 : BitVec 32) ≠ 0 + BitVec.ofNat 32 0 := by decide
          exact hzero hcbp

/-- A TD without bytes covers nothing. -/
theorem TdsCover.single_dead (h : TdsCover [b] buff n) (hb : b.size = 0) : n = 0 := by
  obtain ⟨-, -, hrest⟩ := h
  rw [hb] at hrest
  exact hrest

theorem TdBytes.of_plain (hlen : buff.toNat + 8 ≤ 2 ^ 32) :
    (TdBytes.of .plain buff 8).kind ≠ .iso ∧ (TdBytes.of .plain buff 8).TwoPages := by
  have h8 : (8 : BitVec 32).toNat = 8 := by decide
  rw [TdBytes.of_kind, TdBytes.of_twoPages (by omega), h8]
  refine ⟨by decide, ?_⟩
  omega

/-- The data TD of a control transfer. -/
theorem ctrl_right {tds : List Td} (hw : tds.map Td.bytes = q.ctrlBytes)
    (hbuff : q.buff.toNat + q.dataLen.toNat ≤ 2 ^ 32) (hsetup : q.setupAddr.toNat + 8 ≤ 2 ^ 32) :
    TransferRight q tds ↔
      q.dataLen = 0 ∨ q.buff ≠ 0 ∧ q.buff.toNat % 4096 + q.dataLen.toNat ≤ 8192 := by
  have hplain : (TdBytes.of .plain 0 0).kind ≠ .iso ∧ (TdBytes.of .plain 0 0).TwoPages :=
    ⟨by decide, .inl rfl⟩
  have hsetup := TdBytes.of_plain hsetup
  by_cases h0 : q.dataLen = 0
  · have hnot : ¬ 0 < q.dataLen.toNat := by
      rw [h0]
      exact Nat.lt_irrefl 0
    rw [Utr.ctrlBytes, if_neg hnot, List.nil_append] at hw
    refine iff_of_true (.of_bytes ?_ fun b hb => ?_) (.inl h0)
    · rw [hw, h0, List.filter_cons, if_neg (by simp), List.filter_cons, if_neg (by simp)]
      rfl
    · rw [hw] at hb
      rcases List.mem_cons.1 hb with rfl | hb
      · exact ⟨hsetup.1, hsetup.2, fun h => by simp at h⟩
      · rw [List.mem_singleton.1 hb]
        exact ⟨hplain.1, hplain.2, fun h => by simp at h⟩
  · have hpos : 0 < q.dataLen.toNat := by bv_omega
    rw [Utr.ctrlBytes, if_pos hpos] at hw
    have hdata : (tds.map Td.bytes).filter (fun b => b.kind = .data) = [.of .data q.buff q.dataLen] := by
      rw [hw]
      simp
    rw [or_iff_right h0]
    constructor
    · intro h
      have hcover := h.cover
      rw [hdata] at hcover
      have haddr : q.buff ≠ 0 := by
        intro hnull
        have hsize := hcover.single_dead (TdBytes.of_dead (Td.zero none)
          ⟨0, 0, 0, false⟩ (.inl hnull)).1
        omega
      have hmem : TdBytes.of .data q.buff q.dataLen ∈ tds.map Td.bytes := by
        rw [hw]
        simp
      obtain ⟨td, htd, hbytes⟩ := List.mem_map.1 hmem
      have hpages := h.pages td htd
      rw [hbytes, TdBytes.of_twoPages hbuff] at hpages
      exact ⟨haddr, (hpages.resolve_left haddr).resolve_left h0⟩
    · rintro ⟨haddr, hfit⟩
      refine .of_bytes ?_ fun b hb => ?_
      · have hsize := TdBytes.of_size .data hbuff haddr h0
        rw [hdata, tdsCover_cons, hsize, Nat.sub_self]
        refine ⟨.inr ?_, Nat.le_refl _, rfl⟩
        rw [TdBytes.of, if_neg (not_or.2 ⟨haddr, h0⟩)]
      · rw [hw] at hb
        rcases List.mem_cons.1 hb with rfl | hb
        · exact ⟨hsetup.1, hsetup.2, fun h => by simp at h⟩
        rcases List.mem_cons.1 hb with rfl | hb
        · refine ⟨by simp, (TdBytes.of_twoPages hbuff).2 (.inr (.inr hfit)), fun _ => ?_⟩
          exact TdBytes.of_exact hbuff haddr h0
        · rw [List.mem_singleton.1 hb]
          exact ⟨hplain.1, hplain.2, fun h => by simp at h⟩

/-- The TD of an interrupt transfer. -/
theorem int_right {tds : List Td} (hw : tds.map Td.bytes = [.of .data q.buff q.dataLen])
    (hbuff : q.buff.toNat + q.dataLen.toNat ≤ 2 ^ 32) (h64 : q.dataLen.toNat ≤ 64) :
    TransferRight q tds ↔ q.buff ≠ 0 ∧ q.dataLen ≠ 0 := by
  have hdata : (tds.map Td.bytes).filter (fun b => b.kind = .data) = [.of .data q.buff q.dataLen] := by
    rw [hw]
    simp
  constructor
  · intro h
    obtain ⟨td, rfl, htd⟩ := List.map_eq_singleton_iff.1 hw
    exact h.alive htd
  · rintro ⟨haddr, h0⟩
    have hsize := TdBytes.of_size .data hbuff haddr h0
    refine .of_bytes ?_ fun b hb => ?_
    · rw [hdata, tdsCover_cons, hsize, Nat.sub_self]
      refine ⟨.inr ?_, Nat.le_refl _, rfl⟩
      rw [TdBytes.of, if_neg (not_or.2 ⟨haddr, h0⟩)]
    · rw [hw] at hb
      rw [List.mem_singleton.1 hb]
      refine ⟨by simp, (TdBytes.of_twoPages hbuff).2 (.inr (.inr ?_)), fun _ => ?_⟩
      · omega
      · exact TdBytes.of_exact hbuff haddr h0

/-- The chunks of a bulk transfer. -/
theorem bulk_right {tds : List Td} {info : BitVec 32} (hinfo : tdKind info = .data) {td : Td}
    (hw : tds.map Td.bytes = chunkBytes info td (q.dataLen.toNat / 4096 + 1) q.buff q.dataLen.toNat)
    (hbuff : q.buff.toNat + q.dataLen.toNat ≤ 2 ^ 32) :
    TransferRight q tds ↔ q.buff ≠ 0 ∧ q.dataLen ≠ 0 := by
  have hfuel : q.dataLen.toNat ≤ 4096 * (q.dataLen.toNat / 4096 + 1) := by omega
  have hkind : ∀ b ∈ tds.map Td.bytes, b.kind = .data := by
    intro b hb
    rw [hw, chunkBytes] at hb
    obtain ⟨write, hwrite, rfl⟩ := List.mem_map.1 hb
    obtain ⟨buff, n, rfl⟩ := bulkContents_mem hwrite
    rw [writeTd_bytes, TdBytes.of_kind, hinfo]
  have hdata : (tds.map Td.bytes).filter (fun b => b.kind = .data) = tds.map Td.bytes :=
    List.filter_eq_self.2 fun b hb => decide_eq_true (hkind b hb)
  by_cases h0 : q.dataLen = 0
  · refine iff_of_false (fun h => ?_) fun h => h.2 h0
    rw [h0, chunkBytes_succ, hinfo, if_pos (by decide)] at hw
    obtain ⟨td', rfl, htd⟩ := List.map_eq_singleton_iff.1 hw
    exact (h.alive htd).2 rfl
  · have hpos : 0 < q.dataLen.toNat := by bv_omega
    by_cases haddr : q.buff = 0
    · refine iff_of_false (fun h => ?_) fun h => h.1 haddr
      have hcover := h.cover
      rw [hdata, hw, haddr] at hcover
      exact chunkBytes_null hfuel (by omega) hpos hcover
    · obtain ⟨hcover, hall⟩ := chunkBytes_right hinfo td hfuel hbuff haddr hpos
      refine iff_of_true (.of_bytes ?_ fun b hb => ?_) ⟨haddr, h0⟩
      · rw [hdata, hw]
        exact hcover
      · rw [hw] at hb
        obtain ⟨hk, hpages, hexact⟩ := hall b hb
        exact ⟨by rw [hk]; decide, hpages, fun _ => hexact⟩

end

/-! ## What a submission queues -/

section

variable {E : Endpoints} {s s' : Ohci} {g g' : OhciLists} {v : Nat} {q : Utr} {e : EpRef} {ed : Unit64}
  {r : EdRole} {info : BitVec 32} {added : List Unit64} {bytes : List TdBytes} {sub : Submission}

/-- The TDs of a new request are those that were added. -/
theorem Accepted.queued (h : OhciSound s g) (hnew : s.utr v = none)
    (hacc : Accepted s s' g g' v q e ed r info added bytes) : QueuedTds s' ed v added := by
  obtain ⟨ts, new, hplaced, hts, -⟩ := hacc.placed
  obtain ⟨old, hchain⟩ := hacc.order
  have hall : old ++ added ++ (s'.ed ed).tailP.toList = ts := hchain.unique hplaced.chain
  have hnd := hchain.nodup
  obtain ⟨hnd', -, hdisj⟩ := List.nodup_append.1 hnd
  obtain ⟨-, -, hapart⟩ := List.nodup_append.1 hnd'
  have htail : ∀ t ∈ old ++ added, (s'.ed ed).tailP ≠ some t := by
    intro t ht htd
    exact hdisj t ht t (by rw [htd]; exact List.mem_singleton_self t) rfl
  -- the TDs of before are those of other requests
  have hold : ∀ t ∈ old, (s'.td t).utr ≠ some v := by
    intro t ht hv
    have htts : t ∈ ts := by
      rw [← hall]
      exact List.mem_append_left _ (List.mem_append_left _ ht)
    rcases (hts t).1 ⟨htts, htail t (List.mem_append_left _ ht)⟩ with hadd | ⟨-, hrole, hne⟩
    · exact hapart t ht t hadd rfl
    · rw [(hacc.kept t (.inr ⟨ed, hrole, hne⟩)).1] at hv
      obtain ⟨v', q', hv', hq'⟩ := h.named t _ hrole
      rw [hv] at hv'
      cases hv'
      rw [hnew] at hq'
      cases hq'
  refine ⟨_, hchain, ?_⟩
  have hnone : (old.filter fun t => (s'.td t).utr = some v ∧ (s'.ed ed).tailP ≠ some t) = [] := by
    rw [List.filter_eq_nil_iff]
    intro t ht
    simp [hold t ht]
  have hself : (added.filter fun t => (s'.td t).utr = some v ∧ (s'.ed ed).tailP ≠ some t) = added := by
    rw [List.filter_eq_self]
    intro t ht
    exact decide_eq_true ⟨(hacc.owned t ht).1, htail t (List.mem_append_right _ ht)⟩
  have hlast : ((s'.ed ed).tailP.toList.filter
      fun t => (s'.td t).utr = some v ∧ (s'.ed ed).tailP ≠ some t) = [] := by
    rw [List.filter_eq_nil_iff]
    intro t ht
    simp [Option.mem_toList.1 ht]
  rw [List.filter_append, List.filter_append, hnone, hself, hlast, List.append_nil]
  rfl

/-- The endpoint names the ED, except a new one for an isochronous transfer. -/
theorem Accepted.named (hfit : SubmissionFits E s sub) (hiso : ∀ i, sub ≠ .iso i)
    (hch : Chosen E s g sub.ep ed r info)
    (hacc : Accepted s s' g g' v q sub.ep ed r info added bytes) : s'.hwPipe sub.ep = some ed := by
  obtain ⟨ts, new, hplaced, -⟩ := hacc.placed
  rcases hplaced.pipe with hpipe | ⟨-, hnone, k, hk⟩
  · rw [hpipe, Function.update_self]
  · obtain ⟨hrole, -⟩ := hch.new hnone
    rw [hk] at hrole
    cases sub with
    | ctrl dev udev => cases hrole
    | bulk i =>
      rw [Submission.ep, roleOf, if_pos hfit.1] at hrole
      cases hrole
    | int i =>
      have hne : (E i).2.type ≠ 2#8 := by
        rw [hfit.1]
        decide
      rw [Submission.ep, roleOf, if_neg hne, if_pos hfit.1] at hrole
      cases hrole
    | iso i => exact absurd rfl (hiso i)

/-- What was written is right where it fits. -/
theorem Submission.Writes.right_iff {tds : List Td} (hw : sub.Writes E v q (tds.map Td.bytes))
    (hiso : ∀ i, sub ≠ .iso i) (h64 : ∀ i, sub = .int i → q.dataLen.toNat ≤ 64)
    (hbuff : q.buff.toNat + q.dataLen.toNat ≤ 2 ^ 32) (hsetup : q.setupAddr.toNat + 8 ≤ 2 ^ 32) :
    TransferRight q tds ↔ BytesFit q sub := by
  cases sub with
  | ctrl dev udev => exact ctrl_right hw hbuff hsetup
  | bulk i => exact bulk_right (bulkTdInfo_kind (E i).2) hw hbuff
  | int i => exact int_right hw hbuff (h64 i rfl)
  | iso i => exact absurd rfl (hiso i)

end

/-- **The TDs queued for a transfer are right exactly where its bytes fit.** In every state of a careful
run, for every control, bulk and interrupt transfer that is accepted and every buffer that does not
wrap. -/
theorem ohciTds_iff (E : Endpoints) (pool : MemPool) (s₀ s s' : Ohci) (labels : List OhciOp)
    (hinit : ohciInit pool = .ok s₀)
    (hrun : Run (where_ (OhciStep E) (CarefulOhci E)) s₀ labels s) (v : Nat) (q : Utr) (sub : Submission)
    (hfit : SubmissionFits E s sub) (hnew : s.utr v = none) (hiso : ∀ i, sub ≠ .iso i)
    (hbuff : q.buff.toNat + q.dataLen.toNat ≤ 2 ^ 32) (hsetup : q.setupAddr.toNat + 8 ≤ 2 ^ 32)
    (hok : ohciXfer E s v q sub = .ok (0, s')) :
    ∃ ed tds, s'.hwPipe sub.ep = some ed ∧ QueuedTds s' ed v tds ∧
      (TransferRight q (tds.map s'.td) ↔ BytesFit q sub) := by
  obtain ⟨⟨g, h⟩, -⟩ := ohci_sound hinit hrun
  obtain ⟨ret, s₁, hrun', hcase⟩ := ohciXfer_spec (u := q) (v := v) h.inv hfit
  rw [hok] at hrun'
  cases hrun'
  rcases hcase with ⟨-, ⟨hne, -⟩ | ⟨-, g', ed, r, info, added, bytes, hch, hw, hacc⟩⟩ | ⟨-, hout, -⟩
  · exact absurd rfl hne
  · have h64 : ∀ i, sub = .int i → q.dataLen.toNat ≤ 64 := by
      rintro i rfl
      by_contra hlong
      have hrefused : ohciIntXfer E s v q i = .ok (USBH_ERR_INVALID_PARAM, s) := if_pos (by omega)
      have heq := hrefused.symm.trans hok
      cases heq
    refine ⟨ed, added, hacc.named hfit hiso hch, hacc.queued h hnew, ?_⟩
    have hbytes : (added.map s'.td).map Td.bytes = bytes := by
      rw [List.map_map]
      exact hacc.written
    rw [← hbytes] at hw
    exact hw.right_iff hiso h64 hbuff hsetup
  · cases hout

theorem ohciTds_iff_eight : ∃ ed tds, intSubmitted.hwPipe (.ep 0) = some ed ∧
    QueuedTds intSubmitted ed 0 tds ∧
    (TransferRight eightBytes (tds.map intSubmitted.td) ↔ BytesFit eightBytes (.int 0)) :=
  ohciTds_iff oneEndpoint MemPool.init startOhci startOhci intSubmitted [] startOhci_eq Run.nil 0 eightBytes
    (.int 0) startOhci_fits rfl (by rintro _ ⟨⟩) (by decide) (by decide) intSubmitted_eq

end NumakerMA35D1.UsbHost

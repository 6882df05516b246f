import NumakerMA35D1.UsbHost.EhciIso

/-!
# The schedule of a siTD

A siTD has its start-splits and complete-splits in micro-frames of one frame. The driver writes the splits of
a new siTD from the packet's length and moves them on, a micro-frame at a time, until they miss those of the
siTDs in the frame that it finds: it finds the first one at most, for it clears the type of the link behind
that (`uframeMask_eq`).

`sitdSchedule_iff`: the schedule of a new siTD is right exactly when the siTDs of the frame miss each other,
and the new one, moved by the least number of micro-frames at which it misses the first of them, has room in
the frame and misses the others.

Reference: `_ehci_iso.c_`.
-/

namespace NumakerMA35D1.UsbHost

/-! ## What is in a frame -/

/-- The siTDs that the links from a word pass, up to the end. -/
inductive InFrame (link : BitVec 32 → BitVec 32) : BitVec 32 → BitVec 32 → Prop
  | here {w : BitVec 32} : w ≠ 0#32 → hlinkIsTerminated w = false → hlinkIsSitd w = true →
    InFrame link w (sitdPtr w)
  | there {w a : BitVec 32} : w ≠ 0#32 → hlinkIsTerminated w = false →
    InFrame link (link (sitdPtr w)) a → InFrame link w a

namespace SiTd

variable (t : SiTd)

/-- A start-split in a micro-frame. -/
def startsAt (v : Nat) : Bool := t.sched.getLsbD v

/-- A complete-split in a micro-frame. -/
def completesAt (v : Nat) : Bool := t.sched.getLsbD (8 + v)

/-- Reference: `ehci.h:226 SITD_XFER_IN`. -/
def isIn : Bool := t.chrst.getLsbD 31

/-- A split in a micro-frame; a siTD out has no complete-splits. -/
def Uses (v : Nat) : Prop := v < 8 ∧ (t.startsAt v = true ∨ t.isIn = true ∧ t.completesAt v = true)

/-- The number of start-splits. -/
def starts : Nat := (List.range 8).countP t.startsAt

end SiTd

/-- A siTD of the frame other than the one at `a`. -/
def Other (s : EhciIso) (frame : Nat) (a b : BitVec 32) : Prop :=
  InFrame s.link (s.pfList frame) b ∧ b ≠ a

/-- The siTDs of the frame miss each other. -/
def Apart (s : EhciIso) (frame : Nat) (a : BitVec 32) : Prop :=
  ∀ b c, Other s frame a b → Other s frame a c → b ≠ c → ∀ v, (s.sitd b).Uses v → ¬ (s.sitd c).Uses v

/-- A new siTD at `a` is written and its schedule adjusted. Reference: `_ehci_iso.c_:755`, `:763`, `:765`. -/
def newSitd (s : EhciIso) (udev : Udev) (hub : UdevInfo) (ep : EpInfo) (u : Utr) (fidx : Fin IF_PER_UTR)
    (frame rounds : Nat) (a : BitVec 32) : Option SiTd :=
  (writeSitdInfo udev hub ep u fidx).bind fun t =>
    s.ehciSitdAdjustSchedule rounds a { t with schedFrnidx := frame }

/-- The device sends. -/
def EpInfo.dirIn (ep : EpInfo) : Bool := decide (ep.bEndpointAddress &&& 0x80#8 = 0x80#8)

/-- There is a schedule; in it no two siTDs of the frame have a split in the same micro-frame, the new one
has the start-splits it was written with, and each complete-split that the packet needs follows. -/
structure ScheduleRight (s : EhciIso) (frame : Nat) (a : BitVec 32) (dirIn : Bool) (scnt : Nat)
    (written result : Option SiTd) : Prop where
  apart : Apart s frame a
  new : ∃ t₀ t, written = some t₀ ∧ result = some t ∧
    (∀ b, Other s frame a b → ∀ v, t.Uses v → ¬ (s.sitd b).Uses v) ∧
    0 < t.starts ∧ t.starts = t₀.starts ∧
    (dirIn = true → ∀ v < 8, t.startsAt v = true → ∀ j < scnt + 2,
      v + 2 + j < 8 ∧ t.completesAt (v + 2 + j) = true)

/-- The micro-frames of a packet's splits, moved by `k`. -/
def PlanUses (dirIn : Bool) (scnt k v : Nat) : Prop :=
  if dirIn then v = k ∨ (k + 2 ≤ v ∧ v < k + scnt + 4) else k ≤ v ∧ v < k + scnt

/-- The splits of a packet, moved by `k`, are in the frame; the table of masks has them. -/
def Room (dirIn : Bool) (scnt k : Nat) : Prop :=
  if dirIn then k + scnt + 4 ≤ 8 else 0 < scnt ∧ scnt ≤ 6 ∧ k + scnt ≤ 8

/-- The first descriptor of the frame is a siTD, not the one at `a`, with a split in the micro-frame. -/
def HeadUses (s : EhciIso) (frame : Nat) (a : BitVec 32) (v : Nat) : Prop :=
  (s.pfList frame ≠ 0#32 ∧ hlinkIsTerminated (s.pfList frame) = false ∧
    hlinkIsSitd (s.pfList frame) = true) ∧ sitdPtr (s.pfList frame) ≠ a ∧
  (s.sitd (sitdPtr (s.pfList frame))).Uses v

/-- The siTDs of the frame miss each other; moved by the least number of micro-frames at which they miss the
first of them, the splits of the packet have room and miss the others. -/
def ScheduleFits (s : EhciIso) (frame : Nat) (a : BitVec 32) (dirIn : Bool) (scnt : Nat) : Prop :=
  Apart s frame a ∧ ∃ k, Room dirIn scnt k ∧
    (∀ b, Other s frame a b → ∀ v, PlanUses dirIn scnt k v → ¬ (s.sitd b).Uses v) ∧
    ∀ j < k, ∃ v, PlanUses dirIn scnt j v ∧ HeadUses s frame a v

/-! ## The walk -/

variable {s : EhciIso} {frame : Nat} {a : BitVec 32}

/-- A link without its low bits is not one to a siTD. -/
theorem hlinkIsSitd_sitdPtr (x : BitVec 32) : hlinkIsSitd (sitdPtr x) = false := by
  have hzero : sitdPtr x &&& 0x6#32 = 0#32 := by
    rw [sitdPtr, BitVec.and_assoc]
    exact BitVec.and_zero
  rw [hlinkIsSitd, hzero]
  rfl

/-- The marks of a siTD. -/
def markOf (t : SiTd) : BitVec 32 :=
  if t.chrst &&& (1#32 <<< 31) = SITD_XFER_IN then (t.sched &&& 0xFF#32) ||| ((t.sched >>> 8) &&& 0xFF#32)
  else t.sched &&& 0xFF#32

/-- The walk marks the first siTD of the frame at most, and ends. -/
theorem uframeMask_eq (rounds : Nat) : s.uframeMask a (rounds + 2) (s.pfList frame) 0#32 = some
    (if (s.pfList frame ≠ 0#32 ∧ hlinkIsTerminated (s.pfList frame) = false ∧
        hlinkIsSitd (s.pfList frame) = true) ∧ sitdPtr (s.pfList frame) ≠ a
      then markOf (s.sitd (sitdPtr (s.pfList frame))) else 0#32) := by
  rw [EhciIso.uframeMask]
  split
  · next hlink =>
    dsimp only
    rw [EhciIso.uframeMask, if_neg fun h => by
      rw [hlinkIsSitd_sitdPtr] at h
      cases h.2.2]
    congr 1
    by_cases ha : sitdPtr (s.pfList frame) = a
    · rw [if_pos ha, if_neg fun h => h.2 ha]
    · rw [if_neg ha]
      refine Eq.trans ?_ (if_pos ⟨hlink, ha⟩).symm
      rw [markOf, BitVec.zero_or]
  · next hlink => rw [if_neg fun h => hlink h.1]

/-- The test of the direction reads one bit. -/
theorem chrst_in_iff (t : SiTd) : t.chrst &&& (1#32 <<< 31) = SITD_XFER_IN ↔ t.isIn = true := by
  have hbit : (1#32 <<< 31 : BitVec 32) = BitVec.twoPow 32 31 := rfl
  rw [SITD_XFER_IN, hbit, BitVec.and_twoPow, SiTd.isIn]
  split
  · next h => exact iff_of_true rfl h
  · next h => exact iff_of_false (by decide) h

/-- The bits of a byte's mask. -/
theorem getLsbD_ff (i : Nat) : (0xFF#32).getLsbD i = decide (i < 8) := by
  have hpow : (0xFF : Nat) = 2 ^ 8 - 1 := rfl
  rw [BitVec.getLsbD_ofNat, hpow, Nat.testBit_two_pow_sub_one]
  by_cases hi : i < 8
  · rw [decide_eq_true hi, decide_eq_true (by omega : i < 32)]
    rfl
  · rw [decide_eq_false hi, Bool.and_false]

/-- The bits of a mark are the micro-frames used. -/
theorem markOf_getLsbD (t : SiTd) (i : Nat) : (markOf t).getLsbD i = true ↔ t.Uses i := by
  rw [markOf, SiTd.Uses, SiTd.startsAt, SiTd.completesAt]
  by_cases hin : t.isIn = true
  · rw [if_pos ((chrst_in_iff t).2 hin), BitVec.getLsbD_or, BitVec.getLsbD_and, BitVec.getLsbD_and,
      BitVec.getLsbD_ushiftRight, getLsbD_ff]
    simp only [Bool.or_eq_true, Bool.and_eq_true, decide_eq_true_eq, hin, true_and]
    tauto
  · rw [if_neg fun h => hin ((chrst_in_iff t).1 h), BitVec.getLsbD_and, getLsbD_ff]
    simp only [Bool.and_eq_true, decide_eq_true_eq, hin]
    tauto

/-! ## The moves -/

/-- The splits moved on by `k` micro-frames; what leaves the low half is lost. -/
def shiftBy (k : Nat) (sched : BitVec 32) : BitVec 32 :=
  (sched &&& 0xFFFF0000#32) ||| ((sched <<< k) &&& 0xFFFF#32)

/-- The bits of the low half's mask. -/
theorem getLsbD_ffff (i : Nat) : (0xFFFF#32).getLsbD i = decide (i < 16) := by
  have hpow : (0xFFFF : Nat) = 2 ^ 16 - 1 := rfl
  rw [BitVec.getLsbD_ofNat, hpow, Nat.testBit_two_pow_sub_one]
  by_cases hi : i < 16
  · rw [decide_eq_true hi, decide_eq_true (by omega : i < 32)]
    rfl
  · rw [decide_eq_false hi, Bool.and_false]

/-- The bits of the high half's mask. -/
theorem getLsbD_ffff0000 (i : Nat) : (0xFFFF0000#32).getLsbD i = decide (16 ≤ i ∧ i < 32) := by
  have hnot : (0xFFFF0000#32) = ~~~0xFFFF#32 := rfl
  rw [hnot, BitVec.getLsbD_not, getLsbD_ffff]
  by_cases hi : i < 16
  · rw [decide_eq_true hi, decide_eq_false (by omega : ¬ (16 ≤ i ∧ i < 32)), Bool.not_true, Bool.and_false]
  · rw [decide_eq_false hi, Bool.not_false, Bool.and_true]
    exact decide_eq_decide.2 (by omega)

theorem shiftBy_low {k i : Nat} (hi : i < 16) (sched : BitVec 32) :
    (shiftBy k sched).getLsbD i = (decide (k ≤ i) && sched.getLsbD (i - k)) := by
  rw [shiftBy, BitVec.getLsbD_or, BitVec.getLsbD_and, BitVec.getLsbD_and, getLsbD_ffff, getLsbD_ffff0000,
    BitVec.getLsbD_shiftLeft, decide_eq_false (by omega : ¬ (16 ≤ i ∧ i < 32)), decide_eq_true hi,
    decide_eq_true (by omega : i < 32), Bool.and_false, Bool.false_or, Bool.and_true, Bool.true_and]
  by_cases hk : i < k
  · rw [decide_eq_true hk, decide_eq_false (by omega : ¬ k ≤ i)]
    rfl
  · rw [decide_eq_false hk, decide_eq_true (by omega : k ≤ i)]
    rfl

theorem shiftBy_high {k i : Nat} (hi : 16 ≤ i) (sched : BitVec 32) :
    (shiftBy k sched).getLsbD i = sched.getLsbD i := by
  rw [shiftBy, BitVec.getLsbD_or, BitVec.getLsbD_and, BitVec.getLsbD_and, getLsbD_ffff, getLsbD_ffff0000,
    decide_eq_false (by omega : ¬ i < 16), Bool.and_false, Bool.or_false]
  by_cases h : i < 32
  · rw [decide_eq_true ⟨hi, h⟩, Bool.and_true]
  · rw [BitVec.getLsbD_of_ge sched i (by omega), Bool.false_and]

/-- No move. -/
theorem shiftBy_zero (sched : BitVec 32) : shiftBy 0 sched = sched := by
  refine BitVec.eq_of_getLsbD_eq fun i hi => ?_
  by_cases h : i < 16
  · rw [shiftBy_low h, decide_eq_true (Nat.zero_le i), Bool.true_and, Nat.sub_zero]
  · exact shiftBy_high (by omega) sched

/-- One more move. -/
theorem shiftBy_succ (k : Nat) (sched : BitVec 32) :
    (shiftBy k sched &&& 0xFFFF0000#32) ||| ((shiftBy k sched <<< 1) &&& 0xFFFF#32) =
      shiftBy (k + 1) sched := by
  change shiftBy 1 (shiftBy k sched) = _
  refine BitVec.eq_of_getLsbD_eq fun i hi => ?_
  by_cases h : i < 16
  · rw [shiftBy_low h, shiftBy_low h, shiftBy_low (by omega : i - 1 < 16), Nat.sub_sub, Nat.add_comm 1 k]
    by_cases hk : k + 1 ≤ i
    · rw [decide_eq_true hk, decide_eq_true (by omega : 1 ≤ i), decide_eq_true (by omega : k ≤ i - 1)]
      rfl
    · rw [decide_eq_false hk, Bool.false_and]
      by_cases h1 : 1 ≤ i
      · rw [decide_eq_false (by omega : ¬ k ≤ i - 1), Bool.false_and, Bool.and_false]
      · rw [decide_eq_false h1, Bool.false_and]
  · rw [shiftBy_high (by omega), shiftBy_high (by omega), shiftBy_high (by omega)]

/-- The moves end with the first that misses the mask. -/
theorem shiftSched_shiftBy {mask sched : BitVec 32} {d k rounds : Nat} (hd : d < rounds)
    (hmiss : shiftBy (k + d) sched &&& mask = 0#32) :
    ∃ m, k ≤ m ∧ shiftSched mask rounds (shiftBy k sched) = some (shiftBy m sched) ∧
      shiftBy m sched &&& mask = 0#32 ∧ ∀ j, k ≤ j → j < m → shiftBy j sched &&& mask ≠ 0#32 := by
  induction d generalizing k rounds with
  | zero =>
    obtain ⟨n, rfl⟩ : ∃ n, rounds = n + 1 := ⟨rounds - 1, by omega⟩
    exact ⟨k, le_rfl, by rw [shiftSched, if_neg fun h => h hmiss], hmiss, fun j hj hm => by omega⟩
  | succ d ih =>
    obtain ⟨n, rfl⟩ : ∃ n, rounds = n + 1 := ⟨rounds - 1, by omega⟩
    by_cases hnow : shiftBy k sched &&& mask = 0#32
    · exact ⟨k, le_rfl, by rw [shiftSched, if_neg fun h => h hnow], hnow, fun j hj hm => by omega⟩
    · have hmiss' : shiftBy (k + 1 + d) sched &&& mask = 0#32 := by
        rwa [Nat.add_right_comm]
      obtain ⟨m, hm, hresult, hzero, hbefore⟩ := ih (by omega : d < n) hmiss'
      refine ⟨m, by omega, ?_, hzero, fun j hj hjm => ?_⟩
      · rw [shiftSched, if_pos hnow, shiftBy_succ]
        exact hresult
      · rcases Nat.eq_or_lt_of_le hj with rfl | hj
        · exact hnow
        · exact hbefore j hj hjm

/-- The marks of the first descriptor of the frame. -/
def headMark (s : EhciIso) (frame : Nat) (a : BitVec 32) : BitVec 32 :=
  if (s.pfList frame ≠ 0#32 ∧ hlinkIsTerminated (s.pfList frame) = false ∧
      hlinkIsSitd (s.pfList frame) = true) ∧ sitdPtr (s.pfList frame) ≠ a
    then markOf (s.sitd (sitdPtr (s.pfList frame))) else 0#32

theorem headMark_getLsbD (i : Nat) : (headMark s frame a).getLsbD i = true ↔ HeadUses s frame a i := by
  rw [headMark, HeadUses]
  split
  · next h =>
    rw [markOf_getLsbD]
    exact ⟨fun huse => ⟨h.1, h.2, huse⟩, fun huse => huse.2.2⟩
  · next h =>
    rw [BitVec.getLsbD_zero]
    exact ⟨fun hfalse => absurd hfalse Bool.false_ne_true, fun huse => absurd ⟨huse.1, huse.2.1⟩ h⟩

theorem HeadUses.lt {v : Nat} (h : HeadUses s frame a v) : v < 8 := h.2.2.1

/-- Splits miss a byte of marks, for starts and for completes, bit by bit. -/
theorem and_marks_eq_zero_iff {x mark : BitVec 32} (hmark : ∀ v, mark.getLsbD v = true → v < 8) :
    x &&& (mark ||| (mark <<< 8)) = 0#32 ↔
      ∀ v, mark.getLsbD v = true → x.getLsbD v = false ∧ x.getLsbD (8 + v) = false := by
  constructor
  · intro h v hv
    have hlt := hmark v hv
    have hbit : ∀ i, (x.getLsbD i && (mark.getLsbD i ||
        (decide (i < 32) && !decide (i < 8) && mark.getLsbD (i - 8)))) = false := by
      intro i
      have h' := congrArg (fun w => w.getLsbD i) h
      simpa only [BitVec.getLsbD_and, BitVec.getLsbD_or, BitVec.getLsbD_shiftLeft,
        BitVec.getLsbD_zero] using h'
    constructor
    · have h1 := hbit v
      rw [hv, Bool.true_or, Bool.and_true] at h1
      exact h1
    · have h2 := hbit (8 + v)
      rw [Nat.add_sub_cancel_left, hv, decide_eq_true (by omega : 8 + v < 32),
        decide_eq_false (by omega : ¬ 8 + v < 8)] at h2
      simpa using h2
  · intro h
    refine BitVec.eq_of_getLsbD_eq fun i hi => ?_
    rw [BitVec.getLsbD_and, BitVec.getLsbD_or, BitVec.getLsbD_shiftLeft, BitVec.getLsbD_zero]
    by_cases h1 : mark.getLsbD i = true
    · rw [(h i h1).1, Bool.false_and]
    · by_cases h2 : 8 ≤ i ∧ mark.getLsbD (i - 8) = true
      · have h3 := (h (i - 8) h2.2).2
        rw [Nat.add_sub_cancel' h2.1] at h3
        rw [h3, Bool.false_and]
      · rw [Bool.eq_false_iff.2 h1, Bool.false_or]
        rcases Nat.lt_or_ge i 8 with hlt | hge
        · simp [hlt]
        · rw [Bool.eq_false_iff.2 fun hm => h2 ⟨hge, hm⟩, Bool.and_false, Bool.and_false]

/-- A test of the driver: the splits, moved by `k`, meet the first descriptor of the frame. -/
def Meets (s : EhciIso) (frame : Nat) (a sched : BitVec 32) (k : Nat) : Prop :=
  ∃ v, HeadUses s frame a v ∧
    ((shiftBy k sched).getLsbD v = true ∨ (shiftBy k sched).getLsbD (8 + v) = true)

theorem and_headMark_ne_zero_iff (k : Nat) (sched : BitVec 32) :
    shiftBy k sched &&& (headMark s frame a ||| (headMark s frame a <<< 8)) ≠ 0#32 ↔
      Meets s frame a sched k := by
  rw [ne_eq, and_marks_eq_zero_iff fun v hv => ((headMark_getLsbD v).1 hv).lt, Meets]
  constructor
  · intro h
    by_contra hnone
    refine h fun v hv => ?_
    have huse := (headMark_getLsbD v).1 hv
    constructor
    · exact Bool.eq_false_iff.2 fun hb => hnone ⟨v, huse, .inl hb⟩
    · exact Bool.eq_false_iff.2 fun hb => hnone ⟨v, huse, .inr hb⟩
  · rintro ⟨v, huse, hb⟩ h
    obtain ⟨h1, h2⟩ := h v ((headMark_getLsbD v).2 huse)
    rcases hb with hb | hb
    · rw [h1] at hb
      cases hb
    · rw [h2] at hb
      cases hb

/-- After sixteen moves nothing is left to meet. -/
theorem not_meets_sixteen (sched : BitVec 32) : ¬ Meets s frame a sched 16 := by
  rintro ⟨v, huse, hb⟩
  have hv := huse.lt
  rw [shiftBy_low (by omega), shiftBy_low (by omega), decide_eq_false (by omega : ¬ 16 ≤ v),
    decide_eq_false (by omega : ¬ 16 ≤ 8 + v)] at hb
  rcases hb with hb | hb <;> cases hb

/-- The adjusted schedule: the splits move to the first place where they miss the first descriptor of the
frame. Reference: `_ehci_iso.c_:657 ehci_sitd_adjust_schedule`. -/
theorem ehciSitdAdjustSchedule_spec {rounds : Nat} (hrounds : 17 ≤ rounds) (new : SiTd)
    (hframe : new.schedFrnidx = frame) :
    ∃ k, s.ehciSitdAdjustSchedule rounds a new = some { new with sched := shiftBy k new.sched } ∧
      ¬ Meets s frame a new.sched k ∧ ∀ j < k, Meets s frame a new.sched j := by
  obtain ⟨n, rfl⟩ : ∃ n, rounds = n + 2 := ⟨rounds - 2, by omega⟩
  have hwalk : s.uframeMask a (n + 2) (s.pfList new.schedFrnidx) 0#32 = some (headMark s frame a) := by
    rw [hframe]
    exact uframeMask_eq n
  have hend : shiftBy (0 + 16) new.sched &&& (headMark s frame a ||| (headMark s frame a <<< 8)) = 0#32 := by
    by_contra hmeet
    exact not_meets_sixteen new.sched ((and_headMark_ne_zero_iff 16 new.sched).1 hmeet)
  obtain ⟨k, -, hshift, hmiss, hbefore⟩ := shiftSched_shiftBy (by omega : 16 < n + 2) hend
  rw [shiftBy_zero] at hshift
  have hnot : ¬ Meets s frame a new.sched k := fun h => (and_headMark_ne_zero_iff k new.sched).2 h hmiss
  have hall : ∀ j < k, Meets s frame a new.sched j := fun j hj =>
    (and_headMark_ne_zero_iff j new.sched).1 (hbefore j (Nat.zero_le j) hj)
  rw [EhciIso.ehciSitdAdjustSchedule, hwalk, Option.bind_some]
  dsimp only
  by_cases hmark : headMark s frame a ||| (headMark s frame a <<< 8) = 0#32
  · have hzero : k = 0 := by
      by_contra hk
      refine (hbefore 0 le_rfl (Nat.pos_of_ne_zero hk)) ?_
      rw [hmark]
      exact BitVec.and_zero
    subst hzero
    refine ⟨0, ?_, hnot, hall⟩
    rw [if_neg fun h => h hmark, shiftBy_zero]
  · refine ⟨k, ?_, hnot, hall⟩
    rw [if_pos hmark, hshift]
    rfl

/-! ## The splits of a packet -/

/-- The bits below a power of two. -/
theorem getLsbD_below {n i : Nat} (hn : n < 32) :
    ((1#32 <<< n) - 1#32).getLsbD i = decide (i < n) := by
  have hpow : 2 ^ n < 2 ^ 32 := Nat.pow_lt_pow_right (by decide) hn
  have hpos : 0 < 2 ^ n := Nat.two_pow_pos n
  have hshift : (1#32 <<< n).toNat = 2 ^ n := by
    rw [BitVec.toNat_shiftLeft, BitVec.toNat_ofNat, Nat.shiftLeft_eq]
    exact (congrArg (· % 2 ^ 32) (Nat.one_mul _)).trans (Nat.mod_eq_of_lt hpow)
  have heq : (1#32 <<< n) - 1#32 = BitVec.ofNat 32 (2 ^ n - 1) := by
    refine BitVec.eq_of_toNat_eq ?_
    rw [BitVec.toNat_sub, hshift, BitVec.toNat_ofNat, BitVec.toNat_ofNat]
    generalize 2 ^ n = m at hpow hpos
    omega
  rw [heq, BitVec.getLsbD_ofNat, Nat.testBit_two_pow_sub_one]
  by_cases hi : i < n
  · rw [decide_eq_true hi, decide_eq_true (by omega : i < 32)]
    rfl
  · rw [decide_eq_false hi, Bool.and_false]

/-- The micro-frames of the splits in the word that is written. -/
def SchedBit (dirIn : Bool) (scnt i : Nat) : Prop :=
  if dirIn then i = 0 ∨ (10 ≤ i ∧ i < 12 + scnt) else i < scnt

theorem sitdSched_bit {dirIn : Bool} {scnt i : Nat} {sched : BitVec 32}
    (h : sitdSched dirIn scnt = some sched) (hi : i < 32) :
    sched.getLsbD i = true ↔ SchedBit dirIn scnt i := by
  rw [sitdSched] at h
  rw [SchedBit]
  split at h
  · next hin =>
    rw [if_pos hin]
    split at h
    · next hn =>
      rw [← Option.some.inj h, BitVec.getLsbD_or, BitVec.getLsbD_shiftLeft, getLsbD_below hn,
        BitVec.getLsbD_one]
      simp only [hi, Bool.or_eq_true, Bool.and_eq_true, Bool.not_eq_true', decide_eq_true_eq,
        decide_eq_false_iff_not, true_and]
      omega
    · cases h
  · next hin =>
    rw [if_neg hin]
    split at h
    · cases h
    · next hzero =>
      obtain ⟨hlt, rfl⟩ := List.getElem?_eq_some_iff.1 h
      have hsix : scnt - 1 < 6 := hlt
      have hall : ∀ c : Fin 6, ∀ j : Fin 32, (sitdOutSmask.get c).getLsbD j = true ↔ j.val < c.val + 1 := by
        decide
      have hc : sitdOutSmask[scnt - 1].getLsbD i = true ↔ i < scnt - 1 + 1 := hall ⟨scnt - 1, hsix⟩ ⟨i, hi⟩
      refine hc.trans ?_
      omega

/-- A packet whose splits have room has a schedule. -/
theorem Room.sched {dirIn : Bool} {scnt k : Nat} (h : Room dirIn scnt k) :
    ∃ sched, sitdSched dirIn scnt = some sched := by
  rw [Room] at h
  rw [sitdSched]
  split at h
  · next hin => exact ⟨_, by rw [if_pos hin, if_pos (by omega)]⟩
  · next hin =>
    have hlt : scnt - 1 < sitdOutSmask.length := by
      show scnt - 1 < 6
      omega
    exact ⟨_, by rw [if_neg hin, if_neg (by omega), List.getElem?_eq_getElem hlt]⟩

theorem Room.of_le {dirIn : Bool} {scnt j k : Nat} (h : Room dirIn scnt k) (hj : j ≤ k) :
    Room dirIn scnt j := by
  rw [Room] at h ⊢
  split at h <;> simp_all <;> omega

theorem PlanUses.lt {dirIn : Bool} {scnt k v : Nat} (h : PlanUses dirIn scnt k v)
    (hroom : Room dirIn scnt k) : v < 8 := by
  rw [PlanUses] at h
  rw [Room] at hroom
  cases dirIn
  · simp only [Bool.false_eq_true, if_false] at h hroom
    omega
  · simp only [if_true] at h hroom
    omega

section
variable {dirIn : Bool} {scnt k v : Nat} {sched : BitVec 32}

/-- The start-splits after `k` moves. -/
theorem start_iff (hsched : sitdSched dirIn scnt = some sched) (hv : v < 8) :
    (shiftBy k sched).getLsbD v = true ↔ k ≤ v ∧ (if dirIn then v = k else v < k + scnt) := by
  rw [shiftBy_low (by omega), Bool.and_eq_true, decide_eq_true_eq,
    sitdSched_bit hsched (by omega : v - k < 32), SchedBit]
  cases dirIn
  · simp only [Bool.false_eq_true, if_false]
    omega
  · simp only [if_true]
    omega

/-- The complete-splits after `k` moves, while the splits have room. -/
theorem complete_iff (hsched : sitdSched dirIn scnt = some sched) (hroom : Room dirIn scnt k) (hv : v < 8) :
    (shiftBy k sched).getLsbD (8 + v) = true ↔ dirIn = true ∧ k + 2 ≤ v ∧ v < k + scnt + 4 := by
  rw [shiftBy_low (by omega), Bool.and_eq_true, decide_eq_true_eq,
    sitdSched_bit hsched (by omega : 8 + v - k < 32), SchedBit]
  rw [Room] at hroom
  cases dirIn
  · simp only [Bool.false_eq_true, if_false, false_and, iff_false] at hroom ⊢
    omega
  · simp only [if_true, true_and] at hroom ⊢
    omega

/-- The bits of the moved splits are their micro-frames. -/
theorem bits_iff_planUses (hsched : sitdSched dirIn scnt = some sched) (hroom : Room dirIn scnt k)
    (hv : v < 8) :
    (shiftBy k sched).getLsbD v = true ∨ (shiftBy k sched).getLsbD (8 + v) = true ↔
      PlanUses dirIn scnt k v := by
  rw [start_iff hsched hv, complete_iff hsched hroom hv, PlanUses]
  cases dirIn
  · simp only [Bool.false_eq_true, if_false, false_and, or_false]
  · simp only [if_true, true_and]
    omega

/-- The driver's test, while the splits have room. -/
theorem meets_iff (hsched : sitdSched dirIn scnt = some sched) (hroom : Room dirIn scnt k) :
    Meets s frame a sched k ↔ ∃ v, PlanUses dirIn scnt k v ∧ HeadUses s frame a v := by
  constructor
  · rintro ⟨v, huse, hb⟩
    exact ⟨v, (bits_iff_planUses hsched hroom huse.lt).1 hb, huse⟩
  · rintro ⟨v, hplan, huse⟩
    exact ⟨v, huse, (bits_iff_planUses hsched hroom huse.lt).2 hplan⟩

end

/-! ## The schedule -/

/-- The number of start-splits after `k` moves. -/
theorem starts_eq {dirIn : Bool} {scnt k : Nat} {sched : BitVec 32} {t : SiTd}
    (hsched : sitdSched dirIn scnt = some sched) (hk : k ≤ 16) (ht : t.sched = shiftBy k sched) :
    t.starts = if dirIn then (if k < 8 then 1 else 0) else min scnt (8 - k) := by
  have hstart : ∀ v < 8, t.startsAt v = true ↔ k ≤ v ∧ (if dirIn then v = k else v < k + scnt) := by
    intro v hv
    rw [SiTd.startsAt, ht]
    exact start_iff hsched hv
  cases dirIn
  · have hcount : ∀ c < 7, ∀ m < 17,
        (List.range 8).countP (fun v => decide (m ≤ v ∧ v < m + c)) = min c (8 - m) := by
      decide
    have hsix : scnt - 1 < 6 := by
      rw [sitdSched, if_neg Bool.false_ne_true] at hsched
      split at hsched
      · cases hsched
      · exact (List.getElem?_eq_some_iff.1 hsched).1
    rw [if_neg Bool.false_ne_true, SiTd.starts, ← hcount scnt (by omega) k (by omega)]
    refine List.countP_congr fun v hv => ?_
    rw [decide_eq_true_eq]
    exact hstart v (List.mem_range.1 hv)
  · have hcount : ∀ m < 17,
        (List.range 8).countP (fun v => decide (m ≤ v ∧ v = m)) = if m < 8 then 1 else 0 := by
      decide
    rw [if_pos rfl, SiTd.starts, ← hcount k (by omega)]
    refine List.countP_congr fun v hv => ?_
    rw [decide_eq_true_eq]
    exact hstart v (List.mem_range.1 hv)

/-- The descriptor of a packet has the splits that the packet needs, and its direction. -/
theorem writeSitdInfo_spec {udev : Udev} {hub : UdevInfo} {ep : EpInfo} {u : Utr} {fidx : Fin IF_PER_UTR}
    {t : SiTd} (h : writeSitdInfo udev hub ep u fidx = some t) :
    sitdSched ep.dirIn (splitCount (u.isoXlen fidx)) = some t.sched ∧
      (ep.dirIn = true → t.isIn = true) := by
  have hlast : ¬ fidx.val = IF_PER_UTR := Nat.ne_of_lt fidx.isLt
  rw [writeSitdInfo] at h
  obtain ⟨sched, hsched, rfl⟩ := Option.map_eq_some_iff.1 h
  refine ⟨?_, fun hin => ?_⟩
  · rw [if_neg hlast]
    exact hsched
  · rw [EpInfo.dirIn] at hin
    rw [SiTd.isIn]
    dsimp only
    rw [if_pos hin, BitVec.getLsbD_or]
    exact Bool.or_true _

section
variable {udev : Udev} {hub : UdevInfo} {ep : EpInfo} {u : Utr} {fidx : Fin IF_PER_UTR} {rounds : Nat}

/-- A new siTD where the packet has a schedule: its splits are moved to the first place where they miss the
first descriptor of the frame. -/
theorem newSitd_spec {t₀ : SiTd} (hrounds : 17 ≤ rounds) (ht₀ : writeSitdInfo udev hub ep u fidx = some t₀) :
    ∃ k ≤ 16, newSitd s udev hub ep u fidx frame rounds a =
        some { t₀ with schedFrnidx := frame, sched := shiftBy k t₀.sched } ∧
      ¬ Meets s frame a t₀.sched k ∧ ∀ j < k, Meets s frame a t₀.sched j := by
  obtain ⟨k, hresult, hmiss, hbefore⟩ := ehciSitdAdjustSchedule_spec (s := s) (a := a) hrounds
    { t₀ with schedFrnidx := frame } rfl
  refine ⟨k, ?_, ?_, hmiss, hbefore⟩
  · by_contra hk
    exact not_meets_sixteen t₀.sched (hbefore 16 (by omega))
  · rw [newSitd, ht₀, Option.bind_some, hresult]

/-- The micro-frames of the new siTD, while its splits have room. -/
theorem uses_iff_planUses {t : SiTd} {k v : Nat} {dirIn : Bool} {scnt : Nat} {sched : BitVec 32}
    (hsched : sitdSched dirIn scnt = some sched) (hroom : Room dirIn scnt k)
    (ht : t.sched = shiftBy k sched) (hin : dirIn = true → t.isIn = true) :
    t.Uses v ↔ PlanUses dirIn scnt k v := by
  constructor
  · rintro ⟨hv, hb⟩
    rw [SiTd.startsAt, SiTd.completesAt, ht] at hb
    exact (bits_iff_planUses hsched hroom hv).1 (hb.imp id And.right)
  · intro hplan
    have hv := hplan.lt hroom
    refine ⟨hv, ?_⟩
    rw [SiTd.startsAt, SiTd.completesAt, ht]
    rcases (bits_iff_planUses hsched hroom hv).2 hplan with hb | hb
    · exact .inl hb
    · exact .inr ⟨hin ((complete_iff hsched hroom hv).1 hb).1, hb⟩

/-- A siTD that keeps its start-splits, with its complete-splits behind them, has room. -/
theorem room_of_right {dirIn : Bool} {scnt k : Nat} {sched : BitVec 32} {t t₀ : SiTd} (hk : k ≤ 16)
    (hsched : sitdSched dirIn scnt = some sched) (ht₀ : t₀.sched = sched) (ht : t.sched = shiftBy k sched)
    (hpos : 0 < t.starts) (hkeep : t.starts = t₀.starts)
    (hcompletes : dirIn = true → ∀ v < 8, t.startsAt v = true → ∀ j < scnt + 2,
      v + 2 + j < 8 ∧ t.completesAt (v + 2 + j) = true) : Room dirIn scnt k := by
  have hstarts := starts_eq hsched hk ht
  have hstarts₀ := starts_eq hsched (Nat.zero_le 16) (by rw [ht₀, shiftBy_zero] : t₀.sched = shiftBy 0 sched)
  rw [Room]
  cases dirIn
  · rw [if_neg Bool.false_ne_true] at hstarts hstarts₀ ⊢
    have hsix : scnt - 1 < 6 := by
      rw [sitdSched, if_neg Bool.false_ne_true] at hsched
      split at hsched
      · cases hsched
      · exact (List.getElem?_eq_some_iff.1 hsched).1
    omega
  · rw [if_pos rfl] at hstarts ⊢
    have hk8 : k < 8 := by
      by_contra hge
      rw [if_neg hge] at hstarts
      omega
    have hstart : t.startsAt k = true := by
      rw [SiTd.startsAt, ht, start_iff hsched hk8]
      exact ⟨le_rfl, rfl⟩
    have hlast := (hcompletes rfl k hk8 hstart (scnt + 1) (by omega)).1
    omega

/-- A siTD whose splits have room keeps its start-splits, with its complete-splits behind them. -/
theorem right_of_room {dirIn : Bool} {scnt k : Nat} {sched : BitVec 32} {t t₀ : SiTd}
    (hsched : sitdSched dirIn scnt = some sched) (ht₀ : t₀.sched = sched) (ht : t.sched = shiftBy k sched)
    (hroom : Room dirIn scnt k) :
    0 < t.starts ∧ t.starts = t₀.starts ∧
      (dirIn = true → ∀ v < 8, t.startsAt v = true → ∀ j < scnt + 2,
        v + 2 + j < 8 ∧ t.completesAt (v + 2 + j) = true) := by
  have hroom' := hroom
  rw [Room] at hroom
  have hk : k ≤ 8 := by
    split at hroom <;> omega
  have hstarts := starts_eq hsched (by omega : k ≤ 16) ht
  have hstarts₀ := starts_eq hsched (Nat.zero_le 16) (by rw [ht₀, shiftBy_zero] : t₀.sched = shiftBy 0 sched)
  cases dirIn
  · rw [if_neg Bool.false_ne_true] at hstarts hstarts₀ hroom
    refine ⟨by omega, by omega, fun hin => absurd hin Bool.false_ne_true⟩
  · rw [if_pos rfl] at hstarts hstarts₀ hroom
    rw [if_pos (by omega)] at hstarts hstarts₀
    refine ⟨by omega, by omega, fun _ v hv hstart j hj => ?_⟩
    rw [SiTd.startsAt, ht, start_iff hsched hv, if_pos rfl] at hstart
    obtain ⟨-, rfl⟩ := hstart
    have hlt : v + 2 + j < 8 := by omega
    refine ⟨hlt, ?_⟩
    rw [SiTd.completesAt, ht, complete_iff hsched hroom' hlt]
    exact ⟨rfl, by omega, by omega⟩

/-- For every frame list, whatever siTDs its frames hold: a packet that can be written gets a schedule, and
the schedule is right exactly when the siTDs of the frame miss each other and the first place of the packet's
splits at which they miss the first of them has room and misses the others.
Reference: `_ehci_iso.c_:657 ehci_sitd_adjust_schedule`. -/
theorem sitdSchedule_iff (s : EhciIso) (udev : Udev) (hub : UdevInfo) (ep : EpInfo) (u : Utr)
    (fidx : Fin IF_PER_UTR) (frame rounds : Nat) (a : BitVec 32) (hrounds : 17 ≤ rounds) :
    (∀ t₀, writeSitdInfo udev hub ep u fidx = some t₀ →
      ∃ t, newSitd s udev hub ep u fidx frame rounds a = some t) ∧
    (ScheduleRight s frame a ep.dirIn (splitCount (u.isoXlen fidx)) (writeSitdInfo udev hub ep u fidx)
        (newSitd s udev hub ep u fidx frame rounds a) ↔
      ScheduleFits s frame a ep.dirIn (splitCount (u.isoXlen fidx))) := by
  constructor
  · intro t₀ ht₀
    obtain ⟨k, -, hresult, -⟩ := @newSitd_spec s frame a _ _ _ _ _ _ _ hrounds ht₀
    exact ⟨_, hresult⟩
  constructor
  · intro h
    obtain ⟨t₀, t, ht₀, ht, hmiss, hpos, hkeep, hcompletes⟩ := h.new
    obtain ⟨k, hk, hresult, -, hbefore⟩ := @newSitd_spec s frame a _ _ _ _ _ _ _ hrounds ht₀
    obtain ⟨hsched, hin⟩ := writeSitdInfo_spec ht₀
    rw [hresult] at ht
    obtain rfl := Option.some.inj ht
    have hroom := room_of_right hk hsched rfl rfl hpos hkeep hcompletes
    have huses : ∀ v, SiTd.Uses { t₀ with schedFrnidx := frame, sched := shiftBy k t₀.sched } v ↔
        PlanUses ep.dirIn (splitCount (u.isoXlen fidx)) k v := fun v =>
      uses_iff_planUses hsched hroom rfl hin
    refine ⟨h.apart, k, hroom, fun b hb v hplan => ?_, fun j hj => ?_⟩
    · exact hmiss b hb v ((huses v).2 hplan)
    · exact (meets_iff hsched (hroom.of_le (Nat.le_of_lt hj))).1 (hbefore j hj)
  · rintro ⟨hapart, k', hroom, hmiss, hhits⟩
    obtain ⟨sched, hsched⟩ := hroom.sched
    have hwritten : ∃ t₀, writeSitdInfo udev hub ep u fidx = some t₀ :=
      ⟨_, Option.map_eq_some_iff.2 ⟨sched, hsched, rfl⟩⟩
    obtain ⟨t₀, ht₀⟩ := hwritten
    obtain ⟨hsched, hin⟩ := writeSitdInfo_spec ht₀
    obtain ⟨k, hk, hresult, hnot, hbefore⟩ := @newSitd_spec s frame a _ _ _ _ _ _ _ hrounds ht₀
    have hle : k ≤ k' := by
      by_contra hlt
      obtain ⟨v, hplan, huse⟩ := (meets_iff hsched hroom).1 (hbefore k' (by omega))
      exact hmiss _ ⟨.here huse.1.1 huse.1.2.1 huse.1.2.2, huse.2.1⟩ v hplan huse.2.2
    have hge : k' ≤ k := by
      by_contra hlt
      exact hnot ((meets_iff hsched (hroom.of_le hle)).2 (hhits k (by omega)))
    obtain rfl : k = k' := by omega
    have huses : ∀ v, SiTd.Uses { t₀ with schedFrnidx := frame, sched := shiftBy k t₀.sched } v ↔
        PlanUses ep.dirIn (splitCount (u.isoXlen fidx)) k v := fun v =>
      uses_iff_planUses hsched hroom rfl hin
    refine ⟨hapart, t₀, _, ht₀, hresult, fun b hb v huse => ?_, right_of_room hsched rfl rfl hroom⟩
    exact hmiss b hb v ((huses v).1 huse)

end

/-- Frame 0 after two packets out of 188 bytes: the second is first in the frame, moved to micro-frame 1. -/
def twoPackets : EhciIso where
  pool := { unitUsed := fun i => decide (i.val < 2), memPoolUsed := 2, sidx := 1 }
  base := 0x80800000#32
  link a := if a = 0x80800100#32 then sitdHlnkSitd 0x80800000#32 else 1#32
  itd _ := ⟨⟨fun _ => 0#32⟩, fun _ => 0#32, 0#32, 0, 0#8, 0⟩
  sitd a := ⟨0x01000102#32, if a = 0x80800100#32 then 0x2#32 else 0x1#32, 0x00BC0080#32, 0x80010000#32,
    0x80011001#32, 1#32, 0, 0⟩
  pfList frame := if frame = 0 then sitdHlnkSitd 0x80800100#32 else 1#32
  isoEp := none
  ufindr := 0#32
  psen := true

/-- A device of full speed behind a hub. -/
def fullDevice : Udev :=
  { allocDevice with speed := .FULL, devNum := 2#8, portNum := 1#8, parents := [allocDevice.toUdevInfo] }

/-- An endpoint that receives a packet in each frame. -/
def frameEndpoint : EpInfo := ⟨0x01#8, 0x01#8, 1#8, 188#16⟩

/-- Packets that need one start-split. -/
def oneSplit : Utr where
  ep := .ep 0
  bmRequestType := 0#8
  setupAddr := 0#32
  buff := 0#32
  dataLen := 0#32
  xferLen := 0#32
  bIsoNewSched := true
  isoSf := 0#16
  isoXlen _ := 188#16
  isoBuff f := 0x80010000#32 + 0xBC#32 * BitVec.ofNat 32 f
  isoStatus _ := 0
  tdCnt := 0
  status := 0
  bIsTransferDone := false
  calls := 0

theorem sitdSchedule_iff_twoPackets :
    (∀ t₀, writeSitdInfo fullDevice allocDevice.toUdevInfo frameEndpoint oneSplit 0 = some t₀ →
      ∃ t, newSitd twoPackets fullDevice allocDevice.toUdevInfo frameEndpoint oneSplit 0 0 17
        0x80800200#32 = some t) ∧
    (ScheduleRight twoPackets 0 0x80800200#32 frameEndpoint.dirIn (splitCount (oneSplit.isoXlen 0))
        (writeSitdInfo fullDevice allocDevice.toUdevInfo frameEndpoint oneSplit 0)
        (newSitd twoPackets fullDevice allocDevice.toUdevInfo frameEndpoint oneSplit 0 0 17 0x80800200#32) ↔
      ScheduleFits twoPackets 0 0x80800200#32 frameEndpoint.dirIn (splitCount (oneSplit.isoXlen 0))) :=
  sitdSchedule_iff _ _ _ _ _ 0 0 17 _ (by decide)

/-- A third packet misses the first siTD of the frame, in micro-frame 1, and meets the one behind it. -/
theorem not_scheduleRight : ¬ ∀ (s : EhciIso) udev hub ep u (fidx : Fin IF_PER_UTR) frame rounds a,
    17 ≤ rounds → ScheduleRight s frame a ep.dirIn (splitCount (u.isoXlen fidx))
      (writeSitdInfo udev hub ep u fidx) (newSitd s udev hub ep u fidx frame rounds a) := by
  intro h
  obtain ⟨-, t₀, t, -, ht, hmiss, -⟩ := h twoPackets fullDevice allocDevice.toUdevInfo frameEndpoint oneSplit
    0 0 17 0x80800200#32 (by decide)
  have hsched : (newSitd twoPackets fullDevice allocDevice.toUdevInfo frameEndpoint oneSplit 0 0 17
      0x80800200#32).map SiTd.sched = some 1#32 := by
    decide +kernel
  rw [ht, Option.map_some] at hsched
  have huse : t.Uses 0 := by
    refine ⟨by decide, .inl ?_⟩
    rw [SiTd.startsAt, Option.some.inj hsched]
    rfl
  have hother : Other twoPackets 0 0x80800200#32 0x80800000#32 := by
    refine ⟨.there (w := sitdHlnkSitd 0x80800100#32) (by decide) (by decide) ?_, by decide⟩
    exact .here (w := sitdHlnkSitd 0x80800000#32) (by decide) (by decide) (by decide)
  exact hmiss _ hother 0 huse ⟨by decide, .inl (by decide)⟩

end NumakerMA35D1.UsbHost

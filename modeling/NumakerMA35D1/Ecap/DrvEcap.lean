import Mathlib.Data.List.Induction
import Mathlib.Data.Rat.Floor
import NumakerMA35D1.NuUtils.Bitutil

/-!
# The input capture driver

An ECAP port has three channels, each with a device of its own. One interrupt handler serves the port: it is
installed for the device of channel 0, and loops while its copy of the status word has a channel's flag.
Nothing in the loop changes that copy. A capture's device then reads the width of the pulse, from the count
of the capture before.

`ecap_iff`: the handler serves the flagged channels exactly when there is none (otherwise it does not end),
and the width of a pulse is right exactly when the count went up from the capture before, that count being
zero for the second capture ever.

Reference: `drv_ecap.c`, `nu_ecap.h`.
-/

namespace NumakerMA35D1.Ecap

/-- Reference: `drv_ecap.c:21 ECAP_CHANNEL_NUM`. -/
abbrev ECAP_CHANNEL_NUM : Nat := 3

/-- Reference: `drv_ecap.c:22 ECAP_CHANNEL_MSK`. -/
def ECAP_CHANNEL_MSK : BitVec 32 := (1#32 <<< 3) - 1#32

/-! ## The devices -/

/-- The nearest number with a significand of 24 bits, to even from the middle, as a conversion to `float`
rounds; for numbers below `2 ^ 25`. -/
def toFloat (n : Nat) : Nat :=
  if n < 2 ^ 24 then n
  else if n % 4 = 1 then n - 1
  else if n % 4 = 3 then n + 1
  else n

/-- A channel's device, `opened` where it has its ring buffer. A time of a tick is read as an exact number.
Reference: `drv_ecap.c:46 nu_ecap`. -/
structure NuEcap where
  u8Channel : Nat
  fUsPerTick : ℚ
  bfirstData : Bool
  u32CurrentCnt : BitVec 32
  u32LastCnt : BitVec 32
  inputDataLevel : Bool
  opened : Bool

namespace NuEcap

variable (d : NuEcap)

/-- The ticks of a pulse. Reference: `drv_ecap.c:152` to `:155`. -/
def fTempCnt : Nat :=
  if d.u32LastCnt < d.u32CurrentCnt then toFloat (d.u32CurrentCnt - d.u32LastCnt).toNat
  else toFloat (d.u32CurrentCnt + ((0x1000000#32 - d.u32LastCnt) + 1#32)).toNat

/-- The ticks of a pulse with its microseconds, none for the first data. Reference:
`drv_ecap.c:137 nu_ecap_get_pulsewidth`. -/
def nuEcapGetPulsewidth : Option (Nat × Int) × NuEcap :=
  if d.bfirstData then (none, { d with bfirstData := false })
  else (some (d.fTempCnt, ⌊(d.fTempCnt : ℚ) * d.fUsPerTick⌋),
    { d with u32LastCnt := d.u32CurrentCnt })

/-- A capture of a count. Reference: `drv_ecap.c:128`, `:130`. -/
def captured (level : Bool) (count : BitVec 32) : NuEcap :=
  { d with inputDataLevel := level, u32CurrentCnt := count }

/-- The framework reads the width and puts it into the ring buffer, which must be there.
Reference: `rt_inputcapture.c:174 rt_hw_inputcapture_isr`. -/
def rtHwInputcaptureIsr : Option NuEcap :=
  match d.nuEcapGetPulsewidth.1 with
  | none => some d.nuEcapGetPulsewidth.2
  | some _ => if d.opened then some d.nuEcapGetPulsewidth.2 else none

end NuEcap

/-! ## The handler -/

/-- A port: its status word, the held count of each channel, the devices of its channels, and the calls of
the framework so far, each with the channel, the level and the count it is for. -/
structure EcapPort where
  STATUS : BitVec 32
  HLD : Nat → BitVec 32
  dev : Fin ECAP_CHANNEL_NUM → NuEcap
  calls : List (Fin ECAP_CHANNEL_NUM × Bool × BitVec 32)

/-- Reference: `nu_ecap.h:394 ECAP_CLR_CAPTURE_FLAG`. -/
def EcapPort.clrCaptureFlag (s : EcapPort) (channel : Nat) : EcapPort :=
  { s with STATUS := s.STATUS &&& ~~~(1#32 <<< channel) }

/-- Reference: `drv_ecap.c:73 NU_ECAP_GET_LEVEL`. -/
def nuEcapGetLevel (status : BitVec 32) (channel : Nat) : Bool := status.getLsbD (8 + channel)

/-- A pass of the handler's loop for the device it was installed for, none where the framework stops.
Reference: `drv_ecap.c:123` to `:133`. -/
def isrPass (param : Fin ECAP_CHANNEL_NUM) (u32Status : BitVec 32) (s : EcapPort) : Option EcapPort :=
  let channel := (s.dev param).u8Channel
  if u32Status.getLsbD channel then
    let s := s.clrCaptureFlag channel
    let level := nuEcapGetLevel u32Status channel
    let d := (s.dev param).captured level (s.HLD channel)
    d.rtHwInputcaptureIsr.map fun d =>
      { s with dev := Function.update s.dev param d, calls := s.calls ++ [(param, level, s.HLD channel)] }
  else some s

/-- The handler's loop, none where its rounds run out. Reference: `drv_ecap.c:121`. -/
def isrLoop (param : Fin ECAP_CHANNEL_NUM) (u32Status u32ChStatus : BitVec 32) :
    (rounds : Nat) → EcapPort → Option EcapPort
  | 0, _ => none
  | rounds + 1, s =>
    if nuCtz u32ChStatus < ECAP_CHANNEL_NUM then
      (isrPass param u32Status s).bind (isrLoop param u32Status u32ChStatus rounds)
    else some s

/-- Reference: `drv_ecap.c:108 nu_ecap_isr`. -/
def nuEcapIsr (rounds : Nat) (param : Fin ECAP_CHANNEL_NUM) (s : EcapPort) : Option EcapPort :=
  isrLoop param s.STATUS (s.STATUS &&& ECAP_CHANNEL_MSK) rounds s

/-- The device of a channel before its first capture. Reference: `drv_ecap.c:259 rt_hw_ecap_init`. -/
def rtHwEcapInit (i : Nat) (fUsPerTick : ℚ) (opened : Bool) : NuEcap where
  u8Channel := i % ECAP_CHANNEL_NUM
  fUsPerTick := fUsPerTick
  bfirstData := true
  u32CurrentCnt := 0
  u32LastCnt := 0
  inputDataLevel := false
  opened := opened

/-! ## Specification -/

/-- A flagged channel. -/
def EcapPort.Flagged (s : EcapPort) (channel : Fin ECAP_CHANNEL_NUM) : Prop :=
  s.STATUS.getLsbD channel = true

instance (s : EcapPort) (channel : Fin ECAP_CHANNEL_NUM) : Decidable (s.Flagged channel) :=
  inferInstanceAs (Decidable (_ = true))

/-- The handler ends; then no channel is flagged, each flagged channel's device has been called once with the
level and the count of its channel, which it holds, and no other device has been called or changed. -/
def IsrRight (s : EcapPort) (param : Fin ECAP_CHANNEL_NUM) : Prop :=
  ∃ rounds s', nuEcapIsr rounds param s = some s' ∧ (∀ c, ¬ s'.Flagged c) ∧
    (∃ calls, s'.calls = s.calls ++ calls ∧
      calls.Perm (((List.finRange ECAP_CHANNEL_NUM).filter fun c => s.Flagged c).map fun c =>
        (c, nuEcapGetLevel s.STATUS c, s.HLD c))) ∧
    ∀ c, if s.Flagged c then
      (s'.dev c).inputDataLevel = nuEcapGetLevel s.STATUS c ∧ (s'.dev c).u32CurrentCnt = s.HLD c
      else s'.dev c = s.dev c

/-- A device after captures of some counts, the width read after each. -/
def afterCaptures (d : NuEcap) (counts : List (BitVec 24)) : NuEcap :=
  counts.foldl (fun d count => (d.captured d.inputDataLevel (count.setWidth 32)).nuEcapGetPulsewidth.2) d

/-- The width read at the capture of `current`, after captures of which `last` is the last: the ticks from
one to the other. -/
def WidthRight (d : NuEcap) (counts : List (BitVec 24)) (last current : BitVec 24) : Prop :=
  ∃ us, ((afterCaptures d (counts ++ [last])).captured d.inputDataLevel
    (current.setWidth 32)).nuEcapGetPulsewidth.1 = some ((current - last).toNat, us)

/-! ## The handler -/

variable {s : EcapPort} {param : Fin ECAP_CHANNEL_NUM}

/-- A flag of the copy keeps the loop going. -/
theorem isrLoop_flagged {u32Status u32ChStatus : BitVec 32} (h : nuCtz u32ChStatus < ECAP_CHANNEL_NUM)
    (rounds : Nat) : isrLoop param u32Status u32ChStatus rounds s = none := by
  induction rounds generalizing s with
  | zero => rfl
  | succ rounds ih =>
    rw [isrLoop, if_pos h]
    cases isrPass param u32Status s with
    | none => rfl
    | some s' => exact ih

theorem getLsbD_channels (i : Nat) :
    (s.STATUS &&& ECAP_CHANNEL_MSK).getLsbD i = (s.STATUS.getLsbD i && decide (i < 3)) := by
  have hmask : ∀ j : Fin 32, ECAP_CHANNEL_MSK.getLsbD j = decide (j.val < 3) := by decide
  rw [BitVec.getLsbD_and]
  rcases Nat.lt_or_ge i 32 with hi | hi
  · rw [hmask ⟨i, hi⟩]
  · rw [BitVec.getLsbD_of_ge _ i hi, Bool.false_and, Bool.false_and]

/-- The handler serves the flagged channels exactly when there is none. -/
theorem isrRight_iff : IsrRight s param ↔ ∀ c, ¬ s.Flagged c := by
  constructor
  · rintro ⟨rounds, s', hrun, -⟩ c hflag
    have hbit : (s.STATUS &&& ECAP_CHANNEL_MSK).getLsbD c = true := by
      rw [getLsbD_channels, decide_eq_true c.isLt, Bool.and_true]
      exact hflag
    have hctz := Nat.lt_of_le_of_lt (nuCtz_le hbit) c.isLt
    rw [nuEcapIsr, isrLoop_flagged hctz] at hrun
    cases hrun
  · intro hnone
    have hzero : s.STATUS &&& ECAP_CHANNEL_MSK = 0#32 := by
      refine BitVec.eq_of_getLsbD_eq fun i _ => ?_
      rw [getLsbD_channels, BitVec.getLsbD_zero]
      by_cases hi : i < 3
      · rw [Bool.eq_false_iff.2 (hnone ⟨i, hi⟩), Bool.false_and]
      · rw [decide_eq_false hi, Bool.and_false]
    refine ⟨1, s, ?_, hnone, ⟨[], (List.append_nil _).symm, ?_⟩, fun c => ?_⟩
    · rw [nuEcapIsr, hzero, isrLoop, if_neg (by decide)]
    · rw [List.filter_eq_nil_iff.2 fun c _ => by simpa using hnone c]
      exact .nil
    · rw [if_neg (hnone c)]

/-! ## The width -/

variable {d : NuEcap}

/-- After captures the data is not the first any more, and the count is that of the last capture, or still
zero after the first. -/
theorem afterCaptures_spec (hfirst : d.bfirstData = true) (hlast : d.u32LastCnt = 0#32)
    (counts : List (BitVec 24)) (last : BitVec 24) :
    (afterCaptures d (counts ++ [last])).bfirstData = false ∧
      (afterCaptures d (counts ++ [last])).u32LastCnt = if counts = [] then 0#32 else last.setWidth 32 := by
  have hstep : ∀ cs c, afterCaptures d (cs ++ [c]) = ((afterCaptures d cs).captured
      (afterCaptures d cs).inputDataLevel (c.setWidth 32)).nuEcapGetPulsewidth.2 := by
    intro cs c
    rw [afterCaptures, List.foldl_append]
    rfl
  induction counts using List.reverseRecOn generalizing last with
  | nil =>
    rw [hstep, NuEcap.nuEcapGetPulsewidth, if_pos]
    · exact ⟨rfl, hlast⟩
    · exact hfirst
  | append_singleton counts c ih =>
    rw [hstep, NuEcap.nuEcapGetPulsewidth, if_neg, if_neg (List.append_ne_nil_of_right_ne_nil _ (by simp))]
    · exact ⟨(ih c).1, rfl⟩
    · intro htrue
      rw [NuEcap.captured] at htrue
      exact absurd ((ih c).1.symm.trans htrue) Bool.false_ne_true

/-- A width read from the count of the capture before, or from zero, is right exactly when it is read from
that count and the count went up. -/
theorem fTempCnt_iff {last current start : BitVec 24} (hd : d.u32LastCnt = start.setWidth 32)
    (hc : d.u32CurrentCnt = current.setWidth 32) (hstart : start = last ∨ start = 0#24) :
    d.fTempCnt = (current - last).toNat ↔ last < current ∧ start = last := by
  have hcur : current.toNat < 2 ^ 24 := current.isLt
  have hlast : last.toNat < 2 ^ 24 := last.isLt
  have hlt : start.toNat < 2 ^ 24 := start.isLt
  have h1 : (start.setWidth 32).toNat = start.toNat := by
    rw [BitVec.toNat_setWidth]
    exact Nat.mod_eq_of_lt (by omega)
  have h2 : (current.setWidth 32).toNat = current.toNat := by
    rw [BitVec.toNat_setWidth]
    exact Nat.mod_eq_of_lt (by omega)
  have hstart' : start.toNat = last.toNat ∨ start.toNat = 0 :=
    hstart.imp (congrArg BitVec.toNat) (congrArg BitVec.toNat)
  rw [← BitVec.toNat_inj, BitVec.lt_def, BitVec.toNat_sub, NuEcap.fTempCnt, hd, hc]
  by_cases hup : start.setWidth 32 < current.setWidth 32
  · have hup' : start.toNat < current.toNat := by
      rw [← h1, ← h2]
      exact hup
    have hticks : (current.setWidth 32 - start.setWidth 32).toNat = current.toNat - start.toNat := by
      rw [BitVec.toNat_sub, h1, h2]
      omega
    rw [if_pos hup, hticks, toFloat, if_pos (by omega)]
    omega
  · have hup' : ¬ start.toNat < current.toNat := by
      rw [← h1, ← h2]
      exact hup
    have hticks : (current.setWidth 32 + ((0x1000000#32 - start.setWidth 32) + 1#32)).toNat =
        current.toNat + (2 ^ 24 - start.toNat) + 1 := by
      rw [BitVec.toNat_add, BitVec.toNat_add, BitVec.toNat_sub, h1, h2, BitVec.toNat_ofNat,
        BitVec.toNat_ofNat]
      omega
    rw [if_neg hup, hticks, toFloat]
    split
    · omega
    · have hall : current.toNat + (2 ^ 24 - start.toNat) + 1 = 2 ^ 24 + 1 ∨
          current.toNat + (2 ^ 24 - start.toNat) + 1 = 2 ^ 24 := by
        omega
      rcases hall with h | h
      · rw [h, if_pos (by decide)]
        omega
      · rw [h, if_neg (by decide), if_neg (by decide)]
        omega

/-- For a device before its first capture, all counts before, and each two successive counts: the width read
is right exactly when the count went up, from zero at the second capture ever. -/
theorem widthRight_iff (hfirst : d.bfirstData = true) (hlast : d.u32LastCnt = 0#32)
    (counts : List (BitVec 24)) (last current : BitVec 24) :
    WidthRight d counts last current ↔ last < current ∧ (counts = [] → last = 0#24) := by
  obtain ⟨hmore, hcount⟩ := afterCaptures_spec hfirst hlast counts last
  have hticks : ∀ start : BitVec 24, (afterCaptures d (counts ++ [last])).u32LastCnt = start.setWidth 32 →
      (start = last ∨ start = 0#24) →
      (((afterCaptures d (counts ++ [last])).captured d.inputDataLevel (current.setWidth 32)).fTempCnt =
        (current - last).toNat ↔ last < current ∧ start = last) :=
    fun start hstart hwhich => fTempCnt_iff hstart rfl hwhich
  rw [WidthRight, NuEcap.nuEcapGetPulsewidth, if_neg]
  · simp only [Option.some.injEq, Prod.mk.injEq, exists_and_left, exists_eq', and_true]
    by_cases hnil : counts = []
    · rw [if_pos hnil] at hcount
      refine (hticks 0#24 hcount (.inr rfl)).trans ?_
      exact and_congr_right fun _ => ⟨fun h _ => h.symm, fun h => (h hnil).symm⟩
    · rw [if_neg hnil] at hcount
      refine (hticks last hcount (.inl rfl)).trans ?_
      exact and_congr_right fun _ => ⟨fun _ h => absurd h hnil, fun _ => rfl⟩
  · intro htrue
    exact Bool.false_ne_true (hmore.symm.trans htrue)

/-- For every port, whatever its status word, its devices and which of them are open, and the device that the
handler is installed for; and for every device of the driver and all counts it captures.
Reference: `drv_ecap.c:108 nu_ecap_isr`, `drv_ecap.c:137 nu_ecap_get_pulsewidth`. -/
theorem ecap_iff (s : EcapPort) (param : Fin ECAP_CHANNEL_NUM) (i : Nat) (fUsPerTick : ℚ) (opened : Bool)
    (counts : List (BitVec 24)) (last current : BitVec 24) :
    (IsrRight s param ↔ ∀ c, ¬ s.Flagged c) ∧
    (WidthRight (rtHwEcapInit i fUsPerTick opened) counts last current ↔
      last < current ∧ (counts = [] → last = 0#24)) :=
  ⟨isrRight_iff, widthRight_iff rfl rfl counts last current⟩

/-- A port whose channel 0 has captured. -/
def capturedPort : EcapPort where
  STATUS := 1#32
  HLD _ := 1000#32
  dev i := rtHwEcapInit i 1 true
  calls := []

/-- The handler does not end when a channel has captured. -/
theorem not_ecapRight : ¬ ((∀ s param, IsrRight s param) ∧
    ∀ i fUsPerTick opened counts last current,
      WidthRight (rtHwEcapInit i fUsPerTick opened) counts last current) := by
  rintro ⟨hisr, -⟩
  exact isrRight_iff.1 (hisr capturedPort 0) 0 (by decide)

end NumakerMA35D1.Ecap

import Mathlib.Data.List.Induction

/-!
# Touch panel samples of the ADC driver

The conversion interrupt reads a sample of the panel. A sample that touches goes to the message queue; one
that does not ends the sampling, and goes to the queue with its pressure cleared, a pen-up, when the sample
before did touch by the driver's memory of it.

`penUps_iff`: every maximal run of touching samples is delivered and followed by one pen-up, and there is no
other pen-up, exactly when the first sample touches and no run that ends has its last sample right at the
threshold. The driver's memory starts above the threshold, and it compares that memory strictly.

Reference: `drv_adc.c:136 AdcMenuStartCallback`, `nu_adc.h`.
-/

namespace NumakerMA35D1.Adc

/-! ## The driver -/

/-- The data registers of a conversion. Reference: `adc_reg.h ADC_T`. -/
structure Sample where
  XYDATA : BitVec 32
  ZDATA : BitVec 32

namespace Sample

variable (r : Sample)

/-- Reference: `nu_adc.h:71 ADC_GET_CONVERSION_XDATA`. -/
def xdata : BitVec 32 := r.XYDATA &&& 0xFFF#32

/-- Reference: `nu_adc.h:79 ADC_GET_CONVERSION_YDATA`. -/
def ydata : BitVec 32 := r.XYDATA >>> 16

/-- Reference: `nu_adc.h:87 ADC_GET_CONVERSION_Z1DATA`. -/
def z1data : BitVec 32 := r.ZDATA &&& 0xFFF#32

/-- Reference: `nu_adc.h:95 ADC_GET_CONVERSION_Z2DATA`. -/
def z2data : BitVec 32 := r.ZDATA >>> 16

end Sample

/-- A message of the queue. Reference: `drv_adc.c:49 nu_adc_touch_data`. -/
structure NuAdcTouchData where
  u32X : BitVec 32
  u32Y : BitVec 32
  u32Z0 : BitVec 32
  u32Z1 : BitVec 32
deriving DecidableEq

/-- What the callback reads and changes: whether a touch device is registered, the sampling timer, the mode
of the converter, the messages sent and the notifications of the touch device so far, the semaphore of the
plain conversions, and the callback's static memory. Reference: `drv_adc.c:27 nu_adc`. -/
structure NuAdc where
  psRtTouch : Bool
  timerRuns : Bool
  detectsPenDown : Bool
  bReset : BitVec 32
  m_pmqTouchXYZ : List NuAdcTouchData
  touchIsr : Nat
  m_psSem : Nat
  u32LastZ0 : BitVec 32

/-- Reference: `drv_adc.c:135 ADC_TOUCH_Z0_ACTIVE`. -/
def ADC_TOUCH_Z0_ACTIVE : BitVec 32 := 20

namespace NuAdc

/-- The sampling ends and the panel is watched for the next touch. Reference: `drv_adc.c:160` to `:165`. -/
def stopSampling (s : NuAdc) : NuAdc :=
  { s with timerRuns := false, detectsPenDown := true, bReset := 1 }

/-- A message for the touch device; nothing where the queue does not take it. Reference: `drv_adc.c:177`. -/
def notify (s : NuAdc) (sends : Bool) (point : NuAdcTouchData) : NuAdc :=
  if sends then
    { s with m_pmqTouchXYZ := s.m_pmqTouchXYZ ++ [point], touchIsr := s.touchIsr + 1 }
  else s

/-- `sends` says whether the message queue takes a message. Reference:
`drv_adc.c:136 AdcMenuStartCallback`. -/
def adcMenuStartCallback (s : NuAdc) (r : Sample) (sends : Bool) : NuAdc :=
  if s.psRtTouch then
    let bDrop := decide (r.z1data < ADC_TOUCH_Z0_ACTIVE)
    let point : NuAdcTouchData :=
      if bDrop then ⟨r.xdata, r.ydata, 0#32, 0#32⟩ else ⟨r.xdata, r.ydata, r.z1data, r.z2data⟩
    let s := if bDrop then s.stopSampling else s
    let s := if !bDrop || decide (ADC_TOUCH_Z0_ACTIVE < s.u32LastZ0) then s.notify sends point else s
    { s with u32LastZ0 := point.u32Z0 }
  else { s with m_psSem := s.m_psSem + 1 }

/-- Samples one after another, with room in the queue. -/
def samples (s : NuAdc) (rs : List Sample) : NuAdc :=
  rs.foldl (fun s r => s.adcMenuStartCallback r true) s

/-- The driver before its first sample, with a touch device registered. Reference:
`drv_adc.c:144 u32LastZ0`. -/
structure Fresh (s : NuAdc) : Prop where
  registered : s.psRtTouch = true
  sentinel : s.u32LastZ0 = 0xFFFF#32

end NuAdc

/-! ## Specification -/

namespace Sample

variable (r : Sample)

/-- The pressure is not below the threshold. -/
def Touching : Prop := ¬ r.z1data < ADC_TOUCH_Z0_ACTIVE

instance : Decidable r.Touching := inferInstanceAs (Decidable (¬ _))

/-- The message of a touching sample. -/
def point : NuAdcTouchData := ⟨r.xdata, r.ydata, r.z1data, r.z2data⟩

/-- The message of a pen-up. -/
def penUp : NuAdcTouchData := ⟨r.xdata, r.ydata, 0#32, 0#32⟩

end Sample

/-- The messages due with a sample: the sample when it touches, a pen-up when it is the first after a run of
touching samples. `before` is the sample before it, if there is one. -/
def due (before : Option Sample) (r : Sample) : List NuAdcTouchData :=
  if r.Touching then [r.point]
  else if ∃ p ∈ before, p.Touching then [r.penUp]
  else []

/-- Each sample puts what is due into the queue, and notifies the touch device as often. -/
def PenUpsRight (s : NuAdc) (rs : List Sample) : Prop :=
  ∀ before r after, rs = before ++ r :: after →
    (s.samples (before ++ [r])).m_pmqTouchXYZ =
      (s.samples before).m_pmqTouchXYZ ++ due before.getLast? r ∧
    (s.samples (before ++ [r])).touchIsr =
      (s.samples before).touchIsr + (due before.getLast? r).length

/-- The first sample touches, and no run of touching samples ends with one at the threshold. -/
structure Plain (rs : List Sample) : Prop where
  first : ∀ r ∈ rs.head?, r.Touching
  ends : ∀ before p r after, rs = before ++ p :: r :: after → p.Touching → ¬ r.Touching →
    p.z1data ≠ ADC_TOUCH_Z0_ACTIVE

/-! ## One sample -/

namespace NuAdc

variable {s : NuAdc} {rs : List Sample}

/-- What the callback remembers of a sample. -/
def memory (r : Sample) : BitVec 32 := if r.Touching then r.z1data else 0#32

/-- The messages of one sample. -/
theorem callback_touching {r : Sample} (hs : s.psRtTouch = true) (hr : r.Touching) :
    s.adcMenuStartCallback r true = { s.notify true r.point with u32LastZ0 := memory r } := by
  rw [adcMenuStartCallback, if_pos hs, memory, if_pos hr, decide_eq_false hr]
  rfl

theorem callback_lifted {r : Sample} (hs : s.psRtTouch = true) (hr : ¬ r.Touching) :
    s.adcMenuStartCallback r true =
      { (if ADC_TOUCH_Z0_ACTIVE < s.u32LastZ0 then s.stopSampling.notify true r.penUp
          else s.stopSampling) with u32LastZ0 := memory r } := by
  have hlow : r.z1data < ADC_TOUCH_Z0_ACTIVE := Decidable.not_not.1 hr
  rw [adcMenuStartCallback, if_pos hs, memory, if_neg hr, decide_eq_true hlow]
  simp only [Bool.not_true, Bool.false_or, decide_eq_true_eq, if_true]
  rfl

/-- The device stays registered. -/
theorem callback_psRtTouch (r : Sample) : (s.adcMenuStartCallback r true).psRtTouch = s.psRtTouch := by
  rw [adcMenuStartCallback]
  by_cases hs : s.psRtTouch = true
  · rw [if_pos hs]
    dsimp only
    split
    · split <;> rfl
    · split <;> rfl
  · rw [if_neg hs]

/-! ## Runs of samples -/

theorem samples_append (before : List Sample) (r : Sample) :
    s.samples (before ++ [r]) = (s.samples before).adcMenuStartCallback r true := by
  rw [samples, List.foldl_append]
  rfl

/-- After samples the device is registered, and the memory is that of the last one, or the sentinel. -/
theorem samples_spec (h : Fresh s) (rs : List Sample) : (s.samples rs).psRtTouch = true ∧
    (s.samples rs).u32LastZ0 = (rs.getLast?.map memory).getD 0xFFFF#32 := by
  induction rs using List.reverseRecOn with
  | nil => exact ⟨h.registered, h.sentinel⟩
  | append_singleton before r ih =>
    rw [samples_append, callback_psRtTouch, List.getLast?_concat]
    refine ⟨ih.1, ?_⟩
    by_cases hr : r.Touching
    · rw [callback_touching ih.1 hr]
      rfl
    · rw [callback_lifted ih.1 hr]
      rfl

/-- The messages of a sample after others: what is due, but that the memory of the driver stands for the
sample before. -/
theorem queue_append (h : Fresh s) (before : List Sample) (r : Sample) :
    let memory := (s.samples before).u32LastZ0
    let new := if r.Touching then [r.point] else if ADC_TOUCH_Z0_ACTIVE < memory then [r.penUp] else []
    (s.samples (before ++ [r])).m_pmqTouchXYZ = (s.samples before).m_pmqTouchXYZ ++ new ∧
      (s.samples (before ++ [r])).touchIsr = (s.samples before).touchIsr + new.length := by
  have hs := (samples_spec h before).1
  dsimp only
  rw [samples_append]
  by_cases hr : r.Touching
  · rw [callback_touching hs hr, if_pos hr]
    exact ⟨rfl, rfl⟩
  · rw [callback_lifted hs hr, if_neg hr]
    by_cases hlast : ADC_TOUCH_Z0_ACTIVE < (s.samples before).u32LastZ0
    · rw [if_pos hlast, if_pos hlast]
      exact ⟨rfl, rfl⟩
    · rw [if_neg hlast, if_neg hlast]
      exact ⟨(List.append_nil _).symm, rfl⟩

/-- A sample puts into the queue what is due exactly when it touches, or the memory and the sample before
agree. -/
theorem due_iff (h : Fresh s) (before : List Sample) (r : Sample) :
    ((s.samples (before ++ [r])).m_pmqTouchXYZ =
        (s.samples before).m_pmqTouchXYZ ++ due before.getLast? r ∧
      (s.samples (before ++ [r])).touchIsr =
        (s.samples before).touchIsr + (due before.getLast? r).length) ↔
    (¬ r.Touching → (ADC_TOUCH_Z0_ACTIVE < (s.samples before).u32LastZ0 ↔
      ∃ p ∈ before.getLast?, p.Touching)) := by
  obtain ⟨hqueue, hisr⟩ := queue_append h before r
  rw [hqueue, hisr, List.append_cancel_left_eq, Nat.add_left_cancel_iff, due]
  by_cases hr : r.Touching
  · rw [if_pos hr, if_pos hr]
    exact ⟨fun _ hnot => absurd hr hnot, fun _ => ⟨rfl, rfl⟩⟩
  · rw [if_neg hr, if_neg hr]
    by_cases hlast : ADC_TOUCH_Z0_ACTIVE < (s.samples before).u32LastZ0
    · by_cases hp : ∃ p ∈ before.getLast?, p.Touching
      · rw [if_pos hlast, if_pos hp]
        exact ⟨fun _ _ => iff_of_true hlast hp, fun _ => ⟨rfl, rfl⟩⟩
      · rw [if_pos hlast, if_neg hp]
        exact ⟨fun hnil => absurd hnil.1 (List.cons_ne_nil _ _),
          fun hiff => absurd ((hiff hr).1 hlast) hp⟩
    · by_cases hp : ∃ p ∈ before.getLast?, p.Touching
      · rw [if_neg hlast, if_pos hp]
        exact ⟨fun hnil => absurd hnil.1.symm (List.cons_ne_nil _ _),
          fun hiff => absurd ((hiff hr).2 hp) hlast⟩
      · rw [if_neg hlast, if_neg hp]
        exact ⟨fun _ _ => iff_of_false hlast hp, fun _ => ⟨rfl, rfl⟩⟩

/-- The memory of a sample is above the threshold exactly when the sample touches, and not right at it. -/
theorem lt_memory_iff (p : Sample) :
    ADC_TOUCH_Z0_ACTIVE < memory p ↔ p.Touching ∧ p.z1data ≠ ADC_TOUCH_Z0_ACTIVE := by
  rw [memory]
  by_cases hp : p.Touching
  · rw [if_pos hp]
    have hle : ¬ p.z1data < ADC_TOUCH_Z0_ACTIVE := hp
    rw [BitVec.lt_def] at hle ⊢
    rw [← BitVec.toNat_inj.ne]
    constructor
    · intro hlt
      exact ⟨hp, by omega⟩
    · rintro ⟨-, hne⟩
      omega
  · rw [if_neg hp]
    exact ⟨fun hlt => absurd hlt (by decide), fun htouch => absurd htouch.1 hp⟩

end NuAdc

/-! ## Pen-ups -/

/-- For every driver before its first sample and every list of samples: the messages are the touching
samples, with one pen-up behind each of their runs and no other, exactly when the first sample touches and no
run ends right at the threshold. Reference: `drv_adc.c:136 AdcMenuStartCallback`. -/
theorem penUps_iff (s : NuAdc) (rs : List Sample) (h : s.Fresh) : PenUpsRight s rs ↔ Plain rs := by
  constructor
  · intro hright
    refine ⟨fun r hr => ?_, fun before p r after hsplit hp hr hz => ?_⟩
    · obtain ⟨after, rfl⟩ := List.head?_eq_some_iff.1 hr
      by_contra hnot
      obtain ⟨p, hp, -⟩ := ((NuAdc.due_iff h [] r).1 (hright [] r after rfl) hnot).1 (by
        rw [(NuAdc.samples_spec h []).2]
        decide)
      cases hp
    · have hsplit' : rs = (before ++ [p]) ++ r :: after := by
        rw [hsplit, List.append_assoc]
        rfl
      have hiff := (NuAdc.due_iff h (before ++ [p]) r).1 (hright (before ++ [p]) r after hsplit') hr
      rw [(NuAdc.samples_spec h (before ++ [p])).2, List.getLast?_concat] at hiff
      exact ((NuAdc.lt_memory_iff p).1 (hiff.2 ⟨p, rfl, hp⟩)).2 hz
  · intro hplain before r after hsplit
    refine (NuAdc.due_iff h before r).2 fun hr => ?_
    rw [(NuAdc.samples_spec h before).2]
    rcases List.eq_nil_or_concat before with rfl | ⟨init, p, rfl⟩
    · refine absurd (hplain.first r ?_) hr
      rw [hsplit]
      rfl
    · have hsplit' : rs = init ++ p :: r :: after := by
        rw [hsplit, List.concat_eq_append, List.append_assoc]
        rfl
      rw [List.concat_eq_append, List.getLast?_concat]
      refine (NuAdc.lt_memory_iff p).trans ⟨fun hp => ⟨p, rfl, hp.1⟩, ?_⟩
      rintro ⟨q, hq, hq'⟩
      obtain rfl := Option.some.inj hq
      exact ⟨hq', hplain.ends init p r after hsplit' hq' hr⟩

/-- The driver before its first sample. Reference: `drv_adc.c:80 g_sNuADC`. -/
def NuAdc.start : NuAdc where
  psRtTouch := true
  timerRuns := true
  detectsPenDown := false
  bReset := 1
  m_pmqTouchXYZ := []
  touchIsr := 0
  m_psSem := 0
  u32LastZ0 := 0xFFFF#32

/-- A sample that touches with the pressure of the threshold, and one that does not touch. -/
def atThreshold : List Sample := [⟨0#32, 20#32⟩, ⟨0#32, 0#32⟩]

theorem penUps_iff_atThreshold : PenUpsRight .start atThreshold ↔ Plain atThreshold :=
  penUps_iff .start atThreshold ⟨rfl, rfl⟩

/-- The touch at the threshold has no pen-up behind it. -/
theorem not_penUpsRight : ¬ ∀ (s : NuAdc) rs, s.Fresh → PenUpsRight s rs := by
  intro h
  have hright := h .start atThreshold ⟨rfl, rfl⟩ [⟨0#32, 20#32⟩] ⟨0#32, 0#32⟩ [] rfl
  have hmemory := ((NuAdc.due_iff ⟨rfl, rfl⟩ [⟨0#32, 20#32⟩] ⟨0#32, 0#32⟩).1 hright (by decide)).2
    ⟨⟨0#32, 20#32⟩, rfl, by decide⟩
  exact absurd hmemory (by decide)

end NumakerMA35D1.Adc

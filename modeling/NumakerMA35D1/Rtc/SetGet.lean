import NumakerMA35D1.Rtc.DrvRtc

/-!
# What is set is read back

A time set is read back whatever the stack holds, but the weekday register gets what the stack holds
(`timeShown_eq`), and an alarm is written with the time scale and the half of the day that the stack
holds. `rtcRequest_iff` says exactly when a request does what it should.
-/

namespace NumakerMA35D1.Rtc

open Embedded

/-- What the stack holds at a call that sets and at the one that reads back. -/
structure CallStacks where
  set : RtcStack
  get : RtcStack

/-- What is to be seen of a time that is set: the two results, the time read back and the weekday. -/
def timeShown (calls : CallStacks) (rtc : RtcT) (t : Int) :
    Option (Int × Int × RtcOut × BitVec 32) := do
  let (ret, _, rtc) ← nuRtcControl calls.set rtc (.setTime t)
  let (ret', out, _) ← nuRtcControl calls.get rtc .getTime
  return (ret, ret', out, rtc.WEEKDAY &&& weekdayMsk)

/-- The registers of the current time, date, weekday and time scale. -/
def RtcT.current (rtc : RtcT) : BitVec 32 × BitVec 32 × BitVec 32 × BitVec 32 :=
  (rtc.TIME, rtc.CAL, rtc.WEEKDAY, rtc.CLKFMT)

/-- What is to be seen of an alarm that is set: the two results, the alarm read back and the
current time. -/
def alarmShown (calls : CallStacks) (rtc : RtcT) (w : RtRtcWkalarm) :
    Option (Int × Int × RtcOut × BitVec 32 × BitVec 32 × BitVec 32 × BitVec 32) := do
  let (ret, _, rtc) ← nuRtcControl calls.set rtc (.setAlarm w)
  let (ret', out, _) ← nuRtcControl calls.get rtc .getAlarm
  return (ret, ret', out, rtc.current)

/-- The weekday of a time, 0 for Sunday: 1 January 1970 was a Thursday. Reference: `nu_rtc.h:75
RTC_SUNDAY`. -/
def dayOfWeek (t : Int) : BitVec 32 := BitVec.ofInt 32 ((4 + t / 86400) % 7)

/-- A request to set a time or an alarm. -/
inductive Request
  | time (t : Int)
  | alarm (w : RtRtcWkalarm)

/-- A request is right: a time supported is read back, with its weekday in the register, an alarm is
read back and leaves the current time, and neither depends on what the stack holds. -/
def RequestRight (rtc : RtcT) (calls₁ calls₂ : CallStacks) : Request → Prop
  | .time t => nuRtcIsDateValid t = some RT_EOK →
    timeShown calls₁ rtc t = some (RT_EOK, RT_EOK, .time t, dayOfWeek t) ∧
    timeShown calls₁ rtc t = timeShown calls₂ rtc t
  | .alarm w =>
    alarmShown calls₁ rtc w = some (RT_EOK, RT_EOK, .wkalarm w, rtc.current) ∧
    alarmShown calls₁ rtc w = alarmShown calls₂ rtc w

/-- The hour fits the time scale and the half of the day that the stack holds. -/
def HourFits (stack : RtcStack) (tm_hour : BitVec 32) : Prop :=
  if stack.hw_alarm.u32TimeScale = RTC_CLOCK_12 then
    if stack.hw_alarm.u32AmPm = RTC_PM then 1 ≤ tm_hour.toNat ∧ tm_hour.toNat < 20
    else tm_hour.toNat < 21
  else tm_hour.toNat < 40

instance (stack : RtcStack) (tm_hour : BitVec 32) : Decidable (HourFits stack tm_hour) := by
  unfold HourFits
  infer_instance

/-- What the stack must hold for a request: the weekday of the time; the present time scale and, with
it, an hour, a minute and a second that their digits hold. -/
def RequestFits (rtc : RtcT) (stack : RtcStack) : Request → Prop
  | .time t => nuRtcIsDateValid t = some RT_EOK →
    stack.hw_time.u32DayOfWeek &&& weekdayMsk = dayOfWeek t
  | .alarm w =>
    (stack.hw_alarm.u32TimeScale = RTC_CLOCK_12 ↔ rtc.CLKFMT &&& clkfmt24henMsk = 0) ∧
    HourFits stack w.tm_hour ∧ w.tm_min.toNat < 80 ∧ w.tm_sec.toNat < 80

section

variable {rtc : RtcT} {stack : RtcStack} {calls : CallStacks} {t x : Int} {w : RtRtcWkalarm}

/-! ## Times -/

theorem timegm_tmUpper : timegm tmUpper = some 2147483647 := by
  unfold timegm
  simp only [tmUpper]
  rw [@timegmMonths_stop _ _ _ 31 0 rfl rfl (by decide)]
  rfl

theorem timegm_tmLower : timegm tmLower = some 946684800 := by
  unfold timegm
  simp only [tmLower]
  rw [@timegmMonths_stop _ _ _ 31 0 rfl rfl (by decide)]
  rfl

/-- The times supported. -/
theorem nuRtcIsDateValid_iff :
    nuRtcIsDateValid t = some RT_EOK ↔ 946684800 ≤ t ∧ t ≤ 2147483647 := by
  simp only [nuRtcIsDateValid, timegm_tmUpper, timegm_tmLower]
  change some (if t > 2147483647 ∨ t < 946684800 then -RT_EINVAL else RT_EOK) = some RT_EOK ↔ _
  split
  · next h => exact ⟨(fun heq => absurd heq (by decide)), fun hrange => by omega⟩
  · next h => exact ⟨fun _ => by omega, fun _ => rfl⟩

/-- A small number as a word. -/
theorem ofInt_toNat (hpos : 0 ≤ x) (hlt : x < 2 ^ 31) : ((BitVec.ofInt 32 x).toNat : Int) = x := by
  rw [BitVec.toNat_ofInt]
  omega

theorem ofInt_toInt (hpos : 0 ≤ x) (hlt : x < 2 ^ 31) : (BitVec.ofInt 32 x).toInt = x := by
  rw [BitVec.toInt_ofInt, Int.bmod_eq_of_le (by omega) (by omega)]

/-- A word less a number that was added. -/
theorem ofInt_add_sub (x n : Int) : BitVec.ofInt 32 (x + n) - BitVec.ofInt 32 n = BitVec.ofInt 32 x := by
  rw [BitVec.ofInt_add, BitVec.add_sub_cancel]

/-- Out of 12-hour mode the digits are what was written. -/
theorem readDateAndTime_fields {cal time : BitVec 32} {sPt : SRtcTimeDataT}
    (hfmt : rtc.CLKFMT &&& clkfmt24henMsk ≠ 0) :
    readDateAndTime cal time rtc sPt =
      { sPt with
        u32TimeScale := rtc.CLKFMT &&& clkfmt24henMsk
        u32DayOfWeek := rtc.WEEKDAY &&& weekdayMsk
        u32Year := bcdField cal 16 4 + RTC_YEAR2000
        u32Month := bcdField cal 8 1
        u32Day := bcdField cal 0 2
        u32Hour := bcdField time 16 2
        u32Minute := bcdField time 8 3
        u32Second := bcdField time 0 3 } := by
  simp only [readDateAndTime]
  exact if_neg hfmt

/-- The time scale bit set. -/
theorem or_24hen (v : BitVec 32) : (v ||| clkfmt24henMsk) &&& clkfmt24henMsk ≠ 0 := by
  rw [BitVec.and_or_distrib_right, BitVec.and_self]
  intro h
  have hbit := congrArg (·.getLsbD 0) h
  simp [clkfmt24henMsk] at hbit

/-- A date and a time in 24-hour scale, written. -/
theorem rtcSetDateAndTime_24 {sPt : SRtcTimeDataT} (hscale : sPt.u32TimeScale ≠ RTC_CLOCK_12) :
    rtcSetDateAndTime rtc sPt =
      { rtc with
        CLKFMT := rtc.CLKFMT ||| clkfmt24henMsk
        WEEKDAY := sPt.u32DayOfWeek
        CAL := sPt.calWord
        TIME := sPt.timeWord } := by
  rw [rtcSetDateAndTime, setTimeScale, if_neg hscale]

/-- A broken-down time from 2000 to 2099, written and read back. -/
theorem BrokenDown.readBack {t' : Tm} (h : BrokenDown t t') (hge : 946684800 ≤ t)
    (hfmt : rtc.CLKFMT &&& clkfmt24henMsk ≠ 0) (hw_time sPt : SRtcTimeDataT) (tm_out : Tm) :
    timegm (toTm (readDateAndTime (fromTm t' hw_time).calWord (fromTm t' hw_time).timeWord rtc sPt)
      tm_out) = some t := by
  have hyear := h.year
  have hyear' := h.year_ge hge
  have hsec := h.sec
  have hmin := h.min
  have hhour := h.hour
  have hmon := h.month.mon_nonneg
  have hmon' := h.month.mon_le
  have hmday := h.month.mday_pos
  have hmday' := h.month.mday_le
  have ysub : BitVec.ofInt 32 (t'.tm_year + 1900) - RTC_YEAR2000 =
      BitVec.ofInt 32 (t'.tm_year - 100) := by
    have heq : t'.tm_year + 1900 = t'.tm_year - 100 + 2000 := by omega
    rw [heq]
    exact ofInt_add_sub (t'.tm_year - 100) 2000
  have yNat := @ofInt_toNat (t'.tm_year - 100) (by omega) (by omega)
  have monNat := @ofInt_toNat (t'.tm_mon + 1) (by omega) (by omega)
  have mdayNat := @ofInt_toNat (t'.tm_mday) (by omega) (by omega)
  have hourNat := @ofInt_toNat (t'.tm_hour) (by omega) (by omega)
  have minNat := @ofInt_toNat (t'.tm_min) (by omega) (by omega)
  have secNat := @ofInt_toNat (t'.tm_sec) (by omega) (by omega)
  rw [readDateAndTime_fields hfmt, ← timegm_of_brokenDown h]
  apply timegm_congr
  · dsimp only [toTm, fromTm, SRtcTimeDataT.timeWord]
    rw [(bcdField_low_iff (by decide)).2 (by omega)]
    exact ofInt_toInt (by omega) (by omega)
  · dsimp only [toTm, fromTm, SRtcTimeDataT.timeWord]
    rw [(bcdField_mid_iff (by decide) (by omega)).2 (by omega)]
    exact ofInt_toInt (by omega) (by omega)
  · dsimp only [toTm, fromTm, SRtcTimeDataT.timeWord]
    rw [(bcdField_high_iff (by decide) (by omega) (by omega)).2 (by omega)]
    exact ofInt_toInt (by omega) (by omega)
  · dsimp only [toTm, fromTm, SRtcTimeDataT.calWord]
    rw [(bcdField_low_iff (by decide)).2 (by omega)]
    exact ofInt_toInt (by omega) (by omega)
  · dsimp only [toTm, fromTm, SRtcTimeDataT.calWord]
    rw [(bcdField_mid_iff (by decide) (by omega)).2 (by omega)]
    rw [show (1#32 : BitVec 32) = BitVec.ofInt 32 1 from rfl, ofInt_add_sub]
    exact ofInt_toInt (by omega) (by omega)
  · dsimp only [toTm, fromTm, SRtcTimeDataT.calWord]
    rw [ysub, (bcdField_high_iff (by decide) (by omega) (by omega)).2 (by omega), ← ysub,
      BitVec.sub_add_cancel, show (1900#32 : BitVec 32) = BitVec.ofInt 32 1900 from rfl,
      ofInt_add_sub]
    exact ofInt_toInt (by omega) (by omega)

/-- A time that is set is read back, and the weekday register gets what the stack held. -/
theorem timeShown_eq (hvalid : nuRtcIsDateValid t = some RT_EOK) :
    timeShown calls rtc t =
      some (RT_EOK, RT_EOK, .time t, calls.set.hw_time.u32DayOfWeek &&& weekdayMsk) := by
  obtain ⟨hlower, hupper⟩ := nuRtcIsDateValid_iff.1 hvalid
  have hbroken : BrokenDown t (gmtimeR t) := gmtimeR_spec (by omega) (by omega)
  have hset : nuRtcControl calls.set rtc (.setTime t) = some (RT_EOK, .nothing,
      rtcSetDateAndTime rtc (fromTm (gmtimeR t) calls.set.hw_time)) := by
    simp only [nuRtcControl, hvalid]
    rfl
  have hwritten := @rtcSetDateAndTime_24 rtc (fromTm (gmtimeR t) calls.set.hw_time)
    (show RTC_CLOCK_24 ≠ RTC_CLOCK_12 by decide)
  have hget : ∀ rtc' : RtcT, rtc' = { rtc with
        CLKFMT := rtc.CLKFMT ||| clkfmt24henMsk
        WEEKDAY := (fromTm (gmtimeR t) calls.set.hw_time).u32DayOfWeek
        CAL := (fromTm (gmtimeR t) calls.set.hw_time).calWord
        TIME := (fromTm (gmtimeR t) calls.set.hw_time).timeWord } →
      nuRtcControl calls.get rtc' .getTime = some (RT_EOK, .time t, rtc') := by
    rintro rtc' rfl
    rw [nuRtcControl, rtcGetDateAndTime,
      hbroken.readBack hlower (or_24hen rtc.CLKFMT)]
    rfl
  rw [timeShown, hset, hwritten]
  change (nuRtcControl calls.get _ .getTime).bind _ = _
  rw [hget _ rfl]
  rfl

/-! ## Alarms -/

/-- The time scale bit cleared. -/
theorem and_not_24hen (v : BitVec 32) : (v &&& ~~~clkfmt24henMsk) &&& clkfmt24henMsk = 0 := by
  rw [BitVec.and_assoc, BitVec.and_comm (~~~clkfmt24henMsk), BitVec.and_not_self]
  exact BitVec.and_zero

theorem and_not_24hen_eq_self {v : BitVec 32} :
    v &&& ~~~clkfmt24henMsk = v ↔ v &&& clkfmt24henMsk = 0 := by
  constructor
  · intro h
    rw [← h]
    exact and_not_24hen v
  · intro h
    calc v &&& ~~~clkfmt24henMsk
        = (v &&& ~~~clkfmt24henMsk) ||| (v &&& clkfmt24henMsk) := by rw [h]; exact BitVec.or_zero.symm
      _ = v := by
        rw [← BitVec.and_or_distrib_left, BitVec.or_comm, BitVec.or_not_self, BitVec.and_allOnes]

theorem or_24hen_eq_self {v : BitVec 32} : v ||| clkfmt24henMsk = v ↔ v &&& clkfmt24henMsk ≠ 0 := by
  constructor
  · intro h
    rw [← h]
    exact or_24hen v
  · intro h
    have hbit : v.getLsbD 0 = true := by
      by_contra hfalse
      refine h ?_
      rw [clkfmt24henMsk, BitVec.ofNat_eq_ofNat, BitVec.and_one_eq_setWidth_ofBool_getLsbD,
        Bool.eq_false_of_not_eq_true hfalse]
      rfl
    apply BitVec.eq_of_getLsbD_eq
    intro i hi
    rw [BitVec.getLsbD_or]
    cases i with
    | zero => rw [hbit, Bool.true_or]
    | succ i => simp [clkfmt24henMsk]

/-- The hour that 12-hour digits say. -/
def hour12 (u32Hour : BitVec 32) : BitVec 32 :=
  if u32Hour ≥ 21#32 then u32Hour - 20#32 else u32Hour

theorem hour12_toNat (v : BitVec 32) :
    (hour12 v).toNat = if 21 ≤ v.toNat then v.toNat - 20 else v.toNat := by
  rw [hour12]
  by_cases h : 21 ≤ v.toNat
  · rw [if_pos h, if_pos (show v ≥ 21#32 from h),
      BitVec.toNat_sub_of_le (show 20#32 ≤ v from le_trans (by decide) h)]
    rfl
  · rw [if_neg h, if_neg (show ¬ v ≥ 21#32 from h)]

/-- The alarm's time register. -/
def alarmWord (stack : RtcStack) (w : RtRtcWkalarm) : BitVec 32 :=
  bcdWord (if stack.hw_alarm.u32TimeScale = RTC_CLOCK_12 ∧ stack.hw_alarm.u32AmPm = RTC_PM then
    w.tm_hour + 20#32 else w.tm_hour) w.tm_min w.tm_sec

/-- What an alarm read back and the current time are after the registers of an alarm are written. -/
theorem alarmShown_of {rtc' : RtcT} (hset : nuRtcControl calls.set rtc (.setAlarm w) =
    some (RT_EOK, .nothing, rtc')) :
    alarmShown calls rtc w =
      some (RT_EOK, RT_EOK,
        .wkalarm ⟨(rtcGetAlarmDateAndTime rtc' calls.get.hw_alarm).u32Second,
          (rtcGetAlarmDateAndTime rtc' calls.get.hw_alarm).u32Minute,
          (rtcGetAlarmDateAndTime rtc' calls.get.hw_alarm).u32Hour⟩, rtc'.current) := by
  rw [alarmShown, hset]
  rfl

/-- An alarm that is set, in the time scale that the stack held. -/
theorem alarmShown_12 (hscale : calls.set.hw_alarm.u32TimeScale = RTC_CLOCK_12) :
    alarmShown calls rtc w =
      some (RT_EOK, RT_EOK,
        .wkalarm ⟨bcdField (alarmWord calls.set w) 0 3, bcdField (alarmWord calls.set w) 8 3,
          hour12 (bcdField (alarmWord calls.set w) 16 2)⟩,
        rtc.TIME, rtc.CAL, rtc.WEEKDAY, rtc.CLKFMT &&& ~~~clkfmt24henMsk) := by
  have hset : rtcSetAlarmDateAndTime (rtcSetAlarmDateMask rtc 1 1 1 1 1 1)
      { calls.set.hw_alarm with
        u32Hour := w.tm_hour, u32Minute := w.tm_min, u32Second := w.tm_sec } =
      { rtcSetAlarmDateMask rtc 1 1 1 1 1 1 with
        CLKFMT := rtc.CLKFMT &&& ~~~clkfmt24henMsk
        CALM := calls.set.hw_alarm.calWord
        TALM := alarmWord calls.set w } := by
    rw [rtcSetAlarmDateAndTime, setTimeScale, if_pos hscale, alarmWord]
    dsimp only
    by_cases hpm : calls.set.hw_alarm.u32AmPm = RTC_PM
    · rw [if_pos hpm, if_pos ⟨hscale, hpm⟩]
      rfl
    · rw [if_neg hpm, if_neg (fun h => hpm h.2)]
      rfl
  rw [alarmShown_of (by rw [nuRtcControl, hset]), rtcGetAlarmDateAndTime, readDateAndTime]
  dsimp only
  rw [if_pos (show _ = RTC_CLOCK_12 from and_not_24hen rtc.CLKFMT), hour12]
  split <;> rfl

@[inherit_doc alarmShown_12]
theorem alarmShown_24 (hscale : calls.set.hw_alarm.u32TimeScale ≠ RTC_CLOCK_12) :
    alarmShown calls rtc w =
      some (RT_EOK, RT_EOK,
        .wkalarm ⟨bcdField (alarmWord calls.set w) 0 3, bcdField (alarmWord calls.set w) 8 3,
          bcdField (alarmWord calls.set w) 16 2⟩,
        rtc.TIME, rtc.CAL, rtc.WEEKDAY, rtc.CLKFMT ||| clkfmt24henMsk) := by
  have hset : rtcSetAlarmDateAndTime (rtcSetAlarmDateMask rtc 1 1 1 1 1 1)
      { calls.set.hw_alarm with
        u32Hour := w.tm_hour, u32Minute := w.tm_min, u32Second := w.tm_sec } =
      { rtcSetAlarmDateMask rtc 1 1 1 1 1 1 with
        CLKFMT := rtc.CLKFMT ||| clkfmt24henMsk
        CALM := calls.set.hw_alarm.calWord
        TALM := alarmWord calls.set w } := by
    rw [rtcSetAlarmDateAndTime, setTimeScale, if_neg hscale, alarmWord,
      if_neg (fun h => hscale h.1)]
    rfl
  rw [alarmShown_of (by rw [nuRtcControl, hset]), rtcGetAlarmDateAndTime,
    readDateAndTime_fields (or_24hen rtc.CLKFMT)]
  rfl

/-- The digits of an hour after noon. -/
theorem hour12_pm {h x : Nat} (hx : x = (h + 20) % 2 ^ 32) (hlt : h < 2 ^ 32) :
    (if 21 ≤ x % 40 then x % 40 - 20 else x % 40) = h ↔ 1 ≤ h ∧ h < 20 := by
  rcases Nat.lt_or_ge h 20 with h20 | h20
  · have hmod : x % 40 = h + 20 := by
      rw [hx, Nat.mod_eq_of_lt (by omega), Nat.mod_eq_of_lt (by omega)]
    rw [hmod]
    split <;> omega
  · have hne : h = 20 → x % 40 = 0 := by
      rintro rfl
      rw [hx]
      rfl
    have hv : x % 40 < 40 := Nat.mod_lt _ (by decide)
    generalize x % 40 = v at hne hv ⊢
    split <;> omega

/-- The hour is read back if and only if it fits. -/
theorem hour_readBack (hmin : w.tm_min.toNat < 80) (hsec : w.tm_sec.toNat < 80) :
    (if stack.hw_alarm.u32TimeScale = RTC_CLOCK_12 then hour12 (bcdField (alarmWord stack w) 16 2)
      else bcdField (alarmWord stack w) 16 2) = w.tm_hour ↔ HourFits stack w.tm_hour := by
  have hlt := w.tm_hour.isLt
  rw [HourFits, alarmWord, bcdField_high (by decide) (by omega) (by omega)]
  generalize hwritten : (if stack.hw_alarm.u32TimeScale = RTC_CLOCK_12 ∧
    stack.hw_alarm.u32AmPm = RTC_PM then w.tm_hour + 20#32 else w.tm_hour) = x
  by_cases hscale : stack.hw_alarm.u32TimeScale = RTC_CLOCK_12
  · rw [if_pos hscale, if_pos hscale, ← BitVec.toNat_inj, hour12_toNat,
      tens_units_toNat (by decide)]
    change (if 21 ≤ x.toNat % 40 then x.toNat % 40 - 20 else x.toNat % 40) = _ ↔ _
    by_cases hpm : stack.hw_alarm.u32AmPm = RTC_PM
    · rw [if_pos ⟨hscale, hpm⟩] at hwritten
      have hx : x.toNat = (w.tm_hour.toNat + 20) % 2 ^ 32 := by
        rw [← hwritten, BitVec.toNat_add]
        rfl
      rw [if_pos hpm]
      exact hour12_pm hx hlt
    · rw [if_neg (fun h => hpm h.2)] at hwritten
      rw [if_neg hpm, hwritten]
      split <;> omega
  · rw [if_neg (fun h => hscale h.1)] at hwritten
    rw [if_neg hscale, if_neg hscale, hwritten]
    exact tens_units_iff (by decide)

/-- An alarm is read back and the current time kept if and only if the stack holds the present time
scale and the digits hold the alarm. -/
theorem alarm_iff :
    alarmShown calls rtc w = some (RT_EOK, RT_EOK, .wkalarm w, rtc.current) ↔
      RequestFits rtc calls.set (.alarm w) := by
  have hsec : bcdField (alarmWord calls.set w) 0 3 = w.tm_sec ↔ w.tm_sec.toNat < 80 :=
    bcdField_low_iff (by decide)
  have hmin : w.tm_sec.toNat < 80 →
      (bcdField (alarmWord calls.set w) 8 3 = w.tm_min ↔ w.tm_min.toNat < 80) :=
    fun h => bcdField_mid_iff (by decide) (by omega)
  have hhour := fun h h' => @hour_readBack calls.set w h h'
  obtain ⟨tm_sec, tm_min, tm_hour⟩ := w
  dsimp only at hsec hmin hhour
  by_cases hscale : calls.set.hw_alarm.u32TimeScale = RTC_CLOCK_12
  · rw [alarmShown_12 hscale]
    simp only [if_pos hscale] at hhour
    simp only [RtcT.current, RequestFits, hscale, true_iff, Option.some.injEq, Prod.mk.injEq,
      RtcOut.wkalarm.injEq, RtRtcWkalarm.mk.injEq, true_and, and_not_24hen_eq_self, hsec]
    constructor
    · rintro ⟨⟨h1, h2, h3⟩, h4⟩
      have h2 := (hmin h1).1 h2
      exact ⟨h4, (hhour h2 h1).1 h3, h2, h1⟩
    · rintro ⟨h4, h3, h2, h1⟩
      exact ⟨⟨h1, (hmin h1).2 h2, (hhour h2 h1).2 h3⟩, h4⟩
  · rw [alarmShown_24 hscale]
    simp only [if_neg hscale] at hhour
    simp only [RtcT.current, RequestFits, hscale, false_iff, Option.some.injEq, Prod.mk.injEq,
      RtcOut.wkalarm.injEq, RtRtcWkalarm.mk.injEq, true_and, or_24hen_eq_self, hsec]
    constructor
    · rintro ⟨⟨h1, h2, h3⟩, h4⟩
      have h2 := (hmin h1).1 h2
      exact ⟨h4, (hhour h2 h1).1 h3, h2, h1⟩
    · rintro ⟨h4, h3, h2, h1⟩
      exact ⟨⟨h1, (hmin h1).2 h2, (hhour h2 h1).2 h3⟩, h4⟩

end

/-! ## Requests -/

/-- A request is right if and only if what the stack holds fits it. Reference: `drv_rtc.c:217
nu_rtc_control`. -/
theorem rtcRequest_iff (rtc : RtcT) (calls₁ calls₂ : CallStacks) (r : Request) :
    RequestRight rtc calls₁ calls₂ r ↔ RequestFits rtc calls₁.set r ∧ RequestFits rtc calls₂.set r := by
  cases r with
  | time t =>
    simp only [RequestRight, RequestFits]
    by_cases hvalid : nuRtcIsDateValid t = some RT_EOK
    · simp only [timeShown_eq hvalid, hvalid, true_implies, Option.some.injEq, Prod.mk.injEq,
        true_and]
      exact and_congr_right fun h => by rw [h]; exact eq_comm
    · simp only [hvalid, false_implies, and_self]
  | alarm w =>
    rw [RequestRight, ← alarm_iff, ← alarm_iff]
    exact and_congr_right fun h => by rw [h]; exact eq_comm

/-- 1 January 2000 was no Sunday, and a stack of zeros says so. -/
theorem not_requestRight :
    ¬ ∀ rtc calls₁ calls₂ r, RequestRight rtc calls₁ calls₂ r := by
  intro h
  have hvalid : nuRtcIsDateValid 946684800 = some RT_EOK := nuRtcIsDateValid_iff.2 (by decide)
  have htime := (h default ⟨default, default⟩ ⟨default, default⟩ (.time 946684800) hvalid).1
  rw [timeShown_eq hvalid] at htime
  exact absurd htime (by decide)

end NumakerMA35D1.Rtc

import NumakerMA35D1.Lib.Bcd
import NumakerMA35D1.Rtc.Ctime

/-!
# The real-time clock

The registers of the clock, the routines that put a date and a time into them and read them back, and
the device's `nuRtcControl` over those. A structure that a function leaves on its stack without a
value comes in as a parameter: `RtcStack` is what the stack of one call holds.
-/

namespace NumakerMA35D1.Rtc

open Embedded

/-- Error codes. Reference: `rtdef.h:343 RT_EOK`, `rtdef.h:344 RT_ERROR`, `rtdef.h:353 RT_EINVAL`. -/
def RT_EOK : Int := 0
@[inherit_doc RT_EOK] def RT_ERROR : Int := 1
@[inherit_doc RT_EOK] def RT_EINVAL : Int := 10

/-- The registers of the clock. Reference: `rtc_reg.h:28 RTC_T`. -/
structure RtcT where
  CLKFMT : BitVec 32
  WEEKDAY : BitVec 32
  CAL : BitVec 32
  TIME : BitVec 32
  CALM : BitVec 32
  TALM : BitVec 32
  CAMSK : BitVec 32
deriving DecidableEq, Repr, Inhabited

/-- Reference: `nu_rtc.h:98 S_RTC_TIME_DATA_T`. -/
structure SRtcTimeDataT where
  u32Year : BitVec 32
  u32Month : BitVec 32
  u32Day : BitVec 32
  u32DayOfWeek : BitVec 32
  u32Hour : BitVec 32
  u32Minute : BitVec 32
  u32Second : BitVec 32
  u32TimeScale : BitVec 32
  u32AmPm : BitVec 32
deriving DecidableEq, Repr, Inhabited

/-- Time scales, halves of the day and the first year. Reference: `nu_rtc.h:55 RTC_CLOCK_12`. -/
def RTC_CLOCK_12 : BitVec 32 := 0
@[inherit_doc RTC_CLOCK_12] def RTC_CLOCK_24 : BitVec 32 := 1
@[inherit_doc RTC_CLOCK_12] def RTC_AM : BitVec 32 := 1
@[inherit_doc RTC_CLOCK_12] def RTC_PM : BitVec 32 := 2
@[inherit_doc RTC_CLOCK_12] def RTC_YEAR2000 : BitVec 32 := 2000

/-- Reference: `rtc_reg.h:894 RTC_CLKFMT_24HEN_Msk`. -/
def clkfmt24henMsk : BitVec 32 := 1
/-- Reference: `rtc_reg.h:900 RTC_WEEKDAY_WEEKDAY_Msk`. -/
def weekdayMsk : BitVec 32 := 7

/-- A calendar and a time register read: 12-hour times are 1 to 12 and 21 to 32. Only they set
`u32AmPm`. Reference: `nu_rtc.c:123 RTC_GetDateAndTime`. -/
def readDateAndTime (cal time : BitVec 32) (rtc : RtcT) (sPt : SRtcTimeDataT) : SRtcTimeDataT :=
  let sPt :=
    { sPt with
      u32TimeScale := rtc.CLKFMT &&& clkfmt24henMsk
      u32DayOfWeek := rtc.WEEKDAY &&& weekdayMsk
      u32Year := bcdField cal 16 4 + RTC_YEAR2000
      u32Month := bcdField cal 8 1
      u32Day := bcdField cal 0 2
      u32Hour := bcdField time 16 2
      u32Minute := bcdField time 8 3
      u32Second := bcdField time 0 3 }
  if sPt.u32TimeScale = RTC_CLOCK_12 then
    if sPt.u32Hour ≥ 21#32 then { sPt with u32AmPm := RTC_PM, u32Hour := sPt.u32Hour - 20#32 }
    else { sPt with u32AmPm := RTC_AM }
  else sPt

/-- Reference: `nu_rtc.c:123 RTC_GetDateAndTime`. -/
def rtcGetDateAndTime (rtc : RtcT) (sPt : SRtcTimeDataT) : SRtcTimeDataT :=
  readDateAndTime rtc.CAL rtc.TIME rtc sPt

/-- Reference: `nu_rtc.c:218 RTC_GetAlarmDateAndTime`. -/
def rtcGetAlarmDateAndTime (rtc : RtcT) (sPt : SRtcTimeDataT) : SRtcTimeDataT :=
  readDateAndTime rtc.CALM rtc.TALM rtc sPt

/-- The time scale is written, and a 12-hour time after noon moved to 21 and above. Reference:
`nu_rtc.c:329 RTC_SetDateAndTime`. -/
def setTimeScale (rtc : RtcT) (sPt : SRtcTimeDataT) : RtcT × SRtcTimeDataT :=
  if sPt.u32TimeScale = RTC_CLOCK_12 then
    ({ rtc with CLKFMT := rtc.CLKFMT &&& ~~~clkfmt24henMsk },
      if sPt.u32AmPm = RTC_PM then { sPt with u32Hour := sPt.u32Hour + 20#32 } else sPt)
  else ({ rtc with CLKFMT := rtc.CLKFMT ||| clkfmt24henMsk }, sPt)

/-- The calendar and the time register of a date and a time. Reference: `nu_rtc.c:353
RTC_SetDateAndTime`. -/
def SRtcTimeDataT.calWord (sPt : SRtcTimeDataT) : BitVec 32 :=
  bcdWord (sPt.u32Year - RTC_YEAR2000) sPt.u32Month sPt.u32Day
@[inherit_doc SRtcTimeDataT.calWord]
def SRtcTimeDataT.timeWord (sPt : SRtcTimeDataT) : BitVec 32 :=
  bcdWord sPt.u32Hour sPt.u32Minute sPt.u32Second

/-- Reference: `nu_rtc.c:316 RTC_SetDateAndTime`. -/
def rtcSetDateAndTime (rtc : RtcT) (sPt : SRtcTimeDataT) : RtcT :=
  let (rtc, sPt) := setTimeScale rtc sPt
  { rtc with WEEKDAY := sPt.u32DayOfWeek, CAL := sPt.calWord, TIME := sPt.timeWord }

/-- The weekday is not written. Reference: `nu_rtc.c:395 RTC_SetAlarmDateAndTime`. -/
def rtcSetAlarmDateAndTime (rtc : RtcT) (sPt : SRtcTimeDataT) : RtcT :=
  let (rtc, sPt) := setTimeScale rtc sPt
  { rtc with CALM := sPt.calWord, TALM := sPt.timeWord }

/-- Reference: `nu_rtc.c:615 RTC_SetAlarmDateMask`. -/
def rtcSetAlarmDateMask (rtc : RtcT) (u8IsTenYMsk u8IsYMsk u8IsTenMMsk u8IsMMsk u8IsTenDMsk
    u8IsDMsk : BitVec 8) : RtcT :=
  { rtc with
    CAMSK :=
      (u8IsTenYMsk.setWidth 32 <<< 5) ||| (u8IsYMsk.setWidth 32 <<< 4) |||
      (u8IsTenMMsk.setWidth 32 <<< 3) ||| (u8IsMMsk.setWidth 32 <<< 2) |||
      (u8IsTenDMsk.setWidth 32 <<< 1) ||| (u8IsDMsk.setWidth 32 <<< 0) }

/-! ## The device -/

/-- The bounds of the times supported. Reference: `drv_rtc.c:36 RTC_TM_UPPER_BOUND`. -/
def tmUpper : Tm :=
  { tm_sec := 7, tm_min := 14, tm_hour := 3, tm_mday := 19, tm_mon := 1 - 1, tm_year := 2038 - 1900
    tm_wday := 0, tm_yday := 0 }
@[inherit_doc tmUpper]
def tmLower : Tm :=
  { tm_sec := 0, tm_min := 0, tm_hour := 0, tm_mday := 1, tm_mon := 1 - 1, tm_year := 2000 - 1900
    tm_wday := 0, tm_yday := 0 }

/-- Reference: `drv_rtc.c:194 nu_rtc_is_date_valid`. -/
def nuRtcIsDateValid (t : Int) : Option Int := do
  let t_upper ← timegm tmUpper
  let t_lower ← timegm tmLower
  return if t > t_upper ∨ t < t_lower then -RT_EINVAL else RT_EOK

/-- What a call of `nu_rtc_control` finds in its local structures. Reference: `drv_rtc.c:217
nu_rtc_control`. -/
structure RtcStack where
  tm_out : Tm
  hw_time : SRtcTimeDataT
  hw_alarm : SRtcTimeDataT
deriving Inhabited

/-- The fields of an alarm that the driver reads or writes. Reference: `rtc.h:32 rt_rtc_wkalarm`. -/
structure RtRtcWkalarm where
  tm_sec : BitVec 32
  tm_min : BitVec 32
  tm_hour : BitVec 32
deriving DecidableEq, Repr

/-- The commands, with what a setter's argument points at; `other` is any other command.
Reference: `rtc.h:24 RT_DEVICE_CTRL_RTC_GET_TIME`. -/
inductive RtcCmd
  | getTime
  | setTime (time : Int)
  | getAlarm
  | setAlarm (wkalarm : RtRtcWkalarm)
  | other

/-- What a command stores at its argument. -/
inductive RtcOut
  | nothing
  | time (time : Int)
  | wkalarm (wkalarm : RtRtcWkalarm)
deriving DecidableEq, Repr

/-- The broken-down time of a date and a time read. Reference: `drv_rtc.c:242 nu_rtc_control`. -/
def toTm (hw_time : SRtcTimeDataT) (tm_out : Tm) : Tm :=
  { tm_out with
    tm_year := (hw_time.u32Year - 1900#32).toInt
    tm_mon := (hw_time.u32Month - 1#32).toInt
    tm_mday := hw_time.u32Day.toInt
    tm_hour := hw_time.u32Hour.toInt
    tm_min := hw_time.u32Minute.toInt
    tm_sec := hw_time.u32Second.toInt }

/-- The date and the time of a broken-down time: `u32DayOfWeek` stays as it was. Reference:
`drv_rtc.c:258 nu_rtc_control`. -/
def fromTm (tm_in : Tm) (hw_time : SRtcTimeDataT) : SRtcTimeDataT :=
  { hw_time with
    u32Year := BitVec.ofInt 32 (tm_in.tm_year + 1900)
    u32Month := BitVec.ofInt 32 (tm_in.tm_mon + 1)
    u32Day := BitVec.ofInt 32 tm_in.tm_mday
    u32Hour := BitVec.ofInt 32 tm_in.tm_hour
    u32Minute := BitVec.ofInt 32 tm_in.tm_min
    u32Second := BitVec.ofInt 32 tm_in.tm_sec
    u32TimeScale := RTC_CLOCK_24
    u32AmPm := 0 }

/-- The result, what is stored and the registers after; `none` where `timegm` reads outside its
table. Reference: `drv_rtc.c:217 nu_rtc_control`. -/
def nuRtcControl (stack : RtcStack) (rtc : RtcT) : RtcCmd → Option (Int × RtcOut × RtcT)
  | .getTime => do
    let hw_time := rtcGetDateAndTime rtc stack.hw_time
    let time ← timegm (toTm hw_time stack.tm_out)
    return (RT_EOK, .time time, rtc)
  | .setTime time => do
    let valid ← nuRtcIsDateValid time
    if valid ≠ RT_EOK then return (-RT_ERROR, .nothing, rtc)
    else return (RT_EOK, .nothing, rtcSetDateAndTime rtc (fromTm (gmtimeR time) stack.hw_time))
  | .getAlarm =>
    let hw_alarm := rtcGetAlarmDateAndTime rtc stack.hw_alarm
    some (RT_EOK, .wkalarm ⟨hw_alarm.u32Second, hw_alarm.u32Minute, hw_alarm.u32Hour⟩, rtc)
  | .setAlarm wkalarm =>
    let hw_alarm :=
      { stack.hw_alarm with
        u32Hour := wkalarm.tm_hour, u32Minute := wkalarm.tm_min, u32Second := wkalarm.tm_sec }
    some (RT_EOK, .nothing, rtcSetAlarmDateAndTime (rtcSetAlarmDateMask rtc 1 1 1 1 1 1) hw_alarm)
  | .other => some (-RT_EINVAL, .nothing, rtc)

end NumakerMA35D1.Rtc

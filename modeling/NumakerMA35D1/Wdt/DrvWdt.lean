import Mathlib

/-!
# The watchdog driver

The hardware counter runs for 1024 ticks of its clock. The driver makes longer timeouts of it: it turns the
seconds wanted into a number of interrupts, resets the counter at each, and at the last one only when a
keepalive has come. Floating-point numbers are read as exact rationals, a counter of the C type `int` as a
word that wraps.

Reference: `drv_wdt.c`.
-/

namespace NumakerMA35D1.Wdt

/-- Reference: `drv_wdt.c:48 MIN_CYCLES`. -/
def MIN_CYCLES : Nat := 1024

/-! ## Seconds and iterations -/

/-- The conversion of a floating-point number to `int`, which drops its fraction. -/
def truncate (value : ℚ) : Int := value.num.tdiv value.den

/-- Reference: `drv_wdt.c:52 ROUND_TO_INTEGER`. -/
def roundToInteger (value : ℚ) : Int := truncate ((value * 10 + 5) / 10)

/-- A number that is not negative is rounded down. -/
theorem truncate_eq_floor {value : ℚ} (h : 0 ≤ value) : truncate value = ⌊value⌋ := by
  rw [truncate, Rat.floor_def', Int.tdiv_eq_ediv_of_nonneg (Rat.num_nonneg.2 h)]

/-- The product is one of unsigned words. Reference: `drv_wdt.c:53 CONV_SEC_TO_IT`. -/
def convSecToIt (hz secs : BitVec 32) : BitVec 32 :=
  BitVec.ofInt 32 (roundToInteger ((secs * hz).toNat / MIN_CYCLES))

/-- The product is one of signed words; none for a division by zero. Reference:
`drv_wdt.c:54 CONV_IT_TO_SEC`. -/
def convItToSec (hz iterations : BitVec 32) : Option Int :=
  if hz = 0#32 then none
  else some (roundToInteger ((iterations * BitVec.ofNat 32 MIN_CYCLES).toInt / hz.toNat))

/-! ## The device -/

/-- Reference: `drv_wdt.c:58 soft_time_handle`. -/
structure SoftTimeHandle where
  clockHz : BitVec 32
  wantedSec : BitVec 32
  reportSec : Option Int
  leftIterations : BitVec 32
  fullIterations : BitVec 32
  expired : Bool
  feedDog : Bool

/-- A watchdog, with the number of times the driver has reset its counter. Reference: `drv_wdt.c:70 nu_wdt`,
`nu_wdt.h:148 WDT_RESET_COUNTER`. -/
structure NuWdt where
  softTime : SoftTimeHandle
  resets : Nat

/-- `source` is the clock selected for the module. Reference: `drv_wdt.c:175 nu_wdt_get_working_hz`. -/
def nuWdtGetWorkingHz (source pclk3 : BitVec 32) : BitVec 32 :=
  if source = 1#32 then 32768#32
  else if source = 2#32 then pclk3 / 4096#32
  else if source = 3#32 then 30000#32
  else 0#32

/-- Reference: `drv_wdt.c:210 soft_time_setup`. -/
def softTimeSetup (wantedSec hz : BitVec 32) : SoftTimeHandle where
  clockHz := hz
  wantedSec := wantedSec
  reportSec := convItToSec hz (convSecToIt hz wantedSec)
  leftIterations := convSecToIt hz wantedSec
  fullIterations := convSecToIt hz wantedSec
  expired := false
  feedDog := false

/-- Of two days and a half: the product of the iterations is negative and its half is dropped. -/
example : (softTimeSetup 216000#32 32768#32).reportSec = some (-46143) := by decide +kernel

/-- Reference: `drv_wdt.c:235 soft_time_feed_dog`. -/
def softTimeFeedDog (softTime : SoftTimeHandle) : SoftTimeHandle := { softTime with feedDog := true }

/-- The commands that change the device or read its time; starting and stopping the hardware is left out.
Reference: `drv_wdt.c:242 nu_wdt_control`. -/
inductive Cmd
  | getTimeout
  | setTimeout (wantedSec : BitVec 32)
  | getTimeleft
  | keepalive

/-- Reference: `rtdef.h RT_EOK`, `RT_EINVAL`. -/
inductive RtErr
  | EOK | EINVAL
deriving DecidableEq

namespace NuWdt

variable (s : NuWdt)

/-- What is returned, what is written to the argument, and the device. `hz` is the working clock.
Reference: `drv_wdt.c:242 nu_wdt_control`. -/
def nuWdtControl (hz : BitVec 32) : Cmd → RtErr × Option Int × NuWdt
  | .getTimeout => (.EOK, s.softTime.reportSec, s)
  | .setTimeout wantedSec =>
    if wantedSec = 0#32 then (.EINVAL, none, s)
    else (.EOK, none, { s with softTime := softTimeSetup wantedSec hz })
  | .getTimeleft => (.EOK, convItToSec hz s.softTime.leftIterations, s)
  | .keepalive => (.EOK, none, { s with softTime := softTimeFeedDog s.softTime })

/-- The counter is reset. -/
def resetCounter : NuWdt := { s with resets := s.resets + 1 }

/-- Reference: `drv_wdt.c:328 nu_wdt_isr`. -/
def nuWdtIsr : NuWdt :=
  let left := s.softTime.leftIterations
  let s := { s with softTime := { s.softTime with leftIterations := left - 1#32 } }
  if (0#32).slt left then s.resetCounter
  else if s.softTime.feedDog && !s.softTime.expired then
    let s := s.resetCounter
    { s with softTime := { s.softTime with feedDog := false, leftIterations := s.softTime.fullIterations } }
  else { s with softTime := { s.softTime with expired := true } }

end NuWdt

/-- What happens to a device after its timeout is set. -/
inductive Event
  | tick
  | keepalive
deriving DecidableEq

/-- An interrupt, or a keepalive of the application. -/
def NuWdt.exec (hz : BitVec 32) (s : NuWdt) : Event → NuWdt
  | .tick => s.nuWdtIsr
  | .keepalive => (s.nuWdtControl hz .keepalive).2.2

/-- The device after its timeout is set and some events. -/
def NuWdt.after (s : NuWdt) (hz wantedSec : BitVec 32) (evs : List Event) : NuWdt :=
  evs.foldl (NuWdt.exec hz) (s.nuWdtControl hz (.setTimeout wantedSec)).2.2

end NumakerMA35D1.Wdt

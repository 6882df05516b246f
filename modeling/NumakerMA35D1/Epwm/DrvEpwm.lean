import Mathlib

/-!
# The EPWM driver's channels

The period, comparator and prescaler registers of an EPWM device, two channels to a prescaler, and
the driver's `PWM_CMD_SET`. Words are numbers below `2 ^ 32`; a register keeps the bits of its field.
A division by zero, that C leaves undefined, has no result.

Reference: `drv_epwm.c`, `nu_epwm.c`.
-/

namespace NumakerMA35D1.Epwm

/-- Reference: `nu_epwm.h:28 EPWM_CHANNEL_NUM`. -/
abbrev EPWM_CHANNEL_NUM : Nat := 6

/-- Reference: `rtdef.h RT_EOK`, `RT_ERROR`. -/
inductive RtErr
  | EOK | ERROR
deriving DecidableEq

/-- The registers. Reference: `epwm_reg.h EPWM_T`. -/
structure EpwmT where
  CLKPSC : Nat → Nat
  PERIOD : Nat → Nat
  CMPDAT : Nat → Nat

/-- Reference: `nu_epwm.h:347 EPWM_SET_PRESCALER`. -/
def EpwmT.setPrescaler (epwm : EpwmT) (u32ChannelNum u32Prescaler : Nat) : EpwmT :=
  { epwm with CLKPSC := Function.update epwm.CLKPSC (u32ChannelNum / 2) (u32Prescaler % 2 ^ 12) }

/-- Reference: `nu_epwm.h:359 EPWM_GET_PRESCALER`. -/
def EpwmT.getPrescaler (epwm : EpwmT) (u32ChannelNum : Nat) : Nat := epwm.CLKPSC (u32ChannelNum / 2)

/-- Reference: `nu_epwm.h:406 EPWM_SET_CNR`. -/
def EpwmT.setCNR (epwm : EpwmT) (u32ChannelNum u32CNR : Nat) : EpwmT :=
  { epwm with PERIOD := Function.update epwm.PERIOD u32ChannelNum (u32CNR % 2 ^ 16) }

/-- Reference: `nu_epwm.h:371 EPWM_SET_CMR`. -/
def EpwmT.setCMR (epwm : EpwmT) (u32ChannelNum u32CMR : Nat) : EpwmT :=
  { epwm with CMPDAT := Function.update epwm.CMPDAT u32ChannelNum (u32CMR % 2 ^ 16) }

/-- The prescale divisor and the counts that the loop leaves. Reference: `nu_epwm.c:117
EPWM_ConfigOutputChannel`. -/
def prescaleCounts (ticks : Nat) : Nat × Nat :=
  match (List.range' 1 (0xFFF - 1)).find? fun u32Prescale => ticks / u32Prescale < 0x10000 with
  | some u32Prescale => (u32Prescale, ticks / u32Prescale)
  | none => (0xFFF, 0xFFFF)

/-- Reference: `nu_epwm.c:107 EPWM_ConfigOutputChannel`. -/
def epwmConfigOutputChannel (epwm : EpwmT) (u32EPWMClockSrc u32ChannelNum u32Frequency
    u32DutyCycle : Nat) : Option EpwmT :=
  if u32Frequency = 0 then none
  else
    let u32Prescale := (prescaleCounts (u32EPWMClockSrc / u32Frequency)).1
    let u32CNR := (prescaleCounts (u32EPWMClockSrc / u32Frequency)).2
    -- the nearest frequency is `u32EPWMClockSrc / (u32Prescale * u32CNR)`
    if u32CNR = 0 then none
    else
      some (((epwm.setPrescaler u32ChannelNum (u32Prescale - 1)).setCNR u32ChannelNum
        (u32CNR - 1)).setCMR u32ChannelNum (u32DutyCycle * u32CNR % 2 ^ 32 / 100))

/-- What `PWM_CMD_SET` is given, with the clock of the device at that time. Reference:
`rt_drv_pwm.h:30 rt_pwm_configuration`. -/
structure RtPwmConfiguration where
  channel : BitVec 32
  period : BitVec 32
  pulse : BitVec 32
  clock : BitVec 32

/-- The channel that shares the prescaler. Reference: `drv_epwm.c:111 nu_epwm_set`. -/
def pairOf (pwmChannel : Nat) : Nat := if pwmChannel % 2 = 0 then pwmChannel + 1 else pwmChannel - 1

/-- A count in the ticks of one prescaler as one in those of another. -/
def rescale (count fromPrescaler toPrescaler : Nat) : Nat :=
  count * (fromPrescaler + 1) % 2 ^ 32 / (toPrescaler + 1)

/-- The registers corrected after a change of the prescaler. Reference: `drv_epwm.c:121
nu_epwm_set`. -/
def epwmRescale (epwm : EpwmT) (pwmChannel prePwmPrescaler : Nat) : EpwmT :=
  let pair := pairOf pwmChannel
  let prescaler := epwm.getPrescaler pwmChannel
  if prePwmPrescaler ≠ 0 ∨ epwm.PERIOD pair ≠ 0 ∨ epwm.CMPDAT pair ≠ 0 then
    if prePwmPrescaler < prescaler then
      (epwm.setCNR pair (rescale (epwm.PERIOD pair + 1) prePwmPrescaler prescaler)).setCMR pair
        (rescale (epwm.CMPDAT pair) prePwmPrescaler prescaler)
    else if prePwmPrescaler > prescaler then
      (epwm.setCNR pwmChannel
        (rescale (epwm.PERIOD pwmChannel + 1) prescaler prePwmPrescaler)).setCMR pwmChannel
          (rescale (epwm.CMPDAT pwmChannel) prescaler prePwmPrescaler)
    else epwm
  else epwm

/-- The frequency asked for. Reference: `drv_epwm.c:116 nu_epwm_set`. -/
def pwmFreq (configuration : RtPwmConfiguration) : Nat := 1000000000 / configuration.period.toNat

/-- What the first half of a set programs. Reference: `drv_epwm.c:119 nu_epwm_set`. -/
def epwmProgram (epwm : EpwmT) (configuration : RtPwmConfiguration) : Option EpwmT :=
  epwmConfigOutputChannel epwm configuration.clock.toNat (configuration.channel.toNat % 2 ^ 8)
    (pwmFreq configuration)
    (configuration.pulse.toNat * 100 % 2 ^ 32 / configuration.period.toNat)

/-- Reference: `drv_epwm.c:98 nu_epwm_set`. -/
def nuEpwmSet (epwm : EpwmT) (configuration : RtPwmConfiguration) : Option (RtErr × EpwmT) :=
  if configuration.period = 0 then some (.ERROR, epwm)
  else
    let pwmChannel := configuration.channel.toNat % 2 ^ 8
    (epwmProgram epwm configuration).map fun epwm' =>
      (.EOK, epwmRescale epwm' pwmChannel (epwm.getPrescaler pwmChannel))

/-- `PWM_CMD_SET`. Reference: `drv_epwm.c:165 nu_epwm_control`. -/
def nuEpwmControl (epwm : EpwmT) (configuration : RtPwmConfiguration) : Option (RtErr × EpwmT) :=
  if (configuration.channel + 1).toNat > EPWM_CHANNEL_NUM then some (.ERROR, epwm)
  else nuEpwmSet epwm configuration

/-- The period and pulse that registers stand for, in nanoseconds: a tick is taken in whole picoseconds, and
the products are 32-bit ones. Reference: `drv_epwm.c:156 nu_epwm_get`, `drv_tpwm.c:200 nu_tpwm_get`. -/
def realTimes (clockFreq prescale period pulse : Nat) : Nat × Nat :=
  let timeTick := 1000000000000 / clockFreq % 2 ^ 32
  ((prescale + 1) * (period + 1) * timeTick % 2 ^ 32 / 1000,
    (prescale + 1) * pulse * timeTick % 2 ^ 32 / 1000)

/-- A configuration with the period and pulse read. -/
def RtPwmConfiguration.read (configuration : RtPwmConfiguration) (times : Nat × Nat) : RtPwmConfiguration :=
  { configuration with period := BitVec.ofNat 32 times.1, pulse := BitVec.ofNat 32 times.2 }

/-- Reference: `drv_epwm.c:143 nu_epwm_get`. -/
def nuEpwmGet (epwm : EpwmT) (configuration : RtPwmConfiguration) : Option RtPwmConfiguration :=
  let pwmChannel := configuration.channel.toNat
  if configuration.clock = 0 then none
  else
    some (configuration.read (realTimes configuration.clock.toNat (epwm.getPrescaler pwmChannel)
      (epwm.PERIOD pwmChannel) (epwm.CMPDAT pwmChannel)))

/-- `PWM_CMD_GET`. Reference: `drv_epwm.c:165 nu_epwm_control`. -/
def nuEpwmControlGet (epwm : EpwmT) (configuration : RtPwmConfiguration) :
    Option (RtErr × RtPwmConfiguration) :=
  if (configuration.channel + 1).toNat > EPWM_CHANNEL_NUM then some (.ERROR, configuration)
  else (nuEpwmGet epwm configuration).map fun configuration' => (.EOK, configuration')

/-- Out of reset. -/
def EpwmT.init : EpwmT := ⟨fun _ => 0, fun _ => 0, fun _ => 0⟩

end NumakerMA35D1.Epwm

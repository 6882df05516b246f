import NumakerMA35D1.Clk.Pll
import NumakerMA35D1.Epwm.DrvEpwm

/-!
# The timer PWM driver

The prescaler, period and comparator of a timer in its PWM mode, and the driver's `PWM_CMD_SET` and
`PWM_CMD_GET`. The clock in a configuration is that of `CLK_GetSYSCLK1Freq`, which a set computes with; a get
asks for the clock of the module. A division by zero, that C leaves undefined, has no result.

Reference: `drv_tpwm.c`, `nu_timer_pwm.c`, `nu_timer.c`.
-/

namespace NumakerMA35D1.Tpwm

open Epwm Clk

/-- Reference: `drv_tpwm.c:22 TPWM_CHANNEL_NUM`. -/
abbrev TPWM_CHANNEL_NUM : Nat := 2

/-- The registers. Reference: `timer_reg.h:720 TIMER_T`. -/
structure TimerT where
  PWMCLKPSC : Nat
  PWMPERIOD : Nat
  PWMCMPDAT : Nat

/-- Reference: `nu_timer_pwm.h:242 TPWM_SET_PRESCALER`. -/
def TimerT.setPrescaler (timer : TimerT) (prescaler : Nat) : TimerT :=
  { timer with PWMCLKPSC := prescaler % 2 ^ 12 }

/-- Reference: `nu_timer_pwm.h:268 TPWM_SET_PERIOD`. -/
def TimerT.setPeriod (timer : TimerT) (period : Nat) : TimerT :=
  { timer with PWMPERIOD := period % 2 ^ 16 }

/-- Reference: `nu_timer_pwm.h:294 TPWM_SET_CMPDAT`. -/
def TimerT.setCmpdat (timer : TimerT) (cmp : Nat) : TimerT :=
  { timer with PWMCMPDAT := cmp % 2 ^ 16 }

/-- The prescaler and the period that the loop leaves. Reference: `nu_timer_pwm.c:62
TPWM_ConfigOutputFreqAndDuty`. -/
def prescalerPeriod (u32PWMClockFreq u32Frequency : Nat) : Nat × Nat :=
  match (List.range' 1 0x1000).find? fun u32Prescaler =>
      u32PWMClockFreq / u32Prescaler / u32Frequency ≤ 0x10000 with
  | some u32Prescaler => (u32Prescaler, u32PWMClockFreq / u32Prescaler / u32Frequency)
  | none => (0x1001, u32PWMClockFreq / 0x1000 / u32Frequency)

/-- Reference: `nu_timer_pwm.c:55 TPWM_ConfigOutputFreqAndDuty`. -/
def tpwmConfigOutputFreqAndDuty (timer : TimerT) (u32PWMClockFreq u32Frequency u32DutyCycle : Nat) :
    Option TimerT :=
  if u32Frequency = 0 then none
  else
    let u32Prescaler := (prescalerPeriod u32PWMClockFreq u32Frequency).1
    let u32Period := (prescalerPeriod u32PWMClockFreq u32Frequency).2
    -- the target frequency is `u32PWMClockFreq / u32Prescaler / u32Period`
    if u32Period = 0 then none
    else
      let u32CMP := if u32DutyCycle ≠ 0 then u32DutyCycle * u32Period % 2 ^ 32 / 100 else 0
      some (((timer.setPrescaler (u32Prescaler - 1)).setPeriod (u32Period - 1)).setCmpdat u32CMP)

/-- Reference: `drv_tpwm.c:168 nu_tpwm_set`. -/
def nuTpwmSet (timer : TimerT) (configuration : RtPwmConfiguration) : Option (RtErr × TimerT) :=
  if configuration.period = 0 then some (.ERROR, timer)
  else
    (tpwmConfigOutputFreqAndDuty timer configuration.clock.toNat (pwmFreq configuration)
      (configuration.pulse.toNat * 100 % 2 ^ 32 / configuration.period.toNat)).map fun timer' =>
        (.EOK, timer')

/-- `u32Src` is the timer's field of `CLKSEL1` or `CLKSEL2`. Reference: `nu_timer.c:244
TIMER_GetModuleClock`. -/
def timerGetModuleClock (sysclk1Freq : Nat) (u32Src : BitVec 3) : Nat :=
  let au32Clk : List Nat := [hxt.toNat, 32768, 0, 0, 0, 30000, 0, 12000000]
  if u32Src = 2#3 then sysclk1Freq else au32Clk.getD u32Src.toNat 0

/-- Reference: `drv_tpwm.c:189 nu_tpwm_get`. -/
def nuTpwmGet (timer : TimerT) (u32Src : BitVec 3) (configuration : RtPwmConfiguration) :
    Option RtPwmConfiguration :=
  let u32TPWMClockFreq := timerGetModuleClock configuration.clock.toNat u32Src
  if u32TPWMClockFreq = 0 then none
  else
    some (configuration.read (realTimes u32TPWMClockFreq timer.PWMCLKPSC timer.PWMPERIOD timer.PWMCMPDAT))

/-- `PWM_CMD_SET`. Reference: `drv_tpwm.c:212 nu_tpwm_control`. -/
def nuTpwmControl (timer : TimerT) (configuration : RtPwmConfiguration) : Option (RtErr × TimerT) :=
  if (configuration.channel + 1).toNat > TPWM_CHANNEL_NUM then some (.ERROR, timer)
  else nuTpwmSet timer configuration

/-- `PWM_CMD_GET`. Reference: `drv_tpwm.c:212 nu_tpwm_control`. -/
def nuTpwmControlGet (timer : TimerT) (u32Src : BitVec 3) (configuration : RtPwmConfiguration) :
    Option (RtErr × RtPwmConfiguration) :=
  if (configuration.channel + 1).toNat > TPWM_CHANNEL_NUM then some (.ERROR, configuration)
  else (nuTpwmGet timer u32Src configuration).map fun configuration' => (.EOK, configuration')

end NumakerMA35D1.Tpwm

import NumakerMA35D1.Epwm.SetRun
import NumakerMA35D1.Lib.Truncation
import NumakerMA35D1.Tpwm.DrvTpwm

/-!
# Periods and pulses set and read back

`setGet_right`: on the timer PWM and on the EPWM, a get after a set returns the period of the whole number of
hertz asked for and the whole percentage of it asked for, each rounded down by a timer count and by less than a
picosecond a clock and a nanosecond. The registers hold what was computed, and no product exceeds a word. A
period that is not that of a whole number of hertz is returned as one that is off by many counts
(`not_setGetExact`).

Reference: `drv_tpwm.c`, `drv_epwm.c`.
-/

namespace NumakerMA35D1.Tpwm

open Embedded Epwm

/-! ## Specification -/

/-- The registers that a channel's output follows. -/
structure PwmRegs where
  prescaler : Nat
  period : Nat
  compare : Nat

/-- Those of a timer. -/
def TimerT.regs (timer : TimerT) : PwmRegs := ⟨timer.PWMCLKPSC, timer.PWMPERIOD, timer.PWMCMPDAT⟩

/-- Those of an EPWM channel. -/
def epwmRegs (epwm : EpwmT) (ch : Nat) : PwmRegs := ⟨epwm.getPrescaler ch, epwm.PERIOD ch, epwm.CMPDAT ch⟩

/-- The whole percentage of a pulse. -/
def wholePercent (configuration : RtPwmConfiguration) : Nat :=
  configuration.pulse.toNat * 100 / configuration.period.toNat

/-- A timer count in nanoseconds. -/
def countTime (configuration : RtPwmConfiguration) (regs : PwmRegs) : ℚ :=
  (regs.prescaler + 1 : Nat) * (10 ^ 9 / configuration.clock.toNat)

/-- The values computed are in the registers, fit their fields, and no product of a set or a get exceeds a
word. -/
structure RegsFit (configuration : RtPwmConfiguration) (regs : PwmRegs) : Prop where
  counts : regs.period + 1 =
    configuration.clock.toNat / (pwmFreq configuration * (regs.prescaler + 1))
  percentage : regs.compare = wholePercent configuration * (regs.period + 1) / 100
  prescaler : regs.prescaler < 2 ^ 12
  period : regs.period < 2 ^ 16
  compare : regs.compare < 2 ^ 16
  percentProduct : configuration.pulse.toNat * 100 < 2 ^ 32
  compareProduct : wholePercent configuration * (regs.period + 1) < 2 ^ 32
  tick : 10 ^ 12 / configuration.clock.toNat < 2 ^ 32
  periodProduct : (regs.prescaler + 1) * (regs.period + 1) * (10 ^ 12 / configuration.clock.toNat) < 2 ^ 32
  pulseProduct : (regs.prescaler + 1) * regs.compare * (10 ^ 12 / configuration.clock.toNat) < 2 ^ 32

/-- What is read is what was asked for, up to a count and, for the pulse, a percentage. -/
structure Exact (configuration : RtPwmConfiguration) (regs : PwmRegs) (read : RtPwmConfiguration) : Prop where
  fit : RegsFit configuration regs
  period : |(read.period.toNat : ℚ) - configuration.period.toNat| ≤ countTime configuration regs + 1
  pulse : |(read.pulse.toNat : ℚ) - configuration.pulse.toNat| ≤
    configuration.period.toNat / 100 + countTime configuration regs + 1

/-- What is read is the period of the whole number of hertz asked for and the whole percentage of it, rounded
down by a count, a picosecond a clock and a nanosecond. -/
structure Rounded (configuration : RtPwmConfiguration) (regs : PwmRegs) (read : RtPwmConfiguration) :
    Prop where
  fit : RegsFit configuration regs
  period : RoundsDown (countTime configuration regs +
    ((regs.prescaler + 1 : Nat) * (regs.period + 1 : Nat) / 1000 + 1)) (10 ^ 9 / pwmFreq configuration)
      read.period.toNat
  pulse : RoundsDown ((wholePercent configuration / 100 + 1) * countTime configuration regs +
    ((regs.prescaler + 1 : Nat) * regs.compare / 1000 + 1))
      (wholePercent configuration / 100 * (10 ^ 9 / pwmFreq configuration)) read.pulse.toNat

/-- A set and a get of a timer, and what they leave. -/
def TpwmSetGet (Q : RtPwmConfiguration → PwmRegs → RtPwmConfiguration → Prop) (timer : TimerT)
    (u32Src : BitVec 3) (configuration : RtPwmConfiguration) : Prop :=
  ∃ timer' read, nuTpwmControl timer configuration = some (.EOK, timer') ∧
    nuTpwmControlGet timer' u32Src configuration = some (.EOK, read) ∧ Q configuration timer'.regs read

/-- A set and a get of a channel of an EPWM, and what they leave. -/
def EpwmSetGet (Q : RtPwmConfiguration → PwmRegs → RtPwmConfiguration → Prop) (epwm : EpwmT)
    (configuration : RtPwmConfiguration) : Prop :=
  ∃ epwm' read, nuEpwmControl epwm configuration = some (.EOK, epwm') ∧
    nuEpwmControlGet epwm' configuration = some (.EOK, read) ∧
    Q configuration (epwmRegs epwm' configuration.channel.toNat) read

/-- A period and a pulse not above it that a timer of so many counts can make. -/
structure Request (configuration : RtPwmConfiguration) (channels counts : Nat) : Prop where
  channel : configuration.channel.toNat < channels
  period : 0 < configuration.period.toNat
  pulse : configuration.pulse.toNat ≤ configuration.period.toNat
  range : 10 ^ 9 ≤ configuration.period.toNat * configuration.clock.toNat
  counts : configuration.period.toNat * configuration.clock.toNat ≤ counts * 10 ^ 9

/-- The specification: on both drivers a request in the range of the timer is read back exactly. -/
def SetGetExact : Prop :=
  (∀ (timer : TimerT) (u32Src : BitVec 3) (configuration : RtPwmConfiguration),
    Request configuration TPWM_CHANNEL_NUM (2 ^ 12 * 2 ^ 16) → TpwmSetGet Exact timer u32Src configuration) ∧
  ∀ (configurations : List RtPwmConfiguration) (epwm : EpwmT), Run epwmStep EpwmT.init configurations epwm →
    ∀ configuration, Request configuration EPWM_CHANNEL_NUM (2 ^ 12 * 2 ^ 16) →
      EpwmSetGet Exact epwm configuration

/-- A request of less than 4.3 milliseconds, for which the products of a get are below `2 ^ 32`, and of at
least a clock. -/
structure ShortRequest (configuration : RtPwmConfiguration) (channels : Nat) : Prop where
  channel : configuration.channel.toNat < channels
  period : 0 < configuration.period.toNat
  pulse : configuration.pulse.toNat ≤ configuration.period.toNat
  short : configuration.period.toNat ≤ 4291845
  range : pwmFreq configuration ≤ configuration.clock.toNat

/-- With a prescaler one below the present one the period would not fit the counter, so that a set does not
lower the prescaler. -/
def NotLowered (epwm : EpwmT) (configuration : RtPwmConfiguration) : Prop :=
  epwm.getPrescaler configuration.channel.toNat = 0 ∨
    0x10000 ≤ configuration.clock.toNat / pwmFreq configuration /
      epwm.getPrescaler configuration.channel.toNat

/-! ## Reading back -/

variable {configuration : RtPwmConfiguration} {regs : PwmRegs} {epwm : EpwmT} {channels c m : Nat}

/-- A number of clocks, as a get reads it. -/
theorem clocks_roundsDown (hc : 0 < c) (m : Nat) :
    RoundsDown (m / 1000 + 1) (m * (10 ^ 9 / c)) ((m * (10 ^ 12 / c) / 1000 : Nat) : ℚ) := by
  have htick := (roundsDown_div (10 ^ 12) hc).mul_left (k := (m : ℚ) / 1000) (by positivity)
  have hread := roundsDown_div (m * (10 ^ 12 / c)) (b := 1000) (by decide)
  have hmid : (m : ℚ) / 1000 * ((10 ^ 12 / c : Nat) : ℚ) = ((m * (10 ^ 12 / c) : Nat) : ℚ) / (1000 : Nat) := by
    push_cast
    ring
  have hslack : (m : ℚ) / 1000 * 1 = m / 1000 := mul_one _
  have hexact : (m : ℚ) / 1000 * (((10 ^ 12 : Nat) : ℚ) / c) = m * (10 ^ 9 / c) := by
    push_cast
    ring
  rw [hmid, hslack, hexact] at htick
  exact htick.trans hread

/-- The counts of a period are those of the whole number of hertz, rounded down by one. -/
theorem counts_roundsDown (h : RegsFit configuration regs) (hclock : 0 < configuration.clock.toNat)
    (hfreq : 0 < pwmFreq configuration) :
    RoundsDown (countTime configuration regs) (10 ^ 9 / pwmFreq configuration)
      (countTime configuration regs * (regs.period + 1 : Nat)) := by
  have hcount : 0 ≤ countTime configuration regs := by
    unfold countTime
    positivity
  have hpos : 0 < pwmFreq configuration * (regs.prescaler + 1) := Nat.mul_pos hfreq (Nat.succ_pos _)
  have hdown := (roundsDown_div configuration.clock.toNat hpos).mul_left hcount
  rw [← h.counts] at hdown
  have hexact : countTime configuration regs * ((configuration.clock.toNat : ℚ) /
      (pwmFreq configuration * (regs.prescaler + 1) : Nat)) = 10 ^ 9 / pwmFreq configuration := by
    have hc : (configuration.clock.toNat : ℚ) ≠ 0 := by exact_mod_cast hclock.ne'
    have hf : (pwmFreq configuration : ℚ) ≠ 0 := by exact_mod_cast hfreq.ne'
    have hp : ((regs.prescaler : ℚ) + 1) ≠ 0 := by positivity
    unfold countTime
    push_cast
    field_simp
  rw [mul_one, hexact] at hdown
  exact hdown

/-- The counts of a pulse are those of the whole percentage, rounded down by one and by that of the period. -/
theorem compare_roundsDown (h : RegsFit configuration regs) (hclock : 0 < configuration.clock.toNat)
    (hfreq : 0 < pwmFreq configuration) :
    RoundsDown ((wholePercent configuration / 100 + 1) * countTime configuration regs)
      (wholePercent configuration / 100 * (10 ^ 9 / pwmFreq configuration))
      (countTime configuration regs * regs.compare) := by
  have hcount : 0 ≤ countTime configuration regs := by
    unfold countTime
    positivity
  have hperiod := (counts_roundsDown h hclock hfreq).mul_left
    (by positivity : (0 : ℚ) ≤ wholePercent configuration / 100)
  have hcompare := (roundsDown_div (wholePercent configuration * (regs.period + 1))
    (by decide : 0 < 100)).mul_left hcount
  rw [← h.percentage] at hcompare
  have hmid : countTime configuration regs * (((wholePercent configuration * (regs.period + 1) : Nat) : ℚ) /
      (100 : Nat)) = wholePercent configuration / 100 * (countTime configuration regs *
        (regs.period + 1 : Nat)) := by
    push_cast
    ring
  rw [hmid] at hcompare
  have hslack : wholePercent configuration / 100 * countTime configuration regs +
      countTime configuration regs * 1 =
      (wholePercent configuration / 100 + 1) * countTime configuration regs := by ring
  rw [← hslack]
  exact hperiod.trans hcompare

/-- What the registers stand for in nanoseconds. -/
theorem countTime_mul (configuration : RtPwmConfiguration) (regs : PwmRegs) (m : Nat) :
    countTime configuration regs * m =
      (((regs.prescaler + 1) * m : Nat) : ℚ) * (10 ^ 9 / configuration.clock.toNat) := by
  unfold countTime
  push_cast
  ring

/-- The times that a get computes, where no product exceeds a word. -/
theorem realTimes_eq (h : RegsFit configuration regs) :
    realTimes configuration.clock.toNat regs.prescaler regs.period regs.compare =
      ((regs.prescaler + 1) * (regs.period + 1) * (10 ^ 12 / configuration.clock.toNat) / 1000,
        (regs.prescaler + 1) * regs.compare * (10 ^ 12 / configuration.clock.toNat) / 1000) := by
  have htick : 1000000000000 / configuration.clock.toNat % 2 ^ 32 = 10 ^ 12 / configuration.clock.toNat :=
    Nat.mod_eq_of_lt h.tick
  rw [realTimes, htick, Nat.mod_eq_of_lt h.periodProduct, Nat.mod_eq_of_lt h.pulseProduct]

/-- A get reads what a set that fits has left. -/
theorem rounded_read (h : RegsFit configuration regs) (hclock : 0 < configuration.clock.toNat)
    (hfreq : 0 < pwmFreq configuration) :
    Rounded configuration regs (configuration.read
      (realTimes configuration.clock.toNat regs.prescaler regs.period regs.compare)) := by
  rw [realTimes_eq h]
  have hword : ∀ n, n < 2 ^ 32 → (BitVec.ofNat 32 (n / 1000)).toNat = n / 1000 := by
    intro n hn
    exact Nat.mod_eq_of_lt (Nat.lt_of_le_of_lt (Nat.div_le_self n 1000) hn)
  refine ⟨h, ?_, ?_⟩
  · have hperiod := counts_roundsDown h hclock hfreq
    have hread := clocks_roundsDown hclock ((regs.prescaler + 1) * (regs.period + 1))
    rw [countTime_mul] at hperiod
    have hdown := hperiod.trans hread
    rw [Nat.cast_mul] at hdown
    rw [RtPwmConfiguration.read, hword _ h.periodProduct]
    exact hdown
  · have hpulse := compare_roundsDown h hclock hfreq
    have hread := clocks_roundsDown hclock ((regs.prescaler + 1) * regs.compare)
    rw [countTime_mul] at hpulse
    have hdown := hpulse.trans hread
    rw [Nat.cast_mul] at hdown
    rw [RtPwmConfiguration.read, hword _ h.pulseProduct]
    exact hdown

/-! ## What fits -/

/-- A request of less than 4.3 milliseconds is of at least 233 hertz. -/
theorem ShortRequest.freq (h : ShortRequest configuration channels) :
    233 ≤ pwmFreq configuration := by
  refine (Nat.le_div_iff_mul_le h.period).2 ?_
  have hshort := h.short
  omega

/-- A pulse not above the period is of at most a hundred percent. -/
theorem ShortRequest.percent (h : ShortRequest configuration channels) :
    wholePercent configuration ≤ 100 := by
  refine Nat.div_le_of_le_mul ?_
  rw [Nat.mul_comm configuration.period.toNat]
  have hpulse := h.pulse
  omega

/-- The percentage that a set computes does not wrap. -/
theorem ShortRequest.percent_eq (h : ShortRequest configuration channels) :
    configuration.pulse.toNat * 100 % 2 ^ 32 / configuration.period.toNat = wholePercent configuration := by
  have hpulse := h.pulse
  have hshort := h.short
  rw [Nat.mod_eq_of_lt (by omega : configuration.pulse.toNat * 100 < 2 ^ 32), wholePercent]

/-- The clocks of a period, each of a tick, are at most a period of a hertz. -/
theorem clocks_mul_tick_lt {p n f c : Nat} (hf : 233 ≤ f) (h : p * n * f ≤ c) :
    p * n * (10 ^ 12 / c) < 2 ^ 32 := by
  have htick : 10 ^ 12 / c * c ≤ 10 ^ 12 := Nat.div_mul_le_self _ _
  have hle : p * n * (10 ^ 12 / c) * 233 ≤ 10 ^ 12 :=
    calc p * n * (10 ^ 12 / c) * 233
        ≤ p * n * (10 ^ 12 / c) * f := Nat.mul_le_mul_left _ hf
      _ = p * n * f * (10 ^ 12 / c) := Nat.mul_right_comm _ _ _
      _ ≤ c * (10 ^ 12 / c) := Nat.mul_le_mul_right _ h
      _ ≤ 10 ^ 12 := Nat.mul_comm c _ ▸ htick
  omega

/-- Counts that a set leaves for a request of less than 4.3 milliseconds fit, if the full percentage does. -/
theorem regsFit_of_counts (h : ShortRequest configuration channels) {p n : Nat} (hp : 1 ≤ p)
    (hp' : p ≤ 2 ^ 12) (hn : 1 ≤ n) (hn' : n ≤ 2 ^ 16)
    (hcounts : n = configuration.clock.toNat / pwmFreq configuration / p)
    (hfull : configuration.pulse = configuration.period → n < 2 ^ 16) :
    RegsFit configuration ⟨p - 1, n - 1, wholePercent configuration * n / 100⟩ := by
  have hfreq := h.freq
  have hpercent := h.percent
  have hpulse := h.pulse
  have hshort := h.short
  have hp1 : p - 1 + 1 = p := by omega
  have hn1 : n - 1 + 1 = n := by omega
  have hclock : 0 < configuration.clock.toNat := Nat.lt_of_lt_of_le (by omega) h.range
  have hn'' : n = configuration.clock.toNat / (pwmFreq configuration * p) := by
    rw [hcounts, Nat.div_div_eq_div_mul]
  have hmul : p * n * pwmFreq configuration ≤ configuration.clock.toNat := by
    rw [Nat.mul_right_comm, Nat.mul_comm p, hn'', Nat.mul_comm]
    exact Nat.div_mul_le_self _ _
  have hcompare : wholePercent configuration * n / 100 ≤ n :=
    Nat.div_le_of_le_mul (Nat.mul_le_mul_right n hpercent)
  have hperiodProduct := clocks_mul_tick_lt hfreq hmul
  refine ⟨?_, ?_, by dsimp only; omega, by dsimp only; omega, ?_, by omega, ?_, ?_, ?_, ?_⟩
  · dsimp only
    rw [hp1, hn1]
    exact hn''
  · dsimp only
    rw [hn1]
  · dsimp only
    rcases Nat.lt_or_ge n (2 ^ 16) with hlt | hge
    · exact Nat.lt_of_le_of_lt hcompare hlt
    · have hne : configuration.pulse.toNat ≠ configuration.period.toNat := by
        intro heq
        exact absurd (hfull (BitVec.eq_of_toNat_eq heq)) (Nat.not_lt_of_le hge)
      have hlt : wholePercent configuration < 100 := by
        refine Nat.div_lt_of_lt_mul ?_
        omega
      have hmul : wholePercent configuration * n ≤ 99 * n := Nat.mul_le_mul_right n (by omega)
      omega
  · dsimp only
    rw [hn1]
    have hmul : wholePercent configuration * n ≤ 100 * n := Nat.mul_le_mul_right n hpercent
    omega
  · have hclock' : 233 ≤ configuration.clock.toNat := hfreq.trans h.range
    have hle : 10 ^ 12 / configuration.clock.toNat ≤ 10 ^ 12 / 233 :=
      Nat.div_le_div_left hclock' (by decide)
    omega
  · dsimp only
    rw [hp1, hn1]
    exact hperiodProduct
  · dsimp only
    rw [hp1]
    refine Nat.lt_of_le_of_lt ?_ hperiodProduct
    exact Nat.mul_le_mul_right _ (Nat.mul_le_mul_left p hcompare)

/-! ## The timer PWM -/

/-- A request of less than 4.3 milliseconds is in the range of a search up to `limit`. -/
theorem ShortRequest.div_lt (h : ShortRequest configuration channels) {n limit : Nat} (hn : 0xFFE ≤ n)
    (hlimit : 0x10000 ≤ limit) : configuration.clock.toNat / pwmFreq configuration / n < limit := by
  have hfreq := h.freq
  have hclock := configuration.clock.isLt
  have hticks : configuration.clock.toNat / pwmFreq configuration ≤ configuration.clock.toNat / 233 :=
    Nat.div_le_div_left hfreq (by decide)
  have hle : configuration.clock.toNat / pwmFreq configuration / n ≤
      configuration.clock.toNat / pwmFreq configuration / 0xFFE := Nat.div_le_div_left hn (by decide)
  omega

/-- The loop of the timer PWM finds its divisor. -/
theorem prescalerPeriod_spec (h : ShortRequest configuration channels) :
    ∃ p n, prescalerPeriod configuration.clock.toNat (pwmFreq configuration) = (p, n) ∧ 1 ≤ p ∧
      p ≤ 2 ^ 12 ∧ 1 ≤ n ∧ n ≤ 2 ^ 16 ∧ n = configuration.clock.toNat / pwmFreq configuration / p := by
  have hcomm : ∀ d, configuration.clock.toNat / d / pwmFreq configuration =
      configuration.clock.toNat / pwmFreq configuration / d := by
    intro d
    rw [Nat.div_div_eq_div_mul, Nat.div_div_eq_div_mul, Nat.mul_comm]
  have hsearch : (fun d => decide (configuration.clock.toNat / d / pwmFreq configuration ≤ 0x10000)) =
      fun d => decide (configuration.clock.toNat / pwmFreq configuration / d < 0x10001) := by
    funext d
    rw [hcomm, decide_eq_decide, Nat.lt_succ_iff]
  obtain ⟨p, hfind⟩ := find_divisor_isSome (by decide : 1 ≤ 0x1000)
    (h.div_lt (by decide : 0xFFE ≤ 0x1000) (by decide : 0x10000 ≤ 0x10001))
  obtain ⟨hp, hp', hlt, hpos⟩ := find_divisor_spec (by decide) hfind
  have hfreq : 0 < pwmFreq configuration := Nat.lt_of_lt_of_le (by decide) h.freq
  refine ⟨p, _, ?_, hp, hp', hpos (Nat.div_pos h.range hfreq), Nat.le_of_lt_succ hlt, rfl⟩
  rw [prescalerPeriod, hsearch, hfind]
  dsimp only
  rw [hcomm]

/-- The channel of a request is one of the device. -/
theorem channel_checked (h : configuration.channel.toNat < channels) (hc : channels < 2 ^ 32) :
    ¬ (configuration.channel + 1).toNat > channels := by
  have hone : (1 : BitVec 32).toNat = 1 := rfl
  rw [BitVec.toNat_add, hone, Nat.mod_eq_of_lt (by omega)]
  omega

/-- A period asked for is not zero. -/
theorem ShortRequest.period_ne (h : ShortRequest configuration channels) : configuration.period ≠ 0 := by
  intro hzero
  have hpos := h.period
  rw [hzero] at hpos
  exact absurd hpos (by decide)

/-- A set and a get of a timer whose clock is the one that the set computes with. -/
theorem tpwm_right (timer : TimerT) {u32Src : BitVec 3} (h : ShortRequest configuration TPWM_CHANNEL_NUM)
    (hclock : timerGetModuleClock configuration.clock.toNat u32Src = configuration.clock.toNat)
    (hfull : configuration.pulse = configuration.period →
      (prescalerPeriod configuration.clock.toNat (pwmFreq configuration)).2 < 2 ^ 16) :
    TpwmSetGet Rounded timer u32Src configuration := by
  have hfreq : 0 < pwmFreq configuration := Nat.lt_of_lt_of_le (by decide) h.freq
  have hclk : 0 < configuration.clock.toNat := Nat.lt_of_lt_of_le hfreq h.range
  obtain ⟨p, n, hloop, hp, hp', hn, hn', hcounts⟩ := prescalerPeriod_spec h
  rw [hloop] at hfull
  have hfit := regsFit_of_counts h hp hp' hn hn' hcounts hfull
  have hcmp : (if wholePercent configuration ≠ 0 then wholePercent configuration * n % 2 ^ 32 / 100 else 0) =
      wholePercent configuration * n / 100 := by
    have hlt := hfit.compareProduct
    have hn1 : n - 1 + 1 = n := by omega
    rw [hn1] at hlt
    split
    · rw [Nat.mod_eq_of_lt hlt]
    · next hzero => rw [not_not.1 hzero, Nat.zero_mul]
  have hset : nuTpwmControl timer configuration =
      some (.EOK, ⟨p - 1, n - 1, wholePercent configuration * n / 100⟩) := by
    rw [nuTpwmControl, if_neg (channel_checked h.channel (by decide)), nuTpwmSet, if_neg h.period_ne,
      h.percent_eq, tpwmConfigOutputFreqAndDuty, if_neg hfreq.ne', hloop]
    dsimp only
    rw [if_neg (by omega : ¬ n = 0), hcmp, TimerT.setPrescaler, TimerT.setPeriod, TimerT.setCmpdat,
      Nat.mod_eq_of_lt hfit.prescaler, Nat.mod_eq_of_lt hfit.period, Nat.mod_eq_of_lt hfit.compare]
    rfl
  refine ⟨_, _, hset, ?_, rounded_read hfit hclk hfreq⟩
  rw [nuTpwmControlGet, if_neg (channel_checked h.channel (by decide)), nuTpwmGet, hclock]
  dsimp only
  rw [if_neg hclk.ne']
  rfl

/-! ## The EPWM -/

/-- The loop of the EPWM finds its divisor. -/
theorem prescaleCounts_short (h : ShortRequest configuration channels) {p n : Nat}
    (hcounts : prescaleCounts (configuration.clock.toNat / pwmFreq configuration) = (p, n)) :
    1 ≤ p ∧ p ≤ 2 ^ 12 ∧ 1 ≤ n ∧ n < 2 ^ 16 ∧
      n = configuration.clock.toNat / pwmFreq configuration / p := by
  obtain ⟨d, hfind⟩ := find_divisor_isSome (by decide : 1 ≤ 0xFFF - 1)
    (h.div_lt (by decide : 0xFFE ≤ 0xFFF - 1) (Nat.le_refl 0x10000))
  obtain ⟨hp, hp', hlt, hpos⟩ := find_divisor_spec (by decide) hfind
  have hfreq : 0 < pwmFreq configuration := Nat.lt_of_lt_of_le (by decide) h.freq
  rw [prescaleCounts, hfind] at hcounts
  cases hcounts
  exact ⟨hp, by omega, hpos (Nat.div_pos h.range hfreq), hlt, rfl⟩

/-- A set that does not lower the prescaler of its pair, and a get. -/
theorem epwm_right (hregs : RegsInRange epwm)
    (h : ShortRequest configuration EPWM_CHANNEL_NUM) (hm : NotLowered epwm configuration) :
    EpwmSetGet Rounded epwm configuration := by
  have hfreq : 0 < pwmFreq configuration := Nat.lt_of_lt_of_le (by decide) h.freq
  have hclk : 0 < configuration.clock.toNat := Nat.lt_of_lt_of_le hfreq h.range
  have hsecond : configuration.period.toNat ≤ 1000000000 := h.short.trans (by decide)
  have hch : configuration.channel.toNat % 2 ^ 8 = configuration.channel.toNat :=
    Nat.mod_eq_of_lt (Nat.lt_of_lt_of_le h.channel (by decide))
  obtain ⟨p, n, hcounts, hprogram⟩ := @epwmProgram_eq epwm _ h.period_ne hsecond h.range
  obtain ⟨hp, hp', hn, hn', hdiv⟩ := prescaleCounts_short h hcounts
  have hfit := regsFit_of_counts h hp hp' hn hn'.le hdiv fun _ => hn'
  have hmeets : SetMeets epwm configuration := by
    intro _ _
    rw [hch]
    exact ⟨hsecond, h.range, hm⟩
  obtain ⟨e, epwm', hset, hok, -⟩ := setRight_of_meets hregs hmeets
  have he : e = .EOK := by
    rw [nuEpwmControl, if_neg (channel_checked h.channel (by decide)), nuEpwmSet, if_neg h.period_ne,
      hprogram] at hset
    cases hset
    rfl
  obtain ⟨programmed, hprogrammed, hkept⟩ := hok he
  rw [hprogram] at hprogrammed
  rw [hch, h.percent_eq] at hprogrammed
  cases hprogrammed
  rw [hch] at hkept
  have hregs' : epwmRegs epwm' configuration.channel.toNat =
      ⟨p - 1, n - 1, wholePercent configuration * n / 100⟩ := by
    have hlt := hfit.compareProduct
    have hn1 : n - 1 + 1 = n := by omega
    rw [hn1] at hlt
    have hpsc : (p - 1) % 2 ^ 12 = p - 1 := Nat.mod_eq_of_lt hfit.prescaler
    have hper : (n - 1) % 2 ^ 16 = n - 1 := Nat.mod_eq_of_lt hfit.period
    have hcmp : wholePercent configuration * n / 100 % 2 ^ 16 = wholePercent configuration * n / 100 :=
      Nat.mod_eq_of_lt hfit.compare
    have hprescaler : epwm'.getPrescaler configuration.channel.toNat = (p - 1) % 2 ^ 12 :=
      hkept.prescaler.trans getPrescaler_setPrescaler
    rw [epwmRegs, hprescaler, hkept.period, hkept.duty, setCMR_PERIOD, setCNR_PERIOD_self,
      setCMR_CMPDAT_self, Nat.mod_eq_of_lt hlt, hpsc, hper, hcmp]
  refine ⟨epwm', configuration.read (realTimes configuration.clock.toNat (p - 1) (n - 1)
    (wholePercent configuration * n / 100)), he ▸ hset, ?_, hregs' ▸ rounded_read hfit hclk hfreq⟩
  have hclock : ¬ configuration.clock = 0 := by
    intro hzero
    rw [hzero] at hclk
    exact absurd hclk (by decide)
  rw [nuEpwmControlGet, if_neg (channel_checked h.channel (by decide)), nuEpwmGet, if_neg hclock]
  obtain ⟨hprescaler, hperiod, hcompare⟩ := PwmRegs.mk.inj hregs'
  rw [hprescaler, hperiod, hcompare]
  rfl

/-! ## Main results -/

/-- The products of the correction of the other channel of a pair stay below a word. -/
theorem rescale_products (hregs : RegsInRange epwm) (k : Nat) :
    (epwm.PERIOD k + 1) * (epwm.getPrescaler k + 1) < 2 ^ 32 ∧
      epwm.CMPDAT k * (epwm.getPrescaler k + 1) < 2 ^ 32 := by
  have hpsc : epwm.getPrescaler k + 1 ≤ 0xFFF := Nat.succ_le_succ (hregs.CLKPSC (k / 2))
  have hperiod := Nat.mul_le_mul (hregs.PERIOD k) hpsc
  have hcompare := Nat.mul_le_mul (hregs.CMPDAT k).le hpsc
  rw [Nat.succ_eq_add_one] at hperiod
  exact ⟨Nat.lt_of_le_of_lt hperiod (by decide), Nat.lt_of_le_of_lt hcompare (by decide)⟩

/-- On both drivers a get after a set returns what was asked for, rounded: on a timer whose clock is the one
that the set computes with, and whose full period is not one of all the counts; on a channel of the EPWM, in
every state that sets lead to, by a set that does not lower the prescaler of the pair. -/
theorem setGet_right :
    (∀ (timer : TimerT) (u32Src : BitVec 3) (configuration : RtPwmConfiguration),
      ShortRequest configuration TPWM_CHANNEL_NUM →
      timerGetModuleClock configuration.clock.toNat u32Src = configuration.clock.toNat →
      (configuration.pulse = configuration.period →
        (prescalerPeriod configuration.clock.toNat (pwmFreq configuration)).2 < 2 ^ 16) →
      TpwmSetGet Rounded timer u32Src configuration) ∧
    ∀ (configurations : List RtPwmConfiguration) (epwm : EpwmT), Run epwmStep EpwmT.init configurations epwm →
      ∀ configuration, ShortRequest configuration EPWM_CHANNEL_NUM → NotLowered epwm configuration →
        EpwmSetGet Rounded epwm configuration ∧
        ∀ k, (epwm.PERIOD k + 1) * (epwm.getPrescaler k + 1) < 2 ^ 32 ∧
          epwm.CMPDAT k * (epwm.getPrescaler k + 1) < 2 ^ 32 := by
  refine ⟨fun timer u32Src configuration h hclock hfull => tpwm_right timer h hclock hfull, ?_⟩
  intro configurations epwm hrun configuration h hm
  have hregs := regsInRange_run hrun
  exact ⟨epwm_right hregs h hm, rescale_products hregs⟩

/-- A period of one millisecond with a pulse of a half. -/
def millisecond : RtPwmConfiguration := ⟨0, 1000000, 500000, 24000000⟩

/-- `setGet_right` on one millisecond at 24 MHz, on both drivers out of reset. -/
theorem setGet_right_millisecond :
    TpwmSetGet Rounded ⟨0, 0, 0⟩ 2#3 millisecond ∧ EpwmSetGet Rounded EpwmT.init millisecond :=
  ⟨setGet_right.1 ⟨0, 0, 0⟩ 2#3 millisecond ⟨by decide, by decide, by decide, by decide, by decide⟩ rfl
      fun hfull => absurd hfull (by decide),
    (setGet_right.2 [] EpwmT.init .nil millisecond ⟨by decide, by decide, by decide, by decide, by decide⟩
      (.inl rfl)).1⟩

/-! ## A period that is not a whole number of hertz -/

/-- 256.4 hertz. -/
def shortOfAHertz : RtPwmConfiguration := ⟨0, 3900000, 1950000, 24000000⟩

theorem shortOfAHertz_set : (nuTpwmControl ⟨0, 0, 0⟩ shortOfAHertz).map (fun r => r.2.regs) =
    some ⟨1, 46874, 23437⟩ := by rfl

/-- 3.9 milliseconds at 24 MHz: 256 hertz are set, and 3906187 nanoseconds are read, seventy counts more. -/
theorem not_setGetExact : ¬ SetGetExact := by
  rintro ⟨htpwm, -⟩
  obtain ⟨timer', read, hset, hget, hexact⟩ := htpwm ⟨0, 0, 0⟩ 2#3 shortOfAHertz
    ⟨by decide, by decide, by decide, by decide, by decide⟩
  have hregs := shortOfAHertz_set
  rw [hset] at hregs
  have hregs' : timer'.regs = ⟨1, 46874, 23437⟩ := Option.some.inj hregs
  obtain ⟨hpsc, hper, hcmp⟩ := PwmRegs.mk.inj hregs'
  have hread : (read.period.toNat : ℚ) = 3906187 := by
    rw [nuTpwmControlGet, if_neg (by decide), nuTpwmGet, hpsc, hper, hcmp] at hget
    cases hget
    rfl
  have hperiod := hexact.period
  rw [hread, countTime, hregs'] at hperiod
  have hasked : shortOfAHertz.period.toNat = 3900000 := rfl
  have hclock : shortOfAHertz.clock.toNat = 24000000 := rfl
  rw [hasked, hclock] at hperiod
  norm_num at hperiod

end NumakerMA35D1.Tpwm

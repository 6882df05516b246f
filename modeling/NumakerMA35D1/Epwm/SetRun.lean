import NumakerMA35D1.Epwm.DrvEpwm
import NumakerMA35D1.Lib.Run
import Mathlib.Data.List.Range

/-!
# Periods and duties over sets

`epwmSet_run`: in every state that sets lead to, a set that does not lower the prescaler of its pair
leaves its channel with what was programmed and the other channel with its period and duty, to within
one timer count. A set that lowers the prescaler rescales the registers of the wrong channel
(`not_setRight`).

Reference: `drv_epwm.c`, `nu_epwm.c`.
-/

namespace NumakerMA35D1.Epwm

open Embedded

/-! ## Specification -/

/-- The period of a channel in clocks of the device. Reference: `epwm_reg.h PERIOD`. -/
def periodTicks (epwm : EpwmT) (ch : Nat) : Nat :=
  (epwm.getPrescaler ch + 1) * (epwm.PERIOD ch + 1)

/-- The time in the period for which a channel is high, in clocks of the device. -/
def dutyTicks (epwm : EpwmT) (ch : Nat) : Nat := (epwm.getPrescaler ch + 1) * epwm.CMPDAT ch

/-- Two times at most one count apart. -/
def Within (count a b : Nat) : Prop := a ≤ b + count ∧ b ≤ a + count

/-- The channel has what was programmed, the other one of its pair keeps its period and duty to
within one timer count, and the other pairs keep their registers. -/
structure SetKept (epwm programmed epwm' : EpwmT) (ch : Nat) : Prop where
  prescaler : epwm'.getPrescaler ch = programmed.getPrescaler ch
  period : epwm'.PERIOD ch = programmed.PERIOD ch
  duty : epwm'.CMPDAT ch = programmed.CMPDAT ch
  pairPeriod : Within (epwm'.getPrescaler ch + 1) (periodTicks epwm' (pairOf ch))
    (periodTicks epwm (pairOf ch))
  pairDuty : Within (epwm'.getPrescaler ch + 1) (dutyTicks epwm' (pairOf ch))
    (dutyTicks epwm (pairOf ch))
  rest : ∀ k, k / 2 ≠ ch / 2 → epwm'.getPrescaler k = epwm.getPrescaler k ∧
    epwm'.PERIOD k = epwm.PERIOD k ∧ epwm'.CMPDAT k = epwm.CMPDAT k

/-- A set returns; one that succeeds keeps the channels, one that fails changes nothing. -/
def SetRight (epwm : EpwmT) (configuration : RtPwmConfiguration) : Prop :=
  ∃ e epwm', nuEpwmControl epwm configuration = some (e, epwm') ∧
    (e = .EOK → ∃ programmed, epwmProgram epwm configuration = some programmed ∧
      SetKept epwm programmed epwm' (configuration.channel.toNat % 2 ^ 8)) ∧
    (e ≠ .EOK → epwm' = epwm)

/-- A period asked for is at most a second and at least a clock, and with a prescaler one below the
present one it would not fit the counter. -/
def SetMeets (epwm : EpwmT) (configuration : RtPwmConfiguration) : Prop :=
  (configuration.channel + 1).toNat ≤ EPWM_CHANNEL_NUM → configuration.period ≠ 0 →
    configuration.period.toNat ≤ 1000000000 ∧ pwmFreq configuration ≤ configuration.clock.toNat ∧
    (epwm.getPrescaler (configuration.channel.toNat % 2 ^ 8) = 0 ∨
      0x10000 ≤ configuration.clock.toNat / pwmFreq configuration /
        epwm.getPrescaler (configuration.channel.toNat % 2 ^ 8))

/-- One set. -/
def epwmStep (epwm : EpwmT) (configuration : RtPwmConfiguration) (epwm' : EpwmT) : Prop :=
  ∃ e, nuEpwmControl epwm configuration = some (e, epwm')

/-! ## The registers -/

variable {epwm epwm' : EpwmT} {configuration : RtPwmConfiguration} {ch k v q p n a : Nat}

@[simp] theorem setPrescaler_PERIOD : (epwm.setPrescaler ch v).PERIOD = epwm.PERIOD := rfl
@[simp] theorem setPrescaler_CMPDAT : (epwm.setPrescaler ch v).CMPDAT = epwm.CMPDAT := rfl
@[simp] theorem setCNR_CLKPSC : (epwm.setCNR ch v).CLKPSC = epwm.CLKPSC := rfl
@[simp] theorem setCNR_CMPDAT : (epwm.setCNR ch v).CMPDAT = epwm.CMPDAT := rfl
@[simp] theorem setCMR_CLKPSC : (epwm.setCMR ch v).CLKPSC = epwm.CLKPSC := rfl
@[simp] theorem setCMR_PERIOD : (epwm.setCMR ch v).PERIOD = epwm.PERIOD := rfl

@[simp]
theorem getPrescaler_setPrescaler :
    (epwm.setPrescaler ch v).getPrescaler ch = v % 2 ^ 12 := Function.update_self ..

theorem getPrescaler_setPrescaler_of_ne (h : k / 2 ≠ ch / 2) :
    (epwm.setPrescaler ch v).getPrescaler k = epwm.getPrescaler k := Function.update_of_ne h ..

@[simp]
theorem setCNR_PERIOD_self : (epwm.setCNR ch v).PERIOD ch = v % 2 ^ 16 := Function.update_self ..

@[simp]
theorem setCMR_CMPDAT_self : (epwm.setCMR ch v).CMPDAT ch = v % 2 ^ 16 := Function.update_self ..

theorem setCNR_PERIOD_of_ne (h : k ≠ ch) : (epwm.setCNR ch v).PERIOD k = epwm.PERIOD k :=
  Function.update_of_ne h ..

theorem setCMR_CMPDAT_of_ne (h : k ≠ ch) : (epwm.setCMR ch v).CMPDAT k = epwm.CMPDAT k :=
  Function.update_of_ne h ..

theorem pairOf_ne : pairOf ch ≠ ch := by
  unfold pairOf
  split <;> omega

theorem pairOf_div : pairOf ch / 2 = ch / 2 := by
  unfold pairOf
  split <;> omega

theorem getPrescaler_pairOf : epwm.getPrescaler (pairOf ch) = epwm.getPrescaler ch := by
  rw [EpwmT.getPrescaler, EpwmT.getPrescaler, pairOf_div]

/-- The registers hold the bits of their fields, and the prescaler is one that the driver sets. -/
structure RegsInRange (epwm : EpwmT) : Prop where
  CLKPSC : ∀ k, epwm.CLKPSC k ≤ 0xFFE
  PERIOD : ∀ k, epwm.PERIOD k < 2 ^ 16
  CMPDAT : ∀ k, epwm.CMPDAT k < 2 ^ 16

theorem RegsInRange.setCNR (h : RegsInRange epwm) : RegsInRange (epwm.setCNR ch v) := by
  refine ⟨h.CLKPSC, fun k => ?_, h.CMPDAT⟩
  by_cases hk : k = ch
  · rw [hk, setCNR_PERIOD_self]
    exact Nat.mod_lt _ (by decide)
  · rw [setCNR_PERIOD_of_ne hk]
    exact h.PERIOD k

theorem RegsInRange.setCMR (h : RegsInRange epwm) : RegsInRange (epwm.setCMR ch v) := by
  refine ⟨h.CLKPSC, h.PERIOD, fun k => ?_⟩
  by_cases hk : k = ch
  · rw [hk, setCMR_CMPDAT_self]
    exact Nat.mod_lt _ (by decide)
  · rw [setCMR_CMPDAT_of_ne hk]
    exact h.CMPDAT k

theorem RegsInRange.setPrescaler (h : RegsInRange epwm) (hv : v ≤ 0xFFE) :
    RegsInRange (epwm.setPrescaler ch v) := by
  refine ⟨fun k => ?_, h.PERIOD, h.CMPDAT⟩
  by_cases hk : k = ch / 2
  · rw [hk]
    exact getPrescaler_setPrescaler.trans_le ((Nat.mod_le _ _).trans hv)
  · exact (@Function.update_of_ne _ (fun _ => Nat) _ _ _ hk _ epwm.CLKPSC).trans_le (h.CLKPSC k)

/-! ## What is programmed -/

/-- The loop leaves a divisor of at most `0xFFF`; it is above any that makes the counts too many, and
the counts are at least one if there is a tick. -/
theorem prescaleCounts_spec (h : prescaleCounts q = (p, n)) :
    1 ≤ p ∧ p ≤ 0xFFF ∧ n ≤ 0xFFFF ∧ (∀ d, d ≤ 0xFFE → 0x10000 ≤ q / d → d < p) ∧ (1 ≤ q → 1 ≤ n) := by
  unfold prescaleCounts at h
  split at h
  · next d hfind =>
    obtain ⟨hlt, i, hi, hget, hbefore⟩ := List.find?_eq_some_iff_getElem.1 hfind
    rw [List.length_range'] at hi
    rw [List.getElem_range'_1] at hget
    have hlt' : q / d < 0x10000 := of_decide_eq_true hlt
    cases h
    refine ⟨by omega, by omega, by omega, ?_, ?_⟩
    · intro d' _ hbig
      by_contra hge
      have hmono : q / d' ≤ q / p := Nat.div_le_div_left (Nat.le_of_not_lt hge) (by omega)
      omega
    · intro hq
      rcases Nat.eq_zero_or_pos i with hi0 | hpos
      · have hd : p = 1 := by omega
        rw [hd, Nat.div_one]
        exact hq
      · have hprev := hbefore (i - 1) (by omega)
        rw [List.getElem_range'_1] at hprev
        have hbig : 0x10000 ≤ q / (1 + (i - 1)) := by simpa using hprev
        have hmul := (Nat.le_div_iff_mul_le (by omega)).1 hbig
        exact (Nat.le_div_iff_mul_le (by omega)).2 (by omega)
  · cases h
    exact ⟨by decide, by decide, by decide, fun d hd _ => by omega, fun _ => by decide⟩

/-- What is programmed when no division is by zero. -/
theorem epwmProgram_eq (hperiod : configuration.period ≠ 0)
    (hsecond : configuration.period.toNat ≤ 1000000000)
    (hclock : pwmFreq configuration ≤ configuration.clock.toNat) :
    ∃ p n, prescaleCounts (configuration.clock.toNat / pwmFreq configuration) = (p, n) ∧
      epwmProgram epwm configuration = some (((epwm.setPrescaler
        (configuration.channel.toNat % 2 ^ 8) (p - 1)).setCNR
          (configuration.channel.toNat % 2 ^ 8) (n - 1)).setCMR
            (configuration.channel.toNat % 2 ^ 8)
            (configuration.pulse.toNat * 100 % 2 ^ 32 / configuration.period.toNat * n % 2 ^ 32 / 100)) := by
  have hpos : 0 < configuration.period.toNat := by
    rcases Nat.eq_zero_or_pos configuration.period.toNat with hzero | hpos
    · exact absurd (BitVec.eq_of_toNat_eq hzero) hperiod
    · exact hpos
  have hfreq : 0 < pwmFreq configuration := Nat.div_pos hsecond hpos
  cases hcounts : prescaleCounts (configuration.clock.toNat / pwmFreq configuration) with
  | mk p n =>
    have hn := (prescaleCounts_spec hcounts).2.2.2.2 (Nat.div_pos hclock hfreq)
    refine ⟨p, n, rfl, ?_⟩
    rw [epwmProgram, epwmConfigOutputChannel, if_neg (by omega : ¬ pwmFreq configuration = 0), hcounts]
    dsimp only
    rw [if_neg (by omega : ¬ n = 0)]

/-! ## A change of the prescaler -/

/-- A count rescaled to a larger prescaler. -/
theorem rescale_spec (hp : p < q) (hq : q ≤ 0xFFE) (ha : a ≤ 2 ^ 16) :
    rescale a p q < 2 ^ 16 ∧ (q + 1) * rescale a p q ≤ (p + 1) * a ∧
      (p + 1) * a < (q + 1) * rescale a p q + (q + 1) := by
  have hmul : a * (p + 1) ≤ 2 ^ 16 * 0xFFE := Nat.mul_le_mul ha (by omega)
  have heq : rescale a p q = (p + 1) * a / (q + 1) := by
    rw [rescale, Nat.mod_eq_of_lt (by omega), Nat.mul_comm a]
  have hdm := Nat.div_add_mod ((p + 1) * a) (q + 1)
  have hlt := Nat.mod_lt ((p + 1) * a) (by omega : 0 < q + 1)
  rw [← heq] at hdm
  refine ⟨?_, by omega, by omega⟩
  rw [heq]
  refine Nat.div_lt_of_lt_mul ?_
  calc (p + 1) * a ≤ (p + 1) * 2 ^ 16 := Nat.mul_le_mul_left _ ha
    _ < (q + 1) * 2 ^ 16 := Nat.mul_lt_mul_of_pos_right (by omega) (by decide)

theorem Within.refl {count : Nat} : Within count a a := ⟨Nat.le_add_right _ _, Nat.le_add_right _ _⟩

/-- After a prescaler that is not lower the pair's period and duty are kept. -/
theorem epwmRescale_spec (hold : RegsInRange epwm) (hq : q ≤ 0xFFE)
    (hle : epwm.getPrescaler ch ≤ q) {c : EpwmT} (hc : c.getPrescaler ch = q)
    (hperiod : c.PERIOD (pairOf ch) = epwm.PERIOD (pairOf ch))
    (hduty : c.CMPDAT (pairOf ch) = epwm.CMPDAT (pairOf ch))
    (hrest : ∀ k, k / 2 ≠ ch / 2 → c.getPrescaler k = epwm.getPrescaler k ∧
      c.PERIOD k = epwm.PERIOD k ∧ c.CMPDAT k = epwm.CMPDAT k) :
    SetKept epwm c (epwmRescale c ch (epwm.getPrescaler ch)) ch := by
  have hsame : epwm.getPrescaler ch = q ∨ (epwm.getPrescaler ch = 0 ∧
      epwm.PERIOD (pairOf ch) = 0 ∧ epwm.CMPDAT (pairOf ch) = 0) → SetKept epwm c c ch := by
    intro hcase
    refine ⟨rfl, rfl, rfl, ?_, ?_, hrest⟩
    · rw [periodTicks, periodTicks, getPrescaler_pairOf, getPrescaler_pairOf, hc, hperiod]
      rcases hcase with heq | ⟨hzero, hp, -⟩
      · rw [heq]
        exact Within.refl
      · rw [hzero, hp]
        exact ⟨by omega, by omega⟩
    · rw [dutyTicks, dutyTicks, getPrescaler_pairOf, getPrescaler_pairOf, hc, hduty]
      rcases hcase with heq | ⟨-, -, hd⟩
      · rw [heq]
        exact Within.refl
      · rw [hd]
        exact Within.refl
  unfold epwmRescale
  dsimp only
  rw [hc, hperiod, hduty]
  split
  · split
    · next hlt =>
      obtain ⟨hp1, hp2, hp3⟩ := rescale_spec (a := epwm.PERIOD (pairOf ch) + 1) hlt hq
        (hold.PERIOD (pairOf ch))
      obtain ⟨hd1, hd2, hd3⟩ := rescale_spec hlt hq (Nat.le_of_lt (hold.CMPDAT (pairOf ch)))
      refine ⟨rfl, setCNR_PERIOD_of_ne pairOf_ne.symm, setCMR_CMPDAT_of_ne pairOf_ne.symm, ?_, ?_,
        fun k hk => ?_⟩
      · rw [periodTicks, periodTicks, getPrescaler_pairOf, getPrescaler_pairOf, setCMR_PERIOD,
          setCNR_PERIOD_self, Nat.mod_eq_of_lt hp1]
        change Within (c.getPrescaler ch + 1) ((c.getPrescaler ch + 1) * _) _
        rw [hc, Nat.mul_succ]
        exact ⟨by omega, by omega⟩
      · rw [dutyTicks, dutyTicks, getPrescaler_pairOf, getPrescaler_pairOf, setCMR_CMPDAT_self,
          Nat.mod_eq_of_lt hd1]
        change Within (c.getPrescaler ch + 1) ((c.getPrescaler ch + 1) * _) _
        rw [hc]
        exact ⟨by omega, by omega⟩
      · have hne : k ≠ pairOf ch := by
          rintro rfl
          exact hk pairOf_div
        rw [setCMR_PERIOD, setCNR_PERIOD_of_ne hne, setCMR_CMPDAT_of_ne hne]
        exact hrest k hk
    · split
      · next hgt => exact absurd hle (Nat.not_le_of_gt hgt)
      · next hnlt hngt => exact hsame (.inl (by omega))
  · next hguard =>
    refine hsame (.inr ⟨?_, ?_, ?_⟩)
    · by_contra h
      exact hguard (.inl h)
    · by_contra h
      exact hguard (.inr (.inl h))
    · by_contra h
      exact hguard (.inr (.inr h))

/-- The registers after the first half of a set. -/
theorem epwmProgram_regs {c : EpwmT} {duty : Nat} (hp : p ≤ 0xFFF)
    (hc : ((epwm.setPrescaler ch (p - 1)).setCNR ch (n - 1)).setCMR ch duty = c) :
    c.getPrescaler ch = p - 1 ∧ c.PERIOD (pairOf ch) = epwm.PERIOD (pairOf ch) ∧
    c.CMPDAT (pairOf ch) = epwm.CMPDAT (pairOf ch) ∧
    ∀ k, k / 2 ≠ ch / 2 → c.getPrescaler k = epwm.getPrescaler k ∧
      c.PERIOD k = epwm.PERIOD k ∧ c.CMPDAT k = epwm.CMPDAT k := by
  subst hc
  refine ⟨?_, setCNR_PERIOD_of_ne pairOf_ne, setCMR_CMPDAT_of_ne pairOf_ne, fun k hk => ?_⟩
  · exact getPrescaler_setPrescaler.trans (Nat.mod_eq_of_lt (by omega))
  · have hne : k ≠ ch := fun heq => hk (congrArg (· / 2) heq)
    exact ⟨getPrescaler_setPrescaler_of_ne hk, setCNR_PERIOD_of_ne hne, setCMR_CMPDAT_of_ne hne⟩

/-- A set that meets the condition is right. -/
theorem setRight_of_meets (hregs : RegsInRange epwm) (hm : SetMeets epwm configuration) :
    SetRight epwm configuration := by
  by_cases hch : (configuration.channel + 1).toNat > EPWM_CHANNEL_NUM
  · exact ⟨.ERROR, epwm, if_pos hch, fun he => (nomatch he), fun _ => rfl⟩
  by_cases hperiod : configuration.period = 0
  · refine ⟨.ERROR, epwm, ?_, fun he => (nomatch he), fun _ => rfl⟩
    rw [nuEpwmControl, if_neg hch, nuEpwmSet, if_pos hperiod]
  obtain ⟨hsecond, hclock, hprescaler⟩ := hm (Nat.le_of_not_lt hch) hperiod
  obtain ⟨p, n, hcounts, hprogram⟩ := @epwmProgram_eq epwm _ hperiod hsecond hclock
  obtain ⟨hp1, hp2, -, hbound, -⟩ := prescaleCounts_spec hcounts
  generalize configuration.pulse.toNat * 100 % 2 ^ 32 / configuration.period.toNat * n % 2 ^ 32 / 100 =
    duty at hprogram
  generalize hc : ((epwm.setPrescaler (configuration.channel.toNat % 2 ^ 8) (p - 1)).setCNR
    (configuration.channel.toNat % 2 ^ 8) (n - 1)).setCMR
      (configuration.channel.toNat % 2 ^ 8) duty = c at hprogram
  obtain ⟨hq, hpairPeriod, hpairDuty, hrest⟩ := epwmProgram_regs hp2 hc
  have hle : epwm.getPrescaler (configuration.channel.toNat % 2 ^ 8) ≤ p - 1 := by
    rcases hprescaler with hzero | hbig
    · omega
    · exact Nat.le_pred_of_lt (hbound _ (hregs.CLKPSC _) hbig)
  refine ⟨.EOK, _, ?_, fun _ => ⟨c, hprogram, epwmRescale_spec hregs (by omega) hle hq hpairPeriod
    hpairDuty hrest⟩, fun hne => absurd rfl hne⟩
  rw [nuEpwmControl, if_neg hch, nuEpwmSet, if_neg hperiod, hprogram]
  rfl

/-! ## Runs -/

/-- The registers stay in range over a change of the prescaler. -/
theorem RegsInRange.epwmRescale (h : RegsInRange epwm) : RegsInRange (epwmRescale epwm ch p) := by
  unfold Epwm.epwmRescale
  dsimp only
  split
  · split
    · exact h.setCNR.setCMR
    · split
      · exact h.setCNR.setCMR
      · exact h
  · exact h

/-- A set keeps the registers in range. -/
theorem regsInRange_step (h : RegsInRange epwm) (hstep : epwmStep epwm configuration epwm') :
    RegsInRange epwm' := by
  obtain ⟨e, hexec⟩ := hstep
  unfold nuEpwmControl nuEpwmSet at hexec
  split at hexec
  · cases hexec
    exact h
  split at hexec
  · cases hexec
    exact h
  obtain ⟨c, hprogram, heq⟩ := Option.map_eq_some_iff.1 hexec
  cases heq
  unfold epwmProgram epwmConfigOutputChannel at hprogram
  split at hprogram
  · cases hprogram
  cases hcounts : prescaleCounts (configuration.clock.toNat / pwmFreq configuration) with
  | mk p n =>
    rw [hcounts] at hprogram
    dsimp only at hprogram
    have hp := (prescaleCounts_spec hcounts).2.1
    split at hprogram
    · cases hprogram
    · cases hprogram
      exact (h.setPrescaler (by omega)).setCNR.setCMR.epwmRescale

/-- A set that returns is a step. -/
theorem epwmStep_of_map (h : (nuEpwmControl epwm configuration).map Prod.snd = some epwm') :
    epwmStep epwm configuration epwm' := by
  obtain ⟨r, hr, heq⟩ := Option.map_eq_some_iff.1 h
  exact ⟨r.1, hr.trans (congrArg (fun x => some (r.1, x)) heq)⟩

/-- The registers are in range in every state that sets lead to. -/
theorem regsInRange_run {configurations : List RtPwmConfiguration}
    (h : Run epwmStep EpwmT.init configurations epwm) : RegsInRange epwm := by
  have hinit : RegsInRange EpwmT.init :=
    ⟨fun _ => Nat.zero_le _, fun _ => (by decide : 0 < 2 ^ 16), fun _ => (by decide : 0 < 2 ^ 16)⟩
  exact Run.invariant (I := RegsInRange) regsInRange_step hinit h

/-- In every state that sets lead to, a set that meets the condition returns, leaves its channel with
what was programmed, and keeps the period and duty of the other channel of the pair. -/
theorem epwmSet_run {configurations : List RtPwmConfiguration}
    (h : Run epwmStep EpwmT.init configurations epwm) (configuration : RtPwmConfiguration)
    (hm : SetMeets epwm configuration) : SetRight epwm configuration :=
  setRight_of_meets (regsInRange_run h) hm

/-! ## A prescaler that is lowered -/

/-- A period of ten milliseconds with a pulse of five, at 180 MHz: divisor 28 and 64285 counts. -/
def tenMilliseconds (channel : BitVec 32) : RtPwmConfiguration :=
  ⟨channel, 10000000, 5000000, 180000000⟩

/-- A period of one millisecond with a pulse of a half: divisor 3 and 60000 counts. -/
def oneMillisecond (channel : BitVec 32) : RtPwmConfiguration := ⟨channel, 1000000, 500000, 180000000⟩

theorem afterTen_isSome :
    ((nuEpwmControl EpwmT.init (tenMilliseconds 0)).map Prod.snd).isSome = true := by
  decide +kernel

/-- Channel 0 set to ten milliseconds. -/
def afterTen : EpwmT :=
  ((nuEpwmControl EpwmT.init (tenMilliseconds 0)).map Prod.snd).get afterTen_isSome

theorem afterTen_run : Run epwmStep EpwmT.init [tenMilliseconds 0] afterTen :=
  .snoc .nil (epwmStep_of_map (Option.some_get afterTen_isSome).symm)

/-- Channel 1 set to one millisecond after that: 60000 counts are programmed with divisor 3, and the
driver makes them 6429; channel 0 is left with its counts, at divisor 3. -/
theorem not_setRight : ¬ ∀ (configurations : List RtPwmConfiguration) (epwm : EpwmT),
    Run epwmStep EpwmT.init configurations epwm →
      ∀ configuration, SetRight epwm configuration := by
  intro h
  obtain ⟨e, epwm', hexec, hok, -⟩ := h _ _ afterTen_run (oneMillisecond 1)
  have hregs : (nuEpwmControl afterTen (oneMillisecond 1)).map (fun r => (r.1, r.2.PERIOD 1)) =
      some (.EOK, 6428) := by decide +kernel
  rw [hexec] at hregs
  obtain ⟨rfl, hperiod⟩ := Prod.ext_iff.1 (Option.some.inj hregs)
  obtain ⟨programmed, hprogram, hkept⟩ := hok rfl
  have hprogrammed : (epwmProgram afterTen (oneMillisecond 1)).map (fun c => c.PERIOD 1) =
      some 59999 := by decide +kernel
  rw [hprogram] at hprogrammed
  have hcounts : (6428 : Nat) = 59999 :=
    hperiod.symm.trans (hkept.period.trans (Option.some.inj hprogrammed))
  exact absurd hcounts (by decide)

/-- Channel 0 set to a millisecond, and channel 2 to ten. -/
def twoSets : List RtPwmConfiguration := [oneMillisecond 0, tenMilliseconds 2]

theorem afterTwo_isSome : (twoSets.foldlM (fun epwm configuration =>
    (nuEpwmControl epwm configuration).map Prod.snd) EpwmT.init).isSome = true := by
  decide +kernel

@[inherit_doc twoSets]
def afterTwo : EpwmT := Option.get _ afterTwo_isSome

theorem afterTwo_run : Run epwmStep EpwmT.init twoSets afterTwo :=
  Run.of_foldlM epwmStep_of_map (Option.some_get afterTwo_isSome).symm

/-- Channel 1 set to ten milliseconds after that: the prescaler of the pair is raised from 2 to 27, and channel 0 is
rescaled. -/
theorem epwmSet_run_raise : SetRight afterTwo (tenMilliseconds 1) :=
  epwmSet_run afterTwo_run (tenMilliseconds 1) fun _ _ => ⟨by decide, by decide, .inr (by decide +kernel)⟩

end NumakerMA35D1.Epwm

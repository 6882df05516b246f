import NumakerMA35D1.Lib.BitField
import NumakerMA35D1.Lib.Orbit

/-!
# The clock of the card

`SDH_SetClock` looks for the divider of the card clock and writes it into two fields of ten bits
together. The divider ends right where the source is at most the request, or at least twice the request
and at most what the fields can divide it by (`sdhSetClock_iff`): below twice the request the source is
passed on undivided.

Reference: `nu_sdh.c:159 SDH_SetClock`, `drv_sdio.c:545 nu_sdh_iocfg`, `sdh_reg.h:537 CLK_CTRL`.
-/

namespace NumakerMA35D1.Sdh

open Embedded

/-- The fields that the driver writes. Reference: `sdh_reg.h:537 CLK_CTRL`. -/
structure SClkCtrl where
  internalClkEn : Bool
  sdClkEn : Bool
  pllEnable : Bool
  clkGenSelect : Bool
  upperFreqSel : BitVec 2
  freqSel : BitVec 8

namespace SClkCtrl

/-- The register cleared. -/
def zero : SClkCtrl where
  internalClkEn := false
  sdClkEn := false
  pllEnable := false
  clkGenSelect := false
  upperFreqSel := 0
  freqSel := 0

/-- The divider in the fields. Reference: `sdh_reg.h:580 UPPER_FREQ_SEL`. -/
def divider (r : SClkCtrl) : Nat := 256 * r.upperFreqSel.toNat + r.freqSel.toNat

/-- The clock the card gets, in whole hertz: the source's with a divider of 0, and its `2 N`-th part
with `N`. Reference: `sdh_reg.h:583 FREQ_SEL`. -/
def cardClock (src : Nat) (r : SClkCtrl) : Option Nat :=
  if r.internalClkEn && r.sdClkEn && !r.clkGenSelect then
    some (if r.divider = 0 then src else src / (2 * r.divider))
  else none

end SClkCtrl

/-- A wait for a flag to go, from the `k`-th look on, with so many more looks. Reference:
`nu_sdh.c:169 SDH_SetClock`. -/
def waitGone (flag : Nat → Bool) (k : Nat) : Nat → Bool
  | 0 => !flag k
  | timeout + 1 => !flag k || waitGone flag (k + 1) timeout

/-- The loop that raises the divider; `none` where it is not over yet, or divides by zero. Reference:
`nu_sdh.c:187 SDH_SetClock`. -/
def raiseDiv (u32SrcFreqInHz u32ExceptedFreqInHz : BitVec 32) (fuel : Nat) (div : BitVec 32) :
    Option (BitVec 32) :=
  (findFrom (fun d => 2#32 * d == 0#32 || !decide (u32SrcFreqInHz / (2#32 * d) > u32ExceptedFreqInHz))
    (· + 1#32) fuel div).filter fun d => 2#32 * d != 0#32

/-- What the function returns with the card's clock on. Reference: `nu_sdh.c:214 SDH_SetClock`. -/
def realFreq (u32SrcFreqInHz div : BitVec 32) : BitVec 32 :=
  if div = 0#32 then u32SrcFreqInHz else u32SrcFreqInHz / (2#32 * div)

/-- The register with a divider written and the card's clock on. Reference: `nu_sdh.c:193
SDH_SetClock`. -/
def dividedCtrl (div : BitVec 32) : SClkCtrl :=
  { SClkCtrl.zero with
    freqSel := (div &&& 0xff#32).setWidth 8
    upperFreqSel := ((div >>> 8) &&& 0x3#32).setWidth 2
    internalClkEn := true
    sdClkEn := true }

/-- The value returned and the clock register. `inhibit k` and `unstable k` are the controller's flags
at the `k`-th look. Reference: `nu_sdh.c:159 SDH_SetClock`. -/
def sdhSetClock (inhibit unstable : Nat → Bool) (u32SrcFreqInHz u32ExceptedFreqInHz : BitVec 32)
    (fuel : Nat) : Option (BitVec 32 × SClkCtrl) :=
  if u32ExceptedFreqInHz = 0#32 then some (0#32, SClkCtrl.zero)
  else if waitGone inhibit 0 200 then
    let div := u32SrcFreqInHz / 2#32 / u32ExceptedFreqInHz
    (if div > 0#32 then raiseDiv u32SrcFreqInHz u32ExceptedFreqInHz fuel div else some div).map fun div =>
      if waitGone unstable 0 200 then (realFreq u32SrcFreqInHz div, dividedCtrl div)
      else (0#32, SClkCtrl.zero)
  else some (0#32, SClkCtrl.zero)

/-- The function ends, and a frequency it returns is the card's clock and at most the request. -/
def ClockRight (inhibit unstable : Nat → Bool) (src exp : BitVec 32) : Prop :=
  ∃ fuel f r, sdhSetClock inhibit unstable src exp fuel = some (f, r) ∧
    (f ≠ 0#32 → r.cardClock src.toNat = some f.toNat ∧ f.toNat ≤ exp.toNat)

/-! ## The waits -/

theorem waitGone_eq_false {flag : Nat → Bool} {k n : Nat} :
    waitGone flag k n = false ↔ ∀ j, k ≤ j → j ≤ k + n → flag j = true := by
  induction n generalizing k with
  | zero =>
    rw [waitGone, Bool.not_eq_false']
    constructor
    · intro h j hk hj
      have : j = k := by omega
      rwa [this]
    · intro h
      exact h k (le_refl k) (by omega)
  | succ n ih =>
    rw [waitGone, Bool.or_eq_false_iff, Bool.not_eq_false', ih]
    constructor
    · rintro ⟨h0, h⟩ j hk hj
      rcases Nat.eq_or_lt_of_le hk with rfl | hlt
      · exact h0
      · exact h j hlt (by omega)
    · intro h
      exact ⟨h k (le_refl k) (by omega), fun j hk hj => h j (by omega) (by omega)⟩

/-! ## The divider -/

section

variable {src exp q d m n : Nat}

/-- The divider that the loop starts from does not bring the clock below the request. -/
theorem le_div_start (hq : q = src / 2 / exp) (hpos : 0 < q) : exp ≤ src / (2 * q) := by
  rw [Nat.le_div_iff_mul_le (by omega)]
  have h : q * exp ≤ src / 2 := hq ▸ Nat.div_mul_le_self (src / 2) exp
  calc exp * (2 * q) = 2 * (q * exp) := by ring
    _ ≤ 2 * (src / 2) := Nat.mul_le_mul_left 2 h
    _ ≤ src := Nat.mul_div_le src 2

/-- The next one does. -/
theorem div_succ_lt (hexp : 0 < exp) (hq : q = src / 2 / exp) : src / (2 * (q + 1)) < exp := by
  rw [Nat.div_lt_iff_lt_mul (by omega)]
  have h : src / 2 < exp * (q + 1) := hq ▸ Nat.lt_mul_div_succ (src / 2) hexp
  have heq : exp * (2 * (q + 1)) = 2 * (exp * (q + 1)) := by ring
  omega

/-- Where the loop goes on, the next divider leaves a clock. -/
theorem div_succ_pos (hpos : 0 < q) (h : exp < src / (2 * q)) (hexp : 0 < exp) :
    0 < src / (2 * (q + 1)) := by
  have hmul : 2 * (2 * q) ≤ src := (Nat.le_div_iff_mul_le (by omega)).1 (by omega)
  exact Nat.div_pos (by omega) (by omega)

/-- A clock that is there is not the one of a lesser divider by ten bits. -/
theorem div_ne_of_add_le (hf : 0 < src / (2 * n)) (hm : 0 < m) (h : 2 * m ≤ n) :
    src / (2 * m) ≠ src / (2 * n) := by
  intro heq
  have hn : 0 < n := by omega
  have hlow : src / (2 * n) * (2 * n) ≤ src := Nat.div_mul_le_self src (2 * n)
  have hhigh : src < (src / (2 * m) + 1) * (2 * m) := by
    rw [Nat.mul_comm]
    exact Nat.lt_mul_div_succ src (by omega)
  rw [heq] at hhigh
  have hle : src / (2 * n) * (2 * (2 * m)) ≤ src / (2 * n) * (2 * n) :=
    Nat.mul_le_mul_left _ (by omega)
  have hstep : (src / (2 * n) + 1) * (2 * m) ≤ src / (2 * n) * (2 * (2 * m)) := by
    nlinarith
  omega

/-- The divider that the search ends with: the one it starts from, or the next. -/
def finalDiv (src exp : Nat) : Nat :=
  if src / (2 * (src / 2 / exp)) ≤ exp then src / 2 / exp else src / 2 / exp + 1

/-- A source behind a divider. -/
def dividedBy (src n : Nat) : Nat := if n = 0 then src else src / (2 * n)

theorem dividedBy_pos (hn : 0 < n) : dividedBy src n = src / (2 * n) := if_neg (by omega)

/-- A request of at most half the source starts from a divider. -/
theorem start_pos_iff (hexp : 0 < exp) : 0 < src / 2 / exp ↔ 2 * exp ≤ src := by
  rw [Nat.div_pos_iff]
  omega

/-- The divider found brings the clock to the request, and leaves a clock. -/
theorem dividedBy_finalDiv (hexp : 0 < exp) (hpos : 0 < src / 2 / exp) :
    0 < dividedBy src (finalDiv src exp) ∧ dividedBy src (finalDiv src exp) ≤ exp := by
  rw [finalDiv]
  split
  · rename_i h
    rw [dividedBy_pos hpos]
    exact ⟨Nat.lt_of_lt_of_le hexp (le_div_start rfl hpos), h⟩
  · rename_i h
    rw [dividedBy_pos (Nat.succ_pos _)]
    exact ⟨div_succ_pos hpos (Nat.lt_of_not_le h) hexp, (div_succ_lt hexp rfl).le⟩

/-- The divider found fits ten bits if and only if the one it starts from does and the greatest one
of ten bits brings the clock to the request. -/
theorem finalDiv_lt_iff (hexp : 0 < exp) (hpos : 0 < src / 2 / exp) :
    finalDiv src exp < 1024 ↔ src / 2 / exp ≤ 1023 ∧ src / 2046 ≤ exp := by
  rw [finalDiv]
  split
  · rename_i h
    refine ⟨fun hlt => ⟨by omega, ?_⟩, fun hle => by omega⟩
    exact (Nat.div_le_div_left (by omega) (by omega)).trans h
  · rename_i h
    constructor
    · intro hlt
      refine ⟨by omega, (Nat.div_le_div_left ?_ ?_).trans (div_succ_lt hexp rfl).le⟩
      · omega
      · omega
    · rintro ⟨hle, h2046⟩
      have hne : src / 2 / exp ≠ 1023 := by
        intro heq
        rw [heq] at h
        exact h h2046
      omega

/-- The ten bits of a divider that has more give another clock. -/
theorem dividedBy_mod_ne (hd : 1024 ≤ d) (hf : 0 < dividedBy src d) :
    dividedBy src (d % 1024) ≠ dividedBy src d := by
  have hpos : 0 < d := by omega
  rw [dividedBy_pos hpos] at hf ⊢
  rcases Nat.eq_zero_or_pos (d % 1024) with hzero | hm
  · rw [hzero, dividedBy, if_pos rfl]
    have hsrc : 0 < src := Nat.pos_of_ne_zero fun h => by simp [h] at hf
    exact (Nat.div_lt_self hsrc (by omega)).ne'
  · rw [dividedBy_pos hm]
    exact div_ne_of_add_le hf hm (by omega)

/-- The clock of the ten bits is the one reported, and at most the request, when and only when the
source is at most the request or the divider is one of ten bits other than 0. -/
theorem dividedBy_right_iff (hexp : 0 < exp) :
    (dividedBy src (finalDiv src exp) ≠ 0 →
      dividedBy src (finalDiv src exp % 1024) = dividedBy src (finalDiv src exp) ∧
        dividedBy src (finalDiv src exp) ≤ exp) ↔
    src ≤ exp ∨ 2 * exp ≤ src ∧ src / 2 / exp ≤ 1023 ∧ src / 2046 ≤ exp := by
  rcases Nat.eq_zero_or_pos (src / 2 / exp) with hzero | hpos
  · have hsmall : ¬ 2 * exp ≤ src := fun h => by
      have := (start_pos_iff hexp).2 h
      omega
    have hfinal : finalDiv src exp = 0 := by
      rw [finalDiv, hzero, Nat.mul_zero, Nat.div_zero, if_pos (Nat.zero_le _)]
    have hself : dividedBy src 0 = src := if_pos rfl
    rw [hfinal, Nat.zero_mod, hself]
    constructor
    · intro h
      rcases Nat.eq_zero_or_pos src with h0 | hsrc
      · exact .inl (by omega)
      · exact .inl (h (by omega)).2
    · rintro (h | h)
      · exact fun _ => ⟨rfl, h⟩
      · exact absurd h.1 hsmall
  · have hbig : 2 * exp ≤ src := (start_pos_iff hexp).1 hpos
    obtain ⟨hf, hle⟩ := dividedBy_finalDiv hexp hpos
    have hfit := finalDiv_lt_iff hexp hpos
    constructor
    · intro h
      refine .inr ⟨hbig, hfit.1 ?_⟩
      rw [← not_le]
      exact fun hge => dividedBy_mod_ne hge hf (h (by omega)).1
    · rintro (h | h)
      · omega
      · intro _
        rw [Nat.mod_eq_of_lt (hfit.2 h.2)]
        exact ⟨rfl, hle⟩

end

/-! ## The words -/

section

variable {src exp d d' : BitVec 32} {fuel : Nat}

theorem two_mul_toNat (h : d.toNat < 2 ^ 31) : (2#32 * d).toNat = 2 * d.toNat := by
  rw [BitVec.toNat_mul]
  exact Nat.mod_eq_of_lt (by simp only [BitVec.toNat_ofNat]; omega)

theorem div_two_mul_toNat (h : d.toNat < 2 ^ 31) :
    (src / (2#32 * d)).toNat = src.toNat / (2 * d.toNat) := by
  rw [BitVec.toNat_udiv, two_mul_toNat h]

theorem realFreq_toNat (h : d.toNat < 2 ^ 31) :
    (realFreq src d).toNat = dividedBy src.toNat d.toNat := by
  rw [realFreq, dividedBy]
  by_cases h0 : d = 0#32
  · subst h0
    rfl
  · have hne : d.toNat ≠ 0 := fun h => h0 (BitVec.eq_of_toNat_eq h)
    rw [if_neg h0, if_neg hne, div_two_mul_toNat h]

/-- The fields hold the ten low bits. -/
theorem dividedCtrl_divider (d : BitVec 32) : (dividedCtrl d).divider = d.toNat % 1024 := by
  have hmask : 0xff#32 = fieldMask 8 := rfl
  have hlow : (d &&& 0xff#32).toNat = d.toNat % 2 ^ 8 := by
    rw [hmask]
    exact and_fieldMask_toNat d (by decide)
  have hhigh : (getField d 8 2).toNat = d.toNat / 2 ^ 8 % 2 ^ 2 := getField_toNat (by decide)
  have hup : ((d >>> 8) &&& 0x3#32).toNat = d.toNat / 2 ^ 8 % 2 ^ 2 := hhigh
  rw [SClkCtrl.divider, dividedCtrl]
  simp only [BitVec.toNat_setWidth, hlow, hup]
  omega

theorem dividedCtrl_cardClock (n : Nat) (d : BitVec 32) :
    (dividedCtrl d).cardClock n = some (dividedBy n (d.toNat % 1024)) := by
  rw [SClkCtrl.cardClock, dividedCtrl_divider, dividedBy]
  rfl

/-- The search for the divider. -/
def searchDiv (src exp : BitVec 32) (fuel : Nat) : Option (BitVec 32) :=
  if src / 2#32 / exp > 0#32 then raiseDiv src exp fuel (src / 2#32 / exp)
  else some (src / 2#32 / exp)

theorem searchDiv_unique (h : searchDiv src exp fuel = some d) (h' : searchDiv src exp 2 = some d') :
    d = d' := by
  rw [searchDiv] at h h'
  split at h
  · rw [if_pos ‹_›] at h'
    exact findFrom_unique (Option.filter_eq_some_iff.1 h).1 (Option.filter_eq_some_iff.1 h').1
  · rw [if_neg ‹_›] at h'
    exact Option.some.inj (h.symm.trans h')

/-- What the loop asks of a divider. -/
theorem raise_test (hpos : 0 < d.toNat) (h : d.toNat < 2 ^ 31) :
    (2#32 * d == 0#32 || !decide (src / (2#32 * d) > exp)) =
      decide (src.toNat / (2 * d.toNat) ≤ exp.toNat) := by
  have hne : ¬ 2#32 * d = 0#32 := by
    intro h0
    have hval := congrArg BitVec.toNat h0
    rw [two_mul_toNat h] at hval
    exact absurd hval (by simp only [BitVec.toNat_ofNat]; omega)
  have hiff : ¬ src / (2#32 * d) > exp ↔ src.toNat / (2 * d.toNat) ≤ exp.toNat := by
    rw [gt_iff_lt, BitVec.lt_def, div_two_mul_toNat h, not_lt]
  rw [beq_eq_false_iff_ne.2 hne, Bool.false_or, ← decide_not]
  exact decide_eq_decide.2 hiff

/-- A divider that the loop ends with. -/
theorem raiseDiv_of_findFrom (hpos : 0 < d'.toNat) (h : d'.toNat < 2 ^ 31)
    (hfind : findFrom (fun d => 2#32 * d == 0#32 || !decide (src / (2#32 * d) > exp)) (· + 1#32) fuel d =
      some d') :
    raiseDiv src exp fuel d = some d' := by
  refine Option.filter_eq_some_iff.2 ⟨hfind, bne_iff_ne.2 fun h0 => ?_⟩
  have hval := congrArg BitVec.toNat h0
  rw [two_mul_toNat h] at hval
  exact absurd hval (by simp only [BitVec.toNat_ofNat]; omega)

/-- The loop ends with the divider it starts from, or with the next. -/
theorem raiseDiv_two (hpos : 0 < d.toNat) (h : d.toNat < 2 ^ 31) (hexp : 0 < exp.toNat)
    (hle : src.toNat / (2 * (d.toNat + 1)) ≤ exp.toNat) :
    ∃ d', raiseDiv src exp 2 d = some d' ∧ d'.toNat < 2 ^ 31 ∧
      d'.toNat = if src.toNat / (2 * d.toNat) ≤ exp.toNat then d.toNat else d.toNat + 1 := by
  have hsrc : src.toNat < 2 ^ 32 := src.isLt
  by_cases hstop : src.toNat / (2 * d.toNat) ≤ exp.toNat
  · refine ⟨d, raiseDiv_of_findFrom hpos h ?_, h, (if_pos hstop).symm⟩
    rw [findFrom, raise_test hpos h, if_pos (decide_eq_true hstop)]
  · -- the loop goes on only below half of the range
    have hmul : 2 * (2 * d.toNat) ≤ src.toNat :=
      (Nat.le_div_iff_mul_le (by omega)).1 (by omega)
    have hnext : (d + 1#32).toNat = d.toNat + 1 := by
      rw [BitVec.toNat_add]
      exact Nat.mod_eq_of_lt (by simp only [BitVec.toNat_ofNat]; omega)
    refine ⟨d + 1#32, raiseDiv_of_findFrom (by omega) (by omega) ?_, by omega, ?_⟩
    · rw [findFrom, raise_test hpos h, if_neg (by rwa [decide_eq_true_iff]), findFrom,
        raise_test (by omega) (by omega), hnext, if_pos (decide_eq_true hle)]
    · rw [if_neg hstop, hnext]

/-- The search ends, and with the divider computed with numbers. -/
theorem searchDiv_two (hexp : 0 < exp.toNat) :
    ∃ d, searchDiv src exp 2 = some d ∧ d.toNat < 2 ^ 31 ∧ d.toNat = finalDiv src.toNat exp.toNat := by
  have hq : (src / 2#32 / exp).toNat = src.toNat / 2 / exp.toNat := by
    rw [BitVec.toNat_udiv, BitVec.toNat_udiv]
    rfl
  have hsrc : src.toNat < 2 ^ 32 := src.isLt
  have hlt : (src / 2#32 / exp).toNat < 2 ^ 31 := by
    rw [hq]
    exact Nat.lt_of_le_of_lt (Nat.div_le_self _ _) (by omega)
  rw [searchDiv, finalDiv]
  by_cases hpos : src / 2#32 / exp > 0#32
  · have hqpos : 0 < (src / 2#32 / exp).toNat := hpos
    have hle : src.toNat / (2 * ((src / 2#32 / exp).toNat + 1)) ≤ exp.toNat := by
      rw [hq]
      exact (div_succ_lt hexp rfl).le
    rw [if_pos hpos, ← hq]
    exact raiseDiv_two hqpos hlt hexp hle
  · have hzero : (src / 2#32 / exp).toNat = 0 := Nat.eq_zero_of_not_pos hpos
    rw [if_neg hpos]
    refine ⟨_, rfl, hlt, ?_⟩
    rw [← hq, hzero, Nat.mul_zero, Nat.div_zero, if_pos (Nat.zero_le _)]

end

/-! ## The function -/

section

variable {inhibit unstable : Nat → Bool} {src exp d f : BitVec 32} {r : SClkCtrl} {fuel : Nat}

/-- A request of 0 and waits that time out leave no clock. -/
theorem clockRight_of_off
    (h : sdhSetClock inhibit unstable src exp 2 = some (0#32, SClkCtrl.zero)) :
    ClockRight inhibit unstable src exp :=
  ⟨2, 0#32, SClkCtrl.zero, h, fun hne => absurd rfl hne⟩

/-- With a request and waits that come through, the function sets the divider of the search. -/
theorem sdhSetClock_on (hexp : exp ≠ 0#32) (hin : waitGone inhibit 0 200 = true)
    (hun : waitGone unstable 0 200 = true) (fuel : Nat) :
    sdhSetClock inhibit unstable src exp fuel =
      (searchDiv src exp fuel).map fun d => (realFreq src d, dividedCtrl d) := by
  rw [sdhSetClock, if_neg hexp, if_pos hin, hun]
  rfl

/-- What is right of the function is right of the divider of the search. -/
theorem clockRight_on (hexp : exp ≠ 0#32) (hin : waitGone inhibit 0 200 = true)
    (hun : waitGone unstable 0 200 = true) :
    ClockRight inhibit unstable src exp ↔
      (dividedBy src.toNat (finalDiv src.toNat exp.toNat) ≠ 0 →
        dividedBy src.toNat (finalDiv src.toNat exp.toNat % 1024) =
            dividedBy src.toNat (finalDiv src.toNat exp.toNat) ∧
          dividedBy src.toNat (finalDiv src.toNat exp.toNat) ≤ exp.toNat) := by
  have hpos : 0 < exp.toNat := Nat.pos_of_ne_zero fun h => hexp (BitVec.eq_of_toNat_eq h)
  obtain ⟨d, hd, hlt, hfinal⟩ := @searchDiv_two src exp hpos
  have hnum : (realFreq src d ≠ 0#32 → (dividedCtrl d).cardClock src.toNat = some (realFreq src d).toNat ∧
        (realFreq src d).toNat ≤ exp.toNat) ↔
      (dividedBy src.toNat d.toNat ≠ 0 →
        dividedBy src.toNat (d.toNat % 1024) = dividedBy src.toNat d.toNat ∧
          dividedBy src.toNat d.toNat ≤ exp.toNat) := by
    rw [dividedCtrl_cardClock, Option.some_inj, ← realFreq_toNat hlt, ne_eq, ne_eq,
      BitVec.toNat_eq]
    rfl
  rw [← hfinal, ← hnum]
  constructor
  · rintro ⟨fuel, f, r, heq, hright⟩
    rw [sdhSetClock_on hexp hin hun] at heq
    obtain ⟨d', hd', hpair⟩ := Option.map_eq_some_iff.1 heq
    obtain rfl := searchDiv_unique hd' hd
    cases hpair
    exact hright
  · intro hright
    exact ⟨2, _, _, by rw [sdhSetClock_on hexp hin hun, hd]; rfl, hright⟩

/-- A request other than 0 is answered right exactly where a wait times out or the divider has an exact
place. -/
theorem clockRight_iff_waits (hexp : exp ≠ 0#32) :
    ClockRight inhibit unstable src exp ↔
      waitGone inhibit 0 200 = false ∨ waitGone unstable 0 200 = false ∨ src.toNat ≤ exp.toNat ∨
        2 * exp.toNat ≤ src.toNat ∧ src.toNat / 2 / exp.toNat ≤ 1023 ∧ src.toNat / 2046 ≤ exp.toNat := by
  have hpos : 0 < exp.toNat := Nat.pos_of_ne_zero fun h => hexp (BitVec.eq_of_toNat_eq h)
  cases hin : waitGone inhibit 0 200 with
  | false =>
    refine iff_of_true (clockRight_of_off ?_) (.inl rfl)
    rw [sdhSetClock, if_neg hexp, hin]
    rfl
  | true =>
    cases hun : waitGone unstable 0 200 with
    | false =>
      refine iff_of_true (clockRight_of_off ?_) (.inr (.inl rfl))
      obtain ⟨d, hd, _⟩ := @searchDiv_two src exp hpos
      rw [sdhSetClock, if_neg hexp, hin, hun]
      show (searchDiv src exp 2).map _ = _
      rw [hd]
      rfl
    | true =>
      rw [clockRight_on hexp hin hun, dividedBy_right_iff hpos]
      simp

/-- The function ends with the clock it says, at most the one asked for, exactly where there is nothing to
set, the controller does not get ready, or the divider has an exact place. Reference: `nu_sdh.c:159
SDH_SetClock`. -/
theorem sdhSetClock_iff (inhibit unstable : Nat → Bool) (src exp : BitVec 32) :
    ClockRight inhibit unstable src exp ↔
      exp = 0#32 ∨ (∀ k ≤ 200, inhibit k = true) ∨ (∀ k ≤ 200, unstable k = true) ∨
        src.toNat ≤ exp.toNat ∨
        2 * exp.toNat ≤ src.toNat ∧ src.toNat / 2 / exp.toNat ≤ 1023 ∧ src.toNat / 2046 ≤ exp.toNat := by
  have hgone : ∀ flag : Nat → Bool, (∀ k ≤ 200, flag k = true) ↔ waitGone flag 0 200 = false := by
    intro flag
    rw [waitGone_eq_false]
    exact ⟨fun h j _ hj => h j (by omega), fun h k hk => h k (by omega) (by omega)⟩
  by_cases hexp : exp = 0#32
  · exact iff_of_true (clockRight_of_off (by rw [sdhSetClock, if_pos hexp])) (.inl hexp)
  · rw [hgone, hgone, clockRight_iff_waits hexp, or_iff_right hexp]

/-- A source of 90 MHz for a card of 50 MHz is passed on undivided. -/
theorem not_sdhSetClock_90 :
    ¬ ClockRight (fun _ => false) (fun _ => false) 90000000#32 50000000#32 := by
  rw [clockRight_on (by decide) rfl rfl, dividedBy_right_iff (by decide)]
  decide

/-! ## The requests of the driver -/

/-- Reference: `drv_sdio.c:741 nu_sdh_init`. -/
def freqMin : BitVec 32 := 200#32 * 1000#32

/-- Reference: `drv_sdio.c:742 nu_sdh_init`. -/
def freqMax : BitVec 32 := 50#32 * 1000#32 * 1000#32

/-- The clock asked for, cut to the host's limits. Reference: `drv_sdio.c:595 nu_sdh_iocfg`. -/
def iocfgClk (clk : BitVec 32) : BitVec 32 :=
  let clk := if clk > freqMax then freqMax else clk
  if clk < freqMin then freqMin else clk

theorem iocfgClk_range (clk : BitVec 32) :
    200000 ≤ (iocfgClk clk).toNat ∧ (iocfgClk clk).toNat ≤ 50000000 := by
  have hmin : freqMin.toNat = 200000 := by decide
  have hmax : freqMax.toNat = 50000000 := by decide
  simp only [iocfgClk, gt_iff_lt, BitVec.lt_def]
  split <;> split <;> omega

/-- From 100 MHz to 409 MHz of the source, every request of the driver is answered right. Reference:
`drv_sdio.c:545 nu_sdh_iocfg`. -/
theorem nuSdhIocfg_clockRight (hlow : 100000000 ≤ src.toNat) (hhigh : src.toNat ≤ 409000000)
    (clk : BitVec 32) : ClockRight inhibit unstable src (iocfgClk clk) := by
  obtain ⟨hmin, hmax⟩ := iocfgClk_range clk
  have hne : iocfgClk clk ≠ 0#32 := by
    intro h
    rw [h] at hmin
    exact absurd hmin (by decide)
  refine (clockRight_iff_waits hne).2 (.inr (.inr (.inr ⟨by omega, ?_, by omega⟩)))
  have hdiv : src.toNat / 2 / (iocfgClk clk).toNat < 1024 := by
    rw [Nat.div_lt_iff_lt_mul (by omega)]
    omega
  omega

end

end NumakerMA35D1.Sdh

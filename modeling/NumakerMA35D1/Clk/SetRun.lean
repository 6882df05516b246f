import NumakerMA35D1.Clk.ReadBack
import NumakerMA35D1.Lib.Run

/-!
# Registers over sequences of settings

`clkSetPLLFreq` writes a PLL's registers whether or not the search found dividers. Where it found
none they get an input and an output divider of zero and the PLL is switched on, so that the getter
divides by zero. `pllSettings_run`: as long as every request has a legal setting, the getter can read
every PLL, and a further request is right exactly when it has one (`LegalRequest`).
-/

namespace NumakerMA35D1.Clk

open Embedded

/-! ## The property -/

/-- What the getter of a PLL with a fractional field divides by.
Reference: `nu_clk.c:959 CLK_GetVSIPLLClockFreq`. -/
def vsiDivisors (pll : PllT) : List (BitVec 32) :=
  if pll.CTL1 &&& pdMsk ≠ 0#32 then []
  else if pll.mode = PLL_OPMODE_INTEGER then [pll.outdiv * pll.indiv]
  else if pll.mode = PLL_OPMODE_FRACTIONAL ∨ pll.mode = PLL_OPMODE_SPREAD_SPECTRUM then
    [1000#32, pll.outdiv * pll.indiv]
  else []

/-- What the getter of the CPU's PLL divides by. Reference: `nu_clk.c:921 CLK_GetCAPLLClockFreq`. -/
def caDivisors (clk : ClkT) : List (BitVec 32) :=
  if clk.PLL0CTL0 &&& pll0BpMsk ≠ 0#32 then []
  else [100#32, (1#32 <<< (getField clk.PLL0CTL0 12 2).toNat) * getField clk.PLL0CTL0 8 4]

/-- What `clkGetPLLClockFreq` divides by. Reference: `nu_clk.c:1329 CLK_GetPLLClockFreq`. -/
def readDivisors (clk : ClkT) (u32PllIdx : BitVec 32) : List (BitVec 32) :=
  if u32PllIdx = CAPLL then caDivisors clk
  else
    match vsiIndex u32PllIdx with
    | some i => vsiDivisors (clk.PLL i)
    | none => []

/-- No reading of a PLL divides by zero. -/
def Readable (clk : ClkT) : Prop := ∀ u32PllIdx, ∀ d ∈ readDivisors clk u32PllIdx, d ≠ 0#32

/-- A request for a frequency. -/
structure Request where
  u32PllIdx : BitVec 32
  u32OpMode : BitVec 32
  PllSrcClk : BitVec 64
  u64PllFreq : BitVec 64

/-- A request served. -/
def step (clk : ClkT) (r : Request) (clk' : ClkT) : Prop :=
  ∃ f, clkSetPLLFreq clk r.u32PllIdx r.u32OpMode r.PllSrcClk r.u64PllFreq = some (f, clk')

/-- The call returns, leaves the registers where the search found nothing, and every PLL can be read
afterwards. -/
def SetRight (clk : ClkT) (r : Request) : Prop :=
  ∃ f clk', clkSetPLLFreq clk r.u32PllIdx r.u32OpMode r.PllSrcClk r.u64PllFreq = some (f, clk') ∧
    (f = 0 → clk' = clk) ∧ Readable clk'

/-! ## The condition -/

/-- The integer mode has a setting: a fixed one for a request out of range, else one of the dividers
in range. -/
def IntegerLegal (src freq : Nat) : Prop :=
  freq < 85700000 ∨ 2400000000 < freq ∨ 1000000 ≤ src ∧ src < 2560000000

/-- A mode with a fraction has a setting: a fixed one for a request beyond the range, else the
dividers for the frequency looked for. -/
def FractionalLegal (mode : BitVec 32) (src freq : Nat) : Prop :=
  1000000 ≤ src ∧ src ≤ 200000000 ∧
    (2400000000 ≤ freq ∨ 10000000 ≤ src ∧
      if mode = PLL_OPMODE_FRACTIONAL then 865657 ≤ freq ∧ 85714286 ≤ aimMode1 freq
      else 85714286 ≤ aimMode2 freq)

/-- A mode has a setting; a number that is no mode needs none. -/
def ModeLegal (mode : BitVec 32) (src freq : Nat) : Prop :=
  (mode = PLL_OPMODE_INTEGER → IntegerLegal src freq) ∧
    (mode = PLL_OPMODE_FRACTIONAL ∨ mode = PLL_OPMODE_SPREAD_SPECTRUM →
      FractionalLegal mode src freq)

/-- There is a legal setting for a request, if it is to a PLL with a fractional field. -/
def LegalRequest (r : Request) : Prop :=
  vsiIndex r.u32PllIdx ≠ none →
    ModeLegal r.u32OpMode r.PllSrcClk.toNat r.u64PllFreq.toNat

section

variable {src freq fclko ss n m p : Nat} {slope : Nat → Nat} {d : Dividers}

/-! ## What the integer search finds -/

/-- The dividers of a candidate are not zero, and the source clock is in range. -/
theorem candidate_src (h : d ∈ candidates src) :
    1 ≤ d.m ∧ 1 ≤ d.p ∧ 1000000 ≤ src ∧ src < 2560000000 := by
  have hrange := inRange_of_mem h
  obtain ⟨m, hm, h⟩ := List.mem_flatMap.1 h
  obtain ⟨n, -, h⟩ := List.mem_flatMap.1 h
  obtain ⟨p, -, rfl⟩ := List.mem_map.1 h
  rw [inputDividers, mem_counter] at hm
  simp only [VSIPLL_FREFDIVM_MAX_FREQ, VSIPLL_FREFDIVM_MIN_FREQ0] at hm
  have hn := hrange.n_ge
  have hosc := hrange.osc_le
  have hhigh := hrange.n_high
  dsimp only at hn hosc hhigh
  have hmpos : 1 ≤ m := by
    rcases Nat.eq_zero_or_pos m with rfl | hpos
    · rw [Nat.div_zero, Nat.div_zero] at hhigh
      omega
    · exact hpos
  refine ⟨hmpos, hrange.p_pos, ?_, ?_⟩
  · have hsrc := hrange.m_src
    dsimp only at hsrc
    omega
  · -- the reference is at most 150 MHz, so the lower end of the input dividers is not cut
    have href : src / m ≤ 150000000 := by
      have hmul : src / m * 16 ≤ src / m * n := Nat.mul_le_mul_left _ hn
      omega
    have hbound : src < 63 * 150000001 := by
      have hm63 : m ≤ 63 := hrange.m_le
      have hlt : src < m * 150000001 := by
        rw [Nat.mul_comm]
        exact (Nat.div_lt_iff_lt_mul hmpos).1 (by omega)
      exact lt_of_lt_of_le hlt (Nat.mul_le_mul_right _ hm63)
    have hm63 : m ≤ 63 := hrange.m_le
    have hlow := hm.1
    split at hlow
    · rw [Nat.mod_eq_of_lt (by omega)] at hlow
      omega
    · omega

/-- A source clock in range has a candidate. -/
theorem exists_candidate (hlow : 1000000 ≤ src) (hhigh : src < 2560000000) :
    0 ∉ inputDividers src ∧ ∃ d, d ∈ candidates src := by
  obtain ⟨m, hmdef⟩ : ∃ m, m = if src / 40000000 > 1 then src / 40000000 % 2 ^ 32 else 1 := ⟨_, rfl⟩
  have hm : 1 ≤ m ∧ m ≤ 63 ∧ m ≤ src / 1000000 ∧ src < 80000000 * m ∧
      (m = 1 ∨ 40000000 * m ≤ src) := by
    rw [hmdef]
    split
    · rw [Nat.mod_eq_of_lt (by omega)]
      omega
    · omega
  obtain ⟨hm1, hm63, hmsrc, hupper, hlower⟩ := hm
  -- the reference of the least input divider
  obtain ⟨c, hcdef⟩ : ∃ c, c = src / m := ⟨_, rfl⟩
  have hc : 1000000 ≤ c ∧ c < 80000000 := by
    rw [hcdef]
    refine ⟨(Nat.le_div_iff_mul_le hm1).2 ?_, (Nat.div_lt_iff_lt_mul hm1).2 hupper⟩
    rcases hlower with rfl | hlower
    · omega
    · omega
  obtain ⟨n, hndef⟩ : ∃ n, n = if 600000000 / c > 16 then 600000000 / c else 16 := ⟨_, rfl⟩
  have hn : 16 ≤ n ∧ n ≤ 2047 ∧ n ≤ 2400000000 / c ∧ 520000000 ≤ c * n := by
    have hcpos : 0 < c := by omega
    have h600 : 600000000 / c ≤ 2047 :=
      le_trans (Nat.div_le_div_left hc.1 (by decide)) (by decide)
    have hdiv : 600000000 / c ≤ 2400000000 / c := Nat.div_le_div_right (by decide)
    have h16 : 16 ≤ 2400000000 / c := (Nat.le_div_iff_mul_le hcpos).2 (by omega)
    have hmod := Nat.div_add_mod 600000000 c
    have hlt := Nat.mod_lt 600000000 hcpos
    rw [hndef]
    split
    · exact ⟨by omega, h600, hdiv, by omega⟩
    · next hge =>
      have hle : c * (600000000 / c) ≤ c * 16 := Nat.mul_le_mul_left _ (by omega)
      exact ⟨le_rfl, by decide, h16, by omega⟩
  obtain ⟨hn16, hn2047, hnhigh, hosc⟩ := hn
  have hoscle : c * n ≤ 2400000000 :=
    le_trans (Nat.mul_le_mul_left _ hnhigh) (Nat.mul_div_le ..)
  have hmmem : m ∈ inputDividers src := by
    rw [inputDividers, mem_counter]
    simp only [VSIPLL_FREFDIVM_MAX_FREQ, VSIPLL_FREFDIVM_MIN_FREQ0]
    rw [← hmdef]
    refine ⟨le_rfl, ?_⟩
    split <;> omega
  refine ⟨?_, ⟨m, n, 1⟩, ?_⟩
  · rw [inputDividers, mem_counter]
    simp only [VSIPLL_FREFDIVM_MAX_FREQ, VSIPLL_FREFDIVM_MIN_FREQ0]
    rw [← hmdef]
    omega
  · refine List.mem_flatMap.2 ⟨m, hmmem, List.mem_flatMap.2 ⟨n, ?_, List.mem_map.2 ⟨1, ?_, rfl⟩⟩⟩
    · rw [feedbackDividers, mem_counter]
      simp only [VSIPLL_FCLK_MIN_FREQ, VSIPLL_FCLK_MAX_FREQ]
      rw [← hcdef, ← hndef]
      refine ⟨le_rfl, ?_⟩
      split <;> omega
    · rw [outputDividers, mem_counter]
      simp only [VSIPLL_FCLKO_MIN_FREQ, VSIPLL_FCLKO_MAX_FREQ]
      rw [← hcdef]
      refine ⟨?_, ?_⟩
      · split <;> omega
      · split <;> omega

/-- The integer mode has a result exactly for a legal request, and its dividers and its frequency are
not zero. -/
theorem mode0_result (src freq : Nat) :
    IntegerLegal src freq ∧ (∃ (d : Dividers) (r : PllFreq),
        clkCalPLLFreqMode0 src freq = some r ∧ r.clk ≠ 0 ∧ d.n ≤ 2047 ∧ d.m ≤ 63 ∧ d.p ≤ 7 ∧ d.p * d.m ≠ 0 ∧
        r.reg0 = BitVec.ofNat 32 (d.m <<< 12 ||| d.n) ∧ r.reg1 = BitVec.ofNat 32 (d.p <<< 4)) ∨
      ¬ IntegerLegal src freq ∧ clkCalPLLFreqMode0 src freq = none := by
  by_cases hout : freq < 85700000 ∨ 2400000000 < freq
  · refine .inl ⟨hout.imp_right .inl, ⟨3, 125, 1⟩, _, if_pos hout, ?_⟩
    exact ⟨by decide, by decide, by decide, by decide, by decide, by decide, by decide⟩
  have hhigh : freq ≤ 2400000000 := by omega
  have hfault : searchDividers src freq = .error .fault → clkCalPLLFreqMode0 src freq = none := by
    intro hs
    rw [clkCalPLLFreqMode0, if_neg hout, hs]
  have hfound : ∀ d, searchDividers src freq = .error (.found d) →
      clkCalPLLFreqMode0 src freq = dividersFreq src d := by
    intro d hs
    rw [clkCalPLLFreqMode0, if_neg hout, hs]
  have hbest : ∀ best, searchDividers src freq = .ok best →
      clkCalPLLFreqMode0 src freq = dividersFreq src best.d := by
    intro best hs
    rw [clkCalPLLFreqMode0, if_neg hout, hs]
  by_cases hsrc : 1000000 ≤ src ∧ src < 2560000000
  · left
    refine ⟨.inr (.inr hsrc), ?_⟩
    obtain ⟨hpos, d₀, hd₀⟩ := exists_candidate hsrc.1 hsrc.2
    -- the search ends with one of the candidates
    have hend : ∃ d ∈ candidates src, clkCalPLLFreqMode0 src freq = dividersFreq src d := by
      have hspec := @searchDividers_spec src freq hpos hhigh
      cases hs : searchDividers src freq with
      | error e =>
        obtain ⟨d, rfl, hd⟩ := hspec.of_error hs
        exact ⟨d, hd.mem, hfound d hs⟩
      | ok best =>
        rcases hspec.of_ok hs with ⟨hnil, -⟩ | ⟨hfirst, -⟩
        · rw [hnil] at hd₀
          exact absurd hd₀ List.not_mem_nil
        · exact ⟨best.d, hfirst.mem, hbest best hs⟩
    obtain ⟨d, hd, heq⟩ := hend
    obtain ⟨hm, hp, -, -⟩ := candidate_src hd
    have hrange := inRange_of_mem hd
    have hpm : d.p * d.m ≠ 0 := Nat.mul_ne_zero (by omega) (by omega)
    rw [dividersFreq, if_neg hpm] at heq
    refine ⟨d, _, heq, ?_, hrange.n_le, hrange.m_le, hrange.p_le, hpm, rfl, rfl⟩
    have hmul : d.p * d.m ≤ src * d.n := by
      rw [Nat.mul_comm]
      have hmsrc := hrange.m_src
      exact Nat.mul_le_mul (by omega) (by have := hrange.n_ge; have := hrange.p_le; omega)
    exact (Nat.div_pos hmul (Nat.pos_of_ne_zero hpm)).ne'
  · right
    refine ⟨fun h => ?_, ?_⟩
    · rcases h with h | h | h
      · exact hout (.inl h)
      · exact hout (.inr h)
      · exact hsrc h
    · have hnil : candidates src = [] := by
        refine List.eq_nil_iff_forall_not_mem.2 fun d hd => hsrc ?_
        obtain ⟨-, -, hlow, hlt⟩ := candidate_src hd
        exact ⟨hlow, hlt⟩
      by_cases hzero : 0 ∈ inputDividers src
      · exact hfault (searchDividers_fault hzero freq)
      · have hend : searchDividers src freq = .ok ⟨2 ^ 32 - 1, ⟨0, 0, 0⟩⟩ := by
          rw [searchDividers_eq hzero, hnil]
          rfl
        exact hbest _ hend

/-! ## What the searches of the modes with a fraction find -/

theorem findP_isSome_iff (hfreq : fclko < 2400000000) :
    (findP fclko).isSome ↔ 85714286 ≤ fclko := by
  constructor
  · intro h
    obtain ⟨p, hp⟩ := Option.isSome_iff_exists.1 h
    obtain ⟨-, hp7, hge, -⟩ := findP_spec hp
    have hmul : p * fclko ≤ 7 * fclko := Nat.mul_le_mul_right _ hp7
    omega
  · intro h
    rw [findP, List.find?_isSome]
    by_cases hone : 600000000 ≤ fclko
    · refine ⟨1, by decide, ?_⟩
      simp only [Bool.and_eq_true, decide_eq_true_eq, VSIPLL_FCLKO_MAX_FREQ]
      omega
    -- the least factor that reaches 600 MHz does not go beyond 1.2 GHz
    refine ⟨(600000000 + fclko - 1) / fclko, ?_, ?_⟩
    · rw [mem_counter]
      refine ⟨(Nat.le_div_iff_mul_le (by omega)).2 (by omega), ?_⟩
      exact Nat.le_of_lt_succ ((Nat.div_lt_iff_lt_mul (by omega)).2 (by omega))
    · have hmod := Nat.div_add_mod (600000000 + fclko - 1) fclko
      have hlt := Nat.mod_lt (600000000 + fclko - 1) (show fclko > 0 by omega)
      rw [Nat.mul_comm] at hmod
      simp only [Bool.and_eq_true, decide_eq_true_eq, VSIPLL_FCLKO_MAX_FREQ]
      generalize (600000000 + fclko - 1) / fclko * fclko = x at hmod
      omega

theorem findM_isSome_iff (hsrc : src ≤ 200000000) : (findM src).isSome ↔ 10000000 ≤ src := by
  constructor
  · intro h
    obtain ⟨m, hm⟩ := Option.isSome_iff_exists.1 h
    obtain ⟨-, -, hge, -⟩ := findM_spec hm
    exact le_trans hge (Nat.div_le_self ..)
  · intro h
    rw [findM, List.find?_isSome]
    have hcases : src ≤ 40000000 ∨ 40000000 < src ∧ src ≤ 80000000 ∨ 80000000 < src := by omega
    rcases hcases with hlow | hmid | hhigh
    · refine ⟨1, by decide, ?_⟩
      simp only [Bool.and_eq_true, decide_eq_true_eq]
      omega
    · refine ⟨2, by decide, ?_⟩
      simp only [Bool.and_eq_true, decide_eq_true_eq]
      omega
    · refine ⟨5, by decide, ?_⟩
      simp only [Bool.and_eq_true, decide_eq_true_eq]
      omega

/-- The frequency of dividers in range is not zero. -/
theorem FracRange.freq_ne_zero (h : FracRange src fclko) :
    src * feedback src fclko / leastP fclko / leastM src / 1000 ≠ 0 := by
  have hm : 1 ≤ leastM src := Nat.succ_le_succ (Nat.zero_le _)
  have href := h.ref_ge
  have hosc := h.osc_ge
  have hp7 := h.p_le
  have hp : 1 ≤ leastP fclko := by
    rcases Nat.eq_zero_or_pos (leastP fclko) with hz | hpos
    · rw [hz] at hosc
      omega
    · exact hpos
  have hfeed : 7000 ≤ feedback src fclko := by
    have hupper : src < 40000001 * leastM src := by
      rw [leastM]
      omega
    rw [feedback]
    refine (Nat.le_div_iff_mul_le (by omega)).2 ?_
    have hmul : 600000000 * leastM src ≤ fclko * leastP fclko * leastM src :=
      Nat.mul_le_mul_right _ hosc
    omega
  rw [Nat.div_div_eq_div_mul, Nat.div_div_eq_div_mul, ← Nat.mul_assoc]
  have hle : leastP fclko * leastM src * 1000 ≤ src * feedback src fclko := by
    calc leastP fclko * leastM src * 1000 ≤ 7 * leastM src * 1000 :=
          Nat.mul_le_mul_right _ (Nat.mul_le_mul_right _ hp7)
      _ = leastM src * 7000 := by ring
      _ ≤ src * feedback src fclko := Nat.mul_le_mul (by omega) hfeed
  have hpos : 0 < leastP fclko * leastM src * 1000 := by positivity
  exact (Nat.div_pos hle hpos).ne'

/-- The search of a mode with a fraction, past the checks. -/
theorem fractionalFreq_result (hsrc : src ≤ 200000000) (hfreq : fclko < 2400000000) :
    (10000000 ≤ src ∧ 85714286 ≤ fclko) ∧ (fractionalFreq src fclko ss slope).clk ≠ 0 ∨
      ¬ (10000000 ≤ src ∧ 85714286 ≤ fclko) ∧ fractionalFreq src fclko ss slope = .fail := by
  have hp := findP_isSome_iff hfreq
  have hm := findM_isSome_iff hsrc
  cases hfp : findP fclko with
  | none =>
    rw [hfp] at hp
    refine .inr ⟨fun h => absurd (hp.2 h.2) (by decide), ?_⟩
    rw [fractionalFreq, hfp]
  | some p =>
    rw [hfp] at hp
    cases hfm : findM src with
    | none =>
      rw [hfm] at hm
      refine .inr ⟨fun h => absurd (hm.2 h.1) (by decide), ?_⟩
      rw [fractionalFreq, hfp, hfm]
    | some m =>
      rw [hfm] at hm
      obtain ⟨hrange, heq⟩ := @fractionalFreq_found _ _ _ _ ss slope hfp hfm
      refine .inl ⟨⟨hm.1 rfl, hp.1 rfl⟩, ?_⟩
      rw [heq]
      exact hrange.freq_ne_zero

/-- A request below the range has a multiple in it that the fractional mode tries. -/
theorem raiseFreqMode1_ne_zero (hfreq : freq < 85700000) :
    raiseFreqMode1 freq ≠ 0 ↔ 865657 ≤ freq := by
  rw [raiseFreqMode1]
  cases hfind : (counter 2 99).find? fun i => decide (i * freq > VSIPLL_FCLKO_MIN_FREQ) with
  | none =>
    have hnone := List.find?_eq_none.1 hfind 99 (by decide)
    rw [decide_eq_true_eq, VSIPLL_FCLKO_MIN_FREQ] at hnone
    simp only [ne_eq, not_true_eq_false, false_iff]
    omega
  | some i =>
    obtain ⟨habove, hmem, -⟩ := List.find?_range'_eq_some.1 hfind
    have hbounds := List.mem_range'_1.1 hmem
    rw [decide_eq_true_eq, VSIPLL_FCLKO_MIN_FREQ] at habove
    dsimp only
    have hmul : i * freq ≤ 99 * freq := Nat.mul_le_mul_right _ (by omega)
    constructor
    · intro _
      omega
    · intro _
      omega

/-- The spread-spectrum mode tries seven times a request below the range. -/
theorem raiseFreqMode2_ne_zero : raiseFreqMode2 freq ≠ 0 ↔ 85700000 < 7 * freq := by
  simp only [raiseFreqMode2, counter, List.range', List.foldl_cons, List.foldl_nil]
  grind

/-- The checks and the search of a mode with a fraction. -/
theorem checkedFreq_result {raiseFreq : Nat → Nat} {aim : Nat → Nat} (inReach : Prop)
    (hraise : freq < 85700000 → (raiseFreq freq ≠ 0 ↔ inReach))
    (hgoal : freq < 85700000 → raiseFreq freq ≠ 0 → raiseFreq freq = aim freq)
    (hlow : freq < 85700000 → aim freq < 2400000000) (hhigh : ¬ freq < 85700000 → aim freq = freq)
    (hreach : ¬ freq < 85700000 → inReach) :
    let r := checkedFreq raiseFreq (fun fclko => fractionalFreq src fclko ss slope) src freq
    (1000000 ≤ src ∧ src ≤ 200000000 ∧ (2400000000 ≤ freq ∨ 10000000 ≤ src ∧ inReach ∧
        85714286 ≤ aim freq)) ∧ r.clk ≠ 0 ∨
      ¬ (1000000 ≤ src ∧ src ≤ 200000000 ∧ (2400000000 ≤ freq ∨ 10000000 ≤ src ∧ inReach ∧
        85714286 ≤ aim freq)) ∧ r = .fail := by
  dsimp only
  rw [checkedFreq]
  simp only [VSIPLL_FREF_MAX_FREQ, VSIPLL_FREF_MIN_FREQ, VSIPLL_FCLKO_MIN_FREQ,
    VSIPLL_FCLKO_MAX_FREQ]
  by_cases hsrc : src > 200000000 ∨ src < 1000000
  · rw [if_pos hsrc]
    exact .inr ⟨fun h => by omega, rfl⟩
  rw [if_neg hsrc]
  by_cases hbelow : freq < 85700000
  · rw [if_pos hbelow]
    by_cases hzero : raiseFreq freq = 0
    · rw [if_pos hzero]
      refine .inr ⟨?_, rfl⟩
      rintro ⟨-, -, h | ⟨-, h, -⟩⟩
      · omega
      · exact (hraise hbelow).2 h hzero
    · rw [if_neg hzero, hgoal hbelow hzero]
      have hin := (hraise hbelow).1 hzero
      rcases @fractionalFreq_result _ _ ss slope (show src ≤ 200000000 by omega)
        (hlow hbelow) with ⟨hlegal, hclk⟩ | ⟨hillegal, hfail⟩
      · exact .inl ⟨⟨by omega, by omega, .inr ⟨hlegal.1, hin, hlegal.2⟩⟩, hclk⟩
      · refine .inr ⟨?_, hfail⟩
        rintro ⟨-, -, h | ⟨href, -, haim⟩⟩
        · omega
        · exact hillegal ⟨href, haim⟩
  rw [if_neg hbelow, hhigh hbelow]
  by_cases habove : freq ≥ 2400000000
  · rw [if_pos habove]
    exact .inl ⟨⟨by omega, by omega, .inl habove⟩, by decide⟩
  · rw [if_neg habove]
    rcases @fractionalFreq_result _ _ ss slope (show src ≤ 200000000 by omega)
      (show freq < 2400000000 by omega) with ⟨hlegal, hclk⟩ | ⟨hillegal, hfail⟩
    · exact .inl ⟨⟨by omega, by omega, .inr ⟨hlegal.1, hreach hbelow, hlegal.2⟩⟩, hclk⟩
    · refine .inr ⟨?_, hfail⟩
      rintro ⟨-, -, h | ⟨href, -, haim⟩⟩
      · omega
      · exact hillegal ⟨href, haim⟩

theorem aimMode1_lt (hfreq : freq < 85700000) : aimMode1 freq < 2400000000 := by
  have hmul : freq * (85700000 / freq) ≤ 85700000 := Nat.mul_div_le ..
  rw [aimMode1, if_pos hfreq, Nat.mul_succ]
  omega

/-- The fractional mode finds a frequency exactly for a legal request. -/
theorem mode1_result (src freq : Nat) :
    FractionalLegal PLL_OPMODE_FRACTIONAL src freq ∧ (clkCalPLLFreqMode1 src freq).clk ≠ 0 ∨
      ¬ FractionalLegal PLL_OPMODE_FRACTIONAL src freq ∧ clkCalPLLFreqMode1 src freq = .fail := by
  have hresult := @checkedFreq_result src _ 0 (fun _ => 0) _ _ (865657 ≤ freq)
    raiseFreqMode1_ne_zero raiseFreqMode1_eq aimMode1_lt (fun hge => if_neg hge) (by omega)
  rw [FractionalLegal, if_pos rfl]
  exact hresult

/-- The spread-spectrum mode finds a frequency exactly for a legal request. -/
theorem mode2_result (src freq u32SR u32Fmod : Nat) :
    FractionalLegal PLL_OPMODE_SPREAD_SPECTRUM src freq ∧
        (clkCalPLLFreqMode2 src freq u32SR u32Fmod).clk ≠ 0 ∨
      ¬ FractionalLegal PLL_OPMODE_SPREAD_SPECTRUM src freq ∧
        clkCalPLLFreqMode2 src freq u32SR u32Fmod = .fail := by
  have hresult := @checkedFreq_result src _ (src >>> 1 / (u32Fmod * 2) - 1)
    (fun u64tmp => (u64tmp * u32SR / (src >>> 1 / (u32Fmod * 2) - 1)) <<< 24 / 100 / 1000)
    _ _ (85700000 < 7 * freq) (fun _ => raiseFreqMode2_ne_zero) raiseFreqMode2_eq
    (fun hlow => by rw [aimMode2, if_pos hlow]; omega) (fun hge => if_neg hge) (by omega)
  have hreach : (85700000 < 7 * freq ∧ 85714286 ≤ aimMode2 freq) ↔ 85714286 ≤ aimMode2 freq := by
    rw [aimMode2]
    split <;> omega
  rw [hreach] at hresult
  rw [FractionalLegal, if_neg (by decide)]
  exact hresult

end

/-! ## The registers after a request -/

section

variable {clk clk' : ClkT} {i : Fin 6} {pll : PllT} {mode u32PllIdx : BitVec 32}
  {src freq n m p : Nat} {r : Request} {rs : List Request}

/-- The getter of a PLL divides by no zero. -/
def PllT.Readable (pll : PllT) : Prop := ∀ d ∈ vsiDivisors pll, d ≠ 0#32

/-- A running PLL can be read when its dividers are not zero. -/
theorem Fields.readable_iff (h : Fields pll mode n m p) (hm : m ≤ 63) (hp : p ≤ 7)
    (hmode : mode = PLL_OPMODE_INTEGER ∨ mode = PLL_OPMODE_FRACTIONAL ∨
      mode = PLL_OPMODE_SPREAD_SPECTRUM) : pll.Readable ↔ p * m ≠ 0 := by
  have hproduct : pll.outdiv * pll.indiv ≠ 0#32 ↔ p * m ≠ 0 := by
    have hlt : p * m < 2 ^ 32 := lt_of_le_of_lt (Nat.mul_le_mul hp hm) (by decide)
    have htoNat : (pll.outdiv * pll.indiv).toNat = p * m := by
      rw [← h.outdiv_eq, ← h.indiv_eq] at hlt ⊢
      exact toNat_mul_lt hlt
    rw [← htoNat]
    exact not_congr ⟨fun heq => congrArg BitVec.toNat heq, fun heq => BitVec.eq_of_toNat_eq heq⟩
  rw [PllT.Readable, vsiDivisors, if_neg (not_not.2 h.on), h.mode_eq, ← hproduct]
  rcases hmode with rfl | hmode
  · rw [if_pos rfl]
    simp
  · have hne : mode ≠ PLL_OPMODE_INTEGER := by rcases hmode with rfl | rfl <;> decide
    rw [if_neg hne, if_pos hmode]
    simp

/-- The words of a failed search written over a PLL's registers, which cannot be read then. -/
theorem not_readable_fail {w₀ w₁ msk₀ ctl2 : BitVec 32} (hmode : mode = PLL_OPMODE_FRACTIONAL ∨
      mode = PLL_OPMODE_SPREAD_SPECTRUM) (hmsk : getField msk₀ 18 2 = 0#32)
    (hmskN : getField msk₀ 0 11 = fieldMask 11) (hmskM : getField msk₀ 12 6 = fieldMask 6) :
    ¬ (written w₀ w₁ mode msk₀ (outdivMsk ||| fracMsk) PllFreq.fail.reg0 PllFreq.fail.reg1
      ctl2).Readable := by
  have hfields : Fields (written w₀ w₁ mode msk₀ (outdivMsk ||| fracMsk)
      (BitVec.ofNat 32 (0 <<< 20 ||| 0 <<< 12 ||| 0))
      (BitVec.ofNat 32 (0 <<< 4) ||| BitVec.ofNat 32 (fracOf 0) <<< 8) ctl2) mode 0 0 0 :=
    fields_fractional hmode hmsk hmskN hmskM (by decide) (by decide) (by decide) (by decide)
  intro h
  exact (hfields.readable_iff (by decide) (by decide) (.inr hmode)).1 h rfl

/-- The words of a search that found a frequency, in a mode with a fraction. -/
theorem readable_fractional {w₀ w₁ msk₀ ctl2 : BitVec 32} {q : PllFreq} {aim ss : Nat}
    {slope : Nat → Nat}
    (hmode : mode = PLL_OPMODE_FRACTIONAL ∨ mode = PLL_OPMODE_SPREAD_SPECTRUM)
    (hmsk : getField msk₀ 18 2 = 0#32) (hmskN : getField msk₀ 0 11 = fieldMask 11)
    (hmskM : getField msk₀ 12 6 = fieldMask 6) (hclk : q.clk ≠ 0)
    (hq : q = .beyond ∨ q = fractionalFreq src aim ss slope) :
    (written w₀ w₁ mode msk₀ (outdivMsk ||| fracMsk) q.reg0 q.reg1 ctl2).Readable := by
  rcases hq with rfl | rfl
  · have hfields : Fields (written w₀ w₁ mode msk₀ (outdivMsk ||| fracMsk)
        (BitVec.ofNat 32 (0 <<< 20 ||| 3 <<< 12 ||| 250))
        (BitVec.ofNat 32 (2 <<< 4) ||| BitVec.ofNat 32 (fracOf 0) <<< 8) ctl2) mode 250 3 2 :=
      fields_fractional hmode hmsk hmskN hmskM (by decide) (by decide) (by decide) (by decide)
    exact (hfields.readable_iff (by decide) (by decide) (.inr hmode)).2 (by decide)
  · obtain ⟨hrange, heq⟩ := fractionalFreq_spec hclk
    have hfeed := hrange.feedback_le
    have hosc := hrange.osc_ge
    have hp : leastP aim ≠ 0 := by
      intro hz
      rw [hz] at hosc
      omega
    rw [heq]
    refine ((fields_fractional hmode hmsk hmskN hmskM (by omega) hrange.m_le hrange.p_le
      (Nat.mod_lt _ (by decide))).readable_iff hrange.m_le hrange.p_le (.inr hmode)).2 ?_
    exact Nat.mul_ne_zero hp (Nat.succ_ne_zero _)

/-- What a setting of a PLL with a fractional field comes to: with a legal setting its registers are
left as they are or can be read; without one the call does not return or leaves registers that
cannot be read. -/
theorem vsi_set_result (clk : ClkT) (i : Fin 6) (mode : BitVec 32) (src freq : Nat) :
    ModeLegal mode src freq ∧ (∃ f pll,
        clkSetVSIPLLFreq clk i mode src freq = some (f, clk.setPLL i pll) ∧
        (f = 0 → pll = clk.PLL i) ∧ (pll = clk.PLL i ∨ pll.Readable)) ∨
      ¬ ModeLegal mode src freq ∧ ∀ f clk',
        clkSetVSIPLLFreq clk i mode src freq = some (f, clk') → ¬ (clk'.PLL i).Readable := by
  rw [clkSetVSIPLLFreq]
  dsimp only
  by_cases hint : mode = PLL_OPMODE_INTEGER
  · subst hint
    rw [if_pos rfl]
    rcases mode0_result src freq with ⟨hlegal, d, q, hq, hclk, hn, hm, hp, hpm, h₀, h₁⟩ |
      ⟨hillegal, hnone⟩
    · rw [hq, Option.map_some]
      refine .inl ⟨⟨fun _ => hlegal, fun h => absurd h (by decide)⟩, _, _, rfl, fun hz =>
        absurd hz hclk, .inr ?_⟩
      rw [h₀, h₁]
      exact ((fields_integer hn hm hp).readable_iff hm hp (.inl rfl)).2 hpm
    · refine .inr ⟨fun h => hillegal (h.1 rfl), fun f clk' h => ?_⟩
      rw [hnone] at h
      cases h
  rw [if_neg hint]
  by_cases hfrac : mode = PLL_OPMODE_FRACTIONAL
  · subst hfrac
    rw [if_pos rfl]
    rcases mode1_result src freq with ⟨hlegal, hclk⟩ | ⟨hillegal, hfail⟩
    · refine .inl ⟨⟨fun h => absurd h hint, fun _ => hlegal⟩, _, _, rfl, fun hz => absurd hz hclk,
        .inr ?_⟩
      have hfound := checkedFreq_spec src freq aimMode1 raiseFreqMode1_eq (fun hge => if_neg hge)
        hclk
      exact readable_fractional (.inl rfl) (by decide) (by decide) (by decide) hclk
        (hfound.imp And.right And.right)
    · refine .inr ⟨fun h => hillegal (h.2 (.inl rfl)), fun f clk' h => ?_⟩
      rw [hfail] at h
      cases h
      rw [ClkT.setPLL_PLL]
      exact not_readable_fail (.inl rfl) (by decide) (by decide) (by decide)
  rw [if_neg hfrac]
  by_cases hspread : mode = PLL_OPMODE_SPREAD_SPECTRUM
  · subst hspread
    rw [if_pos rfl]
    rcases mode2_result src freq 50000 194 with ⟨hlegal, hclk⟩ | ⟨hillegal, hfail⟩
    · refine .inl ⟨⟨fun h => absurd h hint, fun _ => hlegal⟩, _, _, rfl, fun hz => absurd hz hclk,
        .inr ?_⟩
      have hfound := checkedFreq_spec src freq aimMode2 raiseFreqMode2_eq (fun hge => if_neg hge)
        hclk
      exact readable_fractional (.inr rfl) (by decide) (by decide) (by decide) hclk
        (hfound.imp And.right And.right)
    · refine .inr ⟨fun h => hillegal (h.2 (.inr rfl)), fun f clk' h => ?_⟩
      rw [hfail] at h
      cases h
      rw [ClkT.setPLL_PLL]
      exact not_readable_fail (.inr rfl) (by decide) (by decide) (by decide)
  · rw [if_neg hspread]
    refine .inl ⟨⟨fun h => absurd h hint, fun h => ?_⟩, 0, clk.PLL i, ?_, fun _ => rfl, .inl rfl⟩
    · rcases h with h | h
      · exact absurd h hfrac
      · exact absurd h hspread
    · rw [ClkT.setPLL_self]

/-! ## Sequences of requests -/

theorem vsiIndex_ne_zero (h : vsiIndex u32PllIdx = some i) : i ≠ 0 ∧ u32PllIdx ≠ CAPLL := by
  rw [vsiIndex] at h
  by_cases hddr : u32PllIdx = DDRPLL
  · rw [if_pos hddr] at h
    cases h
    exact ⟨by decide, by rw [hddr]; decide⟩
  by_cases hepll : u32PllIdx = EPLL
  · rw [if_neg hddr, if_pos hepll] at h
    cases h
    exact ⟨by decide, by rw [hepll]; decide⟩
  by_cases hapll : u32PllIdx = APLL
  · rw [if_neg hddr, if_neg hepll, if_pos hapll] at h
    cases h
    exact ⟨by decide, by rw [hapll]; decide⟩
  by_cases hvpll : u32PllIdx = VPLL
  · rw [if_neg hddr, if_neg hepll, if_neg hapll, if_pos hvpll] at h
    cases h
    exact ⟨by decide, by rw [hvpll]; decide⟩
  · rw [if_neg hddr, if_neg hepll, if_neg hapll, if_neg hvpll] at h
    cases h

/-- The PLL of an index can be read. -/
theorem readable_pll (h : Readable clk) (hidx : vsiIndex u32PllIdx = some i) :
    (clk.PLL i).Readable := by
  have hd := h u32PllIdx
  rwa [readDivisors, if_neg (vsiIndex_ne_zero hidx).2, hidx] at hd

/-- A PLL that can be read in place of another. -/
theorem Readable.setPLL (h : Readable clk) (hi : i ≠ 0) (hpll : pll.Readable) :
    Readable (clk.setPLL i pll) := by
  have hca : (clk.setPLL i pll).PLL0CTL0 = clk.PLL0CTL0 := by
    rw [ClkT.PLL0CTL0, ClkT.setPLL_PLL_of_ne clk (Ne.symm hi), ClkT.PLL0CTL0]
  intro idx
  have hidx := h idx
  rw [readDivisors] at hidx ⊢
  split
  · rw [caDivisors, hca]
    next hca' =>
    rwa [if_pos hca', caDivisors] at hidx
  · next hca' =>
    rw [if_neg hca'] at hidx
    cases hvsi : vsiIndex idx with
    | none => exact fun d hd => absurd hd List.not_mem_nil
    | some j =>
      rw [hvsi] at hidx
      dsimp only at hidx ⊢
      by_cases hji : j = i
      · rw [hji, ClkT.setPLL_PLL]
        exact hpll
      · rw [ClkT.setPLL_PLL_of_ne clk hji]
        exact hidx

/-- The CPU's PLL can be read when its dividers are not zero. -/
theorem caDivisors_ne_zero {val : BitVec 32} (hval : clk.PLL0CTL0 = val)
    (hdiv : (1#32 <<< (getField val 12 2).toNat) * getField val 8 4 ≠ 0#32) :
    ∀ d ∈ caDivisors clk, d ≠ 0#32 := by
  rw [caDivisors, hval]
  split
  · exact fun d hd => absurd hd List.not_mem_nil
  · rw [List.forall_mem_cons]
    exact ⟨by decide, List.forall_mem_singleton.2 hdiv⟩

/-- Every entry of the CPU's PLL's table can be read. -/
theorem Readable.setCAPLL (h : Readable clk) {f : Nat}
    (hset : clkSetCAPLLClockFreq clk mode freq = (f, clk')) :
    (f = 0 → clk' = clk) ∧ Readable clk' := by
  have hentries : ∀ e ∈ s_au32CAPLLMap, e.1 ≠ 0 ∧
      (1#32 <<< (getField e.2 12 2).toNat) * getField e.2 8 4 ≠ 0#32 := by decide
  rw [clkSetCAPLLClockFreq] at hset
  split at hset
  · next e hfind =>
    cases hset
    obtain ⟨hne, hdiv⟩ := hentries e (List.mem_of_find?_eq_some hfind)
    refine ⟨fun hz => absurd hz hne, fun idx => ?_⟩
    have hidx := h idx
    rw [readDivisors] at hidx ⊢
    split
    · exact caDivisors_ne_zero rfl hdiv
    · next hca =>
      rw [if_neg hca] at hidx
      cases hvsi : vsiIndex idx with
      | none => exact fun d hd => absurd hd List.not_mem_nil
      | some j =>
        rw [hvsi] at hidx
        dsimp only at hidx ⊢
        rw [ClkT.setPLL_PLL_of_ne clk (vsiIndex_ne_zero hvsi).1]
        exact hidx
  · cases hset
    exact ⟨fun _ => rfl, h⟩

/-- Where every PLL can be read, a request is right exactly when it has a legal setting. -/
theorem setRight_iff (h : Readable clk) (r : Request) : SetRight clk r ↔ LegalRequest r := by
  cases hidx : vsiIndex r.u32PllIdx with
  | some i =>
    have hset := (vsi_dispatch clk clk hidx r.u32OpMode r.PllSrcClk r.u64PllFreq).1
    have hlegal : LegalRequest r ↔ ModeLegal r.u32OpMode r.PllSrcClk.toNat r.u64PllFreq.toNat := by
      rw [LegalRequest, hidx]
      exact ⟨fun hr => hr (by simp), fun hr _ => hr⟩
    rw [hlegal, SetRight, hset]
    rcases vsi_set_result clk i r.u32OpMode r.PllSrcClk.toNat r.u64PllFreq.toNat with
      ⟨hmode, f, pll, heq, hkept, hpll⟩ | ⟨hmode, hfail⟩
    · refine iff_of_true ⟨f, _, heq, fun hz => ?_, ?_⟩ hmode
      · rw [hkept hz, ClkT.setPLL_self]
      · refine h.setPLL (vsiIndex_ne_zero hidx).1 ?_
        rcases hpll with rfl | hpll
        · exact readable_pll h hidx
        · exact hpll
    · refine iff_of_false ?_ hmode
      rintro ⟨f, clk', heq, -, hread⟩
      exact hfail f clk' heq (readable_pll hread hidx)
  | none =>
    refine iff_of_true ?_ fun hne => absurd hidx hne
    rw [SetRight, clkSetPLLFreq]
    split
    · obtain ⟨hkept, hread⟩ := h.setCAPLL
        (show clkSetCAPLLClockFreq clk r.u32OpMode r.u64PllFreq.toNat = (_, _) from rfl)
      exact ⟨_, _, rfl, hkept, hread⟩
    split
    · exact ⟨_, _, rfl, fun _ => rfl, h⟩
    have hother : ∀ idx, vsiIndex idx ≠ none → r.u32PllIdx ≠ idx := by
      intro idx hne heq
      rw [← heq] at hne
      exact hne hidx
    rw [if_neg (hother _ (by decide)), if_neg (hother _ (by decide)),
      if_neg (hother _ (by decide)), if_neg (hother _ (by decide))]
    exact ⟨_, _, rfl, fun _ => rfl, h⟩

/-- A legal request keeps every PLL readable. -/
theorem readable_step (h : Readable clk) (hs : where_ step (fun _ => LegalRequest) clk r clk') :
    Readable clk' := by
  obtain ⟨hlegal, f, hset⟩ := hs
  obtain ⟨f', clk'', heq, -, hread⟩ := (setRight_iff h r).2 hlegal
  cases hset.symm.trans heq
  exact hread

/-- After any sequence of legal requests the getter divides by no zero, whatever PLL it reads, and a
further request is right exactly when it has a legal setting. -/
theorem pllSettings_run {clk₀ : ClkT} (h₀ : Readable clk₀)
    (h : Run (where_ step fun _ => LegalRequest) clk₀ rs clk) :
    Readable clk ∧ ∀ r, SetRight clk r ↔ LegalRequest r := by
  have hread : Readable clk := h.invariant readable_step h₀
  exact ⟨hread, setRight_iff hread⟩

end

/-- PLLs whose CPU's PLL runs at 1 GHz and whose others are powered down. -/
def ClkT.boot : ClkT :=
  ⟨fun i => if i = 0 then { CTL0 := 0x6FA, CTL1 := 0, CTL2 := 0 }
    else { CTL0 := 0, CTL1 := 1, CTL2 := 0 }⟩

theorem readable_boot : Readable .boot := by
  have hboot : ∀ i : Fin 6, i ≠ 0 → vsiDivisors (ClkT.boot.PLL i) = [] := by decide
  intro idx
  have hca : ClkT.boot.PLL0CTL0 = 0x6FA#32 := rfl
  rw [readDivisors]
  split
  · exact caDivisors_ne_zero hca (by decide)
  · cases hvsi : vsiIndex idx with
    | none => exact fun d hd => absurd hd List.not_mem_nil
    | some i =>
      dsimp only
      rw [hboot i (vsiIndex_ne_zero hvsi).1]
      exact fun d hd => absurd hd List.not_mem_nil

/-- The driver's own example, 884.736 MHz from the crystal, after which every PLL can be read. -/
theorem pllSettings_run_vpll :
    let clk := ((clkSetPLLFreq .boot VPLL PLL_OPMODE_FRACTIONAL 24000000 884736000).get rfl).2
    Readable clk ∧ ∀ r, SetRight clk r ↔ LegalRequest r := by
  have hlegal : LegalRequest ⟨VPLL, PLL_OPMODE_FRACTIONAL, 24000000, 884736000⟩ := by
    refine fun _ => ⟨fun hint => absurd hint (by decide), fun _ => ?_⟩
    exact ⟨by decide, by decide, .inr ⟨by decide, by decide, by decide⟩⟩
  exact pllSettings_run readable_boot (.snoc .nil ⟨hlegal, _, rfl⟩)

/-- A request for 500 kHz in the fractional mode has no legal setting: its dividers become zero. -/
theorem not_pllSettings :
    ¬ ∀ (clk₀ clk : ClkT) (rs : List Request) (r : Request), Readable clk₀ →
      Run step clk₀ rs clk → SetRight clk r := by
  intro h
  obtain ⟨f, clk', heq, hkept, -⟩ := h .boot .boot [] ⟨APLL, PLL_OPMODE_FRACTIONAL, 24000000, 500000⟩
    readable_boot .nil
  have hzero : f = 0 := by
    have hfst := congrArg (Option.map Prod.fst) heq
    exact (Option.some.inj hfst).symm
  have hsnd := congrArg (Option.map fun x => (x.2.PLL 3).CTL1) heq
  rw [hkept hzero] at hsnd
  have hon : 0#32 = 1#32 := Option.some.inj hsnd
  exact absurd hon (by decide)

end NumakerMA35D1.Clk

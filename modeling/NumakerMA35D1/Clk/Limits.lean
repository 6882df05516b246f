import NumakerMA35D1.Clk.SetRun

/-!
# The settings the searches return, and the PLL's limits

`pllLimits_iff`: when a frequency that a search reports stands for a setting within the PLL's limits,
one that fits its register fields and one that gives the request. In integer mode that needs a
setting within the limits among the first of the nearest, since the search's truncated ends let
references above 40 MHz and oscillators below 600 MHz in; in fractional mode a request in range and a
step of the feedback factor between 600 MHz and the oscillator looked for. The spread-spectrum mode
gets the spread and the modulation frequency in each other's place and never fits.
-/

namespace NumakerMA35D1.Clk

open Embedded

/-! ## What a search returns -/

/-- Reference: `nu_clk.c:1387 CLK_SetVSIPLLFreq`. -/
def calPLLFreq (u32OpMode : BitVec 32) (PllSrcClk u64PllFreq : Nat) : Option PllFreq :=
  if u32OpMode = PLL_OPMODE_INTEGER then clkCalPLLFreqMode0 PllSrcClk u64PllFreq
  else if u32OpMode = PLL_OPMODE_FRACTIONAL then some (clkCalPLLFreqMode1 PllSrcClk u64PllFreq)
  else if u32OpMode = PLL_OPMODE_SPREAD_SPECTRUM then
    some (clkCalPLLFreqMode2 PllSrcClk u64PllFreq 50000 194)
  else none

/-- The input divider in the words for the registers. -/
def PllFreq.m (r : PllFreq) : Nat := (getField r.reg0 12 6).toNat

/-- The feedback divider. -/
def PllFreq.n (r : PllFreq) : Nat := (getField r.reg0 0 11).toNat

/-- The output divider. -/
def PllFreq.p (r : PllFreq) : Nat := (getField r.reg1 4 3).toNat

/-- The fraction, to the nearest thousandth. -/
def PllFreq.x (r : PllFreq) : Nat := ((getField r.reg1 8 24).toNat * 1000 + 2 ^ 23) / 2 ^ 24

/-- The feedback factor in thousandths. -/
def PllFreq.factor (r : PllFreq) : Nat := 1000 * r.n + r.x

/-- The spread rate. Reference: `nu_clk.c:1302 CLK_CalPLLFreq_Mode2`. -/
def spreadRate (PllSrcClk u32Fmod : Nat) : Nat := PllSrcClk >>> 1 / (u32Fmod * 2) - 1

/-- The fields of the first register that a mode writes. Reference: `nu_clk.c:1404
CLK_SetVSIPLLFreq`. -/
def dividerMsk (u32OpMode : BitVec 32) : BitVec 32 :=
  if u32OpMode = PLL_OPMODE_SPREAD_SPECTRUM then ssrateMsk ||| indivMsk ||| fbdivMsk
  else indivMsk ||| fbdivMsk

/-- The setting is within the PLL's limits: the source clock, the reference behind the input divider
and the oscillator, in Hz. Reference: `nu_clk.c:1006 VSIPLL_FREF_MAX_FREQ`. -/
structure WithinLimits (u32OpMode : BitVec 32) (PllSrcClk : Nat) (r : PllFreq) : Prop where
  fref_ge : VSIPLL_FREF_MIN_FREQ ≤ PllSrcClk
  fref_le : PllSrcClk ≤ VSIPLL_FREF_MAX_FREQ
  frefdivm_ge : (if u32OpMode = PLL_OPMODE_INTEGER then VSIPLL_FREFDIVM_MIN_FREQ0
    else VSIPLL_FREFDIVM_MIN_FREQ1) ≤ PllSrcClk / r.m
  frefdivm_le : PllSrcClk / r.m ≤ VSIPLL_FREFDIVM_MAX_FREQ
  fclk_ge : VSIPLL_FCLK_MIN_FREQ ≤ PllSrcClk * r.factor / (1000 * r.m)
  fclk_le : PllSrcClk * r.factor / (1000 * r.m) ≤ VSIPLL_FCLK_MAX_FREQ

/-- The values stay in the fields they are written to. -/
structure FitsFields (u32OpMode : BitVec 32) (PllSrcClk : Nat) (r : PllFreq) : Prop where
  dividers : r.reg0 &&& ~~~dividerMsk u32OpMode = 0#32
  output : r.reg1 &&& ~~~(outdivMsk ||| fracMsk) = 0#32
  spread : u32OpMode = PLL_OPMODE_SPREAD_SPECTRUM →
    (getField r.reg0 20 11).toNat = spreadRate PllSrcClk 194 ∧ r.reg2.toNat < 2 ^ 24

/-- The frequency is that of the setting and the one requested: in integer mode no setting that is
tried comes nearer, in the other modes it lies below the request by less than a thousandth of the
reference, divided, and one Hz. -/
structure GivesRequest (u32OpMode : BitVec 32) (PllSrcClk u64PllFreq : Nat) (r : PllFreq) : Prop where
  clk : r.clk = PllSrcClk * r.factor / (1000 * (r.m * r.p))
  nearest : u32OpMode = PLL_OPMODE_INTEGER → ∀ d ∈ candidates PllSrcClk,
    distance PllSrcClk u64PllFreq ⟨r.m, r.n, r.p⟩ ≤ distance PllSrcClk u64PllFreq d
  near : u32OpMode ≠ PLL_OPMODE_INTEGER → r.clk ≤ u64PllFreq ∧
    (u64PllFreq - r.clk) * (1000 * (r.m * r.p)) < PllSrcClk + 1000 * (r.m * r.p)

/-- A frequency other than 0 that a search returns stands for a setting that is right. -/
def CalRight (u32OpMode : BitVec 32) (PllSrcClk u64PllFreq : Nat) : Prop :=
  ∀ r, calPLLFreq u32OpMode PllSrcClk u64PllFreq = some r → r.clk ≠ 0 →
    WithinLimits u32OpMode PllSrcClk r ∧ FitsFields u32OpMode PllSrcClk r ∧
      GivesRequest u32OpMode PllSrcClk u64PllFreq r

/-! ## The condition -/

/-- Of the settings nearest to the request, the first is within the limits. -/
def NearestWithin (src freq : Nat) : Prop :=
  ∃ d, IsFirstMin (distance src freq) (candidates src) d ∧ src / d.m ≤ 40000000 ∧
    600000000 ≤ src * d.n / d.m ∧ src * d.n / d.m ≤ 2400000000

/-- A request in range, from a source clock without a setting, or one in range with a nearest setting
that is within the limits. -/
def IntegerHolds (src freq : Nat) : Prop :=
  85700000 ≤ freq ∧ freq ≤ 2400000000 ∧
    (1000000 ≤ src → src < 2560000000 → src ≤ 200000000 ∧ NearestWithin src freq)

/-- A request without a setting, or one in range for which a multiple of the source clock lies
between 600 MHz and the oscillator's frequency, in thousandths of the reference. -/
def FractionalHolds (src freq : Nat) : Prop :=
  FractionalLegal PLL_OPMODE_FRACTIONAL src freq → 85700000 ≤ freq ∧ freq < 2400000000 ∧
    ∃ t, 600000000 * leastM src * 1000 ≤ src * t ∧ src * t ≤ freq * leastP freq * leastM src * 1000

/-- When a search's setting is right. -/
def LimitsHold (u32OpMode : BitVec 32) (src freq : Nat) : Prop :=
  (u32OpMode = PLL_OPMODE_INTEGER → IntegerHolds src freq) ∧
  (u32OpMode = PLL_OPMODE_FRACTIONAL → FractionalHolds src freq) ∧
  (u32OpMode = PLL_OPMODE_SPREAD_SPECTRUM → ¬ FractionalLegal PLL_OPMODE_SPREAD_SPECTRUM src freq)

section

variable {src freq : Nat} {mode : BitVec 32} {r : PllFreq} {d : Dividers}

/-! ## Integer mode -/

/-- The fraction's field gives the thousandths back. -/
theorem fracOf_nearest {x : Nat} (_ : x < 1000) : (fracOf x * 1000 + 2 ^ 23) / 2 ^ 24 = x := by
  rw [fracOf, Nat.shiftLeft_eq]
  omega

/-- A word with no bit outside a mask. -/
theorem and_not_eq_zero {w msk : BitVec 32}
    (h : ∀ i < 32, w.getLsbD i = true → msk.getLsbD i = true) : w &&& ~~~msk = 0#32 := by
  apply BitVec.eq_of_getLsbD_eq
  intro i hi
  rw [BitVec.getLsbD_and, BitVec.getLsbD_not, BitVec.getLsbD_zero]
  cases hw : w.getLsbD i with
  | false => rfl
  | true => simp [h i hi hw]

/-- The bits of a number below a power of two. -/
theorem testBit_lt {n k i : Nat} (hn : n < 2 ^ k) (h : n.testBit i = true) : i < k := by
  by_contra hk
  rw [Nat.testBit_lt_two_pow (lt_of_lt_of_le hn (Nat.pow_le_pow_right (by decide) (not_lt.1 hk)))] at h
  cases h

/-- The dividers' word stays in their fields. -/
theorem dividers_fits {m n : Nat} (hn : n < 2 ^ 11) (hm : m < 2 ^ 6) :
    BitVec.ofNat 32 (m <<< 12 ||| n) &&& ~~~(indivMsk ||| fbdivMsk) = 0#32 := by
  have hmsk : ∀ i < 32, i < 11 ∨ 12 ≤ i ∧ i < 18 →
      (indivMsk ||| fbdivMsk).getLsbD i = true := by decide
  refine and_not_eq_zero fun i hi h => hmsk i hi ?_
  rw [BitVec.getLsbD_ofNat, Nat.testBit_or, Nat.testBit_shiftLeft] at h
  simp only [hi, decide_true, Bool.true_and, Bool.or_eq_true, Bool.and_eq_true,
    decide_eq_true_eq] at h
  rcases h with ⟨hle, hbit⟩ | hbit
  · have hlt := testBit_lt hm hbit
    omega
  · exact .inl (testBit_lt hn hbit)

/-- The output divider's and the fraction's word stays in their fields. -/
theorem output_fits {p f : Nat} (hp : p < 2 ^ 3) :
    (BitVec.ofNat 32 (p <<< 4) ||| BitVec.ofNat 32 f <<< 8) &&& ~~~(outdivMsk ||| fracMsk) = 0#32 := by
  have hmsk : ∀ i < 32, 4 ≤ i ∧ i < 7 ∨ 8 ≤ i → (outdivMsk ||| fracMsk).getLsbD i = true := by decide
  refine and_not_eq_zero fun i hi h => hmsk i hi ?_
  rw [BitVec.getLsbD_or, BitVec.getLsbD_ofNat, Nat.testBit_shiftLeft, BitVec.getLsbD_shiftLeft] at h
  simp only [hi, decide_true, Bool.true_and, Bool.or_eq_true, Bool.and_eq_true,
    decide_eq_true_eq] at h
  rcases h with ⟨hle, hbit⟩ | ⟨hle, -⟩
  · have hlt := testBit_lt hp hbit
    omega
  · simp only [Bool.not_eq_true', decide_eq_false_iff_not] at hle
    omega

/-- The words of a setting of the integer mode. -/
theorem dividersFreq_decode (hn : d.n ≤ 2047) (hm : d.m ≤ 63) (hp : d.p ≤ 7)
    (h : dividersFreq src d = some r) :
    r.m = d.m ∧ r.n = d.n ∧ r.p = d.p ∧ r.x = 0 ∧ r.clk = src * d.n / (d.p * d.m) ∧
      r.reg0 &&& ~~~(indivMsk ||| fbdivMsk) = 0#32 ∧
      r.reg1 &&& ~~~(outdivMsk ||| fracMsk) = 0#32 := by
  rw [dividersFreq] at h
  split at h
  · cases h
  · cases h
    have hreg0 : BitVec.ofNat 32 (d.m <<< 12 ||| d.n) =
        BitVec.ofNat 32 (0 <<< 20 ||| d.m <<< 12 ||| d.n) := by
      rw [Nat.zero_shiftLeft, Nat.zero_or]
    have hreg1 : BitVec.ofNat 32 (d.p <<< 4) =
        BitVec.ofNat 32 (d.p <<< 4) ||| BitVec.ofNat 32 0 <<< 8 := by
      rw [show BitVec.ofNat 32 0 <<< 8 = 0#32 from rfl, BitVec.or_zero]
    obtain ⟨hfn, hfm, -⟩ := getField_ctl0 0 (show d.n < 2 ^ 11 by omega) (show d.m < 2 ^ 6 by omega)
    obtain ⟨hfp, hff⟩ := getField_ctl1 (show d.p < 2 ^ 3 by omega) (show 0 < 2 ^ 24 by decide)
    rw [← hreg0] at hfn hfm
    rw [← hreg1] at hfp hff
    refine ⟨hfm, hfn, hfp, ?_, rfl, ?_, ?_⟩
    · rw [PllFreq.x, hff]
      rfl
    · exact dividers_fits (by omega) (by omega)
    · exact hreg1 ▸ output_fits (by omega)

/-- The integer mode's search, for a request in range. -/
theorem integer_right_iff (hd : IsFirstMin (distance src freq) (candidates src) d)
    (hr : dividersFreq src d = some r) :
    (WithinLimits PLL_OPMODE_INTEGER src r ∧ FitsFields PLL_OPMODE_INTEGER src r ∧
      GivesRequest PLL_OPMODE_INTEGER src freq r) ↔
    src ≤ 200000000 ∧ src / d.m ≤ 40000000 ∧ 600000000 ≤ src * d.n / d.m ∧
      src * d.n / d.m ≤ 2400000000 := by
  have hrange := inRange_of_mem hd.mem
  obtain ⟨hmpos, -, hlow, -⟩ := candidate_src hd.mem
  obtain ⟨hm, hn, hp, hx, hclk, hreg0, hreg1⟩ :=
    dividersFreq_decode hrange.n_le hrange.m_le hrange.p_le hr
  have hfactor : r.factor = 1000 * d.n := by rw [PllFreq.factor, hn, hx, Nat.add_zero]
  have hfclk : src * r.factor / (1000 * r.m) = src * d.n / d.m := by
    rw [hfactor, hm, Nat.mul_left_comm, Nat.mul_div_mul_left _ _ (by decide)]
  constructor
  · rintro ⟨hlim, -, -⟩
    have hpfd := hlim.frefdivm_le
    have hge := hlim.fclk_ge
    have hle := hlim.fclk_le
    rw [hfclk] at hge hle
    rw [hm] at hpfd
    exact ⟨hlim.fref_le, hpfd, hge, hle⟩
  · rintro ⟨hsrc, hpfd, hge, hle⟩
    refine ⟨⟨hlow, hsrc, ?_, ?_, ?_, ?_⟩, ⟨hreg0, hreg1, ?_⟩, ⟨?_, fun _ d' hd' => ?_, ?_⟩⟩
    · rw [if_pos rfl, hm]
      have hms := hrange.m_src
      have hmul : 1000000 * d.m ≤ src := by omega
      exact (Nat.le_div_iff_mul_le (by omega)).2 hmul
    · rw [hm]
      exact hpfd
    · rw [hfclk]
      exact hge
    · rw [hfclk]
      exact hle
    · intro hspread
      exact absurd hspread (by decide)
    · rw [hclk, hfactor, hm, hp, Nat.mul_left_comm, Nat.mul_div_mul_left _ _ (by decide),
        Nat.mul_comm d.p]
    · rw [hm, hn, hp]
      exact hd.le hd'
    · intro hne
      exact absurd rfl hne

/-- The fixed setting of the integer mode is not what a request out of range asks for. -/
theorem not_givesRequest_fixed (hout : freq < 85700000 ∨ 2400000000 < freq) :
    ¬ GivesRequest PLL_OPMODE_INTEGER src freq ⟨1000000000, 0x307d#32, 0x10#32, 0⟩ := by
  intro h
  have hm : PllFreq.m ⟨1000000000, 0x307d#32, 0x10#32, 0⟩ = 3 := by decide
  have hn : PllFreq.n ⟨1000000000, 0x307d#32, 0x10#32, 0⟩ = 125 := by decide
  have hp : PllFreq.p ⟨1000000000, 0x307d#32, 0x10#32, 0⟩ = 1 := by decide
  have hx : PllFreq.x ⟨1000000000, 0x307d#32, 0x10#32, 0⟩ = 0 := by decide
  have hclk := h.clk
  rw [PllFreq.factor, hm, hn, hp, hx] at hclk
  change 1000000000 = _ at hclk
  have hsrc : src = 24000000 := by omega
  have hnear := h.nearest rfl
  rw [hm, hn, hp, hsrc] at hnear
  have hmem : ∀ n p, 25 ≤ n → n ≤ 100 → 1 ≤ p → p ≤ 24000000 * n / 85700000 → p ≤ 7 →
      (⟨1, n, p⟩ : Dividers) ∈ candidates 24000000 := by
    intro n p hn hn' hp hp' hp7
    refine List.mem_flatMap.2 ⟨1, by decide, List.mem_flatMap.2 ⟨n, ?_, List.mem_map.2 ⟨p, ?_, rfl⟩⟩⟩
    · rw [feedbackDividers, mem_counter]
      exact ⟨hn, hn'⟩
    · rw [outputDividers, mem_counter, VSIPLL_FCLKO_MAX_FREQ, VSIPLL_FCLKO_MIN_FREQ, Nat.div_one]
      constructor <;> split <;> omega
  rcases hout with hlow | hhigh
  · have hle := hnear _ (hmem 25 7 (by decide) (by decide) (by decide) (by decide) (by decide))
    simp only [distance, Nat.dist] at hle
    omega
  · have hle := hnear _ (hmem 100 1 (by decide) (by decide) (by decide) (by decide) (by decide))
    simp only [distance, Nat.dist] at hle
    omega

/-- When the integer mode's setting is right. -/
theorem integer_calRight_iff : CalRight PLL_OPMODE_INTEGER src freq ↔ IntegerHolds src freq := by
  rw [CalRight, calPLLFreq, if_pos rfl, IntegerHolds]
  by_cases hout : freq < 85700000 ∨ 2400000000 < freq
  · have hfixed : clkCalPLLFreqMode0 src freq = some ⟨1000000000, 0x307d#32, 0x10#32, 0⟩ := if_pos hout
    refine iff_of_false (fun h => ?_) (by omega)
    exact not_givesRequest_fixed hout (h _ hfixed (by decide)).2.2
  · have hlow : 85700000 ≤ freq := by omega
    have hhigh : freq ≤ 2400000000 := by omega
    simp only [hlow, hhigh, true_and]
    rcases mode0_result src freq with ⟨hlegal, d₀, r, hr, hclk, -⟩ | ⟨hillegal, hnone⟩
    · have hsrc : 1000000 ≤ src ∧ src < 2560000000 := by
        rcases hlegal with h | h | h
        · omega
        · omega
        · exact h
      obtain ⟨d, hd, hdr⟩ := clkCalPLLFreqMode0_spec hlow hhigh hr
      constructor
      · intro h _ _
        obtain ⟨hle, hwithin⟩ := (integer_right_iff hd hdr).1 (h r hr hclk)
        exact ⟨hle, d, hd, hwithin⟩
      · intro h r' hr' _
        obtain rfl := Option.some.inj (hr.symm.trans hr')
        obtain ⟨hle, d', hd', hwithin⟩ := h hsrc.1 hsrc.2
        rw [hd'.unique hd] at hwithin
        exact (integer_right_iff hd hdr).2 ⟨hle, hwithin⟩
    · refine iff_of_true (fun r hr _ => ?_) fun hge hlt => ?_
      · rw [hnone] at hr
        cases hr
      · exact absurd (.inr (.inr ⟨hge, hlt⟩)) hillegal

/-- From a source clock of up to 40 MHz that divides 600 MHz, every setting that is tried is within the limits. -/
theorem candidates_within (hsrc : src ≤ 40000000) (hdvd : src ∣ 600000000) (hd : d ∈ candidates src) :
    src / d.m ≤ 40000000 ∧ 600000000 ≤ src * d.n / d.m ∧ src * d.n / d.m ≤ 2400000000 := by
  obtain ⟨k, hk⟩ := hdvd
  have hrange := inRange_of_mem hd
  have hn := hrange.n_le
  have hm : 0 < d.m := by
    obtain ⟨m, hm, h⟩ := List.mem_flatMap.1 hd
    obtain ⟨n, -, h⟩ := List.mem_flatMap.1 h
    obtain ⟨p, -, rfl⟩ := List.mem_map.1 h
    rw [inputDividers, mem_counter] at hm
    simp only [VSIPLL_FREFDIVM_MAX_FREQ] at hm
    show 0 < m
    split at hm <;> omega
  have hq : 1000000 ≤ src / d.m := by
    rw [Nat.le_div_iff_mul_le hm]
    have hle := (Nat.le_div_iff_mul_le (by decide)).1 hrange.m_src
    omega
  have hmul : src / d.m * d.m ≤ src := Nat.div_mul_le_self ..
  have hrest : src < src / d.m * d.m + d.m := Nat.lt_div_mul_add hm
  -- the feedback dividers are those between 600 MHz and 2.4 GHz, as without the truncated division
  have hlow : k * d.m ≤ d.n := by
    refine le_trans ?_ hrange.n_low
    rw [Nat.le_div_iff_mul_le (by omega)]
    calc k * d.m * (src / d.m) = k * (src / d.m * d.m) := by ring
      _ ≤ k * src := Nat.mul_le_mul_left k hmul
      _ = 600000000 := by rw [hk, Nat.mul_comm]
  have hhigh : d.n ≤ 4 * (k * d.m) := by
    by_contra hlt
    have hosc : (4 * (k * d.m) + 1) * (src / d.m) ≤ 4 * (k * src) := by
      calc (4 * (k * d.m) + 1) * (src / d.m) ≤ d.n * (src / d.m) := Nat.mul_le_mul_right _ (by omega)
        _ = src / d.m * d.n := Nat.mul_comm ..
        _ ≤ 2400000000 := hrange.osc_le
        _ = 4 * (k * src) := by rw [Nat.mul_comm k, ← hk]
    have hsum : k * src ≤ k * (src / d.m * d.m + d.m) := Nat.mul_le_mul_left k hrest.le
    rw [Nat.mul_add] at hsum
    have heq : (4 * (k * d.m) + 1) * (src / d.m) = 4 * (k * (src / d.m * d.m)) + src / d.m := by ring
    rw [heq] at hosc
    omega
  refine ⟨le_trans (Nat.div_le_self ..) hsrc, ?_, ?_⟩
  · rw [Nat.le_div_iff_mul_le hm, hk, Nat.mul_assoc]
    exact Nat.mul_le_mul_left src hlow
  · refine Nat.div_le_of_le_mul ?_
    calc src * d.n ≤ src * (4 * (k * d.m)) := Nat.mul_le_mul_left src hhigh
      _ = d.m * (4 * (src * k)) := by ring
      _ = d.m * 2400000000 := by rw [← hk]

/-- From such a source clock, the crystal's 24 MHz for one, the integer mode is right for the requests in range. -/
theorem integerHolds_of_dvd (hmin : 1000000 ≤ src) (hsrc : src ≤ 40000000) (hdvd : src ∣ 600000000) :
    IntegerHolds src freq ↔ 85700000 ≤ freq ∧ freq ≤ 2400000000 := by
  refine ⟨fun h => ⟨h.1, h.2.1⟩, fun ⟨hlow, hhigh⟩ => ⟨hlow, hhigh, fun _ _ => ⟨by omega, ?_⟩⟩⟩
  rcases mode0_result src freq with ⟨-, -, r, hr, -⟩ | ⟨hillegal, -⟩
  · obtain ⟨d, hd, -⟩ := clkCalPLLFreqMode0_spec hlow hhigh hr
    exact ⟨d, hd, candidates_within hsrc hdvd hd.mem⟩
  · exact absurd (.inr (.inr ⟨hmin, by omega⟩)) hillegal

/-! ## Fractional mode -/

variable {fclko : Nat}

/-- The setting of the fractional mode for the frequency looked for. -/
def fractionalSetting (src fclko : Nat) : PllFreq := fractionalFreq src fclko 0 fun _ => 0

theorem fractionalSetting_decode (h : (fractionalSetting src fclko).clk ≠ 0) :
    FracRange src fclko ∧ (fractionalSetting src fclko).m = leastM src ∧
      (fractionalSetting src fclko).factor = feedback src fclko ∧
      (fractionalSetting src fclko).p = leastP fclko ∧
      (fractionalSetting src fclko).clk = src * feedback src fclko / (1000 * (leastM src * leastP fclko)) ∧
      FitsFields PLL_OPMODE_FRACTIONAL src (fractionalSetting src fclko) := by
  obtain ⟨hrange, heq⟩ := fractionalFreq_spec h
  have hfeed := hrange.feedback_le
  have hm63 := hrange.m_le
  have hp7 := hrange.p_le
  have hn : feedback src fclko / 1000 < 2 ^ 11 := by omega
  have hx : feedback src fclko % 1000 < 1000 := Nat.mod_lt _ (by decide)
  obtain ⟨hfn, hfm, -⟩ := getField_ctl0 0 hn (show leastM src < 2 ^ 6 by omega)
  obtain ⟨hfp, hff⟩ := getField_ctl1 (show leastP fclko < 2 ^ 3 by omega) (fracOf_lt hx)
  rw [fractionalSetting, heq]
  refine ⟨hrange, hfm, ?_, hfp, ?_, ⟨?_, output_fits (by omega), fun hmode => absurd hmode (by decide)⟩⟩
  · change 1000 * (getField _ 0 11).toNat + ((getField _ 8 24).toNat * 1000 + 2 ^ 23) / 2 ^ 24 = _
    rw [hfn, hff, fracOf_nearest hx]
    exact Nat.div_add_mod ..
  · dsimp only
    have hk : leastP fclko * (leastM src * 1000) = 1000 * (leastM src * leastP fclko) := by ring
    rw [Nat.div_div_eq_div_mul, Nat.div_div_eq_div_mul, hk]
  · rw [dividerMsk, if_neg (by decide), Nat.zero_shiftLeft, Nat.zero_or]
    exact dividers_fits hn (by omega)

/-- The feedback factor falls short of the oscillator looked for by less than one step. -/
theorem feedback_bounds (hsrc : 0 < src) :
    src * feedback src fclko ≤ fclko * (1000 * (leastM src * leastP fclko)) ∧
      fclko * (1000 * (leastM src * leastP fclko)) < src * feedback src fclko + src := by
  have heq : fclko * (1000 * (leastM src * leastP fclko)) =
      fclko * leastP fclko * leastM src * 1000 := by ring
  rw [heq, feedback]
  exact ⟨Nat.mul_div_le .., Nat.lt_mul_div_succ _ hsrc⟩

/-- The frequency is below the one looked for, by less than a step and one Hz. -/
theorem fractional_near (hsrc : 0 < src) (h : FracRange src fclko) {f : Nat}
    (hf : f = src * feedback src fclko / (1000 * (leastM src * leastP fclko))) :
    f ≤ fclko ∧ (fclko - f) * (1000 * (leastM src * leastP fclko)) <
      src + 1000 * (leastM src * leastP fclko) := by
  have hpos : 0 < 1000 * (leastM src * leastP fclko) := by
    have hosc := h.osc_ge
    have hp : 0 < leastP fclko := by
      rcases Nat.eq_zero_or_pos (leastP fclko) with hz | hp
      · rw [hz] at hosc
        omega
      · exact hp
    have hm : 0 < leastM src := Nat.succ_pos _
    positivity
  obtain ⟨hle, hlt⟩ := @feedback_bounds _ fclko hsrc
  generalize 1000 * (leastM src * leastP fclko) = k at hf hpos hle hlt ⊢
  have hdiv := Nat.div_add_mod (src * feedback src fclko) k
  have hmod := Nat.mod_lt (src * feedback src fclko) hpos
  rw [← hf, Nat.mul_comm] at hdiv
  refine ⟨?_, ?_⟩
  · rw [hf]
    exact Nat.div_le_of_le_mul (hle.trans_eq (Nat.mul_comm ..))
  · rw [Nat.sub_mul]
    omega

/-- A multiple of the request is not the request. -/
theorem not_givesRequest_multiple (hlow : freq < 85700000) (hsrc : 0 < src)
    (hclk : (fractionalSetting src (aimMode1 freq)).clk ≠ 0) :
    ¬ GivesRequest PLL_OPMODE_FRACTIONAL src freq (fractionalSetting src (aimMode1 freq)) := by
  intro h
  obtain ⟨hrange, -, -, -, heq, -⟩ := fractionalSetting_decode hclk
  have hle := (h.near (by decide)).1
  obtain ⟨-, hnear⟩ := fractional_near hsrc hrange heq
  have hp : 1 ≤ leastP (aimMode1 freq) := by
    have hosc := hrange.osc_ge
    rcases Nat.eq_zero_or_pos (leastP (aimMode1 freq)) with hz | hp
    · rw [hz] at hosc
      omega
    · exact hp
  -- the multiple lies above 85.7 MHz and is at least twice the request
  have haim : 85700000 < aimMode1 freq ∧ 2 * freq ≤ aimMode1 freq := by
    rcases Nat.eq_zero_or_pos freq with rfl | hfreq
    · have hosc := hrange.osc_ge
      rw [aimMode1, if_pos hlow, Nat.zero_mul] at hosc
      exact absurd hosc (by decide)
    · have hone : 1 ≤ 85700000 / freq := Nat.div_pos hlow.le hfreq
      have habove := Nat.lt_mul_div_succ 85700000 hfreq
      rw [aimMode1, if_pos hlow]
      exact ⟨habove, by rw [Nat.mul_comm]; exact Nat.mul_le_mul_left _ (by omega)⟩
  have hstep : src < 40000001 * leastM src := by
    rw [leastM]
    omega
  have hk : 1000 * leastM src ≤ 1000 * (leastM src * leastP (aimMode1 freq)) :=
    Nat.mul_le_mul_left _ (Nat.le_mul_of_pos_right _ hp)
  generalize 1000 * (leastM src * leastP (aimMode1 freq)) = k at hnear hk
  have hgap : 42000000 * k ≤ (aimMode1 freq - (fractionalSetting src (aimMode1 freq)).clk) * k :=
    Nat.mul_le_mul_right _ (by omega)
  omega

/-- The fixed setting of the modes with a fraction is not what a request beyond the range asks for. -/
theorem not_givesRequest_beyond (hmode : mode ≠ PLL_OPMODE_INTEGER) (hhigh : 2400000000 ≤ freq)
    (hsrc : src ≤ 200000000) : ¬ GivesRequest mode src freq .beyond := by
  intro h
  have hm : PllFreq.beyond.m = 3 := by decide
  have hp : PllFreq.beyond.p = 2 := by decide
  have hclk : PllFreq.beyond.clk = 1000000000 := rfl
  obtain ⟨-, hnear⟩ := h.near hmode
  rw [hm, hp, hclk] at hnear
  omega

/-- The setting for a request in range. -/
theorem fractional_right_iff (hsrc : 1000000 ≤ src) (hsrc' : src ≤ 200000000)
    (hclk : (fractionalSetting src freq).clk ≠ 0) :
    (WithinLimits PLL_OPMODE_FRACTIONAL src (fractionalSetting src freq) ∧
      FitsFields PLL_OPMODE_FRACTIONAL src (fractionalSetting src freq) ∧
      GivesRequest PLL_OPMODE_FRACTIONAL src freq (fractionalSetting src freq)) ↔
    ∃ t, 600000000 * leastM src * 1000 ≤ src * t ∧
      src * t ≤ freq * leastP freq * leastM src * 1000 := by
  have hpos : 0 < src := by omega
  obtain ⟨hrange, hm, hfactor, hp, heq, hfits⟩ := fractionalSetting_decode hclk
  obtain ⟨hle, hlt⟩ := @feedback_bounds _ freq hpos
  have hosc : freq * (1000 * (leastM src * leastP freq)) =
      freq * leastP freq * leastM src * 1000 := by ring
  have hmpos : 0 < leastM src := Nat.succ_pos _
  rw [hosc] at hle hlt
  constructor
  · rintro ⟨hlim, -, -⟩
    have hge := hlim.fclk_ge
    rw [hm, hfactor, Nat.le_div_iff_mul_le (by omega)] at hge
    refine ⟨feedback src freq, ?_, hle⟩
    calc 600000000 * leastM src * 1000 = 600000000 * (1000 * leastM src) := by ring
      _ ≤ src * feedback src freq := hge
  · rintro ⟨t, ht, ht'⟩
    have hmax : t ≤ feedback src freq := by
      by_contra hgt
      have hmul : src * (feedback src freq + 1) ≤ src * t := Nat.mul_le_mul_left _ (not_le.1 hgt)
      rw [Nat.mul_succ] at hmul
      omega
    have hosc_le : freq * leastP freq * leastM src * 1000 ≤ 2400000000 * leastM src * 1000 :=
      Nat.mul_le_mul_right _ (Nat.mul_le_mul_right _ hrange.osc_le)
    refine ⟨⟨hsrc, hsrc', ?_, ?_, ?_, ?_⟩, hfits, ⟨?_, fun hint => absurd hint (by decide), fun _ => ?_⟩⟩
    · rw [if_neg (by decide), hm]
      exact (Nat.le_div_iff_mul_le hmpos).2 hrange.ref_ge
    · rw [hm]
      refine Nat.le_of_lt_succ ((Nat.div_lt_iff_lt_mul hmpos).2 ?_)
      rw [leastM, VSIPLL_FREFDIVM_MAX_FREQ]
      omega
    · rw [hm, hfactor, Nat.le_div_iff_mul_le (by omega)]
      calc 600000000 * (1000 * leastM src) = 600000000 * leastM src * 1000 := by ring
        _ ≤ src * t := ht
        _ ≤ src * feedback src freq := Nat.mul_le_mul_left _ hmax
    · rw [hm, hfactor]
      refine Nat.div_le_of_le_mul ?_
      calc src * feedback src freq ≤ 2400000000 * leastM src * 1000 := hle.trans hosc_le
        _ = 1000 * leastM src * 2400000000 := by ring
    · rw [hm, hfactor, hp]
      exact heq
    · rw [hm, hp]
      exact fractional_near hpos hrange heq

/-- When the fractional mode's setting is right. -/
theorem fractional_calRight_iff :
    CalRight PLL_OPMODE_FRACTIONAL src freq ↔ FractionalHolds src freq := by
  rw [CalRight, calPLLFreq, if_neg (by decide), if_pos rfl, FractionalHolds]
  simp only [Option.some.injEq, forall_eq']
  rcases mode1_result src freq with ⟨hlegal, hclk⟩ | ⟨hillegal, hfail⟩
  · have hsrc := hlegal.1
    have hsrc' := hlegal.2.1
    simp only [hclk, hlegal, ne_eq, not_false_iff, forall_true_left]
    rcases checkedFreq_spec src freq aimMode1 raiseFreqMode1_eq (fun hge => if_neg hge) hclk with
      ⟨hhigh, hbeyond⟩ | ⟨hlt, hfound⟩
    · refine iff_of_false (fun h => ?_) (by omega)
      rw [clkCalPLLFreqMode1, hbeyond] at h
      exact not_givesRequest_beyond (by decide) hhigh hsrc' h.2.2
    · have hsetting : clkCalPLLFreqMode1 src freq = fractionalSetting src (aimMode1 freq) := hfound
      rw [hsetting] at hclk ⊢
      by_cases hlow : freq < 85700000
      · refine iff_of_false (fun h => ?_) (by omega)
        exact not_givesRequest_multiple hlow (by omega) hclk h.2.2
      · have haim : aimMode1 freq = freq := if_neg hlow
        rw [haim] at hclk ⊢
        rw [fractional_right_iff hsrc hsrc' hclk]
        exact ⟨fun h => ⟨not_lt.1 hlow, hlt, h⟩, fun h => h.2.2⟩
  · refine iff_of_true (fun hne => ?_) fun hlegal => absurd hlegal hillegal
    rw [hfail] at hne
    exact absurd PllFreq.fail_clk hne

/-! ## Spread-spectrum mode -/

/-- The spread rate of a source clock that has a reference does not fit its field. -/
theorem not_fitsFields_spread (hsrc : 10000000 ≤ src) :
    ¬ FitsFields PLL_OPMODE_SPREAD_SPECTRUM src r := by
  intro h
  have hrate := (h.spread rfl).1
  rw [getField_toNat (by decide), spreadRate, Nat.shiftRight_eq_div_pow] at hrate
  omega

/-- The spread-spectrum mode's setting is never right. -/
theorem spread_calRight_iff : CalRight PLL_OPMODE_SPREAD_SPECTRUM src freq ↔
    ¬ FractionalLegal PLL_OPMODE_SPREAD_SPECTRUM src freq := by
  rw [CalRight, calPLLFreq, if_neg (by decide), if_neg (by decide), if_pos rfl]
  simp only [Option.some.injEq, forall_eq']
  rcases mode2_result src freq 50000 194 with ⟨hlegal, hclk⟩ | ⟨hillegal, hfail⟩
  · simp only [hclk, hlegal, ne_eq, not_false_iff, forall_true_left, not_true_eq_false, iff_false]
    rintro ⟨-, hfits, hgives⟩
    rcases hlegal.2.2 with hhigh | ⟨hsrc, -⟩
    · rcases checkedFreq_spec src freq aimMode2 raiseFreqMode2_eq (fun hge => if_neg hge) hclk with
        ⟨-, hbeyond⟩ | ⟨hlt, -⟩
      · rw [clkCalPLLFreqMode2, hbeyond] at hgives
        exact not_givesRequest_beyond (by decide) hhigh hlegal.2.1 hgives
      · omega
    · exact not_fitsFields_spread hsrc hfits
  · refine iff_of_true (fun hne => ?_) hillegal
    rw [hfail] at hne
    exact absurd PllFreq.fail_clk hne

end

/-! ## All modes -/

/-- For every mode, source clock and request, a frequency that the search reports stands for a setting
within the PLL's limits that fits its fields and gives the request, if and only if the condition of
the mode holds. -/
theorem pllLimits_iff (u32OpMode : BitVec 32) (PllSrcClk u64PllFreq : BitVec 64) :
    CalRight u32OpMode PllSrcClk.toNat u64PllFreq.toNat ↔
      LimitsHold u32OpMode PllSrcClk.toNat u64PllFreq.toNat := by
  rw [LimitsHold]
  by_cases h₀ : u32OpMode = PLL_OPMODE_INTEGER
  · rw [h₀, integer_calRight_iff]
    simp [PLL_OPMODE_INTEGER, PLL_OPMODE_FRACTIONAL, PLL_OPMODE_SPREAD_SPECTRUM]
  by_cases h₁ : u32OpMode = PLL_OPMODE_FRACTIONAL
  · rw [h₁, fractional_calRight_iff]
    simp [PLL_OPMODE_INTEGER, PLL_OPMODE_FRACTIONAL, PLL_OPMODE_SPREAD_SPECTRUM]
  by_cases h₂ : u32OpMode = PLL_OPMODE_SPREAD_SPECTRUM
  · rw [h₂, spread_calRight_iff]
    simp [PLL_OPMODE_INTEGER, PLL_OPMODE_FRACTIONAL, PLL_OPMODE_SPREAD_SPECTRUM]
  · refine iff_of_true (fun r hr => ?_) ⟨fun h => absurd h h₀, fun h => absurd h h₁, fun h => absurd h h₂⟩
    rw [calPLLFreq, if_neg h₀, if_neg h₁, if_neg h₂] at hr
    cases hr

/-- A request for 60 MHz in fractional mode reports 120 MHz. -/
theorem not_pllLimits : ¬ ∀ (u32OpMode : BitVec 32) (PllSrcClk u64PllFreq : BitVec 64),
    CalRight u32OpMode PllSrcClk.toNat u64PllFreq.toNat := by
  intro h
  have hclk : (clkCalPLLFreqMode1 24000000 60000000).clk = 120000000 := by decide +kernel
  have hright := h PLL_OPMODE_FRACTIONAL 24000000#64 60000000#64 (clkCalPLLFreqMode1 24000000 60000000) rfl
    (by rw [hclk]; decide)
  have hle : (clkCalPLLFreqMode1 24000000 60000000).clk ≤ 60000000 := (hright.2.2.near (by decide)).1
  rw [hclk] at hle
  exact absurd hle (by decide)

end NumakerMA35D1.Clk

import NumakerMA35D1.Clk.Pll
import NumakerMA35D1.Lib.Outcome

/-!
# What the searches for dividers find

The integer mode's three nested loops find the first setting, in the order of the loops, whose
frequency is closest to the request (`searchDividers_spec`). The modes with a fraction take the
least input divider that brings the reference to 40 MHz and the least output divider that brings
the oscillator to 600 MHz (`fractionalFreq_spec`).
-/

namespace NumakerMA35D1.Clk

open Embedded

variable {src freq n lo hi : Nat} {d : Dividers}

theorem mem_counter : n ∈ counter lo hi ↔ lo ≤ n ∧ n ≤ hi := by
  rw [counter, List.mem_range'_1]
  omega

/-! ## Integer mode -/

/-- The settings the loops go through, in order. -/
def candidates (src : Nat) : List Dividers :=
  (inputDividers src).flatMap fun m =>
    (feedbackDividers (src / m)).flatMap fun n =>
      (outputDividers (src / m * n)).map fun p => ⟨m, n, p⟩

/-- How far a setting's frequency, cut to an integer after each divider, is from the request. -/
def distance (src freq : Nat) (d : Dividers) : Nat :=
  (src / d.m * d.n / d.p).dist freq

/-- The dividers of a setting in the ranges of the loops. -/
structure InRange (src : Nat) (d : Dividers) : Prop where
  m_le : d.m ≤ 63
  m_src : d.m ≤ src / 1000000
  n_ge : 16 ≤ d.n
  n_low : 600000000 / (src / d.m) ≤ d.n
  n_le : d.n ≤ 2047
  n_high : d.n ≤ 2400000000 / (src / d.m)
  p_pos : 1 ≤ d.p
  p_le : d.p ≤ 7

theorem inRange_of_mem (h : d ∈ candidates src) : InRange src d := by
  obtain ⟨m, hm, h⟩ := List.mem_flatMap.1 h
  obtain ⟨n, hn, h⟩ := List.mem_flatMap.1 h
  obtain ⟨p, hp, rfl⟩ := List.mem_map.1 h
  rw [inputDividers, mem_counter] at hm
  rw [feedbackDividers, mem_counter] at hn
  rw [outputDividers, mem_counter] at hp
  simp only [VSIPLL_FREFDIVM_MAX_FREQ, VSIPLL_FREFDIVM_MIN_FREQ0] at hm
  simp only [VSIPLL_FCLK_MIN_FREQ, VSIPLL_FCLK_MAX_FREQ] at hn
  simp only [VSIPLL_FCLKO_MIN_FREQ, VSIPLL_FCLKO_MAX_FREQ] at hp
  constructor <;> grind

/-- The oscillator stays in range. -/
theorem InRange.osc_le (h : InRange src d) : src / d.m * d.n ≤ 2400000000 := by
  calc src / d.m * d.n ≤ src / d.m * (2400000000 / (src / d.m)) := Nat.mul_le_mul_left _ h.n_high
    _ ≤ 2400000000 := Nat.mul_div_le ..

theorem distance_lt (h : InRange src d) (hfreq : freq ≤ 2400000000) :
    distance src freq d < 2 ^ 32 - 1 := by
  have hosc : src / d.m * d.n / d.p ≤ 2400000000 := le_trans (Nat.div_le_self ..) h.osc_le
  rw [distance, Nat.dist]
  generalize src / d.m * d.n / d.p = x at hosc
  omega

/-- Where the search is after the candidates of a list. -/
def Scanned (src freq : Nat) (l : List Dividers) (best : Best) : Prop :=
  l = [] ∧ best = ⟨2 ^ 32 - 1, ⟨0, 0, 0⟩⟩ ∨
    IsFirstMin (distance src freq) l best.d ∧ best.u32Min = distance src freq best.d

/-- One candidate tried. -/
theorem tryDividers_spec {l rest : List Dividers} {best : Best} (h : Scanned src freq l best)
    (hd : distance src freq d < 2 ^ 32 - 1) :
    Returns (fun e => ∃ d', e = .found d' ∧ IsFirstMin (distance src freq) (l ++ d :: rest) d')
      (tryDividers freq (src / d.m * d.n) d best) (Scanned src freq (l ++ [d])) := by
  have htmp : (if src / d.m * d.n / d.p > freq then (src / d.m * d.n / d.p - freq) % 2 ^ 32
      else (freq - src / d.m * d.n / d.p) % 2 ^ 32) = distance src freq d := by
    rw [distance, Nat.dist] at hd ⊢
    split <;> omega
  have hmin : distance src freq d < best.u32Min → IsFirstMin (distance src freq) (l ++ [d]) d := by
    intro hlt
    rcases h with ⟨rfl, rfl⟩ | ⟨hfirst, hbest⟩
    · exact isFirstMin_singleton
    · exact hfirst.replace (hbest ▸ hlt)
  rw [tryDividers, htmp]
  refine .ite (fun hlt => .ite (fun hzero => ?_) fun _ => ?_) fun hge => ?_
  · refine ⟨d, rfl, ?_⟩
    have happ := (hmin hlt).append_of_zero hzero rest
    rwa [List.append_assoc] at happ
  · exact .inr ⟨hmin hlt, rfl⟩
  · rcases h with ⟨rfl, rfl⟩ | ⟨hfirst, hbest⟩
    · exact absurd hd hge
    · exact .inr ⟨hfirst.keep (by omega), hbest⟩

/-- The candidates of a list tried. By induction on the list. -/
theorem foldlM_tryDividers_spec (rest : List Dividers) :
    ∀ {l : List Dividers} {best : Best}, Scanned src freq l best →
      (∀ d ∈ rest, distance src freq d < 2 ^ 32 - 1) →
      Returns (fun e => ∃ d', e = .found d' ∧ IsFirstMin (distance src freq) (l ++ rest) d')
        (rest.foldlM (fun best d => tryDividers freq (src / d.m * d.n) d best) best)
        (Scanned src freq (l ++ rest)) := by
  induction rest with
  | nil =>
    intro l best h _
    rw [List.append_nil]
    exact h
  | cons d rest ih =>
    intro l best h hall
    obtain ⟨hd, hall⟩ := List.forall_mem_cons.1 hall
    rw [List.foldlM_cons]
    refine .bind (tryDividers_spec h hd) fun best' hbest' => ?_
    have hrest := ih hbest' hall
    rwa [List.append_assoc] at hrest

/-- The nested loops go through the candidates, if no input divider is zero. -/
theorem searchDividers_eq (hpos : 0 ∉ inputDividers src) (freq : Nat) :
    searchDividers src freq = (candidates src).foldlM
      (fun best d => tryDividers freq (src / d.m * d.n) d best) ⟨2 ^ 32 - 1, ⟨0, 0, 0⟩⟩ := by
  rw [candidates, foldlM_flatMap, searchDividers]
  generalize (⟨2 ^ 32 - 1, ⟨0, 0, 0⟩⟩ : Best) = best
  revert hpos
  induction inputDividers src generalizing best with
  | nil => exact fun _ => rfl
  | cons m ms ih =>
    intro hpos
    obtain ⟨hm, hms⟩ := not_or.1 (mt List.mem_cons.2 hpos)
    rw [List.foldlM_cons, List.foldlM_cons, if_neg (Ne.symm hm), foldlM_flatMap]
    simp only [List.foldlM_map]
    exact congrArg _ (funext fun best => ih best hms)

/-- The division by an input divider of zero. -/
theorem searchDividers_fault (hzero : 0 ∈ inputDividers src) (freq : Nat) :
    searchDividers src freq = .error .fault := by
  rw [inputDividers, mem_counter] at hzero
  rw [searchDividers, inputDividers, counter, Nat.le_zero.1 hzero.1]
  rfl

/-- How the search ends if no input divider is zero. -/
theorem searchDividers_spec (hpos : 0 ∉ inputDividers src) (hhigh : freq ≤ 2400000000) :
    Returns (fun e => ∃ d, e = .found d ∧ IsFirstMin (distance src freq) (candidates src) d)
      (searchDividers src freq) (Scanned src freq (candidates src)) := by
  have hscan : Scanned src freq [] ⟨2 ^ 32 - 1, ⟨0, 0, 0⟩⟩ := .inl ⟨rfl, rfl⟩
  have hspec := foldlM_tryDividers_spec (candidates src) hscan
    fun d hd => distance_lt (inRange_of_mem hd) hhigh
  rw [← searchDividers_eq hpos, List.nil_append] at hspec
  exact hspec

/-- A search that gives dividers gives the first setting closest to the request. -/
theorem clkCalPLLFreqMode0_spec {r : PllFreq} (hlow : 85700000 ≤ freq) (hhigh : freq ≤ 2400000000)
    (h : clkCalPLLFreqMode0 src freq = some r) :
    ∃ d, IsFirstMin (distance src freq) (candidates src) d ∧ dividersFreq src d = some r := by
  rw [clkCalPLLFreqMode0, if_neg (by
    simp only [VSIPLL_FCLKO_MIN_FREQ, VSIPLL_FCLKO_MAX_FREQ]; omega)] at h
  by_cases hzero : 0 ∈ inputDividers src
  · rw [searchDividers_fault hzero] at h
    cases h
  · have hspec := searchDividers_spec hzero hhigh
    cases hs : searchDividers src freq with
    | error e =>
      obtain ⟨d, rfl, hd⟩ := hspec.of_error hs
      rw [hs] at h
      exact ⟨d, hd, h⟩
    | ok best =>
      rw [hs] at h
      rcases hspec.of_ok hs with ⟨-, rfl⟩ | ⟨hfirst, -⟩
      · cases h
      · exact ⟨best.d, hfirst, h⟩

/-! ## Modes with a fraction -/

variable {fclko p m ssrate : Nat} {slope : Nat → Nat}

/-- The least factor that brings a frequency to 600 MHz. -/
def leastP (fclko : Nat) : Nat := (600000000 + fclko - 1) / fclko

/-- The least divisor that brings a clock to 40 MHz. -/
def leastM (src : Nat) : Nat := src / 40000001 + 1

/-- The feedback factor of a frequency in thousandths. -/
def feedback (src fclko : Nat) : Nat := fclko * leastP fclko * leastM src * 1000 / src

theorem findP_spec (h : findP fclko = some p) :
    p = leastP fclko ∧ p ≤ 7 ∧ 600000000 ≤ p * fclko ∧ p * fclko ≤ 2400000000 := by
  obtain ⟨hrange, hmem, hleast⟩ := List.find?_range'_eq_some.1 h
  simp only [Bool.and_eq_true, decide_eq_true_eq] at hrange
  rw [VSIPLL_FCLKO_MAX_FREQ] at hrange
  have hbounds := List.mem_range'_1.1 hmem
  obtain ⟨k, rfl⟩ : ∃ k, p = k + 1 := ⟨p - 1, by omega⟩
  have hbelow : k * fclko < 600000000 := by
    rcases Nat.eq_zero_or_pos k with rfl | hk
    · omega
    · have hfail := hleast k hk (Nat.lt_succ_self k)
      have hle : k * fclko ≤ (k + 1) * fclko := Nat.mul_le_mul_right _ (Nat.le_succ k)
      simp only [Bool.not_eq_true', Bool.and_eq_false_iff, decide_eq_false_iff_not] at hfail
      rw [VSIPLL_FCLKO_MAX_FREQ] at hfail
      omega
  refine ⟨?_, by omega, hrange.2, hrange.1⟩
  rw [leastP]
  refine (Nat.div_eq_of_lt_le ?_ ?_).symm
  · rw [Nat.succ_mul] at hrange ⊢
    omega
  · have hpos : 0 < fclko := by
      rcases Nat.eq_zero_or_pos fclko with rfl | hpos
      · omega
      · exact hpos
    simp only [Nat.succ_mul] at hrange ⊢
    omega

theorem findM_spec (h : findM src = some m) :
    m = leastM src ∧ m ≤ 63 ∧ 10000000 ≤ src / m ∧ src / m ≤ 40000000 := by
  obtain ⟨hrange, hmem, hleast⟩ := List.find?_range'_eq_some.1 h
  simp only [Bool.and_eq_true, decide_eq_true_eq] at hrange
  have hbounds := List.mem_range'_1.1 hmem
  have hpos : 0 < m := by omega
  have hlow : m * 10000000 ≤ src := by
    have hmul := Nat.mul_le_of_le_div m 10000000 src hrange.2
    omega
  have hhigh : src < m * 40000001 := by
    have hlt := Nat.lt_mul_of_div_lt (Nat.lt_succ_of_le hrange.1) hpos
    omega
  refine ⟨?_, by omega, hrange.2, hrange.1⟩
  rcases Nat.lt_or_ge 1 m with hm | hm
  · have hfail := hleast (m - 1) (by omega) (by omega)
    simp only [Bool.not_eq_true', Bool.and_eq_false_iff, decide_eq_false_iff_not] at hfail
    have habove : (m - 1) * 40000001 ≤ src := by
      have hge : 10000000 ≤ src / (m - 1) :=
        le_trans hrange.2 (Nat.div_le_div_left (by omega) (by omega))
      have habove : 40000001 ≤ src / (m - 1) := by omega
      rw [Nat.mul_comm]
      exact (Nat.le_div_iff_mul_le (by omega)).1 habove
    rw [leastM]
    omega
  · rw [leastM]
    omega

/-- The dividers the modes with a fraction use are in range. -/
structure FracRange (src fclko : Nat) : Prop where
  p_le : leastP fclko ≤ 7
  osc_ge : 600000000 ≤ fclko * leastP fclko
  osc_le : fclko * leastP fclko ≤ 2400000000
  m_le : leastM src ≤ 63
  ref_ge : 10000000 * leastM src ≤ src

/-- The feedback factor stays within its field. -/
theorem FracRange.feedback_le (h : FracRange src fclko) : feedback src fclko ≤ 240000 := by
  rw [feedback]
  refine Nat.div_le_of_le_mul ?_
  calc fclko * leastP fclko * leastM src * 1000
      ≤ 2400000000 * leastM src * 1000 :=
        Nat.mul_le_mul_right _ (Nat.mul_le_mul_right _ h.osc_le)
    _ = 240000 * (10000000 * leastM src) := by ring
    _ ≤ src * 240000 := by rw [Nat.mul_comm]; exact Nat.mul_le_mul_right _ h.ref_ge

@[simp] theorem PllFreq.fail_clk : PllFreq.fail.clk = 0 := rfl

/-- A search that finds the dividers uses the least ones. -/
theorem fractionalFreq_found (hp : findP fclko = some p) (hm : findM src = some m) :
    FracRange src fclko ∧
      fractionalFreq src fclko ssrate slope = {
        clk := src * feedback src fclko / leastP fclko / leastM src / 1000
        reg0 := BitVec.ofNat 32 (ssrate <<< 20 ||| leastM src <<< 12 ||| feedback src fclko / 1000)
        reg1 := BitVec.ofNat 32 (leastP fclko <<< 4) |||
          BitVec.ofNat 32 (fracOf (feedback src fclko % 1000)) <<< 8
        reg2 := BitVec.ofNat 32 (slope (feedback src fclko)) } := by
  obtain ⟨rfl, hp7, hge, hle⟩ := findP_spec hp
  obtain ⟨rfl, hm63, href, -⟩ := findM_spec hm
  rw [Nat.mul_comm] at hge hle
  have href := Nat.mul_le_of_le_div _ _ _ href
  refine ⟨⟨hp7, hge, hle, hm63, href⟩, ?_⟩
  rw [fractionalFreq, hp, hm]
  rfl

/-- A search that gives a frequency found the dividers. -/
theorem fractionalFreq_spec (h : (fractionalFreq src fclko ssrate slope).clk ≠ 0) :
    FracRange src fclko ∧
      fractionalFreq src fclko ssrate slope = {
        clk := src * feedback src fclko / leastP fclko / leastM src / 1000
        reg0 := BitVec.ofNat 32 (ssrate <<< 20 ||| leastM src <<< 12 ||| feedback src fclko / 1000)
        reg1 := BitVec.ofNat 32 (leastP fclko <<< 4) |||
          BitVec.ofNat 32 (fracOf (feedback src fclko % 1000)) <<< 8
        reg2 := BitVec.ofNat 32 (slope (feedback src fclko)) } := by
  cases hp : findP fclko with
  | none =>
    simp only [fractionalFreq, hp, PllFreq.fail_clk, ne_eq, not_true_eq_false] at h
  | some p =>
    cases hm : findM src with
    | none =>
      simp only [fractionalFreq, hp, hm, PllFreq.fail_clk, ne_eq, not_true_eq_false] at h
    | some m => exact fractionalFreq_found hp hm

/-- The frequency looked for in the two modes: the request, or a multiple of one below range. -/
def aimMode1 (freq : Nat) : Nat :=
  if freq < 85700000 then freq * (85700000 / freq + 1) else freq
@[inherit_doc aimMode1] def aimMode2 (freq : Nat) : Nat := if freq < 85700000 then 7 * freq else freq

theorem raiseFreqMode1_eq (hfreq : freq < 85700000) (h : raiseFreqMode1 freq ≠ 0) :
    raiseFreqMode1 freq = aimMode1 freq := by
  rw [raiseFreqMode1] at h ⊢
  cases hfind : (counter 2 99).find? fun i => decide (i * freq > VSIPLL_FCLKO_MIN_FREQ) with
  | none =>
    rw [hfind] at h
    exact absurd rfl h
  | some i =>
    obtain ⟨habove, hmem, hleast⟩ := List.find?_range'_eq_some.1 hfind
    have hbounds := List.mem_range'_1.1 hmem
    rw [decide_eq_true_eq, VSIPLL_FCLKO_MIN_FREQ] at habove
    obtain ⟨k, rfl⟩ : ∃ k, i = k + 1 := ⟨i - 1, by omega⟩
    have hbelow : k * freq ≤ 85700000 := by
      rcases Nat.lt_or_ge k 2 with hk | hk
      · have hone : k = 1 := by omega
        rw [hone, Nat.one_mul]
        exact hfreq.le
      · have hfail := hleast k hk (Nat.lt_succ_self k)
        rw [Bool.not_eq_true', decide_eq_false_iff_not, VSIPLL_FCLKO_MIN_FREQ] at hfail
        omega
    have hdiv : 85700000 / freq = k := Nat.div_eq_of_lt_le hbelow habove
    dsimp only
    rw [aimMode1, if_pos hfreq, hdiv, Nat.mul_comm]

theorem raiseFreqMode2_eq (hfreq : freq < 85700000) (h : raiseFreqMode2 freq ≠ 0) :
    raiseFreqMode2 freq = aimMode2 freq := by
  rw [aimMode2, if_pos hfreq]
  simp only [raiseFreqMode2, counter, List.range', List.foldl_cons, List.foldl_nil] at h ⊢
  grind

/-- What the checks let through. -/
theorem checkedFreq_spec (src freq : Nat) {raiseFreq : Nat → Nat} (aim : Nat → Nat)
    {divide : Nat → PllFreq}
    (hraise : freq < 85700000 → raiseFreq freq ≠ 0 → raiseFreq freq = aim freq)
    (haim : ¬ freq < 85700000 → aim freq = freq)
    (h : (checkedFreq raiseFreq divide src freq).clk ≠ 0) :
    freq ≥ 2400000000 ∧ checkedFreq raiseFreq divide src freq = .beyond ∨
      freq < 2400000000 ∧ checkedFreq raiseFreq divide src freq = divide (aim freq) := by
  rw [checkedFreq] at h ⊢
  simp only [VSIPLL_FREF_MAX_FREQ, VSIPLL_FREF_MIN_FREQ, VSIPLL_FCLKO_MIN_FREQ,
    VSIPLL_FCLKO_MAX_FREQ] at h ⊢
  have hsrc : ¬ (src > 200000000 ∨ src < 1000000) := by
    intro hsrc
    rw [if_pos hsrc] at h
    exact h PllFreq.fail_clk
  rw [if_neg hsrc] at h ⊢
  rcases Nat.lt_or_ge freq 85700000 with hlow | hlow
  · rw [if_pos hlow] at h ⊢
    have hne : raiseFreq freq ≠ 0 := by
      intro hzero
      rw [if_pos hzero] at h
      exact h PllFreq.fail_clk
    rw [if_neg hne, hraise hlow hne]
    exact .inr ⟨by omega, rfl⟩
  · rw [if_neg (Nat.not_lt.2 hlow), haim (Nat.not_lt.2 hlow)]
    rcases Nat.lt_or_ge freq 2400000000 with hhigh | hhigh
    · rw [if_neg (Nat.not_le.2 hhigh)]
      exact .inr ⟨hhigh, rfl⟩
    · rw [if_pos hhigh]
      exact .inl ⟨hhigh, rfl⟩

end NumakerMA35D1.Clk

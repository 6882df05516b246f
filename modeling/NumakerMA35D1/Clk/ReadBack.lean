import NumakerMA35D1.Clk.Search

/-!
# A frequency set and read back

`clkSetPLLFreq_agrees_iff`: the frequency read from the registers a setting wrote is the one the
setting returned, up to one unit of the 24-bit fraction, and no 32-bit product of the reading wraps,
exactly for the requests of `ReadsBack`. The reading takes the crystal for the source clock, cuts
the quotient before it multiplies in the integer mode, and multiplies the 24-bit fraction by 1000 in
32 bits, so a fraction of 256 thousandths or more is lost.
-/

namespace NumakerMA35D1.Clk

open Embedded

/-! ## The property -/

/-- The factors the getter of the CPU's PLL multiplies. Reference: `nu_clk.c:944
CLK_GetCAPLLClockFreq`. -/
def caProducts (clk : ClkT) : List (BitVec 32 × BitVec 32) :=
  let u32N := getField clk.PLL0CTL0 0 8
  let u32M := getField clk.PLL0CTL0 8 4
  let u32P := getField clk.PLL0CTL0 12 2
  [(hxt / 100#32, u32N), (1#32 <<< u32P.toNat, u32M),
    (hxt / 100#32 * u32N / ((1#32 <<< u32P.toNat) * u32M), 100#32)]

/-- The factors the getter of the other PLLs multiplies. Reference: `nu_clk.c:979
CLK_GetVSIPLLClockFreq`. -/
def vsiProducts (pll : PllT) : List (BitVec 32 × BitVec 32) :=
  if pll.mode = PLL_OPMODE_INTEGER then
    [(pll.outdiv, pll.indiv), (hxt / (pll.outdiv * pll.indiv), pll.fbdiv)]
  else
    [(pll.frac, 1000#32), (pll.fbdiv, 1000#32),
      (hxt / 1000#32, pll.fbdiv * 1000#32 + thousandths pll.mode pll.frac),
      (pll.outdiv, pll.indiv)]

/-- None of the products wraps. -/
def NoWrap (l : List (BitVec 32 × BitVec 32)) : Prop := ∀ x ∈ l, x.1.toNat * x.2.toNat < 2 ^ 32

/-- The registers of a PLL with a fractional field, by the PLL's index. -/
def vsiIndex (u32PllIdx : BitVec 32) : Option (Fin 6) :=
  if u32PllIdx = DDRPLL then some 2 else if u32PllIdx = EPLL then some 4
  else if u32PllIdx = APLL then some 3 else if u32PllIdx = VPLL then some 5 else none

/-- What is read back is the frequency `f`, up to one unit of the fractional field, which is
`src / (2 ^ 24 * P * M)`, and no product wraps on the way. The CPU's and the system's PLL have no
fractional field. -/
def Agrees (clk : ClkT) (u32PllIdx : BitVec 32) (src f : Nat) : Prop :=
  match vsiIndex u32PllIdx with
  | some i =>
    NoWrap (vsiProducts (clk.PLL i)) ∧
      (clkGetPLLClockFreq clk u32PllIdx).toNat.dist f *
        (2 ^ 24 * ((clk.PLL i).outdiv.toNat * (clk.PLL i).indiv.toNat)) ≤ src
  | none =>
    (u32PllIdx = CAPLL → NoWrap (caProducts clk)) ∧ (clkGetPLLClockFreq clk u32PllIdx).toNat = f

/-! ## The condition -/

/-- The integer mode, for a request in range: the source clock is the crystal's frequency cut to a
multiple of the product of the dividers that come first among the closest. -/
def IntegerReadsBack (src freq : Nat) : Prop :=
  85700000 ≤ freq ∧ freq ≤ 2400000000 →
    ∀ d, IsFirstMin (distance src freq) (candidates src) d →
      src = d.p * d.m * (HXT / (d.p * d.m))

/-- A fraction of `x` thousandths as the getter has it back. -/
def readThousandths (mode : BitVec 32) (x : Nat) : Nat :=
  if mode = PLL_OPMODE_FRACTIONAL then (fracOf x * 1000 + 500) % 2 ^ 32 / 2 ^ 24
  else fracOf x * 1000 % 2 ^ 32 / 2 ^ 24

/-- The frequency of a feedback factor of `t` thousandths from a clock. -/
def outputFreq (clock t p m : Nat) : Nat := clock * t / (p * m * 1000)

/-- Another source clock than the crystal, off by what the getter loses of the fraction. -/
def Coincides (mode : BitVec 32) (src t p m : Nat) : Prop :=
  let t' := t / 1000 * 1000 + readThousandths mode (t % 1000)
  t % 1000 ≤ 256 ∧ HXT / 1000 * t' < 2 ^ 32 ∧
    (outputFreq HXT t' p m).dist (outputFreq src t p m) * (2 ^ 24 * (p * m)) ≤ src

/-- The rounding of the 24-bit fraction went up, or there was none: 2 ^ 24 is 216 modulo 1000. -/
def RoundsUp (x : Nat) : Prop := x * 216 % 1000 = 0 ∨ 500 ≤ x * 216 % 1000

/-- A mode with a fraction, for the frequency the dividers are looked for: from the crystal, the
oscillator is less than 256 thousandths of the crystal's frequency above a multiple of it, and the
rounding of the 24-bit fraction in the spread-spectrum mode, whose reading does not round, went
up. -/
def FractionalReadsBack (mode : BitVec 32) (src fclko : Nat) : Prop :=
  if src = HXT then
    fclko * leastP fclko % 24000000 < 6144000 ∧
      (mode = PLL_OPMODE_SPREAD_SPECTRUM → RoundsUp (fclko * leastP fclko % 24000000 / 24000))
  else Coincides mode src (feedback src fclko) (leastP fclko) (leastM src)

/-- The requests whose frequency is read back. -/
def ReadsBack (u32PllIdx mode : BitVec 32) (src freq : Nat) : Prop :=
  vsiIndex u32PllIdx ≠ none →
    if mode = PLL_OPMODE_INTEGER then IntegerReadsBack src freq
    else freq < 2400000000 ∧ FractionalReadsBack mode src
      (if mode = PLL_OPMODE_FRACTIONAL then aimMode1 freq else aimMode2 freq)

/-! ## The registers a setting writes -/

section

variable {m n p f x ss src freq t q : Nat} {w : BitVec 32} {d : Dividers}

/-- The fields of a running PLL. -/
structure Fields (pll : PllT) (mode : BitVec 32) (n m p : Nat) : Prop where
  on : pll.CTL1 &&& pdMsk = 0#32
  mode_eq : pll.mode = mode
  fbdiv_eq : pll.fbdiv.toNat = n
  indiv_eq : pll.indiv.toNat = m
  outdiv_eq : pll.outdiv.toNat = p

theorem dividers_or (hn : n < 2 ^ 12) (hm : m < 2 ^ 8) :
    ss <<< 20 ||| m <<< 12 ||| n = ss * 2 ^ 20 + m * 2 ^ 12 + n := by
  rw [Nat.or_assoc, ← Nat.shiftLeft_add_eq_or_of_lt hn,
    ← Nat.shiftLeft_add_eq_or_of_lt (by rw [Nat.shiftLeft_eq]; omega), Nat.shiftLeft_eq,
    Nat.shiftLeft_eq, Nat.add_assoc]

theorem getField_ctl0 (ss : Nat) (hn : n < 2 ^ 11) (hm : m < 2 ^ 6) :
    (getField (BitVec.ofNat 32 (ss <<< 20 ||| m <<< 12 ||| n)) 0 11).toNat = n ∧
      (getField (BitVec.ofNat 32 (ss <<< 20 ||| m <<< 12 ||| n)) 12 6).toNat = m ∧
      getField (BitVec.ofNat 32 (ss <<< 20 ||| m <<< 12 ||| n)) 18 2 = 0#32 := by
  rw [dividers_or (by omega) (by omega)]
  refine ⟨?_, ?_, BitVec.eq_of_toNat_eq ?_⟩ <;>
    rw [getField_toNat (by decide), BitVec.toNat_ofNat]
  · omega
  · omega
  · rw [BitVec.toNat_ofNat]
    omega

theorem getField_ctl1 (hp : p < 2 ^ 3) (hf : f < 2 ^ 24) :
    (getField (BitVec.ofNat 32 (p <<< 4) ||| BitVec.ofNat 32 f <<< 8) 4 3).toNat = p ∧
      (getField (BitVec.ofNat 32 (p <<< 4) ||| BitVec.ofNat 32 f <<< 8) 8 24).toNat = f := by
  have hor : BitVec.ofNat 32 (p <<< 4) ||| BitVec.ofNat 32 f <<< 8 =
      BitVec.ofNat 32 (f * 2 ^ 8 + p * 2 ^ 4) := by
    apply BitVec.eq_of_toNat_eq
    have hf' : (BitVec.ofNat 32 f).toNat = f := Nat.mod_eq_of_lt (by omega)
    rw [BitVec.toNat_or, BitVec.toNat_shiftLeft, hf', BitVec.toNat_ofNat, BitVec.toNat_ofNat,
      Nat.shiftLeft_eq, Nat.mod_eq_of_lt (show p * 2 ^ 4 < 2 ^ 32 by omega), Nat.or_comm,
      Nat.mod_eq_of_lt (show f <<< 8 < 2 ^ 32 by rw [Nat.shiftLeft_eq]; omega),
      ← Nat.shiftLeft_add_eq_or_of_lt (by omega), Nat.shiftLeft_eq]
    exact (Nat.mod_eq_of_lt (by omega)).symm
  rw [hor]
  constructor <;> rw [getField_toNat (by decide), BitVec.toNat_ofNat] <;> omega

/-- The registers of a PLL as a setting writes them over the words `w₀` and `w₁`. -/
def written (w₀ w₁ mode msk₀ msk₁ reg₀ reg₁ ctl2 : BitVec 32) : PllT where
  CTL0 := (((w₀ &&& ~~~modeMsk) ||| mode <<< 18) &&& ~~~msk₀) ||| reg₀
  CTL1 := ((w₁ &&& ~~~msk₁) ||| reg₁) &&& ~~~pdMsk
  CTL2 := ctl2

variable {w₀ w₁ mode msk₀ msk₁ reg₁ ctl2 : BitVec 32}

theorem written_outdiv (hmsk : getField msk₁ 4 3 = fieldMask 3) {reg₀ : BitVec 32} :
    (written w₀ w₁ mode msk₀ msk₁ reg₀ reg₁ ctl2).outdiv = getField reg₁ 4 3 := by
  have hpd : getField pdMsk 4 3 = 0#32 := by decide
  rw [PllT.outdiv, written, getField_and_not, hpd, BitVec.not_zero, BitVec.and_allOnes,
    getField_replace _ _ hmsk]

theorem written_frac (hmsk : getField msk₁ 8 24 = fieldMask 24) {reg₀ : BitVec 32} :
    (written w₀ w₁ mode msk₀ msk₁ reg₀ reg₁ ctl2).frac = getField reg₁ 8 24 := by
  have hpd : getField pdMsk 8 24 = 0#32 := by decide
  rw [PllT.frac, written, getField_and_not, hpd, BitVec.not_zero, BitVec.and_allOnes,
    getField_replace _ _ hmsk]

/-- The fields of registers written. -/
theorem fields_written (hn : n < 2 ^ 11) (hm : m < 2 ^ 6)
    (hmode : getField (mode <<< 18) 18 2 = mode) (hmsk : getField msk₀ 18 2 = 0#32)
    (hmskN : getField msk₀ 0 11 = fieldMask 11) (hmskM : getField msk₀ 12 6 = fieldMask 6)
    (hmskP : getField msk₁ 4 3 = fieldMask 3) (hp : (getField reg₁ 4 3).toNat = p) :
    Fields (written w₀ w₁ mode msk₀ msk₁
      (BitVec.ofNat 32 (ss <<< 20 ||| m <<< 12 ||| n)) reg₁ ctl2) mode n m p := by
  obtain ⟨hregN, hregM, hreg⟩ := getField_ctl0 ss hn hm
  constructor
  · rw [written, BitVec.and_assoc, BitVec.and_comm _ pdMsk, BitVec.and_not_self]
    exact BitVec.and_zero
  · rw [PllT.mode, written, getField_keep _ _ hmsk, hreg, BitVec.or_zero,
      getField_replace _ _ (by decide), hmode]
  · rw [PllT.fbdiv, written, getField_replace _ _ hmskN, hregN]
  · rw [PllT.indiv, written, getField_replace _ _ hmskM, hregM]
  · rw [written_outdiv hmskP, hp]

/-- The fields of registers written in the integer mode. -/
theorem fields_integer (hn : n ≤ 2047) (hm : m ≤ 63) (hp : p ≤ 7) :
    Fields (written w₀ w₁ PLL_OPMODE_INTEGER (indivMsk ||| fbdivMsk) outdivMsk
      (BitVec.ofNat 32 (m <<< 12 ||| n)) (BitVec.ofNat 32 (p <<< 4)) ctl2) PLL_OPMODE_INTEGER
      n m p := by
  have hreg₀ : BitVec.ofNat 32 (m <<< 12 ||| n) = BitVec.ofNat 32 (0 <<< 20 ||| m <<< 12 ||| n) := by
    rw [Nat.zero_shiftLeft, Nat.zero_or]
  have hreg₁ : (getField (BitVec.ofNat 32 (p <<< 4)) 4 3).toNat = p := by
    have hctl1 := (getField_ctl1 (p := p) (f := 0) (by omega) (by decide)).1
    rwa [show BitVec.ofNat 32 0 <<< 8 = 0#32 from rfl, BitVec.or_zero] at hctl1
  rw [hreg₀]
  exact fields_written (by omega) (by omega) (by decide) (by decide) (by decide) (by decide)
    (by decide) hreg₁

theorem fracOf_lt (hx : x < 1000) : fracOf x < 2 ^ 24 := by
  rw [fracOf, Nat.shiftLeft_eq]
  omega

/-- The fields of registers written in a mode with a fraction. -/
theorem fields_fractional (hmode : mode = PLL_OPMODE_FRACTIONAL ∨
      mode = PLL_OPMODE_SPREAD_SPECTRUM) (hmsk : getField msk₀ 18 2 = 0#32)
    (hmskN : getField msk₀ 0 11 = fieldMask 11) (hmskM : getField msk₀ 12 6 = fieldMask 6)
    (hn : n ≤ 2047) (hm : m ≤ 63) (hp : p ≤ 7) (hx : x < 1000) :
    Fields (written w₀ w₁ mode msk₀ (outdivMsk ||| fracMsk)
      (BitVec.ofNat 32 (ss <<< 20 ||| m <<< 12 ||| n))
      (BitVec.ofNat 32 (p <<< 4) ||| BitVec.ofNat 32 (fracOf x) <<< 8) ctl2) mode n m p := by
  have hregP := (getField_ctl1 (p := p) (by omega) (fracOf_lt hx)).1
  refine fields_written (by omega) (by omega) ?_ hmsk hmskN hmskM (by decide) hregP
  rcases hmode with rfl | rfl <;> decide

end

/-! ## The readings -/

section

variable {clk : ClkT} {i : Fin 6} {mode : BitVec 32} {n m p x : Nat}

theorem toNat_mul_lt {a b : BitVec 32} (h : a.toNat * b.toNat < 2 ^ 32) :
    (a * b).toNat = a.toNat * b.toNat := by
  rw [BitVec.toNat_mul, Nat.mod_eq_of_lt h]

/-- The reading in the integer mode, and when its products do not wrap. -/
theorem integer_reading (h : Fields (clk.PLL i) PLL_OPMODE_INTEGER n m p) (hp : p ≤ 7)
    (hm : m ≤ 63) :
    (NoWrap (vsiProducts (clk.PLL i)) ↔ 24000000 / (p * m) * n < 2 ^ 32) ∧
      (clkGetVSIPLLClockFreq clk i).toNat = 24000000 / (p * m) * n % 2 ^ 32 := by
  have hle : p * m ≤ 7 * 63 := Nat.mul_le_mul hp hm
  have hpm : ((clk.PLL i).outdiv * (clk.PLL i).indiv).toNat = p * m := by
    rw [toNat_mul_lt (by rw [h.outdiv_eq, h.indiv_eq]; omega), h.outdiv_eq, h.indiv_eq]
  have hquot : (hxt / ((clk.PLL i).outdiv * (clk.PLL i).indiv)).toNat = 24000000 / (p * m) := by
    rw [BitVec.toNat_udiv, hpm]
    rfl
  constructor
  · rw [vsiProducts, if_pos h.mode_eq, NoWrap, List.forall_mem_cons, List.forall_mem_singleton]
    simp only [hquot, h.outdiv_eq, h.indiv_eq, h.fbdiv_eq]
    omega
  · rw [clkGetVSIPLLClockFreq, if_neg (by rw [h.on]; decide)]
    dsimp only
    rw [if_pos h.mode_eq, BitVec.toNat_mul, hquot, h.fbdiv_eq]

/-- The fraction's product with 1000 does not wrap up to 256 thousandths. -/
theorem fracOf_mul_lt : fracOf x * 1000 < 2 ^ 32 ↔ x ≤ 256 := by
  rw [fracOf, Nat.shiftLeft_eq]
  constructor
  · intro h
    omega
  · intro h
    have hle : (x * 2 ^ 24 + 500) / 1000 ≤ (256 * 2 ^ 24 + 500) / 1000 :=
      Nat.div_le_div_right (by omega)
    omega

theorem thousandths_toNat {w : BitVec 32} (hx : x < 1000) (hw : w.toNat = fracOf x) :
    (thousandths mode w).toNat = readThousandths mode x := by
  have hlt := fracOf_lt hx
  rw [thousandths, readThousandths]
  split
  · rw [BitVec.toNat_ushiftRight, BitVec.toNat_add, BitVec.toNat_mul, hw, Nat.shiftRight_eq_div_pow]
    simp only [BitVec.toNat_ofNat]
    omega
  · rw [BitVec.toNat_ushiftRight, BitVec.toNat_mul, hw, Nat.shiftRight_eq_div_pow]
    simp only [BitVec.toNat_ofNat]

theorem readThousandths_lt : readThousandths mode x < 256 := by
  rw [readThousandths]
  split <;> omega

/-- The reading in a mode with a fraction, and when its products do not wrap. -/
theorem fractional_reading (h : Fields (clk.PLL i) mode n m p)
    (hmode : mode = PLL_OPMODE_FRACTIONAL ∨ mode = PLL_OPMODE_SPREAD_SPECTRUM)
    (hfrac : (clk.PLL i).frac.toNat = fracOf x) (hx : x < 1000) (hn : n < 2048) (hp : p ≤ 7)
    (hm : m ≤ 63) :
    (NoWrap (vsiProducts (clk.PLL i)) ↔
        x ≤ 256 ∧ 24000 * (n * 1000 + readThousandths mode x) < 2 ^ 32) ∧
      (clkGetVSIPLLClockFreq clk i).toNat =
        24000 * (n * 1000 + readThousandths mode x) % 2 ^ 32 / (p * m) := by
  have hle : p * m ≤ 7 * 63 := Nat.mul_le_mul hp hm
  have hne : mode ≠ PLL_OPMODE_INTEGER := by
    rcases hmode with rfl | rfl <;> decide
  have hpm : ((clk.PLL i).outdiv * (clk.PLL i).indiv).toNat = p * m := by
    rw [toNat_mul_lt (by rw [h.outdiv_eq, h.indiv_eq]; omega), h.outdiv_eq, h.indiv_eq]
  have hread : readThousandths mode x < 256 := readThousandths_lt
  have hsum : ((clk.PLL i).fbdiv * 1000#32 + thousandths (clk.PLL i).mode (clk.PLL i).frac).toNat =
      n * 1000 + readThousandths mode x := by
    rw [BitVec.toNat_add, BitVec.toNat_mul, h.fbdiv_eq, h.mode_eq, thousandths_toNat hx hfrac,
      BitVec.toNat_ofNat]
    omega
  have hquot : (hxt / 1000#32).toNat = 24000 := by decide
  constructor
  · rw [vsiProducts, if_neg (by rw [h.mode_eq]; exact hne), NoWrap]
    simp only [List.forall_mem_cons, hsum, hquot, hfrac, h.outdiv_eq, h.indiv_eq, h.fbdiv_eq,
      BitVec.toNat_ofNat, show 1000 % 2 ^ 32 = 1000 from rfl, fracOf_mul_lt, List.not_mem_nil,
      false_imp_iff, imp_true_iff]
    exact ⟨fun h => ⟨h.1, h.2.2.1⟩, fun h => ⟨h.1, by omega, h.2, by omega, trivial⟩⟩
  · rw [clkGetVSIPLLClockFreq, if_neg (by rw [h.on]; decide)]
    dsimp only
    rw [if_neg (by rw [h.mode_eq]; exact hne), if_pos (by rw [h.mode_eq]; exact hmode),
      BitVec.toNat_udiv, BitVec.toNat_mul, hsum, hquot, hpm]

end

/-! ## When the two frequencies agree -/

section

variable {src freq fclko k q n s t x p m : Nat} {mode : BitVec 32} {d : Dividers}

/-- A source clock above what the quotient gives is seen in the frequency. -/
theorem dist_above (hk : 0 < k) (hsrc : src = k * q + s) (hbig : src + k * 2 ^ 24 ≤ s * n * 2 ^ 24) :
    src < (q * n).dist (src * n / k) * (2 ^ 24 * k) := by
  have hmul : src * n = s * n + k * (q * n) := by
    rw [hsrc]
    ring
  have hquot : src * n / k = s * n / k + q * n := by
    rw [hmul, Nat.add_mul_div_left _ _ hk]
  have hdist : (q * n).dist (src * n / k) = s * n / k := by
    rw [hquot, Nat.dist, Nat.sub_eq_zero_of_le (Nat.le_add_left ..), Nat.zero_add,
      Nat.add_sub_cancel]
  have hround : s * n < (s * n / k + 1) * k := Nat.lt_mul_of_div_lt (Nat.lt_succ_self _) hk
  calc src ≤ s * n * 2 ^ 24 - k * 2 ^ 24 := Nat.le_sub_of_add_le hbig
    _ < (s * n / k + 1) * k * 2 ^ 24 - k * 2 ^ 24 := by omega
    _ = s * n / k * (2 ^ 24 * k) := by rw [Nat.add_mul, Nat.add_mul, Nat.one_mul]; ring_nf; omega
    _ = _ := by rw [hdist]

/-- A source clock below what the quotient gives is seen in the frequency. -/
theorem dist_below (hsrc : src + s = k * q) (hbig : src < s * n * 2 ^ 24) :
    src < (q * n).dist (src * n / k) * (2 ^ 24 * k) := by
  have hmul : src * n + s * n = k * (q * n) := by
    rw [← Nat.add_mul, hsrc, Nat.mul_assoc]
  have hfloor : src * n / k * k ≤ src * n := Nat.div_mul_le_self _ _
  have hle : s * n ≤ (q * n - src * n / k) * k := by
    rw [Nat.sub_mul, Nat.mul_comm (q * n)]
    omega
  calc src < s * n * 2 ^ 24 := hbig
    _ ≤ (q * n - src * n / k) * k * 2 ^ 24 := Nat.mul_le_mul_right _ hle
    _ ≤ (q * n).dist (src * n / k) * k * 2 ^ 24 := by
      refine Nat.mul_le_mul_right _ (Nat.mul_le_mul_right _ ?_)
      rw [Nat.dist]
      omega
    _ = _ := by ring

/-- In the integer mode a setting is read back exactly when the source clock is a multiple of the
dividers' product, the largest the crystal's frequency has. -/
theorem integer_agrees_iff (h : InRange src d) (hpm : d.p * d.m ≠ 0) :
    24000000 / (d.p * d.m) * d.n < 2 ^ 32 ∧
        (24000000 / (d.p * d.m) * d.n).dist (src * d.n / (d.p * d.m)) *
          (2 ^ 24 * (d.p * d.m)) ≤ src ↔
      src = d.p * d.m * (24000000 / (d.p * d.m)) := by
  have hpos : 0 < d.p * d.m := Nat.pos_of_ne_zero hpm
  have hm : 0 < d.m := Nat.pos_of_mul_pos_left hpos
  have hk : d.p * d.m ≤ 7 * d.m := Nat.mul_le_mul_right _ h.p_le
  have hm63 := h.m_le
  have hn := h.n_ge
  have hdiv := Nat.div_add_mod 24000000 (d.p * d.m)
  have hmod := Nat.mod_lt 24000000 hpos
  constructor
  · rintro ⟨-, hagree⟩
    by_contra hne
    refine absurd hagree (Nat.not_le.2 ?_)
    rcases Nat.lt_or_gt_of_ne hne with hlt | hgt
    · refine dist_below (s := d.p * d.m * (24000000 / (d.p * d.m)) - src) (by omega) ?_
      have hsn : 1 * 16 ≤ (d.p * d.m * (24000000 / (d.p * d.m)) - src) * d.n :=
        Nat.mul_le_mul (by omega) hn
      omega
    · refine dist_above (s := src - d.p * d.m * (24000000 / (d.p * d.m))) hpos (by omega) ?_
      rcases Nat.lt_or_ge 30000000 src with hbig | hsmall
      · have hsn : (src - d.p * d.m * (24000000 / (d.p * d.m))) * 16 ≤
            (src - d.p * d.m * (24000000 / (d.p * d.m))) * d.n := Nat.mul_le_mul_left _ hn
        omega
      · -- the oscillator runs at 600 MHz at least, so the feedback divider is twenty times the input's
        have hosc : 600000000 < (d.n + 1) * (src / d.m) := by
          have href : 0 < src / d.m := by
            have hsrc := h.m_src
            exact Nat.div_pos (by omega) hm
          exact Nat.lt_mul_of_div_lt (Nat.lt_succ_of_le h.n_low) href
        have hn20 : 20 * d.m < d.n + 1 := by
          have hle : 600000000 * d.m < (d.n + 1) * 30000000 := by
            calc 600000000 * d.m < (d.n + 1) * (src / d.m) * d.m := Nat.mul_lt_mul_of_pos_right hosc hm
              _ ≤ (d.n + 1) * src := by
                rw [Nat.mul_assoc]
                exact Nat.mul_le_mul_left _ (Nat.div_mul_le_self _ _)
              _ ≤ (d.n + 1) * 30000000 := Nat.mul_le_mul_left _ hsmall
          omega
        have hsn : 1 * d.n ≤ (src - d.p * d.m * (24000000 / (d.p * d.m))) * d.n :=
          Nat.mul_le_mul_right _ (by omega)
        omega
  · intro hsrc
    have hquot : src * d.n / (d.p * d.m) = 24000000 / (d.p * d.m) * d.n := by
      conv_lhs => rw [hsrc, Nat.mul_assoc]
      exact Nat.mul_div_cancel_left _ hpos
    have href : 24000000 / (d.p * d.m) ≤ src / d.m := by
      rw [Nat.le_div_iff_mul_le hm]
      calc 24000000 / (d.p * d.m) * d.m ≤ 24000000 / (d.p * d.m) * (d.p * d.m) :=
            Nat.mul_le_mul_left _ (Nat.le_mul_of_pos_left _ h.p_pos)
        _ = src := by rw [Nat.mul_comm, ← hsrc]
    have hosc : 24000000 / (d.p * d.m) * d.n ≤ 2400000000 :=
      le_trans (Nat.mul_le_mul_right _ href) h.osc_le
    refine ⟨by omega, ?_⟩
    rw [hquot, Nat.dist_self, Nat.zero_mul]
    exact Nat.zero_le _

instance : Decidable (RoundsUp x) := inferInstanceAs (Decidable (_ ∨ _))

/-- The fractions a reading that rounds has back. -/
theorem rounded_eq_iff : ∀ x < 257, (fracOf x * 1000 + 500) % 2 ^ 32 / 2 ^ 24 ≤ x ∧
    ((fracOf x * 1000 + 500) % 2 ^ 32 / 2 ^ 24 = x ↔ x < 256) := by
  decide +kernel

/-- The fractions a reading that does not round has back. -/
theorem truncated_eq_iff : ∀ x < 257, fracOf x * 1000 % 2 ^ 32 / 2 ^ 24 ≤ x ∧
    (fracOf x * 1000 % 2 ^ 32 / 2 ^ 24 = x ↔ x < 256 ∧ RoundsUp x) := by
  decide +kernel

/-- The fractions the getter has back as they were. -/
theorem readThousandths_eq_iff (hmode : mode = PLL_OPMODE_FRACTIONAL ∨
    mode = PLL_OPMODE_SPREAD_SPECTRUM) (hx : x ≤ 256) :
    readThousandths mode x ≤ x ∧
      (readThousandths mode x = x ↔
        x < 256 ∧ (mode = PLL_OPMODE_SPREAD_SPECTRUM → RoundsUp x)) := by
  rcases hmode with rfl | rfl
  · have hne : PLL_OPMODE_FRACTIONAL ≠ PLL_OPMODE_SPREAD_SPECTRUM := by decide
    obtain ⟨hle, hiff⟩ := rounded_eq_iff x (by omega)
    rw [readThousandths, if_pos rfl, hiff]
    exact ⟨hle, fun h => ⟨h, fun heq => absurd heq hne⟩, fun h => h.1⟩
  · obtain ⟨hle, hiff⟩ := truncated_eq_iff x (by omega)
    rw [readThousandths, if_neg (by decide), hiff]
    exact ⟨hle, fun h => ⟨h.1, fun _ => h.2⟩, fun h => ⟨h.1, h.2 rfl⟩⟩

/-- A lost thousandth is seen in the frequency. -/
theorem dist_lost (t t' : Nat) (hp : 0 < p) (hp7 : p ≤ 7) (hlt : t' < t) :
    24000000 < (outputFreq HXT t' p 1).dist (outputFreq HXT t p 1) * (2 ^ 24 * (p * 1)) := by
  have hout : ∀ t, outputFreq HXT t p 1 = 24000 * t / p := by
    intro t
    have hmul : HXT * t = 24000 * t * 1000 := by
      rw [HXT]
      omega
    rw [outputFreq, hmul, Nat.mul_one, Nat.mul_div_mul_right _ _ (by decide)]
  have hround : 24000 * t < (24000 * t / p + 1) * p :=
    Nat.lt_mul_of_div_lt (Nat.lt_succ_self _) hp
  have hfloor : 24000 * t' / p * p ≤ 24000 * t' := Nat.div_mul_le_self _ _
  have hdist : 24000 * t / p - 24000 * t' / p ≤ (24000 * t' / p).dist (24000 * t / p) := by
    rw [Nat.dist]
    omega
  rw [Nat.add_mul, Nat.one_mul] at hround
  have hgap : 23993 ≤ (24000 * t' / p).dist (24000 * t / p) * p := by
    calc 23993 ≤ 24000 * t / p * p - 24000 * t' / p * p := by omega
      _ = (24000 * t / p - 24000 * t' / p) * p := (Nat.sub_mul ..).symm
      _ ≤ _ := Nat.mul_le_mul_right _ hdist
  rw [hout, hout, Nat.mul_one, ← Nat.mul_assoc, Nat.mul_right_comm]
  omega

/-- From the crystal, the frequencies agree when the fraction is read back as it was. -/
theorem coincides_hxt_iff (h : FracRange HXT fclko)
    (hmode : mode = PLL_OPMODE_FRACTIONAL ∨ mode = PLL_OPMODE_SPREAD_SPECTRUM) :
    Coincides mode HXT (feedback HXT fclko) (leastP fclko) (leastM HXT) ↔
      FractionalReadsBack mode HXT fclko := by
  have hosc := h.osc_le
  have hpos : 0 < leastP fclko := by
    rcases Nat.eq_zero_or_pos (leastP fclko) with hzero | hpos
    · have hge := h.osc_ge
      rw [hzero] at hge
      omega
    · exact hpos
  have hfeed : feedback HXT fclko = fclko * leastP fclko / 24000 := by
    have hm : leastM HXT = 1 := rfl
    rw [feedback, hm, HXT]
    omega
  have hfrac : feedback HXT fclko % 1000 = fclko * leastP fclko % 24000000 / 24000 := by
    rw [hfeed]
    omega
  have hread := readThousandths_eq_iff (x := feedback HXT fclko % 1000) hmode
  rw [FractionalReadsBack, if_pos rfl, ← hfrac]
  constructor
  · rintro ⟨hx, -, hdist⟩
    obtain ⟨hle, hiff⟩ := hread hx
    rcases Nat.lt_or_eq_of_le hle with hlost | heq
    · have hseen := dist_lost (feedback HXT fclko)
        (feedback HXT fclko / 1000 * 1000 + readThousandths mode (feedback HXT fclko % 1000))
        hpos h.p_le (by omega)
      exact absurd hdist (Nat.not_le.2 hseen)
    · obtain ⟨hlt, hround⟩ := hiff.1 heq
      exact ⟨by omega, hround⟩
  · rintro ⟨hlt, hround⟩
    have hx : feedback HXT fclko % 1000 < 256 := by omega
    have heq := (hread hx.le).2.2 ⟨hx, hround⟩
    have hback : feedback HXT fclko / 1000 * 1000 +
        readThousandths mode (feedback HXT fclko % 1000) = feedback HXT fclko := by
      rw [heq]
      omega
    refine ⟨hx.le, ?_, ?_⟩
    · rw [hback, hfeed, HXT]
      omega
    · rw [hback, Nat.dist_self, Nat.zero_mul]
      exact Nat.zero_le _

end

/-! ## A setting read back -/

section

variable {clk clk' : ClkT} {i : Fin 6} {u32PllIdx mode w₀ w₁ ctl2 : BitVec 32}
  {src freq f n m p x ss : Nat} {msk₀ : BitVec 32}

/-- The agreement for a PLL with a fractional field. -/
def VsiAgrees (clk : ClkT) (i : Fin 6) (src f : Nat) : Prop :=
  NoWrap (vsiProducts (clk.PLL i)) ∧
    (clkGetVSIPLLClockFreq clk i).toNat.dist f *
      (2 ^ 24 * ((clk.PLL i).outdiv.toNat * (clk.PLL i).indiv.toNat)) ≤ src

theorem vsiAgrees_integer (hclk : clk.PLL i = written w₀ w₁ PLL_OPMODE_INTEGER
      (indivMsk ||| fbdivMsk) outdivMsk (BitVec.ofNat 32 (m <<< 12 ||| n))
      (BitVec.ofNat 32 (p <<< 4)) ctl2)
    (hn : n ≤ 2047) (hm : m ≤ 63) (hp : p ≤ 7) :
    VsiAgrees clk i src f ↔ 24000000 / (p * m) * n < 2 ^ 32 ∧
      (24000000 / (p * m) * n).dist f * (2 ^ 24 * (p * m)) ≤ src := by
  have hfields : Fields (clk.PLL i) PLL_OPMODE_INTEGER n m p := by
    rw [hclk]
    exact fields_integer hn hm hp
  obtain ⟨hwrap, hget⟩ := integer_reading hfields hp hm
  rw [VsiAgrees, hwrap, hget, hfields.outdiv_eq, hfields.indiv_eq]
  refine and_congr_right fun hlt => ?_
  rw [Nat.mod_eq_of_lt hlt]

theorem vsiAgrees_fractional (hmode : mode = PLL_OPMODE_FRACTIONAL ∨
      mode = PLL_OPMODE_SPREAD_SPECTRUM)
    (hclk : clk.PLL i = written w₀ w₁ mode msk₀ (outdivMsk ||| fracMsk)
      (BitVec.ofNat 32 (ss <<< 20 ||| m <<< 12 ||| n))
      (BitVec.ofNat 32 (p <<< 4) ||| BitVec.ofNat 32 (fracOf x) <<< 8) ctl2)
    (hmsk : getField msk₀ 18 2 = 0#32) (hmskN : getField msk₀ 0 11 = fieldMask 11)
    (hmskM : getField msk₀ 12 6 = fieldMask 6)
    (hn : n ≤ 2047) (hm : m ≤ 63) (hp : p ≤ 7) (hx : x < 1000) :
    VsiAgrees clk i src f ↔
      x ≤ 256 ∧ 24000 * (n * 1000 + readThousandths mode x) < 2 ^ 32 ∧
        (24000 * (n * 1000 + readThousandths mode x) / (p * m)).dist f * (2 ^ 24 * (p * m)) ≤
          src := by
  obtain ⟨-, hregX⟩ := getField_ctl1 (p := p) (by omega) (fracOf_lt hx)
  have hfields : Fields (clk.PLL i) mode n m p := by
    rw [hclk]
    exact fields_fractional hmode hmsk hmskN hmskM hn hm hp hx
  have hfrac : (clk.PLL i).frac.toNat = fracOf x := by
    rw [hclk, written_frac (by decide), hregX]
  obtain ⟨hwrap, hget⟩ := fractional_reading hfields hmode hfrac hx (by omega) hp hm
  rw [VsiAgrees, hwrap, hget, hfields.outdiv_eq, hfields.indiv_eq, and_assoc]
  refine and_congr_right fun _ => and_congr_right fun hlt => ?_
  rw [Nat.mod_eq_of_lt hlt]

/-- The integer mode. -/
theorem integer_set_agrees_iff {r : PllFreq} (hr : clkCalPLLFreqMode0 src freq = some r)
    (hclk : clk.PLL i = written w₀ w₁ PLL_OPMODE_INTEGER (indivMsk ||| fbdivMsk) outdivMsk
      r.reg0 r.reg1 ctl2) :
    VsiAgrees clk i src r.clk ↔ IntegerReadsBack src freq := by
  rcases Classical.em (85700000 ≤ freq ∧ freq ≤ 2400000000) with hin | hout
  · obtain ⟨d, hd, hdiv⟩ := clkCalPLLFreqMode0_spec hin.1 hin.2 hr
    have hrange := inRange_of_mem hd.mem
    rw [dividersFreq] at hdiv
    split at hdiv
    · cases hdiv
    rename_i hpm
    cases hdiv
    rw [vsiAgrees_integer hclk hrange.n_le hrange.m_le hrange.p_le,
      integer_agrees_iff hrange hpm]
    exact ⟨fun h _ d' hd' => hd'.unique hd ▸ h, fun h => h hin d hd⟩
  · have hrange : freq < VSIPLL_FCLKO_MIN_FREQ ∨ freq > VSIPLL_FCLKO_MAX_FREQ := by
      rw [VSIPLL_FCLKO_MIN_FREQ, VSIPLL_FCLKO_MAX_FREQ]
      omega
    rw [clkCalPLLFreqMode0, if_pos hrange] at hr
    cases hr
    have hclk' : clk.PLL i = written w₀ w₁ PLL_OPMODE_INTEGER (indivMsk ||| fbdivMsk) outdivMsk
        (BitVec.ofNat 32 (3 <<< 12 ||| 125)) (BitVec.ofNat 32 (1 <<< 4)) ctl2 := hclk
    rw [vsiAgrees_integer hclk' (by decide) (by decide) (by decide)]
    refine ⟨fun _ hin => absurd hin hout, fun _ => ⟨by decide, ?_⟩⟩
    have hdist : (24000000 / (1 * 3) * 125).dist 1000000000 = 0 := by decide
    dsimp only
    rw [hdist, Nat.zero_mul]
    exact Nat.zero_le _

/-- A mode with a fraction, for the result of its search. -/
theorem fractional_set_agrees_iff (hmode : mode = PLL_OPMODE_FRACTIONAL ∨
      mode = PLL_OPMODE_SPREAD_SPECTRUM) {r : PllFreq} {fclko : Nat} {slope : Nat → Nat}
    (hr : freq ≥ 2400000000 ∧ r = .beyond ∨
      freq < 2400000000 ∧ r = fractionalFreq src fclko ss slope)
    (hne : r.clk ≠ 0) (hclk : clk.PLL i = written w₀ w₁ mode msk₀ (outdivMsk ||| fracMsk)
      r.reg0 r.reg1 ctl2)
    (hmsk : getField msk₀ 18 2 = 0#32) (hmskN : getField msk₀ 0 11 = fieldMask 11)
    (hmskM : getField msk₀ 12 6 = fieldMask 6) :
    VsiAgrees clk i src r.clk ↔ freq < 2400000000 ∧ FractionalReadsBack mode src fclko := by
  rcases hr with ⟨hhigh, rfl⟩ | ⟨hlow, rfl⟩
  · have hclk' : clk.PLL i = written w₀ w₁ mode msk₀ (outdivMsk ||| fracMsk)
        (BitVec.ofNat 32 (0 <<< 20 ||| 3 <<< 12 ||| 250))
        (BitVec.ofNat 32 (2 <<< 4) ||| BitVec.ofNat 32 (fracOf 0) <<< 8) ctl2 := hclk
    rw [vsiAgrees_fractional hmode hclk' hmsk hmskN hmskM (by decide) (by decide) (by decide)
      (by decide)]
    exact ⟨fun h => by omega, fun h => by omega⟩
  · obtain ⟨hrange, heq⟩ := fractionalFreq_spec hne
    have hfeed := hrange.feedback_le
    have hcoin : VsiAgrees clk i src (fractionalFreq src fclko ss slope).clk ↔
        Coincides mode src (feedback src fclko) (leastP fclko) (leastM src) := by
      rw [heq] at hclk ⊢
      rw [vsiAgrees_fractional hmode hclk hmsk hmskN hmskM (by omega) hrange.m_le hrange.p_le
        (Nat.mod_lt _ (by decide)), Coincides, outputFreq, outputFreq, Nat.div_div_eq_div_mul,
        Nat.div_div_eq_div_mul]
      have hmul : ∀ t, HXT * t = 24000 * t * 1000 := by
        intro t
        rw [HXT]
        omega
      rw [hmul, Nat.mul_div_mul_right _ _ (by decide), Nat.mul_assoc]
      rfl
    rw [hcoin]
    rcases Classical.em (src = HXT) with rfl | hsrc
    · rw [coincides_hxt_iff hrange hmode]
      exact ⟨fun h => ⟨hlow, h⟩, fun h => h.2⟩
    · rw [FractionalReadsBack, if_neg hsrc]
      exact ⟨fun h => ⟨hlow, h⟩, fun h => h.2⟩

/-- A setting of a PLL with a fractional field, read back. -/
theorem vsi_set_agrees_iff (h : clkSetVSIPLLFreq clk i mode src freq = some (f, clk')) (hf : f ≠ 0) :
    VsiAgrees clk' i src f ↔
      if mode = PLL_OPMODE_INTEGER then IntegerReadsBack src freq
      else freq < 2400000000 ∧ FractionalReadsBack mode src
        (if mode = PLL_OPMODE_FRACTIONAL then aimMode1 freq else aimMode2 freq) := by
  rw [clkSetVSIPLLFreq] at h
  dsimp only at h
  split at h
  · rename_i hmode
    rw [if_pos hmode]
    obtain ⟨r, hr, heq⟩ := Option.map_eq_some_iff.1 h
    cases heq
    subst hmode
    exact integer_set_agrees_iff hr (ClkT.setPLL_PLL ..)
  rename_i hint
  rw [if_neg hint]
  split at h
  · rename_i hmode
    rw [if_pos hmode]
    cases h
    have hspec := checkedFreq_spec src freq aimMode1
      (fun hlow hne => raiseFreqMode1_eq hlow hne) (fun hge => if_neg hge) hf
    exact fractional_set_agrees_iff (.inl hmode) hspec hf (ClkT.setPLL_PLL ..) (by decide)
      (by decide) (by decide)
  rename_i hfrac
  rw [if_neg hfrac]
  split at h
  · rename_i hmode
    cases h
    have hspec := checkedFreq_spec src freq aimMode2
      (fun hlow hne => raiseFreqMode2_eq hlow hne) (fun hge => if_neg hge) hf
    exact fractional_set_agrees_iff (.inr hmode) hspec hf (ClkT.setPLL_PLL ..) (by decide)
      (by decide) (by decide)
  · cases h
    exact absurd rfl hf

/-- The calls on a PLL with a fractional field. -/
theorem vsi_dispatch (clk clk' : ClkT) (h : vsiIndex u32PllIdx = some i) (mode : BitVec 32)
    (PllSrcClk u64PllFreq : BitVec 64) :
    clkSetPLLFreq clk u32PllIdx mode PllSrcClk u64PllFreq =
        clkSetVSIPLLFreq clk i mode PllSrcClk.toNat u64PllFreq.toNat ∧
      clkGetPLLClockFreq clk' u32PllIdx = clkGetVSIPLLClockFreq clk' i := by
  rw [vsiIndex] at h
  rcases Classical.em (u32PllIdx = DDRPLL) with rfl | hddr
  · cases h
    exact ⟨rfl, rfl⟩
  rcases Classical.em (u32PllIdx = EPLL) with rfl | hepll
  · cases h
    exact ⟨rfl, rfl⟩
  rcases Classical.em (u32PllIdx = APLL) with rfl | hapll
  · cases h
    exact ⟨rfl, rfl⟩
  rcases Classical.em (u32PllIdx = VPLL) with rfl | hvpll
  · cases h
    exact ⟨rfl, rfl⟩
  rw [if_neg hddr, if_neg hepll, if_neg hapll, if_neg hvpll] at h
  cases h

/-- The CPU's PLL: every entry of the table is read back. -/
theorem capll_agrees (h : clkSetCAPLLClockFreq clk mode freq = (f, clk')) (hf : f ≠ 0) :
    NoWrap (caProducts clk') ∧ (clkGetCAPLLClockFreq clk').toNat = f := by
  have hentries : ∀ e ∈ s_au32CAPLLMap, ∀ clk : ClkT, clk.PLL0CTL0 = e.2 →
      NoWrap (caProducts clk) ∧ (clkGetCAPLLClockFreq clk).toNat = e.1 := by
    intro e he clk hval
    simp only [NoWrap, caProducts, clkGetCAPLLClockFreq, hval, List.forall_mem_cons,
      List.not_mem_nil, false_imp_iff, imp_true_iff, and_true]
    clear hval
    revert e
    decide
  rw [clkSetCAPLLClockFreq] at h
  split at h
  · rename_i e hfind
    cases h
    exact hentries e (List.mem_of_find?_eq_some hfind) _ rfl
  · cases h
    exact absurd rfl hf

end

/-- A frequency set is read back up to one unit of the fraction, with no product wrapping, exactly
for the requests of `ReadsBack`. -/
theorem clkSetPLLFreq_agrees_iff (clk : ClkT) (u32PllIdx u32OpMode : BitVec 32)
    (PllSrcClk u64PllFreq : BitVec 64) {f : Nat} {clk' : ClkT}
    (h : clkSetPLLFreq clk u32PllIdx u32OpMode PllSrcClk u64PllFreq = some (f, clk'))
    (hf : f ≠ 0) :
    Agrees clk' u32PllIdx PllSrcClk.toNat f ↔
      ReadsBack u32PllIdx u32OpMode PllSrcClk.toNat u64PllFreq.toNat := by
  cases hidx : vsiIndex u32PllIdx with
  | some i =>
    obtain ⟨hset, hget⟩ := vsi_dispatch clk clk' hidx u32OpMode PllSrcClk u64PllFreq
    rw [hset] at h
    have hiff := vsi_set_agrees_iff h hf
    rw [Agrees, ReadsBack, hidx, hget]
    exact ⟨fun hagree _ => hiff.1 hagree, fun hback => hiff.2 (hback (Option.some_ne_none i))⟩
  | none =>
    rw [Agrees, ReadsBack, hidx]
    refine ⟨fun _ hne => absurd rfl hne, fun _ => ?_⟩
    rw [clkSetPLLFreq] at h
    split at h
    · rename_i hca
      subst hca
      obtain ⟨hwrap, hget⟩ := capll_agrees (Option.some.inj h) hf
      exact ⟨fun _ => hwrap, hget⟩
    split at h
    · rename_i hca hsys
      subst hsys
      cases h
      exact ⟨fun heq => absurd heq hca, rfl⟩
    rename_i hca hsys
    have hother : ∀ idx, vsiIndex idx ≠ none → u32PllIdx ≠ idx := by
      rintro idx hne rfl
      exact hne hidx
    rw [if_neg (hother _ (by decide)), if_neg (hother _ (by decide)),
      if_neg (hother _ (by decide)), if_neg (hother _ (by decide))] at h
    cases h
    exact absurd rfl hf

/-- PLLs after reset, powered down. -/
def ClkT.reset : ClkT := ⟨fun _ => { CTL0 := 0, CTL1 := 1, CTL2 := 0 }⟩

/-- The example of the driver's own table, 884.736 MHz from the crystal, is not read back. -/
theorem clkSetPLLFreq_agrees_iff_vpll :
    (clkSetPLLFreq .reset VPLL PLL_OPMODE_FRACTIONAL 24000000 884736000).isSome = true ∧
      (Agrees ((clkSetPLLFreq .reset VPLL PLL_OPMODE_FRACTIONAL 24000000 884736000).get rfl).2 VPLL
        24000000 884736000 ↔ ReadsBack VPLL PLL_OPMODE_FRACTIONAL 24000000 884736000) :=
  ⟨rfl, clkSetPLLFreq_agrees_iff .reset VPLL PLL_OPMODE_FRACTIONAL 24000000 884736000 rfl
    (by decide)⟩

/-- Every frequency set is read back. -/
def ReadBackRight : Prop :=
  ∀ (clk : ClkT) (u32PllIdx u32OpMode : BitVec 32) (PllSrcClk u64PllFreq : BitVec 64) (f : Nat)
    (clk' : ClkT), clkSetPLLFreq clk u32PllIdx u32OpMode PllSrcClk u64PllFreq = some (f, clk') →
    f ≠ 0 → Agrees clk' u32PllIdx PllSrcClk.toNat f

/-- 884.736 MHz from the crystal in the fractional mode is read back as 866.304 MHz. -/
theorem not_readBackRight : ¬ ReadBackRight := by
  intro h
  have hagree := h .reset VPLL PLL_OPMODE_FRACTIONAL 24000000 884736000 884736000
    ((clkSetPLLFreq .reset VPLL PLL_OPMODE_FRACTIONAL 24000000 884736000).get rfl).2 rfl (by decide)
  have hget : clkGetPLLClockFreq
      ((clkSetPLLFreq .reset VPLL PLL_OPMODE_FRACTIONAL 24000000 884736000).get rfl).2 VPLL =
        866304000#32 := by
    rfl
  have hfields : (((clkSetPLLFreq .reset VPLL PLL_OPMODE_FRACTIONAL 24000000 884736000).get
      rfl).2.PLL 5).outdiv.toNat *
      (((clkSetPLLFreq .reset VPLL PLL_OPMODE_FRACTIONAL 24000000 884736000).get
        rfl).2.PLL 5).indiv.toNat = 1 := by
    rfl
  have hdist := hagree.2
  rw [hget, hfields] at hdist
  exact absurd hdist (by decide)

end NumakerMA35D1.Clk

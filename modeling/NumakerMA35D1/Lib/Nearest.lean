import Mathlib

/-!
# The nearest value of an increasing sequence

Where a setting is one of the first `n` numbers and each gives a value, larger numbers giving larger values,
the setting whose value is nearest to a request is told by its two neighbours: the request is not before the
middle of its value and the one below, and not behind the middle of its value and the one above
(`isNearest_iff`). Where the values are the multiples of a step, the nearest is the rounded quotient
(`isNearest_round`). `div_ten_round`: a quotient computed in tenths and rounded is the nearest number to the
ratio.
-/

namespace Embedded

variable {f : Nat → Int} {n d : Nat} {s : Int}

/-- Of the first `n` settings `d` has the value nearest to `s`. -/
def IsNearest (f : Nat → Int) (n : Nat) (s : Int) (d : Nat) : Prop :=
  d < n ∧ ∀ d' < n, |f d - s| ≤ |f d' - s|

/-- The lower of two values is as near as the other up to their middle. -/
theorem abs_sub_le_iff_middle {a b s : Int} (h : a < b) : |a - s| ≤ |b - s| ↔ 2 * s ≤ a + b := by
  rcases abs_cases (a - s) with ⟨ha, hs⟩ | ⟨ha, hs⟩ <;> rcases abs_cases (b - s) with ⟨hb, ht⟩ | ⟨hb, ht⟩ <;>
    rw [ha, hb] <;> omega

/-- The upper of two values is as near as the other from their middle on. -/
theorem abs_sub_le_iff_middle' {a b s : Int} (h : b < a) : |a - s| ≤ |b - s| ↔ a + b ≤ 2 * s := by
  rcases abs_cases (a - s) with ⟨ha, hs⟩ | ⟨ha, hs⟩ <;> rcases abs_cases (b - s) with ⟨hb, ht⟩ | ⟨hb, ht⟩ <;>
    rw [ha, hb] <;> omega

/-- The nearest setting, by its neighbours. -/
theorem isNearest_iff (hf : StrictMono f) : IsNearest f n s d ↔
    d < n ∧ (∀ c, c + 1 = d → f d + f c ≤ 2 * s) ∧ (d + 1 < n → 2 * s ≤ f d + f (d + 1)) := by
  constructor
  · rintro ⟨hd, hnear⟩
    refine ⟨hd, fun c hc => ?_, fun hnext => ?_⟩
    · have hlt : c < d := hc ▸ Nat.lt_succ_self c
      exact (abs_sub_le_iff_middle' (hf hlt)).1 (hnear c (Nat.lt_trans hlt hd))
    · exact (abs_sub_le_iff_middle (hf (Nat.lt_succ_self d))).1 (hnear (d + 1) hnext)
  · rintro ⟨hd, hbelow, habove⟩
    refine ⟨hd, fun d' hd' => ?_⟩
    rcases Nat.lt_trichotomy d' d with hlt | rfl | hlt
    · cases d with
      | zero => exact absurd hlt (Nat.not_lt_zero d')
      | succ c =>
        have hmid := hbelow c rfl
        have hle := hf.monotone (Nat.le_of_lt_succ hlt)
        refine (abs_sub_le_iff_middle' (hf hlt)).2 ?_
        omega
    · exact Int.le_refl _
    · have hmid := habove (Nat.lt_of_le_of_lt hlt hd')
      have hle := hf.monotone (Nat.succ_le_of_lt hlt)
      refine (abs_sub_le_iff_middle (hf hlt)).2 ?_
      rw [Nat.succ_eq_add_one] at hle
      omega

section

variable {off step s : Nat}

theorem strictMono_steps (off : Nat) (h : 0 < step) :
    StrictMono fun d : Nat => (((d + off) * step : Nat) : Int) := by
  intro a b hlt
  have hmul : (a + off) * step < (b + off) * step := Nat.mul_lt_mul_of_pos_right (by omega) h
  exact Int.ofNat_lt.2 hmul

/-- The nearest multiple of a step is the rounded quotient. -/
theorem isNearest_round (h : 0 < step) (hd : d < n) (hround : d + off = (2 * s + step) / (2 * step)) :
    IsNearest (fun d => (((d + off) * step : Nat) : Int)) n s d := by
  have hlow : (d + off) * (2 * step) ≤ 2 * s + step := hround ▸ Nat.div_mul_le_self _ _
  have hhigh : 2 * s + step < 2 * step * (d + off + 1) :=
    hround ▸ Nat.lt_mul_div_succ _ (by omega)
  have hdouble : (d + off) * (2 * step) = 2 * ((d + off) * step) := by ring
  have hnext : 2 * step * (d + off + 1) = 2 * ((d + off) * step) + 2 * step := by ring
  refine (isNearest_iff (strictMono_steps off h)).2 ⟨hd, fun c hc => ?_, fun _ => ?_⟩
  · have hbelow : (d + off) * step = (c + off) * step + step := by rw [← hc]; ring
    have hmid : (d + off) * step + (c + off) * step ≤ 2 * s := by omega
    exact Int.ofNat_le.2 hmid
  · have habove : (d + 1 + off) * step = (d + off) * step + step := by ring
    have hmid : 2 * s ≤ (d + off) * step + (d + 1 + off) * step := by omega
    exact Int.ofNat_le.2 hmid

/-- The nearest multiple is off by at most half a step, where the rounded quotient is a setting. -/
theorem IsNearest.le_half (h : IsNearest (fun d => (((d + off) * step : Nat) : Int)) n s d)
    (hstep : 0 < step) (hlow : off ≤ (2 * s + step) / (2 * step))
    (hhigh : (2 * s + step) / (2 * step) < n + off) :
    2 * |(((d + off) * step : Nat) : Int) - s| ≤ step := by
  obtain ⟨c, hc⟩ : ∃ c, c + off = (2 * s + step) / (2 * step) := ⟨_, Nat.sub_add_cancel hlow⟩
  have hle : (c + off) * (2 * step) ≤ 2 * s + step := hc ▸ Nat.div_mul_le_self _ _
  have hlt : 2 * s + step < 2 * step * (c + off + 1) := hc ▸ Nat.lt_mul_div_succ _ (by omega)
  have hdouble : (c + off) * (2 * step) = 2 * ((c + off) * step) := by ring
  have hnext : 2 * step * (c + off + 1) = 2 * ((c + off) * step) + 2 * step := by ring
  have hround : 2 * |(((c + off) * step : Nat) : Int) - s| ≤ step := by
    rcases abs_cases ((((c + off) * step : Nat) : Int) - s) with ⟨heq, _⟩ | ⟨heq, _⟩ <;>
      rw [heq] <;> omega
  have hnear := h.2 c (by omega)
  dsimp only at hnear
  omega

end

/-- A quotient in tenths, rounded: it is the ratio rounded to the nearest number, halves upwards. -/
theorem div_ten_round (n : Nat) {m : Nat} (h : 0 < m) : (n * 10 / m + 5) / 10 = (2 * n + m) / (2 * m) :=
  calc (n * 10 / m + 5) / 10
      = ((n * 10 + 5 * m) / m) / 10 := by rw [Nat.add_mul_div_right _ _ h]
    _ = (n * 10 + 5 * m) / (m * 10) := Nat.div_div_eq_div_mul _ _ _
    _ = (2 * n + m) * 5 / (2 * m * 5) := by ring_nf
    _ = (2 * n + m) / (2 * m) := Nat.mul_div_mul_right _ _ (by decide)

end Embedded

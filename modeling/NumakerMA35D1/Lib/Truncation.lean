import Mathlib.Algebra.Order.Field.Rat
import Mathlib.Data.List.Range
import Mathlib.Tactic.FieldSimp
import Mathlib.Tactic.Linarith
import Mathlib.Tactic.Ring

/-!
# Values rounded down

`RoundsDown slack x a`: a computation that truncates has `a` for `x`, at most `slack` too small. A quotient
of numbers rounds down by one (`roundsDown_div`), scaling scales the slack (`RoundsDown.mul_left`), and one
truncation after another adds the slacks (`RoundsDown.trans`).

`find_divisor_spec` is about a search for the least divisor that brings a quotient below a limit.
-/

namespace Embedded

variable {slack slack' x a b k : ℚ} {q n d lim : Nat}

/-- `a` is at most `x`, and less than it by at most `slack`. -/
structure RoundsDown (slack x a : ℚ) : Prop where
  le : a ≤ x
  ge : x ≤ a + slack

/-- One truncation after another. -/
theorem RoundsDown.trans (h : RoundsDown slack x a) (h' : RoundsDown slack' a b) :
    RoundsDown (slack + slack') x b := by
  refine ⟨h'.le.trans h.le, ?_⟩
  have hx := h.ge
  have ha := h'.ge
  linarith

/-- A scaled value. -/
theorem RoundsDown.mul_left (hk : 0 ≤ k) (h : RoundsDown slack x a) :
    RoundsDown (k * slack) (k * x) (k * a) := by
  refine ⟨mul_le_mul_of_nonneg_left h.le hk, ?_⟩
  rw [← mul_add]
  exact mul_le_mul_of_nonneg_left h.ge hk

/-- The quotient of two numbers. -/
theorem roundsDown_div (a : Nat) {b : Nat} (hb : 0 < b) : RoundsDown 1 ((a : ℚ) / b) (a / b : Nat) := by
  have hpos : (0 : ℚ) < b := Nat.cast_pos.2 hb
  have hdm : b * (a / b) + a % b = a := Nat.div_add_mod a b
  have hlt : a % b < b := Nat.mod_lt a hb
  constructor
  · rw [le_div_iff₀ hpos]
    exact_mod_cast Nat.div_mul_le_self a b
  · rw [div_le_iff₀ hpos]
    have hle : a ≤ (a / b + 1) * b := by
      rw [Nat.succ_mul, Nat.mul_comm]
      omega
    exact_mod_cast hle

/-- The search for a divisor leaves the least one that brings the quotient below the limit; the quotient is
at least one if the number is. -/
theorem find_divisor_spec (hlim : 2 ≤ lim)
    (h : (List.range' 1 n).find? (fun d => decide (q / d < lim)) = some d) :
    1 ≤ d ∧ d ≤ n ∧ q / d < lim ∧ (1 ≤ q → 1 ≤ q / d) := by
  obtain ⟨hlt, i, hi, hget, hbefore⟩ := List.find?_eq_some_iff_getElem.1 h
  rw [List.length_range'] at hi
  rw [List.getElem_range'_1] at hget
  refine ⟨by omega, by omega, of_decide_eq_true hlt, fun hq => ?_⟩
  rcases Nat.eq_zero_or_pos i with hi0 | hpos
  · have hd : d = 1 := by omega
    rw [hd, Nat.div_one]
    exact hq
  · have hprev := hbefore (i - 1) (by omega)
    rw [List.getElem_range'_1] at hprev
    have hbig : lim ≤ q / (1 + (i - 1)) := by simpa using hprev
    have hmul := (Nat.le_div_iff_mul_le (by omega)).1 hbig
    have htwo : 2 * (1 + (i - 1)) ≤ lim * (1 + (i - 1)) := Nat.mul_le_mul_right _ hlim
    exact (Nat.le_div_iff_mul_le (by omega)).2 (by omega)

/-- The search finds a divisor if the last one will do. -/
theorem find_divisor_isSome (hn : 1 ≤ n) (h : q / n < lim) :
    ∃ d, (List.range' 1 n).find? (fun d => decide (q / d < lim)) = some d := by
  refine Option.isSome_iff_exists.1 (List.find?_isSome.2 ⟨n, ?_, decide_eq_true h⟩)
  exact List.mem_range'_1.2 ⟨hn, by omega⟩

end Embedded

import Mathlib.Data.List.Range
import Mathlib.Data.List.Sort
import Mathlib.Order.Basic

/-!
# Bit utilities

`nu_bitutil.h`'s counts of trailing zeros and ones and the loop the interrupt handlers put around
them, `while ((i = nu_ctz(x)) < n) { ...; x &= ~(1 << i); }`. `nuCtz_eq`: the count is the position
of the lowest bit set. `nuScan_eq`: the loop visits every set bit below `n` once, from the lowest up.
-/

namespace NumakerMA35D1

/-- Reference: `nu_bitutil.h:63 nu_clz`. -/
def nuClz (x : BitVec 32) : Nat := if x = 0 then 32 else x.clz.toNat

/-- Reference: `nu_bitutil.h:85 nu_ctz`. -/
def nuCtz (x : BitVec 32) : Nat := if x = 0 then 32 else 31 - nuClz (x &&& -x)

/-- Reference: `nu_bitutil.h:99 nu_cto`. -/
def nuCto (x : BitVec 32) : Nat := nuCtz (~~~x)

/-- The bits that the loop serves, in the order it does, in at most `fuel` rounds. -/
def nuScanLoop (n : Nat) : Nat → BitVec 32 → List Nat
  | 0, _ => []
  | fuel + 1, x =>
    if nuCtz x < n then nuCtz x :: nuScanLoop n fuel (x &&& ~~~(1#32 <<< nuCtz x)) else []

/-- The bits that the loop serves. Each round clears a bit below `n`. -/
def nuScan (n : Nat) (x : BitVec 32) : List Nat := nuScanLoop n n x

variable {x : BitVec 32} {n k i fuel : Nat}

theorem getLsbD_and_neg (hk : x.getLsbD k = true) (hlow : ∀ j < k, x.getLsbD j = false) :
    (x &&& -x).getLsbD i = decide (i = k) := by
  rw [BitVec.getLsbD_and, BitVec.getLsbD_neg]
  rcases Nat.lt_trichotomy i k with hlt | heq | hgt
  · rw [hlow i hlt]
    simp [hlt.ne]
  · subst heq
    have hnone : ¬ ∃ j < i, x.getLsbD j = true := by
      rintro ⟨j, hj, hbit⟩
      rw [hlow j hj] at hbit
      cases hbit
    simp [hk, hnone]
  · have hsome : ∃ j < i, x.getLsbD j = true := ⟨k, hgt, hk⟩
    cases hx : x.getLsbD i with
    | false => simp [hgt.ne']
    | true =>
      have hi : i < 32 := BitVec.lt_of_getLsbD hx
      simp [hsome, hi, hgt.ne']

/-- The count of trailing zeros is the position of the lowest bit set. -/
theorem nuCtz_eq (hk : x.getLsbD k = true) (hlow : ∀ j < k, x.getLsbD j = false) :
    nuCtz x = k := by
  have hx : x ≠ 0 := by
    rintro rfl
    simp at hk
  have hy : x &&& -x ≠ 0 := by
    intro h
    have hbit := getLsbD_and_neg (i := k) hk hlow
    rw [h] at hbit
    simp at hbit
  have htop := BitVec.getLsbD_true_clz_of_ne_zero (by decide) hy
  rw [getLsbD_and_neg hk hlow] at htop
  rw [nuCtz, if_neg hx, nuClz, if_neg hy]
  exact of_decide_eq_true htop

/-- Without a bit set the count is the width. -/
theorem nuCtz_zero : nuCtz 0 = 32 := rfl

/-- The bit at the count of trailing zeros is set, if it is a position of the word. -/
theorem getLsbD_nuCtz (h : nuCtz x < 32) :
    x.getLsbD (nuCtz x) = true ∧ ∀ j < nuCtz x, x.getLsbD j = false := by
  have hex : ∃ i, x.getLsbD i = true := by
    by_contra hnone
    have hx : x = 0 := BitVec.eq_of_getLsbD_eq fun i _ => by
      have hi : ¬ x.getLsbD i = true := fun hi => hnone ⟨i, hi⟩
      simpa using hi
    rw [hx, nuCtz_zero] at h
    exact absurd h (by decide)
  have hlow : ∀ j < Nat.find hex, x.getLsbD j = false := fun j hj => by
    simpa using Nat.find_min hex hj
  rw [nuCtz_eq (Nat.find_spec hex) hlow]
  exact ⟨Nat.find_spec hex, hlow⟩

/-- A set bit bounds the count of trailing zeros. -/
theorem nuCtz_le (h : x.getLsbD i = true) : nuCtz x ≤ i := by
  have hex : ∃ i, x.getLsbD i = true := ⟨i, h⟩
  rw [nuCtz_eq (Nat.find_spec hex) fun j hj => by simpa using Nat.find_min hex hj]
  exact Nat.find_min' hex h

/-- The position of the lowest clear bit, if it is a position of the word. -/
theorem getLsbD_nuCto (h : nuCto x < 32) : x.getLsbD (nuCto x) = false := by
  have hbit := (getLsbD_nuCtz h).1
  rw [BitVec.getLsbD_not, Bool.and_eq_true, Bool.not_eq_true'] at hbit
  exact hbit.2

/-- A clear bit bounds the count of trailing ones. -/
theorem nuCto_le (hi : i < 32) (h : x.getLsbD i = false) : nuCto x ≤ i :=
  nuCtz_le (by rw [BitVec.getLsbD_not, h]; simpa using hi)

/-- The bit at `k` cleared, as `x &= ~(1 << k)` does. -/
theorem getLsbD_and_not_bit (hk : k < 32) :
    (x &&& ~~~(1#32 <<< k)).getLsbD i = (x.getLsbD i && decide (i ≠ k)) := by
  rcases Nat.lt_or_ge i 32 with hi | hi
  · rw [BitVec.getLsbD_and, BitVec.getLsbD_not, ← BitVec.twoPow_eq, BitVec.getLsbD_twoPow]
    simp [hi, hk, eq_comm]
  · simp [BitVec.getLsbD_of_ge _ i hi]

/-- The bit at `k` set, as `x |= 1 << k` does. -/
theorem getLsbD_or_bit (hk : k < 32) :
    (x ||| 1#32 <<< k).getLsbD i = (x.getLsbD i || decide (i = k)) := by
  rw [BitVec.getLsbD_or, ← BitVec.twoPow_eq, BitVec.getLsbD_twoPow]
  simp [hk, eq_comm]

/-- The loop serves the set bits below `n`, when none is below the rounds left out. -/
theorem mem_nuScanLoop (hn : n ≤ 32) (h : ∀ i < n, x.getLsbD i = true → n ≤ i + fuel) :
    i ∈ nuScanLoop n fuel x ↔ i < n ∧ x.getLsbD i = true := by
  induction fuel generalizing x with
  | zero =>
    simp only [nuScanLoop, List.not_mem_nil, false_iff]
    rintro ⟨hi, hbit⟩
    exact absurd (h i hi hbit) (by omega)
  | succ fuel ih =>
    rw [nuScanLoop]
    split
    · next hlt =>
      have hlow := getLsbD_nuCtz (x := x) (by omega)
      have hbit {j} := getLsbD_and_not_bit (x := x) (i := j) (k := nuCtz x) (by omega)
      rw [List.mem_cons, ih, hbit]
      · simp only [Bool.and_eq_true, decide_eq_true_eq]
        constructor
        · rintro (rfl | ⟨hi, hx, _⟩)
          · exact ⟨hlt, hlow.1⟩
          · exact ⟨hi, hx⟩
        · rintro ⟨hi, hx⟩
          by_cases heq : i = nuCtz x
          · exact .inl heq
          · exact .inr ⟨hi, hx, heq⟩
      · intro j hj hset
        rw [hbit, Bool.and_eq_true, decide_eq_true_eq] at hset
        have hge := h _ hlt hlow.1
        have hle := nuCtz_le hset.1
        omega
    · next hge =>
      simp only [List.not_mem_nil, false_iff]
      rintro ⟨hi, hx⟩
      exact hge (lt_of_le_of_lt (nuCtz_le hx) hi)

/-- The loop goes up. -/
theorem pairwise_nuScanLoop (hn : n ≤ 32) (h : ∀ i < n, x.getLsbD i = true → n ≤ i + fuel) :
    (nuScanLoop n fuel x).Pairwise (· < ·) := by
  induction fuel generalizing x with
  | zero => exact List.Pairwise.nil
  | succ fuel ih =>
    rw [nuScanLoop]
    split
    · next hlt =>
      have hlow := getLsbD_nuCtz (x := x) (by omega)
      have hbit {j} := getLsbD_and_not_bit (x := x) (i := j) (k := nuCtz x) (by omega)
      have hrest : ∀ j < n, (x &&& ~~~(1#32 <<< nuCtz x)).getLsbD j = true → n ≤ j + fuel := by
        intro j hj hset
        rw [hbit, Bool.and_eq_true, decide_eq_true_eq] at hset
        have hge := h _ hlt hlow.1
        have hle := nuCtz_le hset.1
        omega
      refine List.pairwise_cons.2 ⟨fun j hj => ?_, ih hrest⟩
      obtain ⟨-, hset⟩ := (mem_nuScanLoop hn hrest).1 hj
      rw [hbit, Bool.and_eq_true, decide_eq_true_eq] at hset
      exact lt_of_le_of_ne (nuCtz_le hset.1) (Ne.symm hset.2)
    · exact List.Pairwise.nil

/-- The loop serves each set bit below `n` once, from the lowest up. -/
theorem nuScan_eq (hn : n ≤ 32) : nuScan n x = (List.range n).filter (x.getLsbD ·) := by
  have h : ∀ i < n, x.getLsbD i = true → n ≤ i + n := fun i _ _ => Nat.le_add_left n i
  have hsorted : ((List.range n).filter (x.getLsbD ·)).Pairwise (· < ·) :=
    List.Pairwise.filter _ List.pairwise_lt_range
  have hscan := pairwise_nuScanLoop hn h
  refine List.Perm.eq_of_pairwise (fun a b _ _ hab hba => absurd hba (lt_asymm hab)) hscan hsorted ?_
  refine (List.perm_ext_iff_of_nodup (hscan.imp ne_of_lt) (hsorted.imp ne_of_lt)).2 fun i => ?_
  rw [mem_nuScanLoop hn h]
  simp

/-- The bits the loop serves. -/
theorem mem_nuScan (hn : n ≤ 32) : i ∈ nuScan n x ↔ i < n ∧ x.getLsbD i = true :=
  mem_nuScanLoop hn fun i _ _ => Nat.le_add_left n i

end NumakerMA35D1

import Mathlib

/-!
# Searches along an orbit

`findFrom p next fuel a` goes from `a` on to `next a`, `next (next a)` and so on, and stops at the
first that meets `p`. It stops for some fuel if and only if the orbit of `a` meets `p` somewhere
(`findFrom_terminates`), what it stops at lies in the orbit and meets `p` (`findFrom_spec`), and the
fuel does not matter beyond that (`findFrom_unique`).
-/

namespace Embedded

variable {α : Type*}

/-- The first that meets the test. -/
def findFrom (p : α → Bool) (next : α → α) : Nat → α → Option α
  | 0, _ => none
  | fuel + 1, a => if p a then some a else findFrom p next fuel (next a)

variable {p : α → Bool} {next : α → α} {fuel fuel' : Nat} {a b b' : α}

theorem findFrom_spec (h : findFrom p next fuel a = some b) : p b ∧ ∃ k, next^[k] a = b := by
  induction fuel generalizing a with
  | zero => cases h
  | succ fuel ih =>
    rw [findFrom] at h
    split at h
    · rename_i hp
      cases h
      exact ⟨hp, 0, rfl⟩
    · obtain ⟨hp, k, hk⟩ := ih h
      exact ⟨hp, k + 1, hk⟩

theorem findFrom_mono (h : findFrom p next fuel a = some b) (hle : fuel ≤ fuel') :
    findFrom p next fuel' a = some b := by
  induction fuel generalizing a fuel' with
  | zero => cases h
  | succ fuel ih =>
    obtain ⟨n, rfl⟩ : ∃ n, fuel' = n + 1 := ⟨fuel' - 1, by omega⟩
    rw [findFrom] at h ⊢
    split at h
    · rw [if_pos ‹_›]
      exact h
    · rw [if_neg ‹_›]
      exact ih h (by omega)

/-- Two searches that stop, stop at the same. -/
theorem findFrom_unique (h : findFrom p next fuel a = some b)
    (h' : findFrom p next fuel' a = some b') : b = b' := by
  have hmax := findFrom_mono h (le_max_left fuel fuel')
  rw [findFrom_mono h' (le_max_right fuel fuel')] at hmax
  exact (Option.some.inj hmax).symm

theorem findFrom_of_iterate {k : Nat} (h : p (next^[k] a)) :
    ∃ b, findFrom p next (k + 1) a = some b := by
  induction k generalizing a with
  | zero => exact ⟨a, if_pos h⟩
  | succ k ih =>
    rw [findFrom]
    split
    · exact ⟨a, rfl⟩
    · exact ih h

/-- A search stops if and only if it gets to one that meets the test. -/
theorem findFrom_terminates :
    (∃ fuel b, findFrom p next fuel a = some b) ↔ ∃ k, p (next^[k] a) := by
  constructor
  · rintro ⟨fuel, b, h⟩
    obtain ⟨hp, k, rfl⟩ := findFrom_spec h
    exact ⟨k, hp⟩
  · rintro ⟨k, h⟩
    exact ⟨k + 1, findFrom_of_iterate h⟩

end Embedded

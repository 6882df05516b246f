import Mathlib.Order.Monotone.Basic

/-!
# A program beside a device

A program takes one step after another, and before each of them a device makes as much progress as a schedule
says. What both keep holds after any number of steps (`interleave_invariant`); the device comes before the step
any number of times (`iterate_invariant`).

`interleave_ends`: the program ends under a fair schedule if the device's progress uses up a measure, the
program never adds to it, and the program on its own, where the device has nothing to do, ends or uses some
of it.
-/

namespace Embedded

variable {σ : Type*} {step tick : σ → σ} {sched : Nat → Nat} {s : σ} {I : σ → Prop}

/-- The state after a number of steps of the program; before step `k` the device makes `sched k` steps. -/
def interleave (step tick : σ → σ) (sched : Nat → Nat) (s : σ) : Nat → σ
  | 0 => s
  | k + 1 => step (tick^[sched k] (interleave step tick sched s k))

/-- The device always gets another turn. -/
def Fair (sched : Nat → Nat) : Prop := ∀ k, ∃ j, k ≤ j ∧ 0 < sched j

/-- What a step of the device keeps, any number of them keeps. -/
theorem iterate_invariant (htick : ∀ s, I s → I (tick s)) (h : I s) (n : Nat) : I (tick^[n] s) := by
  induction n with
  | zero => exact h
  | succ n ih =>
    rw [Function.iterate_succ_apply']
    exact htick _ ih

/-- What the program and the device keep holds after any number of steps. -/
theorem interleave_invariant (hstep : ∀ s, I s → I (step s)) (htick : ∀ s, I s → I (tick s)) (h0 : I s)
    (k : Nat) : I (interleave step tick sched s k) := by
  induction k with
  | zero => exact h0
  | succ k ih => exact hstep _ (iterate_invariant htick ih _)

/-- A device that has nothing to do stays as it is. -/
theorem iterate_quiet (h : tick s = s) (n : Nat) : tick^[n] s = s :=
  Function.iterate_fixed h n

section Ends

variable {measure rank : σ → Nat} {Quiet Done : σ → Prop}

/-- Any number of steps of the device leave no more of the measure, and at least one where it has something to
do leaves less. -/
theorem iterate_measure (htickI : ∀ s, I s → I (tick s)) (hquiet : ∀ s, I s → Quiet s → tick s = s)
    (hbusy : ∀ s, I s → ¬ Quiet s → measure (tick s) < measure s) (h : I s) (n : Nat) :
    measure (tick^[n] s) ≤ measure s ∧ (¬ Quiet s → 0 < n → measure (tick^[n] s) < measure s) := by
  induction n with
  | zero => exact ⟨Nat.le_refl _, fun _ hn => absurd hn (Nat.lt_irrefl 0)⟩
  | succ n ih =>
    rw [Function.iterate_succ_apply']
    have hI := iterate_invariant htickI h n
    have hle : measure (tick (tick^[n] s)) ≤ measure (tick^[n] s) := by
      by_cases hq : Quiet (tick^[n] s)
      · exact Nat.le_of_eq (congrArg measure (hquiet _ hI hq))
      · exact (hbusy _ hI hq).le
    refine ⟨hle.trans ih.1, fun hq _ => ?_⟩
    cases n with
    | zero => exact hbusy s h hq
    | succ n => exact Nat.lt_of_le_of_lt hle (ih.2 hq (Nat.succ_pos n))

/-- The program ends: where the device has something to do, a fair schedule lets it, and that uses the
measure; where it has nothing to do, the program goes on to its end or uses the measure itself. -/
theorem interleave_ends (hstepI : ∀ s, I s → I (step s)) (htickI : ∀ s, I s → I (tick s)) (h0 : I s)
    (hquiet : ∀ s, I s → Quiet s → tick s = s)
    (hbusy : ∀ s, I s → ¬ Quiet s → measure (tick s) < measure s)
    (hstep : ∀ s, I s → measure (step s) ≤ measure s)
    (halone : ∀ s, I s → Quiet s → ¬ Done s →
      measure (step s) < measure s ∨ Quiet (step s) ∧ rank (step s) < rank s)
    (hfair : Fair sched) : ∃ k, Done (interleave step tick sched s k) := by
  have hI : ∀ k, I (interleave step tick sched s k) := interleave_invariant hstepI htickI h0
  have hnext : ∀ k, measure (interleave step tick sched s (k + 1)) ≤
      measure (interleave step tick sched s k) := fun k =>
    (hstep _ (iterate_invariant htickI (hI k) _)).trans
      (iterate_measure htickI hquiet hbusy (hI k) (sched k)).1
  have hmono : ∀ k j, k ≤ j → measure (interleave step tick sched s j) ≤
      measure (interleave step tick sched s k) := fun k j hkj =>
    antitone_nat_of_succ_le (f := fun k => measure (interleave step tick sched s k)) hnext hkj
  have hall : ∀ m k, measure (interleave step tick sched s k) = m →
      ∃ j, Done (interleave step tick sched s j) := by
    intro m
    induction m using Nat.strongRecOn with
    | ind m ih =>
      intro k hk
      -- where the device has nothing to do: by the rank, up to the next use of the measure
      have hrank : ∀ r j, k ≤ j → Quiet (interleave step tick sched s j) →
          rank (interleave step tick sched s j) = r → ∃ j, Done (interleave step tick sched s j) := by
        intro r
        induction r using Nat.strongRecOn with
        | ind r ihr =>
          intro j hkj hq hr
          by_cases hdone : Done (interleave step tick sched s j)
          · exact ⟨j, hdone⟩
          have hsame : interleave step tick sched s (j + 1) = step (interleave step tick sched s j) := by
            rw [interleave, iterate_quiet (hquiet _ (hI j) hq)]
          rcases halone _ (hI j) hq hdone with hless | ⟨hq', hless⟩
          · rw [← hsame] at hless
            exact ih _ (Nat.lt_of_lt_of_le hless ((hmono k j hkj).trans hk.le)) (j + 1) rfl
          · rw [← hsame] at hq' hless
            exact ihr _ (hr ▸ hless) (j + 1) (Nat.le_succ_of_le hkj) hq' rfl
      obtain ⟨j, hkj, hpos⟩ := hfair k
      by_cases hq : Quiet (interleave step tick sched s j)
      · exact hrank _ j hkj hq rfl
      · have hless := (iterate_measure htickI hquiet hbusy (hI j) (sched j)).2 hq hpos
        have hle := hstep _ (iterate_invariant htickI (hI j) (sched j))
        exact ih _ (Nat.lt_of_le_of_lt hle (Nat.lt_of_lt_of_le hless ((hmono k j hkj).trans hk.le)))
          (j + 1) rfl
  exact hall _ 0 rfl

end Ends

end Embedded

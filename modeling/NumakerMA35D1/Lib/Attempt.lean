import NumakerMA35D1.Lib.Outcome

/-!
# Operations that may fail

A program that performs operations one after the other on something that may fail, and gives up at
the first failure. The log of the operations done so far is the state, and `fails k` says that the
`k`-th operation fails. `performAll` performs a list of operations; it comes through if and only if
none of them fails (`performAll_eq_ok`), and where it stops it has done the ones before the first that
fails (`performAll_eq_error`).
-/

namespace Embedded

variable {ω : Type}

/-- Why a program stops, with what it has done: an operation failed, or the program gives up by
itself. `endless` stands for a program that goes on for ever. -/
inductive Stop (ω : Type)
  | failed (log : List ω)
  | refused (log : List ω)
  | endless
deriving Repr

/-- One operation. -/
def perform (fails : Nat → Bool) (log : List ω) (op : ω) : Except (Stop ω) (List ω) :=
  if fails log.length then .error (.failed log) else .ok (log ++ [op])

/-- Operations one after the other. -/
def performAll (fails : Nat → Bool) (log : List ω) : List ω → Except (Stop ω) (List ω)
  | [] => .ok log
  | op :: ops => perform fails log op >>= fun log => performAll fails log ops

variable {fails : Nat → Bool} {log log' ops ops' : List ω} {op : ω} {stop : Stop ω}

@[simp] theorem performAll_nil : performAll fails log [] = .ok log := rfl

theorem performAll_cons :
    performAll fails log (op :: ops) =
      perform fails log op >>= fun log => performAll fails log ops := rfl

theorem performAll_singleton : performAll fails log [op] = perform fails log op := by
  rw [performAll_cons]
  cases perform fails log op with
  | error e => rfl
  | ok log => rfl

theorem performAll_append :
    performAll fails log (ops ++ ops') =
      performAll fails log ops >>= fun log => performAll fails log ops' := by
  induction ops generalizing log with
  | nil => rfl
  | cons op ops ih =>
    rw [List.cons_append, performAll_cons, performAll_cons]
    cases perform fails log op with
    | error e => rfl
    | ok log => exact ih

/-- Operations come through if and only if none of them fails. -/
theorem performAll_eq_ok :
    performAll fails log ops = .ok log' ↔
      log' = log ++ ops ∧ ∀ k < ops.length, fails (log.length + k) = false := by
  induction ops generalizing log with
  | nil =>
    rw [performAll_nil, List.append_nil]
    exact ⟨fun h => ⟨(Except.ok.inj h).symm, fun k hk => absurd hk (Nat.not_lt_zero k)⟩,
      fun h => by rw [h.1]⟩
  | cons op ops ih =>
    rw [performAll_cons, perform]
    by_cases hfail : fails log.length = true
    · rw [if_pos hfail, error_bind]
      refine ⟨(fun h => nomatch h), fun h => ?_⟩
      have h0 := h.2 0 (Nat.succ_pos _)
      rw [Nat.add_zero, hfail] at h0
      cases h0
    · rw [if_neg hfail, ok_bind, ih, List.append_assoc, List.singleton_append,
        List.length_append, List.length_singleton]
      refine and_congr_right fun _ => ⟨fun h k hk => ?_, fun h k hk => ?_⟩
      · cases k with
        | zero => exact Bool.eq_false_of_not_eq_true hfail
        | succ k =>
          rw [← Nat.add_assoc, Nat.add_right_comm]
          exact h k (Nat.lt_of_succ_lt_succ hk)
      · rw [Nat.add_right_comm, Nat.add_assoc]
        exact h (k + 1) (Nat.succ_lt_succ hk)

/-- Operations stop where one fails, with those before it done. -/
theorem performAll_eq_error (h : performAll fails log ops = .error stop) :
    ∃ k < ops.length, fails (log.length + k) = true ∧ stop = .failed (log ++ ops.take k) := by
  induction ops generalizing log with
  | nil => cases h
  | cons op ops ih =>
    rw [performAll_cons, perform] at h
    by_cases hfail : fails log.length = true
    · rw [if_pos hfail, error_bind] at h
      cases h
      exact ⟨0, Nat.succ_pos _, hfail, by rw [List.take_zero, List.append_nil]⟩
    · rw [if_neg hfail, ok_bind] at h
      obtain ⟨k, hk, hfails, rfl⟩ := ih h
      rw [List.length_append, List.length_singleton] at hfails
      refine ⟨k + 1, Nat.succ_lt_succ hk, ?_, ?_⟩
      · rwa [Nat.add_comm k 1, ← Nat.add_assoc]
      · rw [List.take_succ_cons, List.append_assoc, List.singleton_append]

end Embedded

import Mathlib

/-!
# Runs of a labelled transition system

`Run step s as s'` says that the steps labelled `as` lead from `s` to `s'`. What every step keeps,
every run keeps (`Run.invariant`); a relation to a specification that every step keeps, every run
keeps (`Run.simulates`). Steps that a function computes make a run (`Run.of_foldlM`). A run whose
steps all meet a condition is a run of `step` restricted to it (`where_`).
-/

namespace Embedded

variable {σ τ α : Type*}

/-- The steps labelled by a list, one after another. -/
inductive Run (step : σ → α → σ → Prop) (s : σ) : List α → σ → Prop
  | nil : Run step s [] s
  | snoc {labels : List α} {s' s'' : σ} {a : α} :
    Run step s labels s' → step s' a s'' → Run step s (labels ++ [a]) s''

/-- The steps that meet a condition on the state before and the label. -/
def where_ (step : σ → α → σ → Prop) (ok : σ → α → Prop) (s : σ) (a : α) (s' : σ) : Prop :=
  ok s a ∧ step s a s'

variable {step : σ → α → σ → Prop} {s s' : σ} {labels : List α}

/-- An invariant of the steps holds after every run. -/
theorem Run.invariant {I : σ → Prop} (hstep : ∀ {s a s'}, I s → step s a s' → I s') (h0 : I s)
    (h : Run step s labels s') : I s' := by
  induction h with
  | nil => exact h0
  | snoc _ hs ih => exact hstep ih hs

/-- A relation to the states of a specification that the steps keep holds after every run, with the
specification run on the same labels. -/
theorem Run.simulates {R : σ → τ → Prop} {spec : τ → α → τ}
    (hstep : ∀ {s t a s'}, R s t → step s a s' → R s' (spec t a)) {t : τ} (h0 : R s t)
    (h : Run step s labels s') : R s' (labels.foldl spec t) := by
  induction h with
  | nil => exact h0
  | snoc _ hs ih =>
    rw [List.foldl_append]
    exact hstep ih hs

/-- One run after another. -/
theorem Run.trans {labels' : List α} {s'' : σ} (h : Run step s labels s')
    (h' : Run step s' labels' s'') : Run step s (labels ++ labels') s'' := by
  induction h' with
  | nil =>
    rw [List.append_nil]
    exact h
  | snoc _ hs ih =>
    rw [← List.append_assoc]
    exact .snoc ih hs

/-- Steps that a function computes, one after another, are a run. -/
theorem Run.of_foldlM {exec : σ → α → Option σ}
    (hexec : ∀ {s a s'}, exec s a = some s' → step s a s')
    (h : labels.foldlM exec s = some s') : Run step s labels s' := by
  induction labels using List.reverseRecOn generalizing s' with
  | nil =>
    cases h
    exact .nil
  | append_singleton labels a ih =>
    rw [List.foldlM_append] at h
    obtain ⟨t, ht, hlast⟩ := Option.bind_eq_some_iff.1 h
    have hstep : exec t a = some s' := by simpa using hlast
    exact .snoc (ih ht) (hexec hstep)

/-- Steps that a function computes from states that meet a condition are a run of the restricted steps. -/
theorem Run.of_foldlM_where {exec : σ → α → Option σ} {ok : σ → α → Prop} [DecidableRel ok]
    (hexec : ∀ {s a s'}, exec s a = some s' → step s a s')
    (h : labels.foldlM (fun s a => if ok s a then exec s a else none) s = some s') :
    Run (where_ step ok) s labels s' := by
  refine Run.of_foldlM (fun {s a s'} hstep => ?_) h
  split at hstep
  · rename_i hok
    exact ⟨hok, hexec hstep⟩
  · cases hstep

end Embedded

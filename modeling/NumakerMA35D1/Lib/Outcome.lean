import Mathlib

/-!
# Computations that may stop

A computation in `Except ε` that binds another returns when both do (`bind_eq_ok`), and a traversal
none of whose steps stops is a map (`mapM_eq_ok`). `Returns A x Q` says what a computation may come
to: it returns with `Q`, or stops with one of the errors `A`. Its rules follow the computation.
-/

namespace Embedded

universe u

variable {ε α β : Type u}

@[simp] theorem ok_bind (a : α) (f : α → Except ε β) : (Except.ok a >>= f) = f a := rfl

@[simp] theorem error_bind (e : ε) (f : α → Except ε β) :
    (Except.error e >>= f) = Except.error e := rfl

theorem bind_eq_ok {x : Except ε α} {f : α → Except ε β} {b : β} :
    (x >>= f) = .ok b ↔ ∃ a, x = .ok a ∧ f a = .ok b := by
  cases x with
  | error e => simp
  | ok a => simp

/-- A traversal none of whose steps fails. -/
theorem mapM_eq_ok {f : α → Except ε β} {g : α → β} {l : List α}
    (h : ∀ a ∈ l, f a = .ok (g a)) : l.mapM f = .ok (l.map g) := by
  induction l with
  | nil => rfl
  | cons a l ih =>
    obtain ⟨ha, hl⟩ := List.forall_mem_cons.1 h
    rw [List.mapM_cons, ha, ok_bind, ih hl]
    rfl

/-- A search that hits, hits on one of the elements. -/
theorem exists_of_findSomeM {f : α → Except ε (Option β)} {l : List α} {b : β}
    (h : l.findSomeM? f = .ok (some b)) : ∃ a ∈ l, f a = .ok (some b) := by
  induction l with
  | nil => cases h
  | cons a l ih =>
    rw [List.findSomeM?_cons, bind_eq_ok] at h
    obtain ⟨r, hr, h⟩ := h
    cases r with
    | some b' =>
      cases h
      exact ⟨a, List.mem_cons_self .., hr⟩
    | none =>
      obtain ⟨a', ha', hf⟩ := ih h
      exact ⟨a', List.mem_cons_of_mem _ ha', hf⟩

/-- A search with a function defined on all the elements does not stop. -/
theorem findSomeM_ok {f : α → Except ε (Option β)} {l : List α} (hf : ∀ a ∈ l, ∃ r, f a = .ok r) :
    ∃ r, l.findSomeM? f = .ok r := by
  induction l with
  | nil => exact ⟨none, rfl⟩
  | cons a l ih =>
    obtain ⟨ha, hl⟩ := List.forall_mem_cons.1 hf
    obtain ⟨r, hr⟩ := ha
    rw [List.findSomeM?_cons, hr]
    cases r with
    | some b => exact ⟨some b, rfl⟩
    | none => exact ih hl

/-- A search that does not stop is the search with a function that agrees where it is defined. -/
theorem findSome_of_findSomeM {f : α → Except ε (Option β)} {g : α → Option β} {l : List α}
    {r : Option β} (hfg : ∀ a ∈ l, ∀ r, f a = .ok r → g a = r) (h : l.findSomeM? f = .ok r) :
    l.findSome? g = r := by
  induction l with
  | nil =>
    cases h
    rfl
  | cons a l ih =>
    obtain ⟨ha, hl⟩ := List.forall_mem_cons.1 hfg
    rw [List.findSomeM?_cons, bind_eq_ok] at h
    obtain ⟨r', hr', h⟩ := h
    rw [List.findSome?_cons, ha r' hr']
    cases r' with
    | some b =>
      cases h
      rfl
    | none => exact ih hl h

/-- The computation returns a value with `Q`, or stops with an error in `A`. -/
def Returns (A : ε → Prop) (x : Except ε α) (Q : α → Prop) : Prop :=
  match x with
  | .ok a => Q a
  | .error e => A e

namespace Returns

variable {A : ε → Prop} {x y : Except ε α} {P Q : α → Prop} {R : β → Prop}

theorem pure {a : α} (h : Q a) : Returns A (Pure.pure a) Q := h

theorem of_ok {a : α} (h : Returns A x Q) (hx : x = .ok a) : Q a := by
  rw [hx] at h
  exact h

theorem of_error {e : ε} (h : Returns A x Q) (hx : x = .error e) : A e := by
  rw [hx] at h
  exact h

theorem mono (h : Returns A x P) (hPQ : ∀ a, P a → Q a) : Returns A x Q := by
  cases x with
  | error e => exact h
  | ok a => exact hPQ a h

theorem bind {f : α → Except ε β} (hx : Returns A x P) (hf : ∀ a, P a → Returns A (f a) R) :
    Returns A (x >>= f) R := by
  cases x with
  | error e => exact hx
  | ok a => exact hf a hx

theorem ite {c : Prop} [Decidable c] (ht : c → Returns A x Q) (hf : ¬ c → Returns A y Q) :
    Returns A (if c then x else y) Q := by
  split
  · exact ht ‹_›
  · exact hf ‹_›

end Returns

end Embedded

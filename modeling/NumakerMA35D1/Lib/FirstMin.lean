import Mathlib.Data.List.Basic

/-!
# The first minimum of a list

A search that goes through candidates in order and keeps the best so far, replacing it by a
strictly better one only, ends at the first candidate of least cost (`IsFirstMin`). The lemmas say
what one more candidate does and that a candidate of cost zero is final.
-/

namespace Embedded

universe u v

variable {α : Type*} {cost : α → Nat} {l l' : List α} {x y : α}

/-- `x` has the least cost in `l`, and what comes before it costs more. -/
def IsFirstMin (cost : α → Nat) (l : List α) (x : α) : Prop :=
  ∃ l₁ l₂, l = l₁ ++ x :: l₂ ∧ (∀ y ∈ l₁, cost x < cost y) ∧ ∀ y ∈ l₂, cost x ≤ cost y

theorem IsFirstMin.mem (h : IsFirstMin cost l x) : x ∈ l := by
  obtain ⟨l₁, l₂, rfl, -, -⟩ := h
  exact List.mem_append_right _ (List.mem_cons_self ..)

theorem IsFirstMin.le (h : IsFirstMin cost l x) (hy : y ∈ l) : cost x ≤ cost y := by
  obtain ⟨l₁, l₂, rfl, hbefore, hafter⟩ := h
  rcases List.mem_append.1 hy with hy | hy
  · exact Nat.le_of_lt (hbefore y hy)
  · rcases List.mem_cons.1 hy with rfl | hy
    · exact Nat.le_refl _
    · exact hafter y hy

theorem isFirstMin_singleton : IsFirstMin cost [x] x :=
  ⟨[], [], rfl, (fun _ h => nomatch h), fun _ h => nomatch h⟩

/-- A candidate that is no better does not replace the best. -/
theorem IsFirstMin.keep (h : IsFirstMin cost l x) (hy : cost x ≤ cost y) :
    IsFirstMin cost (l ++ [y]) x := by
  obtain ⟨l₁, l₂, rfl, hbefore, hafter⟩ := h
  refine ⟨l₁, l₂ ++ [y], by simp, hbefore, ?_⟩
  intro z hz
  rcases List.mem_append.1 hz with hz | hz
  · exact hafter z hz
  · rw [List.mem_singleton.1 hz]
    exact hy

/-- A candidate that is strictly better becomes the best. -/
theorem IsFirstMin.replace (h : IsFirstMin cost l x) (hy : cost y < cost x) :
    IsFirstMin cost (l ++ [y]) y :=
  ⟨l, [], rfl, fun _ hz => Nat.lt_of_lt_of_le hy (h.le hz), fun _ hz => nomatch hz⟩

/-- A best of cost zero stays the best whatever follows. -/
theorem IsFirstMin.append_of_zero (h : IsFirstMin cost l x) (hx : cost x = 0) (l' : List α) :
    IsFirstMin cost (l ++ l') x := by
  obtain ⟨l₁, l₂, rfl, hbefore, hafter⟩ := h
  refine ⟨l₁, l₂ ++ l', by simp, hbefore, ?_⟩
  intro z _
  rw [hx]
  exact Nat.zero_le _

/-- There is one first minimum. By induction on the part before the first of the two. -/
theorem IsFirstMin.unique (hx : IsFirstMin cost l x) (hy : IsFirstMin cost l y) : x = y := by
  obtain ⟨l₁, l₂, rfl, hbefore, hafter⟩ := hx
  obtain ⟨k₁, k₂, heq, kbefore, kafter⟩ := hy
  rcases List.append_eq_append_iff.1 heq with ⟨as, rfl, hrest⟩ | ⟨as, rfl, hrest⟩
  · cases as with
    | nil => exact (List.cons.inj hrest).1
    | cons a as =>
      obtain ⟨rfl, rfl⟩ := List.cons.inj hrest
      have hlt := kbefore x (by simp)
      have hle := hafter y (by simp)
      omega
  · cases as with
    | nil => exact (List.cons.inj hrest).1.symm
    | cons a as =>
      obtain ⟨rfl, rfl⟩ := List.cons.inj hrest
      have hlt := hbefore y (by simp)
      have hle := kafter x (by simp)
      omega

/-- Nested loops over candidates are one loop over their list. -/
theorem foldlM_flatMap {β : Type*} {γ : Type u} {m : Type u → Type v} [Monad m] [LawfulMonad m]
    (l : List α) (g : α → List β) (f : γ → β → m γ) (c : γ) :
    (l.flatMap g).foldlM f c = l.foldlM (fun c a => (g a).foldlM f c) c := by
  induction l generalizing c with
  | nil => rfl
  | cons a l ih =>
    rw [List.flatMap_cons, List.foldlM_append, List.foldlM_cons]
    exact congrArg _ (funext ih)

end Embedded

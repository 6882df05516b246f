import Mathlib.Logic.ExistsUnique
import Mathlib.Data.Set.Basic

/-!
# Tokens, each in one place

`content p` is the token at a place, if there is one. `Placed content S`: every token of `S` is in
exactly one place. A token moved to an empty place keeps that (`Placed.move`); a place emptied of a
token of `S` breaks it (`Placed.not_of_dropped`).
-/

namespace Embedded

variable {ι α : Type*}

/-- Every token of a set is in one place and in no other. -/
def Placed (content : ι → Option α) (S : Set α) : Prop := ∀ k ∈ S, ∃! p, content p = some k

variable {content content' : ι → Option α} {S : Set α} {p q : ι} {k : α}

theorem Placed.congr (h : Placed content S) (hc : ∀ r, content' r = content r) :
    Placed content' S := by
  have heq : content' = content := funext hc
  rw [heq]
  exact h

/-- A token of the set is in one place only. -/
theorem Placed.unique (h : Placed content S) (hk : k ∈ S) (hp : content p = some k)
    (hq : content q = some k) : p = q :=
  (h k hk).unique hp hq

/-- A token moves to an empty place. -/
theorem Placed.move (h : Placed content S) (hp : content p = some k) (hq : content q = none)
    (hq' : content' q = some k) (hp' : content' p = none)
    (hrest : ∀ r, r ≠ p → r ≠ q → content' r = content r) : Placed content' S := by
  intro j hj
  obtain ⟨r, hr, hr1⟩ := h j hj
  by_cases hjk : j = k
  · subst hjk
    refine ⟨q, hq', fun t ht => ?_⟩
    by_contra hne
    by_cases htp : t = p
    · rw [htp, hp'] at ht
      cases ht
    · exact htp (h.unique hj (hrest t htp hne ▸ ht) hp)
  · have hrp : r ≠ p := by
      rintro rfl
      exact hjk (Option.some.inj (hr.symm.trans hp))
    have hrq : r ≠ q := by
      rintro rfl
      rw [hq] at hr
      cases hr
    refine ⟨r, (hrest r hrp hrq).trans hr, fun t ht => hr1 t ?_⟩
    change content' t = some j at ht
    have htp : t ≠ p := by
      rintro rfl
      rw [hp'] at ht
      cases ht
    have htq : t ≠ q := by
      rintro rfl
      exact hjk (Option.some.inj (ht.symm.trans hq'))
    exact (hrest t htp htq).symm.trans ht

/-- A token dropped from its place is nowhere. -/
theorem Placed.not_of_dropped (h : Placed content S) (hk : k ∈ S) (hp : content p = some k)
    (hp' : content' p = none) (hrest : ∀ r, r ≠ p → content' r = content r) :
    ¬ Placed content' S := by
  intro hall
  obtain ⟨r, hr, -⟩ := hall k hk
  by_cases hrp : r = p
  · rw [hrp, hp'] at hr
    cases hr
  · exact hrp (h.unique hk (hrest r hrp ▸ hr) hp)

end Embedded

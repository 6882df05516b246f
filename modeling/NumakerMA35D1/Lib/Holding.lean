import Mathlib

/-!
# Units held once

`Holds used other held`: of the units of a pool the ones in use are those of a list, each once, and those of others.
Taking fresh units, giving some back and holding them in another order keep it (`Holds.take`, `Holds.give`,
`Holds.perm`), as does what others take and give back (`Holds.foreign`). `count_map_change` counts what the held units
stand for when one of them changes.
-/

namespace Embedded

variable {α β : Type*}

/-- The units in use are those held, each once, and those of others. -/
structure Holds (used : α → Bool) (other : Set α) (held : List α) : Prop where
  nodup : held.Nodup
  used_iff : ∀ a, used a = true ↔ a ∈ held ∨ a ∈ other
  apart : ∀ a ∈ held, a ∉ other

section

variable {used used' : α → Bool} {other other' : Set α} {held held' units : List α} {a : α}

theorem Holds.inUse (h : Holds used other held) (ha : a ∈ held) : used a = true := (h.used_iff a).2 (Or.inl ha)

theorem Holds.fresh (h : Holds used other held) (ha : used a = false) : a ∉ held ∧ a ∉ other := by
  have hnot := mt (h.used_iff a).2 (Bool.eq_false_iff.1 ha)
  exact ⟨fun hin => hnot (Or.inl hin), fun hin => hnot (Or.inr hin)⟩

/-- The order does not matter. -/
theorem Holds.perm (h : Holds used other held) (hperm : held'.Perm held) : Holds used other held' where
  nodup := hperm.nodup_iff.2 h.nodup
  used_iff a := by
    rw [hperm.mem_iff]
    exact h.used_iff a
  apart a ha := h.apart a (hperm.mem_iff.1 ha)

variable [DecidableEq α]

/-- Fresh units are taken. -/
theorem Holds.take (h : Holds used other held) (hfresh : ∀ a ∈ units, used a = false) (hnodup : units.Nodup)
    (hused : ∀ a, used' a = (decide (a ∈ units) || used a)) : Holds used' other (units ++ held) where
  nodup := by
    refine List.nodup_append'.2 ⟨hnodup, h.nodup, fun a ha hheld => ?_⟩
    exact (h.fresh (hfresh a ha)).1 hheld
  used_iff a := by
    rw [hused, Bool.or_eq_true, decide_eq_true_iff, h.used_iff, List.mem_append, or_assoc]
  apart a ha := by
    rcases List.mem_append.1 ha with hnew | hheld
    · exact (h.fresh (hfresh a hnew)).2
    · exact h.apart a hheld

/-- Some of the units are given back. -/
theorem Holds.give (units : List α) (h : Holds used other (units ++ held))
    (hused : ∀ a, used' a = (used a && !decide (a ∈ units))) : Holds used' other held where
  nodup := (List.nodup_append'.1 h.nodup).2.1
  used_iff a := by
    have hdisj := (List.nodup_append'.1 h.nodup).2.2
    rw [hused, Bool.and_eq_true, h.used_iff, List.mem_append, Bool.not_eq_true', decide_eq_false_iff_not]
    constructor
    · rintro ⟨(hgiven | hheld) | hother, hnot⟩
      · exact absurd hgiven hnot
      · exact Or.inl hheld
      · exact Or.inr hother
    · rintro (hheld | hother)
      · exact ⟨Or.inl (Or.inr hheld), fun hgiven => hdisj hgiven hheld⟩
      · exact ⟨Or.inr hother, fun hgiven => h.apart a (List.mem_append_left _ hgiven) hother⟩
  apart a ha := h.apart a (List.mem_append_right _ ha)

omit [DecidableEq α] in
/-- Others take and give back units. -/
theorem Holds.foreign (h : Holds used other held) (hused : ∀ a, used' a = true ↔ a ∈ held ∨ a ∈ other')
    (hapart : ∀ a ∈ other', a ∈ other ∨ used a = false) : Holds used' other' held where
  nodup := h.nodup
  used_iff := hused
  apart a ha hother := by
    rcases hapart a hother with hin | hfree
    · exact h.apart a ha hin
    · exact (h.fresh hfree).1 ha

end

section

variable [DecidableEq α] [DecidableEq β] [BEq β] [LawfulBEq β] {f g : α → β} {as : List α} {a : α}

/-- One of the units comes to stand for something else. -/
theorem count_map_change (hnodup : as.Nodup) (ha : a ∈ as) (hsame : ∀ x ∈ as, x ≠ a → g x = f x) (b : β) :
    (as.map g).count b + (if f a = b then 1 else 0) = (as.map f).count b + if g a = b then 1 else 0 := by
  have hperm := List.perm_cons_erase ha
  have hrest : (as.erase a).map g = (as.erase a).map f := by
    refine List.map_congr_left fun x hx => ?_
    obtain ⟨hne, hin⟩ := (hnodup.mem_erase_iff).1 hx
    exact hsame x hin hne
  rw [(hperm.map g).count_eq, (hperm.map f).count_eq, List.map_cons, List.map_cons, List.count_cons, List.count_cons,
    hrest]
  simp only [beq_iff_eq]
  omega

end

end Embedded

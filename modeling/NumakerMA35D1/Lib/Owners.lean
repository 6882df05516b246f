import Mathlib

/-!
# Blocks and their owners

An `Owners` says which blocks of a store are live and which blocks each owner holds. No block has
two owners and no owner holds a dead block (`Exclusive`); every live block has an owner
(`Accounted`). Both survive an owner's giving its blocks back (`release`) and taking fresh ones
(`grant`). An owner that forgets its blocks leaves them live: the first survives, and the second
only when there was nothing to forget (`Accounted.forget_iff`).
-/

namespace Embedded

/-- The live blocks, and those each owner holds. -/
structure Owners (κ P : Type*) where
  held : κ → List P
  live : Set P

namespace Owners

variable {κ P : Type*} [DecidableEq κ]

/-- An owner gives its blocks back. -/
def release (o : Owners κ P) (k : κ) : Owners κ P where
  held := Function.update o.held k []
  live := {p | p ∈ o.live ∧ p ∉ o.held k}

/-- An owner forgets its blocks. -/
def forget (o : Owners κ P) (k : κ) : Owners κ P where
  held := Function.update o.held k []
  live := o.live

/-- An owner holds blocks that are live from now on. -/
def grant (o : Owners κ P) (k : κ) (ps : List P) : Owners κ P where
  held := Function.update o.held k ps
  live := {p | p ∈ o.live ∨ p ∈ ps}

/-- A held block is live and is held once. -/
structure Exclusive (o : Owners κ P) : Prop where
  nodup : ∀ k, (o.held k).Nodup
  disjoint : ∀ {k k' p}, p ∈ o.held k → p ∈ o.held k' → k = k'
  live : ∀ {k p}, p ∈ o.held k → p ∈ o.live

/-- A live block is held. -/
def Accounted (o : Owners κ P) : Prop := ∀ p ∈ o.live, ∃ k, p ∈ o.held k

variable {o : Owners κ P} {k k' : κ} {p : P} {ps : List P}

theorem held_release (o : Owners κ P) (k k' : κ) :
    (o.release k).held k' = if k' = k then [] else o.held k' :=
  Function.update_apply _ _ _ _

theorem held_grant (o : Owners κ P) (k : κ) (ps : List P) (k' : κ) :
    (o.grant k ps).held k' = if k' = k then ps else o.held k' :=
  Function.update_apply _ _ _ _

/-- An owner without blocks gives nothing back. -/
theorem release_eq_self (h : o.held k = []) : o.release k = o := by
  obtain ⟨held, live⟩ := o
  simp only [release] at h ⊢
  congr 1
  · rw [← h, Function.update_eq_self]
  · ext p
    simp [h]

theorem mem_held_release (h : p ∈ (o.release k).held k') : k' ≠ k ∧ p ∈ o.held k' := by
  rw [held_release] at h
  split at h
  · cases h
  · exact ⟨‹_›, h⟩

theorem Exclusive.release (h : o.Exclusive) (k : κ) : (o.release k).Exclusive where
  nodup k' := by
    rw [held_release]
    split
    · exact List.nodup_nil
    · exact h.nodup k'
  disjoint h1 h2 := h.disjoint (mem_held_release h1).2 (mem_held_release h2).2
  live hp := by
    obtain ⟨hne, hp⟩ := mem_held_release hp
    exact ⟨h.live hp, fun hk => hne (h.disjoint hp hk)⟩

theorem Exclusive.forget (h : o.Exclusive) (k : κ) : (o.forget k).Exclusive where
  nodup := (h.release k).nodup
  disjoint := (h.release k).disjoint
  live hp := ((h.release k).live hp).1

theorem Exclusive.grant (h : o.Exclusive) (hps : ps.Nodup) (hfresh : ∀ p ∈ ps, p ∉ o.live) :
    (o.grant k ps).Exclusive where
  nodup k' := by
    rw [held_grant]
    split
    · exact hps
    · exact h.nodup k'
  disjoint {k₁ k₂ p} h1 h2 := by
    rw [held_grant] at h1 h2
    split at h1 <;> split at h2
    · subst_vars
      rfl
    · exact absurd (h.live h2) (hfresh p h1)
    · exact absurd (h.live h1) (hfresh p h2)
    · exact h.disjoint h1 h2
  live {k' p} hp := by
    rw [held_grant] at hp
    split at hp
    · exact .inr hp
    · exact .inl (h.live hp)

theorem Accounted.release (h : o.Accounted) (k : κ) : (o.release k).Accounted := by
  rintro p ⟨hlive, hnot⟩
  obtain ⟨k', hk'⟩ := h p hlive
  refine ⟨k', ?_⟩
  rw [held_release, if_neg]
  · exact hk'
  · rintro rfl
    exact hnot hk'

theorem Accounted.grant (h : o.Accounted) (hnone : o.held k = []) (ps : List P) :
    (o.grant k ps).Accounted := by
  rintro p (hlive | hp)
  · obtain ⟨k', hk'⟩ := h p hlive
    refine ⟨k', ?_⟩
    rw [held_grant, if_neg]
    · exact hk'
    · rintro rfl
      rw [hnone] at hk'
      cases hk'
  · exact ⟨k, by rwa [held_grant, if_pos rfl]⟩

/-- Blocks are lost when and only when an owner forgets some. -/
theorem Accounted.forget_iff (he : o.Exclusive) (h : o.Accounted) :
    (o.forget k).Accounted ↔ o.held k = [] := by
  constructor
  · intro hf
    rw [List.eq_nil_iff_forall_not_mem]
    intro p hp
    obtain ⟨k', hk'⟩ := hf p (he.live hp)
    obtain ⟨hne, hk'⟩ := mem_held_release (o := o) hk'
    exact hne (he.disjoint hk' hp)
  · intro hnil p hlive
    rw [← release_eq_self hnil] at hlive
    exact h.release k p hlive

end Owners

end Embedded

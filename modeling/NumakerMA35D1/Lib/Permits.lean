import Mathlib

/-!
# Permits and slots

Parties that hold a permit of a counting semaphore, and some of them a slot of a table as well. The
number of parties with a property changes with one party's state (`countOf_update`). With no more
permits out than there are slots, no more slots are taken than permits are out (`card_taken_le`), and
a party that has a permit and no slot finds one free (`exists_free`).
-/

namespace Embedded

variable {κ α : Type*} [Fintype κ] [DecidableEq κ]

/-- The number of parties whose state has a property. -/
def countOf (p : α → Bool) (f : κ → α) : Nat := (Finset.univ.filter fun k => p (f k) = true).card

/-- One party's state changes. -/
theorem countOf_update (p : α → Bool) (f : κ → α) (k : κ) (a : α) :
    countOf p (Function.update f k a) + (if p (f k) then 1 else 0) =
      countOf p f + (if p a then 1 else 0) := by
  have hrest : ∀ g : κ → α, countOf p g =
      ((Finset.univ.erase k).filter fun j => p (g j) = true).card + if p (g k) then 1 else 0 := by
    intro g
    rw [countOf, ← Finset.insert_erase (Finset.mem_univ k), Finset.filter_insert]
    split
    · rw [Finset.card_insert_of_notMem (by simp)]
      simp
    · simp
  have hsame : ((Finset.univ.erase k).filter fun j => p (Function.update f k a j) = true) =
      (Finset.univ.erase k).filter fun j => p (f j) = true := by
    refine Finset.filter_congr fun j hj => ?_
    rw [Function.update_of_ne (Finset.ne_of_mem_erase hj)]
  rw [hrest (Function.update f k a), hrest f, hsame, Function.update_self]
  omega

omit [DecidableEq κ] in
theorem countOf_eq_zero {p : α → Bool} {f : κ → α} (h : ∀ k, p (f k) = false) :
    countOf p f = 0 := by
  simp [countOf, h]

omit [Fintype κ] [DecidableEq κ] in
/-- Slots that are each held by one of some parties are no more than these. -/
theorem card_slots_le {held : κ → Option Nat} {S : Finset Nat} {K : Finset κ}
    (h : ∀ i ∈ S, ∃ k ∈ K, held k = some i) : S.card ≤ K.card := by
  have hsub : S.image some ⊆ K.image held := by
    intro o ho
    obtain ⟨i, hi, rfl⟩ := Finset.mem_image.1 ho
    obtain ⟨k, hk, hslot⟩ := h i hi
    exact Finset.mem_image.2 ⟨k, hk, hslot⟩
  calc S.card = (S.image some).card :=
        (Finset.card_image_of_injective S (Option.some_injective _)).symm
    _ ≤ (K.image held).card := Finset.card_le_card hsub
    _ ≤ K.card := Finset.card_image_le

variable {permit : α → Bool} {slot : α → Option Nat} {f : κ → α} {cap : Nat}

/-- The slots that are taken. -/
def takenSlots (slot : α → Option Nat) (f : κ → α) (cap : Nat) : Finset Nat :=
  (Finset.range cap).filter fun i => ∃ k, slot (f k) = some i

omit [DecidableEq κ] in
/-- No more slots are taken than permits are out. -/
theorem card_taken_le (h : ∀ {k i}, slot (f k) = some i → permit (f k) = true) :
    (takenSlots slot f cap).card ≤ countOf permit f := by
  have hheld : ∀ i ∈ takenSlots slot f cap,
      ∃ k ∈ Finset.univ.filter fun k => permit (f k) = true, slot (f k) = some i := by
    intro i hi
    obtain ⟨k, hk⟩ := (Finset.mem_filter.1 hi).2
    exact ⟨k, Finset.mem_filter.2 ⟨Finset.mem_univ k, h hk⟩, hk⟩
  exact card_slots_le hheld

/-- With no more permits out than there are slots, a party with a permit and without a slot finds one
free. -/
theorem exists_free (h : ∀ {k i}, slot (f k) = some i → permit (f k) = true)
    (hcap : countOf permit f ≤ cap) {k : κ} (hk : permit (f k) = true) (hnone : slot (f k) = none) :
    ∃ i < cap, ∀ k', slot (f k') ≠ some i := by
  by_contra hall
  have hheld : ∀ i ∈ Finset.range cap,
      ∃ k' ∈ (Finset.univ.filter fun k' => permit (f k') = true).erase k, slot (f k') = some i := by
    intro i hi
    have hi' := Finset.mem_range.1 hi
    by_contra hfree
    refine hall ⟨i, hi', fun k' hk' => hfree ⟨k', ?_, hk'⟩⟩
    refine Finset.mem_erase.2 ⟨?_, Finset.mem_filter.2 ⟨Finset.mem_univ k', h hk'⟩⟩
    rintro rfl
    rw [hnone] at hk'
    cases hk'
  have hle := card_slots_le hheld
  have hmem : k ∈ Finset.univ.filter fun k' => permit (f k') = true :=
    Finset.mem_filter.2 ⟨Finset.mem_univ k, hk⟩
  rw [Finset.card_range, Finset.card_erase_of_mem hmem] at hle
  have hpos := Finset.card_pos.2 ⟨k, hmem⟩
  rw [countOf] at hcap
  omega

end Embedded

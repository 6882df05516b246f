import NumakerMA35D1.Lib.Bytes

/-!
# Running-offset layouts

Parts laid out one after another, in the order of a list, each where the one before it ends.
`startOf l len i` is the offset of part `i`. Two parts never overlap (`startOf_disjoint`), and the
non-empty parts all end below a bound exactly when the total length is below it
(`total_le_iff`).
-/

namespace Embedded

variable {ι : Type*} [DecidableEq ι] (len : ι → Nat)

/-- The offset of a part: the lengths of the parts before it. -/
def startOf : List ι → ι → Nat
  | [], _ => 0
  | j :: l, i => if i = j then 0 else len j + startOf l i

/-- The length of a layout. -/
def totalLen (l : List ι) : Nat := (l.map len).sum

variable {len} {l : List ι} {i j : ι}

theorem startOf_add_le (hi : i ∈ l) : startOf len l i + len i ≤ totalLen len l := by
  induction l with
  | nil => exact absurd hi List.not_mem_nil
  | cons a l ih =>
    rw [startOf, totalLen, List.map_cons, List.sum_cons]
    split
    · next h => rw [h, Nat.zero_add]; exact Nat.le_add_right ..
    · next h =>
      have := ih ((List.mem_cons.1 hi).resolve_left h)
      rw [totalLen] at this
      omega

theorem dvd_startOf {d : Nat} (h : ∀ i, d ∣ len i) : d ∣ startOf len l i := by
  induction l with
  | nil => exact dvd_zero d
  | cons a l ih =>
    rw [startOf]
    split
    · exact dvd_zero d
    · exact Nat.dvd_add (h a) ih

/-- Two parts of a layout do not overlap. -/
theorem startOf_disjoint (hi : i ∈ l) (hj : j ∈ l) (hne : i ≠ j) :
    startOf len l i + len i ≤ startOf len l j ∨ startOf len l j + len j ≤ startOf len l i := by
  induction l with
  | nil => exact absurd hi List.not_mem_nil
  | cons a l ih =>
    simp only [startOf]
    by_cases hia : i = a
    · left
      rw [if_pos hia, if_neg (fun h => hne (hia.trans h.symm)), hia]
      omega
    · by_cases hja : j = a
      · right
        rw [if_neg hia, if_pos hja, hja]
        omega
      · have := ih ((List.mem_cons.1 hi).resolve_left hia) ((List.mem_cons.1 hj).resolve_left hja)
        rw [if_neg hia, if_neg hja]
        omega

/-- The non-empty parts end below a bound exactly when the layout does. -/
theorem total_le_iff (hl : l.Nodup) {cap : Nat} :
    (∀ i ∈ l, len i ≠ 0 → startOf len l i + len i ≤ cap) ↔ totalLen len l ≤ cap := by
  constructor
  · intro h
    induction l generalizing cap with
    | nil => exact Nat.zero_le _
    | cons a l ih =>
      obtain ⟨ha, hl'⟩ := List.nodup_cons.1 hl
      have htail : ∀ i ∈ l, len i ≠ 0 → len a + (startOf len l i + len i) ≤ cap := by
        intro i hi hne
        have hia : i ≠ a := fun h => ha (h ▸ hi)
        have := h i (List.mem_cons_of_mem _ hi) hne
        rw [startOf, if_neg hia] at this
        omega
      have hhead : len a ≤ cap := by
        rcases Nat.eq_zero_or_pos (len a) with h0 | hpos
        · omega
        · have := h a List.mem_cons_self hpos.ne'
          rw [startOf, if_pos rfl] at this
          omega
      have hrest : totalLen len l ≤ cap - len a := ih hl' fun i hi hne => by
        have := htail i hi hne
        omega
      rw [totalLen, List.map_cons, List.sum_cons, ← totalLen]
      omega
  · intro h i hi _
    exact le_trans (startOf_add_le hi) h

end Embedded

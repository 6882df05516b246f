import NumakerMA35D1.Lib.Bytes

/-!
# A bus and the copies a DMA engine makes on it

A `Bus` is the memory behind a 32-bit bus and a record of the addresses written. An engine moves
elements of `w` bytes from one address to another, each address stepping by a stride
(`Bus.moveElements`). With strides of `w`, where the source and the destination do not overlap, the
range written is a copy (`copied_moveElements`).
Copies side by side are one copy (`Copied.append`).
-/

namespace Embedded

/-- Memory bytes and whether each address was written. -/
structure Bus where
  mem : BitVec 32 → Byte
  wrote : BitVec 32 → Bool

/-- `a` is one of the `n` addresses from `base` up, which may go round the end of memory. -/
def InRange (a base : BitVec 32) (n : Nat) : Prop := (a - base).toNat < n

instance (a base : BitVec 32) (n : Nat) : Decidable (InRange a base n) :=
  inferInstanceAs (Decidable (_ < _))

/-- No address is in both ranges of `n` addresses. -/
def NonOverlap (sa da : BitVec 32) (n : Nat) : Prop := ∀ a, InRange a sa n → ¬ InRange a da n

namespace Bus

/-- `w` bytes read at `sa`, then written at `da`. -/
def moveElement (w : Nat) (sa da : BitVec 32) (b : Bus) : Bus where
  mem a := if InRange a da w then b.mem (sa + (a - da)) else b.mem a
  wrote a := b.wrote a || decide (InRange a da w)

/-- The address after `k` strides. -/
def strided (a : BitVec 32) (stride k : Nat) : BitVec 32 := a + BitVec.ofNat 32 (k * stride)

/-- `count` elements of `w` bytes, one after another. -/
def moveElements (w : Nat) (sa da : BitVec 32) (ss ds : Nat) : (count : Nat) → Bus → Bus
  | 0, b => b
  | k + 1, b =>
    (moveElements w sa da ss ds k b).moveElement w (strided sa ss k) (strided da ds k)

end Bus

/-- The `n` bytes at `da` are written, with the bytes at `sa`, and nothing else is. -/
structure Copied (sa da : BitVec 32) (n : Nat) (b b' : Bus) : Prop where
  wrote : ∀ a, b'.wrote a = true ↔ b.wrote a = true ∨ InRange a da n
  data : ∀ a, InRange a da n → b'.mem a = b.mem (sa + (a - da))
  frame : ∀ a, ¬ InRange a da n → b'.mem a = b.mem a

section

variable {sa da a : BitVec 32} {w m n k : Nat} {b b' b'' : Bus}

@[simp] theorem not_inRange_zero : ¬ InRange a da 0 := Nat.not_lt_zero _

/-- A range cut in two. -/
theorem inRange_add (h : m + n ≤ 2 ^ 32) :
    InRange a da (m + n) ↔ InRange a da m ∨ InRange a (da + BitVec.ofNat 32 m) n := by
  have ha := a.isLt
  have hd := da.isLt
  simp only [InRange, BitVec.toNat_sub, BitVec.toNat_add, BitVec.toNat_ofNat]
  omega

/-- The second part of a range is not in the first. -/
theorem not_inRange_of_add (h : m + n ≤ 2 ^ 32) (ha : InRange a (da + BitVec.ofNat 32 m) n) :
    ¬ InRange a da m := by
  have hlt := a.isLt
  have hd := da.isLt
  simp only [InRange, BitVec.toNat_sub, BitVec.toNat_add, BitVec.toNat_ofNat] at ha ⊢
  omega

/-- An address of the second part of a range is as far from where the whole begins. -/
theorem add_sub_ofNat (sa da a : BitVec 32) (m : Nat) :
    sa + BitVec.ofNat 32 m + (a - (da + BitVec.ofNat 32 m)) = sa + (a - da) := by
  rw [← BitVec.sub_sub, BitVec.add_assoc]
  congr 1
  rw [BitVec.add_comm, BitVec.sub_add_cancel]

theorem add_sub_inRange (h : InRange a da n) : InRange (sa + (a - da)) sa n := by
  rw [InRange, BitVec.add_comm, BitVec.add_sub_cancel]
  exact h

theorem NonOverlap.mono (h : NonOverlap sa da n) (hm : m ≤ n) : NonOverlap sa da m :=
  fun a hs hd => h a (lt_of_lt_of_le hs hm) (lt_of_lt_of_le hd hm)

theorem Copied.refl : Copied sa da 0 b b where
  wrote a := by simp
  data a h := absurd h not_inRange_zero
  frame _ _ := rfl

/-- A copy and the copy next to it are one copy. -/
theorem Copied.append (h : Copied sa da m b b')
    (h' : Copied (sa + BitVec.ofNat 32 m) (da + BitVec.ofNat 32 m) n b' b'')
    (hn : m + n ≤ 2 ^ 32) (hno : NonOverlap sa da (m + n)) : Copied sa da (m + n) b b'' where
  wrote a := by
    rw [h'.wrote, h.wrote, inRange_add hn, or_assoc]
  data a ha := by
    rcases (inRange_add hn).1 ha with hfirst | hsecond
    · rw [h'.frame a (fun h2 => not_inRange_of_add hn h2 hfirst), h.data a hfirst]
    · rw [h'.data a hsecond, add_sub_ofNat]
      exact h.frame _ fun hd =>
        hno _ (add_sub_inRange ha) ((inRange_add hn).2 (.inl hd))
  frame a ha := by
    rw [inRange_add hn, not_or] at ha
    rw [h'.frame a ha.2, h.frame a ha.1]

namespace Bus

theorem copied_moveElement : Copied sa da w b (b.moveElement w sa da) where
  wrote a := by simp [moveElement]
  data a ha := if_pos ha
  frame a ha := if_neg ha

/-- Elements moved in one go, or in two. -/
theorem moveElements_add (ss ds j : Nat) :
    moveElements w sa da ss ds (k + j) b =
      moveElements w (strided sa ss k) (strided da ds k) ss ds j
        (moveElements w sa da ss ds k b) := by
  induction j with
  | zero => rfl
  | succ j ih =>
    have hs : ∀ (x : BitVec 32) (s : Nat), strided (strided x s k) s j = strided x s (k + j) := by
      intro x s
      rw [strided, strided, strided, BitVec.add_assoc, ← BitVec.ofNat_add, Nat.add_mul]
    rw [← Nat.add_assoc, moveElements, ih, moveElements, hs, hs]

/-- What was written stays so. -/
theorem wrote_mono {ss ds : Nat} (h : b.wrote a = true) :
    (moveElements w sa da ss ds k b).wrote a = true := by
  induction k with
  | zero => exact h
  | succ k ih => exact Bool.or_eq_true_iff.2 (.inl ih)

/-- The addresses of an element are written. -/
theorem wrote_of_element {ss ds i : Nat} (hi : i < k) (ha : InRange a (strided da ds i) w) :
    (moveElements w sa da ss ds k b).wrote a = true := by
  obtain ⟨j, rfl⟩ := Nat.exists_eq_add_of_lt hi
  rw [Nat.add_assoc, Nat.add_comm j 1, ← Nat.add_assoc, moveElements_add]
  exact wrote_mono (Bool.or_eq_true_iff.2 (.inr (decide_eq_true ha)))

/-- Elements moved between ranges that do not overlap are a copy. -/
theorem copied_moveElements (h : k * w ≤ 2 ^ 32) (hno : NonOverlap sa da (k * w)) :
    Copied sa da (k * w) b (moveElements w sa da w w k b) := by
  induction k with
  | zero =>
    rw [Nat.zero_mul]
    exact Copied.refl
  | succ k ih =>
    rw [Nat.add_mul, Nat.one_mul] at h hno ⊢
    exact (ih (by omega) (hno.mono (by omega))).append copied_moveElement h hno

end Bus

end

end Embedded

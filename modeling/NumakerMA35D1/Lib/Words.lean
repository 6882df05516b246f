import NumakerMA35D1.Lib.Bytes

/-!
# Word-addressed memory

A memory of 32-bit words at byte addresses, as a peripheral's message RAM is: loads, stores, the
forward copy loop and the clearing of a range, with the lemmas that say which word each of them
changes. `byteOfWord` and `wordOfBytes` are the two views of a C union of words and bytes.
-/

namespace Embedded

/-! ## Octets of a word -/

/-- Octet `i` of a word, least significant first. -/
def byteOfWord (w : BitVec 32) (i : Nat) : Byte := (w >>> (8 * i)).setWidth 8

/-- The word of four octets. -/
def wordOfBytes (b₀ b₁ b₂ b₃ : Byte) : BitVec 32 := BitVec.ofNat 32 (ofLeBytes [b₀, b₁, b₂, b₃])

theorem byteOfWord_toNat (w : BitVec 32) (i : Nat) :
    (byteOfWord w i).toNat = w.toNat / 2 ^ (8 * i) % 256 := by
  rw [byteOfWord, BitVec.toNat_setWidth, BitVec.toNat_ushiftRight, Nat.shiftRight_eq_div_pow]

theorem byteOfWord_wordOfBytes (b₀ b₁ b₂ b₃ : Byte) :
    byteOfWord (wordOfBytes b₀ b₁ b₂ b₃) 0 = b₀ ∧ byteOfWord (wordOfBytes b₀ b₁ b₂ b₃) 1 = b₁ ∧
      byteOfWord (wordOfBytes b₀ b₁ b₂ b₃) 2 = b₂ ∧ byteOfWord (wordOfBytes b₀ b₁ b₂ b₃) 3 = b₃ := by
  have h₀ := b₀.isLt
  have h₁ := b₁.isLt
  have h₂ := b₂.isLt
  have h₃ := b₃.isLt
  refine ⟨?_, ?_, ?_, ?_⟩ <;>
  · apply BitVec.eq_of_toNat_eq
    simp only [byteOfWord_toNat, wordOfBytes, ofLeBytes, BitVec.toNat_ofNat]
    omega

/-! ## Memory -/

/-- Words by word index; addresses are in bytes. -/
abbrev WordMem := Nat → BitVec 32

namespace WordMem

/-- The word at a byte address. -/
def load (m : WordMem) (addr : Nat) : BitVec 32 := m (addr / 4)

/-- The word at a byte address replaced. -/
def store (m : WordMem) (addr : Nat) (v : BitVec 32) : WordMem := Function.update m (addr / 4) v

/-- `n` words stored upward from an address, in that order. -/
def storeWords (m : WordMem) (addr : Nat) (f : Nat → BitVec 32) : Nat → WordMem
  | 0 => m
  | n + 1 => (m.storeWords addr f n).store (addr + 4 * n) (f n)

/-- `len` bytes from an address on set to zero. -/
def clear (m : WordMem) (addr len : Nat) : WordMem := fun w =>
  if addr / 4 ≤ w ∧ w < (addr + len) / 4 then 0#32 else m w

variable {m : WordMem} {addr : Nat}

@[simp] theorem load_store (v : BitVec 32) : (m.store addr v).load addr = v := by
  simp [load, store]

theorem load_store_ne {addr' : Nat} {v : BitVec 32} (h : addr' / 4 ≠ addr / 4) :
    (m.store addr v).load addr' = m.load addr' := by
  simp [load, store, h]

theorem load_storeWords_lt {f : Nat → BitVec 32} {n i : Nat} (h : i < n) :
    (m.storeWords addr f n).load (addr + 4 * i) = f i := by
  induction n with
  | zero => exact absurd h (Nat.not_lt_zero i)
  | succ n ih =>
    rcases Nat.lt_succ_iff_lt_or_eq.1 h with hlt | rfl
    · rw [storeWords, load_store_ne (by omega), ih hlt]
    · exact load_store _

theorem load_storeWords_below {f : Nat → BitVec 32} {n addr' : Nat} (h : addr' / 4 < addr / 4) :
    (m.storeWords addr f n).load addr' = m.load addr' := by
  induction n with
  | zero => rfl
  | succ n ih => rw [storeWords, load_store_ne (by omega), ih]

theorem load_storeWords_above {f : Nat → BitVec 32} {n addr' : Nat}
    (h : addr / 4 + n ≤ addr' / 4) : (m.storeWords addr f n).load addr' = m.load addr' := by
  induction n with
  | zero => rfl
  | succ n ih => rw [storeWords, load_store_ne (by omega), ih (by omega)]

theorem clear_of_mem {len w : Nat} (h : addr / 4 ≤ w ∧ w < (addr + len) / 4) :
    m.clear addr len w = 0#32 := if_pos h

/-- Clearing a range keeps a zero. -/
theorem clear_of_eq_zero {len w : Nat} (h : m w = 0#32) : m.clear addr len w = 0#32 := by
  rw [clear, h, ite_self]

end WordMem

end Embedded

import Mathlib

/-!
# Bytes in little-endian order

Numbers written as a fixed number of bytes, least significant first, and read back, and the
half-open slices of a byte string a parser reads. `ofLeBytes_leBytes` is the round trip at a
width the number fits, `slice_append_right` and `slice_left` read one field of a concatenation.
-/

namespace Embedded

/-- A byte of a file or of memory. -/
abbrev Byte := BitVec 8

/-- The `k` low bytes of `v`, least significant first. -/
def leBytes : Nat → Nat → List Byte
  | 0, _ => []
  | k + 1, v => BitVec.ofNat 8 v :: leBytes k (v / 256)

/-- The number whose little-endian bytes are given. -/
def ofLeBytes : List Byte → Nat
  | [] => 0
  | b :: bs => b.toNat + 256 * ofLeBytes bs

/-- The bytes `[a, b)` of `l`, clipped to its end. -/
def slice (l : List Byte) (a b : Nat) : List Byte := (l.drop a).take (b - a)

/-! ## Numbers -/

@[simp] theorem leBytes_length (k v : Nat) : (leBytes k v).length = k := by
  induction k generalizing v with
  | zero => rfl
  | succ k ih => simp [leBytes, ih]

/-- Reading back `k` bytes of `v` gives `v` modulo `256 ^ k`. -/
theorem ofLeBytes_leBytes_mod (k v : Nat) : ofLeBytes (leBytes k v) = v % 256 ^ k := by
  induction k generalizing v with
  | zero => simp [leBytes, ofLeBytes, Nat.mod_one]
  | succ k ih =>
    have hsplit : v % 256 ^ (k + 1) = v % 256 + 256 * (v / 256 % 256 ^ k) := by
      rw [pow_succ', Nat.mod_mul]
    rw [leBytes, ofLeBytes, ih, BitVec.toNat_ofNat, hsplit]

/-- The round trip of a number that fits in `k` bytes. -/
theorem ofLeBytes_leBytes {k v : Nat} (h : v < 256 ^ k) : ofLeBytes (leBytes k v) = v := by
  rw [ofLeBytes_leBytes_mod, Nat.mod_eq_of_lt h]

/-- `n` bytes hold a number below `256 ^ n`. -/
theorem ofLeBytes_lt (bs : List Byte) : ofLeBytes bs < 256 ^ bs.length := by
  induction bs with
  | nil => simp [ofLeBytes]
  | cons b bs ih =>
    have hb := b.isLt
    simp only [ofLeBytes, List.length_cons, pow_succ']
    omega

/-! ## Slices -/

@[simp] theorem slice_length (l : List Byte) (a b : Nat) :
    (slice l a b).length = min (b - a) (l.length - a) := by
  simp [slice]

/-- A slice that starts `n` bytes into `l` is a slice of `l` without its first `n` bytes. -/
theorem slice_drop (l : List Byte) (n a b : Nat) : slice (l.drop n) a b = slice l (n + a) (n + b) := by
  rw [slice, slice, List.drop_drop, Nat.add_sub_add_left]

/-- A slice past the left part of a concatenation reads the right part. -/
theorem slice_append_right {l r : List Byte} {a b : Nat} (h : l.length ≤ a) :
    slice (l ++ r) a b = slice r (a - l.length) (b - l.length) := by
  rw [slice, slice, List.drop_append, List.drop_eq_nil_of_le h, List.nil_append]
  congr 1
  omega

/-- The slice of the whole left part of a concatenation. -/
theorem slice_left {l r : List Byte} {b : Nat} (h : b = l.length) : slice (l ++ r) 0 b = l := by
  subst h
  simp [slice]

/-- The bytes `[a, a + bs.length)` of `l` replaced by `bs`. -/
def setSlice (l : List Byte) (a : Nat) (bs : List Byte) : List Byte :=
  l.take a ++ bs ++ l.drop (a + bs.length)

/-- Replacing the middle part of a concatenation by as many bytes. -/
theorem setSlice_append {pre mid post bs : List Byte} {a : Nat} (ha : a = pre.length)
    (hm : mid.length = bs.length) :
    setSlice (pre ++ (mid ++ post)) a bs = pre ++ (bs ++ post) := by
  subst ha
  rw [setSlice, List.take_left, ← List.append_assoc pre mid post, ← hm, ← List.length_append,
    List.drop_left, List.append_assoc]

end Embedded

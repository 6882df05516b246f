import NumakerMA35D1.Lib.Bytes
import NumakerMA35D1.Lib.Outcome

/-!
# Byte buffers in a 32-bit address space

A `Buffer` is a byte string a program holds at an address: the structure carries that the address
is not null and that the bytes end inside the address space. Loads through a pointer are checked,
so a read outside the buffer is the `Fault` it is in the program and not a default value.
`Buffer.read_at` is the load at an offset that lies inside.
-/

namespace Embedded

/-- What stops a program that uses memory it does not own. -/
inductive Fault
  /-- An access to `n` bytes at `p`, not all of them inside the object `p` points into. -/
  | outOfBounds (p : BitVec 32) (n : Nat)
deriving DecidableEq, Repr

/-- Bytes at a non-null address of a 32-bit address space. -/
structure Buffer where
  base : BitVec 32
  data : List Byte
  base_pos : 0 < base.toNat
  fits : base.toNat + data.length ≤ 2 ^ 32

namespace Buffer

/-- The `n` bytes at `p`. -/
def read (b : Buffer) (p : BitVec 32) (n : Nat) : Except Fault (List Byte) :=
  if b.base.toNat ≤ p.toNat ∧ p.toNat + n ≤ b.base.toNat + b.data.length then
    .ok (slice b.data (p.toNat - b.base.toNat) (p.toNat - b.base.toNat + n))
  else
    .error (.outOfBounds p n)

/-- The bytes from `p` to the end of the buffer; none when `p` is not in it. -/
def tail (b : Buffer) (p : BitVec 32) : List Byte :=
  if b.base.toNat ≤ p.toNat then b.data.drop (p.toNat - b.base.toNat) else []

/-- A little-endian 32-bit load. -/
def readU32 (b : Buffer) (p : BitVec 32) : Except Fault (BitVec 32) :=
  (b.read p 4).map fun bs => BitVec.ofNat 32 (ofLeBytes bs)

/-- A little-endian 64-bit load. -/
def readU64 (b : Buffer) (p : BitVec 32) : Except Fault (BitVec 64) :=
  (b.read p 8).map fun bs => BitVec.ofNat 64 (ofLeBytes bs)

/-- The pointer `off` bytes into the buffer. -/
def ptr (b : Buffer) (off : Nat) : BitVec 32 := b.base + BitVec.ofNat 32 off

variable {b : Buffer}

theorem ptr_toNat {off : Nat} (h : b.base.toNat + off < 2 ^ 32) :
    (b.ptr off).toNat = b.base.toNat + off := by
  simp only [ptr, BitVec.toNat_add, BitVec.toNat_ofNat]
  omega

@[simp] theorem ptr_zero : b.ptr 0 = b.base := by simp [ptr]

theorem ptr_add (off n : Nat) : b.ptr off + BitVec.ofNat 32 n = b.ptr (off + n) := by
  rw [ptr, ptr, BitVec.ofNat_add, BitVec.add_assoc]

/-- A load at an offset reads the slice there. -/
theorem read_at {off n : Nat} (h : off + n ≤ b.data.length) (hn : 0 < n) :
    b.read (b.ptr off) n = .ok (slice b.data off (off + n)) := by
  have hfits := b.fits
  have hp : (b.ptr off).toNat = b.base.toNat + off := ptr_toNat (by omega)
  rw [read, if_pos ⟨by omega, by omega⟩, hp, Nat.add_sub_cancel_left]

/-- A load that would end past the buffer faults, also where its address wraps. -/
theorem read_past {off n : Nat} (h : b.data.length < off + n) (ho : off < 2 ^ 32) :
    b.read (b.ptr off) n = .error (.outOfBounds (b.ptr off) n) := by
  have hbase := b.base.isLt
  rw [read, if_neg]
  rintro ⟨hlo, hhi⟩
  simp only [ptr, BitVec.toNat_add, BitVec.toNat_ofNat, Nat.mod_eq_of_lt ho] at hlo hhi
  omega

theorem readU32_at {off : Nat} (h : off + 4 ≤ b.data.length) :
    b.readU32 (b.ptr off) = .ok (BitVec.ofNat 32 (ofLeBytes (slice b.data off (off + 4)))) := by
  rw [readU32, read_at h (by decide)]
  rfl

theorem readU32_past {off : Nat} (h : b.data.length < off + 4) (ho : off < 2 ^ 32) :
    b.readU32 (b.ptr off) = .error (.outOfBounds (b.ptr off) 4) := by
  rw [readU32, read_past h ho]
  rfl

theorem readU64_at {off : Nat} (h : off + 8 ≤ b.data.length) :
    b.readU64 (b.ptr off) = .ok (BitVec.ofNat 64 (ofLeBytes (slice b.data off (off + 8)))) := by
  rw [readU64, read_at h (by decide)]
  rfl

/-- The bytes from an offset on. At the end of memory the pointer wraps to null, which is in no
buffer, and no bytes are left. -/
theorem tail_at {off : Nat} (h : off ≤ b.data.length) : b.tail (b.ptr off) = b.data.drop off := by
  have hfits := b.fits
  have hpos := b.base_pos
  rcases Nat.lt_or_ge (b.base.toNat + off) (2 ^ 32) with hlt | hge
  · rw [tail, ptr_toNat hlt, if_pos (by omega), Nat.add_sub_cancel_left]
  · have hzero : (b.ptr off).toNat = 0 := by
      simp only [ptr, BitVec.toNat_add, BitVec.toNat_ofNat]
      omega
    rw [tail, hzero, if_neg (by omega), List.drop_eq_nil_of_le (by omega)]

theorem length_lt : b.data.length < 2 ^ 32 := by
  have hfits := b.fits
  have hpos := b.base_pos
  omega

end Buffer

end Embedded

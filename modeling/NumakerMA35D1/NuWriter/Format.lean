import NumakerMA35D1.Lib.Align
import NumakerMA35D1.Lib.Buffer

/-!
# The pack file

What a NuWriter pack file means as a byte string, apart from the programs that write and read it:
a 16-byte header, then for every image a 24-byte child header, the data, and padding up to the
next multiple of 16. `childOffsets` is where the children start and `ChildrenInside` says that
header, data and padding of each lie in the file.

Reference: `nuwriter.c:55 S_NUWRITER_PACK_HDR`, `nuwriter.c:64 S_NUWRITER_PACK_CHILD`.
-/

namespace NumakerMA35D1.NuWriter

open Embedded

/-- The marker word, the bytes `20 54 56 4E`. Reference: `nuwriter.c:76 NVT_MARKER`. -/
def nvtMarker : BitVec 32 := 0x4e565420#32

/-- The alignment of a child. Reference: `nuwriter.c:74 IMAGE_BOUNDARY_SIZE`. -/
def imageBoundarySize : Nat := 16

/-- `sizeof(S_NUWRITER_PACK_HDR)`: marker, CRC, image count and a reserved word. -/
def packHdrSize : Nat := 16

/-- `sizeof(S_NUWRITER_PACK_CHILD)`: length and flash address in 64 bits, type, reserved word. -/
def packChildSize : Nat := 24

variable (d : List Byte)

/-- The 32-bit field at an offset. -/
def u32At (o : Nat) : Nat := ofLeBytes (slice d o (o + 4))

/-- The 64-bit field at an offset. -/
def u64At (o : Nat) : Nat := ofLeBytes (slice d o (o + 8))

/-- `m_ui32CRC32` of the file. -/
def storedCrc : Nat := u32At d 4

/-- `m_ui32TotalImageCount` of the file. -/
def totalImageCount : Nat := u32At d 8

/-- `m_ui64ImageLength` of the child at `o`. -/
def imageLength (o : Nat) : Nat := u64At d o

/-- `m_ui64FlashAddress` of the child at `o`. -/
def flashAddress (o : Nat) : Nat := u64At d (o + 8)

/-- `m_ui32ImageType` of the child at `o`. -/
def imageType (o : Nat) : Nat := u32At d (o + 16)

/-- The data of the child at `o`. -/
def imageData (o : Nat) : List Byte :=
  slice d (o + packChildSize) (o + packChildSize + imageLength d o)

/-- Where the child after the one at `o` starts. -/
def nextChild (o : Nat) : Nat :=
  roundUp (o + packChildSize + imageLength d o) imageBoundarySize

/-- The offsets of `n` children from `o` on. -/
def childOffsets : Nat → Nat → List Nat
  | 0, _ => []
  | n + 1, o => o :: childOffsets n (nextChild d o)

/-- Header, data and padding of each of the `n` children from `o` on lie in the file. -/
def ChildrenInside : Nat → Nat → Prop
  | 0, _ => True
  | n + 1, o => nextChild d o ≤ d.length ∧ ChildrenInside n (nextChild d o)

instance : ∀ n o, Decidable (ChildrenInside d n o)
  | 0, _ => isTrue trivial
  | n + 1, o =>
    have := instDecidableChildrenInside n (nextChild d o)
    inferInstanceAs (Decidable (_ ∧ _))

variable {d}

theorem u32At_lt (o : Nat) : u32At d o < 2 ^ 32 := by
  refine Nat.lt_of_lt_of_le (ofLeBytes_lt _) ?_
  rw [show 2 ^ 32 = 256 ^ 4 by decide]
  apply Nat.pow_le_pow_right (by decide)
  rw [slice_length, Nat.add_sub_cancel_left]
  exact Nat.min_le_left _ _

theorem u64At_lt (o : Nat) : u64At d o < 2 ^ 64 := by
  refine Nat.lt_of_lt_of_le (ofLeBytes_lt _) ?_
  rw [show 2 ^ 64 = 256 ^ 8 by decide]
  apply Nat.pow_le_pow_right (by decide)
  rw [slice_length, Nat.add_sub_cancel_left]
  exact Nat.min_le_left _ _

theorem imageType_lt (o : Nat) : imageType d o < 2 ^ 32 := u32At_lt _

theorem flashAddress_lt (o : Nat) : flashAddress d o < 2 ^ 64 := u64At_lt _

theorem imageLength_lt (o : Nat) : imageLength d o < 2 ^ 64 := u64At_lt _

theorem totalImageCount_lt : totalImageCount d < 2 ^ 32 := u32At_lt _

theorem le_nextChild (o : Nat) : o + packChildSize + imageLength d o ≤ nextChild d o :=
  le_roundUp _ (by decide)

theorem nextChild_aligned (o : Nat) : imageBoundarySize ∣ nextChild d o := dvd_roundUp _ _

/-- The header of every child is in the file. -/
theorem ChildrenInside.of_mem {n o : Nat} (h : ChildrenInside d n o) {c : Nat}
    (hc : c ∈ childOffsets d n o) : c + packChildSize + imageLength d c ≤ d.length := by
  induction n generalizing o with
  | zero => cases hc
  | succ n ih =>
    obtain ⟨hin, hrest⟩ := h
    rcases List.mem_cons.1 hc with rfl | hc
    · exact Nat.le_trans (le_nextChild _) hin
    · exact ih hrest hc

/-- Every child takes at least its header, so a file holds only so many. -/
theorem ChildrenInside.count_le {n o : Nat} (h : ChildrenInside d n o) (ho : o ≤ d.length) :
    o + packChildSize * n ≤ d.length := by
  induction n generalizing o with
  | zero => simpa using ho
  | succ n ih =>
    obtain ⟨hin, hrest⟩ := h
    have := ih hrest hin
    have := le_nextChild (d := d) o
    rw [Nat.mul_succ]
    omega

end NumakerMA35D1.NuWriter

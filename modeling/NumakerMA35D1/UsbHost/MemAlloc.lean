import Mathlib

/-!
# The pool of hardware descriptors

The descriptors of the host controllers are units of one pool. The OHCI allocators look for a free
unit from the first on; the EHCI ones from the one after `_sidx`, the unit given out last, up to but
not including `_sidx` itself. An iTD takes two adjacent units. What the allocators write into the
unit is modelled with the driver that uses it.

Reference: `mem_alloc.c`, `config.h:118 MEM_POOL_UNIT_NUM`.
-/

namespace NumakerMA35D1.UsbHost

/-- Reference: `config.h:118 MEM_POOL_UNIT_NUM`. -/
abbrev MEM_POOL_UNIT_NUM : Nat := 64

/-- Reference: `config.h:117 MEM_POOL_UNIT_SIZE`. -/
def MEM_POOL_UNIT_SIZE : BitVec 32 := 256

instance : NeZero MEM_POOL_UNIT_NUM := ⟨by decide⟩

/-- The index of a unit. -/
abbrev Unit64 := Fin MEM_POOL_UNIT_NUM

/-- Units are equal when the test says so. -/
scoped instance lawfulUnits : LawfulBEq Unit64 := inferInstance

/-- Reference: `mem_alloc.c:29 _unit_used`, `mem_alloc.c:33 _mem_pool_used`, `mem_alloc.c:41 _sidx`. -/
structure MemPool where
  unitUsed : Unit64 → Bool
  memPoolUsed : Int
  sidx : Unit64

/-- The pool of a library set up. Reference: `mem_alloc.c:47 usbh_memory_init`. -/
def MemPool.init : MemPool where
  unitUsed _ := false
  memPoolUsed := 0
  sidx := 0

namespace MemPool

variable (s : MemPool) (i : Unit64)

/-- A unit marked used and counted. -/
def take : MemPool :=
  { s with unitUsed := Function.update s.unitUsed i true, memPoolUsed := s.memPoolUsed + 1 }

/-- A unit marked free and counted. -/
def give : MemPool :=
  { s with unitUsed := Function.update s.unitUsed i false, memPoolUsed := s.memPoolUsed - 1 }

/-- The units an EHCI allocator looks at, in its order. Reference: `mem_alloc.c:322
alloc_ehci_QH`. -/
def ring (sidx : Unit64) : List Unit64 :=
  (List.range (MEM_POOL_UNIT_NUM - 1)).map fun k => Fin.ofNat MEM_POOL_UNIT_NUM (sidx + 1 + k)

/-- Reference: `mem_alloc.c:233 alloc_ohci_ED`. -/
def allocOhci : Option Unit64 × MemPool :=
  match (List.finRange MEM_POOL_UNIT_NUM).find? fun i => !s.unitUsed i with
  | some i => (some i, s.take i)
  | none => (none, s)

/-- Reference: `mem_alloc.c:317 alloc_ehci_QH`. -/
def allocEhci : Option Unit64 × MemPool :=
  match (ring s.sidx).find? fun i => !s.unitUsed i with
  | some i => (some i, { s.take i with sidx := i })
  | none => (none, s)

/-- Reference: `mem_alloc.c:413 alloc_ehci_iTD`. -/
def allocEhciITD : Option Unit64 × MemPool :=
  match (ring s.sidx).find? fun i =>
      !decide (i.val + 2 ≥ MEM_POOL_UNIT_NUM) && (!s.unitUsed i && !s.unitUsed (i + 1)) with
  | some i => (some i, { (s.take i).take (i + 1) with sidx := i + 1 })
  | none => (none, s)

/-- The address of a unit in the pool at `base`. Reference: `mem_alloc.c:28 _mem_pool`. -/
def unitAddr (base : BitVec 32) (i : Unit64) : BitVec 32 :=
  base + MEM_POOL_UNIT_SIZE * BitVec.ofNat 32 i

/-- Reference: `mem_alloc.c:253 free_ohci_ED`. -/
def free (base ptr : BitVec 32) : MemPool :=
  match (List.finRange MEM_POOL_UNIT_NUM).find? fun i => decide (unitAddr base i = ptr) with
  | some i => s.give i
  | none => s

/-- Reference: `mem_alloc.c:439 free_ehci_iTD`. -/
def freeITD (base ptr : BitVec 32) : MemPool :=
  match (List.finRange MEM_POOL_UNIT_NUM).find? fun i =>
      decide (i.val + 1 < MEM_POOL_UNIT_NUM) && decide (unitAddr base i = ptr) with
  | some i => (s.give i).give (i + 1)
  | none => s

end MemPool

/-! ## The ten functions -/

/-- The kinds of descriptors. Reference: `ohci.h ED_T`, `ehci.h:110 QH_T`. -/
inductive DescKind
  | ED | TD | QH | qTD | iTD | siTD
deriving DecidableEq

/-- The allocator of each kind. Reference: `mem_alloc.c:233 alloc_ohci_ED`, `mem_alloc.c:272
alloc_ohci_TD`, `mem_alloc.c:317 alloc_ehci_QH`, `mem_alloc.c:366 alloc_ehci_qTD`,
`mem_alloc.c:413 alloc_ehci_iTD`, `mem_alloc.c:459 alloc_ehci_siTD`. -/
def MemPool.alloc (s : MemPool) : DescKind → Option Unit64 × MemPool
  | .ED | .TD => s.allocOhci
  | .QH | .qTD | .siTD => s.allocEhci
  | .iTD => s.allocEhciITD

/-- The release of each kind. Reference: `mem_alloc.c:253 free_ohci_ED`, `mem_alloc.c:294
free_ohci_TD`, `mem_alloc.c:347 free_ehci_QH`, `mem_alloc.c:393 free_ehci_qTD`, `mem_alloc.c:439
free_ehci_iTD`, `mem_alloc.c:481 free_ehci_siTD`. -/
def MemPool.release (s : MemPool) (base ptr : BitVec 32) : DescKind → MemPool
  | .iTD => s.freeITD base ptr
  | _ => s.free base ptr

/-! ## What the searches find -/

namespace MemPool

variable {s s' : MemPool} {i u : Unit64} {base ptr : BitVec 32}

@[simp] theorem take_unitUsed (s : MemPool) (i j : Unit64) :
    (s.take i).unitUsed j = if j = i then true else s.unitUsed j :=
  Function.update_apply ..

@[simp] theorem give_unitUsed (s : MemPool) (i j : Unit64) :
    (s.give i).unitUsed j = if j = i then false else s.unitUsed j :=
  Function.update_apply ..

@[simp] theorem take_sidx (s : MemPool) (i : Unit64) : (s.take i).sidx = s.sidx := rfl
@[simp] theorem give_sidx (s : MemPool) (i : Unit64) : (s.give i).sidx = s.sidx := rfl

/-- The ring leaves out the unit it starts behind. -/
theorem mem_ring {sidx : Unit64} : i ∈ ring sidx ↔ i ≠ sidx := by
  have hi : i.val < 64 := i.isLt
  have hs : sidx.val < 64 := sidx.isLt
  rw [ring, List.mem_map]
  constructor
  · rintro ⟨k, hk, rfl⟩ heq
    have hk : k < 63 := List.mem_range.1 hk
    have hval : (sidx.val + 1 + k) % 64 = sidx.val := congrArg Fin.val heq
    omega
  · intro hne
    have hne : i.val ≠ sidx.val := mt Fin.ext hne
    have hk : (i.val + 63 - sidx.val) % 64 < 63 := by omega
    refine ⟨(i.val + 63 - sidx.val) % 64, List.mem_range.2 hk, Fin.ext ?_⟩
    show (sidx.val + 1 + (i.val + 63 - sidx.val) % 64) % 64 = i.val
    omega

/-- An allocator that gives out a unit found it free. -/
theorem allocOhci_some (h : s.allocOhci = (some u, s')) :
    s.unitUsed u = false ∧ s' = s.take u := by
  rw [allocOhci] at h
  split at h
  · rename_i i hfind
    cases h
    exact ⟨by simpa using List.find?_some hfind, rfl⟩
  · cases h

theorem allocEhci_some (h : s.allocEhci = (some u, s')) :
    s.unitUsed u = false ∧ u ≠ s.sidx ∧ s' = { s.take u with sidx := u } := by
  rw [allocEhci] at h
  split at h
  · rename_i i hfind
    cases h
    exact ⟨by simpa using List.find?_some hfind, mem_ring.1 (List.mem_of_find?_eq_some hfind), rfl⟩
  · cases h

theorem allocEhciITD_some (h : s.allocEhciITD = (some u, s')) :
    s.unitUsed u = false ∧ s.unitUsed (u + 1) = false ∧ u.val + 2 < MEM_POOL_UNIT_NUM ∧
      s' = { (s.take u).take (u + 1) with sidx := u + 1 } := by
  rw [allocEhciITD] at h
  split at h
  · rename_i i hfind
    cases h
    have hfound := List.find?_some hfind
    simp only [Bool.and_eq_true, Bool.not_eq_true', decide_eq_false_iff_not, not_le] at hfound
    exact ⟨hfound.2.1, hfound.2.2, hfound.1, rfl⟩
  · cases h

end MemPool

end NumakerMA35D1.UsbHost

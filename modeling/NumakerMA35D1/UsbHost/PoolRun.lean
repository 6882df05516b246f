import NumakerMA35D1.UsbHost.MemAlloc
import NumakerMA35D1.Lib.Run

/-!
# Every history of the descriptor pool

`memPool_run`: in every state that allocations and releases lead to, as long as each meets `SafeOp`,
no two live descriptors share a unit and the count is the number of units marked used; and a call
from there does what it should exactly when it meets `SafeOp`. An EHCI allocation fails with a free
unit in the pool when that unit is the one given out last, one of an iTD also when the only free
pair is the last one of the pool; a release does not look whether its unit is in use.
-/

namespace NumakerMA35D1.UsbHost

open Embedded

/-- A descriptor: its kind and its first unit. -/
structure Descriptor where
  kind : DescKind
  unit : Unit64
deriving DecidableEq

/-- The units of a descriptor. -/
def Descriptor.Covers (d : Descriptor) (i : Unit64) : Prop :=
  i = d.unit ∨ d.kind = .iTD ∧ i = d.unit + 1

/-- Two descriptors without a common unit. -/
def Descriptor.Apart (d d' : Descriptor) : Prop := ∀ i, d.Covers i → ¬ d'.Covers i

/-- The units marked used. -/
def MemPool.usedUnits (s : MemPool) : Finset Unit64 := Finset.univ.filter (s.unitUsed · = true)

/-- The pool and the descriptors that live in it fit. -/
structure PoolRight (s : MemPool) (live : List Descriptor) : Prop where
  apart : live.Pairwise Descriptor.Apart
  count : s.memPoolUsed = s.usedUnits.card
  marked : ∀ {d i}, d ∈ live → d.Covers i → s.unitUsed i = true
  inside : ∀ {d}, d ∈ live → d.kind = .iTD → d.unit.val + 1 < MEM_POOL_UNIT_NUM

/-- A call on the pool. -/
inductive PoolOp
  | alloc (k : DescKind)
  | free (k : DescKind) (ptr : BitVec 32)

/-- The descriptor a pointer is released as. -/
def Names (base ptr : BitVec 32) (k : DescKind) (d : Descriptor) : Prop :=
  d.kind = k ∧ MemPool.unitAddr base d.unit = ptr

instance (base ptr : BitVec 32) (k : DescKind) (d : Descriptor) : Decidable (Names base ptr k d) :=
  inferInstanceAs (Decidable (_ ∧ _))

/-- One call, with the descriptors live before and after. -/
def poolStep (base : BitVec 32) (s : MemPool × List Descriptor) (op : PoolOp)
    (s' : MemPool × List Descriptor) : Prop :=
  match op with
  | .alloc k =>
    s' = ((s.1.alloc k).2, ((s.1.alloc k).1.map (Descriptor.mk k)).toList ++ s.2)
  | .free k ptr =>
    s' = (s.1.release base ptr k, s.2.filter fun d => ¬ Names base ptr k d)

/-- There is a free unit, for an iTD two adjacent ones. -/
def HasRoom (s : MemPool) : DescKind → Prop
  | .iTD => ∃ i : Unit64, i.val + 1 < MEM_POOL_UNIT_NUM ∧ s.unitUsed i = false ∧
      s.unitUsed (i + 1) = false
  | _ => ∃ i, s.unitUsed i = false

/-- What a call should do: an allocation succeeds when there is room, and the release of what is not
allocated changes nothing. -/
def CallRight (base : BitVec 32) (s : MemPool × List Descriptor) : PoolOp → Prop
  | .alloc k => (s.1.alloc k).1.isSome ↔ HasRoom s.1 k
  | .free k ptr => (∀ d ∈ s.2, ¬ Names base ptr k d) → s.1.release base ptr k = s.1

/-- The calls that do so: an EHCI allocation that has room has it elsewhere than at the unit given
out last (and, for an iTD, not in the last pair only), and a release is of a live descriptor or of
no unit at all. -/
def SafeOp (base : BitVec 32) (s : MemPool × List Descriptor) : PoolOp → Prop
  | .alloc .ED | .alloc .TD => True
  | .alloc .iTD => HasRoom s.1 .iTD → ∃ i : Unit64, i ≠ s.1.sidx ∧ i.val + 2 < MEM_POOL_UNIT_NUM ∧
      s.1.unitUsed i = false ∧ s.1.unitUsed (i + 1) = false
  | .alloc _ => (∃ i, s.1.unitUsed i = false) → ∃ i ≠ s.1.sidx, s.1.unitUsed i = false
  | .free k ptr => (∃ d ∈ s.2, Names base ptr k d) ∨
      ∀ i : Unit64, (k = .iTD → i.val + 1 < MEM_POOL_UNIT_NUM) → MemPool.unitAddr base i ≠ ptr

/-! ## Single calls -/

namespace MemPool

variable {s : MemPool} {i : Unit64} {base ptr : BitVec 32} {k : DescKind}

theorem unitAddr_injective (base : BitVec 32) : Function.Injective (unitAddr base) := by
  intro i j h
  have hi : i.val < 64 := i.isLt
  have hj : j.val < 64 := j.isLt
  have hmul : MEM_POOL_UNIT_SIZE * BitVec.ofNat 32 i = MEM_POOL_UNIT_SIZE * BitVec.ofNat 32 j :=
    add_left_cancel h
  have hval := congrArg BitVec.toNat hmul
  have hsize : MEM_POOL_UNIT_SIZE.toNat = 256 := rfl
  rw [BitVec.toNat_mul, BitVec.toNat_mul, BitVec.toNat_ofNat, BitVec.toNat_ofNat, hsize] at hval
  exact Fin.ext (by omega)

theorem usedUnits_take (s : MemPool) (i : Unit64) :
    (s.take i).usedUnits = insert i s.usedUnits := by
  ext j
  simp only [usedUnits, Finset.mem_filter, Finset.mem_univ, true_and, take_unitUsed,
    Finset.mem_insert]
  split
  · simp_all
  · simp_all

theorem usedUnits_give (s : MemPool) (i : Unit64) :
    (s.give i).usedUnits = s.usedUnits.erase i := by
  ext j
  simp only [usedUnits, Finset.mem_filter, Finset.mem_univ, true_and, give_unitUsed,
    Finset.mem_erase]
  split
  · simp_all
  · simp_all

theorem mem_usedUnits : i ∈ s.usedUnits ↔ s.unitUsed i = true := by
  simp [usedUnits]

theorem count_take (h : s.memPoolUsed = s.usedUnits.card) (hi : s.unitUsed i = false) :
    (s.take i).memPoolUsed = (s.take i).usedUnits.card := by
  have hnot : i ∉ s.usedUnits := by
    rw [mem_usedUnits, hi]
    exact Bool.false_ne_true
  rw [usedUnits_take, Finset.card_insert_of_notMem hnot, Nat.cast_add, ← h]
  rfl

theorem count_give (h : s.memPoolUsed = s.usedUnits.card) (hi : s.unitUsed i = true) :
    (s.give i).memPoolUsed = (s.give i).usedUnits.card := by
  have hmem := mem_usedUnits.2 hi
  have hpos := Finset.card_pos.2 ⟨i, hmem⟩
  have hused : (s.give i).memPoolUsed = s.memPoolUsed - 1 := rfl
  rw [usedUnits_give, Finset.card_erase_of_mem hmem, hused, h, Nat.cast_sub hpos]
  rfl

/-- The successor of a unit that is not the last. -/
theorem succ_ne (h : i.val + 1 < MEM_POOL_UNIT_NUM) : i + 1 ≠ i := by
  intro heq
  have hval : (i.val + 1) % 64 = i.val := congrArg Fin.val heq
  have hlt : i.val + 1 < 64 := h
  omega

/-- When each allocator succeeds. -/
theorem allocOhci_isSome : s.allocOhci.1.isSome ↔ ∃ i, s.unitUsed i = false := by
  rw [allocOhci]
  split
  · rename_i i hfind
    have hfree := List.find?_some hfind
    exact ⟨fun _ => ⟨i, by simpa using hfree⟩, fun _ => rfl⟩
  · rename_i hfind
    rw [List.find?_eq_none] at hfind
    refine ⟨fun h => absurd h Bool.false_ne_true, ?_⟩
    rintro ⟨i, hi⟩
    exact absurd (hfind i (List.mem_finRange i)) (by simp [hi])

theorem allocEhci_isSome : s.allocEhci.1.isSome ↔ ∃ i ≠ s.sidx, s.unitUsed i = false := by
  rw [allocEhci]
  split
  · rename_i i hfind
    have hfree := List.find?_some hfind
    exact ⟨fun _ => ⟨i, mem_ring.1 (List.mem_of_find?_eq_some hfind), by simpa using hfree⟩,
      fun _ => rfl⟩
  · rename_i hfind
    rw [List.find?_eq_none] at hfind
    refine ⟨fun h => absurd h Bool.false_ne_true, ?_⟩
    rintro ⟨i, hne, hi⟩
    exact absurd (hfind i (mem_ring.2 hne)) (by simp [hi])

theorem allocEhciITD_isSome : s.allocEhciITD.1.isSome ↔ ∃ i : Unit64, i ≠ s.sidx ∧
    i.val + 2 < MEM_POOL_UNIT_NUM ∧ s.unitUsed i = false ∧ s.unitUsed (i + 1) = false := by
  rw [allocEhciITD]
  split
  · rename_i i hfind
    have hfree := List.find?_some hfind
    simp only [Bool.and_eq_true, Bool.not_eq_true', decide_eq_false_iff_not, not_le] at hfree
    exact ⟨fun _ => ⟨i, mem_ring.1 (List.mem_of_find?_eq_some hfind), hfree.1, hfree.2⟩,
      fun _ => rfl⟩
  · rename_i hfind
    rw [List.find?_eq_none] at hfind
    refine ⟨fun h => absurd h Bool.false_ne_true, ?_⟩
    rintro ⟨i, hne, hin, hi, hi'⟩
    refine absurd (hfind i (mem_ring.2 hne)) ?_
    rw [hi, hi', decide_eq_false (Nat.not_le.2 hin)]
    decide

/-- A release finds the unit its pointer is the address of, or leaves the pool as it is. -/
theorem release_spec (s : MemPool) (base ptr : BitVec 32) (k : DescKind) :
    (∃ i : Unit64, unitAddr base i = ptr ∧ (k = .iTD → i.val + 1 < MEM_POOL_UNIT_NUM) ∧
        s.release base ptr k = if k = .iTD then (s.give i).give (i + 1) else s.give i) ∨
      (∀ i : Unit64, (k = .iTD → i.val + 1 < MEM_POOL_UNIT_NUM) → unitAddr base i ≠ ptr) ∧
        s.release base ptr k = s := by
  rcases Classical.em (k = .iTD) with rfl | hk
  · have hrel : s.release base ptr .iTD = s.freeITD base ptr := rfl
    rw [hrel, freeITD]
    split
    · rename_i i hfind
      have hfound := List.find?_some hfind
      rw [Bool.and_eq_true, decide_eq_true_eq, decide_eq_true_eq] at hfound
      exact .inl ⟨i, hfound.2, fun _ => hfound.1, (if_pos rfl).symm⟩
    · rename_i hfind
      rw [List.find?_eq_none] at hfind
      refine .inr ⟨fun i hin heq => hfind i (List.mem_finRange i) ?_, rfl⟩
      rw [decide_eq_true (hin rfl), decide_eq_true heq]
      rfl
  · have hrel : s.release base ptr k = s.free base ptr := by
      cases k with
      | iTD => exact absurd rfl hk
      | _ => rfl
    rw [hrel, free]
    split
    · rename_i i hfind
      have hfound := List.find?_some hfind
      rw [decide_eq_true_eq] at hfound
      exact .inl ⟨i, hfound, fun h => absurd h hk, (if_neg hk).symm⟩
    · rename_i hfind
      rw [List.find?_eq_none] at hfind
      exact .inr ⟨fun i _ heq => hfind i (List.mem_finRange i) (decide_eq_true heq), rfl⟩

/-- A unit given back changes the count. -/
theorem give_ne (s : MemPool) (i : Unit64) : s.give i ≠ s := by
  intro h
  have hcount : s.memPoolUsed - 1 = s.memPoolUsed := congrArg memPoolUsed h
  omega

theorem give_give_ne (s : MemPool) (i j : Unit64) : (s.give i).give j ≠ s := by
  intro h
  have hcount : s.memPoolUsed - 1 - 1 = s.memPoolUsed := congrArg memPoolUsed h
  omega

end MemPool

open MemPool

/-- A call does what it should exactly when it is safe. -/
theorem callRight_iff (base : BitVec 32) (s : MemPool × List Descriptor) (op : PoolOp) :
    CallRight base s op ↔ SafeOp base s op := by
  cases op with
  | alloc k =>
    cases k with
    | ED | TD => exact ⟨fun _ => trivial, fun _ => allocOhci_isSome⟩
    | QH | qTD | siTD =>
      refine ⟨fun h hroom => allocEhci_isSome.1 (h.2 hroom), fun h => ?_⟩
      exact allocEhci_isSome.trans ⟨fun ⟨i, _, hi⟩ => ⟨i, hi⟩, h⟩
    | iTD =>
      refine ⟨fun h hroom => allocEhciITD_isSome.1 (h.2 hroom), fun h => ?_⟩
      refine allocEhciITD_isSome.trans ⟨?_, h⟩
      rintro ⟨i, _, hin, hi, hi'⟩
      exact ⟨i, by omega, hi, hi'⟩
  | free k ptr =>
    rw [CallRight, SafeOp]
    rcases release_spec s.1 base ptr k with ⟨i, haddr, hin, hrel⟩ | ⟨hnone, hrel⟩
    · have hne : s.1.release base ptr k ≠ s.1 := by
        rw [hrel]
        split
        · exact give_give_ne s.1 i (i + 1)
        · exact give_ne s.1 i
      refine ⟨fun h => .inl ?_, ?_⟩
      · by_contra hnot
        exact hne (h fun d hd hnames => hnot ⟨d, hd, hnames⟩)
      · rintro (⟨d, hd, hnames⟩ | hnone) hnot
        · exact absurd hnames (hnot d hd)
        · exact absurd haddr (hnone i hin)
    · exact ⟨fun _ => .inr hnone, fun _ _ => hrel⟩

/-! ## Every history -/

section

variable {base : BitVec 32} {s s' : MemPool × List Descriptor} {live : List Descriptor}
  {pool : MemPool} {u i : Unit64} {k : DescKind} {op : PoolOp} {ops : List PoolOp}

/-- A unit has one live descriptor. -/
theorem PoolRight.eq_of_covers {d d' : Descriptor} (h : PoolRight pool live) (hd : d ∈ live)
    (hd' : d' ∈ live) (hcov : d.Covers i) (hcov' : d'.Covers i) : d = d' := by
  have : Std.Symm Descriptor.Apart := ⟨fun _ _ hap i hi hi' => hap i hi' hi⟩
  by_contra hne
  exact h.apart.forall hd hd' hne i hcov hcov'

/-- A fresh descriptor on free units. -/
theorem PoolRight.add {pool' : MemPool} (h : PoolRight pool live)
    (hfree : ∀ i, (Descriptor.mk k u).Covers i → pool.unitUsed i = false)
    (hin : k = .iTD → u.val + 1 < MEM_POOL_UNIT_NUM)
    (hcount : pool'.memPoolUsed = pool'.usedUnits.card)
    (hused : ∀ i, pool'.unitUsed i = true ↔
      pool.unitUsed i = true ∨ (Descriptor.mk k u).Covers i) :
    PoolRight pool' (⟨k, u⟩ :: live) := by
  refine ⟨List.pairwise_cons.2 ⟨fun d hd i hcov hcov' => ?_, h.apart⟩, hcount, ?_, ?_⟩
  · have hmarked := h.marked hd hcov'
    rw [hfree i hcov] at hmarked
    cases hmarked
  · intro d i hd hcov
    rcases List.mem_cons.1 hd with rfl | hd
    · exact (hused i).2 (.inr hcov)
    · exact (hused i).2 (.inl (h.marked hd hcov))
  · intro d hd hk
    rcases List.mem_cons.1 hd with rfl | hd
    · exact hin hk
    · exact h.inside hd hk

/-- A live descriptor's units given back. -/
theorem PoolRight.remove {pool' : MemPool} {d : Descriptor} {stay : Descriptor → Bool}
    (h : PoolRight pool live) (hd : d ∈ live) (hgone : stay d = false)
    (hcount : pool'.memPoolUsed = pool'.usedUnits.card)
    (hused : ∀ i, ¬ d.Covers i → pool'.unitUsed i = pool.unitUsed i) :
    PoolRight pool' (live.filter stay) := by
  refine ⟨h.apart.filter _, hcount, ?_, ?_⟩
  · intro d' i hd' hcov
    obtain ⟨hd', hstay⟩ := List.mem_filter.1 hd'
    have hnot : ¬ d.Covers i := by
      intro hcov'
      rw [h.eq_of_covers hd' hd hcov hcov', hgone] at hstay
      cases hstay
    rw [hused i hnot]
    exact h.marked hd' hcov
  · intro d' hd' hk
    exact h.inside (List.mem_filter.1 hd').1 hk

/-- One unit taken for a descriptor of a kind other than iTD. -/
theorem PoolRight.alloc_single {pool' : MemPool} (h : PoolRight pool live)
    (hfree : pool.unitUsed u = false) (hk : k ≠ .iTD)
    (hused : pool'.unitUsed = (pool.take u).unitUsed)
    (hcount : pool'.memPoolUsed = (pool.take u).memPoolUsed) :
    PoolRight pool' (⟨k, u⟩ :: live) := by
  have hcov : ∀ i, (Descriptor.mk k u).Covers i ↔ i = u := fun i =>
    ⟨fun hc => hc.elim id fun hc => absurd hc.1 hk, .inl⟩
  have hunits : pool'.usedUnits = (pool.take u).usedUnits := by
    rw [usedUnits, usedUnits, hused]
  refine h.add (fun i hi => (hcov i).1 hi ▸ hfree) (fun hi => absurd hi hk) ?_ fun i => ?_
  · rw [hcount, hunits, count_take h.count hfree]
  · rw [hused, take_unitUsed, hcov]
    split
    · exact ⟨fun _ => .inr ‹_›, fun _ => rfl⟩
    · exact ⟨.inl, fun hor => hor.resolve_right ‹_›⟩

/-- What an allocation comes to. -/
theorem poolRight_alloc (h : PoolRight pool live) (k : DescKind) :
    PoolRight (pool.alloc k).2 (((pool.alloc k).1.map (Descriptor.mk k)).toList ++ live) := by
  cases hres : pool.alloc k with
  | mk res pool' =>
    cases res with
    | none =>
      have hsame : pool' = pool := by
        cases k with
        | ED | TD =>
          rw [alloc, allocOhci] at hres
          split at hres <;> cases hres
          rfl
        | QH | qTD | siTD =>
          rw [alloc, allocEhci] at hres
          split at hres <;> cases hres
          rfl
        | iTD =>
          rw [alloc, allocEhciITD] at hres
          split at hres <;> cases hres
          rfl
      rw [hsame]
      exact h
    | some u =>
      cases k with
      | ED | TD =>
        obtain ⟨hfree, rfl⟩ := allocOhci_some hres
        exact h.alloc_single hfree (by decide) rfl rfl
      | QH | qTD | siTD =>
        obtain ⟨hfree, -, rfl⟩ := allocEhci_some hres
        exact h.alloc_single hfree (by decide) rfl rfl
      | iTD =>
        obtain ⟨hfree, hfree', hin, rfl⟩ := allocEhciITD_some hres
        have hin' : u.val + 1 < MEM_POOL_UNIT_NUM := by omega
        have hne := succ_ne hin'
        have hcount := count_take h.count hfree
        have hfree₂ : (pool.take u).unitUsed (u + 1) = false := by
          rw [take_unitUsed, if_neg hne, hfree']
        refine h.add ?_ (fun _ => hin') (count_take hcount hfree₂) fun i => ?_
        · rintro i (rfl | ⟨-, rfl⟩)
          · exact hfree
          · exact hfree'
        · show ((pool.take u).take (u + 1)).unitUsed i = true ↔ _
          rw [take_unitUsed, take_unitUsed, Descriptor.Covers]
          split
          · exact ⟨fun _ => .inr (.inr ⟨rfl, ‹_›⟩), fun _ => rfl⟩
          split
          · exact ⟨fun _ => .inr (.inl ‹_›), fun _ => rfl⟩
          · refine ⟨.inl, ?_⟩
            rintro (hused | rfl | ⟨-, rfl⟩)
            · exact hused
            · exact absurd rfl ‹_›
            · exact absurd rfl ‹_›

/-- A safe release keeps the pool right. -/
theorem poolRight_release {ptr : BitVec 32} (h : PoolRight pool live)
    (hsafe : SafeOp base (pool, live) (.free k ptr)) :
    PoolRight (pool.release base ptr k) (live.filter fun d => ¬ Names base ptr k d) := by
  rcases hsafe with ⟨⟨k', u⟩, hd, hkind, haddr⟩ | hnone
  · cases hkind
    have hin := h.inside hd
    have hgone : (decide (¬ Names base ptr k' ⟨k', u⟩)) = false :=
      decide_eq_false (not_not.2 ⟨rfl, haddr⟩)
    rcases release_spec pool base ptr k' with ⟨i, haddr', -, hrel⟩ | ⟨hnone, -⟩
    · obtain rfl := unitAddr_injective base (haddr'.trans haddr.symm)
      have hmarked := h.marked hd (.inl rfl)
      have hcount := count_give h.count hmarked
      rw [hrel]
      split
      · rename_i hk
        subst hk
        have hne := succ_ne (hin rfl)
        have hmarked' : (pool.give i).unitUsed (i + 1) = true := by
          rw [give_unitUsed, if_neg hne]
          exact h.marked hd (.inr ⟨rfl, rfl⟩)
        refine h.remove hd hgone (count_give hcount hmarked') fun j hj => ?_
        rw [give_unitUsed, if_neg fun heq => hj (.inr ⟨rfl, heq⟩), give_unitUsed,
          if_neg fun heq => hj (.inl heq)]
      · refine h.remove hd hgone hcount fun j hj => ?_
        rw [give_unitUsed, if_neg fun heq => hj (.inl heq)]
    · exact absurd haddr (hnone u hin)
  · rcases release_spec pool base ptr k with ⟨i, haddr, hin, -⟩ | ⟨-, hrel⟩
    · exact absurd haddr (hnone i hin)
    · have hsame : (live.filter fun d => ¬ Names base ptr k d) = live := by
        refine List.filter_eq_self.2 fun d hd => decide_eq_true ?_
        rintro ⟨rfl, haddr⟩
        exact hnone d.unit (h.inside hd) haddr
      rw [hrel, hsame]
      exact h

/-- A safe call keeps the pool right. -/
theorem poolRight_step (h : PoolRight s.1 s.2) (hs : where_ (poolStep base) (SafeOp base) s op s') :
    PoolRight s'.1 s'.2 := by
  obtain ⟨hsafe, hs⟩ := hs
  cases op with
  | alloc k =>
    rw [hs]
    exact poolRight_alloc h k
  | free k ptr =>
    rw [hs]
    exact poolRight_release h hsafe

theorem poolRight_init : PoolRight MemPool.init [] where
  apart := .nil
  count := rfl
  marked hd := nomatch hd
  inside hd := nomatch hd

end

/-- In every state of a history of safe calls the live descriptors share no unit and the count is
right, and what a call does from there is right exactly when it is safe. -/
theorem memPool_run (base : BitVec 32) {ops : List PoolOp} {s : MemPool × List Descriptor}
    (h : Run (where_ (poolStep base) (SafeOp base)) (MemPool.init, []) ops s) :
    s.2.Pairwise Descriptor.Apart ∧ s.1.memPoolUsed = s.1.usedUnits.card ∧
      ∀ op, CallRight base s op ↔ SafeOp base s op := by
  have hright : PoolRight s.1 s.2 :=
    h.invariant (I := fun s => PoolRight s.1 s.2) poolRight_step poolRight_init
  exact ⟨hright.apart, hright.count, callRight_iff base s⟩

/-- A queue head, an iTD and a TD allocated, and the queue head released. -/
theorem memPool_run_qh : ∃ s : MemPool × List Descriptor,
    s.2 = [⟨.TD, 0⟩, ⟨.iTD, 2⟩] ∧ s.2.Pairwise Descriptor.Apart ∧ s.1.memPoolUsed = 3 ∧
      s.1.memPoolUsed = s.1.usedUnits.card ∧
        ∀ op, CallRight 0x80000000#32 s op ↔ SafeOp 0x80000000#32 s op := by
  have hqh := Run.nil.snoc (show where_ (poolStep 0x80000000#32) (SafeOp 0x80000000#32) (MemPool.init, [])
    (.alloc .QH) (_, _) from ⟨fun _ => ⟨1, by decide, rfl⟩, rfl⟩)
  have hitd := hqh.snoc (show where_ (poolStep 0x80000000#32) (SafeOp 0x80000000#32) _ (.alloc .iTD) (_, _) from
    ⟨fun _ => ⟨2, by decide, by decide, rfl, rfl⟩, rfl⟩)
  have htd := hitd.snoc (show where_ (poolStep 0x80000000#32) (SafeOp 0x80000000#32) _ (.alloc .TD) (_, _) from
    ⟨trivial, rfl⟩)
  have hfree := htd.snoc (show where_ (poolStep 0x80000000#32) (SafeOp 0x80000000#32) _
    (.free .QH 0x80000100#32) (_, _) from ⟨.inl ⟨⟨.QH, 1⟩, by decide, rfl, rfl⟩, rfl⟩)
  obtain ⟨hapart, hcount, hcall⟩ := memPool_run 0x80000000#32 hfree
  exact ⟨_, by decide, hapart, rfl, hcount, hcall⟩

/-- Every history keeps the pool right, and every call does what it should. -/
def MemPoolRight : Prop :=
  ∀ (base : BitVec 32) (ops : List PoolOp) (s : MemPool × List Descriptor),
    Run (poolStep base) (MemPool.init, []) ops s →
      s.2.Pairwise Descriptor.Apart ∧ s.1.memPoolUsed = s.1.usedUnits.card ∧
        ∀ op, CallRight base s op

/-- A queue head released twice: the count is one too low. -/
theorem not_memPoolRight : ¬ MemPoolRight := by
  intro h
  have halloc : poolStep 0x80000000#32 (MemPool.init, []) (.alloc .QH) (_, _) := rfl
  have hrun := (Run.nil.snoc halloc).snoc
    (show poolStep 0x80000000#32 _ (.free .QH 0x80000100#32) (_, _) from rfl)
  have hright := h _ _ _ (hrun.snoc
    (show poolStep 0x80000000#32 _ (.free .QH 0x80000100#32) (_, _) from rfl))
  have hcount : (-1 : Int) = Finset.card _ := hright.2.1
  omega

end NumakerMA35D1.UsbHost

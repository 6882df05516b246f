import NumakerMA35D1.Lib.Orbit
import NumakerMA35D1.Lib.Run

/-!
# The addresses of USB devices

`alloc_dev_address` looks for a free address from the one after the address given out last, around
the ring `1, 2, …, 127`. It does not notice that it has come round: with every address given out it
looks for ever. After any history it returns an address that no live device holds if and only if
there is one (`allocDevAddress_iff`).

Reference: `mem_alloc.c:38 _dev_addr_pool`, `mem_alloc.c:172 alloc_dev_address`, `mem_alloc.c:192
free_dev_address`.
-/

namespace NumakerMA35D1.UsbHost

open Embedded

/-- An index into the pool. -/
abbrev DevAddr := Fin 128

/-- Reference: `mem_alloc.c:38 _dev_addr_pool`, `mem_alloc.c:39 _device_addr`. -/
structure AddrPool where
  devAddrPool : DevAddr → BitVec 8
  deviceAddr : DevAddr

/-- The pool of a library set up. Reference: `mem_alloc.c:70 usbh_memory_init`. -/
def AddrPool.init : AddrPool where
  devAddrPool _ := 0
  deviceAddr := ⟨1, by decide⟩

/-- The address after an address. Reference: `mem_alloc.c:186 alloc_dev_address`. -/
def DevAddr.next (a : DevAddr) : DevAddr :=
  if h : a.val + 1 < 128 then ⟨a.val + 1, h⟩ else ⟨1, by decide⟩

namespace AddrPool

/-- An address that the search stops at. -/
def isFree (s : AddrPool) (a : DevAddr) : Bool := s.devAddrPool a == 0

/-- `none` stands for a search that is not over yet. Reference: `mem_alloc.c:172
alloc_dev_address`. -/
def allocDevAddress (fuel : Nat) (s : AddrPool) : Option (Int × AddrPool) :=
  (findFrom s.isFree DevAddr.next fuel s.deviceAddr.next).map fun a =>
    ((a.val : Int), { devAddrPool := Function.update s.devAddrPool a 1, deviceAddr := a })

/-- A negative address is written in front of the pool: `none`. Reference: `mem_alloc.c:192
free_dev_address`. -/
def freeDevAddress (s : AddrPool) (devAddr : Int) : Option AddrPool :=
  if h : devAddr < 128 then
    if h0 : 0 ≤ devAddr then
      some { s with devAddrPool := Function.update s.devAddrPool ⟨devAddr.toNat, by omega⟩ 0 }
    else none
  else some s

/-- The call comes back with an address. -/
def AllocReturns (s : AddrPool) (a : Int) (s' : AddrPool) : Prop :=
  ∃ fuel, s.allocDevAddress fuel = some (a, s')

end AddrPool

/-- A call that has come back. -/
inductive AddrEvent
  | alloc (a : Int)
  | free (devAddr : Int)

/-- The calls and what they do to the pool. -/
inductive AddrStep : AddrPool → AddrEvent → AddrPool → Prop
  | alloc {s s' : AddrPool} {a : Int} : s.AllocReturns a s' → AddrStep s (.alloc a) s'
  | free {s s' : AddrPool} {d : Int} : s.freeDevAddress d = some s' → AddrStep s (.free d) s'

/-- The addresses that devices hold, after one more call. -/
def holdAddr (live : Set Int) : AddrEvent → Set Int
  | .alloc a => insert a live
  | .free d => {a | a ∈ live ∧ a ≠ d}

/-- The addresses that devices hold after some calls. -/
def liveAddrs (events : List AddrEvent) : Set Int := events.foldl holdAddr ∅

/-- The next allocation comes back, and with an address of the range that no device holds. -/
structure AllocRight (live : Set Int) (s : AddrPool) : Prop where
  returns : ∃ a s', s.AllocReturns a s'
  fresh : ∀ {a s'}, s.AllocReturns a s' → 1 ≤ a ∧ a ≤ 127 ∧ a ∉ live

/-! ## The ring of addresses -/

namespace DevAddr

variable {a b : DevAddr}

theorem next_val (a : DevAddr) : a.next.val = if a.val + 1 < 128 then a.val + 1 else 1 := by
  rw [next]
  split <;> rfl

theorem next_pos (a : DevAddr) : 0 < a.next.val := by
  rw [next_val]
  split <;> omega

theorem iterate_next (ha : 0 < a.val) (k : Nat) : (next^[k] a).val = (a.val - 1 + k) % 127 + 1 := by
  induction k with
  | zero =>
    have hlt : a.val < 128 := a.isLt
    rw [Function.iterate_zero_apply]
    omega
  | succ k ih =>
    rw [Function.iterate_succ_apply', next_val, ih]
    split <;> omega

theorem iterate_next_pos (ha : 0 < a.val) (k : Nat) : 0 < (next^[k] a).val := by
  rw [iterate_next ha]
  omega

/-- The ring gets everywhere. -/
theorem exists_iterate_next (ha : 0 < a.val) (hb : 0 < b.val) : ∃ k, next^[k] a = b := by
  have hlt : a.val < 128 := a.isLt
  have hlt' : b.val < 128 := b.isLt
  refine ⟨b.val + 127 - a.val, Fin.ext ?_⟩
  rw [iterate_next ha]
  omega

end DevAddr

/-! ## The pool knows the live addresses -/

/-- The bytes of the pool that stand for addresses say which of them devices hold. -/
def Tracks (s : AddrPool) (live : Set Int) : Prop :=
  ∀ a : DevAddr, 0 < a.val → (s.devAddrPool a = 0 ↔ (a.val : Int) ∉ live)

variable {s s' : AddrPool} {a : Int} {live : Set Int} {event : AddrEvent} {events : List AddrEvent}

theorem tracks_init : Tracks AddrPool.init ∅ := by
  intro a _
  exact ⟨fun _ => Set.notMem_empty _, fun _ => rfl⟩

namespace AddrPool

/-- An address that is returned was free, and is marked. -/
theorem AllocReturns.spec (h : s.AllocReturns a s') :
    ∃ d : DevAddr, 0 < d.val ∧ a = d.val ∧ s.devAddrPool d = 0 ∧
      s' = { devAddrPool := Function.update s.devAddrPool d 1, deviceAddr := d } := by
  obtain ⟨fuel, h⟩ := h
  obtain ⟨d, hfind, heq⟩ := Option.map_eq_some_iff.1 h
  cases heq
  obtain ⟨hfree, k, rfl⟩ := findFrom_spec hfind
  exact ⟨_, DevAddr.iterate_next_pos (DevAddr.next_pos _) k, rfl, beq_iff_eq.1 hfree, rfl⟩

/-- The call comes back if and only if an address is free. -/
theorem returns_iff : (∃ a s', s.AllocReturns a s') ↔ ∃ d : DevAddr, 0 < d.val ∧ s.isFree d := by
  constructor
  · rintro ⟨a, s', h⟩
    obtain ⟨d, hd, _, hfree, _⟩ := h.spec
    exact ⟨d, hd, beq_iff_eq.2 hfree⟩
  · rintro ⟨d, hd, hfree⟩
    obtain ⟨k, rfl⟩ := DevAddr.exists_iterate_next (DevAddr.next_pos s.deviceAddr) hd
    obtain ⟨fuel, b, hfind⟩ := findFrom_terminates.2 ⟨k, hfree⟩
    exact ⟨_, _, fuel, congrArg (Option.map _) hfind⟩

end AddrPool

theorem Tracks.step (ht : Tracks s live) (h : AddrStep s event s') :
    Tracks s' (holdAddr live event) := by
  intro c hc
  cases h with
  | alloc h =>
    obtain ⟨d, hd, rfl, hfree, rfl⟩ := h.spec
    rw [holdAddr, Set.mem_insert_iff]
    dsimp only
    by_cases hcd : c = d
    · subst hcd
      rw [Function.update_self]
      exact ⟨fun h => absurd h (by decide), fun h => absurd (.inl rfl) h⟩
    · have hne : (c.val : Int) ≠ d.val := fun h => hcd (Fin.ext (Int.ofNat.inj h))
      rw [Function.update_of_ne hcd, ht c hc, not_or]
      exact ⟨fun h => ⟨hne, h⟩, fun h => h.2⟩
  | @free _ d h =>
    rw [AddrPool.freeDevAddress] at h
    rw [holdAddr, Set.mem_ofPred_eq, not_and, not_ne_iff]
    split at h
    · split at h
      · cases h
        dsimp only
        by_cases hcd : c.val = d.toNat
        · have hc : c = ⟨d.toNat, by omega⟩ := Fin.ext hcd
          rw [hc, Function.update_self]
          exact ⟨fun _ _ => by simp only; omega, fun _ => rfl⟩
        · rw [Function.update_of_ne (fun h => hcd (congrArg Fin.val h)), ht c hc]
          exact ⟨fun h hl => absurd hl h, fun h hl => hcd (by have := h hl; omega)⟩
      · cases h
    · cases h
      rw [ht c hc]
      have hlt : c.val < 128 := c.isLt
      exact ⟨fun h hl => absurd hl h, fun h hl => by have := h hl; omega⟩

theorem Tracks.run (h : Run AddrStep AddrPool.init events s) : Tracks s (liveAddrs events) :=
  h.simulates (fun ht hs => ht.step hs) tracks_init

/-- Where the pool knows the live addresses, an allocation is right if and only if one of the range
is not live. -/
theorem Tracks.allocRight_iff (ht : Tracks s live) :
    AllocRight live s ↔ ∃ a : Int, 1 ≤ a ∧ a ≤ 127 ∧ a ∉ live := by
  constructor
  · intro h
    obtain ⟨a, s', ha⟩ := h.returns
    exact ⟨a, h.fresh ha⟩
  · rintro ⟨a, h1, h127, hlive⟩
    refine ⟨?_, ?_⟩
    · refine AddrPool.returns_iff.2 ⟨⟨a.toNat, by omega⟩, by simp only; omega, beq_iff_eq.2 ?_⟩
      rw [ht _ (by simp only; omega)]
      rwa [Int.toNat_of_nonneg (by omega)]
    · intro a' s' ha
      obtain ⟨d, hd, rfl, hfree, _⟩ := ha.spec
      have hlt : d.val < 128 := d.isLt
      exact ⟨by omega, by omega, (ht d hd).1 hfree⟩

/-! ## A round of allocations -/

/-- The calls of a library set up that is asked for one address after another. -/
def allocRound (n : Nat) : List AddrEvent :=
  (List.range n).map fun k => .alloc (((k + 1) % 127 + 1 : Nat) : Int)

theorem allocRound_succ (n : Nat) :
    allocRound (n + 1) = allocRound n ++ [.alloc (((n + 1) % 127 + 1 : Nat) : Int)] := by
  rw [allocRound, List.range_succ, List.map_append]
  rfl

theorem mem_liveAddrs_allocRound {n : Nat} {a : Int} :
    a ∈ liveAddrs (allocRound n) ↔ ∃ k < n, a = ((k + 1) % 127 + 1 : Nat) := by
  induction n with
  | zero => exact ⟨fun h => absurd h (Set.notMem_empty _), by rintro ⟨k, hk, _⟩; omega⟩
  | succ n ih =>
    rw [allocRound_succ, liveAddrs, List.foldl_append, ← liveAddrs]
    show a ∈ insert _ (liveAddrs (allocRound n)) ↔ _
    rw [Set.mem_insert_iff, ih]
    constructor
    · rintro (rfl | ⟨k, hk, rfl⟩)
      · exact ⟨n, Nat.lt_succ_self n, rfl⟩
      · exact ⟨k, Nat.lt_succ_of_lt hk, rfl⟩
    · rintro ⟨k, hk, rfl⟩
      rcases Nat.lt_succ_iff_lt_or_eq.1 hk with hk | rfl
      · exact .inr ⟨k, hk, rfl⟩
      · exact .inl rfl

/-- The first round gives out `2, 3, …, 127` and then `1`. -/
theorem allocRound_run {n : Nat} (hn : n ≤ 127) :
    ∃ s, Run AddrStep AddrPool.init (allocRound n) s ∧ s.deviceAddr.val = n % 127 + 1 := by
  induction n with
  | zero => exact ⟨_, .nil, rfl⟩
  | succ n ih =>
    obtain ⟨s, hrun, hcursor⟩ := ih (by omega)
    have hnext : s.deviceAddr.next.val = (n + 1) % 127 + 1 := by
      rw [DevAddr.next_val, hcursor]
      split <;> omega
    have hfree : s.devAddrPool s.deviceAddr.next = 0 := by
      rw [Tracks.run hrun _ (DevAddr.next_pos _), hnext, mem_liveAddrs_allocRound]
      rintro ⟨k, hk, heq⟩
      omega
    have hfind : findFrom s.isFree DevAddr.next 1 s.deviceAddr.next = some s.deviceAddr.next :=
      if_pos (beq_iff_eq.2 hfree)
    refine ⟨⟨Function.update s.devAddrPool s.deviceAddr.next 1, s.deviceAddr.next⟩, ?_, hnext⟩
    rw [allocRound_succ, ← hnext]
    exact .snoc hrun (.alloc ⟨1, congrArg (Option.map _) hfind⟩)

/-- After any calls, the next allocation comes back with an address that no device holds if and only
if there is one. Reference: `mem_alloc.c:172 alloc_dev_address`. -/
theorem allocDevAddress_iff (h : Run AddrStep AddrPool.init events s) :
    AllocRight (liveAddrs events) s ↔ ∃ a : Int, 1 ≤ a ∧ a ≤ 127 ∧ a ∉ liveAddrs events :=
  (Tracks.run h).allocRight_iff

/-- A library set up that has given out address 2. -/
theorem allocDevAddress_iff_second :
    AllocRight (liveAddrs [.alloc 2])
        ⟨Function.update AddrPool.init.devAddrPool ⟨2, by decide⟩ 1, ⟨2, by decide⟩⟩ ↔
      ∃ a : Int, 1 ≤ a ∧ a ≤ 127 ∧ a ∉ liveAddrs [.alloc 2] :=
  allocDevAddress_iff (.snoc .nil (.alloc ⟨1, rfl⟩))

/-- The allocation after a whole round of them never comes back. -/
theorem not_allocDevAddress_round :
    ∃ s, Run AddrStep AddrPool.init (allocRound 127) s ∧
      ¬ AllocRight (liveAddrs (allocRound 127)) s := by
  obtain ⟨s, hrun, _⟩ := allocRound_run (le_refl 127)
  refine ⟨s, hrun, fun h => ?_⟩
  obtain ⟨a, h1, h127, hlive⟩ := (Tracks.run hrun).allocRight_iff.1 h
  refine hlive (mem_liveAddrs_allocRound.2 ⟨(a.toNat + 125) % 127, by omega, by omega⟩)

end NumakerMA35D1.UsbHost

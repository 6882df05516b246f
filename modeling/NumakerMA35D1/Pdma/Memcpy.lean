import NumakerMA35D1.Pdma.SgtblRun

/-!
# Copies

`nuPdmaMemcpy_exact_iff`: a copy that returns its destination, after any calls, has written exactly
the bytes it was asked for unless its first pass has a count that is a multiple of
`NU_PDMA_MAX_TXCNT` and larger (`Overruns`). Only the first pass can have so many elements: what it
leaves is less than one of its elements.
-/

namespace NumakerMA35D1.Pdma

open Embedded

/-! ## Calls with copies among them -/

/-- A call on channels, the set-up of the actors, or a copy. -/
inductive Call
  | op (op : Op)
  | memfunInit
  | memcpy (o : BitVec 32 → TransferEnd) (b : Bus) (dest src count : BitVec 32)

/-- A call that returns. -/
def callStep (s : NuPdma) : Call → NuPdma → Prop
  | .op op, s' => step s op s'
  | .memfunInit, s' => nuPdmaMemfunActorInit s = .ok s'
  | .memcpy o b dest src count, s' => ∃ r b', nuPdmaMemcpy o s b dest src count = .ok (r, s', b')

/-- The element size of the first pass of a copy. -/
def firstWidth (dest src count : BitVec 32) : BitVec 32 :=
  if dest % 4#32 = 0#32 ∧ src % 4#32 = 0#32 ∧ 4#32 ≤ count then 4#32
  else if dest % 2#32 = 0#32 ∧ src % 2#32 = 0#32 ∧ 2#32 ≤ count then 2#32
  else 1#32

/-- The first pass has more elements than a descriptor moves, and a multiple of that. -/
def Overruns (dest src count : BitVec 32) : Prop :=
  65536 < (count / firstWidth dest src count).toNat ∧
    (count / firstWidth dest src count).toNat % 65536 = 0

section

variable {s s' : NuPdma} {c : Call} {cs : List Call} {dest src count off rem i : BitVec 32}
  {is : List (BitVec 32)} {a : BitVec 32} {b b₀ : Bus}

theorem nuPdmaMemfunActorInitFrom_ok (left : Nat) :
    ∀ {i : Nat} {s : NuPdma}, SgtblsOk s.sgtbls →
      Returns (fun _ => True) (nuPdmaMemfunActorInitFrom left i s) fun r => SgtblsOk r.2.sgtbls := by
  induction left with
  | zero => exact fun hok => hok
  | succ left ih =>
    intro i s hok
    refine .bind (nuPdmaChannelAllocate_returns trivial PDMA_MEM) ?_
    rintro ⟨ch, s'⟩ heq
    have hok' : SgtblsOk s'.sgtbls := by
      have heq : s'.sgtbls = _ := heq
      rw [heq]
      exact hok.init.forgetChn _
    exact .ite (fun _ => .pure hok') fun _ => ih hok'

/-- Every call keeps the tables in order. -/
theorem sgtblsOk_callStep (h : SgtblsOk s.sgtbls) (hs : callStep s c s') : SgtblsOk s'.sgtbls := by
  cases c with
  | op op => exact sgtblsOk_step h hs
  | memfunInit =>
    have hinit : Returns (fun _ => True) (nuPdmaMemfunActorInit s) fun s' => SgtblsOk s'.sgtbls :=
      .bind (nuPdmaMemfunActorInitFrom_ok _ h.init) fun r hr =>
        .ite (fun _ => .pure hr) fun _ => .pure hr
    exact hinit.of_ok hs
  | memcpy o b dest src count =>
    obtain ⟨r, b', hret⟩ := hs
    exact ((nuPdmaMemcpy_returns h dest src count).of_ok hret).1

theorem sgtblsOk_calls (h : Run callStep NuPdma.reset cs s) : SgtblsOk s.sgtbls :=
  h.invariant (I := fun s => SgtblsOk s.sgtbls) sgtblsOk_callStep sgtblsInv_reset.toSgtblsOk

/-! ## The passes -/

/-- What was written stays so over the passes. -/
theorem wrote_copyPasses (h : b.wrote a = true) :
    (copyPasses dest src is off rem b).2.wrote a = true := by
  induction is generalizing off rem b with
  | nil => exact h
  | cons i is ih =>
    rw [copyPasses]
    split
    · exact h
    split
    · exact ih (Bus.wrote_mono h)
    · exact ih h

/-- One pass, when it moves what it counts, goes on with the copy. -/
theorem copied_pass (off : BitVec 32) (hi : 0 < i.toNat) (hi4 : i.toNat ≤ 4)
    (hcount : movedCount (rem / i).toNat = (rem / i).toNat) (hsum : off.toNat + rem.toNat < 2 ^ 32)
    (hno : NonOverlap src dest (off.toNat + rem.toNat)) (hb : Copied src dest off.toNat b₀ b) :
    (off + rem / i * i).toNat = off.toNat + rem.toNat / i.toNat * i.toNat ∧
      (rem - rem / i * i).toNat = rem.toNat % i.toNat ∧
      Copied src dest (off + rem / i * i).toNat b₀
        (b.moveElements ((i * 8#32).toNat / 8) (src + off) (dest + off) ((i * 8#32).toNat / 8)
          ((i * 8#32).toNat / 8) (movedCount (rem / i).toNat)) := by
  have hwidth : (i * 8#32).toNat / 8 = i.toNat := by
    rw [BitVec.toNat_mul, BitVec.toNat_ofNat]
    omega
  have hle : rem.toNat / i.toNat * i.toNat ≤ rem.toNat := Nat.div_mul_le_self _ _
  have hmul : (rem / i * i).toNat = rem.toNat / i.toNat * i.toNat := by
    rw [BitVec.toNat_mul, BitVec.toNat_udiv, Nat.mod_eq_of_lt (by omega)]
  have hoff : (off + rem / i * i).toNat = off.toNat + rem.toNat / i.toNat * i.toNat := by
    rw [BitVec.toNat_add, hmul, Nat.mod_eq_of_lt (by omega)]
  refine ⟨hoff, ?_, ?_⟩
  · have hdiv := Nat.div_add_mod rem.toNat i.toNat
    rw [Nat.mul_comm] at hdiv
    rw [BitVec.toNat_sub_of_le (by rw [BitVec.le_def, hmul]; exact hle), hmul]
    omega
  · rw [hoff, hwidth, hcount, BitVec.toNat_udiv]
    have hpart : ∀ x : BitVec 32, x + off = x + BitVec.ofNat 32 off.toNat := by simp
    rw [hpart src, hpart dest]
    refine hb.append (Bus.copied_moveElements (by omega) ?_) (by omega) (hno.mono (by omega))
    intro x hs hd
    refine hno x ?_ ?_
    · exact (inRange_add (by omega)).2 (.inr (lt_of_lt_of_le hs hle))
    · exact (inRange_add (by omega)).2 (.inr (lt_of_lt_of_le hd hle))

/-- Passes over less than a descriptor's worth of elements go on with the copy. By induction on the
passes. -/
theorem copied_copyPasses (his : ∀ i ∈ is, 0 < i.toNat ∧ i.toNat ≤ 4) (hrem : rem.toNat < 65536)
    (hsum : off.toNat + rem.toNat < 2 ^ 32) (hno : NonOverlap src dest (off.toNat + rem.toNat))
    (hb : Copied src dest off.toNat b₀ b) :
    Copied src dest (copyPasses dest src is off rem b).1.toNat b₀
      (copyPasses dest src is off rem b).2 := by
  induction is generalizing off rem b with
  | nil => exact hb
  | cons i is ih =>
    obtain ⟨⟨hi, hi4⟩, his⟩ := List.forall_mem_cons.1 his
    rw [copyPasses]
    split
    · exact hb
    split
    · have hcount : movedCount (rem / i).toNat = (rem / i).toNat := by
        have hle : (rem / i).toNat ≤ rem.toNat := by
          rw [BitVec.toNat_udiv]
          exact Nat.div_le_self _ _
        rw [movedCount, if_neg (fun h => absurd h.1 (by omega))]
      obtain ⟨hoff, hrem', hb'⟩ := copied_pass off hi hi4 hcount hsum hno hb
      have hmod := Nat.mod_le rem.toNat i.toNat
      have hdiv := Nat.div_add_mod rem.toNat i.toNat
      rw [Nat.mul_comm] at hdiv
      refine ih his (by omega) (by omega) ?_ hb'
      rw [hoff, hrem']
      exact hno.mono (by omega)
    · exact ih his hrem hsum hno hb

/-! ## The first pass -/

/-- What a pass asks of its first element size is that a whole element is left. -/
theorem le_maskLow_iff {k : Nat} (hk : k < 32) (x : BitVec 32) :
    BitVec.ofNat 32 (2 ^ k) ≤ maskLow x (BitVec.ofNat 32 (2 ^ k)) ↔ BitVec.ofNat 32 (2 ^ k) ≤ x := by
  have hpow : (BitVec.ofNat 32 (2 ^ k)).toNat = 2 ^ k := by
    rw [BitVec.toNat_ofNat, Nat.mod_eq_of_lt (Nat.pow_lt_pow_right (by decide) hk)]
  have hpos := Nat.two_pow_pos k
  rw [BitVec.le_def, BitVec.le_def, maskLow_toNat hk, hpow]
  constructor
  · intro h
    exact h.trans (Nat.div_mul_le_self _ _)
  · intro h
    have hdiv : 1 ≤ x.toNat / 2 ^ k := (Nat.one_le_div_iff hpos).2 h
    exact Nat.le_mul_of_pos_left _ hdiv

/-- The condition of a pass before anything is copied. -/
theorem pass_iff (dest src count : BitVec 32) {k : Nat} (hk : k < 32) :
    ((src + 0#32) % BitVec.ofNat 32 (2 ^ k) = (dest + 0#32) % BitVec.ofNat 32 (2 ^ k) ∧
      (src + 0#32) % BitVec.ofNat 32 (2 ^ k) = 0#32 ∧
      BitVec.ofNat 32 (2 ^ k) ≤ maskLow count (BitVec.ofNat 32 (2 ^ k))) ↔
    (dest % BitVec.ofNat 32 (2 ^ k) = 0#32 ∧ src % BitVec.ofNat 32 (2 ^ k) = 0#32 ∧
      BitVec.ofNat 32 (2 ^ k) ≤ count) := by
  rw [le_maskLow_iff hk, BitVec.add_zero, BitVec.add_zero]
  constructor
  · rintro ⟨heq, hz, hle⟩
    exact ⟨heq ▸ hz, hz, hle⟩
  · rintro ⟨hd, hs, hle⟩
    exact ⟨hs.trans hd.symm, hs, hle⟩

/-- A copy of something begins with the pass of `firstWidth`. -/
theorem copyPasses_first (dest src : BitVec 32) (hcount : 0 < count.toNat) (b : Bus) :
    ∃ is, (∀ i ∈ is, 0 < i.toNat ∧ i.toNat ≤ 4) ∧
      copyPasses dest src [4#32, 2#32, 1#32] 0#32 count b =
        copyPasses dest src is (0#32 + count / firstWidth dest src count * firstWidth dest src count)
          (count - count / firstWidth dest src count * firstWidth dest src count)
          (b.moveElements ((firstWidth dest src count * 8#32).toNat / 8) (src + 0#32) (dest + 0#32)
            ((firstWidth dest src count * 8#32).toNat / 8)
            ((firstWidth dest src count * 8#32).toNat / 8)
            (movedCount (count / firstWidth dest src count).toNat)) := by
  have hz : count ≠ 0#32 := by
    rintro rfl
    exact absurd hcount (by simp)
  have h4 := pass_iff dest src count (show 2 < 32 by decide)
  have h2 := pass_iff dest src count (show 1 < 32 by decide)
  have h1 := pass_iff dest src count (show 0 < 32 by decide)
  simp only [Nat.reducePow] at h4 h2 h1
  by_cases hg4 : dest % 4#32 = 0#32 ∧ src % 4#32 = 0#32 ∧ 4#32 ≤ count
  · have hw : firstWidth dest src count = 4#32 := if_pos hg4
    rw [hw]
    exact ⟨[2#32, 1#32], by simp, copyPasses_pass hz (h4.2 hg4)⟩
  have hskip4 : copyPasses dest src [4#32, 2#32, 1#32] 0#32 count b =
      copyPasses dest src [2#32, 1#32] 0#32 count b :=
    copyPasses_skip hz fun h => hg4 (h4.1 h)
  by_cases hg2 : dest % 2#32 = 0#32 ∧ src % 2#32 = 0#32 ∧ 2#32 ≤ count
  · have hw : firstWidth dest src count = 2#32 := (if_neg hg4).trans (if_pos hg2)
    rw [hw, hskip4]
    exact ⟨[1#32], by simp, copyPasses_pass hz (h2.2 hg2)⟩
  · have hw : firstWidth dest src count = 1#32 := (if_neg hg4).trans (if_neg hg2)
    have hg1 : dest % 1#32 = 0#32 ∧ src % 1#32 = 0#32 ∧ 1#32 ≤ count := by
      refine ⟨BitVec.umod_one, BitVec.umod_one, ?_⟩
      rw [BitVec.le_def]
      exact hcount
    have hskip2 : copyPasses dest src [2#32, 1#32] 0#32 count b =
        copyPasses dest src [1#32] 0#32 count b :=
      copyPasses_skip hz fun h => hg2 (h2.1 h)
    rw [hw, hskip4, hskip2]
    exact ⟨[], by simp, copyPasses_pass hz (h1.2 hg1)⟩

theorem firstWidth_bounds (dest src count : BitVec 32) :
    0 < (firstWidth dest src count).toNat ∧ (firstWidth dest src count).toNat ≤ 4 := by
  unfold firstWidth
  split
  · decide
  split
  · decide
  · decide

/-- A first pass with too many elements writes the byte after the destination. -/
theorem wrote_overrun (hcount : 0 < count.toNat) (ho : Overruns dest src count) (b : Bus) :
    (copyPasses dest src [4#32, 2#32, 1#32] 0#32 count b).2.wrote (dest + count) = true := by
  obtain ⟨is, -, hfirst⟩ := copyPasses_first dest src hcount b
  obtain ⟨hw, hw4⟩ := firstWidth_bounds dest src count
  obtain ⟨hlong, hmod⟩ := ho
  rw [hfirst]
  generalize firstWidth dest src count = w at hw hw4 hlong hmod ⊢
  have hwidth : (w * 8#32).toNat / 8 = w.toNat := by
    rw [BitVec.toNat_mul, BitVec.toNat_ofNat]
    omega
  have hdiv := Nat.div_add_mod count.toNat w.toNat
  have hlt := Nat.mod_lt count.toNat hw
  have hcnt := count.isLt
  rw [Nat.mul_comm] at hdiv
  apply wrote_copyPasses
  rw [movedCount, if_pos ⟨hlong, hmod⟩, hwidth]
  -- the byte is in the first element after those asked for
  refine Bus.wrote_of_element (i := (count / w).toNat) (by omega) ?_
  rw [InRange, Bus.strided, BitVec.add_zero, BitVec.toNat_udiv, BitVec.toNat_sub]
  simp only [BitVec.toNat_add, BitVec.toNat_ofNat]
  omega

/-- The byte after the destination is not in it. -/
theorem not_inRange_end (dest count : BitVec 32) : ¬ InRange (dest + count) dest count.toNat := by
  rw [InRange, BitVec.add_comm, BitVec.add_sub_cancel]
  exact Nat.lt_irrefl _

/-- The passes of a copy that reaches its end are a copy, unless the first has too many elements. -/
theorem copied_of_not_overruns (hcount : 0 < count.toNat) (hno : NonOverlap src dest count.toNat)
    (ho : ¬ Overruns dest src count) {b b' : Bus}
    (hend : (count, b') = copyPasses dest src [4#32, 2#32, 1#32] 0#32 count b) :
    Copied src dest count.toNat b b' := by
  obtain ⟨is, his, hfirst⟩ := copyPasses_first dest src hcount b
  obtain ⟨hw, hw4⟩ := firstWidth_bounds dest src count
  have hmoved : movedCount (count / firstWidth dest src count).toNat =
      (count / firstWidth dest src count).toNat := if_neg ho
  have hcnt := count.isLt
  have hzero : (0#32).toNat + count.toNat = count.toNat := by simp
  obtain ⟨hoff, hrem, hcopied⟩ := copied_pass 0#32 hw hw4 hmoved (by omega)
    (hzero.symm ▸ hno) (Copied.refl (b := b))
  have hdiv := Nat.div_add_mod count.toNat (firstWidth dest src count).toNat
  have hlt := Nat.mod_lt count.toNat hw
  rw [Nat.mul_comm] at hdiv
  have hsmall : (count - count / firstWidth dest src count * firstWidth dest src count).toNat <
      65536 := by omega
  have hrest := copied_copyPasses his hsmall (by omega) (hno.mono (by omega)) hcopied
  rw [← hfirst, ← hend] at hrest
  exact hrest

/-- A copy that returns its destination has written the bytes it was asked for, with those at the
source, and no others, if and only if its first pass does not overrun. -/
theorem nuPdmaMemcpy_exact_iff {o : BitVec 32 → TransferEnd} {mem : BitVec 32 → Byte} {b' : Bus}
    (hcalls : Run callStep NuPdma.reset cs s) (hcount : 0 < count.toNat)
    (hno : NonOverlap src dest count.toNat)
    (hret : nuPdmaMemcpy o s ⟨mem, fun _ => false⟩ dest src count = .ok (some dest, s', b')) :
    Copied src dest count.toNat ⟨mem, fun _ => false⟩ b' ↔ ¬ Overruns dest src count := by
  have hpasses := ((nuPdmaMemcpy_returns (sgtblsOk_calls hcalls) dest src count).of_ok hret).2 rfl
  constructor
  · intro hcopied ho
    have hwrote := wrote_overrun hcount ho ⟨mem, fun _ => false⟩
    rw [← hpasses] at hwrote
    rcases (hcopied.wrote _).1 hwrote with hbefore | hin
    · cases hbefore
    · exact not_inRange_end dest count hin
  · intro ho
    exact copied_of_not_overruns hcount hno ho hpasses

end

/-! ## Two copies -/

/-- The driver with its actors set up, as the system starts. -/
def memfunReady : NuPdma :=
  match nuPdmaMemfunActorInit NuPdma.reset with
  | .ok s => s
  | .error _ => NuPdma.reset

theorem run_memfunReady : Run callStep NuPdma.reset [.memfunInit] memfunReady :=
  .snoc .nil (show nuPdmaMemfunActorInit NuPdma.reset = .ok memfunReady from rfl)

/-- A transfer that is done, with room for three descriptors. -/
def doneEnd : TransferEnd where
  malloc := .ofList true [64#32, 128#32, 192#32]
  events := NU_PDMA_EVENT_TRANSFER_DONE
  left := 0#32
  stopped := id

/-- A memory of zeros. -/
def zeroBus : Bus := ⟨fun _ => 0#8, fun _ => false⟩

theorem returns_of_toOption {α β γ : Type} {x : Except Halt (α × β × γ)} {r : α}
    (h : x.toOption.map (·.1) = some r) : ∃ s b, x = .ok (r, s, b) := by
  cases x with
  | error e => cases h
  | ok a =>
    obtain ⟨r', s, b⟩ := a
    obtain rfl : r' = r := Option.some.inj h
    exact ⟨s, b, rfl⟩

/-- Ranges that begin at distinct places and do not reach each other. -/
theorem nonOverlap_of_lt {sa da : BitVec 32} {n : Nat} (h1 : sa.toNat + n ≤ da.toNat)
    (h2 : da.toNat + n ≤ 2 ^ 32) : NonOverlap sa da n := by
  intro a hs hd
  have ha := a.isLt
  simp only [InRange, BitVec.toNat_sub] at hs hd
  omega

/-- Three bytes between odd addresses. -/
theorem nuPdmaMemcpy_exact_iff_three : ∃ s' b',
    nuPdmaMemcpy (fun _ => doneEnd) memfunReady zeroBus 0x80000001#32 0x10000001#32 3#32 =
      .ok (some 0x80000001#32, s', b') ∧
    (Copied 0x10000001#32 0x80000001#32 3 zeroBus b' ↔
      ¬ Overruns 0x80000001#32 0x10000001#32 3#32) := by
  obtain ⟨s', b', hret⟩ := returns_of_toOption (r := some 0x80000001#32)
    (x := nuPdmaMemcpy (fun _ => doneEnd) memfunReady zeroBus 0x80000001#32 0x10000001#32 3#32) rfl
  exact ⟨s', b', hret, nuPdmaMemcpy_exact_iff run_memfunReady (by decide)
    (nonOverlap_of_lt (by decide) (by decide)) hret⟩

/-- 131072 bytes between odd addresses: the last of the three descriptors moves 65536 bytes more. -/
theorem not_memcpyExact : ¬ ∀ cs s o mem dest src count s' b',
    Run callStep NuPdma.reset cs s → 0 < count.toNat → NonOverlap src dest count.toNat →
    nuPdmaMemcpy o s ⟨mem, fun _ => false⟩ dest src count = .ok (some dest, s', b') →
    Copied src dest count.toNat ⟨mem, fun _ => false⟩ b' := by
  intro h
  obtain ⟨s', b', hret⟩ := returns_of_toOption (r := some 0x80000001#32)
    (x := nuPdmaMemcpy (fun _ => doneEnd) memfunReady zeroBus 0x80000001#32 0x10000001#32 0x20000#32)
    rfl
  have hno : NonOverlap 0x10000001#32 0x80000001#32 (0x20000#32).toNat :=
    nonOverlap_of_lt (by decide) (by decide)
  have hcopied := h _ _ _ _ _ _ _ s' b' run_memfunReady (by decide) hno hret
  have hpasses := ((nuPdmaMemcpy_returns (sgtblsOk_calls run_memfunReady) _ _ _).of_ok hret).2 rfl
  have hoverruns : Overruns 0x80000001#32 0x10000001#32 0x20000#32 := by
    unfold Overruns
    decide
  have hwrote := wrote_overrun (by decide) hoverruns zeroBus
  rw [← hpasses] at hwrote
  rcases (hcopied.wrote _).1 hwrote with hbefore | hin
  · cases hbefore
  · exact not_inRange_end _ _ hin

end NumakerMA35D1.Pdma

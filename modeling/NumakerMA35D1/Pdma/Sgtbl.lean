import NumakerMA35D1.Pdma.Memfun
import NumakerMA35D1.Lib.Owners

/-!
# Scatter-gather tables

What the driver's calls do to the descriptor tables of the channels. `Sgtbls` is the part of the
state that matters here: the table and the wanted length of each channel, and the descriptors that
are allocated. Four things can happen to it: a channel gives its table back (`free`), gets one
(`grant`), is left wanting one it did not get (`want`), or has its record wiped (`forget`). A
transfer does the first two, or leaves the channel wanting (`nuPdmaTransfer_returns`); an allocation
of a channel does the last (`nuPdmaChannelAllocate_returns`); no other call does anything (`Keeps`).

`SgtblsOk` holds after all four, `SgtblsInv` after the first two.
-/

namespace NumakerMA35D1.Pdma

open Embedded

/-- The tables of the channels, their wanted lengths and the allocated descriptors. -/
structure Sgtbls where
  table : Nat → Option (List (BitVec 32))
  wanted : Nat → BitVec 32
  live : Set (BitVec 32)

/-- The tables in a state of the driver. -/
def NuPdma.sgtbls (s : NuPdma) : Sgtbls where
  table ch := (s.nuPdmaChnArr ch).m_ppsSgtbl
  wanted ch := (s.nuPdmaChnArr ch).m_u32WantedSGTblNum
  live := {a | (s.heap a).isSome}

namespace Sgtbls

/-- Who holds which descriptors. -/
def owners (t : Sgtbls) : Owners Nat (BitVec 32) where
  held ch := (t.table ch).getD []
  live := t.live

/-- A channel's table is given back, with its descriptors. -/
def free (t : Sgtbls) (ch : Nat) : Sgtbls where
  table := Function.update t.table ch none
  wanted := Function.update t.wanted ch 0#32
  live := {a | a ∈ t.live ∧ a ∉ (t.table ch).getD []}

/-- A channel gets a table of new descriptors. -/
def grant (t : Sgtbls) (ch : Nat) (ps : List (BitVec 32)) : Sgtbls where
  table := Function.update t.table ch (some ps)
  wanted := Function.update t.wanted ch (BitVec.ofNat 32 ps.length)
  live := {a | a ∈ t.live ∨ a ∈ ps}

/-- A channel wants a table and has none. -/
def want (t : Sgtbls) (ch : Nat) (n : BitVec 32) : Sgtbls where
  table := Function.update t.table ch none
  wanted := Function.update t.wanted ch n
  live := t.live

/-- A channel's record is wiped. -/
def forget (t : Sgtbls) (ch : Nat) : Sgtbls := t.want ch 0#32

/-- A table a channel can get: as many descriptors as it wants, none of them in use. -/
structure Fresh (t : Sgtbls) (ps : List (BitVec 32)) : Prop where
  nodup : ps.Nodup
  ne_zero : ∀ a ∈ ps, a ≠ 0#32
  fresh : ∀ a ∈ ps, a ∉ t.live
  pos : 0 < ps.length
  fits : ps.length < 2 ^ 32

theorem held_of_table {t : Sgtbls} {ch : Nat} {o : Option (List (BitVec 32))}
    (h : t.table ch = o) : t.owners.held ch = o.getD [] :=
  congrArg (·.getD []) h

theorem owners_update (t : Sgtbls) (ch : Nat) (o : Option (List (BitVec 32)))
    (w : Nat → BitVec 32) (l : Set (BitVec 32)) :
    (Sgtbls.mk (Function.update t.table ch o) w l).owners =
      ⟨Function.update t.owners.held ch (o.getD []), l⟩ := by
  simp only [owners, Owners.mk.injEq, and_true]
  funext c
  rw [Function.update_apply, Function.update_apply]
  split <;> rfl

/-- Giving no descriptors back before a table is replaced makes no difference. -/
theorem free_eq_want {t : Sgtbls} {ch : Nat} (h : (t.table ch).getD [] = []) :
    t.free ch = t.want ch 0#32 := by
  simp only [free, want, Sgtbls.mk.injEq, true_and]
  ext a
  simp [h]

theorem want_want (t : Sgtbls) (ch : Nat) (n n' : BitVec 32) :
    (t.want ch n).want ch n' = t.want ch n' := by
  simp only [want, Function.update_idem]

theorem grant_want (t : Sgtbls) (ch : Nat) (n : BitVec 32) (ps : List (BitVec 32)) :
    (t.want ch n).grant ch ps = t.grant ch ps := by
  simp only [want, grant, Function.update_idem]

theorem owners_free (t : Sgtbls) (ch : Nat) : (t.free ch).owners = t.owners.release ch :=
  owners_update t ch none _ _

theorem owners_grant (t : Sgtbls) (ch : Nat) (ps : List (BitVec 32)) :
    (t.grant ch ps).owners = t.owners.grant ch ps :=
  owners_update t ch (some ps) _ _

theorem owners_want (t : Sgtbls) (ch : Nat) (n : BitVec 32) :
    (t.want ch n).owners = t.owners.forget ch :=
  owners_update t ch none _ _

end Sgtbls

/-! ## The invariants -/

/-- A table has the wanted number of descriptors, which no other channel has and which are
allocated. -/
structure SgtblsOk (t : Sgtbls) : Prop where
  length : ∀ {ch ps}, t.table ch = some ps → ps.length = (t.wanted ch).toNat
  ne_zero : ∀ {ch ps a}, t.table ch = some ps → a ∈ ps → a ≠ 0#32
  exclusive : t.owners.Exclusive

/-- Moreover a channel without a table wants none, and no allocated descriptor is outside the
tables. -/
structure SgtblsInv (t : Sgtbls) : Prop extends SgtblsOk t where
  null_iff : ∀ ch, t.table ch = none ↔ t.wanted ch = 0#32
  accounted : t.owners.Accounted

section

variable {t : Sgtbls} {ch : Nat} {ps : List (BitVec 32)} {n : BitVec 32}

/-- What holds of the new table of a channel and of the old ones of the others holds of all. -/
theorem SgtblsOk.update {o : Option (List (BitVec 32))} {l : Set (BitVec 32)} (h : SgtblsOk t)
    (hlen : ∀ ps, o = some ps → ps.length = n.toNat)
    (hne : ∀ ps, o = some ps → ∀ a ∈ ps, a ≠ 0#32)
    (hex : (Owners.mk (Function.update t.owners.held ch (o.getD [])) l).Exclusive) :
    SgtblsOk ⟨Function.update t.table ch o, Function.update t.wanted ch n, l⟩ where
  length {c ps} hps := by
    simp only [Function.update_apply] at hps ⊢
    split at hps
    · rw [if_pos ‹_›]
      exact hlen ps hps
    · rw [if_neg ‹_›]
      exact h.length hps
  ne_zero {c ps a} hps ha := by
    simp only [Function.update_apply] at hps
    split at hps
    · exact hne ps hps a ha
    · exact h.ne_zero hps ha
  exclusive := by
    rw [Sgtbls.owners_update]
    exact hex

theorem SgtblsOk.free (h : SgtblsOk t) (ch : Nat) : SgtblsOk (t.free ch) :=
  h.update (fun _ hps => nomatch hps) (fun _ hps => nomatch hps) (h.exclusive.release ch)

theorem SgtblsOk.want (h : SgtblsOk t) (ch : Nat) (n : BitVec 32) : SgtblsOk (t.want ch n) :=
  h.update (fun _ hps => nomatch hps) (fun _ hps => nomatch hps) (h.exclusive.forget ch)

theorem SgtblsOk.grant (h : SgtblsOk t) (hps : t.Fresh ps) (ch : Nat) : SgtblsOk (t.grant ch ps) := by
  refine h.update ?_ ?_ (h.exclusive.grant hps.nodup hps.fresh)
  · rintro _ ⟨⟩
    rw [BitVec.toNat_ofNat, Nat.mod_eq_of_lt hps.fits]
  · rintro _ ⟨⟩
    exact hps.ne_zero

/-- A wanted length agrees with the table it is for. -/
theorem null_iff_update {o : Option (List (BitVec 32))} (h : SgtblsInv t)
    (ho : o = none ↔ n = 0#32) (c : Nat) :
    Function.update t.table ch o c = none ↔ Function.update t.wanted ch n c = 0#32 := by
  rw [Function.update_apply, Function.update_apply]
  split
  · exact ho
  · exact h.null_iff c

theorem SgtblsInv.free (h : SgtblsInv t) (ch : Nat) : SgtblsInv (t.free ch) where
  toSgtblsOk := h.toSgtblsOk.free ch
  null_iff := null_iff_update h (by simp)
  accounted := by
    rw [Sgtbls.owners_free]
    exact h.accounted.release ch

theorem SgtblsInv.grant (h : SgtblsInv t) (hps : t.Fresh ps) (hnone : t.table ch = none) :
    SgtblsInv (t.grant ch ps) where
  toSgtblsOk := h.toSgtblsOk.grant hps ch
  null_iff := by
    refine null_iff_update h ?_
    have hlen : BitVec.ofNat 32 ps.length ≠ 0#32 := by
      intro hzero
      have hlen := congrArg BitVec.toNat hzero
      rw [BitVec.toNat_ofNat, Nat.mod_eq_of_lt hps.fits] at hlen
      exact absurd hlen hps.pos.ne'
    simp [hlen]
  accounted := by
    rw [Sgtbls.owners_grant]
    exact h.accounted.grant (Sgtbls.held_of_table hnone) ps

/-- A record can be wiped when and only when it holds no table. -/
theorem SgtblsInv.forget_iff (h : SgtblsInv t) :
    SgtblsInv (t.forget ch) ↔ t.table ch = none := by
  have hheld : (t.forget ch).owners.Accounted ↔ t.owners.held ch = [] := by
    rw [Sgtbls.forget, Sgtbls.owners_want]
    exact h.accounted.forget_iff h.exclusive
  constructor
  · intro hf
    rw [h.null_iff]
    cases htab : t.table ch with
    | none => exact (h.null_iff ch).1 htab
    | some ps =>
      have hnil : ps = [] := (Sgtbls.held_of_table htab).symm.trans (hheld.1 hf.accounted)
      have hlen := h.length htab
      rw [hnil] at hlen
      exact BitVec.eq_of_toNat_eq hlen.symm
  · intro hnone
    exact ⟨h.toSgtblsOk.want ch 0#32, null_iff_update h (by simp),
      hheld.2 (Sgtbls.held_of_table hnone)⟩

end

end NumakerMA35D1.Pdma

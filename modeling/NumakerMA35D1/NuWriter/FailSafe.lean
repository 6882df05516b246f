import NumakerMA35D1.NuWriter.NandImage
import NumakerMA35D1.NuWriter.ProgramStatus

/-!
# The header while a pack is programmed

The children are programmed from the last to the first, so the boot header, child 0, comes last. However a run
is interrupted before child 0 is begun, every sector or block on which no other child is placed holds what it
held (`interrupted_keeps`): the old header survives if no other child is placed on it.
-/

namespace NumakerMA35D1.NuWriter

open Embedded

/-! ## Devices in units -/

/-- The content of a device after operations: the sectors of a block device, the pages of a flash. -/
def Target.after (target : Target) (dev : Nat → List Byte) (ops : List StorageOp) : Nat → List Byte :=
  match target with
  | .block .. => sectorsAfter dev ops
  | .mtd device => device.after dev ops

/-- The unit in which a cell of the device is written: its sector, or the block of its page. -/
def Target.unitOf (target : Target) (cell : Nat) : Nat :=
  match target with
  | .block .. => cell
  | .mtd device => cell / device.pagesPerBlock

/-- The unit that an operation changes. -/
def Target.home (target : Target) (op : StorageOp) : Option Nat :=
  match target with
  | .block .. => op.sector.map Prod.fst
  | .mtd device => device.blockOf op

/-- The operations that a pack leads to. -/
def Target.plan (target : Target) (cs : List PackChild) : List StorageOp :=
  match target with
  | .block none _ => []
  | .block (some bytes_per_sector) block_buffer =>
    if bytes_per_sector = 0 then [] else blockOps bytes_per_sector block_buffer cs
  | .mtd device => (device.ready cs).flatMap device.childOps

/-- A child is placed on a sector: from that of its flash address, as many as are counted. On a block: one of
those it is programmed into. -/
def Target.PlacedOn (target : Target) (c : PackChild) (u : Nat) : Prop :=
  match target with
  | .block geo _ => ∃ bytes_per_sector ∈ geo, ∃ k < (totalSectors bytes_per_sector c).toNat,
      (sectorPos bytes_per_sector c k).toNat = u
  | .mtd device => ∃ op ∈ device.childOps c, device.blockOf op = some u

/-- The operations that a run does; one that does not end only looks for a good block. -/
def runLog (run : Option Finished) : List StorageOp :=
  match run with
  | some r => r.log
  | none => []

/-- A device before child 0 is begun, when a run was interrupted after `k` operations: the operation begun last,
if there is one, may have left anything in its unit. -/
structure Interrupted (target : Target) (others : List PackChild) (log : List StorageOp) (k : Nat)
    (dev dev' : Nat → List Byte) : Prop where
  done : k ≤ log.length
  before : k ≤ (target.plan others).length
  kept : ∀ cell, (∀ op ∈ (target.plan others)[k]?, target.home op ≠ some (target.unitOf cell)) →
    dev' cell = target.after dev (log.take k) cell

section

variable {target : Target} {c c₀ : PackChild} {cs others : List PackChild} {dev dev' : Nat → List Byte}
  {ops log : List StorageOp} {cell k u : Nat} {env : Env} {r : Finished}

/-- Operations on other units leave a cell. -/
theorem Target.after_other (h : ∀ op ∈ ops, target.home op ≠ some (target.unitOf cell)) :
    target.after dev ops cell = dev cell := by
  cases target with
  | mtd device => exact device.after_other h
  | block geo block_buffer =>
    induction ops generalizing dev with
    | nil => rfl
    | cons op ops ih =>
      obtain ⟨hop, hops⟩ := List.forall_mem_cons.1 h
      refine (ih hops).trans ?_
      cases op with
      | writeSector pos buffer => exact Function.update_of_ne (fun heq => hop (congrArg some heq.symm)) _ _
      | eraseBlock _ => rfl
      | writePage _ _ => rfl
      | readPage _ => rfl
      | writeFile _ => rfl

/-- The operations of the other children come before those of child 0. -/
theorem Target.plan_cons (target : Target) (c₀ : PackChild) (others : List PackChild) :
    target.plan others <+: target.plan (c₀ :: others) := by
  cases target with
  | block geo block_buffer =>
    cases geo with
    | none => exact List.prefix_refl _
    | some bytes_per_sector =>
      rw [plan, plan]
      split
      · exact List.prefix_refl _
      · rw [blockOps, blockOps, packPieces_cons, sectorWrites_append]
        exact List.prefix_append _ _
  | mtd device =>
    rw [plan, plan, MtdNandDevice.ready, MtdNandDevice.ready, List.reverse_cons, List.takeWhile_append]
    split
    · rw [List.flatMap_append]
      next hall =>
        have heq : others.reverse.takeWhile device.aligned = others.reverse :=
          List.Sublist.eq_of_length (List.takeWhile_sublist _) hall
        rw [heq]
        exact List.prefix_append _ _
    · exact List.prefix_refl _

/-- An operation on a unit belongs to a child that is placed on it. -/
theorem Target.placed_of_plan {op : StorageOp} (hop : op ∈ target.plan cs) (hu : target.home op = some u) :
    ∃ c ∈ cs, target.PlacedOn c u := by
  cases target with
  | block geo block_buffer =>
    cases geo with
    | none => cases hop
    | some bytes_per_sector =>
      rw [plan] at hop
      split at hop
      · cases hop
      · -- a write is of a piece
        have hpiece : ∀ {buffer : List Byte} {ps : List (BitVec 32 × List Byte)},
            op ∈ sectorWrites buffer ps → ∃ p ∈ ps, p.1.toNat = u := by
          intro buffer ps hop
          induction ps generalizing buffer with
          | nil => cases hop
          | cons p ps ih =>
            rcases List.mem_cons.1 hop with rfl | hop
            · exact ⟨p, List.mem_cons_self .., Option.some.inj hu⟩
            · obtain ⟨q, hq, heq⟩ := ih hop
              exact ⟨q, List.mem_cons_of_mem _ hq, heq⟩
        obtain ⟨p, hp, rfl⟩ := hpiece hop
        obtain ⟨c, hc, k, hk, rfl⟩ := mem_packPieces.1 hp
        exact ⟨c, hc, bytes_per_sector, rfl, k, hk, rfl⟩
  | mtd device =>
    obtain ⟨c, hc, hop⟩ := List.mem_flatMap.1 hop
    exact ⟨c, List.mem_reverse.1 (List.takeWhile_subset _ hc), op, hop, hu⟩

/-- What operations that may fail have done is a part of them, from the first on. -/
theorem performAll_log (fails : Nat → Bool) (ops : List StorageOp) :
    (∃ log, performAll fails [] ops = .ok log ∧ log <+: ops) ∨
      ∃ log, performAll fails [] ops = .error (.failed log) ∧ log <+: ops := by
  cases h : performAll fails [] ops with
  | ok log => exact .inl ⟨log, rfl, by rw [(performAll_eq_ok.1 h).1]; exact List.prefix_refl _⟩
  | error stop =>
    obtain ⟨k, -, -, rfl⟩ := performAll_eq_error h
    exact .inr ⟨_, rfl, List.take_prefix _ _⟩

/-- A run that ends has done a part of the operations of its pack, from the first on. -/
theorem programTarget_log (hload : ∀ c ∈ cs, c.Loaded) (h : programTarget env cs = some r) :
    r.log <+: env.target.plan cs := by
  rw [programTarget] at h
  cases htarget : env.target with
  | block geo block_buffer =>
    rw [htarget] at h
    change finish 0 (nuwriterPackProgramBlock env.fails geo block_buffer cs) = some r at h
    cases geo with
    | none =>
      cases h
      exact List.prefix_refl _
    | some bytes_per_sector =>
      rw [Target.plan]
      by_cases hzero : bytes_per_sector = 0
      · have hrefused : nuwriterPackProgramBlock env.fails (some bytes_per_sector) block_buffer cs =
            .error (.refused []) := if_pos hzero
        rw [hrefused] at h
        cases h
        exact List.nil_prefix
      · rw [if_neg hzero]
        rw [nuwriterPackProgramBlock_eq hload hzero] at h
        rcases performAll_log env.fails (blockOps bytes_per_sector block_buffer cs) with
          ⟨log, heq, hprefix⟩ | ⟨log, heq, hprefix⟩
        · rw [heq] at h
          cases h
          exact hprefix
        · rw [heq] at h
          cases h
          exact hprefix
  | mtd device =>
    rw [htarget] at h
    change finish (-1) (nuwriterPackProgramMtd env.fails device cs) = some r at h
    by_cases hgood : ∃ block, device.bad block = false
    · rw [nuwriterPackProgramMtd_eq hload hgood] at h
      rcases performAll_log env.fails ((device.ready cs).flatMap device.childOps) with
        ⟨log, heq, hprefix⟩ | ⟨log, heq, hprefix⟩
      · rw [heq, ok_bind] at h
        split at h
        · cases h
          exact hprefix
        · cases h
          exact hprefix
      · rw [heq] at h
        cases h
        exact hprefix
    · have hbad : ∀ block, device.bad block = true := fun block =>
        Bool.eq_true_of_not_eq_false fun heq => hgood ⟨block, heq⟩
      by_cases hblock : ∃ c ∈ device.ready cs, device.totalBlock c ≠ 0
      · rw [nuwriterPackProgramMtd_endless hbad hblock] at h
        cases h
      · rw [nuwriterPackProgramMtd_idle fun c hc => not_not.1 fun hne => hblock ⟨c, hc, hne⟩] at h
        split at h
        · cases h
          exact List.nil_prefix
        · cases h
          exact List.nil_prefix

/-- A run that does not end does nothing on the way. -/
theorem runLog_begins (hload : ∀ c ∈ cs, c.Loaded) :
    runLog (programTarget env cs) <+: env.target.plan cs := by
  cases h : programTarget env cs with
  | none => exact List.nil_prefix
  | some r => exact programTarget_log hload h

/-- However a run is interrupted before child 0 is begun, by a failure or at any other step, a sector or block on
which no other child is placed holds what it held. Reference: `nuwriter.c:418 nuwriter_pack_program_block`,
`nuwriter.c:500 nuwriter_pack_program_mtd`. -/
theorem interrupted_keeps (env : Env) (c₀ : PackChild) (others : List PackChild) (k : Nat)
    (dev dev' : Nat → List Byte) (hload : ∀ c ∈ c₀ :: others, c.Loaded)
    (hstop : Interrupted env.target others (runLog (programTarget env (c₀ :: others))) k dev dev') (u : Nat)
    (hfree : ∀ c ∈ others, ¬ env.target.PlacedOn c u) :
    ∀ cell, env.target.unitOf cell = u → dev' cell = dev cell := by
  intro cell hcell
  have helse : ∀ op ∈ env.target.plan others, env.target.home op ≠ some (env.target.unitOf cell) := by
    intro op hop hhome
    obtain ⟨c, hc, hplaced⟩ := Target.placed_of_plan hop (hhome.trans (congrArg some hcell))
    exact hfree c hc hplaced
  -- the operations done are of the other children
  have hdone : (runLog (programTarget env (c₀ :: others))).take k = (env.target.plan others).take k := by
    have hlog : (runLog (programTarget env (c₀ :: others))).take k =
        (env.target.plan (c₀ :: others)).take k := by
      obtain ⟨rest, hrest⟩ := @runLog_begins _ env hload
      rw [← hrest, List.take_append_of_le_length hstop.done]
    obtain ⟨rest, hrest⟩ := env.target.plan_cons c₀ others
    rw [hlog, ← hrest, List.take_append_of_le_length hstop.before]
  rw [hstop.kept cell fun op hop => helse op (List.mem_of_getElem? hop), hdone]
  exact Target.after_other fun op hop => helse op (List.mem_of_mem_take hop)

/-- A header of 8 bytes in sector 2. -/
def header : PackChild := ⟨8#64, 1024#64, 0#32, List.replicate 8 1⟩

/-- An image of 8 bytes in sector 3. -/
def sectorImage : PackChild := ⟨8#64, 1536#64, 0#32, List.replicate 8 1⟩

/-- A device with 512 bytes to a sector that loses power at the second operation. -/
def losesPower : Env := ⟨true, true, .block (some 512#32) (List.replicate 512 0), fun k => k = 1⟩

/-- What is on it: zeros before, and what the first operation left. -/
def zeroSectors (_ : Nat) : List Byte := List.replicate 512 0
@[inherit_doc zeroSectors]
def firstWritten : Nat → List Byte :=
  losesPower.target.after zeroSectors ((runLog (programTarget losesPower [header, sectorImage])).take 1)

theorem losesPower_loaded : ∀ c ∈ [header, sectorImage], c.Loaded :=
  List.forall_mem_cons.2 ⟨⟨by decide, by decide⟩, List.forall_mem_singleton.2 ⟨by decide, by decide⟩⟩

theorem losesPower_interrupted : Interrupted losesPower.target [sectorImage]
    (runLog (programTarget losesPower [header, sectorImage])) 1 zeroSectors firstWritten :=
  ⟨by decide +kernel, by decide +kernel, fun _ _ => rfl⟩

/-- Sector 2 is kept while the image is programmed. -/
theorem interrupted_keeps_header : firstWritten 2 = zeroSectors 2 := by
  refine interrupted_keeps losesPower header [sectorImage] 1 zeroSectors firstWritten losesPower_loaded
    losesPower_interrupted 2 (fun c hc hplaced => ?_) 2 rfl
  rw [List.mem_singleton.1 hc] at hplaced
  obtain ⟨bytes_per_sector, hgeo, k, hk, heq⟩ := hplaced
  cases hgeo
  have hcount : (totalSectors 512#32 sectorImage).toNat = 1 := by decide
  have hk0 : k = 0 := by omega
  subst hk0
  exact absurd heq (by decide)

/-- The header before was longer, and had sector 3 too: the image is written over its end. -/
theorem not_headerKept :
    ¬ ∀ (env : Env) (c₀ : PackChild) (others : List PackChild) (previous : PackChild) (k : Nat)
      (dev dev' : Nat → List Byte), (∀ c ∈ c₀ :: others, c.Loaded) →
      Interrupted env.target others (runLog (programTarget env (c₀ :: others))) k dev dev' →
      ∀ u, env.target.PlacedOn previous u → ∀ cell, env.target.unitOf cell = u → dev' cell = dev cell := by
  intro h
  let longHeader : PackChild := ⟨1024#64, 1024#64, 0#32, List.replicate 1024 1⟩
  have hplaced : losesPower.target.PlacedOn longHeader 3 := ⟨512#32, rfl, 1, by decide, by decide⟩
  have hkept := h losesPower header [sectorImage] longHeader 1 zeroSectors firstWritten losesPower_loaded
    losesPower_interrupted 3 hplaced 3 rfl
  have hfirst : (firstWritten 3)[0]? = some 1 := by decide +kernel
  rw [hkept] at hfirst
  cases hfirst

end

end NumakerMA35D1.NuWriter

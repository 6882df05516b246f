import NumakerMA35D1.NuWriter.Plan

/-!
# What a pack leaves on a block device

A block device is its sectors. After a pack is programmed each child's bytes are to be found at its
flash address, and no other byte has changed, but for the padding behind a child in its last sector,
which must not hold data (`ImageRight`). The program writes whole sectors through one buffer: a short
piece leaves what came before behind it. `blockRight_iff` says for which addresses and lengths a pack is
programmed right whatever its data, `Placeable`.
-/

namespace NumakerMA35D1.NuWriter

open Embedded

/-! ## Sectors -/

/-- The sector and the content of a write. -/
def StorageOp.sector : StorageOp → Option (Nat × List Byte)
  | .writeSector pos buffer => some (pos.toNat, buffer)
  | _ => none

/-- The sectors of a device after one operation. -/
def sectorStep (dev : Nat → List Byte) (op : StorageOp) : Nat → List Byte :=
  match op.sector with
  | some (pos, buffer) => Function.update dev pos buffer
  | none => dev

/-- The sectors of a device after operations. -/
def sectorsAfter (dev : Nat → List Byte) (ops : List StorageOp) : Nat → List Byte :=
  ops.foldl sectorStep dev

/-- The byte at an address of a device with `n` bytes to a sector. -/
def byteAt (n : Nat) (dev : Nat → List Byte) (x : Nat) : Option Byte := (dev (x / n))[x % n]?

/-! ## Packs -/

/-- Where a child goes, and how long it is. -/
def PackChild.layout (c : PackChild) : BitVec 64 × BitVec 64 :=
  (c.m_ui64FlashAddress, c.m_ui64ImageLength)

/-- The first byte of a child, and the byte behind its last. -/
def PackChild.start (c : PackChild) : Nat := c.m_ui64FlashAddress.toNat
@[inherit_doc PackChild.start]
def PackChild.stop (c : PackChild) : Nat := c.start + c.len

/-- An address behind a child, in its last sector. -/
def PackChild.Pads (n : Nat) (c : PackChild) (x : Nat) : Prop :=
  0 < c.len ∧ c.stop ≤ x ∧ x / n = (c.stop - 1) / n

/-- Each child's bytes are at its address. A byte that is no child's is kept, but for the padding of a last
sector, where the bytes of the buffer may be that no child's data went over. -/
structure ImageRight (n : Nat) (cs : List PackChild) (buffer : List Byte) (dev dev' : Nat → List Byte) :
    Prop where
  data : ∀ c ∈ cs, ∀ i < c.len, byteAt n dev' (c.start + i) = c.data[i]?
  rest : ∀ x, (∀ c ∈ cs, ¬ (c.start ≤ x ∧ x < c.stop)) →
    byteAt n dev' x = byteAt n dev x ∨ (∃ c ∈ cs, c.Pads n x) ∧ byteAt n dev' x = buffer[x % n]?

/-- Every pack of this layout that is programmed with success leaves the right image. -/
def BlockRight (bytes_per_sector : BitVec 32) (cs : List PackChild) : Prop :=
  ∀ cs', cs'.map PackChild.layout = cs.map PackChild.layout → (∀ c ∈ cs', c.Loaded) →
    ∀ fails buffer dev log, buffer.length = bytes_per_sector.toNat →
      (∀ s, (dev s).length = bytes_per_sector.toNat) →
      nuwriterPackProgramBlock fails (some bytes_per_sector) buffer cs' = .ok log →
      ImageRight bytes_per_sector.toNat cs' buffer dev (sectorsAfter dev log)

/-- A child with data begins with a sector, its sectors have a number and are counted right, and no two children
overlap. -/
structure Sectored (bytes_per_sector : BitVec 32) (cs : List PackChild) : Prop where
  aligned : ∀ c ∈ cs, 0 < c.len → c.start % bytes_per_sector.toNat = 0
  inReach : ∀ c ∈ cs, 0 < c.len → (c.stop - 1) / bytes_per_sector.toNat < 2 ^ 32
  counted : ∀ c ∈ cs, (totalSectors bytes_per_sector c).toNat = c.numPieces bytes_per_sector.toNat
  apart : cs.Pairwise fun c d => 0 < c.len → 0 < d.len → c.stop ≤ d.start ∨ d.stop ≤ c.start

/-- The layouts that are programmed right: besides, a child that does not fill its last sector has this sector
only, and none behind it in the list is longer. -/
structure Placeable (bytes_per_sector : BitVec 32) (cs : List PackChild) : Prop
    extends Sectored bytes_per_sector cs where
  short : ∀ c ∈ cs, c.len % bytes_per_sector.toNat ≠ 0 → c.len < bytes_per_sector.toNat
  fresh : cs.Pairwise fun c d => c.len % bytes_per_sector.toNat ≠ 0 → d.len ≤ c.len

/-! ## The buffer -/

section

variable {buffer piece : List Byte} {dev : Nat → List Byte} {ps post : List (BitVec 32 × List Byte)}
  {s j : Nat} {pos : BitVec 32} {v : Byte} {Q : Byte → Prop}

theorem sectorsAfter_append (ops ops' : List StorageOp) :
    sectorsAfter dev (ops ++ ops') = sectorsAfter (sectorsAfter dev ops) ops' :=
  List.foldl_append

/-- What a copy leaves at an index. -/
theorem copyTo_getElem (buffer piece : List Byte) (j : Nat) :
    (copyTo buffer piece)[j]? = if j < piece.length then piece[j]? else buffer[j]? := by
  rw [copyTo, List.getElem?_append, List.getElem?_drop]
  split
  · rfl
  · next hle => rw [Nat.add_sub_cancel' (Nat.le_of_not_lt hle)]

/-- A sector that is not written. -/
theorem sectorsAfter_other (h : ∀ p ∈ ps, p.1.toNat ≠ s) :
    sectorsAfter dev (sectorWrites buffer ps) s = dev s := by
  induction ps generalizing buffer dev with
  | nil => rfl
  | cons p ps ih =>
    obtain ⟨hp, hps⟩ := List.forall_mem_cons.1 h
    exact (ih hps).trans (Function.update_of_ne hp.symm _ _)

/-- A sector that is not written again holds the buffer. -/
theorem sectorsAfter_last (h : ∀ p ∈ post, p.1 ≠ pos) :
    sectorsAfter dev (sectorWrites buffer (ps ++ (pos, piece) :: post)) pos.toNat =
      copyTo (lastBuffer buffer ps) piece := by
  have hne : ∀ p ∈ post, p.1.toNat ≠ pos.toNat := fun p hp heq => h p hp (BitVec.eq_of_toNat_eq heq)
  rw [sectorWrites_append, sectorsAfter_append, sectorWrites]
  exact (sectorsAfter_other hne).trans (Function.update_self _ _ _)

/-- What holds of the bytes at an index of a device, of the buffer and of the pieces still holds after the
writes. -/
theorem sectorsAfter_forall (hdev : ∀ s v, (dev s)[j]? = some v → Q v)
    (hbuffer : ∀ v, buffer[j]? = some v → Q v)
    (hps : ∀ p ∈ ps, ∀ v, p.2[j]? = some v → Q v) :
    ∀ v, (sectorsAfter dev (sectorWrites buffer ps) s)[j]? = some v → Q v := by
  induction ps generalizing buffer dev with
  | nil => exact hdev s
  | cons p ps ih =>
    obtain ⟨hp, hps⟩ := List.forall_mem_cons.1 hps
    have hcopy : ∀ v, (copyTo buffer p.2)[j]? = some v → Q v := by
      intro v hv
      rw [copyTo_getElem] at hv
      split at hv
      · exact hp v hv
      · exact hbuffer v hv
    refine ih (fun s' v hv => ?_) hcopy hps
    change (Function.update dev p.1.toNat (copyTo buffer p.2) s')[j]? = some v at hv
    by_cases hs : s' = p.1.toNat
    · rw [hs, Function.update_self] at hv
      exact hcopy v hv
    · rw [Function.update_of_ne hs] at hv
      exact hdev s' v hv

/-- Short pieces leave the buffer behind them. -/
theorem lastBuffer_keep (h : ∀ p ∈ ps, p.2.length ≤ j) : (lastBuffer buffer ps)[j]? = buffer[j]? := by
  induction ps generalizing buffer with
  | nil => rfl
  | cons p ps ih =>
    obtain ⟨hp, hps⟩ := List.forall_mem_cons.1 h
    exact (ih hps).trans ((copyTo_getElem buffer p.2 j).trans (if_neg (Nat.not_lt.2 hp)))

/-- A piece that is long enough stays in the buffer under its like. -/
theorem lastBuffer_touched (hlong : ∃ p ∈ ps, j < p.2.length)
    (hps : ∀ p ∈ ps, j < p.2.length → p.2[j]? = some v) :
    (lastBuffer buffer ps)[j]? = some v := by
  induction ps using List.reverseRecOn with
  | nil =>
    obtain ⟨p, hp, -⟩ := hlong
    cases hp
  | append_singleton ps p ih =>
    have hlast : lastBuffer buffer (ps ++ [p]) = copyTo (lastBuffer buffer ps) p.2 := lastBuffer_append
    rw [hlast, copyTo_getElem]
    split
    · next hj => exact hps p (List.mem_append_right _ (List.mem_singleton_self p)) hj
    · next hj =>
      refine ih ?_ fun q hq => hps q (List.mem_append_left _ hq)
      obtain ⟨q, hq, hjq⟩ := hlong
      rcases List.mem_append.1 hq with hq | hq
      · exact ⟨q, hq, hjq⟩
      · exact absurd (List.mem_singleton.1 hq ▸ hjq) hj

end

/-! ## The pieces of a pack -/

section

variable {bytes_per_sector : BitVec 32} {cs cs' l l' : List PackChild} {c d : PackChild} {n k i : Nat}
  {buffer : List Byte} {dev : Nat → List Byte} {p : BitVec 32 × List Byte}

theorem packPieces_append : packPieces bytes_per_sector (l ++ l') =
    packPieces bytes_per_sector l' ++ packPieces bytes_per_sector l := by
  rw [packPieces, List.reverse_append, List.flatMap_append]
  rfl

theorem packPieces_cons : packPieces bytes_per_sector (c :: l) =
    packPieces bytes_per_sector l ++ sectorPieces bytes_per_sector c 0 (totalSectors bytes_per_sector c).toNat := by
  rw [← List.singleton_append, packPieces_append]
  exact congrArg (packPieces bytes_per_sector l ++ ·) (List.append_nil _)

theorem mem_sectorPieces : p ∈ sectorPieces bytes_per_sector c k n ↔
    ∃ i, k ≤ i ∧ i < k + n ∧ p = (sectorPos bytes_per_sector c i, c.piece bytes_per_sector.toNat i) := by
  rw [sectorPieces, List.mem_map]
  constructor
  · rintro ⟨i, hi, rfl⟩
    obtain ⟨hle, hlt⟩ := List.mem_range'_1.1 hi
    exact ⟨i, hle, hlt, rfl⟩
  · rintro ⟨i, hle, hlt, rfl⟩
    exact ⟨i, List.mem_range'_1.2 ⟨hle, hlt⟩, rfl⟩

theorem mem_packPieces : p ∈ packPieces bytes_per_sector cs ↔
    ∃ c ∈ cs, ∃ k < (totalSectors bytes_per_sector c).toNat,
      p = (sectorPos bytes_per_sector c k, c.piece bytes_per_sector.toNat k) := by
  rw [packPieces, List.mem_flatMap]
  constructor
  · rintro ⟨c, hc, hp⟩
    obtain ⟨k, -, hlt, rfl⟩ := mem_sectorPieces.1 hp
    exact ⟨c, List.mem_reverse.1 hc, k, by omega, rfl⟩
  · rintro ⟨c, hc, k, hlt, rfl⟩
    exact ⟨c, List.mem_reverse.2 hc, mem_sectorPieces.2 ⟨k, Nat.zero_le _, by omega, rfl⟩⟩

/-- The byte at an index of a piece. -/
theorem PackChild.piece_getElem {j : Nat} (c : PackChild) (k : Nat) (hj : j < n) :
    (c.piece n k)[j]? = c.data[k * n + j]? := by
  rw [piece, List.getElem?_take_of_lt hj, List.getElem?_drop]

/-- The sector of a piece is no sector behind the child's last. -/
theorem PackChild.sector_le (hn : 0 < n) (hk : k < c.numPieces n) : c.start / n + k ≤ (c.stop - 1) / n := by
  have hlt := (PackChild.mul_lt_len hn).1 hk
  have hle : c.start / n * n ≤ c.start := Nat.div_mul_le_self _ _
  have hstop : c.stop = c.start + c.len := rfl
  rw [Nat.le_div_iff_mul_le hn, Nat.add_mul]
  omega

theorem sectorPos_toNat (h : c.start / bytes_per_sector.toNat + k < 2 ^ 32) :
    (sectorPos bytes_per_sector c k).toNat = c.start / bytes_per_sector.toNat + k := by
  have hwidth : (bytes_per_sector.setWidth 64).toNat = bytes_per_sector.toNat :=
    BitVec.toNat_setWidth_of_le (by decide)
  have hlt : c.start / bytes_per_sector.toNat + k < 2 ^ 64 := Nat.lt_trans h (by decide)
  have hk : k < 2 ^ 64 := Nat.lt_of_le_of_lt (Nat.le_add_left _ _) hlt
  rw [sectorPos, BitVec.toNat_setWidth, BitVec.toNat_add, BitVec.toNat_udiv, hwidth, BitVec.toNat_ofNat,
    Nat.mod_eq_of_lt hk]
  change (c.start / bytes_per_sector.toNat + k) % 2 ^ 64 % 2 ^ 32 = _
  rw [Nat.mod_eq_of_lt hlt, Nat.mod_eq_of_lt h]

/-- What holds of every child's layout holds for every pack of the layout. -/
theorem forall_layout {P : BitVec 64 × BitVec 64 → Prop}
    (h : cs'.map PackChild.layout = cs.map PackChild.layout) (hcs : ∀ c ∈ cs, P c.layout) :
    ∀ c ∈ cs', P c.layout := by
  rw [← List.forall_mem_map] at hcs ⊢
  rwa [h]

theorem pairwise_layout {R : BitVec 64 × BitVec 64 → BitVec 64 × BitVec 64 → Prop}
    (h : cs'.map PackChild.layout = cs.map PackChild.layout) (hcs : cs.Pairwise fun c d => R c.layout d.layout) :
    cs'.Pairwise fun c d => R c.layout d.layout := by
  rw [← List.pairwise_map] at hcs ⊢
  rwa [h]

theorem Placeable.same_layout (h : Placeable bytes_per_sector cs)
    (hsame : cs'.map PackChild.layout = cs.map PackChild.layout) : Placeable bytes_per_sector cs' := by
  let n := bytes_per_sector.toNat
  have haligned := forall_layout (P := fun l => 0 < l.2.toNat → l.1.toNat % n = 0) hsame h.aligned
  have hreach := forall_layout (P := fun l => 0 < l.2.toNat → (l.1.toNat + l.2.toNat - 1) / n < 2 ^ 32)
    hsame h.inReach
  have hcounted := forall_layout (P := fun l => ((rtAlign64 l.2 bytes_per_sector /
    bytes_per_sector.setWidth 64).setWidth 32).toNat = (l.2.toNat + (n - 1)) / n) hsame h.counted
  have hapart := pairwise_layout (R := fun l m => 0 < l.2.toNat → 0 < m.2.toNat →
    l.1.toNat + l.2.toNat ≤ m.1.toNat ∨ m.1.toNat + m.2.toNat ≤ l.1.toNat) hsame h.apart
  have hshort := forall_layout (P := fun l => l.2.toNat % n ≠ 0 → l.2.toNat < n) hsame h.short
  have hfresh := pairwise_layout (R := fun l m => l.2.toNat % n ≠ 0 → m.2.toNat ≤ l.2.toNat) hsame h.fresh
  exact ⟨⟨haligned, hreach, hcounted, hapart⟩, hshort, hfresh⟩

/-! ## Packs that are placed right -/

/-- Two children that do not overlap have no sector in common. -/
theorem sector_ne {k' : Nat} (hn : 0 < n) (hc : c.start % n = 0) (hd : d.start % n = 0) (hk : k < c.numPieces n)
    (hk' : k' < d.numPieces n) (h : c.stop ≤ d.start ∨ d.stop ≤ c.start) :
    c.start / n + k ≠ d.start / n + k' := by
  have hbefore : ∀ {a b : PackChild} {i m : Nat}, b.start % n = 0 → i < a.numPieces n → a.stop ≤ b.start →
      a.start / n + i < b.start / n + m := by
    intro a b i m hb hi hle
    have hlast := PackChild.sector_le hn hi
    have hpos := Nat.lt_of_le_of_lt (Nat.zero_le _) ((PackChild.mul_lt_len hn).1 hi)
    have hstop : a.stop = a.start + a.len := rfl
    have hlt : (a.stop - 1) / n < b.start / n := by
      rw [Nat.div_lt_iff_lt_mul hn, Nat.div_mul_cancel (Nat.dvd_of_mod_eq_zero hb)]
      omega
    omega
  rcases h with h | h
  · exact Nat.ne_of_lt (hbefore hd hk h)
  · exact Nat.ne_of_gt (hbefore hc hk' h)

/-- The sector of a piece holds the buffer as it was then. -/
theorem Sectored.sector_eq (h : Sectored bytes_per_sector (l ++ c :: l')) (hn : 0 < bytes_per_sector.toNat)
    (hk : k < c.numPieces bytes_per_sector.toNat) :
    sectorsAfter dev (blockOps bytes_per_sector buffer (l ++ c :: l')) (c.start / bytes_per_sector.toNat + k) =
      copyTo (lastBuffer buffer (packPieces bytes_per_sector l' ++ sectorPieces bytes_per_sector c 0 k))
        (c.piece bytes_per_sector.toNat k) := by
  have hmem : c ∈ l ++ c :: l' := List.mem_append_right _ (List.mem_cons_self ..)
  have hplace : ∀ d ∈ l ++ c :: l', ∀ i < d.numPieces bytes_per_sector.toNat,
      0 < d.len ∧ (sectorPos bytes_per_sector d i).toNat = d.start / bytes_per_sector.toNat + i := by
    intro d hd i hi
    have hpos := Nat.lt_of_le_of_lt (Nat.zero_le _) ((PackChild.mul_lt_len hn).1 hi)
    exact ⟨hpos, sectorPos_toNat (Nat.lt_of_le_of_lt (PackChild.sector_le hn hi) (h.inReach d hd hpos))⟩
  obtain ⟨hpos, hsector⟩ := hplace c hmem k hk
  -- the pieces of the child, at this one
  have hsplit : sectorPieces bytes_per_sector c 0 (c.numPieces bytes_per_sector.toNat) =
      sectorPieces bytes_per_sector c 0 k ++
        (sectorPos bytes_per_sector c k, c.piece bytes_per_sector.toNat k) ::
          sectorPieces bytes_per_sector c (k + 1) (c.numPieces bytes_per_sector.toNat - (k + 1)) := by
    obtain ⟨m, hm⟩ : ∃ m, c.numPieces bytes_per_sector.toNat = k + (m + 1) :=
      ⟨c.numPieces bytes_per_sector.toNat - (k + 1), by omega⟩
    have hrest : k + (m + 1) - (k + 1) = m := by omega
    rw [hm, hrest, sectorPieces, ← List.range'_append_1, List.map_append, Nat.zero_add, List.range'_succ,
      List.map_cons]
    rfl
  have hpieces : packPieces bytes_per_sector (l ++ c :: l') =
      (packPieces bytes_per_sector l' ++ sectorPieces bytes_per_sector c 0 k) ++
        (sectorPos bytes_per_sector c k, c.piece bytes_per_sector.toNat k) ::
          (sectorPieces bytes_per_sector c (k + 1) (c.numPieces bytes_per_sector.toNat - (k + 1)) ++
            packPieces bytes_per_sector l) := by
    rw [packPieces_append, packPieces_cons, h.counted c hmem, hsplit]
    simp only [List.append_assoc, List.cons_append]
  rw [← hsector, blockOps, hpieces]
  refine sectorsAfter_last fun p hp heq => ?_
  rcases List.mem_append.1 hp with hp | hp
  · obtain ⟨i, hle, hlt, rfl⟩ := mem_sectorPieces.1 hp
    have hi := (hplace c hmem i (by omega)).2
    change sectorPos bytes_per_sector c i = _ at heq
    rw [heq, hsector] at hi
    omega
  · obtain ⟨d, hd, i, hlt, rfl⟩ := mem_packPieces.1 hp
    have hdmem : d ∈ l ++ c :: l' := List.mem_append_left _ hd
    rw [h.counted d hdmem] at hlt
    obtain ⟨hdpos, hi⟩ := hplace d hdmem i hlt
    have hapart := (List.pairwise_append.1 h.apart).2.2 d hd c (List.mem_cons_self ..) hdpos hpos
    change sectorPos bytes_per_sector d i = _ at heq
    rw [heq, hsector] at hi
    exact sector_ne hn (h.aligned c hmem hpos) (h.aligned d hdmem hdpos) hk hlt hapart.symm hi

/-- A length that ends in a sector, at an index or before it. -/
theorem rest_of_len {len j : Nat} (hk : k * n < len) (hle : len ≤ k * n + j) (hj : j < n) :
    len % n = len - k * n ∧ len / n = k := by
  have hlen : len = len - k * n + k * n := by omega
  have hlt : len - k * n < n := by omega
  constructor
  · rw [hlen, Nat.add_mul_mod_self_right, Nat.add_sub_cancel, Nat.mod_eq_of_lt hlt]
  · rw [hlen, Nat.add_mul_div_right _ _ (by omega), Nat.div_eq_of_lt hlt, Nat.zero_add]

/-- A pack that is placed right leaves the right image. -/
theorem Placeable.imageRight (h : Placeable bytes_per_sector cs) (hn : 0 < bytes_per_sector.toNat)
    (hload : ∀ c ∈ cs, c.Loaded) (hbuffer : buffer.length = bytes_per_sector.toNat) :
    ImageRight bytes_per_sector.toNat cs buffer dev
      (sectorsAfter dev (blockOps bytes_per_sector buffer cs)) := by
  refine ⟨fun c hc i hi => ?_, fun x hx => ?_⟩
  · obtain ⟨l, l', rfl⟩ := List.append_of_mem hc
    have hpos : 0 < c.len := Nat.lt_of_le_of_lt (Nat.zero_le _) hi
    have haligned := h.aligned c hc hpos
    have hk : i / bytes_per_sector.toNat < c.numPieces bytes_per_sector.toNat :=
      (PackChild.mul_lt_len hn).2 (Nat.lt_of_le_of_lt (Nat.div_mul_le_self _ _) hi)
    have hdiv : (c.start + i) / bytes_per_sector.toNat =
        c.start / bytes_per_sector.toNat + i / bytes_per_sector.toNat :=
      Nat.add_div_of_dvd_right (Nat.dvd_of_mod_eq_zero haligned)
    have hmod : (c.start + i) % bytes_per_sector.toNat = i % bytes_per_sector.toNat := by
      rw [Nat.add_mod, haligned, Nat.zero_add, Nat.mod_mod]
    have hparts := Nat.div_add_mod' i bytes_per_sector.toNat
    have hin : i % bytes_per_sector.toNat <
        (c.piece bytes_per_sector.toNat (i / bytes_per_sector.toNat)).length := by
      rw [PackChild.piece_length (hload c hc)]
      exact Nat.lt_min.2 ⟨Nat.mod_lt _ hn, by omega⟩
    rw [byteAt, hdiv, hmod, h.sector_eq hn hk, copyTo_getElem, if_pos hin,
      PackChild.piece_getElem c _ (Nat.mod_lt _ hn), hparts]
  · by_cases hwritten : ∃ p ∈ packPieces bytes_per_sector cs, p.1.toNat = x / bytes_per_sector.toNat
    · obtain ⟨p, hp, hpx⟩ := hwritten
      obtain ⟨c, hc, k, hk, rfl⟩ := mem_packPieces.1 hp
      rw [h.counted c hc] at hk
      have hklen := (PackChild.mul_lt_len hn).1 hk
      have hpos : 0 < c.len := Nat.lt_of_le_of_lt (Nat.zero_le _) hklen
      have hsector := sectorPos_toNat (Nat.lt_of_le_of_lt (PackChild.sector_le hn hk) (h.inReach c hc hpos))
      have hxk : x / bytes_per_sector.toNat = c.start / bytes_per_sector.toNat + k := hpx.symm.trans hsector
      have hx' := Nat.div_add_mod' x bytes_per_sector.toNat
      have hstart := Nat.div_mul_cancel (Nat.dvd_of_mod_eq_zero (h.aligned c hc hpos))
      rw [hxk, Nat.add_mul, hstart] at hx'
      have hstop : c.stop = c.start + c.len := rfl
      have hj := Nat.mod_lt x hn
      have hbehind : c.stop ≤ x := by
        have hnot := hx c hc
        omega
      obtain ⟨hmod, hk'⟩ := rest_of_len hklen (j := x % bytes_per_sector.toNat) (by omega) hj
      have hpart : c.len % bytes_per_sector.toNat ≠ 0 := by omega
      have hshort := h.short c hc hpart
      have hk0 : k = 0 := by rw [← hk', Nat.div_eq_of_lt hshort]
      subst hk0
      obtain ⟨l, l', rfl⟩ := List.append_of_mem hc
      have hbyte : byteAt bytes_per_sector.toNat
          (sectorsAfter dev (blockOps bytes_per_sector buffer (l ++ c :: l'))) x =
          buffer[x % bytes_per_sector.toNat]? := by
        rw [byteAt, hxk, h.sector_eq hn hk, copyTo_getElem, if_neg, lastBuffer_keep]
        · intro p hp
          rcases List.mem_append.1 hp with hp | hp
          · obtain ⟨d, hd, i, -, rfl⟩ := mem_packPieces.1 hp
            have hfresh := (List.pairwise_cons.1 (List.pairwise_append.1 h.fresh).2.1).1 d hd hpart
            have hlen : (d.piece bytes_per_sector.toNat i).length = _ :=
              PackChild.piece_length (hload d (List.mem_append_right _ (List.mem_cons_of_mem _ hd))) i
            show (d.piece bytes_per_sector.toNat i).length ≤ _
            omega
          · obtain ⟨i, -, hlt, -⟩ := mem_sectorPieces.1 hp
            omega
        · rw [PackChild.piece_length (hload c hc)]
          omega
      refine .inr ⟨⟨c, hc, hpos, hbehind, ?_⟩, hbyte⟩
      have hend : c.stop - 1 = c.start + (c.len - 1) := by omega
      rw [hxk, hend, Nat.add_div_of_dvd_right (Nat.dvd_of_mod_eq_zero (h.aligned c hc hpos)),
        Nat.div_eq_of_lt (by omega : c.len - 1 < bytes_per_sector.toNat)]
    · refine .inl ?_
      rw [byteAt, blockOps, sectorsAfter_other fun p hp hpx => hwritten ⟨p, hp, hpx⟩]
      rfl

/-! ## The data of a layout -/

/-- A child with other data. -/
def PackChild.withData (c : PackChild) (f : Nat → Byte) : PackChild :=
  { c with m_au8Data := (List.range c.len).map f }

/-- A pack with other data, by the number of the child and the index. -/
def filled (f : Nat → Nat → Byte) (cs : List PackChild) : List PackChild :=
  cs.mapIdx fun p c => c.withData (f p)

variable {f : Nat → Nat → Byte} {g : Nat → Byte} {v w : Byte} {j q x : Nat}

theorem PackChild.withData_getElem (c : PackChild) (g : Nat → Byte) (hi : i < c.len) :
    (c.withData g).data[i]? = some (g i) := by
  have hlen : (c.withData g).len = c.len := rfl
  rw [data, hlen, List.getElem?_take_of_lt hi, withData, List.getElem?_map, List.getElem?_range hi]
  rfl

theorem PackChild.withData_of_getElem (h : (c.withData g).data[i]? = some v) : i < c.len ∧ v = g i := by
  have hi : i < c.len := by
    by_contra hle
    have hlen : (c.withData g).data.length ≤ i := by
      rw [data, List.length_take]
      exact Nat.le_trans (Nat.min_le_left _ _) (Nat.le_of_not_lt hle)
    rw [List.getElem?_eq_none hlen] at h
    cases h
  rw [PackChild.withData_getElem c g hi] at h
  exact ⟨hi, (Option.some.inj h).symm⟩

theorem mem_filled : c ∈ filled f cs ↔ ∃ p, ∃ hp : p < cs.length, cs[p].withData (f p) = c :=
  List.mem_mapIdx

theorem filled_layout (f : Nat → Nat → Byte) (cs : List PackChild) :
    (filled f cs).map PackChild.layout = cs.map PackChild.layout := by
  refine List.ext_getElem (by simp [filled]) fun p hp hp' => ?_
  simp only [filled, List.getElem_map, List.getElem_mapIdx]
  rfl

theorem filled_loaded (h : ∀ c ∈ cs, c.Loaded) : ∀ c ∈ filled f cs, c.Loaded := by
  intro c hc
  obtain ⟨p, hp, rfl⟩ := mem_filled.1 hc
  have hlen : (cs[p].withData (f p)).m_au8Data.length = cs[p].len := by
    rw [PackChild.withData, List.length_map, List.length_range]
  have hlt := (h _ (List.getElem_mem hp)).len_lt
  exact ⟨Nat.le_of_eq hlen.symm, by rw [hlen]; exact hlt⟩

theorem BlockRight.same_layout (h : BlockRight bytes_per_sector cs)
    (hsame : cs'.map PackChild.layout = cs.map PackChild.layout) : BlockRight bytes_per_sector cs' :=
  fun cs'' hlayout => h cs'' (hlayout.trans hsame)

/-! ## Packs that are programmed right -/

/-- The image of a pack, from a device and a buffer of one byte only. -/
theorem BlockRight.image (h : BlockRight bytes_per_sector cs) (hn : 0 < bytes_per_sector.toNat)
    (hload : ∀ c ∈ cs, c.Loaded) (v : Byte) :
    ImageRight bytes_per_sector.toNat cs (List.replicate bytes_per_sector.toNat v)
      (fun _ => List.replicate bytes_per_sector.toNat v)
      (sectorsAfter (fun _ => List.replicate bytes_per_sector.toNat v)
        (blockOps bytes_per_sector (List.replicate bytes_per_sector.toNat v) cs)) := by
  have hne : bytes_per_sector ≠ 0 := by
    rintro rfl
    exact Nat.lt_irrefl _ hn
  refine h cs rfl hload (fun _ => false) _ _ _ List.length_replicate (fun _ => List.length_replicate) ?_
  rw [nuwriterPackProgramBlock_eq hload hne]
  exact performAll_eq_ok.2 ⟨rfl, fun _ _ => rfl⟩

theorem replicate_getElem (h : (List.replicate n v)[j]? = some w) : w = v :=
  List.eq_of_mem_replicate (List.mem_of_getElem? h)

/-- A byte that nothing but itself goes to the index of stays. -/
theorem byteAt_quiet (hn : 0 < bytes_per_sector.toNat)
    (hf : ∀ p, ∀ hp : p < cs.length, ∀ k < (totalSectors bytes_per_sector cs[p]).toNat,
      f p (k * bytes_per_sector.toNat + x % bytes_per_sector.toNat) = v)
    (h : byteAt bytes_per_sector.toNat (sectorsAfter (fun _ => List.replicate bytes_per_sector.toNat v)
      (blockOps bytes_per_sector (List.replicate bytes_per_sector.toNat v) (filled f cs))) x = some w) : w = v := by
  refine sectorsAfter_forall (fun s w => replicate_getElem) (fun w => replicate_getElem) (fun p hp w hw => ?_) w h
  obtain ⟨c, hc, k, hk, rfl⟩ := mem_packPieces.1 hp
  obtain ⟨q, hq, rfl⟩ := mem_filled.1 hc
  rw [PackChild.piece_getElem _ _ (Nat.mod_lt _ hn)] at hw
  rw [(PackChild.withData_of_getElem hw).2, hf q hq k hk]

/-- What must be so of the layout. -/
theorem BlockRight.sectored (h : BlockRight bytes_per_sector cs) (hn : 0 < bytes_per_sector.toNat)
    (hload : ∀ c ∈ cs, c.Loaded) : Sectored bytes_per_sector cs := by
  -- the image of the layout with some data, on a device of zeros
  have himage : ∀ f, ∀ p, ∀ hp : p < cs.length, ∀ i < cs[p].len,
      byteAt bytes_per_sector.toNat (sectorsAfter (fun _ => List.replicate bytes_per_sector.toNat 0)
        (blockOps bytes_per_sector (List.replicate bytes_per_sector.toNat 0) (filled f cs)))
        (cs[p].start + i) = some (f p i) := by
    intro f p hp i hi
    have hright := (h.same_layout (filled_layout f cs)).image hn (filled_loaded hload) 0
    have hdata := hright.data _ (mem_filled.2 ⟨p, hp, rfl⟩) i hi
    rwa [PackChild.withData_getElem _ _ hi] at hdata
  refine ⟨fun c hc hpos => ?_, fun c hc hpos => ?_, fun c hc => ?_, ?_⟩
  · -- a byte that is the first of every child only comes to the start of a sector
    obtain ⟨p, hp, rfl⟩ := List.getElem_of_mem hc
    by_contra hne
    have hbyte := himage (fun _ i => if i = 0 then 1 else 0) p hp 0 hpos
    have hzero := byteAt_quiet hn (fun q hq k hk => if_neg (by rw [Nat.add_zero]; omega)) hbyte
    cases hzero
  · -- a sector without a number is not written
    obtain ⟨p, hp, rfl⟩ := List.getElem_of_mem hc
    by_contra hge
    have hbyte := himage (fun _ _ => 1) p hp (cs[p].len - 1) (by omega)
    have hx : cs[p].start + (cs[p].len - 1) = cs[p].stop - 1 := by
      have hstop : cs[p].stop = cs[p].start + cs[p].len := rfl
      omega
    rw [hx, byteAt, blockOps, sectorsAfter_other] at hbyte
    · cases replicate_getElem hbyte
    · intro q hq heq
      have hlt := q.1.isLt
      omega
  · -- a byte behind the sectors that are counted is not written
    obtain ⟨p, hp, rfl⟩ := List.getElem_of_mem hc
    refine Nat.le_antisymm (totalSectors_le (hload _ hc) hn) (Nat.le_of_not_lt fun hlt => ?_)
    have hin := (PackChild.mul_lt_len hn).1 hlt
    have hbyte := himage (fun q i => if i = (totalSectors bytes_per_sector cs[p]).toNat *
      bytes_per_sector.toNat ∧ q = p then 1 else 0) p hp _ hin
    have hzero := byteAt_quiet hn (fun q hq k hk => if_neg ?_) hbyte
    · rw [if_pos ⟨rfl, rfl⟩] at hzero
      cases hzero
    · rintro ⟨heq, rfl⟩
      have hle := Nat.mul_le_mul_right bytes_per_sector.toNat hk
      have hmod := Nat.mod_lt (cs[q].start + (totalSectors bytes_per_sector cs[q]).toNat *
        bytes_per_sector.toNat) hn
      rw [Nat.succ_mul] at hle
      omega
  · -- a byte of two children holds the data of both
    rw [List.pairwise_iff_getElem]
    intro p q hp hq hlt hppos hqpos
    by_contra hboth
    have hpstop : cs[p].stop = cs[p].start + cs[p].len := rfl
    have hqstop : cs[q].stop = cs[q].start + cs[q].len := rfl
    obtain ⟨i, i', hi, hi', heq⟩ : ∃ i i', i < cs[p].len ∧ i' < cs[q].len ∧
        cs[p].start + i = cs[q].start + i' := by
      rcases Nat.le_total cs[p].start cs[q].start with hle | hle
      · exact ⟨cs[q].start - cs[p].start, 0, by omega, hqpos, by omega⟩
      · exact ⟨0, cs[p].start - cs[q].start, hppos, by omega, by omega⟩
    have hone := himage (fun r _ => if r = p then 1 else 0) p hp i hi
    have hzero := himage (fun r _ => if r = p then 1 else 0) q hq i' hi'
    rw [heq, hzero, if_pos rfl, if_neg (Nat.ne_of_gt hlt)] at hone
    cases hone

/-- In a pack with ones for its data, no piece before a child's last, partial one is longer than it. -/
theorem BlockRight.not_stale (h : BlockRight bytes_per_sector (l ++ c :: l')) (hn : 0 < bytes_per_sector.toNat)
    (hload : ∀ d ∈ l ++ c :: l', d.Loaded) (hones : ∀ d ∈ l ++ c :: l', ∀ i < d.len, d.data[i]? = some 1)
    (hpart : c.len % bytes_per_sector.toNat ≠ 0) :
    ∀ p ∈ packPieces bytes_per_sector l' ++
        sectorPieces bytes_per_sector c 0 (c.len / bytes_per_sector.toNat),
      p.2.length ≤ c.len % bytes_per_sector.toNat := by
  have hsectored := h.sectored hn hload
  have hc : c ∈ l ++ c :: l' := List.mem_append_right _ (List.mem_cons_self ..)
  have hpos : 0 < c.len := Nat.pos_of_ne_zero fun hzero => hpart (by rw [hzero, Nat.zero_mod])
  have haligned := hsectored.aligned c hc hpos
  have hparts := Nat.div_add_mod' c.len bytes_per_sector.toNat
  have hstop : c.stop = c.start + c.len := rfl
  have hmod : c.stop % bytes_per_sector.toNat = c.len % bytes_per_sector.toNat := by
    rw [hstop, Nat.add_mod, haligned, Nat.zero_add, Nat.mod_mod]
  have hdiv : c.stop / bytes_per_sector.toNat =
      c.start / bytes_per_sector.toNat + c.len / bytes_per_sector.toNat :=
    Nat.add_div_of_dvd_right (Nat.dvd_of_mod_eq_zero haligned)
  -- the byte behind the child is no child's
  have hfree : ∀ d ∈ l ++ c :: l', ¬ (d.start ≤ c.stop ∧ c.stop < d.stop) := by
    rintro d hd ⟨hle, hlt⟩
    have hdpos : 0 < d.len := by
      have hdstop : d.stop = d.start + d.len := rfl
      omega
    have hdaligned := hsectored.aligned d hd hdpos
    have happly : c.stop ≤ d.start ∨ d.stop ≤ c.start → False := by
      rintro (hafter | hbefore)
      · rw [Nat.le_antisymm hle hafter, hmod] at hdaligned
        exact hpart hdaligned
      · omega
    rcases List.mem_append.1 hd with hd | hd
    · exact happly ((List.pairwise_append.1 hsectored.apart).2.2 d hd c (List.mem_cons_self ..) hdpos hpos).symm
    · rcases List.mem_cons.1 hd with rfl | hd
      · exact Nat.lt_irrefl _ hlt
      · exact happly ((List.pairwise_cons.1 (List.pairwise_append.1 hsectored.apart).2.1).1 d hd hpos hdpos)
  have hbyte : byteAt bytes_per_sector.toNat (sectorsAfter (fun _ => List.replicate bytes_per_sector.toNat 0)
      (blockOps bytes_per_sector (List.replicate bytes_per_sector.toNat 0) (l ++ c :: l'))) c.stop = some 0 := by
    have hzero : (List.replicate bytes_per_sector.toNat (0 : Byte))[c.stop % bytes_per_sector.toNat]? = some 0 :=
      List.getElem?_replicate_of_lt (Nat.mod_lt _ hn)
    rcases (h.image hn hload 0).rest c.stop hfree with hkept | ⟨-, hleft⟩
    · exact hkept.trans hzero
    · exact hleft.trans hzero
  have hlast : c.len / bytes_per_sector.toNat < c.numPieces bytes_per_sector.toNat :=
    (PackChild.mul_lt_len hn).2 (by omega)
  have hlen : (c.piece bytes_per_sector.toNat (c.len / bytes_per_sector.toNat)).length = _ :=
    PackChild.piece_length (hload c hc) _
  rw [byteAt, hdiv, hmod, hsectored.sector_eq hn hlast, copyTo_getElem, if_neg (by rw [hlen]; omega)] at hbyte
  intro p hp
  by_contra hlong
  have htouched : (lastBuffer (List.replicate bytes_per_sector.toNat 0) (packPieces bytes_per_sector l' ++
      sectorPieces bytes_per_sector c 0 (c.len / bytes_per_sector.toNat)))[c.len % bytes_per_sector.toNat]? =
      some 1 := by
    refine lastBuffer_touched ⟨p, hp, Nat.lt_of_not_le hlong⟩ fun q hq hj => ?_
    obtain ⟨d, hd, k, rfl⟩ : ∃ d ∈ l ++ c :: l', ∃ k,
        q = (sectorPos bytes_per_sector d k, d.piece bytes_per_sector.toNat k) := by
      rcases List.mem_append.1 hq with hq | hq
      · obtain ⟨d, hd, k, -, rfl⟩ := mem_packPieces.1 hq
        exact ⟨d, List.mem_append_right _ (List.mem_cons_of_mem _ hd), k, rfl⟩
      · obtain ⟨k, -, -, rfl⟩ := mem_sectorPieces.1 hq
        exact ⟨c, hc, k, rfl⟩
    rw [PackChild.piece_length (hload d hd)] at hj
    rw [PackChild.piece_getElem d k (Nat.mod_lt _ hn)]
    exact hones d hd _ (by omega)
  rw [htouched] at hbyte
  cases hbyte

theorem pairwise_of_splits {R : PackChild → PackChild → Prop}
    (h : ∀ l c l', cs = l ++ c :: l' → ∀ d ∈ l', R c d) : cs.Pairwise R := by
  induction cs with
  | nil => exact List.Pairwise.nil
  | cons c cs ih =>
    refine List.pairwise_cons.2 ⟨h [] c cs rfl, ih fun l d l' heq => h (c :: l) d l' ?_⟩
    rw [heq, List.cons_append]

/-- What is programmed right is placed right. -/
theorem BlockRight.placeable (h : BlockRight bytes_per_sector cs) (hn : 0 < bytes_per_sector.toNat)
    (hload : ∀ c ∈ cs, c.Loaded) : Placeable bytes_per_sector cs := by
  have hones : ∀ c ∈ filled (fun _ _ => 1) cs, ∀ i < c.len, c.data[i]? = some 1 := by
    intro c hc i hi
    obtain ⟨p, hp, rfl⟩ := mem_filled.1 hc
    exact PackChild.withData_getElem _ _ hi
  have hload' := filled_loaded (f := fun _ _ => 1) hload
  have hright := h.same_layout (filled_layout (fun _ _ => 1) cs)
  have hsectored := hright.sectored hn hload'
  have hshort : ∀ c ∈ filled (fun _ _ => 1) cs, c.len % bytes_per_sector.toNat ≠ 0 →
      c.len < bytes_per_sector.toNat := by
    intro c hc hpart
    obtain ⟨l, l', heq⟩ := List.append_of_mem hc
    rw [heq] at hright hload' hones
    by_contra hlong
    have hfirst : 0 < c.len / bytes_per_sector.toNat := Nat.div_pos (Nat.le_of_not_lt hlong) hn
    have hpiece := hright.not_stale hn hload' hones hpart
      (sectorPos bytes_per_sector c 0, c.piece bytes_per_sector.toNat 0)
      (List.mem_append_right _ (mem_sectorPieces.2 ⟨0, Nat.le_refl _, by omega, rfl⟩))
    have hmod := Nat.mod_lt c.len hn
    have hlen : (c.piece bytes_per_sector.toNat 0).length = _ :=
      PackChild.piece_length (hload' c (List.mem_append_right _ (List.mem_cons_self ..))) 0
    change (c.piece bytes_per_sector.toNat 0).length ≤ _ at hpiece
    rw [hlen] at hpiece
    omega
  have hplaceable : Placeable bytes_per_sector (filled (fun _ _ => 1) cs) := by
    refine ⟨hsectored, hshort, pairwise_of_splits fun l c l' heq d hd hpart => ?_⟩
    rw [heq] at hright hload' hones hsectored hshort
    have hdmem : d ∈ l ++ c :: l' := List.mem_append_right _ (List.mem_cons_of_mem _ hd)
    have hclt := hshort c (List.mem_append_right _ (List.mem_cons_self ..)) hpart
    rw [Nat.mod_eq_of_lt hclt] at hpart
    by_contra hlong
    have hcount : 0 < (totalSectors bytes_per_sector d).toNat := by
      rw [hsectored.counted d hdmem, PackChild.mul_lt_len hn]
      omega
    have hpiece := hright.not_stale hn hload' hones (by rwa [Nat.mod_eq_of_lt hclt])
      (sectorPos bytes_per_sector d 0, d.piece bytes_per_sector.toNat 0)
      (List.mem_append_left _ (mem_packPieces.2 ⟨d, hd, 0, hcount, rfl⟩))
    have hlen : (d.piece bytes_per_sector.toNat 0).length = _ := PackChild.piece_length (hload' d hdmem) 0
    change (d.piece bytes_per_sector.toNat 0).length ≤ _ at hpiece
    rw [hlen, Nat.mod_eq_of_lt hclt] at hpiece
    omega
  exact hplaceable.same_layout (filled_layout _ cs).symm

/-- A pack is programmed right into a block device, whatever its data, if and only if it is placed right.
Reference: `nuwriter.c:397 nuwriter_pack_program_block`. -/
theorem blockRight_iff (hload : ∀ c ∈ cs, c.Loaded) :
    BlockRight bytes_per_sector cs ↔ bytes_per_sector = 0 ∨ Placeable bytes_per_sector cs := by
  by_cases hzero : bytes_per_sector = 0
  · refine iff_of_true (fun cs' _ _ fails buffer dev log _ _ hok => ?_) (.inl hzero)
    rw [nuwriterPackProgramBlock, if_pos hzero] at hok
    cases hok
  · have hn : 0 < bytes_per_sector.toNat :=
      Nat.pos_of_ne_zero fun h => hzero (BitVec.eq_of_toNat_eq h)
    refine ⟨fun h => .inr (h.placeable hn hload), fun h => ?_⟩
    intro cs' hsame hload' fails buffer dev log hbuffer hdev hok
    rw [nuwriterPackProgramBlock_eq hload' hzero] at hok
    rw [(performAll_eq_ok.1 hok).1]
    exact ((h.resolve_left hzero).same_layout hsame).imageRight hn hload' hbuffer

/-- A boot header of 8 bytes in sector 2, with 512 bytes to a sector. -/
theorem blockRight_iff_header : BlockRight 512#32 [⟨8#64, 1024#64, 0#32, List.replicate 8 0⟩] :=
  (blockRight_iff (List.forall_mem_singleton.2 ⟨by decide, by decide⟩)).2
    (.inr ⟨⟨by decide, by decide, by decide, List.pairwise_singleton _ _⟩, by decide,
      List.pairwise_singleton _ _⟩)

/-- An image of 600 bytes at the start of a device of two sectors: the rest of the first sector's data follows
its last byte. -/
theorem not_blockRight :
    ¬ ∀ (bytes_per_sector : BitVec 32) (sector_count : Nat) (cs : List PackChild), (∀ c ∈ cs, c.Loaded) →
      (∀ c ∈ cs, c.stop ≤ sector_count * bytes_per_sector.toNat) → BlockRight bytes_per_sector cs := by
  intro h
  let image : PackChild := ⟨600#64, 0#64, 0#32, List.replicate 600 0⟩
  have hlength : image.m_au8Data.length = 600 := List.length_replicate
  have hload : ∀ c ∈ [image], c.Loaded :=
    List.forall_mem_singleton.2 ⟨by rw [hlength]; decide, by rw [hlength]; decide⟩
  have hright := h 512#32 2 [image] hload (by decide)
  have hshort := (hright.placeable (by decide) hload).short image (List.mem_singleton_self _) (by decide)
  exact absurd hshort (by decide)

end

end NumakerMA35D1.NuWriter

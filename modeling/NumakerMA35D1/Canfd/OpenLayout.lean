import NumakerMA35D1.Canfd.Open

/-!
# The sections an opened controller has

`openSections_reg` says what opening leaves in the register of every section: the section's word
under the section's own guard. `SectionsOk` and `Programmed` are what the layout and the registers
should be; `openLayout_iff` is when they are.
-/

namespace NumakerMA35D1.Canfd

open Embedded

variable {psCanfd : CanfdT} {psRamConfig : CanfdRamPart} {psElemSize : CanfdElemSize} {s : Section}

/-- The register that holds a section's start address and its element count. -/
def Section.reg : Section → CanfdT → BitVec 32
  | .u32SIDFC => CanfdT.SIDFC
  | .u32XIDFC => CanfdT.XIDFC
  | .u32RxFifo0 => CanfdT.RXF0C
  | .u32RxFifo1 => CanfdT.RXF1C
  | .u32RxBuf => CanfdT.RXBC
  | .u32TxEventFifo => CanfdT.TXEFC
  | .u32TxBuf => CanfdT.TXBC

/-- The bits of the element count in the register; the Rx buffers have none. -/
def Section.sizeBits : Section → Nat
  | .u32SIDFC => 8
  | .u32XIDFC | .u32RxFifo0 | .u32RxFifo1 => 7
  | .u32RxBuf => 0
  | .u32TxEventFifo | .u32TxBuf => 6

/-- The guard under which opening writes a section's register. -/
def Section.opened (psElemSize : CanfdElemSize) : Section → Bool
  | .u32SIDFC => psElemSize .u32SIDFC ≠ 0
  | .u32XIDFC => psElemSize .u32XIDFC ≠ 0
  | .u32RxFifo0 => psElemSize .u32RxFifo0 ≠ 0 ∧ (psElemSize .u32RxFifo0).toNat ≤ 64 ∧
      (psElemSize .u32RxFifo1).toNat ≤ 64
  | .u32RxFifo1 => psElemSize .u32RxFifo1 ≠ 0 ∧ (psElemSize .u32RxFifo0).toNat ≤ 64 ∧
      (psElemSize .u32RxFifo1).toNat ≤ 64
  | .u32RxBuf | .u32TxBuf => psElemSize .u32RxBuf ≠ 0
  | .u32TxEventFifo => psElemSize .u32TxEventFifo ≠ 0

/-- The word opening writes to a section's register. -/
def Section.word (psRamConfig : CanfdRamPart) (psElemSize : CanfdElemSize) : Section → BitVec 32
  | .u32SIDFC => ((psElemSize .u32SIDFC &&& 0xff#32) <<< 16) |||
      (psRamConfig .u32SIDFC &&& startAddrMsk)
  | .u32XIDFC => ((psElemSize .u32XIDFC &&& 0xff#32) <<< 16) |||
      (psRamConfig .u32XIDFC &&& startAddrMsk)
  | .u32RxFifo0 => psRamConfig .u32RxFifo0 ||| (psElemSize .u32RxFifo0 <<< 16)
  | .u32RxFifo1 => psRamConfig .u32RxFifo1 ||| (psElemSize .u32RxFifo1 <<< 16)
  | .u32RxBuf => psRamConfig .u32RxBuf &&& startAddrMsk
  | .u32TxEventFifo => (psElemSize .u32TxEventFifo <<< 16) |||
      (psRamConfig .u32TxEventFifo &&& startAddrMsk)
  | .u32TxBuf => ((psElemSize .u32TxBuf &&& 0x3f#32) <<< 16) |||
      (psRamConfig .u32TxBuf &&& startAddrMsk)

/-! ## What opening writes -/

theorem canfdConfigSIDFC_reg : s.reg (canfdConfigSIDFC psCanfd psRamConfig psElemSize) =
    if s = .u32SIDFC then s.word psRamConfig psElemSize else s.reg psCanfd := by
  cases s <;> rfl

theorem canfdConfigXIDFC_reg : s.reg (canfdConfigXIDFC psCanfd psRamConfig psElemSize) =
    if s = .u32XIDFC then s.word psRamConfig psElemSize else s.reg psCanfd := by
  cases s <;> rfl

theorem canfdInitTxDBuf_reg {e : BitVec 32} :
    s.reg (canfdInitTxDBuf psCanfd psRamConfig psElemSize e) =
      if s = .u32TxBuf then s.word psRamConfig psElemSize else s.reg psCanfd := by
  cases s <;> rfl

theorem canfdInitRxDBuf_reg {e : BitVec 32} :
    s.reg (canfdInitRxDBuf psCanfd psRamConfig psElemSize e) =
      if s = .u32RxBuf then s.word psRamConfig psElemSize else s.reg psCanfd := by
  cases s <;> rfl

theorem canfdInitTxEvntFifo_reg :
    s.reg (canfdInitTxEvntFifo psCanfd psRamConfig psElemSize 0) =
      if s = .u32TxEventFifo then s.word psRamConfig psElemSize else s.reg psCanfd := by
  cases s <;> simp [Section.reg, Section.word, canfdInitTxEvntFifo]

theorem canfdInitRxFifo_reg_zero {e : BitVec 32} :
    s.reg (if psElemSize .u32RxFifo0 ≠ 0 then
      canfdInitRxFifo psCanfd 0 psRamConfig psElemSize 0 e else psCanfd) =
      if s = .u32RxFifo0 ∧ Section.opened psElemSize .u32RxFifo0 then s.word psRamConfig psElemSize
      else s.reg psCanfd := by
  unfold canfdInitRxFifo
  cases s <;> simp [Section.reg, Section.word, Section.opened, CANFD_NUM_RX_FIFOS,
    CANFD_MAX_RX_FIFO0_ELEMS, CANFD_MAX_RX_FIFO1_ELEMS] <;> grind

theorem canfdInitRxFifo_reg_one {e : BitVec 32} :
    s.reg (if psElemSize .u32RxFifo1 ≠ 0 then
      canfdInitRxFifo psCanfd 1 psRamConfig psElemSize 0 e else psCanfd) =
      if s = .u32RxFifo1 ∧ Section.opened psElemSize .u32RxFifo1 then s.word psRamConfig psElemSize
      else s.reg psCanfd := by
  unfold canfdInitRxFifo
  cases s <;> simp [Section.reg, Section.word, Section.opened, CANFD_NUM_RX_FIFOS,
    CANFD_MAX_RX_FIFO0_ELEMS, CANFD_MAX_RX_FIFO1_ELEMS] <;> grind

/-- A step of opening whose guard is the section's, as it shows in a section's register. -/
theorem reg_step {g : Prop} [Decidable g] {c : CanfdT} (t : Section)
    (hg : t.opened psElemSize = true ↔ g)
    (hc : s.reg c = if s = t then s.word psRamConfig psElemSize else s.reg psCanfd) :
    s.reg (if g then c else psCanfd) =
      if s = t ∧ t.opened psElemSize then s.word psRamConfig psElemSize else s.reg psCanfd := by
  split
  · next h => simp only [hc, hg.2 h, and_true]
  · next h => rw [if_neg (fun h' => h (hg.1 h'.2))]

/-- The register of every section: its word under its guard. -/
theorem openSections_reg : s.reg (openSections psCanfd psRamConfig psElemSize) =
    if s.opened psElemSize then s.word psRamConfig psElemSize else s.reg psCanfd := by
  rw [openSections, reg_step .u32TxEventFifo decide_eq_true_iff canfdInitTxEvntFifo_reg,
    canfdInitRxFifo_reg_one, canfdInitRxFifo_reg_zero,
    reg_step .u32RxBuf decide_eq_true_iff canfdInitRxDBuf_reg,
    reg_step .u32TxBuf decide_eq_true_iff canfdInitTxDBuf_reg,
    reg_step .u32XIDFC decide_eq_true_iff canfdConfigXIDFC_reg,
    reg_step .u32SIDFC decide_eq_true_iff canfdConfigSIDFC_reg]
  cases s <;> simp

theorem canfdSetTimingConfig_reg (psConfig : CanfdTimeingConfig) :
    s.reg (canfdSetTimingConfig psCanfd psConfig) = s.reg psCanfd := by
  unfold canfdSetTimingConfig
  dsimp only
  split <;> cases s <;> rfl

/-- The registers of the Rx FIFOs are cleared, those of the other sections left alone. -/
theorem openTiming_reg (u32SrcCLK : BitVec 32) (psCanfdStr : CanfdFd) :
    s.reg (openTiming u32SrcCLK psCanfd psCanfdStr).1 =
      if s = .u32RxFifo0 ∨ s = .u32RxFifo1 then 0 else s.reg psCanfd := by
  have hmode : ∀ (g : Bool) (c : CanfdT) (m : BitVec 32),
      s.reg (if g then { c with CCCR := m } else c) = s.reg c := by
    intro g c m
    cases g <;> cases s <;> rfl
  have hclear : ∀ c : CanfdT, s.reg { c with RXF0C := 0, RXF1C := 0 } =
      if s = .u32RxFifo0 ∨ s = .u32RxFifo1 then 0 else s.reg c := by
    intro c
    cases s <;> rfl
  have hinit : s.reg (canfdRunToNormal psCanfd false) = s.reg psCanfd := by
    cases s <;> rfl
  unfold openTiming
  dsimp only
  generalize canfdCalculateTimingValues _ _ _ _ = found
  cases found with
  | none => rw [hclear, hmode, hmode, hinit]
  | some sConfigBitTing => rw [canfdSetTimingConfig_reg, hclear, hmode, hmode, hinit]

theorem openTiming_conf (u32SrcCLK : BitVec 32) (psCanfd : CanfdT) (psCanfdStr : CanfdFd) :
    (openTiming u32SrcCLK psCanfd psCanfdStr).2.sMRamStartAddr = psCanfdStr.sMRamStartAddr ∧
      (openTiming u32SrcCLK psCanfd psCanfdStr).2.sElemSize = psCanfdStr.sElemSize := by
  unfold openTiming
  dsimp only
  generalize canfdCalculateTimingValues _ _ _ _ = found
  cases found <;> exact ⟨rfl, rfl⟩

/-- The register of every section of an opened controller. -/
theorem canfdOpen_reg {chip : Chip} {n : Nat} (hn : n < CANFD_CNT) {psCanfdStr : CanfdFd} :
    s.reg (canfdOpen chip n psCanfd psCanfdStr).1 =
      if s.opened psCanfdStr.sElemSize then s.word psCanfdStr.sMRamStartAddr psCanfdStr.sElemSize
      else if s = .u32RxFifo0 ∨ s = .u32RxFifo1 then 0
      else s.reg (chip.sysResetModule psCanfd) := by
  obtain ⟨hram, hsize⟩ := openTiming_conf chip.u32SrcCLK
    { chip.sysResetModule psCanfd with CLKEN := true } psCanfdStr
  have hmode : ∀ (c : CanfdT) (m : CanfdTestMode), s.reg (setTestMode c m) = s.reg c := by
    intro c m
    cases m <;> cases s <;> rfl
  have hgfc : ∀ (c : CanfdT) (a b x y : BitVec 32), s.reg (canfdSetGFC c a b x y) = s.reg c := by
    intro c a b x y
    cases s <;> rfl
  have hclk : s.reg { chip.sysResetModule psCanfd with CLKEN := true } =
      s.reg (chip.sysResetModule psCanfd) := by
    cases s <;> rfl
  rw [canfdOpen, if_pos hn]
  dsimp only
  rw [hmode, hgfc, openSections_reg, hram, hsize, openTiming_reg, hclk]

/-! ## The words -/

theorem startAddrMsk_eq : startAddrMsk = fieldMask 14 <<< 2 := by decide

/-- A start address that a register can hold. -/
structure WordAddr (addr : BitVec 32) : Prop where
  lt : addr.toNat < 2 ^ 16
  dvd : 4 ∣ addr.toNat

theorem WordAddr.and_startAddrMsk {addr : BitVec 32} (h : WordAddr addr) :
    addr &&& startAddrMsk = addr := by
  have hlt := h.lt
  have hdvd := h.dvd
  rw [startAddrMsk_eq, and_fieldMask_shiftLeft (by decide)]
  apply BitVec.eq_of_toNat_eq
  rw [putField_toNat (by decide), BitVec.toNat_ushiftRight, Nat.shiftRight_eq_div_pow]
  omega

/-- The element counts the registers admit. -/
def Section.maxCount : Section → Nat
  | .u32SIDFC => 255
  | .u32XIDFC | .u32RxFifo0 | .u32RxFifo1 => 127
  | .u32RxBuf => 64
  | .u32TxEventFifo | .u32TxBuf => 63

/-- Counts that the registers admit; the Rx buffers, whose count is in no register, are those the
controller has. Reference: `nu_canfd.h:42 CANFD_MAX_RX_BUF_ELEMS`. -/
def Admitted (psElemSize : CanfdElemSize) : Prop := ∀ s, (psElemSize s).toNat ≤ s.maxCount

/-- A section's word is its start address and its count. -/
theorem Section.word_eq (h : Admitted psElemSize) (ha : WordAddr (psRamConfig s)) :
    s.word psRamConfig psElemSize =
      psRamConfig s ||| if s = .u32RxBuf then 0 else putField (psElemSize s) 16 s.sizeBits := by
  have hcut : ∀ len : Nat, (psElemSize s).toNat < 2 ^ len →
      psElemSize s &&& fieldMask len = psElemSize s := fun _ => and_fieldMask
  have h255 : (0xff#32) = fieldMask 8 := by decide
  have h63 : (0x3f#32) = fieldMask 6 := by decide
  have hmax := h s
  have haddr := ha.and_startAddrMsk
  cases s <;> simp only [Section.word, Section.sizeBits, Section.maxCount, haddr, h255, h63,
    putField] at hmax haddr hcut ⊢
  case u32SIDFC => rw [BitVec.or_comm]; simp
  case u32XIDFC =>
    rw [BitVec.or_comm, hcut 8 (by omega), hcut 7 (by omega)]; simp
  case u32RxFifo0 | u32RxFifo1 => rw [hcut 7 (by omega)]; simp
  case u32RxBuf => simp
  case u32TxEventFifo => rw [BitVec.or_comm, hcut 6 (by omega)]; simp
  case u32TxBuf => rw [BitVec.or_comm]; simp

/-- The start address in a section's word. -/
theorem Section.word_start (h : Admitted psElemSize) (ha : WordAddr (psRamConfig s)) :
    s.word psRamConfig psElemSize &&& startAddrMsk = psRamConfig s := by
  have hsize : (putField (psElemSize s) 16 s.sizeBits) &&& startAddrMsk = 0#32 := by
    have hbits : s.sizeBits ≤ 8 := by cases s <;> decide
    rw [startAddrMsk_eq, and_fieldMask_shiftLeft (by decide)]
    apply BitVec.eq_of_toNat_eq
    rw [putField_toNat (by decide), BitVec.toNat_ushiftRight, Nat.shiftRight_eq_div_pow,
      putField_toNat (by omega), BitVec.toNat_ofNat]
    omega
  rw [word_eq h ha, BitVec.and_or_distrib_right, ha.and_startAddrMsk]
  split
  · simp
  · rw [hsize, BitVec.or_zero]

/-- The element count in a section's word. -/
theorem Section.word_count (h : Admitted psElemSize) (ha : WordAddr (psRamConfig s))
    (hs : s ≠ .u32RxBuf) :
    getField (s.word psRamConfig psElemSize) 16 s.sizeBits = psElemSize s := by
  have hmax := h s
  have hbits : s.sizeBits ≤ 8 := by cases s <;> decide
  have hlt : (psElemSize s).toNat < 2 ^ s.sizeBits := by
    cases s <;> simp only [Section.maxCount, Section.sizeBits] at hmax ⊢ <;>
      first | omega | exact absurd rfl hs
  have haddr : getField (psRamConfig s) 16 s.sizeBits = 0#32 := by
    apply BitVec.eq_of_toNat_eq
    rw [getField_toNat (by omega), Nat.div_eq_of_lt ha.lt]
    simp
  rw [word_eq h ha, if_neg hs, getField_or, haddr, getField_putField (by omega),
    and_fieldMask hlt, BitVec.zero_or]

/-! ## The layout and the registers -/

/-- Where a section ends: it has room for its elements. -/
def Section.endAddr (psRamConfig : CanfdRamPart) (psElemSize : CanfdElemSize) (s : Section) : Nat :=
  (psRamConfig s).toNat + s.bytes psElemSize

/-- The sections with elements are pairwise disjoint and inside the message RAM. -/
structure SectionsOk (psRamConfig : CanfdRamPart) (psElemSize : CanfdElemSize) : Prop where
  disjoint : ∀ s t, s ≠ t → psElemSize s ≠ 0 → psElemSize t ≠ 0 →
    s.endAddr psRamConfig psElemSize ≤ (psRamConfig t).toNat ∨
      t.endAddr psRamConfig psElemSize ≤ (psRamConfig s).toNat
  inside : ∀ s, psElemSize s ≠ 0 → s.endAddr psRamConfig psElemSize ≤ CANFD_SRAM_SIZE

/-- The registers name the sections with elements, and no others: the register of another section is
cleared, or as the reset left it. -/
structure Programmed (psRamConfig : CanfdRamPart) (psElemSize : CanfdElemSize)
    (reset psCanfd : CanfdT) : Prop where
  used : ∀ s, psElemSize s ≠ 0 → s.reg psCanfd &&& startAddrMsk = psRamConfig s ∧
    (s ≠ .u32RxBuf → getField (s.reg psCanfd) 16 s.sizeBits = psElemSize s)
  unused : ∀ s, psElemSize s = 0 → s.reg psCanfd = 0 ∨ s.reg psCanfd = s.reg reset

/-- What opening a controller with these element counts should give, whatever the reset leaves in
the registers and the record of start addresses held. -/
def OpenLayout (psElemSize : CanfdElemSize) : Prop :=
  ∀ (chip : Chip) (n : Nat) (psCanfd : CanfdT) (psConfigAddr : CanfdRamPart)
    (psCanfdStr : CanfdFd), n < CANFD_CNT → psCanfdStr.sElemSize = psElemSize →
    psCanfdStr.sMRamStartAddr = canfdCalculateRamAddress psConfigAddr psElemSize →
    SectionsOk psCanfdStr.sMRamStartAddr psElemSize ∧
      Programmed psCanfdStr.sMRamStartAddr psElemSize (chip.sysResetModule psCanfd)
        (canfdOpen chip n psCanfd psCanfdStr).1

/-- The counts for which opening is right. -/
structure OpenFits (psElemSize : CanfdElemSize) : Prop where
  txBuf : psElemSize .u32RxBuf = 0 ↔ psElemSize .u32TxBuf = 0
  rxFifo0 : (psElemSize .u32RxFifo0).toNat ≤ CANFD_MAX_RX_FIFO0_ELEMS
  rxFifo1 : (psElemSize .u32RxFifo1).toNat ≤ CANFD_MAX_RX_FIFO1_ELEMS
  total : ramBytes psElemSize ≤ CANFD_SRAM_SIZE

section
variable (h : Admitted psElemSize)
include h

theorem Admitted.ramBytes_lt : ramBytes psElemSize < 2 ^ 15 := by
  have hmax : ∀ s : Section, (psElemSize s).toNat * s.elemSize ≤ s.maxCount * s.elemSize :=
    fun s => Nat.mul_le_mul_right _ (h s)
  have hsum : ramBytes psElemSize ≤ (Section.all.map fun s => s.maxCount * s.elemSize).sum :=
    List.sum_le_sum fun s _ => hmax s
  exact lt_of_le_of_lt hsum (by decide)

theorem Admitted.start_toNat (psConfigAddr : CanfdRamPart) (hs : psElemSize s ≠ 0) :
    (canfdCalculateRamAddress psConfigAddr psElemSize s).toNat =
      startOf (Section.bytes psElemSize) Section.all s :=
  canfdCalculateRamAddress_toNat psConfigAddr (lt_trans h.ramBytes_lt (by decide))
    ((BitVec.pos_iff_ne_zero _).2 hs)

/-- The sections with elements fit exactly when their total does. -/
theorem Admitted.sectionsOk_iff (psConfigAddr : CanfdRamPart) :
    SectionsOk (canfdCalculateRamAddress psConfigAddr psElemSize) psElemSize ↔
      ramBytes psElemSize ≤ CANFD_SRAM_SIZE := by
  constructor
  · intro hok
    refine (total_le_iff Section.nodup_all).1 fun s _ hlen => ?_
    have hs : psElemSize s ≠ 0 := by
      intro h0
      exact hlen (by rw [Section.bytes, h0]; exact Nat.zero_mul _)
    have := hok.inside s hs
    rwa [Section.endAddr, h.start_toNat psConfigAddr hs] at this
  · intro htotal
    constructor
    · intro s t hne hs ht
      rw [Section.endAddr, Section.endAddr, h.start_toNat psConfigAddr hs,
        h.start_toNat psConfigAddr ht]
      exact startOf_disjoint s.mem_all t.mem_all hne
    · intro s hs
      rw [Section.endAddr, h.start_toNat psConfigAddr hs]
      exact le_trans (startOf_add_le s.mem_all) htotal

theorem Admitted.wordAddr (psConfigAddr : CanfdRamPart) (hs : psElemSize s ≠ 0) :
    WordAddr (canfdCalculateRamAddress psConfigAddr psElemSize s) := by
  constructor
  · rw [h.start_toNat psConfigAddr hs]
    exact lt_of_le_of_lt (le_trans (Nat.le_add_right ..) (startOf_add_le s.mem_all))
      (lt_trans h.ramBytes_lt (by decide))
  · rw [h.start_toNat psConfigAddr hs]
    exact dvd_startOf fun i => Dvd.dvd.mul_left (by cases i <;> decide) _

/-- The registers are right when every section with elements is opened and no other. -/
theorem Admitted.programmed {chip : Chip} {n : Nat} (hn : n < CANFD_CNT)
    {psConfigAddr : CanfdRamPart} {psCanfdStr : CanfdFd}
    (hsize : psCanfdStr.sElemSize = psElemSize)
    (haddr : psCanfdStr.sMRamStartAddr = canfdCalculateRamAddress psConfigAddr psElemSize)
    (hopen : ∀ s : Section, s.opened psElemSize = true ↔ psElemSize s ≠ 0) :
    Programmed psCanfdStr.sMRamStartAddr psElemSize (chip.sysResetModule psCanfd)
      (canfdOpen chip n psCanfd psCanfdStr).1 := by
  constructor
  · intro s hs
    have hword := h.wordAddr psConfigAddr hs
    rw [← haddr] at hword
    rw [canfdOpen_reg hn, hsize, if_pos ((hopen s).2 hs)]
    exact ⟨Section.word_start h hword, Section.word_count h hword⟩
  · intro s hs
    rw [canfdOpen_reg hn, hsize, if_neg (fun hop => (hopen s).1 hop hs)]
    split
    · exact .inl rfl
    · exact .inr rfl

end

/-- Opening is right exactly when the Tx buffers have elements as the Rx buffers do, neither Rx FIFO
is too long, and the sections' total fits the message RAM. -/
theorem openLayout_iff (h : Admitted psElemSize) : OpenLayout psElemSize ↔ OpenFits psElemSize := by
  constructor
  · intro hopen
    -- the reset state and the stale start address under which every defect shows
    let reset : CanfdT := { (default : CanfdT) with TXBC := 1 }
    let chip : Chip := { sysResetModule := fun _ => reset, u32SrcCLK := 0 }
    let conf : CanfdFd :=
      { (default : CanfdFd) with
        sMRamStartAddr := canfdCalculateRamAddress (fun _ => 4) psElemSize
        sElemSize := psElemSize }
    obtain ⟨hok, hprog⟩ := hopen chip 0 default (fun _ => 4) conf (by decide) rfl rfl
    have hreg : ∀ s : Section, s.reg (canfdOpen chip 0 default conf).1 =
        if s.opened psElemSize then s.word conf.sMRamStartAddr psElemSize
        else if s = .u32RxFifo0 ∨ s = .u32RxFifo1 then 0 else s.reg reset :=
      fun s => canfdOpen_reg (by decide)
    have hclosed : ∀ s : Section, s ≠ .u32RxBuf → s ≠ .u32TxBuf → psElemSize s ≠ 0 →
        s.reg reset = 0 → s.opened psElemSize = true := by
      intro s hrx htx hs h0
      by_contra hno
      have hcount := (hprog.used s hs).2 hrx
      rw [hreg s, if_neg hno, h0, ite_self] at hcount
      exact hs (hcount.symm.trans getField_zero_word)
    refine ⟨⟨?_, ?_⟩, ?_, ?_, (h.sectionsOk_iff _).1 hok⟩
    · intro hrx
      by_contra htx
      have hcount := (hprog.used .u32TxBuf htx).2 (by decide)
      rw [hreg, if_neg (by simp [Section.opened, hrx])] at hcount
      exact htx (hcount.symm.trans (by decide))
    · intro htx
      by_contra hrx
      have hstale : conf.sMRamStartAddr .u32TxBuf = 4 := placeSection_foldl_zero htx
      have hno := hprog.unused .u32TxBuf htx
      rw [hreg, if_pos (by simpa [Section.opened] using hrx), Section.word, hstale, htx] at hno
      revert hno
      decide
    · by_contra hlong
      have hs : psElemSize .u32RxFifo0 ≠ 0 := by
        intro h0
        rw [h0] at hlong
        exact hlong (by decide)
      have := hclosed .u32RxFifo0 (by decide) (by decide) hs rfl
      simp only [Section.opened, decide_eq_true_iff] at this
      exact hlong this.2.1
    · by_contra hlong
      have hs : psElemSize .u32RxFifo1 ≠ 0 := by
        intro h0
        rw [h0] at hlong
        exact hlong (by decide)
      have := hclosed .u32RxFifo1 (by decide) (by decide) hs rfl
      simp only [Section.opened, decide_eq_true_iff] at this
      exact hlong this.2.2
  · intro hfit chip n psCanfd psConfigAddr psCanfdStr hn hsize haddr
    have hopen : ∀ s : Section, s.opened psElemSize = true ↔ psElemSize s ≠ 0 := by
      have h0 := hfit.rxFifo0
      have h1 := hfit.rxFifo1
      rw [CANFD_MAX_RX_FIFO0_ELEMS] at h0
      rw [CANFD_MAX_RX_FIFO1_ELEMS] at h1
      intro s
      cases s <;> simp only [Section.opened, decide_eq_true_iff, h0, h1, and_true]
      case u32TxBuf => exact not_congr hfit.txBuf
    refine ⟨?_, h.programmed hn hsize haddr hopen⟩
    rw [haddr]
    exact (h.sectionsOk_iff psConfigAddr).2 hfit.total

/-- The default configuration is opened right. -/
theorem openLayout_iff_default : OpenLayout defaultElemSize ↔ OpenFits defaultElemSize :=
  openLayout_iff fun s => by cases s <;> decide

/-- One Tx buffer and no other element: admitted, but the Tx buffers are not programmed. -/
theorem not_openLayout_txBufOnly :
    ¬ ∀ psElemSize : CanfdElemSize, Admitted psElemSize → OpenLayout psElemSize := by
  intro hall
  let psElemSize : CanfdElemSize := fun s => if s = .u32TxBuf then 1 else 0
  let conf : CanfdFd :=
    { (default : CanfdFd) with
      sMRamStartAddr := canfdCalculateRamAddress (fun _ => 0) psElemSize
      sElemSize := psElemSize }
  have hopen := hall psElemSize fun s => by cases s <;> decide
  obtain ⟨-, hprog⟩ := hopen ⟨fun _ => default, 0⟩ 0 default (fun _ => 0) conf (by decide) rfl rfl
  have hcount := (hprog.used .u32TxBuf (by decide)).2 (by decide)
  have hclosed : ¬ Section.opened psElemSize .u32TxBuf := by decide
  rw [canfdOpen_reg (by decide), if_neg hclosed] at hcount
  revert hcount
  decide

end NumakerMA35D1.Canfd

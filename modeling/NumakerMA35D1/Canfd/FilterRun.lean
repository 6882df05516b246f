import NumakerMA35D1.Canfd.Installed

/-!
# Filters over whole runs

Configuring a device gives a controller with empty filter lists (`nuCanfdConfigure_inv`), so a
command that configures it again keeps the invariant only while no filter is installed. `SafeCmd` is
the condition on a command and the state before it, and `installed_run` is what holds in every state
of a run of such commands.
-/

namespace NumakerMA35D1.Canfd

open Embedded

/-! ## What opening leaves in the lists -/

/-- A running clock, an inactive extended mask `xidam` as the reset left it, and nothing in the words
of the filter lists of the default layout. -/
structure ListsEmpty (xidam : BitVec 32) (psCanfd : CanfdT) : Prop where
  xidam : psCanfd.XIDAM = xidam
  clken : psCanfd.CLKEN = true
  sram : ∀ w < 192, psCanfd.sram w = 0

section
variable {xidam : BitVec 32} {psCanfd : CanfdT} {psRamConfig : CanfdRamPart}
  {psElemSize : CanfdElemSize}

theorem ListsEmpty.ite {g : Prop} [Decidable g] {c' : CanfdT} (h : ListsEmpty xidam psCanfd)
    (hf : ListsEmpty xidam psCanfd → ListsEmpty xidam c') :
    ListsEmpty xidam (if g then c' else psCanfd) := by
  split
  · exact hf h
  · exact h

theorem ListsEmpty.initTxDBuf (h : ListsEmpty xidam psCanfd) (e : BitVec 32) :
    ListsEmpty xidam (canfdInitTxDBuf psCanfd psRamConfig psElemSize e) :=
  ⟨h.xidam, h.clken, fun w hw => WordMem.clear_of_eq_zero (h.sram w hw)⟩

theorem ListsEmpty.initRxDBuf (h : ListsEmpty xidam psCanfd) (e : BitVec 32) :
    ListsEmpty xidam (canfdInitRxDBuf psCanfd psRamConfig psElemSize e) :=
  ⟨h.xidam, h.clken, fun w hw => WordMem.clear_of_eq_zero (h.sram w hw)⟩

theorem ListsEmpty.initRxFifo (h : ListsEmpty xidam psCanfd) (k : Nat) (wm e : BitVec 32) :
    ListsEmpty xidam (canfdInitRxFifo psCanfd k psRamConfig psElemSize wm e) := by
  unfold canfdInitRxFifo
  split
  · exact h
  split
  · exact h
  split
  · exact h
  split
  · split
    · exact ⟨h.xidam, h.clken, fun w hw => WordMem.clear_of_eq_zero (h.sram w hw)⟩
    · exact ⟨h.xidam, h.clken, h.sram⟩
  · split
    · exact ⟨h.xidam, h.clken, fun w hw => WordMem.clear_of_eq_zero (h.sram w hw)⟩
    · exact ⟨h.xidam, h.clken, h.sram⟩
  · exact h

/-- The filter lists of the default layout cleared. -/
theorem ListsEmpty.of_config (hx : psCanfd.XIDAM = xidam) (hc : psCanfd.CLKEN = true)
    {psRamConfig : CanfdRamPart} (hsid : psRamConfig .u32SIDFC = 0)
    (hxid : psRamConfig .u32XIDFC = 256) :
    ListsEmpty xidam (canfdConfigXIDFC (canfdConfigSIDFC psCanfd psRamConfig defaultElemSize)
      psRamConfig defaultElemSize) := by
  refine ⟨hx, hc, ?_⟩
  intro w hw
  have hstart : (psRamConfig .u32SIDFC &&& startAddrMsk).toNat = 0 := by rw [hsid]; decide
  have hstart' : (psRamConfig .u32XIDFC &&& startAddrMsk).toNat = 256 := by rw [hxid]; decide
  have hlen : (defaultElemSize .u32SIDFC * 4#32).toNat = 256 := by decide
  have hlen' : (defaultElemSize .u32XIDFC * 8#32).toNat = 512 := by decide
  rcases Nat.lt_or_ge w 64 with hlt | hge
  · refine WordMem.clear_of_eq_zero (WordMem.clear_of_mem ?_)
    rw [hstart, hlen]
    omega
  · refine WordMem.clear_of_mem ?_
    rw [hstart', hlen']
    omega

theorem ListsEmpty.openSections (hx : psCanfd.XIDAM = xidam) (hc : psCanfd.CLKEN = true)
    (hsid : psRamConfig .u32SIDFC = 0) (hxid : psRamConfig .u32XIDFC = 256) :
    ListsEmpty xidam (openSections psCanfd psRamConfig defaultElemSize) := by
  have hlists : ListsEmpty xidam (canfdConfigXIDFC (canfdConfigSIDFC psCanfd psRamConfig
      defaultElemSize) psRamConfig defaultElemSize) := .of_config hx hc hsid hxid
  rw [Canfd.openSections, if_pos (show defaultElemSize .u32SIDFC ≠ 0 by decide),
    if_pos (show defaultElemSize .u32XIDFC ≠ 0 by decide)]
  refine ((((hlists.ite ?_).ite ?_).ite ?_).ite ?_).ite ?_
  · exact fun h => h.initTxDBuf _
  · exact fun h => h.initRxDBuf _
  · exact fun h => h.initRxFifo ..
  · exact fun h => h.initRxFifo ..
  · exact fun h => ⟨h.xidam, h.clken, h.sram⟩

end

theorem openTiming_frame (u32SrcCLK : BitVec 32) (psCanfd : CanfdT) (psCanfdStr : CanfdFd) :
    (openTiming u32SrcCLK psCanfd psCanfdStr).1.XIDAM = psCanfd.XIDAM ∧
      (openTiming u32SrcCLK psCanfd psCanfdStr).1.CLKEN = psCanfd.CLKEN := by
  have hset : ∀ (c : CanfdT) (t : CanfdTimeingConfig),
      (canfdSetTimingConfig c t).XIDAM = c.XIDAM ∧ (canfdSetTimingConfig c t).CLKEN = c.CLKEN := by
    intro c t
    unfold canfdSetTimingConfig
    dsimp only
    split <;> exact ⟨rfl, rfl⟩
  unfold openTiming
  dsimp only
  generalize canfdCalculateTimingValues _ _ _ _ = found
  cases found with
  | none =>
    dsimp only
    cases psCanfdStr.sBtConfig.bFDEn <;> cases psCanfdStr.sBtConfig.bBitRateSwitch <;>
      exact ⟨rfl, rfl⟩
  | some t =>
    dsimp only
    rw [(hset _ _).1, (hset _ _).2]
    cases psCanfdStr.sBtConfig.bFDEn <;> cases psCanfdStr.sBtConfig.bBitRateSwitch <;>
      exact ⟨rfl, rfl⟩

theorem driverConfig_addr (baud_rate : BitVec 32) (evTestMode : CanfdTestMode) :
    (driverConfig baud_rate evTestMode).sMRamStartAddr .u32SIDFC = 0 ∧
      (driverConfig baud_rate evTestMode).sMRamStartAddr .u32XIDFC = 256 := by
  change canfdCalculateRamAddress (fun _ => 0) defaultElemSize .u32SIDFC = 0 ∧
    canfdCalculateRamAddress (fun _ => 0) defaultElemSize .u32XIDFC = 256
  decide

/-- A controller opened by the driver: the filter lists are empty. -/
theorem canfdOpen_lists (chip : Chip) {n : Nat} (hn : n < CANFD_CNT) (psCanfd : CanfdT)
    (baud_rate : BitVec 32) (evTestMode : CanfdTestMode) :
    ListsEmpty (chip.sysResetModule psCanfd).XIDAM
      (canfdOpen chip n psCanfd (driverConfig baud_rate evTestMode)).1 := by
  obtain ⟨hram, hsize⟩ := openTiming_conf chip.u32SrcCLK
    { chip.sysResetModule psCanfd with CLKEN := true } (driverConfig baud_rate evTestMode)
  obtain ⟨hxidam, hclk⟩ := openTiming_frame chip.u32SrcCLK
    { chip.sysResetModule psCanfd with CLKEN := true } (driverConfig baud_rate evTestMode)
  obtain ⟨hsid, hxid⟩ := driverConfig_addr baud_rate evTestMode
  have hmode : ∀ {xidam : BitVec 32} {c : CanfdT} (m : CanfdTestMode),
      ListsEmpty xidam c → ListsEmpty xidam (setTestMode c m) := by
    intro xidam c m h
    cases m <;> exact ⟨h.xidam, h.clken, h.sram⟩
  have hgfc : ∀ {xidam : BitVec 32} {c : CanfdT} (a b x y : BitVec 32),
      ListsEmpty xidam c → ListsEmpty xidam (canfdSetGFC c a b x y) :=
    fun _ _ _ _ h => ⟨h.xidam, h.clken, h.sram⟩
  rw [canfdOpen, if_pos hn]
  refine hmode _ (hgfc _ _ _ _ ?_)
  rw [hram, hsize]
  exact .openSections hxidam hclk hsid hxid

/-- The filter list registers of a controller opened by the driver. -/
theorem canfdOpen_listRegs (chip : Chip) {n : Nat} (hn : n < CANFD_CNT) (psCanfd : CanfdT)
    (baud_rate : BitVec 32) (evTestMode : CanfdTestMode) :
    (canfdOpen chip n psCanfd (driverConfig baud_rate evTestMode)).1.SIDFC = 0x400000#32 ∧
      (canfdOpen chip n psCanfd (driverConfig baud_rate evTestMode)).1.XIDFC = 0x400100#32 := by
  obtain ⟨hsid, hxid⟩ := driverConfig_addr baud_rate evTestMode
  have hsize : (driverConfig baud_rate evTestMode).sElemSize = defaultElemSize := rfl
  have hreg : ∀ s : Section,
      s.reg (canfdOpen chip n psCanfd (driverConfig baud_rate evTestMode)).1 = _ :=
    fun s => canfdOpen_reg hn
  constructor
  · have h := hreg .u32SIDFC
    rw [hsize, if_pos (by decide), Section.word, hsid] at h
    exact h.trans (by decide)
  · have h := hreg .u32XIDFC
    rw [hsize, if_pos (by decide), Section.word, hxid] at h
    exact h.trans (by decide)

/-! ## Configuring -/

/-- What enabling interrupts leaves alone. -/
theorem canfdEnableInt_eq (psCanfd : CanfdT) (a b x y : BitVec 32) :
    ∃ IE ILS ILE TXBTIE TXBCIE, canfdEnableInt psCanfd a b x y =
      { psCanfd with IE, ILS, ILE, TXBTIE, TXBCIE } := by
  unfold canfdEnableInt
  dsimp only
  split <;> split <;> exact ⟨_, _, _, _, _, rfl⟩

theorem getField_initMode (x : BitVec 32) :
    getField (x &&& ~~~(cccrCceMsk ||| cccrInitMsk)) 0 1 = 0#32 := by
  apply BitVec.eq_of_getLsbD_eq
  intro i hi
  rw [getLsbD_getField hi]
  cases i with
  | zero => simp [cccrCceMsk, cccrInitMsk]
  | succ i => simp

/-- A device configured in a supported mode has empty filter lists and a running controller. -/
theorem nuCanfdConfigure_inv {board : Board} (hhdr : board.hdr = true)
    (hxidam : ∀ c, getField (board.chip.sysResetModule c).XIDAM 0 29 = fieldMask 29)
    {psNuCANFD : NuCanfd} {evTestMode : CanfdTestMode}
    (hmode : testModeOf psNuCANFD.config.mode = some evTestMode) :
    FilterInv Installed.none (nuCanfdConfigure board psNuCANFD).2.base ∧
      running (nuCanfdConfigure board psNuCANFD).2.base = true := by
  have hlists := canfdOpen_lists board.chip board.n_lt psNuCANFD.base
    psNuCANFD.config.baud_rate evTestMode
  obtain ⟨hsid, hxid⟩ := canfdOpen_listRegs board.chip board.n_lt psNuCANFD.base
    psNuCANFD.config.baud_rate evTestMode
  rw [nuCanfdConfigure, hmode]
  dsimp only
  rw [if_pos hhdr, nuCanfdIe]
  dsimp only
  generalize (canfdOpen board.chip board.n psNuCANFD.base
    (driverConfig psNuCANFD.config.baud_rate evTestMode)).1 = c at hlists hsid hxid ⊢
  obtain ⟨IE, ILS, ILE, TXBTIE, TXBCIE, hint⟩ := canfdEnableInt_eq
    (canfdSetGFC c canfdRejNonMatchFrm canfdRejNonMatchFrm 0 0) _ 0 _ _
  rw [hint, canfdRunToNormal, if_pos rfl]
  have hstd : ∀ j < 64, c.sram ((0 + j * 4) / 4) = 0 := fun j hj => hlists.sram _ (by omega)
  have hext : ∀ j < 64, c.sram ((256 + j * 8) / 4) = 0 ∧ c.sram ((256 + j * 8 + 4) / 4) = 0 :=
    fun j hj => ⟨hlists.sram _ (by omega), hlists.sram _ (by omega)⟩
  have hflssa : (c.SIDFC &&& startAddrMsk).toNat = 0 := by rw [hsid]; decide
  have hflesa : (c.XIDFC &&& startAddrMsk).toNat = 256 := by rw [hxid]; decide
  have hgfc : (canfdSetGFC c canfdRejNonMatchFrm canfdRejNonMatchFrm 0 0).GFC = 0x3c#32 := by
    change canfdRejNonMatchFrm <<< 4 ||| canfdRejNonMatchFrm <<< 2 ||| 0#32 <<< 1 ||| 0#32 <<< 0 = _
    decide
  refine ⟨⟨hsid, hxid, ?_, hgfc, ?_, ?_, fun _ _ _ => rfl, ?_, fun _ => rfl⟩, ?_⟩
  · exact (congrArg (getField · 0 29) hlists.xidam).trans (hxidam _)
  · intro j hj
    change c.sram (((c.SIDFC &&& startAddrMsk).toNat + j * 4) / 4) = 0
    rw [hflssa]
    exact hstd j hj
  · intro j hj
    change (c.sram (((c.XIDFC &&& startAddrMsk).toNat + j * 8) / 4),
      c.sram (((c.XIDFC &&& startAddrMsk).toNat + j * 8 + 4) / 4)) = (0, 0)
    rw [hflesa, (hext j hj).1, (hext j hj).2]
  · intro _ _ h
    cases h
  · change (c.CLKEN && decide (getField (c.CCCR &&& ~~~(cccrCceMsk ||| cccrInitMsk)) 0 1 = 0)) = true
    rw [hlists.clken, getField_initMode]
    rfl

/-- A device configured in a mode the driver does not support: the controller is stopped, and the
filter lists stay as they were. -/
theorem nuCanfdConfigure_unsupported {board : Board} {psNuCANFD : NuCanfd}
    (hmode : testModeOf psNuCANFD.config.mode = none)
    (h : FilterInv Installed.none psNuCANFD.base) :
    FilterInv Installed.none (nuCanfdConfigure board psNuCANFD).2.base ∧
      SameLists psNuCANFD.base (nuCanfdConfigure board psNuCANFD).2.base := by
  rw [nuCanfdConfigure, hmode]
  exact ⟨⟨h.sidfc, h.xidfc, h.xidam, h.gfc, h.std, h.ext, h.bound, h.xid, fun _ => rfl⟩,
    fun ide => by cases ide <;> rfl, fun _ _ => rfl, fun _ _ => rfl⟩

/-- Two controllers without filters have the same lists. -/
theorem FilterInv.sameLists_none {psCanfd psCanfd' : CanfdT}
    (h : FilterInv Installed.none psCanfd) (h' : FilterInv Installed.none psCanfd') :
    SameLists psCanfd psCanfd' := by
  refine ⟨fun ide => (h'.listSize ide).trans (h.listSize ide).symm, ?_, ?_⟩
  · intro i hi
    rw [h.listSize] at hi
    exact (h'.std i hi).trans (h.std i hi).symm
  · intro i hi
    rw [h.listSize] at hi
    exact (h'.ext i hi).trans (h.ext i hi).symm

/-! ## Commands -/

/-- Whether a command installs filters. -/
def Cmd.installs : Cmd → Bool
  | .setFilter .. => true
  | _ => false

/-- Whether a command configures the device again. -/
def Cmd.Reconfigures (psNuCANFD : NuCanfd) : Cmd → Prop
  | .setInt _ | .clrInt _ => True
  | .setMode argval => argval ≤ 3 ∧ argval ≠ psNuCANFD.config.mode.setWidth 32
  | .setBaud argval => argval ∈ canBauds ∧ argval ≠ psNuCANFD.config.baud_rate
  | .setPriv argval =>
    (argval = 1 ∨ argval = 0) ∧ argval ≠ psNuCANFD.config.privmode.setWidth 32
  | .setFilter .. | .getStatus .. | .other => False

/-- What a command that installs nothing does: it configures the device again, from some settings,
or leaves the controller alone. -/
theorem nuCanfdControl_cases (board : Board) (psNuCANFD : NuCanfd) {cmd : Cmd}
    (hcmd : cmd.installs = false) :
    (cmd.Reconfigures psNuCANFD ∧ ∃ psNuCANFD' : NuCanfd,
      nuCanfdControl board psNuCANFD cmd = nuCanfdConfigure board psNuCANFD' ∧
        psNuCANFD'.base = psNuCANFD.base) ∨
    (nuCanfdControl board psNuCANFD cmd).2.base = psNuCANFD.base := by
  cases cmd with
  | setInt argval => exact .inl ⟨trivial, _, rfl, rfl⟩
  | clrInt argval => exact .inl ⟨trivial, _, rfl, rfl⟩
  | setFilter items reserved1 => cases hcmd
  | setMode argval =>
    rw [nuCanfdControl]
    split
    · next hle =>
      split
      · next hne => exact .inl ⟨⟨hle, hne⟩, _, rfl, rfl⟩
      · exact .inr rfl
    · exact .inr rfl
  | setBaud argval =>
    rw [nuCanfdControl]
    split
    · next hmem =>
      split
      · next hne => exact .inl ⟨⟨hmem, hne⟩, _, rfl, rfl⟩
      · exact .inr rfl
    · exact .inr rfl
  | setPriv argval =>
    rw [nuCanfdControl]
    split
    · exact .inr rfl
    · next hval =>
      split
      · next hne => exact .inl ⟨⟨by tauto, hne⟩, _, rfl, rfl⟩
      · exact .inr rfl
  | getStatus ecr psr => exact .inr rfl
  | other => exact .inr rfl

/-! ## Runs -/

/-- One command: the driver handles it, and the filters a user has installed change with it. -/
def sysStep (board : Board) (s : NuCanfd × Installed) (cmd : Cmd) (s' : NuCanfd × Installed) :
    Prop :=
  s' = ((nuCanfdControl board s.1 cmd).2, s.2.control board cmd)

/-- The commands that keep clear of the defects: filters are installed on a running controller, each
where and as `SafeItems` says, and the device is configured again only while no filter is
installed. -/
def SafeCmd (s : NuCanfd × Installed) (cmd : Cmd) : Prop :=
  match cmd with
  | .setFilter items _ => running s.1.base = true ∧ SafeItems 0 items
  | cmd => cmd.Reconfigures s.1 → s.2 = Installed.none

/-- A device just registered, nothing installed. -/
def sysInit (board : Board) (base : CanfdT) : NuCanfd × Installed :=
  (nuCanfdInit board base, Installed.none)

/-- What should hold in a state: the accepted frames are those some installed filter matches, and no
command but an installing one changes the lists. -/
def FiltersRight (board : Board) (s : NuCanfd × Installed) (ok : Cmd → Prop) : Prop :=
  FilterExact s.2 s.1.base ∧ ∀ cmd, ok cmd → cmd.installs = false →
    SameLists s.1.base (nuCanfdControl board s.1 cmd).2.base

section
variable {board : Board} (hhdr : board.hdr = true)
  (hxidam : ∀ c, getField (board.chip.sysResetModule c).XIDAM 0 29 = fieldMask 29)
include hhdr hxidam

theorem sysInit_inv (base : CanfdT) :
    FilterInv (sysInit board base).2 (sysInit board base).1.base :=
  (nuCanfdConfigure_inv hhdr hxidam (show testModeOf 0 = some .normal from rfl)).1

/-- A safe command that installs nothing keeps the invariant and the lists. -/
theorem FilterInv.control {s : NuCanfd × Installed} (h : FilterInv s.2 s.1.base) {cmd : Cmd}
    (hsafe : SafeCmd s cmd) (hcmd : cmd.installs = false) :
    FilterInv s.2 (nuCanfdControl board s.1 cmd).2.base ∧
      SameLists s.1.base (nuCanfdControl board s.1 cmd).2.base := by
  rcases nuCanfdControl_cases board s.1 hcmd with ⟨hre, psNuCANFD, heq, hbase⟩ | heq
  · have hnone : s.2 = Installed.none := by
      cases cmd with
      | setFilter => cases hcmd
      | _ => exact hsafe hre
    rw [hnone] at h ⊢
    rw [heq]
    cases hmode : testModeOf psNuCANFD.config.mode with
    | some evTestMode =>
      have h' := (nuCanfdConfigure_inv hhdr hxidam hmode).1
      exact ⟨h', h.sameLists_none h'⟩
    | none =>
      rw [← hbase] at h ⊢
      exact nuCanfdConfigure_unsupported hmode h
  · rw [heq]
    exact ⟨h, fun _ => rfl, fun _ _ => rfl, fun _ _ => rfl⟩

/-- A safe command keeps the invariant. -/
theorem FilterInv.step {s s' : NuCanfd × Installed} {cmd : Cmd} (h : FilterInv s.2 s.1.base)
    (hstep : where_ (sysStep board) SafeCmd s cmd s') : FilterInv s'.2 s'.1.base := by
  obtain ⟨hsafe, rfl⟩ := hstep
  cases cmd with
  | setFilter items reserved1 =>
    obtain ⟨hrun, hitems⟩ := hsafe
    have := setFilterFrom_inv reserved1 h hrun hitems
    simpa only [nuCanfdControl, Installed.control, if_pos hhdr] using this
  | _ => exact (h.control hhdr hxidam hsafe rfl).1

end

/-- In every state of a run of safe commands the driver accepts the frames that some installed
filter matches, and no others, and no safe command but an installing one changes the lists. -/
theorem installed_run {board : Board} (hhdr : board.hdr = true)
    (hxidam : ∀ c, getField (board.chip.sysResetModule c).XIDAM 0 29 = fieldMask 29)
    {base : CanfdT} {cmds : List Cmd} {s : NuCanfd × Installed}
    (hrun : Run (where_ (sysStep board) SafeCmd) (sysInit board base) cmds s) :
    FiltersRight board s (SafeCmd s) := by
  have h : FilterInv s.2 s.1.base := hrun.invariant (I := fun s => FilterInv s.2 s.1.base)
    (fun h hstep => h.step hhdr hxidam hstep) (sysInit_inv hhdr hxidam base)
  exact ⟨h.exact, fun cmd hsafe hcmd => (h.control hhdr hxidam hsafe hcmd).2⟩

/-- A board whose reset leaves the extended mask inactive. -/
def board0 : Board :=
  { n := 0
    n_lt := by decide
    chip :=
      { sysResetModule := fun _ => { (default : CanfdT) with XIDAM := 0x1fffffff }
        u32SrcCLK := 180000000 }
    hdr := true }

theorem board0_xidam (c : CanfdT) :
    getField (board0.chip.sysResetModule c).XIDAM 0 29 = fieldMask 29 := by
  change getField 0x1fffffff#32 0 29 = _
  decide

/-- A standard filter that lets one identifier through. -/
def filter123 : RtCanFilterItem := { id := 0x123, ide := .sid, mode := false, mask := 0x7ff }

/-- Installing a standard filter on a registered device. -/
theorem installed_run_one :
    let cmd := Cmd.setFilter [filter123] (fun _ => 0)
    let s := sysInit board0 default
    let s' := ((nuCanfdControl board0 s.1 cmd).2, s.2.control board0 cmd)
    FiltersRight board0 s' (SafeCmd s') := by
  intro cmd s s'
  have hrunning : running s.1.base = true :=
    (nuCanfdConfigure_inv rfl board0_xidam (show testModeOf 0 = some .normal from rfl)).2
  have hrun : Run (where_ (sysStep board0) SafeCmd) s ([] ++ [cmd]) s' :=
    .snoc .nil ⟨⟨hrunning, .inr ⟨by decide, trivial⟩⟩, rfl⟩
  exact installed_run rfl board0_xidam hrun

/-- A filter installed on a registered device, then the privileged mode changed: the device is
configured again, and the filter's frames are turned away. -/
theorem not_filtersRight :
    ¬ ∀ (board : Board), board.hdr = true →
      (∀ c, getField (board.chip.sysResetModule c).XIDAM 0 29 = fieldMask 29) →
      ∀ (base : CanfdT) (cmds : List Cmd) (s : NuCanfd × Installed),
        Run (sysStep board) (sysInit board base) cmds s → FiltersRight board s fun _ => True := by
  intro hall
  let cmd := Cmd.setFilter [filter123] (fun _ => 0)
  let s := sysInit board0 default
  let s' := ((nuCanfdControl board0 s.1 cmd).2, s.2.control board0 cmd)
  let s'' := ((nuCanfdControl board0 s'.1 (.setPriv 1)).2, s'.2.control board0 (.setPriv 1))
  have hrun : Run (sysStep board0) s (([] ++ [cmd]) ++ [.setPriv 1]) s'' := .snoc (.snoc .nil rfl) rfl
  let frame : RxFrame := { ide := .sid, rtr := .dataFrm, id := 0x123, id_lt := by decide }
  have hconfig : s'.1.config = { baud_rate := 1000000, mode := 0, privmode := 0 } := rfl
  have hcontrol : nuCanfdControl board0 s'.1 (.setPriv 1) =
      nuCanfdConfigure board0 { s'.1 with config := { s'.1.config with privmode := 1 } } := by
    rw [nuCanfdControl, if_neg (by decide), if_pos (by rw [hconfig]; decide)]
    rfl
  have hempty : FilterInv Installed.none s''.1.base := by
    change FilterInv Installed.none (nuCanfdControl board0 s'.1 (.setPriv 1)).2.base
    rw [hcontrol]
    exact (nuCanfdConfigure_inv rfl board0_xidam (show testModeOf 0 = some .normal from rfl)).1
  have haccept : accepted s''.1.base frame = true :=
    ((hall board0 rfl board0_xidam default _ s'' hrun).1 frame).2 ⟨0, filter123, rfl, rfl⟩
  obtain ⟨_, _, hinst, _⟩ := (hempty.exact frame).1 haccept
  cases hinst

end NumakerMA35D1.Canfd

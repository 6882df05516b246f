import NumakerMA35D1.Lib.Words

/-!
# The CAN FD controller

The registers of one controller that the driver reads or writes, and its message RAM. Addresses in
the message RAM are byte offsets from `CANFD_SRAM_BASE_ADDR`.

Reference: `canfd_reg.h:1020 CANFD_T`, `nu_canfd.h:36 CANFD_MAX_11_BIT_FTR_ELEMS`.
-/

namespace NumakerMA35D1.Canfd

open Embedded

/-- The register block, its clock gate and divider in the clock controller, and the message RAM. -/
structure CanfdT where
  CLKEN : Bool
  CLKDIV : BitVec 32
  DBTP : BitVec 32
  TEST : BitVec 32
  CCCR : BitVec 32
  NBTP : BitVec 32
  IE : BitVec 32
  ILS : BitVec 32
  ILE : BitVec 32
  GFC : BitVec 32
  SIDFC : BitVec 32
  XIDFC : BitVec 32
  XIDAM : BitVec 32
  RXF0C : BitVec 32
  RXBC : BitVec 32
  RXF1C : BitVec 32
  RXESC : BitVec 32
  TXBC : BitVec 32
  TXESC : BitVec 32
  TXBRP : BitVec 32
  TXBAR : BitVec 32
  TXBTIE : BitVec 32
  TXBCIE : BitVec 32
  TXEFC : BitVec 32
  sram : WordMem
deriving Inhabited

/-- The most elements of a kind. Reference: `nu_canfd.h:38 CANFD_MAX_11_BIT_FTR_ELEMS`. -/
def CANFD_MAX_11_BIT_FTR_ELEMS : Nat := 128
@[inherit_doc CANFD_MAX_11_BIT_FTR_ELEMS] def CANFD_MAX_29_BIT_FTR_ELEMS : Nat := 64
@[inherit_doc CANFD_MAX_11_BIT_FTR_ELEMS] def CANFD_MAX_RX_FIFO0_ELEMS : Nat := 64
@[inherit_doc CANFD_MAX_11_BIT_FTR_ELEMS] def CANFD_MAX_RX_FIFO1_ELEMS : Nat := 64
@[inherit_doc CANFD_MAX_11_BIT_FTR_ELEMS] def CANFD_MAX_TX_BUF_ELEMS : Nat := 32

/-- Bytes of message RAM. Reference: `nu_canfd.h:46 CANFD_SRAM_SIZE`. -/
def CANFD_SRAM_SIZE : Nat := 0x2000

/-- Polls before a wait is given up. Reference: `nu_canfd.h:413 CANFD_TIMEOUT`. -/
def CANFD_TIMEOUT : Nat := 1000000

/-- `sizeof` of the element types. Reference: `nu_canfd.h:325 CANFD_BUF_T`,
`nu_canfd.h:337 CANFD_STD_FILTER_T`, `nu_canfd.h:357 CANFD_EXT_FILTER_T`. -/
def sizeofBuf : Nat := 72
@[inherit_doc sizeofBuf] def sizeofStdFilter : Nat := 4
@[inherit_doc sizeofBuf] def sizeofExtFilter : Nat := 8

/-- The bits of a start address in a register. Reference: `canfd_reg.h`, `CANFD_TXBC_TBSA_Msk` and
the like of the other sections. -/
def startAddrMsk : BitVec 32 := 0xfffc#32

end NumakerMA35D1.Canfd

import NumakerMA35D1.Clk.Select

/-!
# Bus clocks of the SPI and QSPI controllers

The calls that open a controller and set its bus clock, and the calls that read the clock back. The four
setters do the same with a limit of their own, the SPI and the QSPI controllers with their own fields of the
clock controller.

Reference: `nu_spi.c`, `nu_qspi.c`.
-/

namespace NumakerMA35D1.Spi

open Clk

/-- The registers that the calls use; a QSPI controller has no `I2SCTL`. Reference: `spi_reg.h`,
`qspi_reg.h`. -/
structure SpiT where
  CTL : BitVec 32
  CLKDIV : BitVec 32
  SSCTL : BitVec 32
  I2SCTL : BitVec 32

/-- The SPI controllers. -/
inductive SpiPort
  | SPI0 | SPI1 | SPI2 | SPI3

/-- The QSPI controllers. -/
inductive QspiPort
  | QSPI0 | QSPI1

/-- Reference: `clk_reg.h:2308 CLK_CLKSEL4_SPI0SEL_Pos`. -/
def SpiPort.selPos : SpiPort → Nat
  | .SPI0 => 0
  | .SPI1 => 2
  | .SPI2 => 4
  | .SPI3 => 6

/-- Reference: `clk_reg.h:2320 CLK_CLKSEL4_QSPI0SEL_Pos`. -/
def QspiPort.selPos : QspiPort → Nat
  | .QSPI0 => 8
  | .QSPI1 => 10

/-- Reference: `clk_reg.h:2309 CLK_CLKSEL4_SPI0SEL_Msk`. -/
def selMsk (selPos : Nat) : BitVec 32 := 3#32 <<< selPos

/-- Reference: `spi_reg.h:613 SPI_CLKDIV_DIVIDER_Msk`, `qspi_reg.h:479 QSPI_CLKDIV_DIVIDER_Msk`. -/
def SPI_CLKDIV_DIVIDER_Msk : BitVec 32 := 0x1ff#32

/-- Reference: `nu_spi.h:35 SPI_MASTER`, `nu_qspi.h:35 QSPI_MASTER`. -/
def SPI_MASTER : BitVec 32 := 0#32

/-! ## The source -/

/-- The frequency of the APB clock of an SPI controller. Reference: `nu_spi.c:195` to `:213`. -/
def spiPclkFreq (sel : ClkSel) : SpiPort → BitVec 32
  | .SPI0 => clkGetPCLK1Freq sel
  | .SPI1 => clkGetPCLK2Freq sel
  | .SPI2 => clkGetPCLK1Freq sel
  | .SPI3 => clkGetPCLK2Freq sel

/-- The frequency of the source of an SPI controller. Reference: `nu_spi.c:92` to `:138`. -/
def spiClkSrc (sel : ClkSel) (spi : SpiPort) : BitVec 32 :=
  -- `CLK_CLKSEL4_SPI0SEL_APLL` is 1 in the field, `CLK_CLKSEL4_SPI0SEL_PCLK1` is 0
  if sel.CLKSEL4 &&& selMsk spi.selPos = 1#32 <<< spi.selPos then clkGetPLLClockFreq sel.clk APLL
  else if sel.CLKSEL4 &&& selMsk spi.selPos = 0#32 <<< spi.selPos then spiPclkFreq sel spi
  else 0#32

/-- Reference: `nu_qspi.c:32 QSPI_GetSrcClkSetting`. -/
def qspiGetSrcClkSetting (sel : ClkSel) (qspi : QspiPort) : BitVec 32 :=
  let u32ClkSrcSel := (sel.CLKSEL4 &&& selMsk qspi.selPos) >>> qspi.selPos
  if u32ClkSrcSel = 0x0#32 then clkGetPCLK0Freq sel
  else if u32ClkSrcSel = 0x1#32 then clkGetPLLClockFreq sel.clk APLL
  else 0#32

/-- The APB clock selected for an SPI controller. Reference: `nu_spi.c:70` to `:89`. -/
def spiSelectPCLK (spi : SpiPort) (sel : ClkSel) : ClkSel :=
  { sel with CLKSEL4 := (sel.CLKSEL4 &&& ~~~selMsk spi.selPos) ||| 0#32 <<< spi.selPos }

/-- Reference: `nu_qspi.c:78 QSPI_SetSrcClkToPCLK`. -/
def qspiSetSrcClkToPCLK (qspi : QspiPort) (sel : ClkSel) : ClkSel :=
  { sel with CLKSEL4 := (sel.CLKSEL4 &&& ~~~selMsk qspi.selPos) ||| 0x2#32 <<< qspi.selPos }

/-! ## Setting a rate -/

/-- The rate returned and the divider's register, for a rate below the system clock. Reference:
`nu_spi.c:147` to `:177`. -/
def divide (limit u32ClkSrc u32BusClock CLKDIV : BitVec 32) : BitVec 32 × BitVec 32 :=
  if u32ClkSrc ≤ u32BusClock then (u32ClkSrc, 0#32)
  else if u32BusClock = 0#32 then (u32ClkSrc / (0xFF#32 + 1#32), CLKDIV ||| SPI_CLKDIV_DIVIDER_Msk)
  else
    let u32Div := ((u32ClkSrc * 10#32) / u32BusClock + 5#32) / 10#32 - 1#32
    if limit < u32Div then (u32ClkSrc / (0xFF#32 + 1#32), CLKDIV ||| SPI_CLKDIV_DIVIDER_Msk)
    else (u32ClkSrc / (u32Div + 1#32), (CLKDIV &&& ~~~SPI_CLKDIV_DIVIDER_Msk) ||| u32Div <<< 0)

/-- What the four setters share: the APB clock from the system clock on, and the divider. -/
def setRate (limit : BitVec 32) (selectPCLK : ClkSel → ClkSel) (source : ClkSel → BitVec 32)
    (u32BusClock : BitVec 32) (spi : SpiT) (sel : ClkSel) : BitVec 32 × SpiT × ClkSel :=
  let u32HCLKFreq := clkGetSYSCLK0Freq sel
  if u32HCLKFreq ≤ u32BusClock then
    (source (selectPCLK sel), { spi with CLKDIV := 0#32 }, selectPCLK sel)
  else
    let r := divide limit (source sel) u32BusClock spi.CLKDIV
    (r.1, { spi with CLKDIV := r.2 }, sel)

/-- The control register of a controller that is opened. Reference: `nu_spi.c:68`, `nu_qspi.c:136`. -/
def openCTL (u32MasterSlave u32SPIMode u32DataWidth : BitVec 32) : BitVec 32 :=
  let u32DataWidth := if u32DataWidth = 32#32 then 0#32 else u32DataWidth
  u32MasterSlave ||| u32DataWidth <<< 8 ||| u32SPIMode ||| 1#32

/-- Reference: `nu_spi.c:43 SPI_Open`. -/
def spiOpen (port : SpiPort) (u32MasterSlave u32SPIMode u32DataWidth u32BusClock : BitVec 32) (spi : SpiT)
    (sel : ClkSel) : BitVec 32 × SpiT × ClkSel :=
  let spi := { spi with
    I2SCTL := spi.I2SCTL &&& ~~~1#32
    SSCTL := 0#32
    CTL := openCTL u32MasterSlave u32SPIMode u32DataWidth }
  if u32MasterSlave = SPI_MASTER then
    setRate 0xFF#32 (spiSelectPCLK port) (spiClkSrc · port) u32BusClock spi sel
  else
    let sel := spiSelectPCLK port sel
    (spiPclkFreq sel port, { spi with CLKDIV := 0#32 }, sel)

/-- Reference: `nu_spi.c:314 SPI_SetBusClock`. -/
def spiSetBusClock (port : SpiPort) (u32BusClock : BitVec 32) (spi : SpiT) (sel : ClkSel) :
    BitVec 32 × SpiT × ClkSel :=
  setRate 0x1FF#32 (spiSelectPCLK port) (spiClkSrc · port) u32BusClock spi sel

/-- Reference: `nu_spi.c:448 SPI_GetBusClock`. -/
def spiGetBusClock (port : SpiPort) (spi : SpiT) (sel : ClkSel) : BitVec 32 :=
  spiClkSrc sel port / ((spi.CLKDIV &&& SPI_CLKDIV_DIVIDER_Msk) >>> 0 + 1#32)

/-- Reference: `nu_qspi.c:116 QSPI_Open`. -/
def qspiOpen (port : QspiPort) (u32MasterSlave u32QSPIMode u32DataWidth u32BusClock : BitVec 32) (qspi : SpiT)
    (sel : ClkSel) : BitVec 32 × SpiT × ClkSel :=
  let qspi := { qspi with SSCTL := 0#32, CTL := openCTL u32MasterSlave u32QSPIMode u32DataWidth }
  if u32MasterSlave = SPI_MASTER then
    setRate 0xFF#32 (qspiSetSrcClkToPCLK port) (qspiGetSrcClkSetting · port) u32BusClock qspi sel
  else
    let sel := qspiSetSrcClkToPCLK port sel
    (clkGetPCLK0Freq sel, { qspi with CLKDIV := 0#32 }, sel)

/-- Reference: `nu_qspi.c:283 QSPI_SetBusClock`. -/
def qspiSetBusClock (port : QspiPort) (u32BusClock : BitVec 32) (qspi : SpiT) (sel : ClkSel) :
    BitVec 32 × SpiT × ClkSel :=
  setRate 0x1FF#32 (qspiSetSrcClkToPCLK port) (qspiGetSrcClkSetting · port) u32BusClock qspi sel

/-- Reference: `nu_qspi.c:361 QSPI_GetBusClock`. -/
def qspiGetBusClock (port : QspiPort) (qspi : SpiT) (sel : ClkSel) : BitVec 32 :=
  qspiGetSrcClkSetting sel port / ((qspi.CLKDIV &&& SPI_CLKDIV_DIVIDER_Msk) >>> 0 + 1#32)

end NumakerMA35D1.Spi

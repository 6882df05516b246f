import NumakerMA35D1.Canfd.Regs

/-!
# Bit timing

The search for a prescaler and a number of time quanta that give a bit rate, and the registers that
get them. Sample points are read as exact thousandths; the intermediate products are 32 bits wide,
as the source's `int` and `uint32_t` are.
-/

namespace NumakerMA35D1.Canfd

/-- Reference: `nu_canfd.h:194 CANFD_TIMEING_CONFIG_T`. -/
structure CanfdTimeingConfig where
  u8PreDivider : BitVec 8
  u16NominalPrescaler : BitVec 16
  u8NominalRJumpwidth : BitVec 8
  u8NominalPhaseSeg1 : BitVec 8
  u8NominalPhaseSeg2 : BitVec 8
  u8NominalPropSeg : BitVec 8
  u8DataPrescaler : BitVec 8
  u8DataRJumpwidth : BitVec 8
  u8DataPhaseSeg1 : BitVec 8
  u8DataPhaseSeg2 : BitVec 8
  u8DataPropSeg : BitVec 8
deriving Inhabited, Repr

/-- Reference: `nu_canfd.c:17 MIN_TIME_QUANTA`. -/
def MIN_TIME_QUANTA : Nat := 9
@[inherit_doc MIN_TIME_QUANTA] def MAX_TIME_QUANTA : Nat := 20
@[inherit_doc MIN_TIME_QUANTA] def MAX_NOMINAL_BAUDRATE : BitVec 32 := 1000000

/-- The ideal sample point of a bit rate, in thousandths. Reference: `nu_canfd.c:451
CANFD_GetSegments`. -/
def idealSp (u32BaudRate : BitVec 32) : Nat :=
  if u32BaudRate ≥ 1000000 then 750 else if u32BaudRate ≥ 800000 then 800 else 875

/-- The segments of one bit. Reference: `nu_canfd.c:445 CANFD_GetSegments`. -/
def canfdGetSegments (u32NominalBaudRate u32DataBaudRate : BitVec 32) (u32Ntq u32Dtq : Nat)
    (psConfig : CanfdTimeingConfig) : CanfdTimeingConfig :=
  let int32P1 : Int := u32Ntq * idealSp u32NominalBaudRate / 1000
  let psConfig :=
    { psConfig with
      u8NominalPropSeg := 0
      u8NominalPhaseSeg1 := BitVec.ofInt 8 (int32P1 - 1)
      u8NominalPhaseSeg2 := BitVec.ofInt 8 (u32Ntq - int32P1)
      u8NominalRJumpwidth := BitVec.ofNat 8 ((u32Ntq + (5 - 1)) / 5) }
  if u32Dtq > 0 then
    let int32P1 : Int := u32Dtq * idealSp u32DataBaudRate / 1000
    { psConfig with
      u8DataPropSeg := 0
      u8DataPhaseSeg1 := BitVec.ofInt 8 (int32P1 - 1)
      u8DataPhaseSeg2 := BitVec.ofInt 8 (u32Dtq - int32P1)
      u8DataRJumpwidth := BitVec.ofNat 8 ((u32Dtq + (5 - 1)) / 5) }
  else
    { psConfig with
      u8DataPropSeg := 0, u8DataPhaseSeg1 := 0, u8DataPhaseSeg2 := 0, u8DataRJumpwidth := 0 }

/-- The numbers of time quanta tried, in the order tried. -/
def timeQuanta : List Nat :=
  (List.range' MIN_TIME_QUANTA (MAX_TIME_QUANTA - MIN_TIME_QUANTA + 1)).reverse

/-- The data prescaler and time quanta for a data bit rate. Reference: `nu_canfd.c:546
CANFD_CalculateTimingValues`. -/
def dataTiming (u32DataBaudRate u32SourceClockHz : BitVec 32) (u8PreDivider : BitVec 8) :
    Option (BitVec 8 × Nat) :=
  timeQuanta.findSome? fun i32Dtq =>
    (List.range' 1 0x20).findSome? fun u8DataPrescaler =>
      let i32Dclk2 := u32DataBaudRate * BitVec.ofNat 32 i32Dtq * BitVec.ofNat 32 u8DataPrescaler
      if u32SourceClockHz = i32Dclk2 * u8PreDivider.setWidth 32 then
        some (BitVec.ofNat 8 u8DataPrescaler, i32Dtq)
      else none

/-- The timing of a nominal and a data bit rate; `fdoe` is the FD operation bit of `CCCR`. What a
search that fails leaves in the structure is not modelled: the caller reads it after a hit only.
Reference: `nu_canfd.c:506 CANFD_CalculateTimingValues`. -/
def canfdCalculateTimingValues (fdoe : Bool) (u32NominalBaudRate u32DataBaudRate
    u32SourceClockHz : BitVec 32) : Option CanfdTimeingConfig :=
  let u32NominalBaudRate :=
    if u32NominalBaudRate > MAX_NOMINAL_BAUDRATE then MAX_NOMINAL_BAUDRATE else u32NominalBaudRate
  timeQuanta.findSome? fun i32Ntq =>
    (List.range' 1 0x400).findSome? fun u16NominalPrescaler =>
      let i32Nclk2 :=
        u32NominalBaudRate * BitVec.ofNat 32 i32Ntq * BitVec.ofNat 32 u16NominalPrescaler
      if u32SourceClockHz / i32Nclk2 ≤ 5 ∧ u32SourceClockHz % i32Nclk2 = 0 then
        let psConfig : CanfdTimeingConfig :=
          { (default : CanfdTimeingConfig) with
            u16NominalPrescaler := BitVec.ofNat 16 u16NominalPrescaler
            u8PreDivider := (u32SourceClockHz / i32Nclk2).setWidth 8 }
        if fdoe then
          let u32DataBaudRate :=
            if u32DataBaudRate = 0 then u32NominalBaudRate else u32DataBaudRate
          if u32DataBaudRate = u32NominalBaudRate ∧ u16NominalPrescaler ≤ 0x20 then
            some (canfdGetSegments u32NominalBaudRate u32DataBaudRate i32Ntq i32Ntq
              { psConfig with u8DataPrescaler := BitVec.ofNat 8 u16NominalPrescaler })
          else
            (dataTiming u32DataBaudRate u32SourceClockHz psConfig.u8PreDivider).map
              fun (u8DataPrescaler, i32Dtq) =>
                canfdGetSegments u32NominalBaudRate u32DataBaudRate i32Ntq i32Dtq
                  { psConfig with u8DataPrescaler }
        else
          some (canfdGetSegments u32NominalBaudRate 0 0 0 { psConfig with u8DataPrescaler := 0 })
      else none

/-- Bits of `CCCR`. Reference: `canfd_reg.h:1116 CANFD_CCCR_INIT_Pos`. -/
def cccrInitMsk : BitVec 32 := 1#32 <<< 0
@[inherit_doc cccrInitMsk] def cccrCceMsk : BitVec 32 := 1#32 <<< 1
@[inherit_doc cccrInitMsk] def cccrAsmMsk : BitVec 32 := 1#32 <<< 2
@[inherit_doc cccrInitMsk] def cccrMonMsk : BitVec 32 := 1#32 <<< 5
@[inherit_doc cccrInitMsk] def cccrTestMsk : BitVec 32 := 1#32 <<< 7
@[inherit_doc cccrInitMsk] def cccrFdoeMsk : BitVec 32 := 1#32 <<< 8
@[inherit_doc cccrInitMsk] def cccrBrseMsk : BitVec 32 := 1#32 <<< 9

/-- Reference: `nu_canfd.c:384 CANFD_SetTimingConfig`. -/
def canfdSetTimingConfig (psCanfd : CanfdT) (psConfig : CanfdTimeingConfig) : CanfdT :=
  let psCanfd :=
    { psCanfd with
      CLKDIV := psConfig.u8PreDivider.setWidth 32 - 1
      CCCR := psCanfd.CCCR ||| cccrCceMsk
      NBTP :=
        (((psConfig.u8NominalRJumpwidth.setWidth 32 &&& 0x7f#32) - 1) <<< 25) +
        (((psConfig.u16NominalPrescaler.setWidth 32 &&& 0x1ff#32) - 1) <<< 16) +
        ((((psConfig.u8NominalPhaseSeg1.setWidth 32 + psConfig.u8NominalPropSeg.setWidth 32) &&&
          0xff#32) - 1) <<< 8) +
        (((psConfig.u8NominalPhaseSeg2.setWidth 32 &&& 0x7f#32) - 1) <<< 0) }
  if psCanfd.CCCR &&& cccrFdoeMsk ≠ 0#32 then
    { psCanfd with
      DBTP :=
        (((psConfig.u8DataPrescaler.setWidth 32 &&& 0x1f#32) - 1) <<< 16) +
        ((((psConfig.u8DataPhaseSeg1.setWidth 32 + psConfig.u8DataPropSeg.setWidth 32) &&&
          0x1f#32) - 1) <<< 8) +
        (((psConfig.u8DataPhaseSeg2.setWidth 32 &&& 0xf#32) - 1) <<< 4) +
        (((psConfig.u8DataRJumpwidth.setWidth 32 &&& 0xf#32) - 1) <<< 0) }
  else psCanfd

end NumakerMA35D1.Canfd

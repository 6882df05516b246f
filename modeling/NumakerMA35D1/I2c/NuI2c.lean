import NumakerMA35D1.I2c.DrvI2c

/-!
# Polled transfers of the I2C controller

The functions that transfer several bytes without interrupts: each waits for a status of the controller, does
what the status asks for, and writes the control register, over and over. The controller is given by what the
driver has asked of it last, which together with the answer of the bus makes the next status.

Reference: `nu_i2c.c`, `nu_i2c.h`.
-/

namespace NumakerMA35D1.I2c

/-! ## The controller -/

/-- The statuses of a master that the bus brings forward. -/
def masterStatuses : List (BitVec 32) :=
  [MASTER_STATUS_START, MASTER_STATUS_REPEAT_START, MASTER_STATUS_TRANSMIT_ADDRESS_ACK,
    MASTER_STATUS_TRANSMIT_ADDRESS_NACK, MASTER_STATUS_TRANSMIT_DATA_ACK, MASTER_STATUS_TRANSMIT_DATA_NACK,
    MASTER_STATUS_RECEIVE_ADDRESS_ACK, MASTER_STATUS_RECEIVE_ADDRESS_NACK, MASTER_STATUS_RECEIVE_DATA_ACK,
    MASTER_STATUS_RECEIVE_DATA_NACK]

/-- A status for anything else: arbitration lost, a bus error, a mode of a slave. -/
abbrev Abnormal := { st : BitVec 32 // st ∉ masterStatuses }

/-- An answer of the bus: an abnormal status, if any; otherwise whether a byte sent is acknowledged, or the
byte received. -/
structure Reply where
  lost : Option Abnormal
  ack : Bool
  data : BitVec 8

/-- What the controller has been asked to do. -/
inductive Asked
  | start
  | restart
  | address (rd : Bool)
  | send
  | receive (ack : Bool)
  | over

/-- The status of an operation that is not disturbed: a received byte is acknowledged exactly when that was
asked for. -/
def Asked.regular (ack : Bool) : Asked → BitVec 32
  | .start => MASTER_STATUS_START
  | .restart => MASTER_STATUS_REPEAT_START
  | .address false => if ack then MASTER_STATUS_TRANSMIT_ADDRESS_ACK else MASTER_STATUS_TRANSMIT_ADDRESS_NACK
  | .address true => if ack then MASTER_STATUS_RECEIVE_ADDRESS_ACK else MASTER_STATUS_RECEIVE_ADDRESS_NACK
  | .send => if ack then MASTER_STATUS_TRANSMIT_DATA_ACK else MASTER_STATUS_TRANSMIT_DATA_NACK
  | .receive ack => if ack then MASTER_STATUS_RECEIVE_DATA_ACK else MASTER_STATUS_RECEIVE_DATA_NACK
  | .over => MASTER_STATUS_BUS_RELEASED

/-- The status that answers what was asked. -/
def Asked.status (asked : Asked) (r : Reply) : BitVec 32 :=
  match r.lost with
  | some st => st.val
  | none => asked.regular r.ack

/-- Reference: `nu_i2c.h:34 I2C_CTL_STO_SI`. -/
def I2C_CTL_STO_SI : BitVec 8 := 0x18

/-- Reference: `nu_i2c.h:32 I2C_CTL_STA_SI`. -/
def I2C_CTL_STA_SI : BitVec 8 := 0x28

/-- Reference: `nu_i2c.h:36 I2C_CTL_SI`. -/
def I2C_CTL_SI : BitVec 8 := 0x08

/-- Reference: `nu_i2c.h:37 I2C_CTL_SI_AA`. -/
def I2C_CTL_SI_AA : BitVec 8 := 0x0C

/-- What a write of the control register asks for at a status: a stop or a repeated start by its bits, else
the byte that the status is followed by. -/
def Asked.after (st : BitVec 32) (ctrl dat : BitVec 8) : Asked → Asked
  | .over => .over
  | _ =>
    if ctrl.getLsbD 4 then .over
    else if ctrl.getLsbD 5 then .restart
    else if st = MASTER_STATUS_START ∨ st = MASTER_STATUS_REPEAT_START then .address (dat.getLsbD 0)
    else if st = MASTER_STATUS_TRANSMIT_ADDRESS_ACK ∨ st = MASTER_STATUS_TRANSMIT_DATA_ACK then .send
    else .receive (ctrl.getLsbD 2)

/-! ## The driver -/

/-- A polled transfer under way: the variables of the function (`u32rxLen` or `u32txLen` is the count), the
data register, the writes to the caller's array and to the control register, the statuses seen, and what the
controller is asked to do. -/
structure Poll where
  xfering : Bool
  err : Bool
  ctrl : BitVec 8
  addr : Bool
  count : BitVec 32
  dat : BitVec 8
  stores : List (BitVec 32 × BitVec 8)
  ctrls : List (BitVec 8)
  seen : List (BitVec 32)
  asked : Asked

namespace Poll

/-- The variables at their first values, the start condition asked for. Reference: `nu_i2c.c:1167`. -/
def init : Poll where
  xfering := true
  err := false
  ctrl := 0
  addr := true
  count := 0
  dat := 0
  stores := []
  ctrls := []
  seen := []
  asked := .start

variable (p : Poll)

/-- The condition of the loops. Reference: `nu_i2c.c:877`. -/
def live : Bool := p.xfering && !p.err

/-- Reference: `nu_i2c.h:64 I2C_SET_CONTROL_REG`. -/
def setControl (st : BitVec 32) (ctrl : BitVec 8) : Poll :=
  { p with ctrls := p.ctrls ++ [ctrl], asked := p.asked.after st ctrl p.dat }

/-- Reference: `nu_i2c.h:113 I2C_SET_DATA`. -/
def setData (dat : BitVec 8) : Poll := { p with dat := dat }

/-- The control word of the round is chosen. -/
def choose (ctrl : BitVec 8) : Poll := { p with ctrl := ctrl }

/-- A missing acknowledge. Reference: `nu_i2c.c:890`. -/
def fail : Poll := { p.choose I2C_CTL_STO_SI with err := true }

/-- The end of the transfer. Reference: `nu_i2c.c:906`. -/
def finish : Poll := { p.choose I2C_CTL_STO_SI with xfering := false }

/-- Arbitration lost, or an unknown status. Reference: `nu_i2c.c:911`. -/
def lose (st : BitVec 32) : Poll := { (p.setControl st I2C_CTL_STO_SI).choose I2C_CTL_SI with err := true }

/-- A byte is received. Reference: `nu_i2c.c:894`. -/
def store (data : BitVec 8) : Poll := { p with stores := p.stores ++ [(p.count, data)], count := p.count + 1 }

end Poll

/-- The body of a loop's `switch`: what the function does at a status, with the data register as read. -/
abbrev Switch := BitVec 32 → BitVec 8 → Poll → Poll

/-- The byte of a slave's address for a write. Reference: `nu_i2c.c:512`. -/
def slaveWrite (slaveAddr : BitVec 8) : BitVec 8 := slaveAddr <<< 1 ||| 0x00

/-- The byte of a slave's address for a read. Reference: `nu_i2c.c:883`. -/
def slaveRead (slaveAddr : BitVec 8) : BitVec 8 := slaveAddr <<< 1 ||| 0x01

/-- The cases that the three functions for reading share: the address's answer, the bytes, and the statuses
that no case is for. Reference: `nu_i2c.c:886` to `:915`, `:1039` to `:1068`, `:1205` to `:1234`. -/
def receiveSwitch (rLen : BitVec 32) : Switch := fun st data p =>
  if st = 0x40 then p.choose I2C_CTL_SI_AA
  else if st = 0x48 then p.fail
  else if st = 0x50 then
    let p := p.store data
    if p.count < rLen - 1 then p.choose I2C_CTL_SI_AA else p.choose I2C_CTL_SI
  else if st = 0x58 then (p.store data).finish
  else p.lose st

/-- Reference: `nu_i2c.c:880` to `:915`. -/
def readSwitch (slaveAddr : BitVec 8) (rLen : BitVec 32) : Switch := fun st data p =>
  if st = 0x08 then (p.setData (slaveRead slaveAddr)).choose I2C_CTL_SI
  else receiveSwitch rLen st data p

/-- Reference: `nu_i2c.c:1016` to `:1066`. -/
def readOneRegSwitch (slaveAddr dataAddr : BitVec 8) (rLen : BitVec 32) : Switch := fun st data p =>
  if st = 0x08 then (p.setData (slaveWrite slaveAddr)).choose I2C_CTL_SI
  else if st = 0x18 then p.setData dataAddr
  else if st = 0x20 ∨ st = 0x30 then p.fail
  else if st = 0x28 then p.choose I2C_CTL_STA_SI
  else if st = 0x10 then (p.setData (slaveRead slaveAddr)).choose I2C_CTL_SI
  else receiveSwitch rLen st data p

/-- Reference: `nu_i2c.c:1174` to `:1232`. -/
def readTwoRegsSwitch (slaveAddr : BitVec 8) (dataAddr : BitVec 16) (rLen : BitVec 32) : Switch :=
  fun st data p =>
    if st = 0x08 then (p.setData (slaveWrite slaveAddr)).choose I2C_CTL_SI
    else if st = 0x18 then p.setData (((dataAddr &&& 0xFF00) >>> 8).setWidth 8)
    else if st = 0x20 ∨ st = 0x30 then p.fail
    else if st = 0x28 then
      if p.addr then { p.setData ((dataAddr &&& 0xFF).setWidth 8) with addr := false }
      else p.choose I2C_CTL_STA_SI
    else if st = 0x10 then (p.setData (slaveRead slaveAddr)).choose I2C_CTL_SI
    else receiveSwitch rLen st data p

/-- Reference: `nu_i2c.c:509` to `:537`. -/
def writeSwitch (slaveAddr : BitVec 8) (data : BitVec 32 → BitVec 8) (wLen : BitVec 32) : Switch := fun st _ p =>
  if st = 0x08 then (p.setData (slaveWrite slaveAddr)).choose I2C_CTL_SI
  else if st = 0x18 ∨ st = 0x28 then
    if p.count < wLen then { p.setData (data p.count) with count := p.count + 1 } else p.finish
  else if st = 0x20 ∨ st = 0x30 then p.fail
  else p.lose st

/-- A round of a loop at a status: the status is seen, the `switch`, the write of the control register. -/
def Poll.meet (turn : Switch) (st : BitVec 32) (data : BitVec 8) (p : Poll) : Poll :=
  let q := turn st data { p with seen := p.seen ++ [st] }
  q.setControl st q.ctrl

/-- A round of a loop: the bus answers what was asked. -/
def Poll.step (turn : Switch) (bus : Nat → Reply) (p : Poll) : Poll :=
  p.meet turn (p.asked.status (bus p.seen.length)) (bus p.seen.length).data

/-- A loop, none where its rounds run out. -/
def poll (turn : Switch) (bus : Nat → Reply) : (rounds : Nat) → Poll → Option Poll
  | 0, _ => none
  | rounds + 1, p => if p.live then poll turn bus rounds (p.step turn bus) else some p

section
variable (bus : Nat → Reply) (slaveAddr : BitVec 8) (rounds : Nat)

/-- It returns the count. Reference: `nu_i2c.c:500 I2C_WriteMultiBytes`. -/
def i2cWriteMultiBytes (data : BitVec 32 → BitVec 8) (wLen : BitVec 32) : Option Poll :=
  poll (writeSwitch slaveAddr data wLen) bus rounds .init

/-- It returns the count. Reference: `nu_i2c.c:871 I2C_ReadMultiBytes`. -/
def i2cReadMultiBytes (rLen : BitVec 32) : Option Poll :=
  poll (readSwitch slaveAddr rLen) bus rounds .init

/-- It returns the count. Reference: `nu_i2c.c:1007 I2C_ReadMultiBytesOneReg`. -/
def i2cReadMultiBytesOneReg (dataAddr : BitVec 8) (rLen : BitVec 32) : Option Poll :=
  poll (readOneRegSwitch slaveAddr dataAddr rLen) bus rounds .init

/-- It returns the count. Reference: `nu_i2c.c:1165 I2C_ReadMultiBytesTwoRegs`. -/
def i2cReadMultiBytesTwoRegs (dataAddr : BitVec 16) (rLen : BitVec 32) : Option Poll :=
  poll (readTwoRegsSwitch slaveAddr dataAddr rLen) bus rounds .init

end

end NumakerMA35D1.I2c

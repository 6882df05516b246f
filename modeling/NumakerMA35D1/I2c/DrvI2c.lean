import Mathlib.Data.List.Basic
import Mathlib.Logic.Function.Basic

/-!
# Transfers of the I2C driver

A transfer goes over a list of messages, byte by byte: each operation on the bus is answered by a status, with
a byte where one is received, or by nothing, a time-out. The answers are given by their number. The loop over
the messages and the loops over their bytes share the index that is also the result.

Reference: `drv_i2c.c`, `drv_i2c.h`.
-/

namespace NumakerMA35D1.I2c

/-! ## The bus -/

/-- An operation of the driver on the bus. -/
inductive Op
  | start
  | restart
  | address (byte : BitVec 8)
  | send (byte : BitVec 8)
  | receive (ack : Bool)
  | stop
deriving DecidableEq

/-- The status register and the data register after an operation, none for a time-out. -/
abbrev Response := Option (BitVec 32 × BitVec 8)

/-- Reference: `drv_i2c.h:16 NU_I2C_MASTER_STATUS_START`. -/
def MASTER_STATUS_START : BitVec 32 := 0x08

/-- Reference: `drv_i2c.h:17 NU_I2C_MASTER_STATUS_REPEAT_START`. -/
def MASTER_STATUS_REPEAT_START : BitVec 32 := 0x10

/-- Reference: `drv_i2c.h:18 NU_I2C_MASTER_STATUS_TRANSMIT_ADDRESS_ACK`. -/
def MASTER_STATUS_TRANSMIT_ADDRESS_ACK : BitVec 32 := 0x18

/-- Reference: `drv_i2c.h:19 NU_I2C_MASTER_STATUS_TRANSMIT_ADDRESS_NACK`. -/
def MASTER_STATUS_TRANSMIT_ADDRESS_NACK : BitVec 32 := 0x20

/-- Reference: `drv_i2c.h:20 NU_I2C_MASTER_STATUS_TRANSMIT_DATA_ACK`. -/
def MASTER_STATUS_TRANSMIT_DATA_ACK : BitVec 32 := 0x28

/-- Reference: `drv_i2c.h:21 NU_I2C_MASTER_STATUS_TRANSMIT_DATA_NACK`. -/
def MASTER_STATUS_TRANSMIT_DATA_NACK : BitVec 32 := 0x30

/-- Reference: `drv_i2c.h:23 NU_I2C_MASTER_STATUS_RECEIVE_ADDRESS_ACK`. -/
def MASTER_STATUS_RECEIVE_ADDRESS_ACK : BitVec 32 := 0x40

/-- Reference: `drv_i2c.h:24 NU_I2C_MASTER_STATUS_RECEIVE_ADDRESS_NACK`. -/
def MASTER_STATUS_RECEIVE_ADDRESS_NACK : BitVec 32 := 0x48

/-- Reference: `drv_i2c.h:25 NU_I2C_MASTER_STATUS_RECEIVE_DATA_ACK`. -/
def MASTER_STATUS_RECEIVE_DATA_ACK : BitVec 32 := 0x50

/-- Reference: `drv_i2c.h:26 NU_I2C_MASTER_STATUS_RECEIVE_DATA_NACK`. -/
def MASTER_STATUS_RECEIVE_DATA_NACK : BitVec 32 := 0x58

/-- Reference: `drv_i2c.h:28 NU_I2C_MASTER_STATUS_BUS_RELEASED`. -/
def MASTER_STATUS_BUS_RELEASED : BitVec 32 := 0xF8

/-! ## Messages -/

/-- A message without its bytes. Reference: `i2c.h:29 rt_i2c_msg`. -/
structure RtI2cMsg where
  addr : BitVec 16
  flags : BitVec 16
  len : BitVec 16

namespace RtI2cMsg

variable (msg : RtI2cMsg)

/-- Reference: `i2c.h:22 RT_I2C_RD`. -/
def rd : Bool := msg.flags.getLsbD 0

/-- Reference: `i2c.h:23 RT_I2C_ADDR_10BIT`. -/
def addr10bit : Bool := msg.flags.getLsbD 2

/-- Reference: `i2c.h:24 RT_I2C_NO_START`. -/
def noStart : Bool := msg.flags.getLsbD 4

/-- Reference: `i2c.h:25 RT_I2C_IGNORE_NACK`. -/
def ignoreNack : Bool := msg.flags.getLsbD 5

/-- The first byte of an address. Reference: `drv_i2c.c:169`, `:231`. -/
def addr1 : BitVec 8 :=
  if msg.addr10bit then 0xF0#8 ||| ((msg.addr >>> 7) &&& 0x06#16).setWidth 8
  else if msg.rd then (msg.addr <<< 1).setWidth 8 ||| 1#8 else (msg.addr <<< 1).setWidth 8

/-- The second byte of an address of ten bits. Reference: `drv_i2c.c:170`. -/
def addr2 : BitVec 8 := msg.addr.setWidth 8

end RtI2cMsg

/-- A transfer under way: the operations so far, and the bytes of the messages by the message's number and
their own. -/
structure Xfer where
  trace : List Op
  buf : Nat → Nat → BitVec 8

namespace Xfer

variable (resp : Nat → Response) (s : Xfer)

/-- The answer to the next operation. -/
def answer : Response := resp s.trace.length

/-- An operation has been done. -/
def did (op : Op) : Xfer := { s with trace := s.trace ++ [op] }

/-- A byte is stored. -/
def store (i cnt : Nat) (data : BitVec 8) : Xfer :=
  { s with buf := Function.update s.buf i (Function.update (s.buf i) cnt data) }

/-- An operation with the status that is expected of it, or any where `any` is set; whether it succeeds.
Reference: `drv_i2c.c:174` to `:183`. -/
def expect (op : Op) (status : BitVec 32) (any : Bool) : Bool × Xfer :=
  match s.answer resp with
  | none => (false, s.did op)
  | some (st, _) => (st = status || any, s.did op)

/-- The address of a message. Reference: `drv_i2c.c:157 nu_i2c_send_address`. -/
def nuI2cSendAddress (msg : RtI2cMsg) : Bool × Xfer :=
  if msg.addr10bit then
    let (ok, s) := s.expect resp (.address msg.addr1) MASTER_STATUS_TRANSMIT_ADDRESS_ACK msg.ignoreNack
    if !ok then (false, s)
    else
      let (ok, s) := s.expect resp (.address msg.addr2) MASTER_STATUS_TRANSMIT_ADDRESS_ACK msg.ignoreNack
      if !ok then (false, s)
      else if msg.rd then
        let (ok, s) := s.expect resp .restart MASTER_STATUS_REPEAT_START msg.ignoreNack
        if !ok then (false, s)
        else s.expect resp (.address (msg.addr1 ||| 1#8)) MASTER_STATUS_RECEIVE_ADDRESS_ACK msg.ignoreNack
      else (true, s)
  else
    s.expect resp (.address msg.addr1)
      (if msg.rd then MASTER_STATUS_RECEIVE_ADDRESS_ACK else MASTER_STATUS_TRANSMIT_ADDRESS_ACK) msg.ignoreNack

/-- How a loop over the bytes of a message ends. -/
inductive Ends
  | finished
  | timeout
  | badStatus

/-- The bytes `cnts` of message `i` are received. The bit `I2C_CTL_AA` of the control register is the one
that was set for the byte. Reference: `drv_i2c.c:313` to `:349`. -/
def receiveBytes (i : Nat) (isLast : Bool) (msg : RtI2cMsg) : List Nat → Xfer → Ends × Xfer
  | [], s => (.finished, s)
  | cnt :: cnts, s =>
    let ack := !(isLast && cnt == msg.len.toNat - 1)
    match s.answer resp with
    | none => (.timeout, s.did (.receive ack))
    | some (st, data) =>
      if st = (if ack then MASTER_STATUS_RECEIVE_DATA_ACK else MASTER_STATUS_RECEIVE_DATA_NACK) then
        receiveBytes i isLast msg cnts ((s.did (.receive ack)).store i cnt data)
      else (.badStatus, s.did (.receive ack))

/-- The bytes `cnts` of message `i` are sent. Reference: `drv_i2c.c:352` to `:366`. -/
def sendBytes (i : Nat) (msg : RtI2cMsg) : List Nat → Xfer → Ends × Xfer
  | [], s => (.finished, s)
  | cnt :: cnts, s =>
    match s.answer resp with
    | none => (.timeout, s.did (.send (s.buf i cnt)))
    | some (st, _) =>
      if st = MASTER_STATUS_TRANSMIT_DATA_ACK ∨ msg.ignoreNack = true then
        sendBytes i msg cnts (s.did (.send (s.buf i cnt)))
      else (.badStatus, s.did (.send (s.buf i cnt)))

/-- What a turn of the loop over the messages leaves: whether the loop is left, the index, the transfer. -/
structure Turn where
  leaves : Bool
  i : Nat
  xfer : Xfer

/-- The bytes of message `i`, and the index for the next turn: a bad status sets it to zero before it is
counted up. Reference: `drv_i2c.c:311` to `:367`. -/
def dataTurn (msgs : List RtI2cMsg) (i : Nat) (msg : RtI2cMsg) : Turn :=
  let cnts := List.range msg.len.toNat
  let (ends, s) :=
    if msg.rd then receiveBytes resp i (i == msgs.length - 1) msg cnts s
    else sendBytes resp i msg cnts s
  match ends with
  | .finished => ⟨false, i + 1, s⟩
  | .timeout => ⟨false, i + 1, s⟩
  | .badStatus => ⟨false, 0 + 1, s⟩

/-- The address of message `i` and its bytes. Reference: `drv_i2c.c:302` to `:367`. -/
def addressTurn (msgs : List RtI2cMsg) (i : Nat) (msg : RtI2cMsg) : Turn :=
  let (ok, s) := s.nuI2cSendAddress resp msg
  if !ok && !msg.ignoreNack then ⟨true, 0, s⟩ else s.dataTurn resp msgs i msg

/-- A turn of the loop over the messages. Reference: `drv_i2c.c:281` to `:368`. -/
def turn (msgs : List RtI2cMsg) (i : Nat) (msg : RtI2cMsg) : Turn :=
  if msg.noStart then s.dataTurn resp msgs i msg
  else if i = 0 then s.addressTurn resp msgs i msg
  else
    match s.answer resp with
    | none => ⟨true, i, s.did .restart⟩
    | some (st, _) =>
      if st = MASTER_STATUS_REPEAT_START then (s.did .restart).addressTurn resp msgs i msg
      else ⟨true, 0, s.did .restart⟩

/-- The loop over the messages from index `i` on, none where its rounds run out.
Reference: `drv_i2c.c:279`. -/
def messageLoop (msgs : List RtI2cMsg) : (rounds : Nat) → Nat → Xfer → Option (Nat × Xfer)
  | 0, _, _ => none
  | rounds + 1, i, s =>
    match msgs[i]? with
    | none => some (i, s)
    | some msg =>
      let t := s.turn resp msgs i msg
      if t.leaves then some (t.i, t.xfer) else messageLoop msgs rounds t.i t.xfer

/-- The stop condition, and the assertion that it releases the bus; none where it does not, or the condition
never gets done. Reference: `drv_i2c.c:371`, `:373`. -/
def i2cStop (i : Nat) : Option (Nat × Xfer) :=
  match s.answer resp with
  | none => none
  | some (st, _) => if st = MASTER_STATUS_BUS_RELEASED then some (i, s.did .stop) else none

/-- The number of messages it returns, and what it did, none where it does not return within the rounds.
Reference: `drv_i2c.c:250 nu_i2c_mst_xfer`. -/
def nuI2cMstXfer (msgs : List RtI2cMsg) (rounds : Nat) : Option (Nat × Xfer) :=
  match s.answer resp with
  | none => some (0, s.did .start)
  | some (st, _) =>
    if st = MASTER_STATUS_START then
      (messageLoop resp msgs rounds 0 (s.did .start)).bind fun r => r.2.i2cStop resp r.1
    else some (0, s.did .start)

end Xfer

end NumakerMA35D1.I2c

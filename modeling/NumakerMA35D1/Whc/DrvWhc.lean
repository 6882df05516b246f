import Mathlib.Logic.Function.Basic
import Mathlib.Data.List.FinRange

/-!
# The wormhole controller's transmit channels

A write stores its buffer as the channel's pending one and then asks the controller whether the
channel is free; the acknowledge interrupt reports the pending buffer and forgets it. Both are split
into the steps between which threads on either core, the nested call of a callback and the other side
of the wormhole may come. `T` are the threads, an interrupt that writes in its callback among them.

Reference: `drv_whc.c`, `nu_whc.c`.
-/

namespace NumakerMA35D1.Whc

/-- A channel. Reference: `nu_whc.h:28 WHC_CH`. -/
abbrev Ch : Type := Fin 4

/-- The address of a buffer, zero for `RT_NULL`. -/
abbrev Addr : Type := BitVec 32

/-- Reference: `drv_whc.h:21 nu_whc_msg`. -/
def sizeofNuWhcMsg : Nat := 16

/-- A channel of the controller, the buffer its driver holds as pending, and what has happened on it:
the buffers accepted, acknowledged and reported so far. Reference: `drv_whc.c:47 nu_whc`,
`whc_reg.h TXSTS`, `whc_reg.h INTSTS`. -/
structure Chan where
  rdy : Bool
  txif : Bool
  msg : Option Addr
  pvTxBuf : Addr
  txComplete : Bool
  accepted : List Addr
  acked : List Addr
  reported : List Addr
deriving DecidableEq

/-- How far a thread is in `nu_whc_write`: its buffer stored, or the channel seen to be free. -/
inductive Writer
  | idle
  | stored (ch : Ch) (buffer : Addr)
  | ready (ch : Ch) (buffer : Addr)
deriving DecidableEq

/-- How far the interrupt is: the flagged channels that it still has to serve, one whose callback has
returned, or one whose flag is about to be cleared. -/
inductive Isr
  | idle
  | serve (chs : List Ch)
  | called (ch : Ch) (chs : List Ch)
  | clear (ch : Ch) (chs : List Ch)
deriving DecidableEq

/-- The device, its writers and its interrupt. -/
structure Driver (T : Type) where
  chan : Ch → Chan
  writer : T → Writer
  isr : Isr

/-- Nothing sent. -/
def Chan.init : Chan := ⟨true, false, none, 0, false, [], [], []⟩

variable {T : Type} [DecidableEq T]

/-- The device registered, no callback set. Reference: `drv_whc.c:207 whc_register`. -/
def Driver.start : Driver T := ⟨fun _ => .init, fun _ => .idle, .idle⟩

/-- What threads, the interrupt and the other core do. -/
inductive WhcOp (T : Type)
  | setTxComplete (ch : Ch) (on : Bool)
  | write (t : T) (ch : Ch) (buffer : Addr) (size : Nat)
  | check (t : T)
  | send (t : T)
  | ack (ch : Ch)
  | isrEnter
  | isrServe
  | isrNull
  | isrClear
  | isrExit

/-- A channel changed. -/
def Driver.setChan (s : Driver T) (ch : Ch) (c : Chan) : Driver T :=
  { s with chan := Function.update s.chan ch c }

/-- A thread gone on. -/
def Driver.setWriter (s : Driver T) (t : T) (w : Writer) : Driver T :=
  { s with writer := Function.update s.writer t w }

/-- The arguments are refused, or the buffer is stored as the pending one. Reference:
`drv_whc.c:183 nu_whc_write`. -/
def write (s : Driver T) (t : T) (ch : Ch) (buffer : Addr) (size : Nat) : Driver T :=
  if sizeofNuWhcMsg ≠ size ∨ buffer &&& 3 ≠ 0 then s
  else (s.setChan ch { s.chan ch with pvTxBuf := buffer }).setWriter t (.stored ch buffer)

/-- The controller takes the message. Reference: `nu_whc.c:34 WHC_Send`. -/
def Chan.send (c : Chan) (buffer : Addr) : Chan :=
  { c with rdy := false, msg := some buffer, accepted := c.accepted ++ [buffer] }

/-- The other core has read the message. Reference: `whc_reg.h TXSTS`. -/
def Chan.ack (c : Chan) : Chan :=
  { c with rdy := true, txif := true, msg := none, acked := c.acked ++ c.msg.toList }

/-- The flagged channels, as `nu_ctz` finds them. -/
def Driver.flagged (s : Driver T) : List Ch := (List.finRange 4).filter fun ch => (s.chan ch).txif

/-- The pending buffer reported, if there are one and a callback. Reference: `drv_whc.c:102
nu_whc_isr`. -/
def Driver.serve (s : Driver T) (ch : Ch) (chs : List Ch) : Driver T :=
  let c := s.chan ch
  if c.txComplete = true ∧ c.pvTxBuf ≠ 0 then
    { s.setChan ch { c with reported := c.reported ++ [c.pvTxBuf] } with isr := .called ch chs }
  else { s with isr := .clear ch chs }

/-- One step. The controller acknowledges a channel only while a message is in it. Reference:
`drv_whc.c:79 nu_whc_isr`, `drv_whc.c:183 nu_whc_write`, `nu_whc.c:30 WHC_Send`. -/
def whcExec (s : Driver T) : WhcOp T → Option (Driver T)
  | .setTxComplete ch on => some (s.setChan ch { s.chan ch with txComplete := on })
  | .write t ch buffer size =>
    match s.writer t with
    | .idle => some (write s t ch buffer size)
    | _ => none
  | .check t =>
    match s.writer t with
    | .stored ch buffer =>
      some (s.setWriter t (if (s.chan ch).rdy then .ready ch buffer else .idle))
    | _ => none
  | .send t =>
    match s.writer t with
    | .ready ch buffer => some ((s.setChan ch ((s.chan ch).send buffer)).setWriter t .idle)
    | _ => none
  | .ack ch =>
    match (s.chan ch).msg with
    | some _ => some (s.setChan ch (s.chan ch).ack)
    | none => none
  | .isrEnter =>
    match s.isr with
    | .idle => some { s with isr := .serve s.flagged }
    | _ => none
  | .isrServe =>
    match s.isr with
    | .serve (ch :: chs) => some (s.serve ch chs)
    | _ => none
  | .isrNull =>
    match s.isr with
    | .called ch chs =>
      some { s.setChan ch { s.chan ch with pvTxBuf := 0 } with isr := .clear ch chs }
    | _ => none
  | .isrClear =>
    match s.isr with
    | .clear ch chs => some { s.setChan ch { s.chan ch with txif := false } with isr := .serve chs }
    | _ => none
  | .isrExit =>
    match s.isr with
    | .serve [] => some { s with isr := .idle }
    | _ => none

end NumakerMA35D1.Whc

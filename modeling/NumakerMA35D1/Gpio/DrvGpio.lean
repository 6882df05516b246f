import NumakerMA35D1.NuUtils.Bitutil
import Mathlib.Logic.Function.Basic

/-!
# GPIO interrupts

The driver's table of pin interrupt handlers, the bitmap of the slots in use, the interrupt enable
registers of the ports and their lines at the interrupt controller. A pin is a number of 32 bits, as
the callers pass it; a slot keeps 16 of them. `F` are the handler functions and `A` their arguments.

Reference: `drv_gpio.c`, `nu_gpio.c`.
-/

namespace NumakerMA35D1.Gpio

/-- Reference: `drv_gpio.h:32 NU_PORT_CNT`. -/
abbrev NU_PORT_CNT : Nat := 14

/-- Reference: `nu_gpio.h:30 GPIO_PIN_MAX`. -/
abbrev GPIO_PIN_MAX : Nat := 16

/-- Reference: `drv_gpio.c:27 IRQ_MAX_NUM`. -/
abbrev IRQ_MAX_NUM : Nat := 16

/-- Reference: `pin.h:46 PIN_IRQ_PIN_NONE`. -/
def PIN_IRQ_PIN_NONE : BitVec 16 := -1

/-- Reference: `pin.h:44 PIN_IRQ_ENABLE`. -/
def PIN_IRQ_ENABLE : BitVec 32 := 1

/-- Reference: `rtdef.h RT_EOK`, `RT_ERROR`, `RT_EBUSY`. -/
inductive RtErr
  | EOK | ERROR | EBUSY
deriving DecidableEq

/-- Reference: `drv_gpio.h:37 NU_GET_PORT`. -/
def nuGetPort (pin : BitVec 32) : Nat := (pin.sshiftRight 4 &&& 0xF).toNat

/-- Reference: `drv_gpio.h:36 NU_GET_PINS`. -/
def nuGetPins (pin : BitVec 32) : Nat := (pin &&& 0xF).toNat

/-- Reference: `drv_gpio.h:35 NU_GET_PININDEX`. -/
def nuGetPinindex (port pin : Nat) : BitVec 32 := BitVec.ofNat 32 (port * GPIO_PIN_MAX + pin)

/-- Reference: `pin.h:58 rt_pin_irq_hdr`. -/
structure RtPinIrqHdr (F A : Type) where
  pin : BitVec 16
  mode : BitVec 16
  hdr : Option F
  args : Option A
deriving DecidableEq

/-- A port's interrupt registers. Reference: `gpio_reg.h GPIO_T`. -/
structure GpioT where
  INTTYPE : BitVec 32
  INTEN : BitVec 32
deriving DecidableEq

/-- The driver's variables, the ports and the lines that the interrupt controller lets through.
Reference: `drv_gpio.c:40 pin_irq_hdr_tab`, `drv_gpio.c:54 g_u32PinIrqMask`, `drv_gpio.c:52
au32GPIRQ`. -/
structure Driver (F A : Type) where
  pinIrqHdrTab : Nat → RtPinIrqHdr F A
  u32PinIrqMask : BitVec 32
  port : Nat → GpioT
  umasked : Nat → Bool

variable {F A : Type}

/-- A slot that no pin has. Reference: `drv_gpio.c:233 nu_gpio_detach_irq`, `drv_gpio.c:323
rt_hw_gpio_init`. -/
def RtPinIrqHdr.none : RtPinIrqHdr F A := ⟨PIN_IRQ_PIN_NONE, 0, Option.none, Option.none⟩

/-- After `rt_hw_gpio_init`, with the ports out of reset. -/
def Driver.init : Driver F A := ⟨fun _ => .none, 0, fun _ => ⟨0, 0⟩, fun _ => false⟩

/-- Reference: `drv_gpio.c:58 nu_port_check`. -/
def nuPortCheck (pin : BitVec 32) : Bool := decide (nuGetPort pin < NU_PORT_CNT)

/-- The first slot in use whose pin, with its sign, is the one looked for. Reference:
`drv_gpio.c:66 nu_find_irqindex`. -/
def nuFindIrqindex (s : Driver F A) (pin : BitVec 32) : Option Nat :=
  (nuScan IRQ_MAX_NUM s.u32PinIrqMask).find? fun i => (s.pinIrqHdrTab i).pin.signExtend 32 = pin

/-- The calls of handlers that the flagged pins of a port lead to. Reference: `drv_gpio.c:83
pin_irq_hdr`. -/
def pinIrqHdr (s : Driver F A) (irqStatus : BitVec 32) (portIndex : Nat) : List (F × Option A) :=
  (nuScan GPIO_PIN_MAX irqStatus).filterMap fun i =>
    match nuFindIrqindex s (BitVec.ofNat 32 (portIndex * GPIO_PIN_MAX + i)) with
    | none => none
    | some irqindex =>
      (s.pinIrqHdrTab irqindex).hdr.map fun hdr => (hdr, (s.pinIrqHdrTab irqindex).args)

/-- Reference: `drv_gpio.c:202 exit_nu_gpio_attach_irq`. -/
def attachAt (s : Driver F A) (irqindex : Nat) (pin mode : BitVec 32) (hdr : Option F)
    (args : Option A) : Driver F A :=
  { s with
    pinIrqHdrTab := Function.update s.pinIrqHdrTab irqindex
      ⟨pin.truncate 16, mode.truncate 16, hdr, args⟩
    u32PinIrqMask := s.u32PinIrqMask ||| 1#32 <<< irqindex }

/-- Reference: `drv_gpio.c:180 nu_gpio_attach_irq`. -/
def nuGpioAttachIrq (s : Driver F A) (pin mode : BitVec 32) (hdr : Option F) (args : Option A) :
    RtErr × Driver F A :=
  if nuPortCheck pin then
    match nuFindIrqindex s pin with
    | some irqindex => (.EOK, attachAt s irqindex pin mode hdr args)
    | none =>
      if nuCto s.u32PinIrqMask < IRQ_MAX_NUM then
        (.EOK, attachAt s (nuCto s.u32PinIrqMask) pin mode hdr args)
      else (.EBUSY, s)
  else (.ERROR, s)

/-- The slot and its bit cleared. Reference: `drv_gpio.c:233 nu_gpio_detach_irq`. -/
def detachAt (s : Driver F A) (irqindex : Nat) : Driver F A :=
  { s with
    pinIrqHdrTab := Function.update s.pinIrqHdrTab irqindex .none
    u32PinIrqMask := s.u32PinIrqMask &&& ~~~(1#32 <<< irqindex) }

/-- The loop of the source is that of `nu_find_irqindex`. Reference: `drv_gpio.c:215
nu_gpio_detach_irq`. -/
def nuGpioDetachIrq (s : Driver F A) (pin : BitVec 32) : RtErr × Driver F A :=
  if nuPortCheck pin then
    match nuFindIrqindex s pin with
    | some irqindex => (.EOK, detachAt s irqindex)
    | none => (.EOK, s)
  else (.ERROR, s)

/-- Reference: `nu_gpio.c:66 GPIO_EnableInt`. -/
def gpioEnableInt (port : GpioT) (u32Pin : Nat) (u32IntAttribs : BitVec 32) : GpioT where
  INTTYPE := (port.INTTYPE &&& ~~~(1#32 <<< u32Pin)) |||
    ((u32IntAttribs >>> 24 &&& 0xFF) <<< u32Pin)
  INTEN := (port.INTEN &&& ~~~(0x00010001#32 <<< u32Pin)) |||
    ((u32IntAttribs &&& 0xFFFFFF) <<< u32Pin)

/-- Reference: `nu_gpio.c:86 GPIO_DisableInt`. -/
def gpioDisableInt (port : GpioT) (u32Pin : Nat) : GpioT where
  INTTYPE := port.INTTYPE &&& ~~~(1#32 <<< u32Pin)
  INTEN := port.INTEN &&& ~~~(0x00010001#32 <<< u32Pin)

/-- The register attributes of a trigger mode: rising edge, falling edge, both edges, high level and
low level. Reference: `drv_gpio.c:285 nu_gpio_irq_enable`, `nu_gpio.h:45 GPIO_INT_RISING`. -/
def intAttribs (mode : BitVec 16) : Option (BitVec 32) :=
  if mode = 0 then some 0x00010000
  else if mode = 1 then some 0x00000001
  else if mode = 2 then some 0x00010001
  else if mode = 3 then some 0x01010000
  else if mode = 4 then some 0x01000001
  else none

/-- Reference: `drv_gpio.c:258 nu_gpio_irq_enable`. -/
def nuGpioIrqEnable (s : Driver F A) (pin enabled : BitVec 32) : RtErr × Driver F A :=
  if nuPortCheck pin then
    match nuFindIrqindex s pin with
    | none => (.ERROR, s)
    | some irqindex =>
      let port := nuGetPort pin
      if enabled = PIN_IRQ_ENABLE then
        match intAttribs (s.pinIrqHdrTab irqindex).mode with
        | none => (.EOK, s)
        | some u32IntAttribs =>
          (.EOK, { s with
            port := Function.update s.port port
              (gpioEnableInt (s.port port) (nuGetPins pin) u32IntAttribs)
            umasked := Function.update s.umasked port true })
      else
        (.EOK, { s with
          port := Function.update s.port port (gpioDisableInt (s.port port) (nuGetPins pin))
          umasked := Function.update s.umasked port false })
  else (.ERROR, s)

/-- The driver's interrupt operations. -/
inductive GpioOp (F A : Type)
  | attach (pin mode : BitVec 32) (hdr : Option F) (args : Option A)
  | detach (pin : BitVec 32)
  | irqEnable (pin enabled : BitVec 32)

/-- An operation with interrupts off, from its call to its return. -/
def gpioExec (s : Driver F A) : GpioOp F A → RtErr × Driver F A
  | .attach pin mode hdr args => nuGpioAttachIrq s pin mode hdr args
  | .detach pin => nuGpioDetachIrq s pin
  | .irqEnable pin enabled => nuGpioIrqEnable s pin enabled

/-! ## What the search finds -/

variable {s : Driver F A} {pin q : BitVec 32} {i : Nat}

/-- A slot that is in use and has the pin. -/
structure Holds (s : Driver F A) (i : Nat) (pin : BitVec 32) : Prop where
  lt : i < IRQ_MAX_NUM
  used : s.u32PinIrqMask.getLsbD i = true
  pin_eq : (s.pinIrqHdrTab i).pin.signExtend 32 = pin

/-- A slot found has the pin. -/
theorem nuFindIrqindex_some (h : nuFindIrqindex s pin = some i) : Holds s i pin := by
  have hmem := (mem_nuScan (by decide)).1 (List.mem_of_find?_eq_some h)
  have hp := List.find?_some h
  exact ⟨hmem.1, hmem.2, of_decide_eq_true hp⟩

/-- None is found only if none has the pin. -/
theorem nuFindIrqindex_none (h : nuFindIrqindex s pin = none) : ¬ Holds s i pin := by
  rintro ⟨hi, hbit, hp⟩
  have hno := List.find?_eq_none.1 h i ((mem_nuScan (by decide)).2 ⟨hi, hbit⟩)
  exact hno (decide_eq_true hp)

end NumakerMA35D1.Gpio

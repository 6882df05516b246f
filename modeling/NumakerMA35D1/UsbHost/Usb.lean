import Mathlib

/-!
# Devices, endpoints and instances

The records that the host library keeps of a device and of an endpoint, and the instances of the
attached devices that RT-Thread's USB core keeps in a tree of hubs. `Uinst.speed` is the instance's
speed as the core reads it off the port status, `Uinst.lineSpeed` the speed of the device itself.

Reference: `usb.h`, `usb_host.h`, `usb_common.h`.
-/

namespace NumakerMA35D1.UsbHost

/-- Reference: `usb.h:220 SPEED_E`. -/
inductive Speed
  | LOW | FULL | HIGH
deriving DecidableEq

/-- The host controllers. Reference: `usb.h:311 ohci0_driver`. -/
inductive HcDriver
  | OHCI0 | OHCI1 | EHCI0 | EHCI1
deriving DecidableEq

/-- A USB 2.0 controller. -/
def HcDriver.IsEhci (d : HcDriver) : Prop := d = .EHCI0 ∨ d = .EHCI1

instance HcDriver.decidableIsEhci (d : HcDriver) : Decidable d.IsEhci :=
  inferInstanceAs (Decidable (d = .EHCI0 ∨ d = .EHCI1))

/-! ## The host library's records -/

/-- Reference: `usb.h:227 EP_INFO_T`. -/
structure EpInfo where
  bEndpointAddress : BitVec 8
  bmAttributes : BitVec 8
  bInterval : BitVec 8
  wMaxPacketSize : BitVec 16
deriving DecidableEq

/-- What the library knows of one device. Reference: `usb.h:237 UDEV_T`. -/
structure UdevInfo where
  bMaxPacketSize0 : BitVec 8
  portNum : BitVec 8
  devNum : BitVec 8
  curConf : BitVec 8
  speed : Speed
  hcDriver : Option HcDriver
deriving DecidableEq

/-- The device's requests go to a USB 2.0 controller: no other writes queue heads. Reference:
`usb_core.c:275 usbh_ctrl_xfer`, `_ohci.c_:917 ohci_rh_polling`, `_ehci.c_:1247 ehci_rh_polling`. -/
def UdevInfo.OnEhci (udev : UdevInfo) : Prop := ∃ d, udev.hcDriver = some d ∧ d.IsEhci

/-- A device with the devices of the hubs above it, its parent's first: none where `parent` is
NULL. Reference: `usb.h:237 UDEV_T`. -/
structure Udev extends UdevInfo where
  parents : List UdevInfo
deriving DecidableEq

/-- A record of zeroes, and no configuration. Reference: `mem_alloc.c:120 alloc_device`. -/
def allocDevice : Udev where
  bMaxPacketSize0 := 0
  portNum := 0
  devNum := 0
  curConf := -1
  speed := .LOW
  hcDriver := none
  parents := []

/-! ## RT-Thread's instances -/

/-- Reference: `usb_common.h:336 uendpoint_descriptor`. -/
structure UendpointDescriptor where
  bEndpointAddress : BitVec 8
  bmAttributes : BitVec 8
  wMaxPacketSize : BitVec 16
  bInterval : BitVec 8
deriving DecidableEq

namespace UendpointDescriptor

variable (ep : UendpointDescriptor)

/-- Reference: `usb_common.h:134 USB_EP_ATTR_CONTROL`, `drv_usbhost.c:301 nu_open_pipe`. -/
def IsEp0 : Prop := ep.bEndpointAddress &&& 0x7F#8 = 0#8

instance : Decidable ep.IsEp0 := decEq (ep.bEndpointAddress &&& 0x7F#8) 0#8

/-- Reference: `usb_common.h:135 USB_EP_ATTR_ISOC`. -/
def IsIso : Prop := ep.bmAttributes &&& 0x03#8 = 0x01#8

/-- The endpoint number. -/
def number : Nat := ep.bEndpointAddress.toNat % 16

/-- The device sends. Reference: `usb_common.h:142 USB_DIR_IN`. -/
def dirIn : Bool := ep.bEndpointAddress &&& 0x80#8 = 0x80#8

/-- The packet size of the endpoint, bits 10:0. -/
def packetSize : Nat := ep.wMaxPacketSize.toNat % 2048

/-- The transactions of a micro-frame beyond the first, bits 12:11. -/
def additional : Nat := ep.wMaxPacketSize.toNat / 2048 % 4

end UendpointDescriptor

/-- Reference: `usb_host.h:22 USB_MAX_DEVICE`. -/
abbrev USB_MAX_DEVICE : Nat := 0x20

/-- There are entries. -/
scoped instance neZeroDevices : NeZero USB_MAX_DEVICE := ⟨by decide⟩

/-- An attached device: the entry of `dev[]` it has, the port of its hub, both from zero, and the
speed of the device. Reference: `usb_host.h:66 uinstance`. -/
inductive Uinst
  | onRootHub (dev : Fin USB_MAX_DEVICE) (i : Nat) (lineSpeed : Speed)
  | onHub (hub : Uinst) (dev : Fin USB_MAX_DEVICE) (i : Nat) (lineSpeed : Speed)
deriving DecidableEq

namespace Uinst

/-- Reference: `hub.c:440 rt_usbh_hub_port_change`. -/
def port : Uinst → Nat
  | onRootHub _ i _ | onHub _ _ i _ => i + 1

/-- The speed of the device. -/
def lineSpeed : Uinst → Speed
  | onRootHub _ _ v | onHub _ _ _ v => v

/-- The low-speed bit of the port status: a root port has it for every device that is not of high
speed. Reference: `hub.c:82 rt_usbh_root_hub_connect_handler`, `hub.c:437 rt_usbh_hub_port_change`. -/
def speed : Uinst → Nat
  | onRootHub _ _ v => if v = .HIGH then 0 else 1
  | onHub _ _ _ v => if v = .LOW then 1 else 0

/-- The address given by SET_ADDRESS. Reference: `usbhost_core.c:40 rt_usbh_alloc_instance`,
`usbhost_core.c:359 rt_usbh_set_address`. -/
def index : Uinst → Nat
  | onRootHub dev _ _ | onHub _ dev _ _ => dev + 1

end Uinst

end NumakerMA35D1.UsbHost

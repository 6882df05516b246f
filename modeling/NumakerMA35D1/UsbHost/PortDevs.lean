import NumakerMA35D1.UsbHost.DrvUsbhost
import NumakerMA35D1.Lib.Run

/-!
# Device records over runs

The tree of attached instances that RT-Thread's core keeps, with the pipes it has open, over the
port driver's records. `portDevs_run`: over every run in which no device is attached below a second
hub and every device behind a hub is detached once it is enumerated, no two attached devices share a
record, every index is in its table, every taken record is that of an attached device, and closing
the pipes of a device releases its record and changes no other. `not_portDevsRight`: below a second
hub two devices get one record, as the root port is looked for one hub up only.

Reference: `drv_usbhost.c`, `usbhost_core.c:236 rt_usbh_detach_instance`,
`hub.c:377 rt_usbh_hub_port_change`.
-/

namespace NumakerMA35D1.UsbHost

open Embedded

/-! ## Attached instances and their pipes -/

/-- The hub an instance is on, none for a root port, and the port of it. -/
def Uinst.place : Uinst → Option Uinst × Nat
  | .onRootHub _ i _ => (none, i)
  | .onHub hub _ i _ => (some hub, i)

/-- Reference: `usb_host.h:100 upipe`. -/
structure Pipe where
  inst : Uinst
  ep : UendpointDescriptor
  pipeIndex : Nat
deriving DecidableEq

/-- The driver with the instances in the hubs' tables and the pipes that are open. -/
structure Usb where
  drv : Driver
  attached : List Uinst
  pipes : List Pipe

/-- Nothing attached. -/
def Usb.init : Usb := ⟨Driver.init, [], []⟩

/-- What the core, the polling of the root hubs and the devices do. -/
inductive UsbOp
  | connect (udev : PortUdev)
  | disconnect (i : Nat)
  | attach (inst : Uinst)
  | openPipe (a : Allocs) (inst : Uinst) (ep : UendpointDescriptor)
  | closePipe (p : Pipe)
  | request (inst : Uinst) (setup : Urequest)
  | detach (inst : Uinst)

/-- The pipes closed, one after another. -/
def closePipes (s : Driver) (pipes : List Pipe) : Driver :=
  pipes.foldl (fun s p => nuClosePipe s p.inst p.ep p.pipeIndex) s

/-- The pipes of an instance, those of endpoint zero first. Reference: `usbhost_core.c:262
rt_usbh_detach_instance`. -/
def pipesOf (pipes : List Pipe) (inst : Uinst) : List Pipe :=
  (pipes.filter fun p => p.inst = inst ∧ p.ep.IsEp0) ++
    pipes.filter fun p => p.inst = inst ∧ ¬ p.ep.IsEp0

/-- The record a pipe of the instance has, with a device. -/
def liveRecord (s : Driver) (inst : Uinst) : Option PortRef :=
  (getPortDevFromPipe s inst).filter fun r => (s r).pUDev.isSome

/-- One step. A hub has one instance on a port, an instance is attached to a hub that is attached,
and a hub is detached after the instances on it. Reference: `hub.c:425 rt_usbh_hub_port_change`,
`hub.c:606 rt_usbh_hub_disable`. -/
def usbStep (s : Usb) : UsbOp → Option Usb
  | .connect udev => some { s with drv := nuHcdConnectCallback s.drv udev }
  | .disconnect i => some { s with drv := nuHcdDisconnectCallback s.drv i }
  | .attach inst =>
    if (∀ b ∈ s.attached, b.place ≠ inst.place) ∧ (∀ hub ∈ inst.place.1, hub ∈ s.attached) then
      some { s with attached := inst :: s.attached }
    else none
  | .openPipe a inst ep =>
    if inst ∈ s.attached then
      match nuOpenPipe s.drv a inst ep with
      | .error _ => none
      | .ok (e, i, drv) =>
        some { s with
          drv := drv
          pipes := if e = .EOK ∨ ep.IsEp0 then s.pipes ++ [⟨inst, ep, i⟩] else s.pipes }
    else none
  | .closePipe p =>
    if p ∈ s.pipes then
      some { s with drv := nuClosePipe s.drv p.inst p.ep p.pipeIndex, pipes := s.pipes.erase p }
    else none
  | .request inst setup =>
    match liveRecord s.drv inst with
    | none => none
    | some r =>
      if inst ∈ s.attached then
        some { s with drv := Function.update s.drv r (requestDone (s.drv r) setup) }
      else none
  | .detach inst =>
    if inst ∈ s.attached ∧ ∀ b ∈ s.attached, b.place.1 ≠ some inst then
      some
        { drv := closePipes s.drv (pipesOf s.pipes inst)
          attached := s.attached.filter (· ≠ inst)
          pipes := s.pipes.filter (·.inst ≠ inst) }
    else none

/-! ## Specification -/

/-- The records of the attached instances: apart, in the tables, and no other record taken. -/
structure RecordsRight (s : Usb) : Prop where
  unshared : ∀ a ∈ s.attached, ∀ b ∈ s.attached, ∀ r, getPortDevFromPipe s.drv a = some r →
    getPortDevFromPipe s.drv b = some r → a = b
  inRange : ∀ a ∈ s.attached, 1 ≤ rhPort a ∧
    ∀ r, getPortDevFromPipe s.drv a = some r → r.InRange
  pipeIndex : ∀ p ∈ s.pipes, p.pipeIndex < NU_MAX_USBH_PIPE
  owned : ∀ r, r.slot ≠ .sRHPortDev → (s.drv r).pUDev ≠ none →
    ∃ a ∈ s.attached, getPortDevFromPipe s.drv a = some r

/-- Closing pipes changes the record of their instance only, and closing all of an instance behind a
hub releases it. -/
def ClosesOwn (s : Usb) (s' : Usb) : UsbOp → Prop
  | .closePipe p => ∀ r, getPortDevFromPipe s.drv p.inst ≠ some r → s'.drv r = s.drv r
  | .detach inst =>
    (∀ r, getPortDevFromPipe s.drv inst ≠ some r → s'.drv r = s.drv r) ∧
      ∀ r, getPortDevFromPipe s.drv inst = some r → r.slot ≠ .sRHPortDev →
        (s'.drv r).pUDev = none
  | _ => True

/-- A root port, or a port of a hub on a root port. -/
def Uinst.Shallow : Uinst → Prop
  | .onRootHub .. => True
  | .onHub (.onRootHub ..) .. => True
  | .onHub (.onHub ..) .. => False

/-- A device is attached below at most one hub, and one behind a hub is detached with endpoint zero
open and its configuration set. -/
def StepMeets (s : Usb) : UsbOp → Prop
  | .attach inst => inst.Shallow
  | .detach inst => ∀ r, liveRecord s.drv inst = some r → r.slot ≠ .sRHPortDev →
      (s.drv r).bEnumDone = true ∧ ∃ p ∈ s.pipes, p.inst = inst ∧ p.ep.IsEp0
  | _ => True

/-! ## Records kept -/

/-- The port numbers are kept, and no record behind a hub is taken. -/
structure Kept (s s' : Driver) : Prop where
  portNum : ∀ r, (s' r).portNum = (s r).portNum
  bRHParent : ∀ r, r.slot ≠ .sRHPortDev → (s' r).bRHParent = (s r).bRHParent
  pUDev : ∀ r, r.slot ≠ .sRHPortDev → (s' r).pUDev ≠ none → (s r).pUDev ≠ none

namespace Kept

variable {s s' s'' : Driver} {r : PortRef} {d : PortDev}

theorem refl : Kept s s := ⟨fun _ => rfl, fun _ _ => rfl, fun _ _ h => h⟩

theorem trans (h : Kept s s') (h' : Kept s' s'') : Kept s s'' where
  portNum r := (h'.portNum r).trans (h.portNum r)
  bRHParent r hr := (h'.bRHParent r hr).trans (h.bRHParent r hr)
  pUDev r hr hlive := h.pUDev r hr (h'.pUDev r hr hlive)

theorem update (hport : d.portNum = (s r).portNum)
    (hroot : r.slot ≠ .sRHPortDev → d.bRHParent = (s r).bRHParent)
    (hdev : r.slot ≠ .sRHPortDev → d.pUDev ≠ none → (s r).pUDev ≠ none) :
    Kept s (Function.update s r d) := by
  refine ⟨fun r' => ?_, fun r' hr' => ?_, fun r' hr' => ?_⟩
  all_goals
    by_cases hr : r' = r
    · subst hr
      rw [Function.update_self]
      first
      | exact hport
      | exact hroot hr'
      | exact hdev hr'
    · rw [Function.update_of_ne hr]
      try exact id

theorem get (h : Kept s s') (inst : Uinst) :
    getPortDevFromPipe s' inst = getPortDevFromPipe s inst :=
  getPortDevFromPipe_congr h.portNum

theorem connect (udev : PortUdev) : Kept s (nuHcdConnectCallback s udev) := by
  rw [nuHcdConnectCallback]
  split
  · exact refl
  · exact update rfl (fun hr => absurd rfl hr) (fun hr => absurd rfl hr)

theorem disconnect (i : Nat) : Kept s (nuHcdDisconnectCallback s i) :=
  update rfl (fun hr => absurd rfl hr) (fun hr => absurd rfl hr)

theorem request (setup : Urequest) : Kept s (Function.update s r (requestDone (s r) setup)) := by
  apply update
  · rw [requestDone]
    split <;> try rfl
    split <;> try rfl
    split <;> rfl
  · intro _
    rw [requestDone]
    split <;> try rfl
    split <;> try rfl
    split <;> rfl
  · intro _
    rw [requestDone]
    split
    · exact id
    · split
      · simp
      · split
        · simp
        · exact id

end Kept

/-! ## Closing -/

section

variable {s : Driver} {inst : Uinst} {r : PortRef}

/-- A close finds the record of its instance, or does nothing. -/
theorem nuClosePipe_found {ep : UendpointDescriptor} {i : Nat}
    (h : getPortDevFromPipe s inst = some r) :
    nuClosePipe s inst ep i = Function.update s r (closeEndpoint (closeUDev (s r) ep) i) := by
  rw [nuClosePipe, h]

theorem nuClosePipe_lost {ep : UendpointDescriptor} {i : Nat}
    (h : getPortDevFromPipe s inst = none) : nuClosePipe s inst ep i = s := by
  rw [nuClosePipe, h]

theorem closeUDev_kept (d : PortDev) (ep : UendpointDescriptor) (i : Nat) :
    (closeEndpoint (closeUDev d ep) i).portNum = d.portNum ∧
      (closeEndpoint (closeUDev d ep) i).bRHParent = d.bRHParent ∧
      (closeEndpoint (closeUDev d ep) i).bEnumDone = d.bEnumDone ∧
      (d.pUDev = none → (closeEndpoint (closeUDev d ep) i).pUDev = none) := by
  simp only [closeEndpoint, closeUDev]
  split
  · exact ⟨rfl, rfl, rfl, fun _ => rfl⟩
  · exact ⟨rfl, rfl, rfl, id⟩

theorem Kept.close (ep : UendpointDescriptor) (i : Nat) : Kept s (nuClosePipe s inst ep i) := by
  cases h : getPortDevFromPipe s inst with
  | none =>
    rw [nuClosePipe_lost h]
    exact .refl
  | some r =>
    obtain ⟨hport, hroot, -, hdev⟩ := closeUDev_kept (s r) ep i
    rw [nuClosePipe_found h]
    exact .update hport (fun _ => hroot) (fun _ hne hnone => hne (hdev hnone))

theorem closePipes_kept (pipes : List Pipe) : Kept s (closePipes s pipes) := by
  induction pipes generalizing s with
  | nil => exact .refl
  | cons p pipes ih => exact (Kept.close p.ep p.pipeIndex).trans ih

/-- Closing pipes of one instance changes its record only. -/
theorem closePipes_frame {pipes : List Pipe} (hinst : ∀ p ∈ pipes, p.inst = inst)
    (h : getPortDevFromPipe s inst ≠ some r) : closePipes s pipes r = s r := by
  induction pipes generalizing s with
  | nil => rfl
  | cons p pipes ih =>
    obtain ⟨hp, hpipes⟩ := List.forall_mem_cons.1 hinst
    have hkept : Kept s (nuClosePipe s p.inst p.ep p.pipeIndex) := .close _ _
    have hrest : closePipes (nuClosePipe s p.inst p.ep p.pipeIndex) pipes r =
        nuClosePipe s p.inst p.ep p.pipeIndex r :=
      ih hpipes (by rwa [hkept.get])
    refine hrest.trans ?_
    rw [hp]
    cases hget : getPortDevFromPipe s inst with
    | none => rw [nuClosePipe_lost hget]
    | some r' =>
      rw [nuClosePipe_found hget, Function.update_of_ne]
      rintro rfl
      exact h hget

/-- A released record stays released. -/
theorem closePipes_none {pipes : List Pipe} (hr : r.slot ≠ .sRHPortDev) (h : (s r).pUDev = none) :
    (closePipes s pipes r).pUDev = none := by
  by_contra hne
  exact (closePipes_kept pipes).pUDev r hr hne h

/-- Closing endpoint zero of an enumerated device behind a hub releases its record. -/
theorem closePipes_release {pipes : List Pipe} (hinst : ∀ p ∈ pipes, p.inst = inst)
    (hget : getPortDevFromPipe s inst = some r) (hr : r.slot ≠ .sRHPortDev)
    (hroot : (s r).bRHParent = false) (hdone : (s r).bEnumDone = true)
    (hep0 : ∃ p ∈ pipes, p.ep.IsEp0) : (closePipes s pipes r).pUDev = none := by
  induction pipes generalizing s with
  | nil =>
    obtain ⟨p, hp, -⟩ := hep0
    cases hp
  | cons p pipes ih =>
    obtain ⟨hp, hpipes⟩ := List.forall_mem_cons.1 hinst
    have hclose : nuClosePipe s p.inst p.ep p.pipeIndex =
        Function.update s r (closeEndpoint (closeUDev (s r) p.ep) p.pipeIndex) := by
      rw [hp, nuClosePipe_found hget]
    change (closePipes (nuClosePipe s p.inst p.ep p.pipeIndex) pipes r).pUDev = none
    rw [hclose]
    by_cases hzero : p.ep.IsEp0
    · apply closePipes_none hr
      rw [Function.update_self, closeUDev, if_pos ⟨hzero, hroot, hdone⟩]
      rfl
    · obtain ⟨hport, hroot', hdone', -⟩ := closeUDev_kept (s r) p.ep p.pipeIndex
      apply ih hpipes
      · rw [getPortDevFromPipe_update hport, hget]
      · rw [Function.update_self, hroot', hroot]
      · rw [Function.update_self, hdone', hdone]
      · obtain ⟨q, hq, hqzero⟩ := hep0
        rcases List.mem_cons.1 hq with rfl | hq
        · exact absurd hqzero hzero
        · exact ⟨q, hq, hqzero⟩

end

/-! ## The invariant -/

/-- A tree of at most one hub below the root hub, with one instance on a port. -/
structure Tree (attached : List Uinst) : Prop where
  places : ∀ a ∈ attached, ∀ b ∈ attached, a.place = b.place → a = b
  hubs : ∀ a ∈ attached, ∀ hub ∈ a.place.1, hub ∈ attached
  shallow : ∀ a ∈ attached, a.Shallow

/-- The records behind hubs are not root ports', and those taken have an owner. -/
structure Records (attached : List Uinst) (s : Driver) : Prop where
  notRoot : ∀ r, r.slot ≠ .sRHPortDev → (s r).bRHParent = false
  owned : ∀ r, r.slot ≠ .sRHPortDev → (s r).pUDev ≠ none →
    ∃ a ∈ attached, getPortDevFromPipe s a = some r

theorem Records.kept {attached : List Uinst} {s s' : Driver} (h : Records attached s)
    (hkept : Kept s s') : Records attached s' where
  notRoot r hr := (hkept.bRHParent r hr).trans (h.notRoot r hr)
  owned r hr hlive := by
    obtain ⟨a, ha, hget⟩ := h.owned r hr (hkept.pUDev r hr hlive)
    exact ⟨a, ha, (hkept.get a).trans hget⟩

section

variable {attached : List Uinst} {s : Driver}

/-- Two instances on ports of hubs with one root port and one port number are one. -/
theorem Tree.eq_of_port (h : Tree attached) {hub hub' : Uinst} {dev dev' : Fin USB_MAX_DEVICE}
    {i j : Nat} {v v' : Speed} (ha : .onHub hub dev i v ∈ attached)
    (hb : .onHub hub' dev' j v' ∈ attached) (hctrl : hub.port - 1 = hub'.port - 1) (hij : i = j) :
    Uinst.onHub hub dev i v = .onHub hub' dev' j v' := by
  have hhub : hub ∈ attached := h.hubs _ ha _ rfl
  have hhub' : hub' ∈ attached := h.hubs _ hb _ rfl
  have heq : hub = hub' := by
    apply h.places _ hhub _ hhub'
    cases hub with
    | onHub => exact absurd (h.shallow _ ha) id
    | onRootHub d k w =>
      cases hub' with
      | onHub => exact absurd (h.shallow _ hb) id
      | onRootHub d' k' w' => exact Prod.ext rfl hctrl
  exact h.places _ ha _ hb (by rw [Uinst.place, Uinst.place, heq, hij])

theorem Tree.unshared (h : Tree attached) {a b : Uinst} (ha : a ∈ attached) (hb : b ∈ attached)
    {r : PortRef} (hra : getPortDevFromPipe s a = some r) (hrb : getPortDevFromPipe s b = some r) :
    a = b := by
  cases a with
  | onRootHub dev i v =>
    obtain ⟨-, rfl⟩ := getPortDevFromPipe_onRootHub.1 hra
    cases b with
    | onRootHub dev' j v' =>
      obtain ⟨-, heq⟩ := getPortDevFromPipe_onRootHub.1 hrb
      cases heq
      exact h.places _ ha _ hb rfl
    | onHub hub dev' j v' =>
      obtain ⟨-, k, heq, -⟩ := getPortDevFromPipe_onHub.1 hrb
      cases heq
  | onHub hub dev i v =>
    obtain ⟨-, k, rfl, -, hport, -⟩ := getPortDevFromPipe_onHub.1 hra
    cases b with
    | onRootHub dev' j v' =>
      obtain ⟨-, heq⟩ := getPortDevFromPipe_onRootHub.1 hrb
      cases heq
    | onHub hub' dev' j v' =>
      obtain ⟨-, k', heq, -, hport', -⟩ := getPortDevFromPipe_onHub.1 hrb
      injection heq with hctrl
      exact h.eq_of_port ha hb hctrl (by omega)

/-- A record taken for an instance is its own, and the others keep their owners. -/
theorem Records.openPortDev (h : Records attached s) (htree : Tree attached) {a : Allocs}
    {inst : Uinst} (hinst : inst ∈ attached) {ctrl : Nat} {rh : PortUdev} {r : PortRef} {s' : Driver}
    (hctrl : getRHPortControlFromPipe inst = some ctrl)
    (hrh : (s ⟨ctrl, .sRHPortDev⟩).pUDev = some rh)
    (hopen : UsbHost.openPortDev s a inst ctrl rh = some (r, s')) : Records attached s' := by
  have hown := openPortDev_get hctrl hrh hopen
  obtain ⟨-, -, rfl⟩ | ⟨hdead, ⟨k, hr, -, -, -⟩, hs'⟩ := openPortDev_cases hopen
  · exact h
  have hport : (s' r).portNum = inst.port := by rw [hs', Function.update_self]
  have hother : ∀ r', r' ≠ r → s' r' = s r' := fun r' hne => by rw [hs', Function.update_of_ne hne]
  constructor
  · intro r' hr'
    by_cases hrr : r' = r
    · subst hrr
      rw [hs', Function.update_self]
      exact h.notRoot r' hr'
    · rw [hother r' hrr]
      exact h.notRoot r' hr'
  · intro r' hr' hlive
    by_cases hrr : r' = r
    · subst hrr
      exact ⟨inst, hinst, hown⟩
    · rw [hother r' hrr] at hlive
      obtain ⟨b, hb, hget⟩ := h.owned r' hr' hlive
      refine ⟨b, hb, ?_⟩
      have hne : b ≠ inst := by
        rintro rfl
        exact hlive (hdead r' hget)
      cases b with
      | onRootHub dev j v =>
        obtain ⟨-, rfl⟩ := getPortDevFromPipe_onRootHub.1 hget
        exact absurd rfl hr'
      | onHub hub dev j v =>
        cases inst with
        | onRootHub dev' j' v' =>
          obtain ⟨-, heq⟩ := getPortDevFromPipe_onRootHub.1 hown
          rw [hr] at heq
          cases heq
        | onHub hub' dev' j' v' =>
          obtain ⟨-, k', heq, -⟩ := getPortDevFromPipe_onHub.1 hown
          obtain ⟨hle, m, rfl, hm, hportb, hbefore⟩ := getPortDevFromPipe_onHub.1 hget
          refine getPortDevFromPipe_onHub.2 ⟨hle, m, rfl, hm, ?_, fun n hn => ?_⟩
          · rw [hother _ hrr]
            exact hportb
          · -- the record taken now has another port number
            by_cases hnr : (⟨hub.port - 1, .asHubPortDev n⟩ : PortRef) = r
            · rw [hnr, hport]
              intro hsame
              rw [heq] at hnr
              injection hnr with hctrls
              exact hne (htree.eq_of_port hb hinst hctrls (Nat.succ_injective hsame).symm)
            · rw [hother _ hnr]
              exact hbefore n hn

end

/-- The invariant of the runs. -/
structure Usb.Inv (s : Usb) : Prop where
  tree : Tree s.attached
  records : Records s.attached s.drv
  pipeIndex : ∀ p ∈ s.pipes, p.pipeIndex < NU_MAX_USBH_PIPE

theorem Usb.Inv.init : Usb.init.Inv where
  tree := ⟨(fun _ ha => nomatch ha), (fun _ ha => nomatch ha), (fun _ ha => nomatch ha)⟩
  records := ⟨fun _ _ => rfl, fun _ _ hlive => absurd rfl hlive⟩
  pipeIndex := fun _ hp => nomatch hp

theorem Usb.Inv.right {s : Usb} (h : s.Inv) : RecordsRight s where
  unshared _ ha _ hb _ hra hrb := h.tree.unshared ha hb hra hrb
  inRange a _ := by
    refine ⟨?_, fun r hr => getPortDevFromPipe_inRange hr⟩
    cases a with
    | onRootHub dev i v => exact Nat.succ_pos i
    | onHub hub dev i v => cases hub <;> exact Nat.succ_pos _
  pipeIndex := h.pipeIndex
  owned := h.records.owned

/-! ## Steps and runs -/

section

variable {s s' : Usb}

theorem Usb.Inv.kept {drv : Driver} {pipes : List Pipe} (h : s.Inv) (hkept : Kept s.drv drv)
    (hpipes : ∀ p ∈ pipes, p.pipeIndex < NU_MAX_USBH_PIPE) :
    Usb.Inv { s with drv := drv, pipes := pipes } :=
  ⟨h.tree, h.records.kept hkept, hpipes⟩

theorem Usb.Inv.attach {inst : Uinst} (h : s.Inv) (hmeets : inst.Shallow)
    (hplace : ∀ b ∈ s.attached, b.place ≠ inst.place)
    (hhub : ∀ hub ∈ inst.place.1, hub ∈ s.attached) :
    Usb.Inv { s with attached := inst :: s.attached } where
  tree := by
    refine ⟨?_, ?_, List.forall_mem_cons.2 ⟨hmeets, h.tree.shallow⟩⟩
    · intro a ha b hb hab
      rcases List.mem_cons.1 ha with ha' | ha'
      · rcases List.mem_cons.1 hb with hb' | hb'
        · exact ha'.trans hb'.symm
        · exact absurd (hab.symm.trans (congrArg Uinst.place ha')) (hplace b hb')
      · rcases List.mem_cons.1 hb with hb' | hb'
        · exact absurd (hab.trans (congrArg Uinst.place hb')) (hplace a ha')
        · exact h.tree.places a ha' b hb' hab
    · intro a ha hub hmem
      rcases List.mem_cons.1 ha with rfl | ha
      · exact List.mem_cons_of_mem _ (hhub hub hmem)
      · exact List.mem_cons_of_mem _ (h.tree.hubs a ha hub hmem)
  records := by
    refine ⟨h.records.notRoot, fun r hr hlive => ?_⟩
    obtain ⟨a, ha, hget⟩ := h.records.owned r hr hlive
    exact ⟨a, List.mem_cons_of_mem _ ha, hget⟩
  pipeIndex := h.pipeIndex

theorem Usb.Inv.openPipe {a : Allocs} {inst : Uinst} {ep : UendpointDescriptor} {e : Err} {i : Nat}
    {drv : Driver} (h : s.Inv) (hinst : inst ∈ s.attached)
    (hopen : nuOpenPipe s.drv a inst ep = .ok (e, i, drv)) :
    Records s.attached drv ∧ i < NU_MAX_USBH_PIPE := by
  obtain ⟨-, rfl, rfl⟩ | ⟨ctrl, rh, r, s₁, hctrl, hrh, hrec, hend⟩ := nuOpenPipe_cases hopen
  · exact ⟨h.records, by decide⟩
  have hrecords := h.records.openPortDev h.tree hinst hctrl hrh hrec
  obtain ⟨-, rfl, rfl⟩ | ⟨d, -, hi, rfl, hsame, -⟩ := hend
  · exact ⟨hrecords, by decide⟩
  · refine ⟨hrecords.kept (.update hsame.portNum (fun _ => hsame.bRHParent) fun _ hlive => ?_), hi⟩
    rwa [← hsame.pUDev]

theorem pipesOf_inst (pipes : List Pipe) (inst : Uinst) : ∀ p ∈ pipesOf pipes inst, p.inst = inst := by
  intro p hp
  rcases List.mem_append.1 hp with hp | hp
  · exact (of_decide_eq_true (List.mem_filter.1 hp).2).1
  · exact (of_decide_eq_true (List.mem_filter.1 hp).2).1

/-- A detach that meets the condition releases the record of an instance behind a hub. -/
theorem Usb.Inv.released {inst : Uinst} {r : PortRef} (h : s.Inv)
    (hmeets : StepMeets s (.detach inst)) (hget : getPortDevFromPipe s.drv inst = some r)
    (hr : r.slot ≠ .sRHPortDev) :
    (closePipes s.drv (pipesOf s.pipes inst) r).pUDev = none := by
  by_cases hlive : (s.drv r).pUDev = none
  · exact closePipes_none hr hlive
  · have hfound : liveRecord s.drv inst = some r := by
      rw [liveRecord, hget, Option.filter_some, if_pos (Option.isSome_iff_ne_none.2 hlive)]
    obtain ⟨hdone, p, hp, hpinst, hzero⟩ := hmeets r hfound hr
    exact closePipes_release (pipesOf_inst s.pipes inst) hget hr (h.records.notRoot r hr) hdone
      ⟨p, List.mem_append_left _ (List.mem_filter.2 ⟨hp, decide_eq_true ⟨hpinst, hzero⟩⟩), hzero⟩

theorem Usb.Inv.detach {inst : Uinst} (h : s.Inv) (hmeets : StepMeets s (.detach inst))
    (hchild : ∀ b ∈ s.attached, b.place.1 ≠ some inst) :
    Usb.Inv
      { drv := closePipes s.drv (pipesOf s.pipes inst)
        attached := s.attached.filter (· ≠ inst)
        pipes := s.pipes.filter (·.inst ≠ inst) } where
  tree := by
    have hmem : ∀ {a}, a ∈ s.attached.filter (· ≠ inst) → a ∈ s.attached := List.mem_of_mem_filter
    refine ⟨fun a ha b hb => h.tree.places a (hmem ha) b (hmem hb), fun a ha hub hhub => ?_,
      fun a ha => h.tree.shallow a (hmem ha)⟩
    refine List.mem_filter.2 ⟨h.tree.hubs a (hmem ha) hub hhub, decide_eq_true ?_⟩
    rintro rfl
    exact hchild a (hmem ha) hhub
  records := by
    have hkept : Kept s.drv (closePipes s.drv (pipesOf s.pipes inst)) := closePipes_kept _
    refine ⟨(h.records.kept hkept).notRoot, fun r hr hlive => ?_⟩
    obtain ⟨a, ha, hget⟩ := h.records.owned r hr (hkept.pUDev r hr hlive)
    refine ⟨a, List.mem_filter.2 ⟨ha, decide_eq_true ?_⟩, (hkept.get a).trans hget⟩
    rintro rfl
    exact hlive (h.released hmeets hget hr)
  pipeIndex p hp := h.pipeIndex p (List.mem_of_mem_filter hp)

/-- What one step keeps. -/
theorem Usb.Inv.step {op : UsbOp} (h : s.Inv) (hmeets : StepMeets s op)
    (hstep : usbStep s op = some s') : s'.Inv := by
  cases op with
  | connect udev =>
    cases hstep
    exact h.kept (.connect udev) h.pipeIndex
  | disconnect i =>
    cases hstep
    exact h.kept (.disconnect i) h.pipeIndex
  | attach inst =>
    rw [usbStep] at hstep
    split at hstep
    case isTrue hguard =>
      cases hstep
      exact h.attach hmeets hguard.1 hguard.2
    case isFalse => cases hstep
  | openPipe a inst ep =>
    rw [usbStep] at hstep
    split at hstep
    case isTrue hinst =>
      split at hstep
      · cases hstep
      · rename_i e i drv hopen
        cases hstep
        obtain ⟨hrecords, hi⟩ := h.openPipe hinst hopen
        refine ⟨h.tree, hrecords, ?_⟩
        intro p hp
        dsimp only at hp
        split at hp
        · rcases List.mem_append.1 hp with hp | hp
          · exact h.pipeIndex p hp
          · rw [List.mem_singleton.1 hp]
            exact hi
        · exact h.pipeIndex p hp
    case isFalse => cases hstep
  | closePipe p =>
    rw [usbStep] at hstep
    split at hstep
    · cases hstep
      exact h.kept (.close p.ep p.pipeIndex) fun q hq => h.pipeIndex q (List.mem_of_mem_erase hq)
    · cases hstep
  | request inst setup =>
    rw [usbStep] at hstep
    split at hstep
    · cases hstep
    · split at hstep
      · cases hstep
        exact h.kept (.request setup) h.pipeIndex
      · cases hstep
  | detach inst =>
    rw [usbStep] at hstep
    split at hstep
    case isTrue hguard =>
      cases hstep
      exact h.detach hmeets hguard.2
    case isFalse => cases hstep

/-- What one close changes. -/
theorem Usb.Inv.closesOwn {op : UsbOp} (h : s.Inv) (hmeets : StepMeets s op)
    (hstep : usbStep s op = some s') : ClosesOwn s s' op := by
  cases op with
  | connect | disconnect | attach | openPipe | request => trivial
  | closePipe p =>
    intro r hr
    rw [usbStep] at hstep
    split at hstep
    · cases hstep
      exact closePipes_frame (show ∀ q ∈ [p], q.inst = p.inst by simp) hr
    · cases hstep
  | detach inst =>
    rw [usbStep] at hstep
    split at hstep
    · cases hstep
      exact ⟨fun r hr => closePipes_frame (pipesOf_inst s.pipes inst) hr,
        fun r hget hr => h.released hmeets hget hr⟩
    · cases hstep

end

/-- With at most one hub below a root port and devices behind it detached once enumerated, the
records are right in every state reached, and a close changes its own. -/
theorem portDevs_run {labels : List UsbOp} {s : Usb}
    (h : Run (where_ (fun s op s' => usbStep s op = some s') StepMeets) Usb.init labels s) :
    RecordsRight s ∧
      ∀ op s', StepMeets s op → usbStep s op = some s' → ClosesOwn s s' op := by
  have hinv : s.Inv := by
    refine Run.invariant (fun hinv hstep => ?_) Usb.Inv.init h
    exact Usb.Inv.step hinv hstep.1 hstep.2
  exact ⟨hinv.right, fun op s' hmeets hstep => hinv.closesOwn hmeets hstep⟩

/-- A device on a hub on the root port is attached, configured and detached. -/
theorem portDevs_run_detach :
    ∃ s, RecordsRight s ∧ s.attached = [.onRootHub 0 0 .HIGH] ∧
      (s.drv ⟨0, .asHubPortDev 0⟩).pUDev = none ∧
        ∀ op s', StepMeets s op → usbStep s op = some s' → ClosesOwn s s' op := by
  have hrun : ∃ s, Run (where_ (fun s op s' => usbStep s op = some s') StepMeets) Usb.init
      ([] ++ [.connect ⟨{ allocDevice with speed := .HIGH, hcDriver := some .EHCI0 }, rfl⟩] ++
        [.attach (.onRootHub 0 0 .HIGH)] ++
        [.attach (.onHub (.onRootHub 0 0 .HIGH) 1 0 .HIGH)] ++
        [.openPipe ⟨true, true, some default⟩ (.onHub (.onRootHub 0 0 .HIGH) 1 0 .HIGH) ⟨0, 0, 8, 0⟩] ++
        [.request (.onHub (.onRootHub 0 0 .HIGH) 1 0 .HIGH)
          ⟨0, USB_REQ_SET_CONFIGURATION, 1, 0, 0⟩] ++
        [.detach (.onHub (.onRootHub 0 0 .HIGH) 1 0 .HIGH)]) s ∧
      s.attached = [.onRootHub 0 0 .HIGH] ∧ (s.drv ⟨0, .asHubPortDev 0⟩).pUDev = none := by
    refine ⟨_, .snoc (.snoc (.snoc (.snoc (.snoc (.snoc .nil ⟨trivial, rfl⟩) ⟨trivial, rfl⟩)
      ⟨trivial, rfl⟩) ⟨trivial, rfl⟩) ⟨trivial, rfl⟩) ⟨?_, rfl⟩, rfl, rfl⟩
    intro r hr _
    cases hr
    exact ⟨rfl, _, List.mem_singleton.2 rfl, rfl, rfl⟩
  obtain ⟨s, h, hattached, hfree⟩ := hrun
  obtain ⟨hright, hcloses⟩ := portDevs_run h
  exact ⟨s, hright, hattached, hfree, hcloses⟩

/-- Below a second hub the record is looked for among those of the first: the device on port 2 of
either hub has the record of the other. -/
theorem not_portDevsRight :
    ¬ ∀ labels s, Run (fun s op s' => usbStep s op = some s') Usb.init labels s →
      RecordsRight s ∧ ∀ op s', usbStep s op = some s' → ClosesOwn s s' op := by
  intro h
  have hrun : [UsbOp.connect ⟨{ allocDevice with speed := .HIGH, hcDriver := some .EHCI0 }, rfl⟩,
      .attach (.onRootHub 0 0 .HIGH),
      .attach (.onHub (.onRootHub 0 0 .HIGH) 1 0 .HIGH),
      .openPipe ⟨true, true, some default⟩ (.onHub (.onRootHub 0 0 .HIGH) 1 0 .HIGH) ⟨0, 0, 8, 0⟩,
      .attach (.onHub (.onRootHub 0 0 .HIGH) 2 1 .HIGH),
      .openPipe ⟨true, true, some default⟩ (.onHub (.onRootHub 0 0 .HIGH) 2 1 .HIGH) ⟨0, 0, 8, 0⟩,
      .attach (.onHub (.onHub (.onRootHub 0 0 .HIGH) 1 0 .HIGH) 3 1 .HIGH),
      .openPipe ⟨true, true, some default⟩ (.onHub (.onHub (.onRootHub 0 0 .HIGH) 1 0 .HIGH) 3 1 .HIGH)
        ⟨0, 0, 8, 0⟩].foldlM usbStep Usb.init = some _ := rfl
  have hright := (h _ _ (Run.of_foldlM id hrun)).1
  have hsame : Uinst.onHub (.onRootHub 0 0 .HIGH) 2 1 .HIGH =
      .onHub (.onHub (.onRootHub 0 0 .HIGH) 1 0 .HIGH) 3 1 .HIGH :=
    hright.unshared _ (by simp) _ (by simp) ⟨0, .asHubPortDev 1⟩ rfl rfl
  cases hsame

end NumakerMA35D1.UsbHost

import NumakerMA35D1.UsbHost.PipeXfer

/-!
# The calls of a control request

A control request comes as a call with the SETUP packet, calls for its data and a call for its
status. `setupIn_spec`, `setupOut_spec`, `dataFirst_spec` and `dataNext_spec` say what each comes to
on an open pipe. All of them change the records of their root port only (`CtrlStep`).

Reference: `usb_host.h:260 rt_usb_hcd_setup_xfer`, `usbhost_core.c:563 rt_usb_hcd_pipe_xfer`.
-/

namespace NumakerMA35D1.UsbHost

open Embedded

/-! ## The calls -/

/-- Reference: `usbhost_core.c:65 ep0_out_desc`. -/
def ep0Out (mps : BitVec 8) : UendpointDescriptor := ⟨0x00, 0x00, mps.setWidth 16, 0⟩

/-- Reference: `usbhost_core.c:75 ep0_in_desc`. -/
def ep0In (mps : BitVec 8) : UendpointDescriptor := ⟨0x80, 0x00, mps.setWidth 16, 0⟩

@[simp] theorem ep0Out_dirIn (mps : BitVec 8) : (ep0Out mps).dirIn = false := by
  simp [ep0Out, UendpointDescriptor.dirIn]

@[simp] theorem ep0In_dirIn (mps : BitVec 8) : (ep0In mps).dirIn = true := by
  simp [ep0In, UendpointDescriptor.dirIn]

/-- Reference: `usb_host.h:260 rt_usb_hcd_setup_xfer`. -/
def setupCall (inst : Uinst) (mps : BitVec 8) (setup : Urequest) : Call where
  inst := inst
  ep := ep0Out mps
  pipeIndex := 0
  buffer := some setup.bytes
  nbytes := 8
  room := by
    rintro bytes ⟨⟩
    exact Nat.le_refl 8
  null := nofun

/-- A call for `n` bytes of the data. Reference: `usbhost_core.c:572 rt_usb_hcd_pipe_xfer`. -/
def dataCall (inst : Uinst) (ep : UendpointDescriptor) (bytes : List Byte) (n : Nat) : Call where
  inst := inst
  ep := ep
  pipeIndex := 0
  buffer := some bytes
  nbytes := min n bytes.length
  room := by
    rintro bytes ⟨⟩
    exact Nat.min_le_right ..
  null := nofun

/-- A call for the status, without data. Reference: `usbhost_core.c:329 rt_usbh_get_descriptor`. -/
def statusCall (inst : Uinst) (ep : UendpointDescriptor) : Call where
  inst := inst
  ep := ep
  pipeIndex := 0
  buffer := none
  nbytes := 0
  room := nofun
  null _ := rfl

/-! ## SETUP packets in bytes -/

theorem extractLsb'_append (x : BitVec 16) : x.extractLsb' 8 8 ++ x.extractLsb' 0 8 = x := by
  apply BitVec.eq_of_getLsbD_eq
  intro i hi
  rw [BitVec.getLsbD_append]
  rcases Nat.lt_or_ge i 8 with hlt | hge
  · simp [hlt]
  · simp [Nat.not_lt.2 hge, show i - 8 < 8 by omega, show 8 + (i - 8) = i by omega]

/-- The request of a SETUP packet in front of anything. -/
theorem Urequest.ofBytes_bytes (u : Urequest) (rest : List Byte) :
    Urequest.ofBytes (u.bytes ++ rest) = u := by
  cases u
  simp [Urequest.ofBytes, Urequest.bytes, extractLsb'_append]

/-! ## A control transfer -/

/-- A request that is done leaves its mark in the record. -/
theorem nuCtrlXfer_record (d : PortDev) (setup : Urequest) (buffer : XferBuffer) (hc : HcDriver)
    (data : List Byte) : (nuCtrlXfer d setup buffer (.done hc data)).2.1 = requestDone d setup := by
  rw [nuCtrlXfer]
  split <;> rfl

/-- With a buffer the bytes counted are those moved. -/
theorem nuCtrlXfer_packet (d : PortDev) (setup : Urequest) (hc : HcDriver) (data : List Byte) :
    nuCtrlXfer d setup .packet (.done hc data) =
      (((data.take setup.wLength.toNat).length : Int), requestDone d setup,
        data.take setup.wLength.toNat) := by
  rw [nuCtrlXfer, if_neg]
  rintro ⟨h, -⟩
  cases h

/-- A request without data moves none. -/
theorem nuCtrlXfer_none {d : PortDev} {setup : Urequest} {buffer : XferBuffer} {w : CtrlAnswer}
    (h : setup.wLength = 0) : (nuCtrlXfer d setup buffer w).2.2 = [] := by
  cases w with
  | failed code data => simp [nuCtrlXfer, h]
  | done hc data => simp [nuCtrlXfer, h]

/-! ## What a call leaves -/

/-- The records of other root ports are as they were, and open pipes stay open. -/
structure CtrlStep (ctrl : Nat) (s s' : Driver) : Prop where
  frame : ∀ r, r.ctrl ≠ ctrl → s' r = s r
  portNum : ∀ r, (s' r).portNum = (s r).portNum
  pUDev : ∀ r, (s r).pUDev.isSome → (s' r).pUDev.isSome
  pktBuf : ∀ r i, ((s r).asPipePktBuf i).isSome → ((s' r).asPipePktBuf i).isSome

namespace CtrlStep

variable {ctrl : Nat} {s s' s'' : Driver} {r : PortRef} {d : PortDev}

theorem refl : CtrlStep ctrl s s :=
  ⟨fun _ _ => rfl, fun _ => rfl, fun _ h => h, fun _ _ h => h⟩

theorem trans (h : CtrlStep ctrl s s') (h' : CtrlStep ctrl s' s'') : CtrlStep ctrl s s'' where
  frame r hr := (h'.frame r hr).trans (h.frame r hr)
  portNum r := (h'.portNum r).trans (h.portNum r)
  pUDev r hs := h'.pUDev r (h.pUDev r hs)
  pktBuf r i hs := h'.pktBuf r i (h.pktBuf r i hs)

theorem update (hr : r.ctrl = ctrl) (hport : d.portNum = (s r).portNum)
    (hdev : (s r).pUDev.isSome → d.pUDev.isSome)
    (hbuf : ∀ i, ((s r).asPipePktBuf i).isSome → (d.asPipePktBuf i).isSome) :
    CtrlStep ctrl s (Function.update s r d) := by
  refine ⟨fun r' hr' => ?_, fun r' => ?_, fun r' => ?_, fun r' i => ?_⟩
  · rw [Function.update_of_ne]
    rintro rfl
    exact hr' hr
  all_goals
    by_cases hrr : r' = r
    · subst hrr
      rw [Function.update_self]
      first
      | exact hport
      | exact hdev
      | exact hbuf i
    · rw [Function.update_of_ne hrr]
      try exact id

theorem withPktBuf (hr : r.ctrl = ctrl) (i : Nat) (buf : PktBuf) :
    CtrlStep ctrl s (UsbHost.withPktBuf s r i buf) := by
  refine update hr rfl id fun j hj => ?_
  change (Function.update (s r).asPipePktBuf i (some buf) j).isSome = true
  by_cases hij : j = i
  · rw [hij, Function.update_self]
    rfl
  · rwa [Function.update_of_ne hij]

theorem setSentLength (i : Nat) (n : BitVec 32) :
    CtrlStep ctrl s (UsbHost.setSentLength s ctrl i n) :=
  update rfl rfl id fun _ => id

theorem setSetupReq (i : Nat) (setup : Urequest) :
    CtrlStep ctrl s (UsbHost.setSetupReq s ctrl i setup) :=
  update rfl rfl id fun _ => id

theorem nuCtrlXfer (hr : r.ctrl = ctrl) (setup : Urequest) (buffer : XferBuffer) (w : CtrlAnswer) :
    CtrlStep ctrl s (Function.update s r (UsbHost.nuCtrlXfer (s r) setup buffer w).2.1) := by
  cases w with
  | failed code data => exact update hr rfl id fun _ => id
  | done hc data =>
    rw [nuCtrlXfer_record]
    apply update hr
    · rw [requestDone]
      split <;> try rfl
      split <;> try rfl
      split <;> rfl
    · rw [requestDone]
      split <;> try exact id
      split <;> try simp
      split <;> simp
    · intro i
      rw [requestDone]
      split <;> try exact id
      split <;> try exact id
      split <;> exact id

/-- A pipe stays open. -/
theorem opened (h : CtrlStep ctrl s s') {inst : Uinst} {i ctrl' : Nat}
    (ho : Opened s inst i ctrl' r) : Opened s' inst i ctrl' r where
  rh := ho.rh
  get := (getPortDevFromPipe_congr h.portNum).trans ho.get
  pUDev := h.pUDev r ho.pUDev
  pktBuf := h.pktBuf r i ho.pktBuf

end CtrlStep

/-- The record of an instance is in the block of its root port. -/
theorem Opened.ctrl_eq {s : Driver} {inst : Uinst} {i ctrl : Nat} {r : PortRef}
    (h : Opened s inst i ctrl r) : r.ctrl = ctrl := by
  obtain ⟨hle, rfl⟩ := getRHPortControlFromPipe_eq_some.1 h.rh
  cases inst with
  | onRootHub dev j v =>
    obtain ⟨-, rfl⟩ := getPortDevFromPipe_onRootHub.1 h.get
    rfl
  | onHub hub dev j v =>
    obtain ⟨-, k, rfl, -⟩ := getPortDevFromPipe_onHub.1 h.get
    rfl

/-! ## The calls on an open pipe -/

section

variable {s : Driver} {inst : Uinst} {ctrl : Nat} {r : PortRef} {mps : BitVec 8} {setup : Urequest}

@[simp] theorem setSentLength_u32SentLength (i : Nat) (n : BitVec 32) :
    (setSentLength s ctrl i n (pending ctrl)).u32SentLength i = n := by
  rw [setSentLength, Function.update_self]
  exact Function.update_self ..

@[simp] theorem setSentLength_asSetupReq (i : Nat) (n : BitVec 32) (r' : PortRef) :
    (setSentLength s ctrl i n r').asSetupReq = (s r').asSetupReq := by
  rw [setSentLength]
  by_cases hr : r' = pending ctrl
  · rw [hr, Function.update_self]
  · rw [Function.update_of_ne hr]

@[simp] theorem setSetupReq_asSetupReq (i : Nat) (setup : Urequest) :
    (setSetupReq s ctrl i setup (pending ctrl)).asSetupReq i = setup := by
  rw [setSetupReq, Function.update_self]
  exact Function.update_self ..

@[simp] theorem setSetupReq_u32SentLength (i : Nat) (setup : Urequest) (r' : PortRef) :
    (setSetupReq s ctrl i setup r').u32SentLength = (s r').u32SentLength := by
  rw [setSetupReq]
  by_cases hr : r' = pending ctrl
  · rw [hr, Function.update_self]
  · rw [Function.update_of_ne hr]

@[simp] theorem withPktBuf_asSetupReq (i : Nat) (buf : PktBuf) (r' : PortRef) :
    (withPktBuf s r i buf r').asSetupReq = (s r').asSetupReq := by
  rw [withPktBuf]
  by_cases hr : r' = r
  · rw [hr, Function.update_self]
  · rw [Function.update_of_ne hr]

/-- A request leaves what is kept of other requests. -/
theorem nuCtrlXfer_keeps (d : PortDev) (setup : Urequest) (buffer : XferBuffer) (w : CtrlAnswer) :
    (nuCtrlXfer d setup buffer w).2.1.asSetupReq = d.asSetupReq ∧
      (nuCtrlXfer d setup buffer w).2.1.u32SentLength = d.u32SentLength := by
  cases w with
  | failed code data => exact ⟨rfl, rfl⟩
  | done hc data =>
    rw [nuCtrlXfer_record, requestDone]
    split
    · exact ⟨rfl, rfl⟩
    · split
      · exact ⟨rfl, rfl⟩
      · split <;> exact ⟨rfl, rfl⟩

theorem update_keeps {β : Type} {f : PortDev → β} {d : PortDev} (h : f d = f (s r)) (r' : PortRef) :
    f (Function.update s r d r') = f (s r') := by
  by_cases hr : r' = r
  · rw [hr, Function.update_self, h]
  · rw [Function.update_of_ne hr]

/-- The SETUP packet is in the packet buffer. -/
theorem setupCall_copyIn (mps : BitVec 8) (setup : Urequest) (ho : Opened s inst 0 ctrl r) :
    ∃ buf, copyIn s r (setupCall inst mps setup) = .ok (withPktBuf s r 0 buf) ∧
      Urequest.ofBytes buf.1 = setup := by
  obtain ⟨buf, hbuf⟩ := Option.isSome_iff_exists.1 ho.pktBuf
  have hbytes : (setupCall inst mps setup).buffer = some setup.bytes := rfl
  obtain ⟨buf', hcopy, hbytes⟩ := copyIn_out (c := setupCall inst mps setup) hbuf hbytes
    (by decide : 8 ≤ PKT_BUF_SIZE) (by decide : (8 : Nat) ≠ 0) (ep0Out_dirIn mps)
  refine ⟨buf', hcopy, ?_⟩
  have htake : buf'.1.take 8 = setup.bytes := hbytes
  rw [← List.take_append_drop 8 buf'.1, htake, Urequest.ofBytes_bytes]

/-- A request from the device is kept. -/
theorem setupIn_spec (mps : BitVec 8) (ho : Opened s inst 0 ctrl r) (hin : setup.dirIn = true) (w : Answer) :
    ∃ drv, nuPipeXfer s .SETUP (setupCall inst mps setup) w =
        .ok ⟨8, drv, some setup.bytes, [], none⟩ ∧ CtrlStep ctrl s drv ∧
      (drv (pending ctrl)).asSetupReq 0 = setup ∧ (drv (pending ctrl)).u32SentLength 0 = 0 := by
  obtain ⟨buf, hcopy, hsetup⟩ := setupCall_copyIn mps setup ho
  refine ⟨setSetupReq (setSentLength (withPktBuf s r 0 buf) ctrl 0 0) ctrl 0 setup, ?_, ?_, ?_, ?_⟩
  · have hread : pktBuf (withPktBuf s r 0 buf) r 0 = .ok buf := pktBuf_ok withPktBuf_self
    rw [nuPipeXfer_opened ho, hcopy]
    simp only [ok_bind, setupCall, ep0Out, setupXfer, OfNat.ofNat_ne_zero, if_false, hread]
    simp only [Except.map, ok_bind, hsetup, hin, if_true]
    rfl
  · exact ((CtrlStep.withPktBuf ho.ctrl_eq 0 buf).trans (.setSentLength 0 0)).trans
      (.setSetupReq 0 setup)
  · simp
  · simp

/-- A request to the device is started with the SETUP packet, without its data. -/
theorem setupOut_spec (mps : BitVec 8) (ho : Opened s inst 0 ctrl r) (hout : setup.dirIn = false) (w : Answer) :
    ∃ drv d, nuPipeXfer s .SETUP (setupCall inst mps setup) w =
        .ok ⟨if (nuCtrlXfer d setup .null w.ctrl).1 = setup.wLength.toNat then 8 else -1, drv,
          some setup.bytes, (nuCtrlXfer d setup .null w.ctrl).2.2, some ⟨r, setup, .null⟩⟩ ∧
      CtrlStep ctrl s drv ∧
      (drv (pending ctrl)).asSetupReq 0 = (s (pending ctrl)).asSetupReq 0 ∧
      (drv (pending ctrl)).u32SentLength 0 = 0 := by
  obtain ⟨buf, hcopy, hsetup⟩ := setupCall_copyIn mps setup ho
  have hread : pktBuf (withPktBuf s r 0 buf) r 0 = .ok buf := pktBuf_ok withPktBuf_self
  have hsent : CtrlStep ctrl s (setSentLength (withPktBuf s r 0 buf) ctrl 0 0) :=
    (CtrlStep.withPktBuf ho.ctrl_eq 0 buf).trans (.setSentLength 0 0)
  obtain ⟨hkeepReq, hkeepSent⟩ :=
    nuCtrlXfer_keeps (setSentLength (withPktBuf s r 0 buf) ctrl 0 0 r) setup .null w.ctrl
  refine ⟨_, setSentLength (withPktBuf s r 0 buf) ctrl 0 0 r, ?_,
    hsent.trans (.nuCtrlXfer ho.ctrl_eq setup .null w.ctrl), ?_, ?_⟩
  rotate_left
  · rw [update_keeps (f := PortDev.asSetupReq) hkeepReq]
    simp
  · rw [update_keeps (f := PortDev.u32SentLength) hkeepSent]
    simp
  rw [nuPipeXfer_opened ho, hcopy]
  simp only [ok_bind, setupCall, ep0Out, setupXfer, OfNat.ofNat_ne_zero, if_false, hread]
  simp only [Except.map, ok_bind, hsetup, hout, Bool.false_eq_true, if_false]
  by_cases h : (nuCtrlXfer (setSentLength (withPktBuf s r 0 buf) ctrl 0 0 r) setup .null w.ctrl).1 =
      setup.wLength.toNat
  · simp only [h, if_true]
    rfl
  · simp only [h, if_false]
    exact exitXfer_keeps (c := setupCall inst mps setup) (.inr (ep0Out_dirIn mps)) _ _ _

end

section

variable {s : Driver} {c : Call} {ctrl : Nat} {r : PortRef} {bytes : List Byte}

/-- The pipe is endpoint zero's, for data from the device. -/
structure Call.ReadsEp0 (c : Call) (bytes : List Byte) : Prop where
  dirIn : c.ep.dirIn = true
  control : c.ep.bmAttributes = 0x00#8
  buffer : c.buffer = some bytes

theorem nuPipeXfer_data (ho : Opened s c.inst c.pipeIndex ctrl r) (hc : c.ReadsEp0 bytes)
    (w : Answer) : nuPipeXfer s .DATA c w = dataXfer s ctrl r c bytes w := by
  rw [nuPipeXfer_opened ho, copyIn_keeps (.inr hc.dirIn)]
  simp only [ok_bind, hc.control, hc.buffer, hc.dirIn, if_true]

/-- The first call for the data starts the request that is kept. -/
theorem dataFirst_spec (ho : Opened s c.inst c.pipeIndex ctrl r) (hc : c.ReadsEp0 bytes)
    (hsent : (s (pending ctrl)).u32SentLength c.pipeIndex = 0) (hpos : 0 < c.nbytes)
    (hn : c.nbytes ≤ PKT_BUF_SIZE) (w : Answer) {ret : Int} {d : PortDev} {data : List Byte}
    (hreq : nuCtrlXfer (s r) ((s (pending ctrl)).asSetupReq c.pipeIndex) .packet w.ctrl = (ret, d, data))
    (hfits : data.length ≤ PKT_BUF_SIZE) (hroom : 0 < ret → data.length ≤ bytes.length) :
    ∃ drv after, nuPipeXfer s .DATA c w =
        .ok ⟨if 0 < ret then c.nbytes else -1, drv, some after, data,
          some ⟨r, (s (pending ctrl)).asSetupReq c.pipeIndex, .packet⟩⟩ ∧
      after.length = bytes.length ∧ (0 < ret → after = data ++ bytes.drop data.length) ∧
      CtrlStep ctrl s drv ∧
      (drv (pending ctrl)).asSetupReq c.pipeIndex = (s (pending ctrl)).asSetupReq c.pipeIndex ∧
      (drv (pending ctrl)).u32SentLength c.pipeIndex = BitVec.ofInt 32 ret := by
  obtain ⟨buf, hbuf⟩ := Option.isSome_iff_exists.1 ho.pktBuf
  have hlen : c.nbytes ≤ bytes.length := c.room bytes hc.buffer
  have hstep : CtrlStep ctrl s (Function.update s r d) := by
    have h := CtrlStep.nuCtrlXfer (s := s) ho.ctrl_eq
      ((s (pending ctrl)).asSetupReq c.pipeIndex) .packet w.ctrl
    rwa [hreq] at h
  have hkeepReq : d.asSetupReq = (s r).asSetupReq := by
    have h := (nuCtrlXfer_keeps (s r) ((s (pending ctrl)).asSetupReq c.pipeIndex) .packet w.ctrl).1
    rwa [hreq] at h
  obtain ⟨buf', hwrite, -⟩ := PktBuf.write_ok buf hfits
  have hdrv : CtrlStep ctrl s (setSentLength
      (withPktBuf (Function.update s r d) r c.pipeIndex buf') ctrl c.pipeIndex (BitVec.ofInt 32 ret)) :=
    (hstep.trans (.withPktBuf ho.ctrl_eq c.pipeIndex buf')).trans (.setSentLength c.pipeIndex _)
  have hread : pktBuf s r c.pipeIndex = .ok buf := pktBuf_ok hbuf
  have hkept : (setSentLength (withPktBuf (Function.update s r d) r c.pipeIndex buf') ctrl c.pipeIndex
      (BitVec.ofInt 32 ret) (pending ctrl)).asSetupReq c.pipeIndex =
        (s (pending ctrl)).asSetupReq c.pipeIndex := by
    simp [update_keeps (f := PortDev.asSetupReq) hkeepReq]
  rw [nuPipeXfer_data ho hc]
  by_cases hret : 0 < ret
  · refine ⟨_, data ++ bytes.drop data.length, ?_, ?_, fun _ => rfl, hdrv, hkept, by simp⟩
    · simp only [dataXfer, hsent, if_true, hreq, hpos.ne', if_false, hread, hwrite, ok_bind, hret,
        writeBuffer, hroom hret]
    · rw [List.length_append, List.length_drop, Nat.add_sub_cancel' (hroom hret)]
  · obtain ⟨buf'', hbuf''⟩ := Option.isSome_iff_exists.1 (hdrv.pktBuf r c.pipeIndex ho.pktBuf)
    refine ⟨_, buf''.1.take c.nbytes ++ bytes.drop c.nbytes, ?_, ?_, fun h => absurd h hret, hdrv,
      hkept, by simp⟩
    · simp only [dataXfer, hsent, if_true, hreq, hpos.ne', if_false, hread, hwrite, ok_bind, hret]
      exact exitXfer_in hbuf'' hc.buffer hn hpos.ne' hc.dirIn _ _ _
    · rw [List.length_append, List.length_take, List.length_drop, buf''.2]
      omega

/-- More data than the packet buffer holds, or than the caller has room for, is written past it. -/
theorem dataFirst_overflow (ho : Opened s c.inst c.pipeIndex ctrl r) (hc : c.ReadsEp0 bytes)
    (hsent : (s (pending ctrl)).u32SentLength c.pipeIndex = 0) (hpos : 0 < c.nbytes) (w : Answer)
    {ret : Int} {d : PortDev} {data : List Byte}
    (hreq : nuCtrlXfer (s r) ((s (pending ctrl)).asSetupReq c.pipeIndex) .packet w.ctrl = (ret, d, data))
    (hover : PKT_BUF_SIZE < data.length ∨ 0 < ret ∧ bytes.length < data.length) :
    ∃ halt, nuPipeXfer s .DATA c w = .error halt := by
  obtain ⟨buf, hbuf⟩ := Option.isSome_iff_exists.1 ho.pktBuf
  have hread : pktBuf s r c.pipeIndex = .ok buf := pktBuf_ok hbuf
  rw [nuPipeXfer_data ho hc]
  by_cases hbig : PKT_BUF_SIZE < data.length
  · refine ⟨.pktBufOverflow, ?_⟩
    simp only [dataXfer, hsent, if_true, hreq, hpos.ne', if_false, hread, ok_bind,
      PktBuf.write_overflow hbig, error_bind]
  · obtain ⟨hret, hpast⟩ := hover.resolve_left hbig
    obtain ⟨buf', hwrite, -⟩ := PktBuf.write_ok buf (Nat.not_lt.1 hbig)
    refine ⟨.bufferOverflow, ?_⟩
    simp only [dataXfer, hsent, if_true, hreq, hpos.ne', if_false, hread, hwrite, ok_bind, hret,
      writeBuffer, Nat.not_le.2 hpast, error_bind]

/-- A later call for the data only counts. -/
theorem dataNext_spec (ho : Opened s c.inst c.pipeIndex ctrl r) (hc : c.ReadsEp0 bytes)
    (hsent : (s (pending ctrl)).u32SentLength c.pipeIndex ≠ 0) (hpos : 0 < c.nbytes)
    (hn : c.nbytes ≤ PKT_BUF_SIZE) (w : Answer) :
    ∃ drv after, nuPipeXfer s .DATA c w =
        .ok ⟨if c.nbytes ≤ ((s (pending ctrl)).u32SentLength c.pipeIndex).toNat then c.nbytes else -1,
          drv, some after, [], none⟩ ∧
      after.length = bytes.length ∧ CtrlStep ctrl s drv ∧
      (drv (pending ctrl)).asSetupReq c.pipeIndex = (s (pending ctrl)).asSetupReq c.pipeIndex ∧
      (c.nbytes ≤ ((s (pending ctrl)).u32SentLength c.pipeIndex).toNat → after = bytes ∧
        (drv (pending ctrl)).u32SentLength c.pipeIndex =
          (s (pending ctrl)).u32SentLength c.pipeIndex - BitVec.ofNat 32 c.nbytes) := by
  obtain ⟨buf, hbuf⟩ := Option.isSome_iff_exists.1 ho.pktBuf
  have hlen : c.nbytes ≤ bytes.length := c.room bytes hc.buffer
  rw [nuPipeXfer_data ho hc]
  by_cases hle : c.nbytes ≤ ((s (pending ctrl)).u32SentLength c.pipeIndex).toNat
  · refine ⟨_, bytes, ?_, rfl, .setSentLength c.pipeIndex
      ((s (pending ctrl)).u32SentLength c.pipeIndex - BitVec.ofNat 32 c.nbytes), by simp,
      fun _ => ⟨rfl, by simp⟩⟩
    simp only [dataXfer, hsent, if_false, hle, Nat.not_lt.2 hle, hpos.ne', or_self, if_true, hc.buffer]
  · refine ⟨s, buf.1.take c.nbytes ++ bytes.drop c.nbytes, ?_, ?_, .refl, rfl,
      fun h => absurd h hle⟩
    · simp only [dataXfer, hsent, if_false, hle, Nat.not_le.1 hle, true_or, if_true]
      exact exitXfer_in hbuf hc.buffer hn hpos.ne' hc.dirIn _ _ _
    · rw [List.length_append, List.length_take, List.length_drop, buf.2]
      omega

end

end NumakerMA35D1.UsbHost

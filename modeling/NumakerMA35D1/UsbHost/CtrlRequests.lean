import NumakerMA35D1.UsbHost.Transfer
import NumakerMA35D1.Lib.Run

/-!
# Control requests of several threads

Each thread serves a device and makes the calls of its control requests one by one; between two calls
any other thread may make one. The driver keeps one SETUP packet and one count for all the devices
below a root port, in the first record behind the hub: `ctrlRequests_run` says that the calls use what
is their request's as long as no other thread of the port starts a request between the SETUP packet
and the last data of one, devices have records of their own, and devices send all or nothing.
`not_ctrlRequestsRight` is what happens otherwise.

Reference: `drv_usbhost.c:490 nu_pipe_xfer`, `usbhost_core.c:563 rt_usb_hcd_pipe_xfer`.
-/

namespace NumakerMA35D1.UsbHost

open Embedded

/-! ## Threads -/

/-- What a request waits for. -/
inductive Phase
  | data | status
deriving DecidableEq

/-- A request after its SETUP packet. -/
structure Ongoing where
  mps : BitVec 8
  setup : Urequest
  phase : Phase
  progress : Progress

/-- The driver, and what the threads are doing. -/
structure Threads (ι : Type) where
  drv : Driver
  ongoing : ι → Option Ongoing

/-- The next call of a thread, with the controller's answer to it. -/
inductive CtrlOp (ι : Type)
  | setup (i : ι) (mps : BitVec 8) (setup : Urequest) (buffer : List Byte) (w : Answer)
  | data (i : ι) (w : Answer)
  | status (i : ι) (w : Answer)

/-- The pipe for the status of a request. -/
def statusPipe (setup : Urequest) (mps : BitVec 8) : UendpointDescriptor :=
  if setup.dirIn then ep0Out mps else ep0In mps

section

variable {ι : Type} [DecidableEq ι]

/-- Before the first call. -/
def Threads.init (drv : Driver) : Threads ι := ⟨drv, fun _ => none⟩

/-- The threads after a call of one. -/
def Threads.put (s : Threads ι) (i : ι) (drv : Driver) (o : Option Ongoing) : Threads ι :=
  ⟨drv, Function.update s.ongoing i o⟩

/-- A request has its status after its data, if it has any. -/
def Ongoing.of (mps : BitVec 8) (setup : Urequest) (p : Progress) : Ongoing :=
  ⟨mps, setup, if p.count < p.buffer.length then .data else .status, p⟩

theorem Ongoing.of_data {mps : BitVec 8} {setup : Urequest} {p : Progress} :
    (Ongoing.of mps setup p).phase = .data ↔ p.count < p.buffer.length := by
  rw [Ongoing.of]
  split <;> simp [*]

/-- A call of a thread; none where the thread does not make it. -/
def ctrlExec (dev : ι → Uinst) (s : Threads ι) : CtrlOp ι → Option (Except Halt (Result × Threads ι))
  | .setup i mps setup buffer w =>
    if (s.ongoing i).isNone ∧ 0 < mps.toNat ∧ buffer.length = setup.wLength.toNat then
      some do
        let x ← nuPipeXfer s.drv .SETUP (setupCall (dev i) mps setup) w
        .ok (x, s.put i x.drv (if x.ret = 8 then some (.of mps setup ⟨0, x.wire, buffer⟩) else none))
    else none
  | .data i w =>
    match s.ongoing i with
    | some ⟨mps, setup, .data, p⟩ => some do
      let c := nextCall (dev i) (dataPipe setup mps) p
      let x ← nuPipeXfer s.drv .DATA c w
      .ok (x, s.put i x.drv (if x.ret = c.nbytes then some (.of mps setup (p.next c x)) else none))
    | _ => none
  | .status i w =>
    match s.ongoing i with
    | some ⟨mps, setup, .status, _⟩ => some do
      let x ← nuPipeXfer s.drv .DATA (statusCall (dev i) (statusPipe setup mps)) w
      .ok (x, s.put i x.drv none)
    | _ => none

/-- A call that returns. -/
def CtrlReturns (dev : ι → Uinst) (s : Threads ι) (op : CtrlOp ι) (s' : Threads ι) : Prop :=
  ∃ x, ctrlExec dev s op = some (.ok (x, s'))

/-! ## Right calls -/

/-- The thread that makes the call. -/
def CtrlOp.thread : CtrlOp ι → ι
  | .setup i .. => i
  | .data i _ => i
  | .status i _ => i

/-- The SETUP packet of the call's request. -/
def CtrlOp.request (s : Threads ι) : CtrlOp ι → Option Urequest
  | .setup _ _ req _ _ => some req
  | .data i _ | .status i _ => (s.ongoing i).map (·.setup)

/-- No device of another thread has the record of the thread's. -/
def OwnRecord (dev : ι → Uinst) (s : Threads ι) (i : ι) : Prop :=
  ∀ j, j ≠ i → getPortDevFromPipe s.drv (dev j) ≠ getPortDevFromPipe s.drv (dev i)

/-- A transfer that the call starts is for its thread's device alone, with its request's SETUP packet
and a buffer for its data. -/
def StartedRight (dev : ι → Uinst) (s : Threads ι) (op : CtrlOp ι) (st : Started) : Prop :=
  getPortDevFromPipe s.drv (dev op.thread) = some st.device ∧ OwnRecord dev s op.thread ∧
    op.request s = some st.setup ∧ (st.setup.wLength ≠ 0 → st.buffer = .packet)

/-- The call returns, what it starts is its request's, and once a request's data are over the bytes
returned are those its own transfer moved. -/
def CtrlCallRight (dev : ι → Uinst) (s : Threads ι) (op : CtrlOp ι) : Prop :=
  ∀ y, ctrlExec dev s op = some y → ∃ x s', y = .ok (x, s') ∧
    (∀ st ∈ x.started, StartedRight dev s op st) ∧
    ∀ o ∈ s'.ongoing op.thread, o.phase = .status → o.progress.count = o.progress.wire.length

/-! ## The condition -/

/-- Of the other threads of the root port, none is between its SETUP packet and its last data; before
its first data, it may be if the request started here is one to the device. -/
def PortFree (dev : ι → Uinst) (s : Threads ι) (i : ι) (setup : Urequest) : Prop :=
  ∀ j, j ≠ i → getRHPortControlFromPipe (dev j) = getRHPortControlFromPipe (dev i) →
    ∀ o ∈ s.ongoing j, o.phase = .data → setup.dirIn = false ∧ o.progress.count = 0

/-- A request to the device has no data and starts in a record of its own; so does the first call for
data, and the device sends all of them or nothing. -/
def CtrlMeets (dev : ι → Uinst) (s : Threads ι) : CtrlOp ι → Prop
  | .setup i _ setup _ _ => PortFree dev s i setup ∧
      (setup.dirIn = false → setup.wLength = 0 ∧ OwnRecord dev s i)
  | .data i w => ∀ o ∈ s.ongoing i, o.progress.count = 0 →
      OwnRecord dev s i ∧ w.ctrl.Whole o.setup
  | .status _ _ => True

end

/-! ## The calls -/

section

variable {s : Driver} {inst : Uinst} {ctrl : Nat} {r : PortRef} {mps : BitVec 8} {setup : Urequest}
  {buffer : List Byte}

/-- The call for the status does nothing. -/
theorem statusCall_spec (ho : Opened s inst 0 ctrl r) {ep : UendpointDescriptor}
    (hattr : ep.bmAttributes = 0x00#8) (w : Answer) :
    nuPipeXfer s .DATA (statusCall inst ep) w = .ok ⟨0, s, none, [], none⟩ := by
  rw [nuPipeXfer_opened ho, copyIn_keeps (.inl rfl)]
  have hcontrol : (statusCall inst ep).ep.bmAttributes = 0x00#8 := hattr
  simp only [ok_bind, hcontrol, if_true]
  rfl

/-- The first call for data starts the request; it fails, or all the data come. -/
theorem firstCall_spec (hk : SetupKept s inst ctrl r setup) (hmps : 0 < mps.toNat)
    (hlen : buffer.length = setup.wLength.toNat) (hpos : 0 < buffer.length) {w : Answer}
    (hw : w.ctrl.Whole setup) :
    ∃ x, nuPipeXfer s .DATA (nextCall inst (ep0In mps) ⟨0, [], buffer⟩) w = .ok x ∧
      CtrlStep ctrl s x.drv ∧ x.started = some ⟨r, setup, .packet⟩ ∧
      (x.drv (pending ctrl)).asSetupReq 0 = setup ∧
      (x.ret = -1 ∨ x.ret = (nextCall inst (ep0In mps) ⟨0, [], buffer⟩).nbytes ∧
        x.wire.length = buffer.length ∧ (x.buffer.getD []).length = buffer.length ∧
        ((x.drv (pending ctrl)).u32SentLength 0).toNat = buffer.length) := by
  have hn : (nextCall inst (ep0In mps) ⟨0, [], buffer⟩).nbytes = min mps.toNat buffer.length :=
    nextCall_in_nbytes inst mps ⟨0, [], buffer⟩
  have hfits : (nextCall inst (ep0In mps) ⟨0, [], buffer⟩).nbytes ≤ PKT_BUF_SIZE :=
    hn.trans_le (mps_fits mps _)
  have hreads := nextCall_reads inst mps ⟨0, [], buffer⟩
  obtain ⟨ret, d, data, hxfer⟩ : ∃ ret d data,
      nuCtrlXfer (s r) ((s (pending ctrl)).asSetupReq 0) .packet w.ctrl = (ret, d, data) :=
    ⟨_, _, _, rfl⟩
  have hwhole : data.length ≤ PKT_BUF_SIZE ∧
      (0 < ret → data.length = buffer.length ∧ ret = buffer.length) := by
    rw [hk.req] at hxfer
    cases hc : w.ctrl with
    | failed code bytes =>
      rw [hc, nuCtrlXfer, Prod.mk.injEq, Prod.mk.injEq] at hxfer
      obtain ⟨rfl, -, rfl⟩ := hxfer
      rw [hc] at hw
      exact ⟨hw, fun h => by omega⟩
    | done driver bytes =>
      rw [hc, nuCtrlXfer_packet, Prod.mk.injEq, Prod.mk.injEq] at hxfer
      obtain ⟨rfl, -, rfl⟩ := hxfer
      rw [hc, CtrlAnswer.Whole] at hw
      rcases hw with hnil | hall
      · rw [hnil]
        exact ⟨Nat.zero_le _, fun h => absurd h (Int.lt_irrefl 0)⟩
      · have hmoved : (bytes.take setup.wLength.toNat).length = buffer.length := by
          rw [List.length_take]
          omega
        exact ⟨by omega, fun _ => ⟨hmoved, by rw [hmoved]⟩⟩
  obtain ⟨hfit, hall⟩ := hwhole
  obtain ⟨drv, after, hx, hafter, -, hstep, hreq, hsent⟩ :=
    dataFirst_spec hk.opened hreads hk.sent (by omega) hfits w hxfer hfit fun h => by
      change data.length ≤ (buffer.drop 0).length
      rw [List.drop_zero, (hall h).1]
  rw [nextCall_pipeIndex, hk.req] at hx hreq
  rw [nextCall_pipeIndex] at hsent
  refine ⟨_, hx, hstep, rfl, hreq, ?_⟩
  by_cases hret : 0 < ret
  · obtain ⟨hdata, hret'⟩ := hall hret
    refine .inr ⟨if_pos hret, hdata, hafter, ?_⟩
    dsimp only
    rw [hsent, hret', BitVec.ofInt_natCast, BitVec.toNat_ofNat, Nat.mod_eq_of_lt]
    have := setup.wLength.isLt
    omega
  · exact .inl (if_neg hret)

/-- A request with data still to come: its SETUP packet is kept, and once it is started the count is
what is left and the first packet. -/
structure DataInv (drv : Driver) (ctrl : Nat) (o : Ongoing) : Prop where
  dirIn : o.setup.dirIn = true
  mps : 0 < o.mps.toNat
  length : o.progress.buffer.length = o.setup.wLength.toNat
  more : o.progress.count < o.progress.buffer.length
  req : (drv (pending ctrl)).asSetupReq 0 = o.setup
  first : o.progress.count = 0 → (drv (pending ctrl)).u32SentLength 0 = 0 ∧ o.progress.wire = []
  started : o.progress.count ≠ 0 → o.progress.wire.length = o.progress.buffer.length ∧
    ((drv (pending ctrl)).u32SentLength 0).toNat + o.progress.count =
      o.progress.buffer.length + min o.mps.toNat o.progress.buffer.length

/-- After a call for data: there are more, or the bytes returned are those on the wire. -/
def Advanced (drv : Driver) (ctrl : Nat) (mps : BitVec 8) (setup : Urequest) (p : Progress) : Prop :=
  (p.count < p.buffer.length → DataInv drv ctrl ⟨mps, setup, .data, p⟩) ∧
    (p.buffer.length ≤ p.count → p.count = p.wire.length)

/-- The first call for data. -/
theorem DataInv.firstCall {p : Progress} (h : DataInv s ctrl ⟨mps, setup, .data, p⟩)
    (ho : Opened s inst 0 ctrl r) (hfirst : p.count = 0) {w : Answer} (hw : w.ctrl.Whole setup) :
    ∃ x, nuPipeXfer s .DATA (nextCall inst (ep0In mps) p) w = .ok x ∧ CtrlStep ctrl s x.drv ∧
      x.started = some ⟨r, setup, .packet⟩ ∧
      (x.ret = (nextCall inst (ep0In mps) p).nbytes →
        Advanced x.drv ctrl mps setup (p.next (nextCall inst (ep0In mps) p) x)) := by
  obtain ⟨hsent, hwire⟩ := h.first hfirst
  have hmps : 0 < mps.toNat := h.mps
  have hlen : p.buffer.length = setup.wLength.toNat := h.length
  have hmore : p.count < p.buffer.length := h.more
  have hn := nextCall_in_nbytes inst mps p
  have hp : p = ⟨0, [], p.buffer⟩ := by
    cases p
    cases hfirst
    cases hwire
    rfl
  obtain ⟨x, hx, hstep, hstarted, hreq, hcase⟩ :=
    firstCall_spec ⟨ho, h.req, hsent⟩ hmps hlen (by omega) hw
  rw [← hp] at hx hcase
  refine ⟨x, hx, hstep, hstarted, fun hret => ?_⟩
  rcases hcase with hneg | ⟨-, hxwire, hxbuffer, hxsent⟩
  · omega
  have hnext : p.next (nextCall inst (ep0In mps) p) x =
      ⟨min mps.toNat p.buffer.length, x.wire, x.buffer.getD []⟩ := by
    rw [hfirst, Nat.sub_zero] at hn
    rw [Progress.next, hfirst, hn, show p.wire = [] from hwire]
    simp
  rw [hnext]
  refine ⟨fun hmore => ⟨h.dirIn, hmps, hxbuffer.trans hlen, hmore, hreq, fun h0 => ?_, fun _ => ?_⟩,
    fun hover => ?_⟩
  · change min mps.toNat p.buffer.length = 0 at h0
    omega
  · refine ⟨hxwire.trans hxbuffer.symm, ?_⟩
    change _ + min mps.toNat p.buffer.length =
      (x.buffer.getD []).length + min mps.toNat (x.buffer.getD []).length
    rw [hxsent, hxbuffer]
  · dsimp only at hover ⊢
    omega

/-- A later call for data. -/
theorem DataInv.nextCall {p : Progress} (h : DataInv s ctrl ⟨mps, setup, .data, p⟩)
    (ho : Opened s inst 0 ctrl r) (hfirst : p.count ≠ 0) (w : Answer) :
    ∃ x, nuPipeXfer s .DATA (UsbHost.nextCall inst (ep0In mps) p) w = .ok x ∧
      CtrlStep ctrl s x.drv ∧ x.started = none ∧
      Advanced x.drv ctrl mps setup (p.next (UsbHost.nextCall inst (ep0In mps) p) x) := by
  obtain ⟨hwire, hcount⟩ := h.started hfirst
  have hmps : 0 < mps.toNat := h.mps
  have hmore : p.count < p.buffer.length := h.more
  have hn := nextCall_in_nbytes inst mps p
  have hwire : p.wire.length = p.buffer.length := hwire
  have hcount : ((s (pending ctrl)).u32SentLength 0).toNat + p.count =
      p.buffer.length + min mps.toNat p.buffer.length := hcount
  have hle : (UsbHost.nextCall inst (ep0In mps) p).nbytes ≤
      ((s (pending ctrl)).u32SentLength 0).toNat := by omega
  have hsent : (s (pending ctrl)).u32SentLength 0 ≠ 0 := by
    intro h0
    rw [h0] at hle
    have hzero : (UsbHost.nextCall inst (ep0In mps) p).nbytes ≤ 0 := hle
    omega
  obtain ⟨drv, after, hx, -, hstep, hreq, hnext⟩ :=
    dataNext_spec (c := UsbHost.nextCall inst (ep0In mps) p) ho (nextCall_reads inst mps p) hsent (by omega)
      (hn.trans_le (mps_fits mps _)) w
  rw [nextCall_pipeIndex] at hx hreq hnext
  obtain ⟨rfl, hsent'⟩ := hnext hle
  have hdrv := congrArg BitVec.toNat hsent'
  rw [toNat_sub_ofNat hle] at hdrv
  rw [if_pos hle] at hx
  refine ⟨_, hx, hstep, rfl, ?_⟩
  simp only [Progress.next, List.append_nil, Option.getD_some, List.take_append_drop]
  refine ⟨fun hmore => ⟨h.dirIn, hmps, h.length, hmore, hreq.trans h.req, fun h0 => ?_, fun _ => ?_⟩,
    fun hover => ?_⟩
  · change p.count + _ = 0 at h0
    omega
  · refine ⟨hwire, ?_⟩
    change ((drv (pending ctrl)).u32SentLength 0).toNat +
      (p.count + (UsbHost.nextCall inst (ep0In mps) p).nbytes) =
        p.buffer.length + min mps.toNat p.buffer.length
    omega
  · dsimp only at hover ⊢
    omega

/-- Another root port's calls leave it. -/
theorem DataInv.frame {drv drv' : Driver} {ctrl' : Nat} {o : Ongoing} (h : DataInv drv ctrl o)
    (hstep : CtrlStep ctrl' drv drv') (hne : ctrl ≠ ctrl') : DataInv drv' ctrl o := by
  have hkept : drv' (pending ctrl) = drv (pending ctrl) := hstep.frame (pending ctrl) hne
  refine { h with req := ?_, first := ?_, started := ?_ }
  · rw [hkept]
    exact h.req
  · rw [hkept]
    exact h.first
  · rw [hkept]
    exact h.started

end

/-! ## Runs -/

section

variable {ι : Type} [DecidableEq ι] {dev : ι → Uinst} {s : Threads ι} {i : ι} {ctrl : Nat}
  {r : PortRef}

/-- The pipes are open, and each request that waits for data is the only one of its root port. -/
structure Threads.Inv (dev : ι → Uinst) (s : Threads ι) : Prop where
  opened : ∀ i, ∃ ctrl r, Opened s.drv (dev i) 0 ctrl r
  data : ∀ i, ∀ o ∈ s.ongoing i, o.phase = .data → ∀ ctrl,
    getRHPortControlFromPipe (dev i) = some ctrl → DataInv s.drv ctrl o
  alone : ∀ i j, i ≠ j → getRHPortControlFromPipe (dev i) = getRHPortControlFromPipe (dev j) →
    ∀ o ∈ s.ongoing i, ∀ o' ∈ s.ongoing j, o.phase = .data → o'.phase ≠ .data

omit [DecidableEq ι] in
theorem Threads.Inv.init {drv : Driver} (h : ∀ i, ∃ ctrl r, Opened drv (dev i) 0 ctrl r) :
    (Threads.init drv : Threads ι).Inv dev :=
  ⟨h, nofun, nofun⟩

theorem put_self {drv : Driver} {o : Option Ongoing} : (s.put i drv o).ongoing i = o :=
  Function.update_self ..

theorem put_of_ne {drv : Driver} {o : Option Ongoing} {j : ι} (h : j ≠ i) :
    (s.put i drv o).ongoing j = s.ongoing j :=
  Function.update_of_ne h ..

/-- What one call keeps: its own request's, and those of the other threads of its root port. -/
theorem Threads.Inv.put (h : s.Inv dev) (ho : Opened s.drv (dev i) 0 ctrl r) {drv : Driver}
    (hstep : CtrlStep ctrl s.drv drv) {o : Option Ongoing}
    (hown : ∀ o' ∈ o, o'.phase = .data → DataInv drv ctrl o')
    (hothers : ∀ j, j ≠ i → getRHPortControlFromPipe (dev j) = getRHPortControlFromPipe (dev i) →
      ∀ o' ∈ s.ongoing j, o'.phase = .data → DataInv drv ctrl o' ∧ ∀ o'' ∈ o, o''.phase ≠ .data) :
    (s.put i drv o).Inv dev where
  opened j := by
    obtain ⟨ctrl', r', ho'⟩ := h.opened j
    exact ⟨ctrl', r', hstep.opened ho'⟩
  data j o' ho' hphase ctrl' hrh := by
    by_cases hj : j = i
    · subst hj
      rw [put_self] at ho'
      rw [ho.rh] at hrh
      cases hrh
      exact hown o' ho' hphase
    · rw [put_of_ne hj] at ho'
      by_cases hctrl : ctrl' = ctrl
      · subst hctrl
        exact (hothers j hj (hrh.trans ho.rh.symm) o' ho' hphase).1
      · exact (h.data j o' ho' hphase ctrl' hrh).frame hstep hctrl
  alone j k hjk hrh o₁ h₁ o₂ h₂ hphase := by
    by_cases hj : j = i
    · subst hj
      rw [put_self] at h₁
      rw [put_of_ne (Ne.symm hjk)] at h₂
      exact fun h2 => (hothers k (Ne.symm hjk) hrh.symm o₂ h₂ h2).2 o₁ h₁ hphase
    · rw [put_of_ne hj] at h₁
      by_cases hk : k = i
      · subst hk
        rw [put_self] at h₂
        exact (hothers j hj hrh o₁ h₁ hphase).2 o₂ h₂
      · rw [put_of_ne hk] at h₂
        exact h.alone j k hjk hrh o₁ h₁ o₂ h₂ hphase

/-- What one call that meets the condition comes to. -/
def CallSpec (dev : ι → Uinst) (s : Threads ι) (op : CtrlOp ι) (y : Except Halt (Result × Threads ι)) :
    Prop :=
  ∃ x s', y = .ok (x, s') ∧ s'.Inv dev ∧ (∀ st ∈ x.started, StartedRight dev s op st) ∧
    ∀ o ∈ s'.ongoing op.thread, o.phase = .status → o.progress.count = o.progress.wire.length

/-- A SETUP packet. -/
theorem Threads.Inv.setup (h : s.Inv dev) {mps : BitVec 8} {setup : Urequest} {buffer : List Byte}
    {w : Answer} (hmeets : CtrlMeets dev s (.setup i mps setup buffer w))
    {y : Except Halt (Result × Threads ι)}
    (hexec : ctrlExec dev s (.setup i mps setup buffer w) = some y) :
    CallSpec dev s (.setup i mps setup buffer w) y := by
  obtain ⟨ctrl, r, ho⟩ := h.opened i
  obtain ⟨hfree, hout⟩ := hmeets
  rw [ctrlExec] at hexec
  split at hexec
  case isFalse => cases hexec
  case isTrue hguard =>
    obtain ⟨-, hmps, hlen⟩ := hguard
    cases hexec
    cases hdir : setup.dirIn with
    | true =>
      obtain ⟨drv, hx, hstep, hreq, hsent⟩ := setupIn_spec mps ho hdir w
      rw [hx, ok_bind]
      refine ⟨_, _, rfl, h.put ho hstep ?_ ?_, nofun, ?_⟩
      · rintro o' ho' hphase
        rw [if_pos rfl] at ho'
        cases ho'
        have hmore : 0 < buffer.length := Ongoing.of_data.1 hphase
        exact ⟨hdir, hmps, hlen, hmore, hreq, fun _ => ⟨hsent, rfl⟩, fun hne => absurd rfl hne⟩
      · intro j hj hrh o' ho' hphase
        have hfalse := (hfree j hj hrh o' ho' hphase).1
        rw [hdir] at hfalse
        cases hfalse
      · intro o ho _
        change o ∈ (s.put i drv _).ongoing i at ho
        rw [put_self, if_pos rfl] at ho
        cases ho
        rfl
    | false =>
      obtain ⟨hnone, hrecord⟩ := hout hdir
      obtain ⟨drv, d, hx, hstep, hreq, hsent⟩ := setupOut_spec mps ho hdir w
      have hlength : buffer.length = 0 := by
        rw [hlen, hnone]
        rfl
      have hwire : (nuCtrlXfer d setup .null w.ctrl).2.2 = [] := nuCtrlXfer_none hnone
      rw [hx, ok_bind]
      refine ⟨_, _, rfl, h.put ho hstep ?_ ?_, ?_, ?_⟩
      · rintro o' ho' hphase
        split at ho'
        · cases ho'
          have hmore : 0 < buffer.length := Ongoing.of_data.1 hphase
          omega
        · cases ho'
      · intro j hj hrh o' ho' hphase
        have hdata := h.data j o' ho' hphase ctrl (hrh.trans ho.rh)
        have hcount := (hfree j hj hrh o' ho' hphase).2
        refine ⟨{ hdata with
          req := hreq.trans hdata.req
          first := fun h0 => ⟨hsent, (hdata.first h0).2⟩
          started := fun hne => absurd hcount hne }, ?_⟩
        intro o'' ho'' hphase''
        split at ho''
        · cases ho''
          have hmore : 0 < buffer.length := Ongoing.of_data.1 hphase''
          omega
        · cases ho''
      · rintro st hst
        cases hst
        exact ⟨ho.get, hrecord, rfl, fun hne => absurd hnone hne⟩
      · intro o ho _
        change o ∈ (s.put i drv _).ongoing i at ho
        rw [put_self] at ho
        split at ho
        · cases ho
          rw [Ongoing.of]
          dsimp only
          rw [hwire]
          rfl
        · cases ho

/-- A call for data. -/
theorem Threads.Inv.dataCall (h : s.Inv dev) {w : Answer} (hmeets : CtrlMeets dev s (.data i w))
    {y : Except Halt (Result × Threads ι)} (hexec : ctrlExec dev s (.data i w) = some y) :
    CallSpec dev s (.data i w) y := by
  obtain ⟨ctrl, r, ho⟩ := h.opened i
  rw [ctrlExec] at hexec
  split at hexec
  case h_2 => cases hexec
  case h_1 mps setup p hongoing =>
    cases hexec
    have hinv : DataInv s.drv ctrl ⟨mps, setup, .data, p⟩ := h.data i _ hongoing rfl ctrl ho.rh
    have hdir : setup.dirIn = true := hinv.dirIn
    have hothers : ∀ {drv : Driver} {o : Option Ongoing}, ∀ j, j ≠ i →
        getRHPortControlFromPipe (dev j) = getRHPortControlFromPipe (dev i) →
        ∀ o' ∈ s.ongoing j, o'.phase = .data → DataInv drv ctrl o' ∧ ∀ o'' ∈ o, o''.phase ≠ .data := by
      intro drv o j hj hrh o' ho' hphase
      exact absurd rfl (h.alone j i hj hrh o' ho' _ hongoing hphase)
    have hcall : ∃ x, nuPipeXfer s.drv .DATA (nextCall (dev i) (ep0In mps) p) w = .ok x ∧
        CtrlStep ctrl s.drv x.drv ∧ (∀ st ∈ x.started, StartedRight dev s (.data i w) st) ∧
        (x.ret = (nextCall (dev i) (ep0In mps) p).nbytes →
          Advanced x.drv ctrl mps setup (p.next (nextCall (dev i) (ep0In mps) p) x)) := by
      by_cases hfirst : p.count = 0
      · obtain ⟨hrecord, hwhole⟩ := hmeets _ hongoing hfirst
        obtain ⟨x, hx, hstep, hstarted, hadv⟩ := hinv.firstCall ho hfirst hwhole
        refine ⟨x, hx, hstep, ?_, hadv⟩
        rintro st hst
        rw [hstarted] at hst
        cases hst
        refine ⟨ho.get, hrecord, ?_, fun _ => rfl⟩
        rw [CtrlOp.request, hongoing]
        rfl
      · obtain ⟨x, hx, hstep, hstarted, hadv⟩ := hinv.nextCall ho hfirst w
        refine ⟨x, hx, hstep, ?_, fun _ => hadv⟩
        rintro st hst
        rw [hstarted] at hst
        cases hst
    obtain ⟨x, hx, hstep, hstarted, hadv⟩ := hcall
    rw [dataPipe, if_pos hdir]
    dsimp only
    rw [hx, ok_bind]
    refine ⟨_, _, rfl, h.put ho hstep ?_ hothers, hstarted, ?_⟩
    · rintro o' ho' hphase
      split at ho'
      · rename_i hret
        cases ho'
        have hmore := Ongoing.of_data.1 hphase
        rw [Ongoing.of, if_pos hmore]
        exact (hadv hret).1 hmore
      · cases ho'
    · intro o ho hphase
      change o ∈ (s.put i x.drv _).ongoing i at ho
      rw [put_self] at ho
      split at ho
      · rename_i hret
        cases ho
        refine (hadv hret).2 (Nat.not_lt.1 fun hmore => ?_)
        rw [Ongoing.of_data.2 hmore] at hphase
        cases hphase
      · cases ho

/-- A call for the status. -/
theorem Threads.Inv.status (h : s.Inv dev) {w : Answer} {y : Except Halt (Result × Threads ι)}
    (hexec : ctrlExec dev s (.status i w) = some y) : CallSpec dev s (.status i w) y := by
  obtain ⟨ctrl, r, ho⟩ := h.opened i
  rw [ctrlExec] at hexec
  split at hexec
  case h_2 => cases hexec
  case h_1 mps setup p hongoing =>
    cases hexec
    have hattr : (statusPipe setup mps).bmAttributes = 0x00#8 := by
      rw [statusPipe]
      split <;> rfl
    rw [statusCall_spec ho hattr, ok_bind]
    refine ⟨_, _, rfl, h.put ho .refl nofun ?_, nofun, ?_⟩
    · intro j hj hrh o ho' hphase
      exact ⟨h.data j o ho' hphase ctrl (hrh.trans ho.rh), nofun⟩
    · intro o ho' _
      change o ∈ (s.put i s.drv none).ongoing i at ho'
      rw [put_self] at ho'
      cases ho'

/-- One call that meets the condition is right and keeps the invariant. -/
theorem Threads.Inv.call (h : s.Inv dev) {op : CtrlOp ι} (hmeets : CtrlMeets dev s op)
    {y : Except Halt (Result × Threads ι)} (hexec : ctrlExec dev s op = some y) :
    CallSpec dev s op y := by
  cases op with
  | setup i mps setup buffer w => exact h.setup hmeets hexec
  | data i w => exact h.dataCall hmeets hexec
  | status i w => exact h.status hexec

/-- As long as the calls meet the condition, every call is right, whichever thread makes it. -/
theorem ctrlRequests_run {drv : Driver} (hopen : ∀ i, ∃ ctrl r, Opened drv (dev i) 0 ctrl r)
    {labels : List (CtrlOp ι)} (hrun : Run (where_ (CtrlReturns dev) (CtrlMeets dev))
      (Threads.init drv) labels s) {op : CtrlOp ι} (hmeets : CtrlMeets dev s op) :
    CtrlCallRight dev s op := by
  have hinv : s.Inv dev := by
    refine Run.invariant (fun {s op s'} hinv hstep => ?_) (Threads.Inv.init hopen) hrun
    obtain ⟨hmeets, x, hexec⟩ := hstep
    obtain ⟨x', s'', hy, hinv', -⟩ := hinv.call hmeets hexec
    cases hy
    exact hinv'
  intro y hexec
  obtain ⟨x, s', hy, -, hright⟩ := hinv.call hmeets hexec
  exact ⟨x, s', hy, hright⟩

end

/-- The hub on the first root port has a device on its first two ports. -/
def twoDevices : Driver := fun r =>
  { Driver.init r with
    pUDev := some (newUDev (.onHub (.onRootHub 0 0 .HIGH) 1 0 .HIGH) (some .EHCI0))
    portNum := match r.slot with
      | .sRHPortDev => 0
      | .asHubPortDev i => i + 1
    asPipePktBuf := fun _ => some default }

/-- The devices on the hub, a thread for each. -/
def hubDevice : Bool → Uinst
  | false => .onHub (.onRootHub 0 0 .HIGH) 1 0 .HIGH
  | true => .onHub (.onRootHub 0 0 .HIGH) 2 1 .HIGH

theorem twoDevices_opened (b : Bool) : ∃ ctrl r, Opened twoDevices (hubDevice b) 0 ctrl r := by
  cases b with
  | false => exact ⟨0, ⟨0, .asHubPortDev 0⟩, rfl, rfl, rfl, rfl⟩
  | true => exact ⟨0, ⟨0, .asHubPortDev 1⟩, rfl, rfl, rfl, rfl⟩

/-- The first bytes of a descriptor are asked for. -/
def getDescriptor (type : BitVec 16) : Urequest := ⟨0x80, 6, type, 0, 2⟩

/-- An answer to a control transfer. -/
def ctrlAnswer (data : List Byte) : Answer := ⟨true, .done .EHCI0 data, .refused, .refused⟩

/-- The first thread asks for a descriptor and gets it. -/
theorem ctrlRequests_run_descriptor :
    ∃ s : Threads Bool, CtrlCallRight hubDevice s (.data false (ctrlAnswer [18, 1])) ∧
      (s.ongoing false).isSome := by
  have hrun : ∃ s : Threads Bool, Run (where_ (CtrlReturns hubDevice) (CtrlMeets hubDevice))
      (Threads.init twoDevices)
      ([] ++ [.setup false 64 (getDescriptor 0x0100) [0, 0] (ctrlAnswer [])]) s ∧
      (s.ongoing false).isSome ∧
      CtrlMeets hubDevice s (.data false (ctrlAnswer [18, 1])) := by
    refine ⟨_, .snoc .nil ⟨⟨?_, nofun⟩, _, rfl⟩, rfl, ?_⟩
    · intro j hj hrh o ho
      cases ho
    · intro o ho hcount
      cases ho
      refine ⟨?_, .inr ⟨by decide, by decide⟩⟩
      intro j hj
      cases j with
      | false => exact absurd rfl hj
      | true => nofun
  obtain ⟨s, hrun, hsome, hmeets⟩ := hrun
  exact ⟨s, ctrlRequests_run twoDevices_opened hrun hmeets, hsome⟩

/-- With a request of the other device in between, the first device is asked for what the other was
to be. -/
theorem not_ctrlRequestsRight :
    ¬ ∀ (dev : Bool → Uinst) (drv : Driver), Function.Injective dev →
      (∀ i, ∃ ctrl r, Opened drv (dev i) 0 ctrl r) → ∀ labels s,
      Run (CtrlReturns dev) (Threads.init drv) labels s → ∀ op, CtrlCallRight dev s op := by
  intro h
  have hinj : Function.Injective hubDevice := by decide
  have hrun : ∃ s : Threads Bool, Run (CtrlReturns hubDevice) (Threads.init twoDevices)
      ([] ++ [.setup false 64 (getDescriptor 0x0100) [0, 0] (ctrlAnswer [])] ++
        [.setup true 64 (getDescriptor 0x0200) [0, 0] (ctrlAnswer [])]) s ∧
      (s.ongoing false).map (·.setup) = some (getDescriptor 0x0100) ∧
      ∃ x s', ctrlExec hubDevice s (.data false (ctrlAnswer [18, 1])) = some (.ok (x, s')) ∧
        x.started = some ⟨⟨0, .asHubPortDev 0⟩, getDescriptor 0x0200, .packet⟩ :=
    ⟨_, .snoc (.snoc .nil ⟨_, rfl⟩) ⟨_, rfl⟩, rfl, _, _, rfl, rfl⟩
  obtain ⟨s, hrun, hown, x, s', hexec, hstarted⟩ := hrun
  obtain ⟨x', s'', hy, hright, -⟩ :=
    h hubDevice twoDevices hinj twoDevices_opened _ s hrun (.data false (ctrlAnswer [18, 1])) _ hexec
  cases hy
  obtain ⟨-, -, hrequest, -⟩ := hright _ hstarted
  rw [CtrlOp.request, hown] at hrequest
  exact absurd hrequest (by decide)

end NumakerMA35D1.UsbHost

import NumakerMA35D1.Gpio.DrvGpio
import NumakerMA35D1.Lib.Run
import Mathlib.Tactic.Set

/-!
# GPIO interrupts over runs

`gpioIrq_run`: over every run of attaches, detaches, enables and disables the table is the map from
the attached pins to their handlers, each pin in one slot, and an interrupt calls the handlers of the
flagged attached pins. A detach or a disable leaves the interrupts of the other pins delivered unless
it disables an attached pin of a port that another pin's interrupt comes from:
`nu_gpio_irq_enable` then masks the line of the whole port (`not_deliveryKept`).

Reference: `drv_gpio.c`.
-/

namespace NumakerMA35D1.Gpio

open Embedded

variable {F A : Type}

/-! ## Specification -/

/-- The handlers the pins have after an operation and what it returned. -/
def attached (t : BitVec 32 → Option (RtPinIrqHdr F A)) :
    GpioOp F A × RtErr → BitVec 32 → Option (RtPinIrqHdr F A)
  | (.attach pin mode hdr args, .EOK) =>
    Function.update t pin (some ⟨pin.truncate 16, mode.truncate 16, hdr, args⟩)
  | (.detach pin, .EOK) => Function.update t pin none
  | _ => t

/-- One operation, labelled with what it returns. -/
def gpioStep (s : Driver F A) (l : GpioOp F A × RtErr) (s' : Driver F A) : Prop :=
  gpioExec s l.1 = (l.2, s')

/-- The handlers of the flagged pins of a port, each once. -/
def callsOf (t : BitVec 32 → Option (RtPinIrqHdr F A)) (port : Nat) (irqStatus : BitVec 32) :
    List (F × Option A) :=
  (List.range GPIO_PIN_MAX).filterMap fun k =>
    if irqStatus.getLsbD k then
      (t (nuGetPinindex port k)).bind fun h => h.hdr.map fun hdr => (hdr, h.args)
    else none

/-- The table is the map of the attached pins, the bitmap tells the slots in use, and an interrupt
calls the handlers of the flagged attached pins. -/
structure IrqsRight (s : Driver F A) (t : BitVec 32 → Option (RtPinIrqHdr F A)) : Prop where
  oneSlot : ∀ i j pin, Holds s i pin → Holds s j pin → i = j
  inUse : ∀ i < IRQ_MAX_NUM,
    s.u32PinIrqMask.getLsbD i = true ↔ (s.pinIrqHdrTab i).pin ≠ PIN_IRQ_PIN_NONE
  table : ∀ pin h, t pin = some h ↔ ∃ i, Holds s i pin ∧ s.pinIrqHdrTab i = h
  calls : ∀ port < NU_PORT_CNT, ∀ irqStatus, pinIrqHdr s irqStatus port = callsOf t port irqStatus

/-- An interrupt of the pin reaches its handler: it has a slot, its interrupt is enabled at the port
and the line of the port is let through. -/
structure Delivers (s : Driver F A) (port k : Nat) : Prop where
  attached : nuFindIrqindex s (nuGetPinindex port k) ≠ none
  enabled : (s.port port).INTEN &&& 0x00010001#32 <<< k ≠ 0
  umasked : s.umasked port = true

/-- The pin an operation detaches or disables. -/
def GpioOp.stops : GpioOp F A → Option (BitVec 32)
  | .attach .. => none
  | .detach pin => some pin
  | .irqEnable pin enabled => if enabled = PIN_IRQ_ENABLE then none else some pin

/-- Detaching or disabling a pin leaves the interrupts of the others delivered. -/
def DeliveryKept (s : Driver F A) (op : GpioOp F A) (s' : Driver F A) : Prop :=
  ∀ pin ∈ op.stops, ∀ port < NU_PORT_CNT, ∀ k < GPIO_PIN_MAX, nuGetPinindex port k ≠ pin →
    Delivers s port k → Delivers s' port k

/-- A number that a slot can keep, as every pin of a port is. -/
def FitsSlot (_ : Driver F A) : GpioOp F A × RtErr → Prop
  | (.attach pin .., _) => (pin.truncate 16).signExtend 32 = pin
  | _ => True

/-- An attached pin is disabled only while no other interrupt comes from its port. -/
def DisablesAlone (s : Driver F A) : GpioOp F A → Prop
  | .irqEnable pin enabled =>
    enabled ≠ PIN_IRQ_ENABLE → nuPortCheck pin = true → nuFindIrqindex s pin ≠ none →
      ∀ k < GPIO_PIN_MAX, nuGetPinindex (nuGetPort pin) k ≠ pin → ¬ Delivers s (nuGetPort pin) k
  | _ => True

/-! ## The invariant -/

/-- The slots in use are apart and those of the bitmap. -/
structure SlotInv (s : Driver F A) : Prop where
  inUse : ∀ i < IRQ_MAX_NUM,
    s.u32PinIrqMask.getLsbD i = true ↔ (s.pinIrqHdrTab i).pin ≠ PIN_IRQ_PIN_NONE
  apart : ∀ {i j pin}, Holds s i pin → Holds s j pin → i = j

/-- The handler the table has for a pin. -/
def handlerOf (s : Driver F A) (pin : BitVec 32) : Option (RtPinIrqHdr F A) :=
  (nuFindIrqindex s pin).map s.pinIrqHdrTab

variable {s s' : Driver F A} {t : BitVec 32 → Option (RtPinIrqHdr F A)} {pin q mode : BitVec 32}
  {hdr : Option F} {args : Option A} {i j : Nat} {e : RtErr} {l : GpioOp F A × RtErr}

theorem SlotInv.find_iff (h : SlotInv s) : nuFindIrqindex s pin = some i ↔ Holds s i pin := by
  constructor
  · exact nuFindIrqindex_some
  · intro hi
    cases hf : nuFindIrqindex s pin with
    | none => exact absurd hi (nuFindIrqindex_none hf)
    | some j => rw [h.apart hi (nuFindIrqindex_some hf)]

/-- Two states whose slots have the same pins find the same. -/
theorem SlotInv.find_congr (h : SlotInv s) (h' : SlotInv s')
    (heq : ∀ i, Holds s' i q ↔ Holds s i q) : nuFindIrqindex s' q = nuFindIrqindex s q :=
  Option.ext fun i => by rw [h'.find_iff, h.find_iff, heq]

theorem Holds.unique (h : Holds s i pin) (h' : Holds s i q) : pin = q := h.pin_eq.symm.trans h'.pin_eq

theorem nuGetPort_eq : nuGetPort pin = pin.toNat / 16 % 16 := by
  have hshift : pin.sshiftRight 4 &&& 0xF#32 = pin >>> 4 &&& 0xF#32 := by
    apply BitVec.eq_of_getLsbD_eq
    intro i hi
    rw [BitVec.getLsbD_and, BitVec.getLsbD_and]
    rcases Nat.lt_or_ge i 4 with hlt | hge
    · have hin : 4 + i < 32 := by omega
      rw [BitVec.getLsbD_sshiftRight, BitVec.getLsbD_ushiftRight, if_pos hin,
        decide_eq_false (by omega), Bool.not_false, Bool.true_and]
    · have hmask : (0xF#32).getLsbD i = false :=
        Nat.testBit_lt_two_pow (lt_of_lt_of_le (by decide : 15 < 2 ^ 4)
          (Nat.pow_le_pow_right (by decide) hge))
      rw [hmask, Bool.and_false, Bool.and_false]
  change (pin.sshiftRight 4 &&& 0xF#32).toNat = _
  rw [hshift, BitVec.toNat_and, BitVec.toNat_ushiftRight, Nat.shiftRight_eq_div_pow]
  exact Nat.and_two_pow_sub_one_eq_mod _ 4

/-- A pin of a port is not the mark of a free slot. -/
theorem truncate_ne_none (h : nuPortCheck pin = true) : pin.truncate 16 ≠ PIN_IRQ_PIN_NONE := by
  have hport : nuGetPort pin < 14 := of_decide_eq_true h
  rw [nuGetPort_eq] at hport
  intro heq
  have hnat : pin.toNat % 2 ^ 16 = 65535 := by
    rw [← BitVec.toNat_setWidth]
    exact congrArg BitVec.toNat heq
  omega

/-! ## What an operation does -/

/-- An attach that is accepted takes the pin's slot, or a free one if it has none. -/
theorem nuGpioAttachIrq_cases (h : nuGpioAttachIrq s pin mode hdr args = (e, s')) :
    (e ≠ .EOK ∧ s' = s) ∨
    (e = .EOK ∧ nuPortCheck pin = true ∧ ∃ i < IRQ_MAX_NUM, s' = attachAt s i pin mode hdr args ∧
      (Holds s i pin ∨ nuFindIrqindex s pin = none ∧ s.u32PinIrqMask.getLsbD i = false)) := by
  unfold nuGpioAttachIrq at h
  split at h
  · next hport =>
    split at h
    · next i hf =>
      cases h
      have hi := nuFindIrqindex_some hf
      exact .inr ⟨rfl, hport, i, hi.lt, rfl, .inl hi⟩
    · next hf =>
      split at h
      · next hlt =>
        cases h
        have hfree := getLsbD_nuCto (lt_of_lt_of_le hlt (by decide))
        exact .inr ⟨rfl, hport, _, hlt, rfl, .inr ⟨hf, hfree⟩⟩
      · cases h
        exact .inl ⟨by decide, rfl⟩
  · cases h
    exact .inl ⟨by decide, rfl⟩

/-- A detach clears the slot of the pin, if it has one. -/
theorem nuGpioDetachIrq_cases (h : nuGpioDetachIrq s pin = (e, s')) :
    (e ≠ .EOK ∧ s' = s) ∨ (e = .EOK ∧ nuFindIrqindex s pin = none ∧ s' = s) ∨
    (e = .EOK ∧ ∃ i, Holds s i pin ∧ s' = detachAt s i) := by
  unfold nuGpioDetachIrq at h
  split at h
  · split at h
    · next i hf =>
      cases h
      exact .inr (.inr ⟨rfl, i, nuFindIrqindex_some hf, rfl⟩)
    · next hf =>
      cases h
      exact .inr (.inl ⟨rfl, hf, rfl⟩)
  · cases h
    exact .inl ⟨by decide, rfl⟩

/-- Enabling and disabling leave the table. -/
theorem nuGpioIrqEnable_table {enabled : BitVec 32} (h : nuGpioIrqEnable s pin enabled = (e, s')) :
    s'.pinIrqHdrTab = s.pinIrqHdrTab ∧ s'.u32PinIrqMask = s.u32PinIrqMask := by
  unfold nuGpioIrqEnable at h
  split at h
  · split at h
    · cases h
      exact ⟨rfl, rfl⟩
    · dsimp only at h
      split at h
      · split at h
        · cases h
          exact ⟨rfl, rfl⟩
        · cases h
          exact ⟨rfl, rfl⟩
      · cases h
        exact ⟨rfl, rfl⟩
  · cases h
    exact ⟨rfl, rfl⟩

/-! ## The table after an attach and a detach -/

@[simp]
theorem attachAt_tab_self : (attachAt s i pin mode hdr args).pinIrqHdrTab i =
    ⟨pin.truncate 16, mode.truncate 16, hdr, args⟩ := Function.update_self ..

theorem attachAt_tab_of_ne (h : j ≠ i) :
    (attachAt s i pin mode hdr args).pinIrqHdrTab j = s.pinIrqHdrTab j := Function.update_of_ne h ..

theorem attachAt_mask (hi : i < IRQ_MAX_NUM) :
    (attachAt s i pin mode hdr args).u32PinIrqMask.getLsbD j =
      (s.u32PinIrqMask.getLsbD j || decide (j = i)) :=
  getLsbD_or_bit (lt_of_lt_of_le hi (by decide))

@[simp]
theorem detachAt_tab_self : (detachAt s i).pinIrqHdrTab i = .none := Function.update_self ..

theorem detachAt_tab_of_ne (h : j ≠ i) : (detachAt s i).pinIrqHdrTab j = s.pinIrqHdrTab j :=
  Function.update_of_ne h ..

theorem detachAt_mask (hi : i < IRQ_MAX_NUM) :
    (detachAt s i).u32PinIrqMask.getLsbD j = (s.u32PinIrqMask.getLsbD j && decide (j ≠ i)) :=
  getLsbD_and_not_bit (lt_of_lt_of_le hi (by decide))

theorem holds_attachAt (hi : i < IRQ_MAX_NUM) (hfit : (pin.truncate 16).signExtend 32 = pin) :
    Holds (attachAt s i pin mode hdr args) j q ↔ (j = i ∧ q = pin) ∨ (j ≠ i ∧ Holds s j q) := by
  by_cases hj : j = i
  · subst hj
    constructor
    · rintro ⟨-, -, hp⟩
      rw [attachAt_tab_self] at hp
      exact .inl ⟨rfl, hp.symm.trans hfit⟩
    · rintro (⟨-, rfl⟩ | ⟨hne, -⟩)
      · refine ⟨hi, by rw [attachAt_mask hi]; simp, ?_⟩
        rw [attachAt_tab_self]
        exact hfit
      · exact absurd rfl hne
  · have hused : (attachAt s i pin mode hdr args).u32PinIrqMask.getLsbD j =
        s.u32PinIrqMask.getLsbD j := by
      rw [attachAt_mask hi]
      simp [hj]
    constructor
    · rintro ⟨hlt, hu, hp⟩
      rw [attachAt_tab_of_ne hj] at hp
      exact .inr ⟨hj, hlt, hused ▸ hu, hp⟩
    · rintro (⟨heq, -⟩ | ⟨-, hlt, hu, hp⟩)
      · exact absurd heq hj
      · exact ⟨hlt, hused.trans hu, by rw [attachAt_tab_of_ne hj]; exact hp⟩

theorem holds_detachAt (hi : i < IRQ_MAX_NUM) : Holds (detachAt s i) j q ↔ j ≠ i ∧ Holds s j q := by
  constructor
  · rintro ⟨hlt, hu, hp⟩
    rw [detachAt_mask hi, Bool.and_eq_true, decide_eq_true_eq] at hu
    rw [detachAt_tab_of_ne hu.2] at hp
    exact ⟨hu.2, hlt, hu.1, hp⟩
  · rintro ⟨hne, hlt, hu, hp⟩
    refine ⟨hlt, ?_, ?_⟩
    · rw [detachAt_mask hi, hu, decide_eq_true hne]
      rfl
    · rw [detachAt_tab_of_ne hne]
      exact hp

theorem SlotInv.attachAt (h : SlotInv s) (hi : i < IRQ_MAX_NUM) (hport : nuPortCheck pin = true)
    (hfit : (pin.truncate 16).signExtend 32 = pin)
    (hown : Holds s i pin ∨ nuFindIrqindex s pin = none ∧ s.u32PinIrqMask.getLsbD i = false) :
    SlotInv (attachAt s i pin mode hdr args) := by
  have hother : ∀ {k}, k ≠ i → ¬ Holds s k pin := by
    rintro k hne hk
    rcases hown with hi | ⟨hnone, -⟩
    · exact hne (h.apart hk hi)
    · exact nuFindIrqindex_none hnone hk
  constructor
  · intro k hk
    rw [attachAt_mask hi]
    by_cases heq : k = i
    · subst heq
      simpa using truncate_ne_none hport
    · rw [attachAt_tab_of_ne heq]
      simpa [heq] using h.inUse k hk
  · intro j k q hj hk
    rw [holds_attachAt hi hfit] at hj hk
    rcases hj with ⟨rfl, rfl⟩ | ⟨hj, hj'⟩
    · rcases hk with ⟨rfl, -⟩ | ⟨hk, hk'⟩
      · rfl
      · exact absurd hk' (hother hk)
    · rcases hk with ⟨rfl, rfl⟩ | ⟨hk, hk'⟩
      · exact absurd hj' (hother hj)
      · exact h.apart hj' hk'

theorem SlotInv.detachAt (h : SlotInv s) (hi : i < IRQ_MAX_NUM) : SlotInv (detachAt s i) := by
  constructor
  · intro k hk
    rw [detachAt_mask hi]
    by_cases heq : k = i
    · subst heq
      simp [RtPinIrqHdr.none]
    · rw [detachAt_tab_of_ne heq]
      simpa [heq] using h.inUse k hk
  · intro j k q hj hk
    rw [holds_detachAt hi] at hj hk
    exact h.apart hj.2 hk.2

theorem handlerOf_attachAt (h : SlotInv s) (hi : i < IRQ_MAX_NUM) (hport : nuPortCheck pin = true)
    (hfit : (pin.truncate 16).signExtend 32 = pin)
    (hown : Holds s i pin ∨ nuFindIrqindex s pin = none ∧ s.u32PinIrqMask.getLsbD i = false) :
    handlerOf (attachAt s i pin mode hdr args) =
      Function.update (handlerOf s) pin (some ⟨pin.truncate 16, mode.truncate 16, hdr, args⟩) := by
  have h' : SlotInv (attachAt s i pin mode hdr args) := h.attachAt hi hport hfit hown
  funext q
  by_cases hq : q = pin
  · subst hq
    have hf := h'.find_iff.2 ((holds_attachAt hi hfit).2 (.inl ⟨rfl, rfl⟩))
    rw [handlerOf, hf, Function.update_self, Option.map_some, attachAt_tab_self]
  · have hheld : ∀ k, Holds s k q → k ≠ i := by
      rintro k hk rfl
      rcases hown with hi | ⟨-, hfree⟩
      · exact hq (hk.unique hi)
      · rw [hk.used] at hfree
        cases hfree
    have heq : nuFindIrqindex (attachAt s i pin mode hdr args) q = nuFindIrqindex s q :=
      h.find_congr h' fun k => by
        rw [holds_attachAt hi hfit]
        constructor
        · rintro (⟨-, hk⟩ | ⟨-, hk⟩)
          · exact absurd hk hq
          · exact hk
        · exact fun hk => .inr ⟨hheld k hk, hk⟩
    rw [Function.update_of_ne hq, handlerOf, handlerOf, heq]
    cases hf : nuFindIrqindex s q with
    | none => rfl
    | some k =>
      exact congrArg some (attachAt_tab_of_ne (hheld k (nuFindIrqindex_some hf)))

theorem find_detachAt (h : SlotInv s) (hi : Holds s i pin) (hq : q ≠ pin) :
    nuFindIrqindex (detachAt s i) q = nuFindIrqindex s q :=
  h.find_congr (h.detachAt hi.lt) fun k => by
    rw [holds_detachAt hi.lt]
    constructor
    · exact fun hk => hk.2
    · intro hk
      refine ⟨?_, hk⟩
      rintro rfl
      exact hq (hk.unique hi)

theorem handlerOf_detachAt (h : SlotInv s) (hi : Holds s i pin) :
    handlerOf (detachAt s i) = Function.update (handlerOf s) pin none := by
  funext q
  by_cases hq : q = pin
  · subst hq
    rw [Function.update_self]
    cases hf : nuFindIrqindex (detachAt s i) q with
    | none => rw [handlerOf, hf, Option.map_none]
    | some k =>
      have hk := (holds_detachAt hi.lt).1 (nuFindIrqindex_some hf)
      exact absurd (h.apart hk.2 hi) hk.1
  · rw [Function.update_of_ne hq, handlerOf, handlerOf, find_detachAt h hi hq]
    cases hf : nuFindIrqindex s q with
    | none => rfl
    | some k =>
      have hne : k ≠ i := by
        rintro rfl
        exact hq ((nuFindIrqindex_some hf).unique hi)
      exact congrArg some (detachAt_tab_of_ne hne)

/-! ## Runs -/

/-- What a step keeps: the slots, and the table as the map of the attached pins. -/
theorem slotInv_step (h : SlotInv s ∧ handlerOf s = t)
    (hstep : where_ gpioStep FitsSlot s l s') : SlotInv s' ∧ handlerOf s' = attached t l := by
  obtain ⟨hfit, hexec⟩ := hstep
  obtain ⟨hinv, rfl⟩ := h
  obtain ⟨op, e⟩ := l
  cases op with
  | attach pin mode hdr args =>
    rcases nuGpioAttachIrq_cases hexec with
      ⟨he, rfl⟩ | ⟨rfl, hport, i, hi, rfl, hown⟩
    · refine ⟨hinv, ?_⟩
      cases e with
      | EOK => exact absurd rfl he
      | ERROR => rfl
      | EBUSY => rfl
    · exact ⟨hinv.attachAt hi hport hfit hown, handlerOf_attachAt hinv hi hport hfit hown⟩
  | detach pin =>
    rcases nuGpioDetachIrq_cases hexec with
      ⟨he, rfl⟩ | ⟨rfl, hnone, rfl⟩ | ⟨rfl, i, hi, rfl⟩
    · refine ⟨hinv, ?_⟩
      cases e with
      | EOK => exact absurd rfl he
      | ERROR => rfl
      | EBUSY => rfl
    · refine ⟨hinv, (Function.update_eq_self_iff.2 ?_).symm⟩
      rw [handlerOf, hnone]
      rfl
    · exact ⟨hinv.detachAt hi.lt, handlerOf_detachAt hinv hi⟩
  | irqEnable pin enabled =>
    obtain ⟨htab, hmask⟩ := nuGpioIrqEnable_table hexec
    have hfind : nuFindIrqindex s' = nuFindIrqindex s := by
      funext q
      rw [nuFindIrqindex, nuFindIrqindex, htab, hmask]
    have hheld : ∀ {i q}, Holds s' i q → Holds s i q := fun ⟨hlt, hu, hp⟩ =>
      ⟨hlt, hmask ▸ hu, htab ▸ hp⟩
    refine ⟨⟨?_, fun hi hj => hinv.apart (hheld hi) (hheld hj)⟩, ?_⟩
    · rw [htab, hmask]
      exact hinv.inUse
    · funext q
      rw [handlerOf, hfind, htab]
      cases e <;> rfl

/-- Nothing is attached at the start. -/
theorem slotInv_init : SlotInv (Driver.init : Driver F A) ∧
    handlerOf (Driver.init : Driver F A) = fun _ => none := by
  have hnone : ∀ {i pin}, ¬ Holds (Driver.init : Driver F A) i pin := by
    rintro i pin ⟨-, hu, -⟩
    simp [Driver.init] at hu
  refine ⟨⟨fun i _ => ?_, fun hi => absurd hi hnone⟩, ?_⟩
  · simp [Driver.init, RtPinIrqHdr.none]
  · funext pin
    cases hf : nuFindIrqindex (Driver.init : Driver F A) pin with
    | none => rw [handlerOf, hf, Option.map_none]
    | some i => exact absurd (nuFindIrqindex_some hf) hnone

/-- The loop over the flagged pins calls what the table has for them. -/
theorem pinIrqHdr_eq {irqStatus : BitVec 32} {port : Nat} :
    pinIrqHdr s irqStatus port = callsOf (handlerOf s) port irqStatus := by
  rw [pinIrqHdr, nuScan_eq (by decide), List.filterMap_filter, callsOf]
  apply List.filterMap_congr
  intro k _
  split
  · next hbit =>
    rw [handlerOf, nuGetPinindex]
    cases nuFindIrqindex s (BitVec.ofNat 32 (port * GPIO_PIN_MAX + k)) with
    | none => rfl
    | some i => rfl
  · rfl

theorem SlotInv.right (h : SlotInv s) : IrqsRight s (handlerOf s) where
  oneSlot := fun _ _ _ hi hj => h.apart hi hj
  inUse := h.inUse
  table := fun pin hd => by
    rw [handlerOf, Option.map_eq_some_iff]
    exact exists_congr fun i => and_congr_left fun _ => h.find_iff
  calls := fun _ _ _ => pinIrqHdr_eq

/-! ## The other pins of a port -/

/-- A detach leaves the interrupts of the other pins delivered. -/
theorem deliveryKept_detach (h : SlotInv s) (hstep : gpioStep s (.detach pin, e) s') :
    DeliveryKept s (.detach pin) s' := by
  rintro _ ⟨⟩ port _ k _ hne hd
  rcases nuGpioDetachIrq_cases hstep with
    ⟨-, rfl⟩ | ⟨-, -, rfl⟩ | ⟨-, i, hi, rfl⟩
  · exact hd
  · exact hd
  · exact ⟨by rw [find_detachAt h hi hne]; exact hd.attached, hd.enabled, hd.umasked⟩

/-- A disable of an attached pin masks the line of its port and leaves the other ports. -/
theorem deliveryKept_disable {enabled : BitVec 32}
    (hstep : gpioStep s (.irqEnable pin enabled, e) s') :
    DeliveryKept s (.irqEnable pin enabled) s' ↔ DisablesAlone s (.irqEnable pin enabled) := by
  by_cases hen : enabled = PIN_IRQ_ENABLE
  · refine ⟨fun _ hne => absurd hen hne, fun _ p hp => ?_⟩
    rw [GpioOp.stops, if_pos hen] at hp
    cases hp
  have hstops : (GpioOp.irqEnable pin enabled : GpioOp F A).stops = some pin := if_neg hen
  change nuGpioIrqEnable s pin enabled = (e, s') at hstep
  unfold nuGpioIrqEnable at hstep
  split at hstep
  · next hport =>
    split at hstep
    · next hnone =>
      cases hstep
      exact ⟨fun _ _ _ hsome => absurd hnone hsome, fun _ _ _ _ _ _ _ _ hd => hd⟩
    · next i hf =>
      cases hstep
      constructor
      · intro hkept _ _ _ k hk hne hd
        have hafter := hkept pin hstops _ (of_decide_eq_true hport) k hk hne hd
        have hmasked := hafter.umasked
        dsimp only at hmasked
        rw [Function.update_self] at hmasked
        cases hmasked
      · intro halone p hp port hp' k hk hne hd
        rw [hstops] at hp
        cases hp
        have hother : port ≠ nuGetPort pin := by
          rintro rfl
          exact halone hen hport (by rw [hf]; exact Option.some_ne_none i) k hk hne hd
        refine ⟨hd.attached, ?_, ?_⟩
        · dsimp only
          rw [Function.update_of_ne hother]
          exact hd.enabled
        · dsimp only
          rw [Function.update_of_ne hother]
          exact hd.umasked
  · next hport =>
    cases hstep
    exact ⟨fun _ _ hok => absurd hok hport, fun _ _ _ _ _ _ _ _ hd => hd⟩

/-- Over every run the table is the map of the attached pins and an interrupt calls the handlers of
the flagged ones. A step leaves the interrupts of the pins it does not stop delivered if and only if
it does not disable a pin of a port that another interrupt comes from. -/
theorem gpioIrq_run {ops : List (GpioOp F A × RtErr)}
    (h : Run (where_ gpioStep FitsSlot) Driver.init ops s) :
    IrqsRight s (ops.foldl attached fun _ => none) ∧
      ∀ l s', gpioStep s l s' → (DeliveryKept s l.1 s' ↔ DisablesAlone s l.1) := by
  obtain ⟨hinv, heq⟩ := @Run.simulates _ _ _ _ _ _ _ (fun s t => SlotInv s ∧ handlerOf s = t)
    attached slotInv_step _ slotInv_init h
  refine ⟨heq ▸ hinv.right, ?_⟩
  rintro ⟨op, e⟩ s' hstep
  cases op with
  | attach pin mode hdr args => exact ⟨fun _ => trivial, fun _ p hp => nomatch hp⟩
  | detach pin => exact ⟨fun _ => trivial, fun _ => deliveryKept_detach hinv hstep⟩
  | irqEnable pin enabled => exact deliveryKept_disable hstep

/-! ## Two pins of one port -/

/-- PA.0 and PA.1 attached and enabled. -/
def twoPins : List (GpioOp Unit Unit × RtErr) :=
  [(.attach 0 0 (some ()) none, .EOK), (.attach 1 0 (some ()) none, .EOK),
    (.irqEnable 0 PIN_IRQ_ENABLE, .EOK), (.irqEnable 1 PIN_IRQ_ENABLE, .EOK)]

/-- The state operations lead to. -/
def gpioExecs (s : Driver F A) (ops : List (GpioOp F A × RtErr)) : Driver F A :=
  ops.foldl (fun s l => (gpioExec s l.1).2) s

theorem twoPins_run :
    Run (where_ gpioStep FitsSlot) Driver.init twoPins (gpioExecs Driver.init twoPins) :=
  .snoc (.snoc (.snoc (.snoc .nil
    ⟨rfl, Prod.ext (by decide +kernel) rfl⟩)
    ⟨rfl, Prod.ext (by decide +kernel) rfl⟩)
    ⟨trivial, Prod.ext (by decide +kernel) rfl⟩)
    ⟨trivial, Prod.ext (by decide +kernel) rfl⟩

/-- Disabling PA.1 masks the line of the port, and the interrupts of PA.0, that is still enabled, no
longer come. -/
theorem not_deliveryKept : ¬ ∀ (ops : List (GpioOp Unit Unit × RtErr)) (s : Driver Unit Unit),
    Run (where_ gpioStep FitsSlot) Driver.init ops s →
      IrqsRight s (ops.foldl attached fun _ => none) ∧
        ∀ l s', gpioStep s l s' → DeliveryKept s l.1 s' := by
  intro h
  have hkept := (h _ _ twoPins_run).2 (.irqEnable 1 0, .EOK) _ (Prod.ext (by decide +kernel) rfl)
  have hbefore : Delivers (gpioExecs Driver.init twoPins) 0 0 :=
    ⟨by decide +kernel, by decide +kernel, by decide +kernel⟩
  have hafter := hkept 1 rfl 0 (by decide) 0 (by decide) (by decide) hbefore
  exact absurd hafter.umasked (by decide +kernel)

/-- `gpioIrq_run` on two pins of port A. -/
theorem gpioIrq_twoPins :
    IrqsRight (gpioExecs Driver.init twoPins) (twoPins.foldl attached fun _ => none) ∧
      ∀ l s', gpioStep (gpioExecs Driver.init twoPins) l s' →
        (DeliveryKept (gpioExecs Driver.init twoPins) l.1 s' ↔
          DisablesAlone (gpioExecs Driver.init twoPins) l.1) :=
  gpioIrq_run twoPins_run

end NumakerMA35D1.Gpio

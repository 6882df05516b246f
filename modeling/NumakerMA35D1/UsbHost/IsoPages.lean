import NumakerMA35D1.UsbHost.EhciIso
import NumakerMA35D1.UsbHost.PoolRun
import NumakerMA35D1.Lib.Align

/-!
# The buffer pages of an iTD

The controller finds a byte of a micro-frame's packet through the page select, the offset and the seven page
pointers of the iTD (`byteAddr`). The pointers are the pages after that of the iTD's first packet, with the
endpoint's fields in their low bits; the page select is a difference of addresses, of which the field keeps
three bits.

`ehciIsoXfer_pages_iff`: the words that a transfer request of high speed has written decode to its packets
exactly when each packet lies in the seven pages from that of the first packet of its iTD on, is shorter than
4096 bytes, and the maximum packet size, where it is above 4095, has no bit that the number of the second page
does not have (`PacketFits`).

Reference: `_ehci_iso.c_`.
-/

namespace NumakerMA35D1.UsbHost

open Embedded

/-! ## What the controller reads -/

/-- The number of the page of an address. -/
def pageNo (x : BitVec 32) : Nat := x.toNat / 4096

/-- The offset of an address in its page. -/
def pageOff (x : BitVec 32) : Nat := x.toNat % 4096

/-- The page select of a micro-frame. Reference: `ehci.h:184 ITD_PG_Pos`. -/
def itdPg (t : BitVec 32) : Nat := (getField t 12 3).toNat

/-- The offset of a micro-frame. Reference: `ehci.h:185 ITD_XFER_OFF_Msk`. -/
def itdOff (t : BitVec 32) : Nat := (getField t 0 12).toNat

/-- The length of a micro-frame. Reference: `ehci.h:182 ITD_XFER_LEN`. -/
def itdLen (t : BitVec 32) : Nat := (getField t 16 12).toNat

/-- Where the controller finds a byte of a micro-frame, none when that is behind the seven pages. -/
def byteAddr (itd : Itd) (t : BitVec 32) (k : Nat) : Option (BitVec 32) :=
  if h : itdPg t + (itdOff t + k) / 4096 < 7 then
    some (BitVec.ofNat 32
      (pageNo (itd.bptr ⟨itdPg t + (itdOff t + k) / 4096, h⟩) * 4096 + (itdOff t + k) % 4096))
  else none

/-- A micro-frame has the length of a packet, its address, and each of its bytes in place. -/
structure Decodes (itd : Itd) (t addr : BitVec 32) (len : BitVec 16) : Prop where
  length : itdLen t = len.toNat
  start : byteAddr itd t 0 = some addr
  bytes : ∀ k < len.toNat, byteAddr itd t k = some (addr + BitVec.ofNat 32 k)

/-- The pages of a packet above that of the first packet of its iTD, which may go round. -/
def pagesUp (first addr : BitVec 32) : Nat := (pageNo addr + 2 ^ 20 - pageNo first) % 2 ^ 20

/-- The page after that of the first packet. -/
def secondPage (first : BitVec 32) : Nat := (pageNo first + 1) % 2 ^ 20

/-- A packet goes on in the page after that of its address. -/
def Straddles (addr : BitVec 32) (len : BitVec 16) : Prop := 4096 < pageOff addr + len.toNat

/-- A packet is in the pages of its iTD, and the bits of the maximum packet size above the first twelve are
in the number of the second page where that is used. (Nine pages up a packet is found again when bit 15 of
the size is set and that of the number is not.) -/
def PacketFits (w : BitVec 16) (first addr : BitVec 32) (len : BitVec 16) : Prop :=
  len.toNat < 4096 ∧
  ((pagesUp first addr ≤ 6 ∧ (Straddles addr len → pagesUp first addr ≤ 5) ∧
      (pagesUp first addr = 1 ∨ (pagesUp first addr = 0 ∧ Straddles addr len) →
        secondPage first ||| w.toNat / 4096 = secondPage first)) ∨
    (pagesUp first addr = 9 ∧ ¬ Straddles addr len ∧
      secondPage first ||| w.toNat / 4096 = secondPage first + 8))

/-! ## The words -/

theorem pageNo_lt (x : BitVec 32) : pageNo x < 2 ^ 20 := by
  have hx := x.isLt
  unfold pageNo
  omega

theorem pageOff_lt (x : BitVec 32) : pageOff x < 4096 := by
  unfold pageOff
  omega

theorem pageNo_or (x y : BitVec 32) : pageNo (x ||| y) = pageNo x ||| pageNo y := by
  have hdiv : ∀ n : Nat, n / 4096 = n >>> 12 := fun n => (Nat.shiftRight_eq_div_pow n 12).symm
  rw [pageNo, pageNo, pageNo, BitVec.toNat_or, hdiv, hdiv, hdiv, Nat.shiftRight_or_distrib]

theorem page_toNat (x : BitVec 32) : (x &&& 0xFFFFF000#32).toNat = pageNo x * 4096 :=
  maskLow_toNat (k := 12) (by decide) x

theorem pageOff_eq (x : BitVec 32) : (x &&& 0xFFF#32).toNat = pageOff x := by
  rw [BitVec.toNat_and]
  exact Nat.and_two_pow_sub_one_eq_mod _ 12

/-- The difference of two pages. -/
theorem page_sub (first addr : BitVec 32) :
    (addr &&& 0xFFFFF000#32) - (first &&& 0xFFFFF000#32) =
      BitVec.ofNat 32 (pagesUp first addr * 4096) := by
  have h₁ := pageNo_lt first
  have h₂ := pageNo_lt addr
  apply BitVec.eq_of_toNat_eq
  rw [BitVec.toNat_sub, page_toNat, page_toNat, BitVec.toNat_ofNat, pagesUp]
  omega

variable {udev : Udev} {ep : EpInfo} {first addr t : BitVec 32} {len : BitVec 16}

/-- The word of a packet, with or without the interrupt bit. -/
def IsWord (first addr : BitVec 32) (len : BitVec 16) (t : BitVec 32) : Prop :=
  ∃ ioc, (ioc = 0#32 ∨ ioc = ITD_IOC) ∧ t = writeItdMicroFrame first addr len ||| ioc

/-- A field of the word of a packet, from those of its parts. -/
theorem IsWord.field (h : IsWord first addr len t) {pos n : Nat}
    (hactive : getField ITD_STATUS_ACTIVE pos n = 0#32) (hioc : getField ITD_IOC pos n = 0#32)
    (hn : n ≤ 32) : (getField t pos n).toNat =
      (len.toNat % 4096 * 65536) / 2 ^ pos % 2 ^ n ||| (pagesUp first addr * 4096) / 2 ^ pos % 2 ^ n |||
        pageOff addr / 2 ^ pos % 2 ^ n := by
  obtain ⟨ioc, hcase, rfl⟩ := h
  have hzero : getField ioc pos n = 0#32 := by
    rcases hcase with rfl | rfl
    · exact getField_zero_word
    · exact hioc
  have hlen : ((len.setWidth 32 &&& 0xFFF#32) <<< 16).toNat = len.toNat % 4096 * 65536 := by
    have hmask : len.toNat &&& (0xFFF#32).toNat = len.toNat % 4096 := Nat.and_two_pow_sub_one_eq_mod _ 12
    have hlt : len.toNat % 4096 < 4096 := Nat.mod_lt _ (by decide)
    rw [BitVec.toNat_shiftLeft, BitVec.toNat_and, BitVec.toNat_setWidth_of_le (by decide),
      Nat.shiftLeft_eq, hmask]
    omega
  have hup : pagesUp first addr < 2 ^ 20 := Nat.mod_lt _ (by decide)
  have hfits : pagesUp first addr * 4096 % 2 ^ 32 = pagesUp first addr * 4096 :=
    Nat.mod_eq_of_lt (by omega)
  rw [writeItdMicroFrame, page_sub, getField_or, getField_or, getField_or, getField_or, hactive, hzero,
    BitVec.zero_or, BitVec.or_zero, BitVec.toNat_or, BitVec.toNat_or, getField_toNat hn, getField_toNat hn,
    getField_toNat hn, hlen, pageOff_eq, BitVec.toNat_ofNat, hfits]

theorem IsWord.off (h : IsWord first addr len t) : itdOff t = pageOff addr := by
  have hlt := pageOff_lt addr
  rw [itdOff, h.field (by decide) (by decide) (by decide)]
  have h₁ : ∀ n : Nat, n * 65536 / 2 ^ 0 % 2 ^ 12 = 0 := fun n => by omega
  have h₂ : ∀ n : Nat, n * 4096 / 2 ^ 0 % 2 ^ 12 = 0 := fun n => by omega
  rw [h₁, h₂, Nat.zero_or, Nat.zero_or, Nat.pow_zero, Nat.div_one]
  exact Nat.mod_eq_of_lt hlt

theorem IsWord.pg (h : IsWord first addr len t) : itdPg t = pagesUp first addr % 8 := by
  have hlt := pageOff_lt addr
  rw [itdPg, h.field (by decide) (by decide) (by decide)]
  have h₁ : ∀ n : Nat, n * 65536 / 2 ^ 12 % 2 ^ 3 = 0 := fun n => by omega
  have h₂ : ∀ n : Nat, n * 4096 / 2 ^ 12 % 2 ^ 3 = n % 8 := fun n => by omega
  have h₃ : pageOff addr / 2 ^ 12 % 2 ^ 3 = 0 := by
    rw [Nat.div_eq_of_lt (show pageOff addr < 2 ^ 12 from hlt), Nat.zero_mod]
  rw [h₁, h₂, h₃, Nat.zero_or, Nat.or_zero]

/-- A length is kept in its field when it fits and the page select does not reach it. -/
theorem IsWord.itdLen_eq (h : IsWord first addr len t) (hup : pagesUp first addr < 16) :
    itdLen t = len.toNat % 4096 := by
  have hlt := pageOff_lt addr
  rw [itdLen, h.field (by decide) (by decide) (by decide)]
  have h₁ : ∀ n : Nat, n % 4096 * 65536 / 2 ^ 16 % 2 ^ 12 = n % 4096 := fun n => by omega
  have h₂ : pagesUp first addr * 4096 / 2 ^ 16 % 2 ^ 12 = 0 := by
    rw [Nat.div_eq_of_lt (by omega), Nat.zero_mod]
  have h₃ : pageOff addr / 2 ^ 16 % 2 ^ 12 = 0 := by
    rw [Nat.div_eq_of_lt (Nat.lt_trans hlt (by decide)), Nat.zero_mod]
  rw [h₁, h₂, h₃, Nat.or_zero, Nat.or_zero]

theorem itdLen_lt (t : BitVec 32) : itdLen t < 4096 := by
  rw [itdLen, getField_toNat (by decide)]
  exact Nat.mod_lt _ (by decide)

/-! ## The page pointers -/

theorem itdPage_pageNo {i : Nat} (hi : i < 7) : pageNo (itdPage first i) = (pageNo first + i) % 2 ^ 20 := by
  have hlt := pageNo_lt first
  rw [itdPage, pageNo, BitVec.toNat_add, page_toNat, BitVec.toNat_mul, BitVec.toNat_ofNat]
  change (pageNo first * 4096 + 4096 * (i % 2 ^ 32) % 2 ^ 32) % 2 ^ 32 / 4096 = _
  omega

/-- The page of each pointer: the second also has the upper bits of the maximum packet size. -/
theorem writeItdInfo_page (i : Fin 7) : pageNo ((writeItdInfo udev ep first).bptr i) =
    if i = 1 then secondPage first ||| ep.wMaxPacketSize.toNat / 4096
    else (pageNo first + i) % 2 ^ 20 := by
  have hsmall : ∀ x : BitVec 32, x.toNat < 4096 → pageNo x = 0 := fun x hx => Nat.div_eq_of_lt hx
  have hsize : (ep.wMaxPacketSize.setWidth 32).toNat = ep.wMaxPacketSize.toNat := by
    rw [BitVec.toNat_setWidth_of_le (by decide)]
  have hw := ep.wMaxPacketSize.isLt
  match i with
  | 0 =>
    have hlow : (udev.devNum.setWidth 32 ||| ((ep.bEndpointAddress &&& 0x0F#8).setWidth 32 <<< 8)).toNat <
        4096 := by
      have hdev := udev.devNum.isLt
      have hep : (ep.bEndpointAddress &&& 0x0F#8).toNat < 16 := by
        rw [BitVec.toNat_and]
        exact Nat.lt_succ_of_le Nat.and_le_right
      rw [BitVec.toNat_or, BitVec.toNat_shiftLeft, BitVec.toNat_setWidth_of_le (by decide),
        BitVec.toNat_setWidth_of_le (by decide), Nat.shiftLeft_eq]
      exact Nat.or_lt_two_pow (n := 12) (by omega) (by omega)
    rw [if_neg (by decide)]
    change pageNo (itdPage first 0 ||| _) = _
    rw [pageNo_or, hsmall _ hlow, Nat.or_zero, itdPage_pageNo (by decide)]
    rfl
  | 1 =>
    have hdir : pageNo ((if ep.bEndpointAddress &&& 0x80#8 = 0x80#8 then 1#32 else 0#32) <<< 11) = 0 := by
      split <;> rfl
    rw [if_pos rfl]
    change pageNo (itdPage first 1 ||| _ ||| _) = _
    rw [pageNo_or, pageNo_or, hdir, Nat.or_zero, itdPage_pageNo (by decide), secondPage]
    rw [show pageNo (ep.wMaxPacketSize.setWidth 32) = ep.wMaxPacketSize.toNat / 4096 from by
      rw [pageNo, hsize]]
  | 2 =>
    have hmult : ((ep.wMaxPacketSize.setWidth 32 + 1023#32) / 1024#32).toNat < 4096 := by
      rw [BitVec.toNat_udiv, BitVec.toNat_add, hsize]
      change (ep.wMaxPacketSize.toNat + 1023) % 2 ^ 32 / 1024 < 4096
      omega
    rw [if_neg (by decide)]
    change pageNo (itdPage first 2 ||| _) = _
    rw [pageNo_or, hsmall _ hmult, Nat.or_zero, itdPage_pageNo (by decide)]
    rfl
  | 3 => exact itdPage_pageNo (by decide)
  | 4 => exact itdPage_pageNo (by decide)
  | 5 => exact itdPage_pageNo (by decide)
  | 6 => exact itdPage_pageNo (by decide)

/-! ## Packets -/

/-- The number of the page that a pointer names. -/
def ptrPage (w : BitVec 16) (first : BitVec 32) (i : Nat) : Nat :=
  if i = 1 then secondPage first ||| w.toNat / 4096 else (pageNo first + i) % 2 ^ 20

theorem secondPage_or_lt (w : BitVec 16) (first : BitVec 32) :
    secondPage first ||| w.toNat / 4096 < 2 ^ 20 := by
  have hw := w.isLt
  exact Nat.or_lt_two_pow (Nat.mod_lt _ (by decide)) (by omega)

theorem ptrPage_lt (w : BitVec 16) (first : BitVec 32) (i : Nat) : ptrPage w first i < 2 ^ 20 := by
  rw [ptrPage]
  split
  · exact secondPage_or_lt w first
  · exact Nat.mod_lt _ (by decide)

/-- A byte is found at its address when its pointer names the page it is in. -/
theorem IsWord.byteAddr_iff (h : IsWord first addr len t) (k : Nat) :
    byteAddr (writeItdInfo udev ep first) t k = some (addr + BitVec.ofNat 32 k) ↔
      pagesUp first addr % 8 + (pageOff addr + k) / 4096 < 7 ∧
      ptrPage ep.wMaxPacketSize first (pagesUp first addr % 8 + (pageOff addr + k) / 4096) =
        (pageNo addr + (pageOff addr + k) / 4096) % 2 ^ 20 := by
  unfold byteAddr
  rw [h.pg, h.off]
  split
  · next hi =>
    have hpage : pageNo ((writeItdInfo udev ep first).bptr
        ⟨pagesUp first addr % 8 + (pageOff addr + k) / 4096, hi⟩) =
        ptrPage ep.wMaxPacketSize first (pagesUp first addr % 8 + (pageOff addr + k) / 4096) := by
      rw [writeItdInfo_page, ptrPage]
      exact if_congr ⟨fun heq => congrArg Fin.val heq, fun heq => Fin.ext heq⟩ rfl rfl
    rw [hpage, Option.some_inj]
    generalize pagesUp first addr % 8 + (pageOff addr + k) / 4096 = i at *
    have hlt := ptrPage_lt ep.wMaxPacketSize first i
    generalize ptrPage ep.wMaxPacketSize first i = p at *
    have haddr : addr.toNat = pageNo addr * 4096 + pageOff addr := (Nat.div_add_mod' _ _).symm
    have hsum : (addr + BitVec.ofNat 32 k).toNat = (pageNo addr * 4096 + (pageOff addr + k)) % 2 ^ 32 := by
      rw [BitVec.toNat_add, BitVec.toNat_ofNat, haddr]
      omega
    rw [← BitVec.toNat_inj, hsum, BitVec.toNat_ofNat]
    generalize pageOff addr + k = o at *
    generalize pageNo addr = q at *
    constructor
    · intro heq
      exact ⟨hi, by omega⟩
    · rintro ⟨-, heq⟩
      omega
  · next hi => exact iff_of_false (by simp) fun hs => hi hs.1

/-- What the second pointer adds to its page. -/
theorem secondPage_or_bounds (w : BitVec 16) (first : BitVec 32) :
    secondPage first ≤ (secondPage first ||| w.toNat / 4096) ∧
      (secondPage first ||| w.toNat / 4096) ≤ secondPage first + 15 := by
  have hw := w.isLt
  refine ⟨Nat.left_le_or, ?_⟩
  have hdiv : ∀ a b : Nat, b < 16 → (a ||| b) / 16 = a / 16 := by
    intro a b hb
    change (a ||| b) / 2 ^ 4 = a / 2 ^ 4
    rw [← Nat.shiftRight_eq_div_pow, ← Nat.shiftRight_eq_div_pow, Nat.shiftRight_or_distrib,
      Nat.shiftRight_eq_div_pow b, Nat.div_eq_of_lt (show b < 2 ^ 4 from hb), Nat.or_zero]
  have hsame := hdiv (secondPage first) (w.toNat / 4096) (by omega)
  omega

/-- The word of a packet decodes to it exactly when the packet fits. -/
theorem IsWord.decodes_iff (h : IsWord first addr len t) :
    Decodes (writeItdInfo udev ep first) t addr len ↔ PacketFits ep.wMaxPacketSize first addr len := by
  have hoff := pageOff_lt addr
  have hfirst := pageNo_lt first
  have haddr := pageNo_lt addr
  have hlen := len.isLt
  have hbounds := secondPage_or_bounds ep.wMaxPacketSize first
  have hor := secondPage_or_lt ep.wMaxPacketSize first
  have hup : pagesUp first addr < 2 ^ 20 := Nat.mod_lt _ (by decide)
  have hpage : (pageNo first + pagesUp first addr) % 2 ^ 20 = pageNo addr := by
    unfold pagesUp
    omega
  have hzero : addr + BitVec.ofNat 32 0 = addr := BitVec.add_zero addr
  have hstart := @IsWord.byteAddr_iff udev ep _ _ _ _ h 0
  rw [hzero, Nat.add_zero, Nat.div_eq_of_lt hoff, Nat.add_zero, Nat.add_zero, Nat.mod_eq_of_lt haddr] at hstart
  constructor
  · rintro ⟨hlength, hbyte, hbytes⟩
    have hshort : len.toNat < 4096 := hlength ▸ itdLen_lt t
    obtain ⟨hin, hptr⟩ := hstart.1 hbyte
    refine ⟨hshort, ?_⟩
    -- the byte after the page's end
    have hnext : Straddles addr len → pagesUp first addr % 8 + 1 < 7 ∧
        ptrPage ep.wMaxPacketSize first (pagesUp first addr % 8 + 1) = (pageNo addr + 1) % 2 ^ 20 := by
      intro hstr
      have hk : 4096 - pageOff addr < len.toNat := by
        unfold Straddles at hstr
        omega
      have hbyte := (@IsWord.byteAddr_iff udev ep _ _ _ _ h _).1 (hbytes _ hk)
      rwa [Nat.add_sub_cancel' (Nat.le_of_lt hoff), Nat.div_self (by decide)] at hbyte
    by_cases hone : pagesUp first addr % 8 = 1
    · rw [ptrPage, if_pos hone] at hptr
      have hup' : pagesUp first addr = 1 ∨ pagesUp first addr = 9 := by
        unfold secondPage at hptr hbounds hor
        omega
      rcases hup' with hup' | hup'
      · refine .inl ⟨by omega, fun _ => by omega, fun _ => ?_⟩
        rw [hptr, ← hpage, hup']
        rfl
      · refine .inr ⟨hup', fun hstr => ?_, ?_⟩
        · obtain ⟨-, hnext⟩ := hnext hstr
          rw [ptrPage, if_neg (by omega)] at hnext
          omega
        · unfold secondPage at hptr hbounds hor ⊢
          omega
    · rw [ptrPage, if_neg hone] at hptr
      have hup' : pagesUp first addr ≤ 6 := by omega
      refine .inl ⟨hup', fun hstr => ?_, ?_⟩
      · have := (hnext hstr).1
        omega
      · rintro (hup' | ⟨hup', hstr⟩)
        · omega
        · obtain ⟨-, hnext⟩ := hnext hstr
          rw [hup', ptrPage, if_pos rfl] at hnext
          rw [hnext, secondPage, ← hpage, hup']
          omega
  · rintro ⟨hshort, ⟨hup', hstr, hsecond⟩ | ⟨hup', hstr, hsecond⟩⟩
    · have hbyte : ∀ k, pageOff addr + k < 8192 → (4096 ≤ pageOff addr + k → Straddles addr len) →
          byteAddr (writeItdInfo udev ep first) t k = some (addr + BitVec.ofNat 32 k) := by
        intro k hk hover
        rw [h.byteAddr_iff, Nat.mod_eq_of_lt (show pagesUp first addr < 8 by omega)]
        rcases Nat.lt_or_ge (pageOff addr + k) 4096 with hlt | hge
        · rw [Nat.div_eq_of_lt hlt, Nat.add_zero, Nat.add_zero, Nat.mod_eq_of_lt haddr, ptrPage]
          refine ⟨by omega, ?_⟩
          split
          · next hone => rw [hsecond (.inl hone), secondPage, ← hpage, hone]
          · exact hpage
        · have hstr' := hover hge
          have hup'' := hstr hstr'
          rw [show (pageOff addr + k) / 4096 = 1 by omega, ptrPage]
          refine ⟨by omega, ?_⟩
          split
          · next hone =>
            have hup₀ : pagesUp first addr = 0 := by omega
            rw [hsecond (.inr ⟨hup₀, hstr'⟩), secondPage, ← hpage, hup₀]
            omega
          · omega
      refine ⟨?_, ?_, fun k hk => ?_⟩
      · rw [h.itdLen_eq (by omega), Nat.mod_eq_of_lt hshort]
      · rw [← hzero]
        exact hbyte 0 (by omega) fun hover => by omega
      · exact hbyte k (by omega) fun hover => by unfold Straddles; omega
    · have hbyte : ∀ k, pageOff addr + k < 4096 →
          byteAddr (writeItdInfo udev ep first) t k = some (addr + BitVec.ofNat 32 k) := by
        intro k hk
        rw [h.byteAddr_iff, Nat.div_eq_of_lt hk, hup', Nat.add_zero, Nat.add_zero, Nat.mod_eq_of_lt haddr,
          ptrPage, if_pos rfl, hsecond]
        unfold secondPage at hsecond hor ⊢
        omega
      unfold Straddles at hstr
      refine ⟨?_, ?_, fun k hk => hbyte k (by omega)⟩
      · rw [h.itdLen_eq (by omega), Nat.mod_eq_of_lt hshort]
      · rw [← hzero]
        exact hbyte 0 (by omega)

/-! ## The iTDs of a request -/

/-- The scheduled micro-frames among some. -/
def scheduled (transMask : BitVec 8) (is : List (Fin 8)) : Nat := is.countP fun i : Fin 8 => transMask.getLsbD i

/-- The scheduled micro-frames before one: how many packets after the first of the iTD its packet is. -/
def rank (transMask : BitVec 8) (i : Fin 8) : Nat := scheduled transMask ((List.finRange 8).take i)

/-- The packets of each iTD. -/
def packetsPerItd (bInterval : BitVec 8) : Nat := scheduled (itdPlan bInterval).1 (List.finRange 8)

/-- A packet of a UTR. -/
def Utr.packetBuff (u : Utr) (f : Nat) : BitVec 32 := u.isoBuff (Fin.ofNat IF_PER_UTR f)

/-- The length of a packet of a UTR. -/
def Utr.packetLen (u : Utr) (f : Nat) : BitVec 16 := u.isoXlen (Fin.ofNat IF_PER_UTR f)

/-- Every scheduled micro-frame of the iTDs decodes to its packet. -/
def PagesRight (u : Utr) (l : List (BitVec 32)) (s : EhciIso) : Prop :=
  ∀ a ∈ l, ∀ i : Fin 8, (s.itd a).transMask.getLsbD i = true →
    (s.itd a).fidx + rank (s.itd a).transMask i < IF_PER_UTR ∧
    Decodes (s.itd a).toItd ((s.itd a).transaction i)
      (u.packetBuff ((s.itd a).fidx + rank (s.itd a).transMask i))
      (u.packetLen ((s.itd a).fidx + rank (s.itd a).transMask i))

/-- Every packet fits the pages from that of the first packet of its iTD on. -/
def AllFit (ep : EpInfo) (u : Utr) : Prop :=
  ∀ f < IF_PER_UTR, PacketFits ep.wMaxPacketSize
    (u.packetBuff (f / packetsPerItd ep.bInterval * packetsPerItd ep.bInterval)) (u.packetBuff f)
    (u.packetLen f)

/-- The iTDs of a request have as many packets as it. -/
theorem itdPlan_packets (bInterval : BitVec 8) :
    packetsPerItd bInterval * (itdPlan bInterval).2.1 = IF_PER_UTR := by
  unfold packetsPerItd itdPlan
  split
  · decide
  · split
    · decide
    · split
      · decide
      · split
        · decide
        · split
          · decide
          · split <;> decide

/-- The scheduled micro-frames of an iTD are one for each of its packets. -/
theorem itdPlan_rank (bInterval : BitVec 8) :
    (∀ i : Fin 8, (itdPlan bInterval).1.getLsbD i = true →
      rank (itdPlan bInterval).1 i < packetsPerItd bInterval) ∧
    ∀ r < packetsPerItd bInterval, ∃ i : Fin 8, (itdPlan bInterval).1.getLsbD i = true ∧
      rank (itdPlan bInterval).1 i = r := by
  unfold packetsPerItd itdPlan
  split
  · decide
  · split
    · decide
    · split
      · decide
      · split
        · decide
        · split
          · decide
          · split <;> decide

variable {u : Utr} {transMask : BitVec 8} {is : List (Fin 8)} {fidx : Nat} {w : Fin 8 → BitVec 32}

/-- Each scheduled micro-frame gets the next packet. -/
theorem settle_spec (hnodup : is.Nodup) (hcount : fidx + scheduled transMask is ≤ IF_PER_UTR) :
    (settle u first transMask is fidx w).1 = fidx + scheduled transMask is ∧
    (∀ i, i ∉ is → (settle u first transMask is fidx w).2 i = w i) ∧
    ∀ (pre : List (Fin 8)) (i : Fin 8) (post : List (Fin 8)), is = pre ++ i :: post →
      transMask.getLsbD i = true → IsWord first (u.packetBuff (fidx + scheduled transMask pre)) (u.packetLen (fidx + scheduled transMask pre))
        ((settle u first transMask is fidx w).2 i) := by
  induction is generalizing fidx w with
  | nil =>
    refine ⟨rfl, fun i _ => rfl, fun pre i post hsplit => ?_⟩
    cases pre <;> cases hsplit
  | cons i is ih =>
    obtain ⟨hnot, hnodup⟩ := List.nodup_cons.1 hnodup
    cases hbit : transMask.getLsbD i with
    | false =>
      have hsched : ∀ is, scheduled transMask (i :: is) = scheduled transMask is := fun is =>
        List.countP_cons_of_neg (by rw [hbit]; decide)
      have hsettle : settle u first transMask (i :: is) fidx w =
          settle u first transMask is fidx (Function.update w i 0#32) := by
        rw [settle, hbit]
        rfl
      rw [hsched] at hcount ⊢
      rw [hsettle]
      obtain ⟨hfidx, hkeep, hword⟩ := ih (w := Function.update w i 0#32) hnodup hcount
      refine ⟨hfidx, fun j hj => ?_, fun pre j post hsplit hj => ?_⟩
      · rw [List.mem_cons, not_or] at hj
        rw [hkeep j hj.2, Function.update_of_ne hj.1]
      · cases pre with
        | nil =>
          obtain ⟨rfl, -⟩ := List.cons.inj hsplit
          rw [hbit] at hj
          cases hj
        | cons i' pre =>
          obtain ⟨rfl, htail⟩ := List.cons.inj hsplit
          rw [hsched]
          exact hword pre j post htail hj
    | true =>
      have hsched : ∀ is, scheduled transMask (i :: is) = scheduled transMask is + 1 := fun is =>
        List.countP_cons_of_pos hbit
      rw [hsched] at hcount ⊢
      by_cases hlast : fidx + 1 = IF_PER_UTR
      · -- the last packet: no further micro-frame is scheduled
        have hnone : scheduled transMask is = 0 := by omega
        have hsettle : settle u first transMask (i :: is) fidx w = (fidx + 1, Function.update w i
            (writeItdMicroFrame first (u.packetBuff fidx) (u.packetLen fidx) ||| ITD_IOC)) := by
          rw [settle, hbit, if_neg (by decide), if_pos hlast]
          rfl
        rw [hsettle]
        refine ⟨by rw [hnone], fun j hj => ?_, fun pre j post hsplit hj => ?_⟩
        · rw [List.mem_cons, not_or] at hj
          exact Function.update_of_ne hj.1 ..
        · cases pre with
          | nil =>
            obtain ⟨rfl, -⟩ := List.cons.inj hsplit
            dsimp only
            rw [Function.update_self]
            exact ⟨ITD_IOC, .inr rfl, rfl⟩
          | cons i' pre =>
            obtain ⟨rfl, htail⟩ := List.cons.inj hsplit
            rw [htail, scheduled, List.countP_eq_zero] at hnone
            exact absurd hj (hnone j (List.mem_append_right _ (List.mem_cons_self ..)))
      · have hsettle : settle u first transMask (i :: is) fidx w =
            settle u first transMask is (fidx + 1) (Function.update w i
              (writeItdMicroFrame first (u.packetBuff fidx) (u.packetLen fidx))) := by
          rw [settle, hbit, if_neg (by decide), if_neg hlast]
          rfl
        rw [hsettle]
        obtain ⟨hfidx, hkeep, hword⟩ := @ih (fidx + 1) (Function.update w i
          (writeItdMicroFrame first (u.packetBuff fidx) (u.packetLen fidx))) hnodup (by omega)
        refine ⟨by rw [hfidx]; omega, fun j hj => ?_, fun pre j post hsplit hj => ?_⟩
        · rw [List.mem_cons, not_or] at hj
          rw [hkeep j hj.2, Function.update_of_ne hj.1]
        · cases pre with
          | nil =>
            obtain ⟨rfl, rfl⟩ := List.cons.inj hsplit
            rw [hkeep _ hnot, Function.update_self]
            exact ⟨0#32, .inl rfl, (BitVec.or_zero).symm⟩
          | cons i' pre =>
            obtain ⟨rfl, htail⟩ := List.cons.inj hsplit
            rw [hsched, show fidx + (scheduled transMask pre + 1) = fidx + 1 + scheduled transMask pre by omega]
            exact hword pre j post htail hj

theorem finRange_split : ∀ i : Fin 8,
    List.finRange 8 = (List.finRange 8).take i ++ i :: (List.finRange 8).drop (i + 1) := by
  decide

/-- An iTD with the packets from `fidx` on. -/
structure Filled (udev : Udev) (ep : EpInfo) (u : Utr) (transMask : BitVec 8) (fidx : Nat) (itd : ITd) :
    Prop where
  pages : itd.toItd = writeItdInfo udev ep (u.packetBuff fidx)
  first : itd.fidx = fidx
  mask : itd.transMask = transMask
  words : ∀ i : Fin 8, transMask.getLsbD i = true → IsWord (u.packetBuff fidx)
    (u.packetBuff (fidx + rank transMask i)) (u.packetLen (fidx + rank transMask i)) (itd.transaction i)

theorem fillItd_spec {frame : Nat}
    (hcount : fidx + scheduled transMask (List.finRange 8) ≤ IF_PER_UTR) :
    (fillItd udev ep u transMask fidx frame).1 = fidx + scheduled transMask (List.finRange 8) ∧
      Filled udev ep u transMask fidx (fillItd udev ep u transMask fidx frame).2 := by
  obtain ⟨hfidx, -, hwords⟩ := @settle_spec (u.packetBuff fidx) u _ _ _ (fun _ => 0#32) (List.nodup_finRange 8) hcount
  exact ⟨hfidx, rfl, rfl, rfl, fun i hi => hwords _ i _ (finRange_split i) hi⟩

/-- The loop fills the iTDs one after another. -/
theorem fillItds_spec {interval : Nat} {linked l : List (BitVec 32)} {iso : IsoEp} {s : EhciIso}
    (hnodup : l.Nodup) (hpos : 0 < scheduled transMask (List.finRange 8))
    (hcount : fidx + scheduled transMask (List.finRange 8) * l.length ≤ IF_PER_UTR) :
    ∃ s', EhciIso.fillItds udev ep u transMask interval linked l fidx iso s = (true, s') ∧
      (∀ a, a ∉ l → s'.itd a = s.itd a) ∧
      ∀ j (hj : j < l.length), Filled udev ep u transMask
        (fidx + scheduled transMask (List.finRange 8) * j) (s'.itd (l.get ⟨j, hj⟩)) := by
  induction l generalizing linked fidx iso s with
  | nil => exact ⟨s, rfl, fun a _ => rfl, fun j hj => absurd hj (Nat.not_lt_zero j)⟩
  | cons a l ih =>
    obtain ⟨hnot, hnodup⟩ := List.nodup_cons.1 hnodup
    rw [List.length_cons, Nat.mul_succ] at hcount
    have hlt : ¬ fidx ≥ IF_PER_UTR := by omega
    obtain ⟨hnext, hfilled⟩ := @fillItd_spec udev ep u _ _ iso.nextFrame
      (show fidx + scheduled transMask (List.finRange 8) ≤ IF_PER_UTR by omega)
    rw [EhciIso.fillItds, if_neg hlt]
    dsimp only
    rw [hnext]
    obtain ⟨s', hrun, hkeep, hrest⟩ := @ih (fidx + scheduled transMask (List.finRange 8)) (linked ++ [a])
      { iso with itdList := iso.itdList ++ [a], nextFrame := (iso.nextFrame + interval) % FL_SIZE }
      (s.linkItd iso a (fillItd udev ep u transMask fidx iso.nextFrame).2 interval)
      hnodup (by omega)
    refine ⟨s', hrun, fun b hb => ?_, fun j hj => ?_⟩
    · rw [List.mem_cons, not_or] at hb
      rw [hkeep b hb.2]
      exact Function.update_of_ne hb.1 ..
    · cases j with
      | zero =>
        change Filled udev ep u transMask (fidx + scheduled transMask (List.finRange 8) * 0) (s'.itd a)
        rw [Nat.mul_zero, Nat.add_zero, hkeep a hnot]
        change Filled _ _ _ _ _ (Function.update s.itd a _ a)
        rw [Function.update_self]
        exact hfilled
      | succ j =>
        have := hrest j (Nat.lt_of_succ_lt_succ hj)
        rw [Nat.add_assoc, Nat.add_comm (scheduled transMask _) (scheduled transMask _ * j),
          ← Nat.mul_succ] at this
        exact this

/-- The iTDs that a request takes are as many as it asks for, at addresses of their own. -/
theorem allocAll_itd {s s' : EhciIso} {n : Nat} {l l' : List (BitVec 32)} (hnodup : l.Nodup)
    (hused : ∀ a ∈ l, ∃ i, a = MemPool.unitAddr s.base i ∧ s.pool.unitUsed i = true)
    (h : s.allocAll .iTD n l = (some l', s')) : l'.length = n + l.length ∧ l'.Nodup := by
  induction n generalizing s l with
  | zero =>
    obtain ⟨hl, -⟩ := Prod.mk.inj h
    obtain rfl := Option.some.inj hl
    exact ⟨(Nat.zero_add _).symm, hnodup⟩
  | succ n ih =>
    rw [EhciIso.allocAll] at h
    rcases halloc : s.pool.alloc .iTD with ⟨_ | i, pool⟩
    · rw [halloc] at h
      cases (Prod.mk.inj h).1
    · rw [halloc] at h
      obtain ⟨hfree, -, -, rfl⟩ := MemPool.allocEhciITD_some halloc
      have hmem : ∀ j, s.pool.unitUsed j = true → ((s.pool.take i).take (i + 1)).unitUsed j = true := by
        intro j hj
        rw [MemPool.take_unitUsed, MemPool.take_unitUsed]
        split
        · rfl
        · split
          · rfl
          · exact hj
      have hnew : (MemPool.unitAddr s.base i :: l).Nodup := by
        refine List.nodup_cons.2 ⟨fun hin => ?_, hnodup⟩
        obtain ⟨j, heq, hj⟩ := hused _ hin
        rw [MemPool.unitAddr_injective _ heq, hj] at hfree
        cases hfree
      obtain ⟨hlen, hall⟩ := ih hnew (fun a ha => by
        rcases List.mem_cons.1 ha with rfl | ha
        · refine ⟨i, rfl, ?_⟩
          change ((s.pool.take i).take (i + 1)).unitUsed i = true
          rw [MemPool.take_unitUsed, MemPool.take_unitUsed, if_pos rfl]
          split <;> rfl
        · obtain ⟨j, rfl, hj⟩ := hused a ha
          exact ⟨j, rfl, hmem j hj⟩) h
      exact ⟨by rw [hlen, List.length_cons]; omega, hall⟩

/-- Filled iTDs decode to the packets exactly when these fit. -/
theorem pagesRight_iff {l : List (BitVec 32)} {s : EhciIso}
    (hlen : packetsPerItd ep.bInterval * l.length = IF_PER_UTR)
    (hfilled : ∀ j (hj : j < l.length), Filled udev ep u (itdPlan ep.bInterval).1
      (packetsPerItd ep.bInterval * j) (s.itd (l.get ⟨j, hj⟩))) :
    PagesRight u l s ↔ AllFit ep u := by
  obtain ⟨hrank, hexists⟩ := itdPlan_rank ep.bInterval
  have hpos : 0 < packetsPerItd ep.bInterval :=
    Nat.pos_of_ne_zero fun hzero => by rw [hzero, Nat.zero_mul] at hlen; cases hlen
  constructor
  · intro hright f hf
    have hj : f / packetsPerItd ep.bInterval < l.length := by
      rw [Nat.div_lt_iff_lt_mul hpos, Nat.mul_comm, hlen]
      exact hf
    obtain ⟨i, hbit, hr⟩ := hexists (f % packetsPerItd ep.bInterval) (Nat.mod_lt _ hpos)
    have hitd := hfilled _ hj
    have hdecodes := hright _ (List.get_mem l ⟨_, hj⟩) i (by rw [hitd.mask]; exact hbit)
    rw [hitd.mask, hitd.first, hitd.pages, hr, Nat.div_add_mod] at hdecodes
    have hword := hitd.words i hbit
    rw [hr, Nat.div_add_mod] at hword
    rw [Nat.mul_comm (f / _)]
    exact hword.decodes_iff.1 hdecodes.2
  · intro hfit a ha i hbit
    obtain ⟨j, rfl⟩ := List.get_of_mem ha
    have hitd := hfilled j j.isLt
    rw [hitd.mask] at hbit ⊢
    rw [hitd.first]
    have hr := hrank i hbit
    have hf : packetsPerItd ep.bInterval * j + rank (itdPlan ep.bInterval).1 i < IF_PER_UTR := by
      have hle : packetsPerItd ep.bInterval * (j + 1) ≤ packetsPerItd ep.bInterval * l.length :=
        Nat.mul_le_mul_left _ j.isLt
      rw [Nat.mul_succ, hlen] at hle
      omega
    refine ⟨hf, ?_⟩
    rw [hitd.pages]
    refine (hitd.words i hbit).decodes_iff.2 ?_
    have := hfit _ hf
    rw [Nat.mul_add_div hpos, Nat.div_eq_of_lt hr, Nat.add_zero, Nat.mul_comm (j : Nat)] at this
    exact this

/-- The part of high speed: its iTDs decode to the packets exactly when these fit. -/
theorem highXfer_pages_iff (s : EhciIso) (iso : IsoEp) :
    ∃ ret l u' s', s.highXfer udev ep u iso = (ret, l, u', s') ∧
      (ret = 0 → (PagesRight u l s' ↔ AllFit ep u)) ∧ (ret ≠ 0 → l = []) := by
  unfold EhciIso.highXfer
  dsimp only
  rcases halloc : s.allocAll .iTD (itdPlan ep.bInterval).2.1 [] with ⟨_ | l, s₁⟩
  · refine ⟨_, _, _, _, rfl, fun hret => ?_, fun _ => rfl⟩
    cases hret
  · obtain ⟨hlen, hnodup⟩ := allocAll_itd List.nodup_nil (fun a ha => absurd ha List.not_mem_nil) halloc
    have hpackets := itdPlan_packets ep.bInterval
    rw [List.length_nil, Nat.add_zero] at hlen
    rw [← hlen] at hpackets
    obtain ⟨s', hrun, -, hfilled⟩ := @fillItds_spec udev ep { u with tdCnt := (itdPlan ep.bInterval).2.1, isoSf := BitVec.ofNat 16 iso.nextFrame } ((itdPlan ep.bInterval).1) 0 ((itdPlan ep.bInterval).2.2) [] _ iso s₁ hnodup (Nat.pos_of_ne_zero fun hzero => by
        rw [packetsPerItd, hzero, Nat.zero_mul] at hpackets
        cases hpackets) (by rw [Nat.zero_add]; exact Nat.le_of_eq hpackets)
    dsimp only
    rw [hrun]
    refine ⟨_, _, _, _, rfl, fun _ => ?_, fun hret => absurd rfl hret⟩
    refine @pagesRight_iff udev _ _ _ _ hpackets fun j hj => ?_
    have := hfilled j hj
    rw [Nat.zero_add] at this
    exact ⟨this.pages, this.first, this.mask, this.words⟩

/-- A request of high speed returns, and the words of its iTDs decode to its packets exactly when these
fit; a request that there is no memory for has no iTDs. -/
theorem ehciIsoXfer_pages_iff (s : EhciIso) (udev : Udev) (ep : EpInfo) (u : Utr) (rounds : Nat)
    (memory : Bool) (hspeed : udev.speed ≠ .FULL) :
    ∃ ret l u' s', s.ehciIsoXfer udev ep u rounds memory = some (ret, l, u', s') ∧
      (ret = 0 → (PagesRight u l s' ↔ AllFit ep u)) ∧ (ret ≠ 0 → l = []) := by
  unfold EhciIso.ehciIsoXfer
  cases s.isoEpOf u memory with
  | none =>
    refine ⟨_, _, _, _, rfl, fun hret => ?_, fun _ => rfl⟩
    cases hret
  | some iso =>
    dsimp only
    rw [if_neg hspeed]
    obtain ⟨ret, l, u', s', hrun, hright⟩ := @highXfer_pages_iff udev ep u
      { s with isoEp := some iso } iso
    exact ⟨ret, l, u', s', congrArg some hrun, hright⟩

/-- The driver with nothing in its lists. -/
def EhciIso.unused : EhciIso where
  pool := .init
  base := 0x80800000#32
  link _ := 0#32
  itd _ := ⟨⟨fun _ => 0#32⟩, fun _ => 0#32, 0#32, 0, 0#8, 0⟩
  sitd _ := ⟨0#32, 0#32, 0#32, 0#32, 0#32, 0#32, 0, 0⟩
  pfList _ := 1#32
  isoEp := none
  ufindr := 0#32
  psen := false

/-- A device of high speed. -/
def highDevice : Udev := { allocDevice with speed := .HIGH, devNum := 1#8 }

/-- An endpoint that sends a packet of 1024 bytes in each micro-frame. -/
def microEndpoint : EpInfo := ⟨0x01#8, 0x01#8, 1#8, 1024#16⟩

/-- Packets in pages of their own, each page below the one before. -/
def downward : Utr where
  ep := .ep 0
  bmRequestType := 0#8
  setupAddr := 0#32
  buff := 0#32
  dataLen := 0#32
  xferLen := 0#32
  bIsoNewSched := true
  isoSf := 0#16
  isoXlen _ := 1024#16
  isoBuff f := 0x80010000#32 - 0x1000#32 * BitVec.ofNat 32 f
  isoStatus _ := 0
  tdCnt := 0
  status := 0
  bIsTransferDone := false
  calls := 0

theorem ehciIsoXfer_pages_iff_downward :
    ∃ ret l u' s', EhciIso.unused.ehciIsoXfer highDevice microEndpoint downward 1 true =
        some (ret, l, u', s') ∧
      (ret = 0 → (PagesRight downward l s' ↔ AllFit microEndpoint downward)) ∧ (ret ≠ 0 → l = []) :=
  ehciIsoXfer_pages_iff _ _ _ _ 1 true (by decide)

/-- The second packet is in the page below that of the first: its page select is 7. -/
theorem not_pagesRight : ¬ ∀ (s : EhciIso) udev ep u rounds memory l u' s', udev.speed ≠ .FULL →
    s.ehciIsoXfer udev ep u rounds memory = some (0, l, u', s') → PagesRight u l s' := by
  intro h
  obtain ⟨ret, l, u', s', hrun, hright, -⟩ := @highXfer_pages_iff highDevice microEndpoint downward { EhciIso.unused with isoEp := some ⟨2, [], []⟩ } ⟨2, [], []⟩
  have hret : ret = 0 := by
    refine (congrArg Prod.fst hrun).symm.trans ?_
    decide +kernel
  subst hret
  have hall := (hright rfl).1 (h EhciIso.unused highDevice microEndpoint downward 1 true l u' s' (by decide)
    (congrArg some hrun))
  obtain ⟨-, ⟨hup, -⟩ | ⟨hup, -⟩⟩ := hall 1 (by decide)
  · exact absurd hup (by decide)
  · exact absurd hup (by decide)

end NumakerMA35D1.UsbHost

import Mathlib.Logic.Function.Basic
import Mathlib.Tactic.IntervalCases
import NumakerMA35D1.Lib.BitField

/-!
# The clocks of the modules

A module's word says where its clock source and its divider are: a register, a mask and a position each.
`CLK_SetModuleClock` writes the two fields, `CLK_GetModuleClockSource` and `CLK_GetModuleClockDivider` read
them. The setter touches nothing else; what is set is read back if and only if the word has the fields, and
the divider is not in `CLKDIV2`, where the getter's table has `CLKDIV3` (`moduleClock_iff`). The words of
most modules have no fields, and nothing is set for them.

Reference: `nu_clk.c`, `nu_clk.h:340`.
-/

namespace NumakerMA35D1.Clk

open Embedded

/-! ## The words of the modules -/

/-- Reference: `nu_clk.h:343 MODULE_CLKSEL`. -/
def MODULE_CLKSEL (x : BitVec 32) : BitVec 32 := (x >>> 26) &&& 0x7#32

/-- Reference: `nu_clk.h:344 MODULE_CLKSEL_Msk`. -/
def MODULE_CLKSEL_Msk (x : BitVec 32) : BitVec 32 := (x >>> 22) &&& 0xf#32

/-- Reference: `nu_clk.h:345 MODULE_CLKSEL_Pos`. -/
def MODULE_CLKSEL_Pos (x : BitVec 32) : BitVec 32 := (x >>> 17) &&& 0x1f#32

/-- Reference: `nu_clk.h:346 MODULE_CLKDIV`. -/
def MODULE_CLKDIV (x : BitVec 32) : BitVec 32 := (x >>> 14) &&& 0x7#32

/-- Reference: `nu_clk.h:347 MODULE_CLKDIV_Msk`. -/
def MODULE_CLKDIV_Msk (x : BitVec 32) : BitVec 32 := (x >>> 10) &&& 0xf#32

/-- Reference: `nu_clk.h:348 MODULE_CLKDIV_Pos`. -/
def MODULE_CLKDIV_Pos (x : BitVec 32) : BitVec 32 := (x >>> 5) &&& 0x1f#32

/-- Reference: `nu_clk.h:350 MODULE_NoMsk`. -/
def MODULE_NoMsk : BitVec 32 := 0#32

/-- Reference: `nu_clk.h:446 KPI_MODULE`. -/
def KPI_MODULE : BitVec 32 := 2#32 <<< 29 ||| 31#32

/-- Reference: `nu_clk.h:477 ADC_MODULE`. -/
def ADC_MODULE : BitVec 32 := 4#32 <<< 29 ||| 24#32

/-- Reference: `nu_clk.h:427 UART0_MODULE`. -/
def UART0_MODULE : BitVec 32 := 2#32 <<< 29 ||| 12#32

/-- Reference: `nu_clk.h:413 CCAP0_MODULE`. -/
def CCAP0_MODULE : BitVec 32 :=
  0x3#32 <<< 22 ||| 12#32 <<< 17 ||| 1#32 <<< 14 ||| 0xf#32 <<< 10 ||| 8#32 <<< 5 ||| 29#32

/-! ## The registers -/

/-- The registers of the clock controller, by their offsets. Reference: `clk_reg.h:1738 CLK_T`. -/
abbrev ClkRegs := Nat → BitVec 32

/-- Reference: `clk_reg.h:1741 APBCLK0`. -/
abbrev APBCLK0 : Nat := 0x0c

/-- Reference: `clk_reg.h:1743 APBCLK2`. -/
abbrev APBCLK2 : Nat := 0x14

/-- Reference: `clk_reg.h:1744 CLKSEL0`. -/
abbrev CLKSEL0 : Nat := 0x18

/-- Reference: `clk_reg.h:1748 CLKSEL4`. -/
abbrev CLKSEL4 : Nat := 0x28

/-- Reference: `clk_reg.h:1749 CLKDIV0`. -/
abbrev CLKDIV0 : Nat := 0x2c

/-- Reference: `clk_reg.h:1752 CLKDIV3`. -/
abbrev CLKDIV3 : Nat := 0x38

/-- Reference: `clk_reg.h:1753 CLKDIV4`. -/
abbrev CLKDIV4 : Nat := 0x3c

/-- Reference: `clk_reg.h:2354 CLK_CLKSEL4_KPISEL_Msk`. -/
def CLK_CLKSEL4_KPISEL_Msk : BitVec 32 := 0x1#32 <<< 30

/-- Reference: `clk_reg.h:2450 CLK_CLKDIV4_KPIDIV_Msk`. -/
def CLK_CLKDIV4_KPIDIV_Msk : BitVec 32 := 0xff#32 <<< 24

/-- Reference: `clk_reg.h:2447 CLK_CLKDIV4_ADCDIV_Msk`. -/
def CLK_CLKDIV4_ADCDIV_Msk : BitVec 32 := 0x1ffff#32 <<< 4

/-- Reference: `clk_reg.h:2069 CLK_APBCLK0_KPICKEN_Msk`. -/
def CLK_APBCLK0_KPICKEN_Msk : BitVec 32 := 0x1#32 <<< 31

/-- Reference: `clk_reg.h:2162 CLK_APBCLK2_ADCCKEN_Msk`. -/
def CLK_APBCLK2_ADCCKEN_Msk : BitVec 32 := 0x1#32 <<< 24

/-- A register cleared under a mask and a value put in. -/
def ClkRegs.replace (r : ClkRegs) (off : Nat) (msk value : BitVec 32) : ClkRegs :=
  Function.update r off ((r off &&& ~~~msk) ||| value)

/-! ## The functions -/

/-- Reference: `nu_clk.c:463 CLK_SetModuleClock`. -/
def clkSetModuleClock (r : ClkRegs) (u32ModuleIdx u32ClkSrc u32ClkDiv : BitVec 32) : ClkRegs :=
  if u32ModuleIdx = KPI_MODULE then
    ((r.replace CLKDIV4 CLK_CLKDIV4_KPIDIV_Msk u32ClkDiv).replace CLKSEL4 CLK_CLKSEL4_KPISEL_Msk
      u32ClkSrc).replace APBCLK0 CLK_APBCLK0_KPICKEN_Msk CLK_APBCLK0_KPICKEN_Msk
  else if u32ModuleIdx = ADC_MODULE then
    (r.replace CLKDIV4 CLK_CLKDIV4_ADCDIV_Msk u32ClkDiv).replace APBCLK2 CLK_APBCLK2_ADCCKEN_Msk
      CLK_APBCLK2_ADCCKEN_Msk
  else
    let r :=
      if MODULE_CLKDIV_Msk u32ModuleIdx ≠ MODULE_NoMsk then
        r.replace (CLKDIV0 + (MODULE_CLKDIV u32ModuleIdx).toNat * 4)
          (MODULE_CLKDIV_Msk u32ModuleIdx <<< (MODULE_CLKDIV_Pos u32ModuleIdx).toNat) u32ClkDiv
      else r
    if MODULE_CLKSEL_Msk u32ModuleIdx ≠ MODULE_NoMsk then
      r.replace (CLKSEL0 + (MODULE_CLKSEL u32ModuleIdx).toNat * 4)
        (MODULE_CLKSEL_Msk u32ModuleIdx <<< (MODULE_CLKSEL_Pos u32ModuleIdx).toNat) u32ClkSrc
    else r

/-- `none` where the table is left. Reference: `nu_clk.c:1585 CLK_GetModuleClockSource`. -/
def clkGetModuleClockSource (r : ClkRegs) (u32ModuleIdx : BitVec 32) : Option (BitVec 32) :=
  if MODULE_CLKSEL_Msk u32ModuleIdx ≠ MODULE_NoMsk then
    ([0x0, 0x4, 0x8, 0xc, 0x10][(MODULE_CLKSEL u32ModuleIdx).toNat]?).map fun off =>
      (r (CLKSEL0 + off) &&& MODULE_CLKSEL_Msk u32ModuleIdx <<< (MODULE_CLKSEL_Pos u32ModuleIdx).toNat)
        >>> (MODULE_CLKSEL_Pos u32ModuleIdx).toNat
  else some 0#32

/-- `none` where the table is left. Reference: `nu_clk.c:1725 CLK_GetModuleClockDivider`. -/
def clkGetModuleClockDivider (r : ClkRegs) (u32ModuleIdx : BitVec 32) : Option (BitVec 32) :=
  if MODULE_CLKDIV_Msk u32ModuleIdx ≠ MODULE_NoMsk then
    if u32ModuleIdx = KPI_MODULE then some ((r CLKDIV4 &&& CLK_CLKDIV4_KPIDIV_Msk) >>> 24)
    else if u32ModuleIdx = ADC_MODULE then some ((r CLKDIV4 &&& CLK_CLKDIV4_ADCDIV_Msk) >>> 4)
    else
      ([0x0, 0x4, 0xc, 0xc, 0x10][(MODULE_CLKDIV u32ModuleIdx).toNat]?).map fun off =>
        (r (CLKDIV0 + off) &&& MODULE_CLKDIV_Msk u32ModuleIdx <<< (MODULE_CLKDIV_Pos u32ModuleIdx).toNat)
          >>> (MODULE_CLKDIV_Pos u32ModuleIdx).toNat
  else some 0#32

/-! ## Specification -/

/-- A field that a module has: the register's offset, the position, and the mask in place. -/
structure OwnField where
  off : Nat
  pos : Nat
  msk : BitVec 32

/-- The field of a word's parts. -/
def OwnField.coded (base : Nat) (idx msk pos : BitVec 32) : OwnField where
  off := base + idx.toNat * 4
  pos := pos.toNat
  msk := msk <<< pos.toNat

/-- The field that selects a module's source. Reference: `nu_clk.h:340`, `clk_reg.h:993 KPISEL`. -/
def selField (w : BitVec 32) : Option OwnField :=
  if w = KPI_MODULE then some ⟨CLKSEL4, 30, CLK_CLKSEL4_KPISEL_Msk⟩
  else if MODULE_CLKSEL_Msk w ≠ MODULE_NoMsk then
    some (.coded CLKSEL0 (MODULE_CLKSEL w) (MODULE_CLKSEL_Msk w) (MODULE_CLKSEL_Pos w))
  else none

/-- The field of a module's divider. Reference: `nu_clk.h:340`, `clk_reg.h:1114 KPIDIV`, `clk_reg.h:2446
CLK_CLKDIV4_ADCDIV_Pos`. -/
def divField (w : BitVec 32) : Option OwnField :=
  if w = KPI_MODULE then some ⟨CLKDIV4, 24, CLK_CLKDIV4_KPIDIV_Msk⟩
  else if w = ADC_MODULE then some ⟨CLKDIV4, 4, CLK_CLKDIV4_ADCDIV_Msk⟩
  else if MODULE_CLKDIV_Msk w ≠ MODULE_NoMsk then
    some (.coded CLKDIV0 (MODULE_CLKDIV w) (MODULE_CLKDIV_Msk w) (MODULE_CLKDIV_Pos w))
  else none

/-- The fields of a word are in the registers `CLKSEL0` to `CLKSEL4` and `CLKDIV0` to `CLKDIV4`. Reference:
`nu_clk.h:343 MODULE_CLKSEL`, `nu_clk.h:346 MODULE_CLKDIV`. -/
structure ModuleWord (w : BitVec 32) : Prop where
  sel : MODULE_CLKSEL_Msk w ≠ MODULE_NoMsk → (MODULE_CLKSEL w).toNat ≤ 4
  div : MODULE_CLKDIV_Msk w ≠ MODULE_NoMsk → (MODULE_CLKDIV w).toNat ≤ 4

/-- A value for a field, in place: it has no bit outside of it. -/
def Fits (field : Option OwnField) (value : BitVec 32) : Prop :=
  ∀ f, field = some f → value &&& ~~~f.msk = 0#32

/-- What a getter returns, moved into the place of a field. -/
def inPlace (field : Option OwnField) (value : BitVec 32) : BitVec 32 :=
  match field with
  | some f => value <<< f.pos
  | none => value

/-- The bits of a register that a field takes. -/
def bitsAt (off : Nat) : Option OwnField → BitVec 32
  | some f => if off = f.off then f.msk else 0#32
  | none => 0#32

/-- The bits of a register that are a module's. -/
def ownBits (w : BitVec 32) (off : Nat) : BitVec 32 := bitsAt off (selField w) ||| bitsAt off (divField w)

/-- What is set is read back, moved into place, and the registers keep what is not the module's. -/
structure SetGet (r : ClkRegs) (w src div : BitVec 32) : Prop where
  source : (clkGetModuleClockSource (clkSetModuleClock r w src div) w).map (inPlace (selField w)) = some src
  divider : (clkGetModuleClockDivider (clkSetModuleClock r w src div) w).map (inPlace (divField w)) = some div
  rest : ∀ off, CLKSEL0 ≤ off → off ≤ CLKDIV4 →
    clkSetModuleClock r w src div off &&& ~~~ownBits w off = r off &&& ~~~ownBits w off

/-! ## What the setter does -/

section

variable {r : ClkRegs} {w src div msk value : BitVec 32} {off off' : Nat} {f : OwnField}
  {field : Option OwnField}

theorem replace_self (r : ClkRegs) (off : Nat) (msk value : BitVec 32) :
    r.replace off msk value off = (r off &&& ~~~msk) ||| value :=
  Function.update_self ..

theorem replace_of_ne (h : off' ≠ off) : r.replace off msk value off' = r off' :=
  Function.update_of_ne h ..

/-- A register with a field of a module written, if the module has the field. -/
def ClkRegs.put (r : ClkRegs) (field : Option OwnField) (value : BitVec 32) : ClkRegs :=
  match field with
  | some f => r.replace f.off f.msk value
  | none => r

/-- In the registers of the sources and the dividers the setter writes the two fields. -/
theorem clkSetModuleClock_apply (hlow : CLKSEL0 ≤ off) :
    clkSetModuleClock r w src div off = ((r.put (divField w) div).put (selField w) src) off := by
  have hlow : 0x18 ≤ off := hlow
  have hapb0 : off ≠ 0x0c := by omega
  have hapb2 : off ≠ 0x14 := by omega
  rw [clkSetModuleClock, divField, selField]
  by_cases hkpi : w = KPI_MODULE
  · rw [if_pos hkpi, if_pos hkpi, if_pos hkpi]
    exact replace_of_ne hapb0
  · rw [if_neg hkpi, if_neg hkpi, if_neg hkpi]
    by_cases hadc : w = ADC_MODULE
    · have hsel : ¬ MODULE_CLKSEL_Msk w ≠ MODULE_NoMsk := by
        rw [hadc]
        decide
      rw [if_pos hadc, if_pos hadc, if_neg hsel]
      exact replace_of_ne hapb2
    · rw [if_neg hadc, if_neg hadc]
      by_cases hsel : MODULE_CLKSEL_Msk w ≠ MODULE_NoMsk
      · by_cases hdiv : MODULE_CLKDIV_Msk w ≠ MODULE_NoMsk
        · simp only [if_pos hsel, if_pos hdiv]
          rfl
        · simp only [if_pos hsel, if_neg hdiv]
          rfl
      · by_cases hdiv : MODULE_CLKDIV_Msk w ≠ MODULE_NoMsk
        · simp only [if_neg hsel, if_pos hdiv]
          rfl
        · simp only [if_neg hsel, if_neg hdiv]
          rfl

theorem put_self (h : field = some f) :
    r.put field value f.off = (r f.off &&& ~~~f.msk) ||| value := by
  rw [h]
  exact replace_self ..

theorem put_of_ne (h : ∀ f, field = some f → off ≠ f.off) : r.put field value off = r off := by
  cases field with
  | none => rfl
  | some f => exact replace_of_ne (h f rfl)

/-- A field that is put leaves the bits that are not its own. -/
theorem put_and_not (h : Fits field value) (r : ClkRegs) (off : Nat) :
    r.put field value off &&& ~~~bitsAt off field = r off &&& ~~~bitsAt off field := by
  cases field with
  | none => rfl
  | some f =>
    rw [bitsAt]
    by_cases hoff : off = f.off
    · rw [if_pos hoff, hoff, put_self rfl]
      exact replace_and_not _ (h f rfl)
    · rw [if_neg hoff, put_of_ne (fun g hg => Option.some.inj hg ▸ hoff)]

/-! ## The fields -/

/-- The source's field is in a select register. -/
theorem selField_off (hw : ModuleWord w) (h : selField w = some f) : 0x18 ≤ f.off ∧ f.off ≤ 0x28 := by
  rw [selField] at h
  split at h
  · cases h
    exact ⟨by decide, by decide⟩
  · split at h
    · rename_i hmsk
      cases h
      have hidx := hw.sel hmsk
      show 0x18 ≤ 0x18 + (MODULE_CLKSEL w).toNat * 4 ∧ 0x18 + (MODULE_CLKSEL w).toNat * 4 ≤ 0x28
      omega
    · cases h

/-- The divider's field is in a divider register. -/
theorem divField_off (hw : ModuleWord w) (h : divField w = some f) : 0x2c ≤ f.off ∧ f.off ≤ 0x3c := by
  rw [divField] at h
  split at h
  · cases h
    exact ⟨by decide, by decide⟩
  · split at h
    · cases h
      exact ⟨by decide, by decide⟩
    · split at h
      · rename_i hmsk
        cases h
        have hidx := hw.div hmsk
        show 0x2c ≤ 0x2c + (MODULE_CLKDIV w).toNat * 4 ∧ 0x2c + (MODULE_CLKDIV w).toNat * 4 ≤ 0x3c
        omega
      · cases h

/-- A word with a mask for the source has the field that it codes. -/
theorem selField_coded (h : MODULE_CLKSEL_Msk w ≠ MODULE_NoMsk) :
    selField w = some (.coded CLKSEL0 (MODULE_CLKSEL w) (MODULE_CLKSEL_Msk w) (MODULE_CLKSEL_Pos w)) := by
  have hkpi : w ≠ KPI_MODULE := by
    rintro rfl
    exact h (by decide)
  rw [selField, if_neg hkpi, if_pos h]

/-- A word with a mask for the divider is not one of the two that are set by name. -/
theorem ne_of_clkdiv_msk (h : MODULE_CLKDIV_Msk w ≠ MODULE_NoMsk) : w ≠ KPI_MODULE ∧ w ≠ ADC_MODULE := by
  constructor
  · rintro rfl
    exact h (by decide)
  · rintro rfl
    exact h (by decide)

theorem divField_coded (h : MODULE_CLKDIV_Msk w ≠ MODULE_NoMsk) :
    divField w = some (.coded CLKDIV0 (MODULE_CLKDIV w) (MODULE_CLKDIV_Msk w) (MODULE_CLKDIV_Pos w)) := by
  obtain ⟨hkpi, hadc⟩ := ne_of_clkdiv_msk h
  rw [divField, if_neg hkpi, if_neg hadc, if_pos h]

theorem inPlace_zero (field : Option OwnField) : inPlace field 0#32 = 0#32 := by
  cases field with
  | none => rfl
  | some f => exact BitVec.zero_shiftLeft _

/-- The register of the source's field holds the source. -/
theorem set_sel (hw : ModuleWord w) (hfit : Fits (selField w) src) (hf : selField w = some f) :
    clkSetModuleClock r w src div f.off &&& f.msk = src := by
  rw [clkSetModuleClock_apply (selField_off hw hf).1, put_self hf]
  exact replace_and _ (hfit f hf)

/-- A divider register that is not that of the divider's field is kept. -/
theorem set_div_other (hw : ModuleWord w) (hlow : 0x2c ≤ off)
    (hother : ∀ f, divField w = some f → off ≠ f.off) : clkSetModuleClock r w src div off = r off := by
  have hsel : ∀ f, selField w = some f → off ≠ f.off := by
    intro f hf
    have hle := (selField_off hw hf).2
    omega
  have hlow' : 0x18 ≤ off := by omega
  rw [clkSetModuleClock_apply hlow', put_of_ne hsel, put_of_ne hother]

/-- The register of the divider's field holds the divider. -/
theorem set_div (hw : ModuleWord w) (hfit : Fits (divField w) div) (hf : divField w = some f) :
    clkSetModuleClock r w src div f.off &&& f.msk = div := by
  have hge := (divField_off hw hf).1
  have hsel : ∀ g, selField w = some g → f.off ≠ g.off := by
    intro g hg
    have hle := (selField_off hw hg).2
    omega
  have hlow : 0x18 ≤ f.off := by omega
  rw [clkSetModuleClock_apply hlow, put_of_ne hsel, put_self hf]
  exact replace_and _ (hfit f hf)

/-! ## What the getters read -/

/-- The table of the select registers. -/
theorem selTbl {n : Nat} (h : n ≤ 4) : [0x0, 0x4, 0x8, 0xc, 0x10][n]? = some (n * 4) := by
  interval_cases n <;> rfl

/-- The table of the divider registers has `CLKDIV3` for `CLKDIV2`. -/
theorem divTbl {n : Nat} (h : n ≤ 4) :
    [0x0, 0x4, 0xc, 0xc, 0x10][n]? = some (if n = 2 then 0xc else n * 4) := by
  interval_cases n <;> rfl

/-- The source is read back if and only if the word has a field for it. -/
theorem source_iff (hw : ModuleWord w) (hfit : Fits (selField w) src) :
    (clkGetModuleClockSource (clkSetModuleClock r w src div) w).map (inPlace (selField w)) = some src ↔
      (MODULE_CLKSEL_Msk w = MODULE_NoMsk → src = 0#32) := by
  rw [clkGetModuleClockSource]
  by_cases hmsk : MODULE_CLKSEL_Msk w = MODULE_NoMsk
  · rw [if_neg (not_not.2 hmsk), Option.map_some, inPlace_zero, Option.some_inj]
    exact ⟨fun h _ => h.symm, fun h => (h hmsk).symm⟩
  · have hf := selField_coded hmsk
    have hread : clkSetModuleClock r w src div _ &&& _ = src := set_sel hw hfit hf
    refine iff_of_true ?_ (fun h => absurd h hmsk)
    rw [if_pos hmsk, selTbl (hw.sel hmsk), Option.map_some, Option.map_some, Option.some_inj, hf]
    exact (and_shiftRight_shiftLeft _ _ _).trans hread

/-- The divider is read back if and only if the word has a field for it and, where that is in `CLKDIV2`,
`CLKDIV3` has the same. -/
theorem divider_iff (hw : ModuleWord w) (hfit : Fits (divField w) div) :
    (clkGetModuleClockDivider (clkSetModuleClock r w src div) w).map (inPlace (divField w)) = some div ↔
      (MODULE_CLKDIV_Msk w = MODULE_NoMsk → div = 0#32) ∧
        (MODULE_CLKDIV_Msk w ≠ MODULE_NoMsk → (MODULE_CLKDIV w).toNat = 2 →
          r CLKDIV3 &&& MODULE_CLKDIV_Msk w <<< (MODULE_CLKDIV_Pos w).toNat = div) := by
  rw [clkGetModuleClockDivider]
  by_cases hmsk : MODULE_CLKDIV_Msk w = MODULE_NoMsk
  · rw [if_neg (not_not.2 hmsk), Option.map_some, inPlace_zero, Option.some_inj]
    exact ⟨fun h => ⟨fun _ => h.symm, fun hne => absurd hmsk hne⟩, fun h => (h.1 hmsk).symm⟩
  · obtain ⟨hkpi, hadc⟩ := ne_of_clkdiv_msk hmsk
    have hf := divField_coded hmsk
    rw [if_pos hmsk, if_neg hkpi, if_neg hadc, divTbl (hw.div hmsk), Option.map_some, Option.map_some,
      Option.some_inj, hf]
    by_cases htwo : (MODULE_CLKDIV w).toNat = 2
    · have hother : ∀ f, divField w = some f → 0x38 ≠ f.off := by
        intro f hg
        rw [hf] at hg
        cases hg
        show 0x38 ≠ 0x2c + (MODULE_CLKDIV w).toNat * 4
        omega
      have hkept : clkSetModuleClock r w src div 0x38 = r 0x38 := set_div_other hw (by decide) hother
      rw [if_pos htwo]
      show ((clkSetModuleClock r w src div 0x38 &&&
        MODULE_CLKDIV_Msk w <<< (MODULE_CLKDIV_Pos w).toNat) >>> (MODULE_CLKDIV_Pos w).toNat) <<<
          (MODULE_CLKDIV_Pos w).toNat = div ↔ _
      rw [hkept, and_shiftRight_shiftLeft]
      exact ⟨fun h => ⟨fun h0 => absurd h0 hmsk, fun _ _ => h⟩, fun h => h.2 hmsk htwo⟩
    · have hread : clkSetModuleClock r w src div _ &&& _ = div := set_div hw hfit hf
      refine iff_of_true ?_ ⟨fun h => absurd h hmsk, fun _ h => absurd h htwo⟩
      rw [if_neg htwo]
      exact (and_shiftRight_shiftLeft _ _ _).trans hread

/-- Bits that are not a module's are kept. -/
theorem set_rest (hsrc : Fits (selField w) src) (hdiv : Fits (divField w) div) (hlow : CLKSEL0 ≤ off) :
    clkSetModuleClock r w src div off &&& ~~~ownBits w off = r off &&& ~~~ownBits w off := by
  have hsplit : ∀ x a b : BitVec 32, x &&& ~~~(a ||| b) = x &&& ~~~a &&& ~~~b := by
    intro x a b
    rw [BitVec.not_or, BitVec.and_assoc]
  have hswap : ∀ x a b : BitVec 32, x &&& ~~~a &&& ~~~b = x &&& ~~~b &&& ~~~a := by
    intro x a b
    rw [BitVec.and_assoc, BitVec.and_comm (~~~a), ← BitVec.and_assoc]
  rw [clkSetModuleClock_apply hlow, ownBits, hsplit, hsplit, put_and_not hsrc, hswap, put_and_not hdiv,
    hswap]

/-- What is set of a module is read back, and nothing else changes, if and only if the word has a field for
what is set, and `CLKDIV3` has the divider where the field is in `CLKDIV2`. Reference: `nu_clk.c:463
CLK_SetModuleClock`, `nu_clk.c:1585 CLK_GetModuleClockSource`, `nu_clk.c:1725 CLK_GetModuleClockDivider`. -/
theorem moduleClock_iff (r : ClkRegs) (w src div : BitVec 32) (hw : ModuleWord w)
    (hsrc : Fits (selField w) src) (hdiv : Fits (divField w) div) :
    SetGet r w src div ↔
      (MODULE_CLKSEL_Msk w = MODULE_NoMsk → src = 0#32) ∧
        (MODULE_CLKDIV_Msk w = MODULE_NoMsk → div = 0#32) ∧
        (MODULE_CLKDIV_Msk w ≠ MODULE_NoMsk → (MODULE_CLKDIV w).toNat = 2 →
          r CLKDIV3 &&& MODULE_CLKDIV_Msk w <<< (MODULE_CLKDIV_Pos w).toNat = div) := by
  refine ⟨fun h => ⟨(source_iff hw hsrc).1 h.source, (divider_iff hw hdiv).1 h.divider⟩, ?_⟩
  intro h
  exact ⟨(source_iff hw hsrc).2 h.1, (divider_iff hw hdiv).2 h.2, fun off hlow _ =>
    set_rest hsrc hdiv hlow⟩

theorem Fits.of_eq (h : field = some f) (hv : value &&& ~~~f.msk = 0#32) : Fits field value := by
  intro g hg
  rw [h] at hg
  cases hg
  exact hv

theorem Fits.none (h : field = none) : Fits field value := by
  intro g hg
  rw [h] at hg
  cases hg

end

/-- The first camera on the system clock's half, divided by three. -/
theorem moduleClock_iff_ccap0 :
    SetGet (fun _ => 0#32) CCAP0_MODULE (1#32 <<< 12) (2#32 <<< 8) ↔
      (MODULE_CLKSEL_Msk CCAP0_MODULE = MODULE_NoMsk → 1#32 <<< 12 = 0#32) ∧
        (MODULE_CLKDIV_Msk CCAP0_MODULE = MODULE_NoMsk → 2#32 <<< 8 = 0#32) ∧
        (MODULE_CLKDIV_Msk CCAP0_MODULE ≠ MODULE_NoMsk → (MODULE_CLKDIV CCAP0_MODULE).toNat = 2 →
          0#32 &&& MODULE_CLKDIV_Msk CCAP0_MODULE <<< (MODULE_CLKDIV_Pos CCAP0_MODULE).toNat = 2#32 <<< 8) :=
  moduleClock_iff (fun _ => 0#32) CCAP0_MODULE (1#32 <<< 12) (2#32 <<< 8)
    ⟨fun _ => by decide, fun _ => by decide⟩ (.of_eq (selField_coded (by decide)) (by decide))
    (.of_eq (divField_coded (by decide)) (by decide))

/-- UART0's source is set to half the system clock, and read back as the crystal. -/
theorem not_setGet_uart0 : ¬ SetGet (fun _ => 0#32) UART0_MODULE (1#32 <<< 16) 0#32 := by
  have hw : ModuleWord UART0_MODULE := ⟨fun _ => by decide, fun _ => by decide⟩
  intro h
  have hsource := (source_iff hw (Fits.none (by decide))).1 h.source
  exact absurd (hsource (by decide)) (by decide)

end NumakerMA35D1.Clk

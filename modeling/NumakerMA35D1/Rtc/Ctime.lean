import Mathlib

/-!
# Broken-down time

`gmtimeR` breaks the seconds since 1970 down and `timegm` puts them together again. In the years 1970
to 2099 `timegm` gives back what `gmtimeR` was given (`gmtimeR_spec`, `timegm_of_brokenDown`), and looks at the six fields
of date and time only (`timegm_congr`).
-/

namespace NumakerMA35D1.Rtc

/-- The fields of `struct tm`; `tm_isdst`, which nothing reads, is left out. -/
structure Tm where
  tm_sec : Int
  tm_min : Int
  tm_hour : Int
  tm_mday : Int
  tm_mon : Int
  tm_year : Int
  tm_wday : Int
  tm_yday : Int
deriving DecidableEq, Repr, Inhabited

/-- Seconds of a day. Reference: `ctime.c:43 SPD`. -/
def SPD : Int := 24 * 60 * 60

/-- The days of a year without a leap day before each month. Reference: `ctime.c:46 __spm`. -/
def spm : List Int := [0, 31, 59, 90, 120, 151, 181, 212, 243, 273, 304, 334, 365]

/-- An entry of the table. -/
def spmAt (i : Int) : Option Int := if 0 ≤ i then spm[i.toNat]? else none

/-- Reference: `ctime.c:66 __isleap`. -/
def isleap (year : Int) : Bool := year.tmod 4 = 0 ∧ (year.tmod 100 ≠ 0 ∨ year.tmod 400 = 0)

/-- The days of a year. Reference: `ctime.c:193 gmtime_r`. -/
def yearDays (i : Int) : Int := if isleap i then 366 else 365

theorem yearDays_pos (i : Int) : 0 < yearDays i := by
  rw [yearDays]
  split <;> decide

/-- The year in which the days run out, and the days left in it. Reference: `ctime.c:191
gmtime_r`. -/
def gmtimeYear (i work : Int) : Int × Int :=
  if work ≥ yearDays i then gmtimeYear (i + 1) (work - yearDays i) else (i, work)
termination_by work.toNat
decreasing_by
  have := yearDays_pos i
  omega

/-- The last month from `i` down that begins by the day `work`. Reference: `ctime.c:210
gmtime_r`. -/
def gmtimeMon : Nat → Int → Nat
  | 0, _ => 0
  | i + 1, work => if spm.getD (i + 1) 0 > work then gmtimeMon i work else i + 1

/-- The month and the day of the month of a day of a year. Reference: `ctime.c:203 gmtime_r`. -/
def monthDay (leap : Bool) (work : Int) : Int × Int :=
  let (tm_mday, work) :=
    if leap ∧ work > 58 then (if work = 59 then 2 else 1, work - 1) else (1, work)
  let i := gmtimeMon 11 work
  (i, tm_mday + (work - spm.getD i 0))

/-- Reference: `ctime.c:172 gmtime_r`. -/
def gmtimeR (timep : Int) : Tm :=
  let work := timep.tmod SPD
  let tm_sec := work.tmod 60
  let work := work.tdiv 60
  let days := timep.tdiv SPD
  let (i, yday) := gmtimeYear 1970 days
  let (tm_mon, tm_mday) := monthDay (isleap i) yday
  { tm_sec, tm_min := work.tmod 60, tm_hour := work.tdiv 60, tm_mday, tm_mon
    tm_year := i - 1900, tm_wday := (4 + days).tmod 7, tm_yday := yday }

theorem spmAt_bounds {i v : Int} (h : spmAt i = some v) :
    0 ≤ i ∧ i ≤ 12 ∧ (i = 0 → v = 0) ∧ (i ≠ 0 → 31 ≤ v) := by
  rw [spmAt] at h
  split at h
  swap
  · cases h
  next hpos =>
  obtain ⟨k, rfl⟩ := Int.eq_ofNat_of_zero_le hpos
  have hlt : k < spm.length := (List.getElem?_eq_some_iff.1 h).1
  have hall : ∀ k < spm.length, ∀ v ∈ spm[k]?, (k = 0 → v = 0) ∧ (k ≠ 0 → 31 ≤ v) := by decide
  obtain ⟨hzero, hne⟩ := hall k hlt v h
  have hlen : k < 13 := hlt
  exact ⟨hpos, by omega, fun hk => hzero (by omega), fun hk => hne (by omega)⟩

/-- The months moved over while the day is past the end of one; `none` where the table is read
outside. Reference: `ctime.c:428 timegm`. -/
def timegmMonths (tm_year tm_mon tm_mday : Int) : Option (Int × Int × Int) :=
  match h : spmAt (1 + tm_mon), h' : spmAt tm_mon with
  | some bound, some before =>
    if tm_mday > bound then
      let tm_mday :=
        if tm_mon = 1 ∧ isleap (tm_year + 1900) then tm_mday - 1 - before else tm_mday - before
      if tm_mon + 1 > 11 then timegmMonths (tm_year + 1) 0 tm_mday
      else timegmMonths tm_year (tm_mon + 1) tm_mday
    else some (tm_year, tm_mon, tm_mday)
  | _, _ => none
termination_by 2 * tm_mday.toNat + if tm_mon = 0 then 1 else 0
decreasing_by
  all_goals
    have hbound := spmAt_bounds h
    have hbefore := spmAt_bounds h'
    split_ifs <;> omega

/-- The days since 1970 of the first day of a year that is `years` after it. Reference: `ctime.c:449
timegm`. -/
def timegmDays (years : Int) : Int :=
  let day := years * 365 + (years + 1).tdiv 4
  if years ≥ 131 then
    let years := (years - 131).tdiv 100
    let day := day - ((years / 4) * 3 + 1)
    let years := years % 4
    let years := if years = 3 then years - 1 else years
    day - years
  else day

/-- `none` stands for a read outside the table of months; -1 for a year before 1970. Reference:
`ctime.c:395 timegm`. -/
def timegm (t : Tm) : Option Int :=
  let years := t.tm_year - 70
  let (tm_sec, tm_min) :=
    if t.tm_sec > 60 then (t.tm_sec.tmod 60, t.tm_min + t.tm_sec.tdiv 60) else (t.tm_sec, t.tm_min)
  let (tm_min, tm_hour) :=
    if tm_min ≥ 60 then (tm_min.tmod 60, t.tm_hour + tm_min.tdiv 60) else (tm_min, t.tm_hour)
  let (tm_hour, tm_mday) :=
    if tm_hour ≥ 24 then (tm_hour.tmod 24, t.tm_mday + tm_hour.tdiv 24) else (tm_hour, t.tm_mday)
  let (tm_mon, tm_year) :=
    if t.tm_mon ≥ 12 then (t.tm_mon.tmod 12, t.tm_year + t.tm_mon.tdiv 12)
    else (t.tm_mon, t.tm_year)
  match timegmMonths tm_year tm_mon tm_mday with
  | none => none
  | some (tm_year, tm_mon, tm_mday) =>
    if tm_year < 70 then some (-1)
    else
      match spmAt tm_mon with
      | none => none
      | some before =>
        let tm_yday :=
          before + tm_mday - 1 + if isleap (tm_year + 1900) ∧ tm_mon > 1 then 1 else 0
        let day := timegmDays years + tm_yday
        some (((day * 24 + tm_hour) * 60 + tm_min) * 60 + tm_sec)

/-! ## Broken down and put together -/

/-- A day that the month has ends the loop at once. -/
theorem timegmMonths_stop {year mon mday bound before : Int} (hbound : spmAt (1 + mon) = some bound)
    (hbefore : spmAt mon = some before) (h : mday ≤ bound) :
    timegmMonths year mon mday = some (year, mon, mday) := by
  rw [timegmMonths]
  split
  · next bound' before' hb hb' =>
    cases hb.symm.trans hbound
    rw [if_neg (not_lt.2 h)]
  · next hnone =>
    exact absurd hbefore (hnone _ _ hbound)

/-- Up to 2099 every fourth year is a leap year. -/
theorem isleap_iff {i : Int} (hi : 1970 ≤ i) (hi' : i < 2100) : isleap i = true ↔ i % 4 = 0 := by
  rw [isleap, decide_eq_true_iff, Int.tmod_eq_emod_of_nonneg (by omega),
    Int.tmod_eq_emod_of_nonneg (by omega), Int.tmod_eq_emod_of_nonneg (by omega)]
  omega

theorem yearDays_eq {i : Int} (hi : 1970 ≤ i) (hi' : i < 2100) :
    yearDays i = if i % 4 = 0 then 366 else 365 := by
  rw [yearDays]
  exact if_congr (isleap_iff hi hi') rfl rfl

/-- What the loop over the years keeps: the days before the year and those left. -/
theorem gmtimeYear_spec (i work : Int) (hi : 1970 ≤ i) (hwork : 0 ≤ work)
    (hdays : work + ((i - 1970) * 365 + (i - 1969) / 4) < 47482) :
    (gmtimeYear i work).1 < 2100 ∧ i ≤ (gmtimeYear i work).1 ∧ 0 ≤ (gmtimeYear i work).2 ∧
      (gmtimeYear i work).2 < yearDays (gmtimeYear i work).1 ∧
      (gmtimeYear i work).2 +
          (((gmtimeYear i work).1 - 1970) * 365 + ((gmtimeYear i work).1 - 1969) / 4) =
        work + ((i - 1970) * 365 + (i - 1969) / 4) := by
  fun_induction gmtimeYear i work with
  | case1 i work hge ih =>
    have hyear := yearDays_eq hi (by omega)
    have hnext : work - yearDays i + ((i + 1 - 1970) * 365 + (i + 1 - 1969) / 4) =
        work + ((i - 1970) * 365 + (i - 1969) / 4) := by
      rw [hyear]
      split <;> omega
    obtain ⟨h2100, hle, hpos, hlt, hsum⟩ := ih (by omega) (by omega) (by omega)
    exact ⟨h2100, by omega, hpos, hlt, hsum.trans hnext⟩
  | case2 i work hlt => exact ⟨by omega, le_rfl, hwork, not_le.1 hlt, rfl⟩

/-- The month and the day of the month of a day of a year are of that month, and give the day
back. -/
structure MonthDay (leap : Bool) (mon mday work : Int) : Prop where
  mon_nonneg : 0 ≤ mon
  mon_le : mon ≤ 11
  mday_pos : 1 ≤ mday
  mday_le : mday ≤ 31
  table : ∃ bound before, spmAt (1 + mon) = some bound ∧ spmAt mon = some before ∧ mday ≤ bound ∧
    before + mday - 1 + (if leap ∧ mon > 1 then 1 else 0) = work

theorem monthDay_spec (leap : Bool) {work : Int} (hpos : 0 ≤ work)
    (hlt : work < if leap then 366 else 365) :
    MonthDay leap (monthDay leap work).1 (monthDay leap work).2 work := by
  have hall : ∀ leap : Bool, ∀ k : Fin 366, (k.val : Int) < (if leap then 366 else 365) →
      let r := monthDay leap k.val
      0 ≤ r.1 ∧ r.1 ≤ 11 ∧ 1 ≤ r.2 ∧ r.2 ≤ 31 ∧ ∃ bound ∈ spmAt (1 + r.1), ∃ before ∈ spmAt r.1,
        r.2 ≤ bound ∧ before + r.2 - 1 + (if leap ∧ r.1 > 1 then 1 else 0) = k.val := by
    decide +kernel
  obtain ⟨k, rfl⟩ := Int.eq_ofNat_of_zero_le hpos
  have hk : k < 366 := by
    split at hlt <;> omega
  obtain ⟨h1, h2, h3, h4, bound, hbound, before, hbefore, h5, h6⟩ := hall leap ⟨k, hk⟩ hlt
  exact ⟨h1, h2, h3, h4, bound, before, hbound, hbefore, h5, h6⟩

/-- The fields of a broken-down time between 2000 and 2099, and what they are made of. -/
structure BrokenDown (timep : Int) (t : Tm) : Prop where
  sec : t.tm_sec = timep % 60
  min : t.tm_min = timep / 60 % 60
  hour : t.tm_hour = timep / 3600 % 24
  year : 70 ≤ t.tm_year ∧ t.tm_year < 200
  wday : t.tm_wday = (4 + timep / 86400) % 7
  yday_nonneg : 0 ≤ timep / 86400 - ((t.tm_year - 70) * 365 + (t.tm_year - 69) / 4)
  yday_lt : timep / 86400 - ((t.tm_year - 70) * 365 + (t.tm_year - 69) / 4) <
    yearDays (t.tm_year + 1900)
  month : MonthDay (isleap (t.tm_year + 1900)) t.tm_mon t.tm_mday
    (timep / 86400 - ((t.tm_year - 70) * 365 + (t.tm_year - 69) / 4))

theorem gmtimeR_spec {timep : Int} (hpos : 0 ≤ timep) (hlt : timep < 4102444800) :
    BrokenDown timep (gmtimeR timep) := by
  have hdays : timep.tdiv SPD = timep / 86400 := Int.tdiv_eq_ediv_of_nonneg hpos
  have hwork : timep.tmod SPD = timep % 86400 := Int.tmod_eq_emod_of_nonneg hpos
  have hyear := gmtimeYear_spec 1970 (timep / 86400) le_rfl (by omega) (by omega)
  obtain ⟨h2100, h1970, hday, hday', hsum⟩ := hyear
  have hleap : (gmtimeYear 1970 (timep / 86400)).1 - 1900 + 1900 =
      (gmtimeYear 1970 (timep / 86400)).1 := by omega
  have hyday : timep / 86400 - (((gmtimeYear 1970 (timep / 86400)).1 - 1900 - 70) * 365 +
      ((gmtimeYear 1970 (timep / 86400)).1 - 1900 - 69) / 4) =
      (gmtimeYear 1970 (timep / 86400)).2 := by omega
  constructor
  · simp only [gmtimeR, hwork]
    rw [Int.tmod_eq_emod_of_nonneg (by omega)]
    omega
  · simp only [gmtimeR, hwork]
    rw [Int.tdiv_eq_ediv_of_nonneg (show 0 ≤ timep % 86400 by omega),
      Int.tmod_eq_emod_of_nonneg (by omega)]
    omega
  · simp only [gmtimeR, hwork]
    rw [Int.tdiv_eq_ediv_of_nonneg (show 0 ≤ timep % 86400 by omega),
      Int.tdiv_eq_ediv_of_nonneg (by omega)]
    omega
  · simp only [gmtimeR, hdays]
    omega
  · simp only [gmtimeR, hdays]
    rw [Int.tmod_eq_emod_of_nonneg (by omega)]
  · simp only [gmtimeR, hdays, hyday]
    exact hday
  · simp only [gmtimeR, hdays, hyday, hleap]
    exact hday'
  · simp only [gmtimeR, hdays, hleap, hyday]
    rw [yearDays] at hday'
    exact monthDay_spec _ hday hday'

/-- From 2000 on. -/
theorem BrokenDown.year_ge {timep : Int} {t : Tm} (h : BrokenDown timep t)
    (hge : 946684800 ≤ timep) : 100 ≤ t.tm_year := by
  have hyear := h.year
  have hlt := h.yday_lt
  rw [yearDays_eq (by omega) (by omega)] at hlt
  split at hlt <;> omega

/-- A time broken down is put together again. Reference: `ctime.c:395 timegm`, `ctime.c:172
gmtime_r`. -/
theorem timegm_of_brokenDown {timep : Int} {t : Tm} (h : BrokenDown timep t) :
    timegm t = some timep := by
  obtain ⟨bound, before, hbound, hbefore, hle, hday⟩ := h.month.table
  have hmon := h.month.mon_le
  have hyear := h.year
  have hsec := h.sec
  have hmin := h.min
  have hhour := h.hour
  have hyears : timegmDays (t.tm_year - 70) = (t.tm_year - 70) * 365 + (t.tm_year - 69) / 4 := by
    rw [timegmDays]
    dsimp only
    rw [if_neg (by omega), Int.tdiv_eq_ediv_of_nonneg (by omega)]
    omega
  unfold timegm
  dsimp only
  rw [if_neg (show ¬ t.tm_sec > 60 by omega)]
  dsimp only
  rw [if_neg (show ¬ t.tm_min ≥ 60 by omega)]
  dsimp only
  rw [if_neg (show ¬ t.tm_hour ≥ 24 by omega)]
  dsimp only
  rw [if_neg (show ¬ t.tm_mon ≥ 12 by omega)]
  dsimp only
  rw [timegmMonths_stop hbound hbefore hle]
  dsimp only
  rw [if_neg (by omega), hbefore]
  dsimp only
  rw [hday, hyears, hsec, hmin, hhour]
  congr 1
  omega

/-- Only the six fields of date and time are looked at. -/
theorem timegm_congr {t t' : Tm} (hsec : t.tm_sec = t'.tm_sec) (hmin : t.tm_min = t'.tm_min)
    (hhour : t.tm_hour = t'.tm_hour) (hmday : t.tm_mday = t'.tm_mday) (hmon : t.tm_mon = t'.tm_mon)
    (hyear : t.tm_year = t'.tm_year) : timegm t = timegm t' := by
  unfold timegm
  rw [hsec, hmin, hhour, hmday, hmon, hyear]

end NumakerMA35D1.Rtc

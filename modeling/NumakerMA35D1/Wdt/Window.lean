import NumakerMA35D1.Wdt.DrvWdt

/-!
# The windows of the watchdog

A timeout of `n` iterations makes windows of `n + 1` interrupts. `wdt_iff`: the iterations are those of the
seconds wanted, to half an iteration and without a product that wraps, exactly when there is a clock and the
seconds' ticks are below `2 ^ 31 - 512`; and the driver resets the counter at an interrupt exactly when every
window that is over had its keepalive, up to the `2 ^ 31`th interrupt after the end of one that had none,
when the count of iterations wraps.

Reference: `drv_wdt.c`.
-/

namespace NumakerMA35D1.Wdt

/-! ## Specification -/

/-- The iterations of a timeout differ from the seconds by half an iteration at most, and no product that
the driver makes wraps. -/
structure IterationsRight (wantedSec hz : BitVec 32) : Prop where
  near : |((softTimeSetup wantedSec hz).fullIterations.toInt : ℚ) * (1024 / hz.toNat) - wantedSec.toNat| ≤
    1024 / hz.toNat / 2
  secs : wantedSec.toNat * hz.toNat < 2 ^ 32
  cycles : (softTimeSetup wantedSec hz).fullIterations.toInt * MIN_CYCLES < 2 ^ 31

/-- The interrupts among events. -/
def ticks (evs : List Event) : Nat := evs.count .tick

/-- A keepalive in a window of `n + 1` interrupts. -/
def FedIn (n : Nat) (evs : List Event) (w : Nat) : Prop :=
  ∃ before, before ++ [Event.keepalive] <+: evs ∧ ticks before / (n + 1) = w

/-- The counter is to be reset at an interrupt after some events: every window that is over had a keepalive,
and this one when the interrupt ends it. -/
def Due (n : Nat) (evs : List Event) : Prop :=
  (∀ w < ticks evs / (n + 1), FedIn n evs w) ∧
    (ticks evs % (n + 1) = n → FedIn n evs (ticks evs / (n + 1)))

/-- The driver resets the counter at the interrupts where it is to. -/
def WindowsRight (s : NuWdt) (hz wantedSec : BitVec 32) (evs : List Event) : Prop :=
  ∀ before later, evs = before ++ .tick :: later →
    ((s.after hz wantedSec (before ++ [.tick])).resets = (s.after hz wantedSec before).resets + 1 ↔
      Due (softTimeSetup wantedSec hz).fullIterations.toNat before)

/-- No window without a keepalive ends more than `2 ^ 31` interrupts before the last. -/
def Recent (n : Nat) (evs : List Event) : Prop :=
  ∀ w, ¬ FedIn n evs w → ticks evs ≤ (w + 1) * (n + 1) + 2 ^ 31

/-! ## Iterations -/

/-- The iterations of a product of seconds and clock. -/
theorem roundToInteger_eq (x : Nat) : roundToInteger ((x : ℚ) / MIN_CYCLES) = ((x + 512) / 1024 : Nat) := by
  have hnonneg : (0 : ℚ) ≤ ((x : ℚ) / MIN_CYCLES * 10 + 5) / 10 := by positivity
  rw [roundToInteger, truncate_eq_floor hnonneg, Int.floor_eq_iff]
  have hdiv := Nat.div_add_mod (x + 512) 1024
  have hmod := Nat.mod_lt (x + 512) (by decide : 0 < 1024)
  have hval : ((x : ℚ) / MIN_CYCLES * 10 + 5) / 10 = ((x + 512 : Nat) : ℚ) / 1024 := by
    rw [MIN_CYCLES]
    push_cast
    ring
  rw [hval]
  constructor
  · rw [le_div_iff₀ (by norm_num)]
    exact_mod_cast (by omega : (x + 512) / 1024 * 1024 ≤ x + 512)
  · rw [div_lt_iff₀ (by norm_num)]
    exact_mod_cast (by omega : x + 512 < ((x + 512) / 1024 + 1) * 1024)

/-- The iterations set. -/
theorem fullIterations_toNat (wantedSec hz : BitVec 32) :
    (softTimeSetup wantedSec hz).fullIterations.toNat = (wantedSec.toNat * hz.toNat % 2 ^ 32 + 512) / 1024 := by
  have hlt : wantedSec.toNat * hz.toNat % 2 ^ 32 < 2 ^ 32 := Nat.mod_lt _ (by decide)
  rw [softTimeSetup, convSecToIt, roundToInteger_eq, BitVec.toNat_mul, BitVec.ofInt_natCast,
    BitVec.toNat_ofNat]
  exact Nat.mod_eq_of_lt (by omega)

theorem fullIterations_lt (wantedSec hz : BitVec 32) :
    (softTimeSetup wantedSec hz).fullIterations.toNat ≤ 2 ^ 22 := by
  rw [fullIterations_toNat]
  have hlt : wantedSec.toNat * hz.toNat % 2 ^ 32 < 2 ^ 32 := Nat.mod_lt _ (by decide)
  omega

/-- The iterations are not negative. -/
theorem fullIterations_toInt (wantedSec hz : BitVec 32) :
    (softTimeSetup wantedSec hz).fullIterations.toInt =
      ((softTimeSetup wantedSec hz).fullIterations.toNat : Int) := by
  have hle := fullIterations_lt wantedSec hz
  exact BitVec.toInt_eq_toNat_of_lt (by omega)

/-- The iterations are right exactly when there is a clock and the product of the seconds and the clock is
small enough to be rounded up. -/
theorem iterationsRight_iff {wantedSec hz : BitVec 32} (hwanted : wantedSec ≠ 0#32) :
    IterationsRight wantedSec hz ↔ 0 < hz.toNat ∧ wantedSec.toNat * hz.toNat < 2 ^ 31 - 512 := by
  have hpos : 0 < wantedSec.toNat := by
    rw [Nat.pos_iff_ne_zero]
    exact fun h => hwanted (BitVec.eq_of_toNat_eq h)
  have hfull := fullIterations_toNat wantedSec hz
  have hint := fullIterations_toInt wantedSec hz
  constructor
  · rintro ⟨hnear, hsecs, hcycles⟩
    have hclock : 0 < hz.toNat := by
      rw [Nat.pos_iff_ne_zero]
      intro hzero
      rw [hzero, Nat.cast_zero, div_zero, mul_zero, zero_sub, abs_neg, zero_div, Nat.abs_cast] at hnear
      exact absurd (by exact_mod_cast hnear) (Nat.not_le.2 hpos)
    refine ⟨hclock, ?_⟩
    rw [hint, MIN_CYCLES, hfull, Nat.mod_eq_of_lt hsecs] at hcycles
    have hcycles' : (wantedSec.toNat * hz.toNat + 512) / 1024 * 1024 < 2 ^ 31 := by exact_mod_cast hcycles
    omega
  · rintro ⟨hclock, hsmall⟩
    have hsecs : wantedSec.toNat * hz.toNat < 2 ^ 32 := by omega
    rw [Nat.mod_eq_of_lt hsecs] at hfull
    refine ⟨?_, hsecs, ?_⟩
    · have hq : (0 : ℚ) < hz.toNat := by exact_mod_cast hclock
      rw [hint, hfull]
      generalize hx : wantedSec.toNat * hz.toNat = x at *
      have hsec : (wantedSec.toNat : ℚ) = x / hz.toNat := by
        rw [eq_div_iff hq.ne', ← hx]
        push_cast
        rfl
      obtain ⟨q, hdiv⟩ : ∃ q, (x + 512) / 1024 = q := ⟨_, rfl⟩
      have hround : q * 1024 ≤ x + 512 ∧ x < q * 1024 + 512 := by omega
      have hlow : (q : ℚ) * 1024 - x ≤ 512 := by
        have h1 : (q : ℚ) * 1024 ≤ x + 512 := by exact_mod_cast hround.1
        linarith
      have hhigh : -512 ≤ (q : ℚ) * 1024 - x := by
        have h2 : (x : ℚ) < (q : ℚ) * 1024 + 512 := by exact_mod_cast hround.2
        linarith
      have hsame : ((q : Int) : ℚ) * (1024 / hz.toNat) - x / hz.toNat =
          ((q : ℚ) * 1024 - x) / hz.toNat := by
        rw [Int.cast_natCast]
        ring
      have hhalf : (1024 : ℚ) / hz.toNat / 2 = 512 / hz.toNat := by ring
      rw [hdiv]
      rw [hsec, hsame, hhalf, abs_div, abs_of_pos hq]
      exact div_le_div_of_nonneg_right (abs_le.2 ⟨hhigh, hlow⟩) hq.le
    · rw [hint, MIN_CYCLES, hfull]
      exact_mod_cast (by omega : (wantedSec.toNat * hz.toNat + 512) / 1024 * 1024 < 2 ^ 31)

/-! ## Windows -/

section
variable {n w : Nat} {evs : List Event}

theorem ticks_tick (evs : List Event) : ticks (evs ++ [.tick]) = ticks evs + 1 := by
  rw [ticks, List.count_append]
  rfl

theorem ticks_keepalive (evs : List Event) : ticks (evs ++ [.keepalive]) = ticks evs := by
  rw [ticks, List.count_append]
  rfl

theorem ticks_mono {before : List Event} (h : before <+: evs) : ticks before ≤ ticks evs :=
  h.sublist.count_le _

/-- A keepalive is in a window that has begun. -/
theorem FedIn.le (h : FedIn n evs w) : w ≤ ticks evs / (n + 1) := by
  obtain ⟨before, hpre, rfl⟩ := h
  exact Nat.div_le_div_right (ticks_mono ((List.prefix_append before _).trans hpre))

/-- More events keep the keepalives. -/
theorem FedIn.mono {evs' : List Event} (h : FedIn n evs w) (hpre : evs <+: evs') : FedIn n evs' w := by
  obtain ⟨before, hb, hw⟩ := h
  exact ⟨before, hb.trans hpre, hw⟩

/-- A prefix has the keepalives of its windows that are over. -/
theorem FedIn.earlier {before : List Event} (h : FedIn n evs w) (hpre : before <+: evs)
    (hw : w < ticks before / (n + 1)) : FedIn n before w := by
  obtain ⟨init, hinit, rfl⟩ := h
  rcases List.prefix_or_prefix_of_prefix hinit hpre with hle | hle
  · exact ⟨init, hle, rfl⟩
  · exfalso
    have hticks := ticks_mono hle
    rw [ticks_keepalive] at hticks
    exact absurd hw (Nat.not_lt.2 (Nat.div_le_div_right hticks))

/-- An interrupt is no keepalive. -/
theorem fedIn_tick : FedIn n (evs ++ [.tick]) w ↔ FedIn n evs w := by
  constructor
  · rintro ⟨before, hpre, rfl⟩
    rcases List.prefix_concat_iff.1 hpre with heq | hpre
    · exact absurd (List.append_inj_right' heq rfl) (by decide)
    · exact ⟨before, hpre, rfl⟩
  · exact fun h => h.mono (List.prefix_append evs _)

/-- A keepalive is in the window that it comes in. -/
theorem fedIn_keepalive :
    FedIn n (evs ++ [.keepalive]) w ↔ FedIn n evs w ∨ ticks evs / (n + 1) = w := by
  constructor
  · rintro ⟨before, hpre, rfl⟩
    rcases List.prefix_concat_iff.1 hpre with heq | hpre
    · obtain rfl := List.append_inj_left' heq rfl
      exact .inr rfl
    · exact .inl ⟨before, hpre, rfl⟩
  · rintro (h | h)
    · exact h.mono (List.prefix_append evs _)
    · exact ⟨evs, List.prefix_rfl, h⟩

/-- Every interrupt of the events by its number. -/
theorem exists_tick {k : Nat} (h : k < ticks evs) :
    ∃ before later, evs = before ++ .tick :: later ∧ ticks before = k := by
  induction evs using List.reverseRecOn with
  | nil => exact absurd h (Nat.not_lt_zero k)
  | append_singleton evs e ih =>
    cases e with
    | keepalive =>
      rw [ticks_keepalive] at h
      obtain ⟨before, later, rfl, hk⟩ := ih h
      exact ⟨before, later ++ [.keepalive], List.append_assoc .., hk⟩
    | tick =>
      rw [ticks_tick] at h
      rcases Nat.lt_succ_iff_lt_or_eq.1 h with hlt | heq
      · obtain ⟨before, later, rfl, hk⟩ := ih hlt
        exact ⟨before, later ++ [.tick], List.append_assoc .., hk⟩
      · exact ⟨evs, [], rfl, heq.symm⟩

/-- The first window that is over without a keepalive. -/
structure FirstUnfed (n : Nat) (evs : List Event) (w : Nat) : Prop where
  ended : w < ticks evs / (n + 1)
  unfed : ¬ FedIn n evs w
  before : ∀ v < w, FedIn n evs v

/-- All windows that are over had a keepalive, or one of them is the first that had none. -/
theorem fed_or_firstUnfed (n : Nat) (evs : List Event) :
    (∀ w < ticks evs / (n + 1), FedIn n evs w) ∨ ∃ w, FirstUnfed n evs w := by
  by_cases hall : ∀ w < ticks evs / (n + 1), FedIn n evs w
  · exact .inl hall
  · have hex : ∃ w, w < ticks evs / (n + 1) ∧ ¬ FedIn n evs w := by
      simpa only [not_forall, exists_prop] using hall
    classical
    refine .inr ⟨Nat.find hex, (Nat.find_spec hex).1, (Nat.find_spec hex).2, fun v hv => ?_⟩
    by_contra hunfed
    exact Nat.find_min hex hv ⟨Nat.lt_trans hv (Nat.find_spec hex).1, hunfed⟩

theorem FirstUnfed.not_due (h : FirstUnfed n evs w) : ¬ Due n evs :=
  fun hdue => h.unfed (hdue.1 w h.ended)

end

/-- What the device remembers of the events since its timeout was set, `n` its iterations. -/
structure WindowInv (n : Nat) (evs : List Event) (t : SoftTimeHandle) : Prop where
  full : t.fullIterations.toNat = n
  alive : (∀ w < ticks evs / (n + 1), FedIn n evs w) → t.expired = false ∧
    t.leftIterations.toNat = n - ticks evs % (n + 1) ∧
    (t.feedDog = true ↔ FedIn n evs (ticks evs / (n + 1)))
  stopped : ∀ w, FirstUnfed n evs w → t.expired = true ∧
    t.leftIterations = -BitVec.ofNat 32 (ticks evs - (w + 1) * (n + 1) + 1)

section
variable {n w : Nat} {evs : List Event} {s : NuWdt} {hz : BitVec 32}

/-- A count of iterations that is not wrapped is tested as a number. -/
theorem slt_small {x : BitVec 32} (hx : x.toNat < 2 ^ 31) : (0#32).slt x = decide (0 < x.toNat) := by
  rw [BitVec.slt_eq_decide, BitVec.toInt_eq_toNat_of_lt (by omega : 2 * x.toNat < 2 ^ 32)]
  exact decide_eq_decide.2 (by simp)

/-- A count of iterations below zero is below zero, until it wraps. -/
theorem slt_below {k : Nat} (hk : k < 2 ^ 31) : (0#32).slt (-BitVec.ofNat 32 (k + 1)) = false := by
  have hval : (-BitVec.ofNat 32 (k + 1)).toNat = 2 ^ 32 - (k + 1) := by
    rw [BitVec.toNat_neg, BitVec.toNat_ofNat, Nat.mod_eq_of_lt (by omega : k + 1 < 2 ^ 32)]
    exact Nat.mod_eq_of_lt (by omega)
  rw [BitVec.slt_eq_decide, decide_eq_false_iff_not, BitVec.toInt_eq_toNat_cond (-BitVec.ofNat 32 (k + 1)),
    if_neg (by rw [hval]; omega), hval]
  have hzero : (0#32).toInt = 0 := rfl
  omega

/-- A count of iterations below zero goes down. -/
theorem neg_ofNat_succ (k : Nat) : -BitVec.ofNat 32 k - 1#32 = -BitVec.ofNat 32 (k + 1) := by
  rw [BitVec.ofNat_add, BitVec.neg_add]

/-- Nothing is over when the timeout is set. -/
theorem windowInv_setup (wantedSec hz : BitVec 32) :
    WindowInv (softTimeSetup wantedSec hz).fullIterations.toNat [] (softTimeSetup wantedSec hz) where
  full := rfl
  alive _ := by
    refine ⟨rfl, ?_, ?_⟩
    · change _ = _ - 0 % _
      rw [Nat.zero_mod, Nat.sub_zero]
      rfl
    · refine iff_of_false Bool.false_ne_true ?_
      rintro ⟨before, hpre, -⟩
      exact absurd (List.prefix_nil.1 hpre) (by simp)
  stopped w h := by
    have hover := h.ended
    rw [ticks, List.count_nil, Nat.zero_div] at hover
    exact absurd hover (Nat.not_lt_zero w)

/-- A keepalive keeps the windows. -/
theorem WindowInv.keepalive (h : WindowInv n evs s.softTime) :
    WindowInv n (evs ++ [.keepalive]) (s.exec hz .keepalive).softTime := by
  have hover : ∀ w < ticks evs / (n + 1), (FedIn n (evs ++ [.keepalive]) w ↔ FedIn n evs w) := by
    intro w hw
    rw [fedIn_keepalive]
    exact ⟨fun h => h.resolve_right (Nat.ne_of_gt hw), .inl⟩
  refine ⟨h.full, fun hall => ?_, fun w hw => ?_⟩
  · rw [ticks_keepalive] at hall ⊢
    obtain ⟨hexp, hleft, -⟩ := h.alive fun w hw => (hover w hw).1 (hall w hw)
    exact ⟨hexp, hleft, iff_of_true rfl (fedIn_keepalive.2 (.inr rfl))⟩
  · obtain ⟨hw, hunfed, hbefore⟩ := hw
    rw [ticks_keepalive] at hw ⊢
    exact h.stopped w ⟨hw, fun hfed => hunfed ((hover w hw).2 hfed),
      fun v hv => (hover v (Nat.lt_trans hv hw)).1 (hbefore v hv)⟩

/-- An interrupt with iterations left. -/
theorem nuWdtIsr_left (h : (0#32).slt s.softTime.leftIterations = true) :
    s.nuWdtIsr.resets = s.resets + 1 ∧ s.nuWdtIsr.softTime =
      { s.softTime with leftIterations := s.softTime.leftIterations - 1#32 } := by
  rw [NuWdt.nuWdtIsr]
  simp only [h, if_true]
  exact ⟨rfl, rfl⟩

/-- The interrupt at the end of a window with a keepalive. -/
theorem nuWdtIsr_fed (h : (0#32).slt s.softTime.leftIterations = false)
    (hfed : s.softTime.feedDog = true) (hexp : s.softTime.expired = false) :
    s.nuWdtIsr.resets = s.resets + 1 ∧ s.nuWdtIsr.softTime =
      { s.softTime with leftIterations := s.softTime.fullIterations, feedDog := false } := by
  rw [NuWdt.nuWdtIsr]
  simp only [h, hfed, hexp, Bool.false_eq_true, if_false, Bool.not_false, Bool.and_true, if_true]
  exact ⟨rfl, rfl⟩

/-- The interrupt at the end of a window without, or after. -/
theorem nuWdtIsr_expired (h : (0#32).slt s.softTime.leftIterations = false)
    (hexp : (s.softTime.feedDog && !s.softTime.expired) = false) :
    s.nuWdtIsr.resets = s.resets ∧ s.nuWdtIsr.softTime =
      { s.softTime with leftIterations := s.softTime.leftIterations - 1#32, expired := true } := by
  rw [NuWdt.nuWdtIsr]
  simp only [h, hexp, Bool.false_eq_true, if_false]
  exact ⟨trivial, trivial⟩

/-- One window is the first without a keepalive. -/
theorem FirstUnfed.unique {v : Nat} (h : FirstUnfed n evs w) (h' : FirstUnfed n evs v) : w = v := by
  rcases Nat.lt_trichotomy w v with hlt | heq | hgt
  · exact absurd (h'.before w hlt) h.unfed
  · exact heq
  · exact absurd (h.before v hgt) h'.unfed

/-- The next interrupt is in the same window, or in the next one. -/
theorem next_tick (T n : Nat) :
    (T % (n + 1) < n ∧ (T + 1) / (n + 1) = T / (n + 1) ∧ (T + 1) % (n + 1) = T % (n + 1) + 1) ∨
    (T % (n + 1) = n ∧ (T + 1) / (n + 1) = T / (n + 1) + 1 ∧ (T + 1) % (n + 1) = 0 ∧
      T + 1 = (T / (n + 1) + 1) * (n + 1)) := by
  have hdiv := Nat.mod_add_div T (n + 1)
  have hmod : T % (n + 1) < n + 1 := Nat.mod_lt T (Nat.succ_pos n)
  rcases Nat.lt_or_ge (T % (n + 1)) n with hlt | hge
  · refine .inl ⟨hlt, (Nat.div_mod_unique (by omega : 0 < n + 1)).2 ⟨?_, by omega⟩⟩
    omega
  · have heq : T % (n + 1) = n := by omega
    have hsum : 0 + (n + 1) * (T / (n + 1) + 1) = T + 1 := by
      rw [Nat.mul_succ]
      omega
    obtain ⟨hquot, hrem⟩ := (Nat.div_mod_unique (by omega : 0 < n + 1)).2 ⟨hsum, Nat.succ_pos n⟩
    refine .inr ⟨heq, hquot, hrem, ?_⟩
    rw [← hsum, Nat.zero_add, Nat.mul_comm]

/-- An interrupt in a window, with keepalives in all that are over: the counter is reset. -/
theorem WindowInv.tick_inside (hn : n < 2 ^ 31) (h : WindowInv n evs s.softTime)
    (hfed : ∀ w < ticks evs / (n + 1), FedIn n evs w) (hr : ticks evs % (n + 1) < n)
    (hcur : (ticks evs + 1) / (n + 1) = ticks evs / (n + 1))
    (hnext : (ticks evs + 1) % (n + 1) = ticks evs % (n + 1) + 1) :
    WindowInv n (evs ++ [.tick]) s.nuWdtIsr.softTime ∧ s.nuWdtIsr.resets = s.resets + 1 := by
  obtain ⟨hexp, hleft, hfeed⟩ := h.alive hfed
  obtain ⟨hreset, hsoft⟩ := nuWdtIsr_left (s := s) (by
    rw [slt_small (by omega), hleft]
    exact decide_eq_true (by omega))
  refine ⟨?_, hreset⟩
  rw [hsoft]
  refine ⟨h.full, fun _ => ⟨hexp, ?_, ?_⟩, fun w hw => ?_⟩
  · rw [ticks_tick, hnext]
    change (s.softTime.leftIterations - 1#32).toNat = _
    rw [BitVec.toNat_sub, BitVec.toNat_ofNat]
    omega
  · rw [ticks_tick, hcur, fedIn_tick]
    exact hfeed
  · have hended := hw.ended
    rw [ticks_tick, hcur] at hended
    exact absurd (fedIn_tick.2 (hfed w hended)) hw.unfed

/-- The interrupt at the end of a window, with keepalives in all that are over: the counter is reset when
this one had one too. -/
theorem WindowInv.tick_end (h : WindowInv n evs s.softTime)
    (hfed : ∀ w < ticks evs / (n + 1), FedIn n evs w) (hr : ticks evs % (n + 1) = n)
    (hcur : (ticks evs + 1) / (n + 1) = ticks evs / (n + 1) + 1) (hnext : (ticks evs + 1) % (n + 1) = 0)
    (hsum : ticks evs + 1 = (ticks evs / (n + 1) + 1) * (n + 1)) :
    WindowInv n (evs ++ [.tick]) s.nuWdtIsr.softTime ∧
      (s.nuWdtIsr.resets = s.resets + 1 ↔ FedIn n evs (ticks evs / (n + 1))) := by
  obtain ⟨hexp, hleft, hfeed⟩ := h.alive hfed
  rw [hr, Nat.sub_self] at hleft
  have hslt : (0#32).slt s.softTime.leftIterations = false := by
    rw [slt_small (by omega), hleft]
    rfl
  by_cases hnow : FedIn n evs (ticks evs / (n + 1))
  · obtain ⟨hreset, hsoft⟩ := nuWdtIsr_fed hslt (hfeed.2 hnow) hexp
    refine ⟨?_, iff_of_true hreset hnow⟩
    rw [hsoft]
    refine ⟨h.full, fun _ => ⟨hexp, ?_, ?_⟩, fun w hw => ?_⟩
    · rw [ticks_tick, hnext, Nat.sub_zero]
      exact h.full
    · rw [ticks_tick, hcur, fedIn_tick]
      exact iff_of_false Bool.false_ne_true fun hlater => absurd hlater.le (by omega)
    · have hended := hw.ended
      rw [ticks_tick, hcur] at hended
      refine absurd (fedIn_tick.2 ?_) hw.unfed
      rcases Nat.lt_succ_iff_lt_or_eq.1 hended with hlt | rfl
      · exact hfed w hlt
      · exact hnow
  · obtain ⟨hreset, hsoft⟩ := nuWdtIsr_expired (s := s) hslt (by
      rw [Bool.eq_false_iff.2 fun hf => hnow (hfeed.1 hf), Bool.false_and])
    refine ⟨?_, iff_of_false (by omega) hnow⟩
    rw [hsoft]
    refine ⟨h.full, fun hall => ?_, fun w hw => ⟨rfl, ?_⟩⟩
    · rw [ticks_tick, hcur] at hall
      exact absurd (fedIn_tick.1 (hall _ (Nat.lt_succ_self _))) hnow
    · have hw' : w = ticks evs / (n + 1) := by
        have hended := hw.ended
        rw [ticks_tick, hcur] at hended
        rcases Nat.lt_succ_iff_lt_or_eq.1 hended with hlt | heq
        · exact absurd (fedIn_tick.2 (hfed w hlt)) hw.unfed
        · exact heq
      rw [ticks_tick, hw', ← hsum, Nat.sub_self]
      have hzero : s.softTime.leftIterations = 0#32 := BitVec.eq_of_toNat_eq hleft
      dsimp only
      rw [hzero]
      rfl

/-- An interrupt after a window without a keepalive: the counter is reset once the iterations have
wrapped. -/
theorem WindowInv.tick_stopped (h : WindowInv n evs s.softTime) (hw : FirstUnfed n evs w) :
    WindowInv n (evs ++ [.tick]) s.nuWdtIsr.softTime ∧
      (s.nuWdtIsr.resets = s.resets + 1 ↔
        (0#32).slt (-BitVec.ofNat 32 (ticks evs - (w + 1) * (n + 1) + 1)) = true) := by
  obtain ⟨hexp, hleft⟩ := h.stopped w hw
  have hsoft : s.nuWdtIsr.softTime =
      { s.softTime with leftIterations := s.softTime.leftIterations - 1#32, expired := true } := by
    cases hslt : (0#32).slt s.softTime.leftIterations with
    | true =>
      rw [(nuWdtIsr_left hslt).2, ← hexp]
    | false =>
      exact (nuWdtIsr_expired hslt (by rw [hexp, Bool.not_true, Bool.and_false])).2
  have hbehind : (w + 1) * (n + 1) ≤ ticks evs :=
    (Nat.le_div_iff_mul_le (Nat.succ_pos n)).1 hw.ended
  have hended : w < (ticks evs + 1) / (n + 1) :=
    Nat.lt_of_lt_of_le hw.ended (Nat.div_le_div_right (Nat.le_succ _))
  have hlater : FirstUnfed n (evs ++ [.tick]) w :=
    ⟨by rwa [ticks_tick], fun hf => hw.unfed (fedIn_tick.1 hf), fun v hv => fedIn_tick.2 (hw.before v hv)⟩
  constructor
  · rw [hsoft]
    refine ⟨h.full, fun hall => absurd (hall w hlater.ended) hlater.unfed, fun v hv => ⟨rfl, ?_⟩⟩
    obtain rfl := hlater.unique hv
    rw [ticks_tick, Nat.sub_add_comm hbehind]
    dsimp only
    rw [hleft]
    exact neg_ofNat_succ _
  · rw [← hleft]
    cases hslt : (0#32).slt s.softTime.leftIterations with
    | true => exact iff_of_true (nuWdtIsr_left hslt).1 rfl
    | false =>
      have hsame := (nuWdtIsr_expired hslt (by rw [hexp, Bool.not_true, Bool.and_false])).1
      exact iff_of_false (by omega) Bool.false_ne_true

/-- The next interrupt keeps the windows, and resets the counter where it is to, as long as the iterations
have not wrapped. -/
theorem WindowInv.tick (hn : n < 2 ^ 31) (h : WindowInv n evs s.softTime) :
    WindowInv n (evs ++ [.tick]) s.nuWdtIsr.softTime ∧
      ((∀ w, FirstUnfed n evs w → ticks evs < (w + 1) * (n + 1) + 2 ^ 31) →
        (s.nuWdtIsr.resets = s.resets + 1 ↔ Due n evs)) := by
  rcases fed_or_firstUnfed n evs with hfed | ⟨w, hw⟩
  · rcases next_tick (ticks evs) n with ⟨hr, hcur, hnext⟩ | ⟨hr, hcur, hnext, hsum⟩
    · obtain ⟨hinv, hreset⟩ := h.tick_inside hn hfed hr hcur hnext
      exact ⟨hinv, fun _ => iff_of_true hreset ⟨hfed, fun hend => absurd hend (Nat.ne_of_lt hr)⟩⟩
    · obtain ⟨hinv, hreset⟩ := h.tick_end hfed hr hcur hnext hsum
      exact ⟨hinv, fun _ => hreset.trans ⟨fun hnow => ⟨hfed, fun _ => hnow⟩, fun hdue => hdue.2 hr⟩⟩
  · obtain ⟨hinv, hreset⟩ := h.tick_stopped hw
    refine ⟨hinv, fun hrecent => hreset.trans (iff_of_false ?_ hw.not_due)⟩
    have hlt := hrecent w hw
    have hbehind : (w + 1) * (n + 1) ≤ ticks evs :=
      (Nat.le_div_iff_mul_le (Nat.succ_pos n)).1 hw.ended
    rw [slt_below (by omega)]
    exact Bool.false_ne_true

/-- The windows after every list of events. -/
theorem windowInv_after (s : NuWdt) (hz : BitVec 32) {wantedSec : BitVec 32} (hwanted : wantedSec ≠ 0#32)
    (evs : List Event) : WindowInv (softTimeSetup wantedSec hz).fullIterations.toNat evs
      (s.after hz wantedSec evs).softTime := by
  have hn := fullIterations_lt wantedSec hz
  induction evs using List.reverseRecOn with
  | nil =>
    rw [NuWdt.after, NuWdt.nuWdtControl, if_neg hwanted]
    exact windowInv_setup wantedSec hz
  | append_singleton evs e ih =>
    rw [NuWdt.after, List.foldl_append]
    cases e with
    | tick => exact (ih.tick (by omega)).1
    | keepalive => exact ih.keepalive

end

/-- The counter is reset where it is to exactly when no window without a keepalive is more than `2 ^ 31`
interrupts back. -/
theorem windowsRight_iff (s : NuWdt) (hz : BitVec 32) {wantedSec : BitVec 32} (hwanted : wantedSec ≠ 0#32)
    (evs : List Event) : WindowsRight s hz wantedSec evs ↔
      Recent (softTimeSetup wantedSec hz).fullIterations.toNat evs := by
  have hn := fullIterations_lt wantedSec hz
  generalize hfull : (softTimeSetup wantedSec hz).fullIterations.toNat = n at hn
  have hinv : ∀ before, WindowInv n before (s.after hz wantedSec before).softTime := by
    rw [← hfull]
    exact windowInv_after s hz hwanted
  have hstep : ∀ before, s.after hz wantedSec (before ++ [.tick]) =
      (s.after hz wantedSec before).nuWdtIsr := by
    intro before
    rw [NuWdt.after, List.foldl_append]
    rfl
  rw [WindowsRight, hfull]
  constructor
  · intro hright w hunfed
    by_contra hlate
    have hlate' : (w + 1) * (n + 1) + 2 ^ 31 < ticks evs := by omega
    have hended : w < ticks evs / (n + 1) :=
      (Nat.le_div_iff_mul_le (Nat.succ_pos n)).2 (Nat.le_of_lt (Nat.lt_of_le_of_lt (Nat.le_add_right _ _) hlate'))
    -- the first window without a keepalive is at least as far back
    rcases fed_or_firstUnfed n evs with hfed | ⟨v, hv⟩
    · exact hunfed (hfed w hended)
    have hvw : v ≤ w := by
      by_contra hlt
      exact hunfed (hv.before w (by omega))
    have hvfar : (v + 1) * (n + 1) + 2 ^ 31 < ticks evs :=
      Nat.lt_of_le_of_lt (Nat.add_le_add_right (Nat.mul_le_mul_right _ (Nat.succ_le_succ hvw)) _) hlate'
    obtain ⟨before, later, hsplit, hticks⟩ := exists_tick hvfar
    have hpre : before <+: evs := ⟨.tick :: later, hsplit.symm⟩
    have hvover : v < ticks before / (n + 1) := by
      rw [hticks]
      exact (Nat.le_div_iff_mul_le (Nat.succ_pos n)).2 (Nat.le_add_right _ _)
    have hvbefore : FirstUnfed n before v :=
      ⟨hvover, fun hf => hv.unfed (hf.mono hpre),
        fun u hu => (hv.before u hu).earlier hpre (Nat.lt_trans hu hvover)⟩
    refine hvbefore.not_due ((hright before later hsplit).1 ?_)
    rw [hstep]
    refine ((hinv before).tick_stopped hvbefore).2.2 ?_
    rw [hticks, Nat.add_sub_cancel_left]
    decide
  · intro hrecent before later hsplit
    have hpre : before <+: evs := ⟨.tick :: later, hsplit.symm⟩
    rw [hstep]
    refine ((hinv before).tick (by omega)).2 fun w hw => ?_
    have hunfed : ¬ FedIn n evs w := fun hf => hw.unfed (hf.earlier hpre hw.ended)
    have hle := hrecent w hunfed
    have hticks : ticks before + 1 ≤ ticks evs := by
      have hpre' : before ++ [.tick] <+: evs := ⟨later, by rw [hsplit, List.append_assoc]; rfl⟩
      exact ticks_tick before ▸ ticks_mono hpre'
    omega

/-- For every timeout but zero, every clock, every device before and all events after the timeout is set.
Reference: `drv_wdt.c:210 soft_time_setup`, `drv_wdt.c:328 nu_wdt_isr`. -/
theorem wdt_iff (wantedSec hz : BitVec 32) (hwanted : wantedSec ≠ 0#32) :
    (IterationsRight wantedSec hz ↔ 0 < hz.toNat ∧ wantedSec.toNat * hz.toNat < 2 ^ 31 - 512) ∧
    ∀ s evs, WindowsRight s hz wantedSec evs ↔
      Recent (softTimeSetup wantedSec hz).fullIterations.toNat evs :=
  ⟨iterationsRight_iff hwanted, fun s evs => windowsRight_iff s hz hwanted evs⟩

theorem wdt_iff_minute :
    (IterationsRight 60#32 32768#32 ↔
      0 < (32768#32).toNat ∧ (60#32).toNat * (32768#32).toNat < 2 ^ 31 - 512) ∧
    ∀ s evs, WindowsRight s 32768#32 60#32 evs ↔
      Recent (softTimeSetup 60#32 32768#32).fullIterations.toNat evs :=
  wdt_iff 60#32 32768#32 (by decide)

/-- Two days and a half on the external crystal are more ticks than a word holds. -/
theorem not_wdtRight : ¬ ∀ wantedSec source pclk3 : BitVec 32, wantedSec ≠ 0#32 →
    nuWdtGetWorkingHz source pclk3 ≠ 0#32 → IterationsRight wantedSec (nuWdtGetWorkingHz source pclk3) := by
  intro h
  exact absurd (h 216000#32 1#32 180000000#32 (by decide) (by decide)).secs (by decide)

end NumakerMA35D1.Wdt

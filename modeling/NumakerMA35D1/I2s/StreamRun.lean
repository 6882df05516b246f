import NumakerMA35D1.I2s.DrvI2s
import NumakerMA35D1.Lib.Run
import NumakerMA35D1.NuUtils.Bitutil

/-!
# I2S streams over runs

`i2sStreams_run`: over every run of starts, stops and configurations a stream's enables tell whether
its last start or stop that succeeded was a start, and a parameter configured is the one reported, as
long as no operation opens the controller while the other stream is on, none that fails stops its
stream, and the parameter configured is not the channels or the sample bits. `I2S_Open` resets the
controller that both streams share, and the other two are stored in a wrong field (`not_streamsRight`).

Reference: `drv_i2s.c`.
-/

namespace NumakerMA35D1.I2s

open Embedded

/-! ## Specification -/

/-- The two enables of a stream. -/
inductive Enable
  | path
  | dma
deriving DecidableEq

/-- The bit of an enable in `CTL0`. Reference: `i2s_reg.h:480` to `:513`. -/
def Enable.pos : Enable → AudioStream → Nat
  | path, .replay => 1
  | path, .record => 2
  | dma, .replay => 20
  | dma, .record => 21

/-- Whether an enable of a stream is on. -/
def enabled (s : NuI2s) (e : Enable) (stream : AudioStream) : Bool :=
  s.i2s_base.CTL0.getLsbD (e.pos stream)

/-- An operation on the device. -/
inductive I2sOp
  | start (stream : AudioStream) (ops : NuAcodecOps) (u32SrcClk : BitVec 32)
  | stop (stream : AudioStream)
  | configure (caps : RtAudioCaps) (ops : NuAcodecOps) (u32SrcClk : BitVec 32)

/-- What an operation returns and leaves. -/
def i2sExec (s : NuI2s) : I2sOp → Int × NuI2s
  | .start stream ops clk => nuI2sStart ops clk s stream
  | .stop stream => nuI2sStop s stream
  | .configure caps ops clk => nuI2sConfigure ops clk s caps

/-- The device, and the streams whose last start or stop that succeeded was a start. -/
structure System where
  i2s : NuI2s
  started : AudioStream → Bool

/-- The streams started after an operation that returned `ret`. -/
def startedAfter (started : AudioStream → Bool) : I2sOp × Int → AudioStream → Bool
  | (.start stream .., ret) => if ret = RT_EOK then Function.update started stream true else started
  | (.stop stream, ret) => if ret = RT_EOK then Function.update started stream false else started
  | (.configure .., _) => started

/-- One operation, labelled with what it returns. -/
def i2sStep (s : System) (l : I2sOp × Int) (s' : System) : Prop :=
  i2sExec s.i2s l.1 = (l.2, s'.i2s) ∧ s'.started = startedAfter s.started l

/-- A device out of reset, with any configuration. -/
structure Init (s : System) : Prop where
  ctl0 : s.i2s.i2s_base.CTL0 = 0#32
  started : s.started = fun _ => false

/-- An audio parameter. -/
inductive AudioParam
  | samplerate
  | channels
  | samplebits
deriving DecidableEq

/-- How a request names a parameter. Reference: `audio.h:59` to `:61`. -/
def AudioParam.subType : AudioParam → Int
  | samplerate => AUDIO_DSP_SAMPLERATE
  | channels => AUDIO_DSP_CHANNELS
  | samplebits => AUDIO_DSP_SAMPLEBITS

/-- The value of a parameter. -/
def RtAudioConfigure.get (config : RtAudioConfigure) : AudioParam → BitVec 32
  | .samplerate => config.samplerate
  | .channels => config.channels.zeroExtend 32
  | .samplebits => config.samplebits.zeroExtend 32

/-- `nu_i2s_getcaps` answers a value of a parameter, alone or with the others. -/
def Reports (s : NuI2s) (p : AudioParam) (v : BitVec 32) : Prop :=
  ∀ ops caps, caps.main_type = AUDIO_TYPE_INPUT ∨ caps.main_type = AUDIO_TYPE_OUTPUT →
    caps.sub_type = p.subType ∨ caps.sub_type = AUDIO_DSP_PARAM →
    (nuI2sGetcaps ops s caps).1 = RT_EOK ∧ (nuI2sGetcaps ops s caps).2.udata.get p = v

/-- The enables of a stream are on when and only when it was started last. -/
def StreamsOn (s : System) : Prop := ∀ e stream, enabled s.i2s e stream = s.started stream

/-- A parameter configured is reported from then on, and the others are reported as before. -/
def Configured (s : System) (l : I2sOp × Int) (s' : System) : Prop :=
  ∀ caps ops clk p, l = (.configure caps ops clk, RT_EOK) →
    caps.main_type = AUDIO_TYPE_INPUT ∨ caps.main_type = AUDIO_TYPE_OUTPUT →
    caps.sub_type = p.subType →
    ∀ q, Reports s'.i2s q (if q = p then caps.udata.get p else s.i2s.config.get q)

/-- An operation leaves the enables and the parameters as they should be. -/
def Right (s : System) (l : I2sOp × Int) (s' : System) : Prop := StreamsOn s' ∧ Configured s l s'

/-! ## When it holds -/

/-- The codec has the functions without which the controller is not opened. -/
def CanOpen (ops : NuAcodecOps) : Prop :=
  ops.nu_acodec_init.isSome = true ∧ ops.nu_acodec_dsp_control.isSome = true

/-- The configuration is one that the driver supports and none of the codec's functions refuses. -/
def Accepts (ops : NuAcodecOps) (s : NuI2s) : Prop :=
  nuI2sCapacityCheck s.config = true ∧ (acodecReset ops s.acodecConfig).1 = RT_EOK ∧
  ∀ nu_acodec_init ∈ ops.nu_acodec_init,
    (nu_acodec_init (acodecReset ops s.acodecConfig).2).1 = RT_EOK ∧
    ∀ nu_acodec_dsp_control ∈ ops.nu_acodec_dsp_control,
      (nu_acodec_dsp_control s.config
        (nu_acodec_init (acodecReset ops s.acodecConfig).2).2).1 = RT_EOK

/-- The other stream. -/
def AudioStream.other : AudioStream → AudioStream
  | replay => record
  | record => replay

/-- A stream is off. -/
def Off (s : NuI2s) (stream : AudioStream) : Prop := ∀ e, enabled s e stream = false

/-- The controller is opened only while the other stream is off, a start is refused only while the
stream itself is off; a change of the configuration is accepted only while its stream is on and it is
of the sample rate or of all parameters, and where the sample bits asked for are the sample rate they
are the sample bits. -/
def Safe (s : System) : I2sOp × Int → Prop
  | (.start stream ops _, _) =>
    (Accepts ops s.i2s → CanOpen ops → Off s.i2s stream.other) ∧
      (¬ Accepts ops s.i2s → Off s.i2s stream)
  | (.stop _, _) => True
  | (.configure caps ops _, _) =>
    ∀ stream ∈ streamOf caps.main_type, ∀ r ∈ configureFields s.i2s caps.sub_type caps.udata,
      (r.1 = true → Accepts ops r.2 →
        (caps.sub_type = AUDIO_DSP_PARAM ∨ caps.sub_type = AUDIO_DSP_SAMPLERATE) ∧
        ¬ Off s.i2s stream ∧ (CanOpen ops → Off s.i2s stream.other)) ∧
      (r.1 = true → ¬ Accepts ops r.2 → Off s.i2s stream) ∧
      (r.1 = false → caps.sub_type = AUDIO_DSP_SAMPLEBITS →
        s.i2s.config.samplebits = caps.udata.samplebits)

/-! ## Enables -/

variable {s s' : NuI2s} {e e' : Enable} {stream stream' : AudioStream} {ops : NuAcodecOps}
  {clk : BitVec 32} {config : RtAudioConfigure} {p : AudioParam} {v : BitVec 32}

theorem pos_inj : e.pos stream = e'.pos stream' ↔ e = e' ∧ stream = stream' := by
  cases e <;> cases stream <;> cases e' <;> cases stream' <;> decide

theorem pos_lt : e.pos stream < 32 := by
  cases e <;> cases stream <;> decide

/-- No enable is the bit of the controller or of its clock. -/
theorem pos_ne : e.pos stream ≠ 0 ∧ e.pos stream ≠ 15 := by
  cases e <;> cases stream <;> decide

theorem enabled_or : enabled (s.setCTL0 (s.i2s_base.CTL0 ||| 1#32 <<< e.pos stream)) e' stream' =
    (enabled s e' stream' || decide (e' = e ∧ stream' = stream)) := by
  refine (getLsbD_or_bit pos_lt).trans ?_
  simp only [pos_inj]
  rfl

theorem enabled_and_not :
    enabled (s.setCTL0 (s.i2s_base.CTL0 &&& ~~~(1#32 <<< e.pos stream))) e' stream' =
      (enabled s e' stream' && !decide (e' = e ∧ stream' = stream)) := by
  refine (getLsbD_and_not_bit pos_lt).trans ?_
  simp only [ne_eq, pos_inj, decide_not]
  rfl

theorem dmaMsk_eq (stream : AudioStream) : dmaMsk stream = 1#32 <<< Enable.dma.pos stream := by
  cases stream with
  | replay => rfl
  | record => rfl

theorem pathMsk_eq (stream : AudioStream) : pathMsk stream = 1#32 <<< Enable.path.pos stream := by
  cases stream with
  | replay => rfl
  | record => rfl

theorem all_enables (e : Enable) : e = .dma ∨ e = .path := by
  cases e with
  | path => exact .inr rfl
  | dma => exact .inl rfl

/-- A stop clears the enables of its stream. -/
theorem enabled_stop (s : NuI2s) (stream : AudioStream) :
    enabled (nuI2sStop s stream).2 e' stream' = (enabled s e' stream' && decide (stream' ≠ stream)) := by
  have hcleared : enabled ((s.setCTL0 (s.i2s_base.CTL0 &&& ~~~dmaMsk stream)).setCTL0
      ((s.i2s_base.CTL0 &&& ~~~dmaMsk stream) &&& ~~~pathMsk stream)) e' stream' =
      (enabled s e' stream' && decide (stream' ≠ stream)) := by
    rw [pathMsk_eq, dmaMsk_eq]
    refine (enabled_and_not (s := s.setCTL0 _)).trans ?_
    rw [enabled_and_not]
    by_cases heq : stream' = stream
    · rcases all_enables e' with rfl | rfl
      · simp [heq]
      · simp [heq]
    · simp [heq]
  have hclosed : ∀ d : NuI2s, enabled { d with i2s_base := i2sClose (i2sDisableMCLK d.i2s_base) }
      e' stream' = enabled d e' stream' := by
    intro d
    refine (getLsbD_and_not_bit (k := 0) (by decide)).trans ?_
    rw [decide_eq_true pos_ne.1, Bool.and_true]
    refine (getLsbD_and_not_bit (k := 15) (by decide)).trans ?_
    rw [decide_eq_true pos_ne.2, Bool.and_true]
    rfl
  rw [← hcleared]
  simp only [nuI2sStop]
  split
  · exact hclosed _
  · rfl

/-- The controller opened has no stream on. -/
theorem i2sOpen_off (hcap : nuI2sCapacityCheck config = true) (mode mono : Bool) (u32SrcClk : BitVec 32) :
    (i2sEnableMCLK u32SrcClk (i2sOpen u32SrcClk (if mode then I2S_CTL0_SLAVE_Msk else 0#32)
      config.samplerate (((config.samplebits / 8#16).zeroExtend 32 - 1#32) <<< 4)
      (if mono then I2S_CTL0_MONO_Msk else 0#32) 0#32).2 12000000#32).CTL0.getLsbD (e.pos stream) =
      false := by
  have hbits : config.samplebits = 8#16 ∨ config.samplebits = 16#16 ∨ config.samplebits = 32#16 :=
    (of_decide_eq_true hcap).1
  simp only [i2sEnableMCLK, i2sOpen]
  rcases hbits with h | h | h <;> rw [h] <;> cases mode <;> cases mono <;> cases e <;>
    cases stream <;> decide

/-- What setting up the codec and the controller comes to: it is refused and the controller stays as
it is, it is accepted without the controller being opened, or it opens it. -/
structure SetUp (ops : NuAcodecOps) (s : NuI2s) (r : Int × NuI2s) : Prop where
  ok : r.1 = RT_EOK ↔ Accepts ops s
  config : r.2.config = s.config
  kept : ¬ (Accepts ops s ∧ CanOpen ops) → ∀ e stream, enabled r.2 e stream = enabled s e stream
  opened : Accepts ops s → CanOpen ops → ∀ stream, Off r.2 stream

theorem SetUp.refused {r : Int × NuI2s} (hret : r.1 ≠ RT_EOK) (hnot : ¬ Accepts ops s)
    (hconfig : r.2.config = s.config) (hbase : r.2.i2s_base = s.i2s_base) : SetUp ops s r where
  ok := ⟨fun h => absurd h hret, fun h => absurd h hnot⟩
  config := hconfig
  kept _ e stream := by rw [enabled, enabled, hbase]
  opened h := absurd h hnot

theorem SetUp.unopened {r : Int × NuI2s} (hret : r.1 = RT_EOK) (hok : Accepts ops s)
    (hnot : ¬ CanOpen ops) (hconfig : r.2.config = s.config) (hbase : r.2.i2s_base = s.i2s_base) :
    SetUp ops s r where
  ok := ⟨fun _ => hok, fun _ => hret⟩
  config := hconfig
  kept _ e stream := by rw [enabled, enabled, hbase]
  opened _ h := absurd h hnot

theorem nuI2sDaiSetup_spec (ops : NuAcodecOps) (clk : BitVec 32) (s : NuI2s) :
    SetUp ops s (nuI2sDaiSetup ops clk s) := by
  by_cases hcap : nuI2sCapacityCheck s.config = true
  · rcases hr : acodecReset ops s.acodecConfig with ⟨result, own⟩
    have haccepts : Accepts ops s ↔ nuI2sCapacityCheck s.config = true ∧ result = RT_EOK ∧
        ∀ init ∈ ops.nu_acodec_init, (init own).1 = RT_EOK ∧
          ∀ dsp ∈ ops.nu_acodec_dsp_control, (dsp s.config (init own).2).1 = RT_EOK := by
      rw [Accepts, hr]
    rw [nuI2sDaiSetup, if_pos hcap, hr]
    dsimp only
    by_cases hreset : result = RT_EOK
    · rw [if_neg (not_not.2 hreset)]
      cases hinit : ops.nu_acodec_init with
      | none =>
        refine .unopened hreset (haccepts.2 ⟨hcap, hreset, ?_⟩) ?_ rfl rfl
        · intro init hmem
          rw [hinit] at hmem
          cases hmem
        · intro hopen
          have hsome := hopen.1
          rw [hinit] at hsome
          cases hsome
      | some init =>
        dsimp only
        by_cases hret : (init own).1 = RT_EOK
        · rw [if_neg (not_not.2 hret)]
          have hok : (∀ dsp ∈ ops.nu_acodec_dsp_control, (dsp s.config (init own).2).1 = RT_EOK) →
              Accepts ops s := by
            refine fun hdsp => haccepts.2 ⟨hcap, hreset, fun init' hmem => ?_⟩
            rw [hinit] at hmem
            cases hmem
            exact ⟨hret, hdsp⟩
          cases hdsp : ops.nu_acodec_dsp_control with
          | none =>
            refine .unopened hret (hok fun dsp hmem => ?_) ?_ rfl rfl
            · rw [hdsp] at hmem
              cases hmem
            · intro hopen
              have hsome := hopen.2
              rw [hdsp] at hsome
              cases hsome
          | some dsp =>
            dsimp only
            by_cases hdspret : (dsp s.config (init own).2).1 = RT_EOK
            · rw [if_neg (not_not.2 hdspret)]
              have hok : Accepts ops s := by
                refine hok fun dsp' hmem => ?_
                rw [hdsp] at hmem
                cases hmem
                exact hdspret
              have hopen : CanOpen ops := ⟨by rw [hinit]; rfl, by rw [hdsp]; rfl⟩
              refine ⟨⟨fun _ => hok, fun _ => hdspret⟩, rfl, fun hnot => absurd ⟨hok, hopen⟩ hnot, ?_⟩
              intro _ _ stream e
              have hoff := @i2sOpen_off e stream _ hcap (decide (ops.role = .master))
                (decide (s.config.channels = 1#16)) clk
              simp only [decide_eq_true_eq] at hoff
              exact hoff
            · rw [if_pos hdspret]
              refine .refused hdspret (fun h => hdspret ?_) rfl rfl
              exact ((haccepts.1 h).2.2 init hinit).2 dsp hdsp
        · rw [if_pos hret]
          exact .refused hret (fun h => hret ((haccepts.1 h).2.2 init hinit).1) rfl rfl
    · rw [if_pos hreset]
      exact .refused hreset (fun h => hreset (haccepts.1 h).2.1) rfl rfl
  · rw [nuI2sDaiSetup, if_neg hcap]
    have hret : -RT_EINVAL ≠ RT_EOK := by decide
    exact .refused hret (fun h => hcap h.1) rfl rfl

/-! ## Operations -/

theorem Accepts.congr (hconfig : s'.config = s.config) (hown : s'.acodecConfig = s.acodecConfig) :
    Accepts ops s' ↔ Accepts ops s := by
  rw [Accepts, Accepts, hconfig, hown]

theorem nuI2sStop_config (s : NuI2s) (stream : AudioStream) :
    (nuI2sStop s stream).1 = RT_EOK ∧ (nuI2sStop s stream).2.config = s.config ∧
      (nuI2sStop s stream).2.acodecConfig = s.acodecConfig := by
  unfold nuI2sStop
  dsimp only
  split
  · exact ⟨rfl, rfl, rfl⟩
  · exact ⟨rfl, rfl, rfl⟩

theorem enabled_start : enabled ((s.setCTL0 (s.i2s_base.CTL0 ||| dmaMsk stream)).setCTL0
    ((s.i2s_base.CTL0 ||| dmaMsk stream) ||| pathMsk stream)) e' stream' =
      (enabled s e' stream' || decide (stream' = stream)) := by
  rw [pathMsk_eq, dmaMsk_eq]
  refine (enabled_or (s := s.setCTL0 _)).trans ?_
  rw [enabled_or]
  by_cases heq : stream' = stream
  · rcases all_enables e' with rfl | rfl
    · simp [heq]
    · simp [heq]
  · simp [heq]

/-- What a start comes to. -/
structure Started (ops : NuAcodecOps) (s : NuI2s) (stream : AudioStream) (r : Int × NuI2s) : Prop where
  ok : r.1 = RT_EOK ↔ Accepts ops s
  config : r.2.config = s.config
  accepted : Accepts ops s → ∀ e, enabled r.2 e stream = true
  opened : Accepts ops s → CanOpen ops → ∀ {stream'}, stream' ≠ stream → Off r.2 stream'
  unopened : ¬ CanOpen ops → ∀ {stream'}, stream' ≠ stream → ∀ e,
    enabled r.2 e stream' = enabled s e stream'
  refused : ¬ Accepts ops s → ∀ e stream',
    enabled r.2 e stream' = (enabled s e stream' && decide (stream' ≠ stream))

theorem nuI2sStart_spec (ops : NuAcodecOps) (clk : BitVec 32) (s : NuI2s) (stream : AudioStream) :
    Started ops s stream (nuI2sStart ops clk s stream) := by
  obtain ⟨-, hconfig, hown⟩ := nuI2sStop_config s stream
  have hsetup := nuI2sDaiSetup_spec ops clk (nuI2sStop s stream).2
  have hiff : Accepts ops (nuI2sStop s stream).2 ↔ Accepts ops s := Accepts.congr hconfig hown
  unfold nuI2sStart
  dsimp only
  by_cases hret : (nuI2sDaiSetup ops clk (nuI2sStop s stream).2).1 = RT_EOK
  · have hok : Accepts ops s := hiff.1 (hsetup.ok.1 hret)
    rw [if_neg (not_not.2 hret)]
    refine ⟨⟨fun _ => hok, fun _ => rfl⟩, hsetup.config.trans hconfig, ?_, ?_, ?_,
      fun h => absurd hok h⟩
    · intro _ e
      refine enabled_start.trans ?_
      rw [decide_eq_true rfl, Bool.or_true]
    · intro _ hopen stream' hne e
      refine enabled_start.trans ?_
      rw [hsetup.opened (hiff.2 hok) hopen stream' e, decide_eq_false hne]
      rfl
    · intro hnot stream' hne e
      refine enabled_start.trans ?_
      rw [hsetup.kept fun h => hnot h.2, enabled_stop, decide_eq_false hne, decide_eq_true hne,
        Bool.or_false, Bool.and_true]
  · have hno : ¬ Accepts ops s := fun h => hret (hsetup.ok.2 (hiff.2 h))
    have herr : -RT_ERROR ≠ RT_EOK := by decide
    rw [if_pos hret]
    refine ⟨⟨fun h => absurd h herr, fun h => absurd h hno⟩, hsetup.config.trans hconfig,
      fun h => absurd h hno, fun h => absurd h hno, ?_, ?_⟩
    · intro _ stream' hne e
      rw [hsetup.kept fun h => hno (hiff.1 h.1), enabled_stop, decide_eq_true hne, Bool.and_true]
    · intro _ e stream'
      rw [hsetup.kept fun h => hno (hiff.1 h.1), enabled_stop]

theorem AudioStream.other_ne (stream : AudioStream) : stream.other ≠ stream := by
  cases stream with
  | replay => exact AudioStream.noConfusion
  | record => exact AudioStream.noConfusion

theorem AudioStream.eq_other (h : stream' ≠ stream) : stream' = stream.other := by
  cases stream <;> cases stream' <;> first | rfl | exact absurd rfl h

variable {started : AudioStream → Bool} {r : Int × NuI2s}

/-- A start that is accepted leaves the stream on, and the other one if the controller was not
opened. -/
theorem Started.accepted_iff (h : Started ops s stream r) (hok : Accepts ops s)
    (hon : ∀ e stream, enabled s e stream = started stream) :
    (∀ e stream', enabled r.2 e stream' = Function.update started stream true stream') ↔
      (CanOpen ops → Off s stream.other) := by
  constructor
  · intro hright hopen e
    have hoff := h.opened hok hopen stream.other_ne e
    rw [hright, Function.update_of_ne stream.other_ne] at hoff
    rw [hon, hoff]
  · intro hoff e stream'
    by_cases heq : stream' = stream
    · rw [heq, h.accepted hok, Function.update_self]
    · rw [Function.update_of_ne heq]
      by_cases hopen : CanOpen ops
      · rw [h.opened hok hopen heq e, ← hon e]
        rw [AudioStream.eq_other heq]
        exact (hoff hopen e).symm
      · rw [h.unopened hopen heq, hon]

/-- A start that is refused leaves the stream off. -/
theorem Started.refused_iff (h : Started ops s stream r) (hno : ¬ Accepts ops s)
    (hon : ∀ e stream, enabled s e stream = started stream) :
    (∀ e stream', enabled r.2 e stream' = started stream') ↔ Off s stream := by
  constructor
  · intro hright e
    have hoff := h.refused hno e stream
    rw [hright, decide_eq_false (not_not.2 rfl), Bool.and_false] at hoff
    rw [hon, hoff]
  · intro hoff e stream'
    rw [h.refused hno]
    by_cases heq : stream' = stream
    · rw [heq, hoff e, ← hon e, hoff e]
      rfl
    · rw [decide_eq_true heq, Bool.and_true, hon]

/-! ## Parameters -/

/-- What is reported is the device's configuration. -/
theorem reports_iff : Reports s p v ↔ s.config.get p = v := by
  constructor
  · intro h
    have hreport := h ⟨.master, none, none, none, none⟩ ⟨AUDIO_TYPE_INPUT, AUDIO_DSP_PARAM, s.config⟩
      (.inl rfl) (.inr rfl)
    exact hreport.2
  · rintro rfl ops ⟨main_type, sub_type, udata⟩ hmain hsub
    have hquery : main_type ≠ AUDIO_TYPE_QUERY := by
      rcases hmain with rfl | rfl <;> decide
    have hmixer : main_type ≠ AUDIO_TYPE_MIXER := by
      rcases hmain with rfl | rfl <;> decide
    rw [nuI2sGetcaps]
    simp only [if_neg hquery, if_neg hmixer, if_pos hmain]
    rcases hsub with rfl | rfl
    · cases p with
      | samplerate => exact ⟨rfl, rfl⟩
      | channels => exact ⟨rfl, rfl⟩
      | samplebits => exact ⟨rfl, rfl⟩
    · exact ⟨rfl, rfl⟩

/-- A configuration is that of a request but for the fields it names. -/
def Sets (config config' : RtAudioConfigure) (p : AudioParam) (v : BitVec 32) : Prop :=
  ∀ q, config'.get q = if q = p then v else config.get q

/-- A request sets the parameter it names and no other. -/
def SetsNamed (config config' asked : RtAudioConfigure) (sub_type : Int) : Prop :=
  ∀ p : AudioParam, sub_type = p.subType → Sets config config' p (asked.get p)

theorem configured_iff {sys sys' : System} {caps : RtAudioCaps} {ret : Int}
    (hmain : caps.main_type = AUDIO_TYPE_INPUT ∨ caps.main_type = AUDIO_TYPE_OUTPUT) :
    Configured sys (.configure caps ops clk, ret) sys' ↔
      (ret = RT_EOK → SetsNamed sys.i2s.config sys'.i2s.config caps.udata caps.sub_type) := by
  constructor
  · rintro h rfl p hsub q
    exact reports_iff.1 (h caps ops clk p rfl hmain hsub q)
  · intro h caps' ops' clk' p heq _ hsub q
    cases heq
    exact reports_iff.2 (h rfl p hsub q)

theorem streamOf_some {main_type : Int} (h : streamOf main_type = some stream) :
    (main_type = AUDIO_TYPE_INPUT ∨ main_type = AUDIO_TYPE_OUTPUT) ∧ main_type ≠ AUDIO_TYPE_MIXER := by
  unfold streamOf at h
  split at h
  · next heq =>
    rw [heq]
    exact ⟨.inl rfl, by decide⟩
  · split at h
    · next heq =>
      rw [heq]
      exact ⟨.inr rfl, by decide⟩
    · cases h

theorem streamOf_none {main_type : Int} (h : streamOf main_type = none) :
    ¬ (main_type = AUDIO_TYPE_INPUT ∨ main_type = AUDIO_TYPE_OUTPUT) := by
  rintro (rfl | rfl)
  · cases h
  · cases h

theorem subType_inj {q : AudioParam} (h : p.subType = q.subType) : p = q := by
  cases p <;> cases q <;> first | rfl | exact absurd h (by decide)

theorem setsNamed_iff {config' asked : RtAudioConfigure} :
    SetsNamed config config' asked p.subType ↔ Sets config config' p (asked.get p) := by
  constructor
  · exact fun h => h p rfl
  · intro h q hq
    rw [← subType_inj hq]
    exact h

theorem zeroExtend_inj {x y : BitVec 16} (h : x.zeroExtend 32 = y.zeroExtend 32) : x = y := by
  have htrunc := congrArg (BitVec.truncate 16) h
  simpa using htrunc

/-- A configuration that is not changed has the parameter asked for or has it not. -/
theorem sets_self_iff {asked : RtAudioConfigure} :
    Sets config config p (asked.get p) ↔ config.get p = asked.get p := by
  constructor
  · intro h
    have hp := h p
    rwa [if_pos rfl] at hp
  · intro h q
    split
    · next heq => rw [heq, h]
    · rfl

/-- A request that changes a field sets the parameter it names, unless that is the channels or the
sample bits. One that changes none is right, but for the sample bits, which it compares with the
sample rate. -/
theorem configureFields_cases {sub_type : Int} {asked : RtAudioConfigure} {restart : Bool} {d : NuI2s}
    (h : configureFields s sub_type asked = some (restart, d)) :
    d.i2s_base = s.i2s_base ∧
    (restart = true → (SetsNamed s.config d.config asked sub_type ↔
      sub_type = AUDIO_DSP_PARAM ∨ sub_type = AUDIO_DSP_SAMPLERATE)) ∧
    (restart = false → d = s ∧ (SetsNamed s.config d.config asked sub_type ↔
      (sub_type = AUDIO_DSP_SAMPLEBITS → s.config.samplebits = asked.samplebits))) := by
  have hparam : ∀ config' : RtAudioConfigure, SetsNamed s.config config' asked AUDIO_DSP_PARAM := by
    intro config' p hp
    cases p <;> exact absurd hp (by decide)
  unfold configureFields at h
  split at h
  · next hsub =>
    subst hsub
    split at h
    · cases h
      exact ⟨rfl, fun _ => ⟨fun _ => .inl rfl, fun _ => hparam _⟩, fun h => absurd h (by decide)⟩
    · cases h
      refine ⟨rfl, fun h => absurd h (by decide), fun _ => ⟨rfl, fun _ h => ?_, fun _ => hparam _⟩⟩
      exact absurd h (by decide)
  · split at h
    · next hsub =>
      subst hsub
      have hnamed : ∀ config', SetsNamed s.config config' asked AUDIO_DSP_SAMPLEBITS ↔
          Sets s.config config' .samplebits (asked.get .samplebits) :=
        fun _ => setsNamed_iff (p := .samplebits)
      split at h
      · next hne =>
        cases h
        refine ⟨rfl, fun _ => ?_, fun h => absurd h (by decide)⟩
        rw [hnamed]
        constructor
        · intro hsets
          exact absurd (hsets .samplerate).symm hne
        · intro hor
          exact absurd hor (by decide)
      · cases h
        refine ⟨rfl, fun h => absurd h (by decide), fun _ => ⟨rfl, ?_⟩⟩
        rw [hnamed, sets_self_iff]
        exact ⟨fun h _ => zeroExtend_inj h, fun h => congrArg (BitVec.zeroExtend 32) (h rfl)⟩
    · split at h
      · next hsub =>
        subst hsub
        have hnamed : ∀ config', SetsNamed s.config config' asked AUDIO_DSP_CHANNELS ↔
            Sets s.config config' .channels (asked.get .channels) :=
          fun _ => setsNamed_iff (p := .channels)
        split at h
        · next hne =>
          cases h
          refine ⟨rfl, fun _ => ?_, fun h => absurd h (by decide)⟩
          rw [hnamed, sets_self_iff]
          constructor
          · intro heq
            exact absurd (zeroExtend_inj heq) hne
          · intro hor
            exact absurd hor (by decide)
        · next heq =>
          cases h
          refine ⟨rfl, fun h => absurd h (by decide), fun _ => ⟨rfl, ?_⟩⟩
          rw [hnamed, sets_self_iff]
          exact ⟨fun _ h => absurd h (by decide),
            fun _ => congrArg (BitVec.zeroExtend 32) (not_not.1 heq)⟩
      · split at h
        · next hsub =>
          subst hsub
          have hnamed : ∀ config', SetsNamed s.config config' asked AUDIO_DSP_SAMPLERATE ↔
              Sets s.config config' .samplerate (asked.get .samplerate) :=
            fun _ => setsNamed_iff (p := .samplerate)
          split at h
          · cases h
            refine ⟨rfl, fun _ => ⟨fun _ => .inr rfl, fun _ => ?_⟩, fun h => absurd h (by decide)⟩
            rw [hnamed]
            intro q
            cases q <;> rfl
          · next heq =>
            cases h
            refine ⟨rfl, fun h => absurd h (by decide), fun _ => ⟨rfl, ?_⟩⟩
            rw [hnamed, sets_self_iff]
            exact ⟨fun _ h => absurd h (by decide), fun _ => not_not.1 heq⟩
        · cases h

/-! ## Every run meets the specification -/

theorem streamsOn_of_reset {sys : System} (h : Init sys) : StreamsOn sys := by
  intro e stream
  rw [enabled, h.ctl0, h.started]
  exact BitVec.getLsbD_zero

/-- A start on streams that are as they should be. -/
theorem right_start_iff {sys : System} {i2s' : NuI2s} {ret : Int} (hon : StreamsOn sys)
    (hexec : nuI2sStart ops clk sys.i2s stream = (ret, i2s')) :
    StreamsOn ⟨i2s', startedAfter sys.started (.start stream ops clk, ret)⟩ ↔
      (Accepts ops sys.i2s → CanOpen ops → Off sys.i2s stream.other) ∧
        (¬ Accepts ops sys.i2s → Off sys.i2s stream) := by
  have hspec := nuI2sStart_spec ops clk sys.i2s stream
  rw [hexec] at hspec
  by_cases hok : Accepts ops sys.i2s
  · have hret : ret = RT_EOK := hspec.ok.2 hok
    rw [startedAfter, if_pos hret]
    refine (hspec.accepted_iff hok hon).trans ⟨fun h => ⟨fun _ => h, fun hno => absurd hok hno⟩, ?_⟩
    exact fun h => h.1 hok
  · have hret : ret ≠ RT_EOK := fun h => hok (hspec.ok.1 h)
    rw [startedAfter, if_neg hret]
    refine (hspec.refused_iff hok hon).trans ⟨fun h => ⟨fun hyes => absurd hyes hok, fun _ => h⟩, ?_⟩
    exact fun h => h.2 hok

/-- A start on a request to configure, which does not count as one of the stream. -/
theorem restart_iff {sys : System} {d i2s' : NuI2s} {ret : Int} (hon : StreamsOn sys)
    (hbase : d.i2s_base = sys.i2s.i2s_base) (hexec : nuI2sStart ops clk d stream = (ret, i2s')) :
    (ret = RT_EOK ↔ Accepts ops d) ∧ i2s'.config = d.config ∧
    (StreamsOn ⟨i2s', sys.started⟩ ↔
      (Accepts ops d → ¬ Off sys.i2s stream ∧ (CanOpen ops → Off sys.i2s stream.other)) ∧
        (¬ Accepts ops d → Off sys.i2s stream)) := by
  have hspec := nuI2sStart_spec ops clk d stream
  rw [hexec] at hspec
  have hoff : ∀ stream, Off d stream ↔ Off sys.i2s stream := by
    intro stream
    simp only [Off, enabled, hbase]
  have hond : ∀ e stream, enabled d e stream = sys.started stream := by
    intro e stream
    rw [enabled, hbase]
    exact hon e stream
  refine ⟨hspec.ok, hspec.config, ?_⟩
  by_cases hok : Accepts ops d
  · have hself : ¬ Off sys.i2s stream ↔ Function.update sys.started stream true = sys.started := by
      rw [Function.update_eq_self_iff, ← hon .path stream]
      constructor
      · intro hnot
        by_contra hne
        refine hnot fun e => ?_
        rw [hon e, ← hon .path stream]
        exact Bool.eq_false_iff.2 fun h => hne h.symm
      · intro heq hall
        rw [hall .path] at heq
        cases heq
    constructor
    · intro hright
      have hon' : Function.update sys.started stream true = sys.started := by
        rw [Function.update_eq_self_iff, ← hright .path stream]
        exact (hspec.accepted hok .path).symm
      refine ⟨fun _ => ⟨hself.2 hon', ?_⟩, fun hno => absurd hok hno⟩
      rw [← hoff]
      refine (hspec.accepted_iff hok hond).1 fun e stream' => ?_
      rw [hon']
      exact hright e stream'
    · intro h
      obtain ⟨hnot, hother⟩ := h.1 hok
      rw [← hoff] at hother
      intro e stream'
      have hstarted := (hspec.accepted_iff hok hond).2 hother e stream'
      rw [hself.1 hnot] at hstarted
      exact hstarted
  · refine ((hspec.refused_iff hok hond).trans (hoff stream)).trans ?_
    exact ⟨fun h => ⟨fun hyes => absurd hyes hok, fun _ => h⟩, fun h => h.2 hok⟩

/-- An operation on streams that are as they should be leaves them and the parameters as they should
be when and only when it is safe. -/
theorem right_iff {sys sys' : System} {l : I2sOp × Int} (hon : StreamsOn sys)
    (hstep : i2sStep sys l sys') : Right sys l sys' ↔ Safe sys l := by
  obtain ⟨op, ret⟩ := l
  obtain ⟨i2s', started'⟩ := sys'
  obtain ⟨hexec, hstarted⟩ := hstep
  change i2sExec sys.i2s op = (ret, i2s') at hexec
  change started' = startedAfter sys.started (op, ret) at hstarted
  subst hstarted
  cases op with
  | start stream ops clk =>
    have hconf : Configured sys (.start stream ops clk, ret)
        ⟨i2s', startedAfter sys.started (.start stream ops clk, ret)⟩ := by
      intro caps ops' clk' p heq
      cases heq
    exact (and_iff_left hconf).trans (right_start_iff hon hexec)
  | stop stream =>
    refine iff_of_true ⟨?_, ?_⟩ trivial
    · have hret := (nuI2sStop_config sys.i2s stream).1
      have hexec' : nuI2sStop sys.i2s stream = (ret, i2s') := hexec
      rw [hexec'] at hret
      intro e stream'
      have hstop : enabled i2s' e stream' = (enabled sys.i2s e stream' && decide (stream' ≠ stream)) := by
        rw [← enabled_stop sys.i2s stream, hexec']
      simp only [hstop, startedAfter, if_pos hret, Function.update_apply, hon e stream']
      split
      · next heq => simp [heq]
      · next hne => simp [hne]
    · intro caps ops' clk' p heq
      cases heq
  | configure caps ops clk =>
    have hexec' : nuI2sConfigure ops clk sys.i2s caps = (ret, i2s') := hexec
    cases hstream : streamOf caps.main_type with
    | none =>
      have hsame : i2s' = sys.i2s := by
        rw [nuI2sConfigure, hstream] at hexec'
        split at hexec'
        · cases hexec'
          rfl
        · cases hexec'
          rfl
      subst hsame
      refine iff_of_true ⟨hon, ?_⟩ ?_
      · intro caps' ops' clk' p heq hmain
        cases heq
        exact absurd hmain (streamOf_none hstream)
      · intro stream hmem
        rw [hstream] at hmem
        cases hmem
    | some stream =>
      obtain ⟨hmain, hmixer⟩ := streamOf_some hstream
      rw [nuI2sConfigure, if_neg hmixer, hstream] at hexec'
      cases hfields : configureFields sys.i2s caps.sub_type caps.udata with
      | none =>
        simp only [hfields] at hexec'
        cases hexec'
        refine iff_of_true ⟨hon, (configured_iff hmain).2 fun h => absurd h (by decide)⟩ ?_
        intro stream' _ r hr
        rw [hfields] at hr
        cases hr
      | some fields =>
        obtain ⟨restart, d⟩ := fields
        obtain ⟨hbase, hchanged, hkept⟩ := configureFields_cases hfields
        simp only [hfields] at hexec'
        have hsafe : Safe sys (.configure caps ops clk, ret) ↔
            (restart = true → Accepts ops d →
              (caps.sub_type = AUDIO_DSP_PARAM ∨ caps.sub_type = AUDIO_DSP_SAMPLERATE) ∧
              ¬ Off sys.i2s stream ∧ (CanOpen ops → Off sys.i2s stream.other)) ∧
            (restart = true → ¬ Accepts ops d → Off sys.i2s stream) ∧
            (restart = false → caps.sub_type = AUDIO_DSP_SAMPLEBITS →
              sys.i2s.config.samplebits = caps.udata.samplebits) := by
          simp only [Safe, hstream, hfields, Option.mem_some_iff, forall_eq']
        rw [hsafe, Right, configured_iff hmain]
        cases restart with
        | true =>
          obtain ⟨hret, hconfig, hstreams⟩ := restart_iff hon hbase hexec'
          have hon' : StreamsOn ⟨i2s', startedAfter sys.started (.configure caps ops clk, ret)⟩ ↔ _ :=
            hstreams
          rw [hon', hconfig, hchanged rfl, hret]
          constructor
          · rintro ⟨⟨hok, hno⟩, hset⟩
            exact ⟨fun _ h => ⟨hset h, hok h⟩, fun _ => hno, fun h => absurd h (by decide)⟩
          · rintro ⟨hok, hno, -⟩
            exact ⟨⟨fun h => (hok rfl h).2, hno rfl⟩, fun h => (hok rfl h).1⟩
        | false =>
          obtain ⟨hsame, hnamed⟩ := hkept rfl
          subst hsame
          cases hexec'
          rw [hnamed]
          constructor
          · rintro ⟨-, h⟩
            exact ⟨fun h => absurd h (by decide), fun h => absurd h (by decide), fun _ => h rfl⟩
          · exact fun h => ⟨hon, fun _ => h.2.2 rfl⟩

/-- Over every run of safe operations a stream's enables are on when and only when it was started
last, and the next operation leaves this and the parameters right when and only when it is safe. -/
theorem i2sStreams_run {sys₀ sys : System} {labels : List (I2sOp × Int)} (hinit : Init sys₀)
    (h : Run (where_ i2sStep Safe) sys₀ labels sys) :
    StreamsOn sys ∧ ∀ {l sys'}, i2sStep sys l sys' → (Right sys l sys' ↔ Safe sys l) := by
  have hon : StreamsOn sys :=
    h.invariant (I := StreamsOn) (fun hon hs => ((right_iff hon hs.2).2 hs.1).1)
      (streamsOn_of_reset hinit)
  exact ⟨hon, right_iff hon⟩

/-- The state after an operation. -/
def next (sys : System) (op : I2sOp) : System :=
  ⟨(i2sExec sys.i2s op).2, startedAfter sys.started (op, (i2sExec sys.i2s op).1)⟩

theorem step_next (sys : System) (op : I2sOp) :
    i2sStep sys (op, (i2sExec sys.i2s op).1) (next sys op) := ⟨rfl, rfl⟩

/-- A codec that takes everything. -/
def codec : NuAcodecOps where
  role := .master
  nu_acodec_init := some fun own => (RT_EOK, own)
  nu_acodec_reset := some fun own => (RT_EOK, own)
  nu_acodec_dsp_control := some fun config _ => (RT_EOK, config)
  nu_acodec_mixer_query := none

/-- A device out of reset for 48 kHz stereo. -/
def device : System :=
  ⟨⟨⟨48000#32, 2#16, 16#16⟩, .reset, ⟨48000#32, 2#16, 16#16⟩⟩, fun _ => false⟩

theorem device_off (stream : AudioStream) : Off device.i2s stream := by
  intro e
  exact BitVec.getLsbD_zero

/-- A request for 44.1 kHz on the first stream. -/
def rateRequest : RtAudioCaps :=
  ⟨AUDIO_TYPE_OUTPUT, AUDIO_DSP_SAMPLERATE, ⟨44100#32, 2#16, 16#16⟩⟩

/-- The first stream of a device is started, set to another rate and stopped. -/
def afterReplay : System :=
  next (next (next device (.start .replay codec 180000000#32)) (.configure rateRequest codec 180000000#32))
    (.stop .replay)

theorem afterReplay_run : Run (where_ i2sStep Safe) device
    [(.start .replay codec 180000000#32, RT_EOK), (.configure rateRequest codec 180000000#32, RT_EOK),
      (.stop .replay, RT_EOK)] afterReplay := by
  have hstart : Safe device (.start .replay codec 180000000#32, RT_EOK) :=
    ⟨fun _ _ => device_off _, fun _ => device_off _⟩
  have hconfigure : Safe (next device (.start .replay codec 180000000#32))
      (.configure rateRequest codec 180000000#32, RT_EOK) := by
    intro stream hstream r hfields
    cases hstream
    cases hfields
    refine ⟨fun _ _ => ⟨.inr rfl, fun hoff => absurd (hoff .path) (by decide), fun _ e => ?_⟩,
      fun _ hno => absurd ⟨rfl, rfl, ?_⟩ hno, fun hfalse => absurd hfalse (by decide)⟩
    · cases e <;> rfl
    · rintro _ ⟨⟩
      exact ⟨rfl, by rintro _ ⟨⟩; rfl⟩
  exact ((Run.nil.snoc ⟨hstart, step_next device _⟩).snoc ⟨hconfigure, step_next _ _⟩).snoc
    ⟨trivial, step_next _ _⟩

/-- After that the second stream is started. -/
theorem i2sStreams_run_start : StreamsOn (next afterReplay (.start .record codec 180000000#32)) ∧
    ∀ {l sys'}, i2sStep (next afterReplay (.start .record codec 180000000#32)) l sys' →
      (Right (next afterReplay (.start .record codec 180000000#32)) l sys' ↔
        Safe (next afterReplay (.start .record codec 180000000#32)) l) := by
  have hoff : ∀ stream, Off afterReplay.i2s stream := by
    intro stream e
    cases stream <;> cases e <;> rfl
  have hsafe : Safe afterReplay (.start .record codec 180000000#32, RT_EOK) :=
    ⟨fun _ _ => hoff _, fun _ => hoff _⟩
  exact i2sStreams_run ⟨rfl, rfl⟩ (afterReplay_run.snoc ⟨hsafe, step_next afterReplay _⟩)

/-- The start of the second stream opens the controller anew and leaves the first one off. -/
theorem not_streamsRight : ¬ ∀ sys₀ sys labels l sys', Init sys₀ → Run i2sStep sys₀ labels sys →
    i2sStep sys l sys' → Right sys l sys' := by
  intro h
  have hfirst : Run i2sStep device _ (next device (.start .replay codec 180000000#32)) :=
    .snoc .nil (step_next device _)
  have hright := h _ _ _ _ _ ⟨rfl, rfl⟩ hfirst
    (step_next (next device (.start .replay codec 180000000#32))
      (.start .record codec 180000000#32))
  exact absurd (hright.1 .path .replay) (by decide)

end NumakerMA35D1.I2s

import Mathlib.Logic.Function.Basic

/-!
# The I2S driver

The state of an I2S device and the functions that configure it and start and stop its two streams.
The codec is a table of functions that the board registers: what they answer is a parameter of a call
(`NuAcodecOps`). They read the configuration they are given and write their own.

Reference: `drv_i2s.c`, `nu_i2s.c`.
-/

namespace NumakerMA35D1.I2s

/-- Error codes. Reference: `rtdef.h:343 RT_EOK`, `rtdef.h:344 RT_ERROR`, `rtdef.h:353 RT_EINVAL`. -/
def RT_EOK : Int := 0
@[inherit_doc RT_EOK] def RT_ERROR : Int := 1
@[inherit_doc RT_EOK] def RT_EINVAL : Int := 10

/-! ## The controller -/

/-- Bits of `CTL0`. Reference: `i2s_reg.h:477` to `:511`. -/
def I2S_CTL0_I2SEN_Msk : BitVec 32 := 1#32 <<< 0
@[inherit_doc I2S_CTL0_I2SEN_Msk] def I2S_CTL0_TXEN_Msk : BitVec 32 := 1#32 <<< 1
@[inherit_doc I2S_CTL0_I2SEN_Msk] def I2S_CTL0_RXEN_Msk : BitVec 32 := 1#32 <<< 2
@[inherit_doc I2S_CTL0_I2SEN_Msk] def I2S_CTL0_MONO_Msk : BitVec 32 := 1#32 <<< 6
@[inherit_doc I2S_CTL0_I2SEN_Msk] def I2S_CTL0_SLAVE_Msk : BitVec 32 := 1#32 <<< 8
@[inherit_doc I2S_CTL0_I2SEN_Msk] def I2S_CTL0_MCLKEN_Msk : BitVec 32 := 1#32 <<< 15
@[inherit_doc I2S_CTL0_I2SEN_Msk] def I2S_CTL0_TXPDMAEN_Msk : BitVec 32 := 1#32 <<< 20
@[inherit_doc I2S_CTL0_I2SEN_Msk] def I2S_CTL0_RXPDMAEN_Msk : BitVec 32 := 1#32 <<< 21

/-- Fields of `CLKDIV`. Reference: `i2s_reg.h:532`, `:535`. -/
def I2S_CLKDIV_MCLKDIV_Msk : BitVec 32 := 0x7f#32
@[inherit_doc I2S_CLKDIV_MCLKDIV_Msk] def I2S_CLKDIV_BCLKDIV_Msk : BitVec 32 := 0x3ff#32 <<< 8

/-- The registers of a controller. Reference: `i2s_reg.h`. -/
structure I2sT where
  CTL0 : BitVec 32
  CTL1 : BitVec 32
  CLKDIV : BitVec 32

/-- The registers after a reset of the module. -/
def I2sT.reset : I2sT := ⟨0#32, 0#32, 0#32⟩

/-- The controller reset and set up. A division by zero gives zero, as the instruction does.
Reference: `nu_i2s.c:100 I2S_Open`. -/
def i2sOpen (u32SrcClk u32MasterSlave u32SampleRate u32WordWidth u32MonoData u32DataFormat : BitVec 32) :
    BitVec 32 × I2sT :=
  let i2s := I2sT.reset
  let i2s := { i2s with
    CTL0 := u32MasterSlave ||| u32WordWidth ||| u32MonoData ||| u32DataFormat
    CTL1 := 8#32 <<< 8 ||| 7#32 <<< 16 }
  let width := ((u32WordWidth >>> 4) &&& 3#32) + 1#32
  let u32BitRate := u32SampleRate * width * 16#32
  let u16Divider : BitVec 16 :=
    ((((u32SrcClk * 10#32 / u32BitRate) >>> 1) + 5#32) / 10#32).truncate 16 - 1#16
  let i2s := { i2s with
    CLKDIV := (i2s.CLKDIV &&& ~~~I2S_CLKDIV_BCLKDIV_Msk) ||| u16Divider.zeroExtend 32 <<< 8 }
  let u32BitRate := u32SrcClk / (2#32 * (u16Divider.zeroExtend 32 + 1#32))
  (u32BitRate / (width * 16#32), { i2s with CTL0 := i2s.CTL0 ||| I2S_CTL0_I2SEN_Msk })

/-- Reference: `nu_i2s.c:145 I2S_Close`. -/
def i2sClose (i2s : I2sT) : I2sT := { i2s with CTL0 := i2s.CTL0 &&& ~~~I2S_CTL0_I2SEN_Msk }

/-- Reference: `nu_i2s.c:180 I2S_EnableMCLK`. -/
def i2sEnableMCLK (u32SrcClk : BitVec 32) (i2s : I2sT) (u32BusClock : BitVec 32) : I2sT :=
  let u8Divider : BitVec 8 :=
    if u32BusClock = u32SrcClk then 0#8 else (u32SrcClk / u32BusClock).truncate 8 >>> 1
  { i2s with
    CLKDIV := (i2s.CLKDIV &&& ~~~I2S_CLKDIV_MCLKDIV_Msk) ||| u8Divider.zeroExtend 32
    CTL0 := i2s.CTL0 ||| I2S_CTL0_MCLKEN_Msk }

/-- Reference: `nu_i2s.c:221 I2S_DisableMCLK`. -/
def i2sDisableMCLK (i2s : I2sT) : I2sT := { i2s with CTL0 := i2s.CTL0 &&& ~~~I2S_CTL0_MCLKEN_Msk }

/-! ## The device -/

/-- Reference: `audio.h:119 rt_audio_configure`. -/
structure RtAudioConfigure where
  samplerate : BitVec 32
  channels : BitVec 16
  samplebits : BitVec 16
deriving DecidableEq

/-- Reference: `audio.h:78 AUDIO_STREAM_REPLAY`. -/
inductive AudioStream
  | replay
  | record
deriving DecidableEq

/-- Reference: `drv_i2s.h:42 E_NU_ACODEC_ROLE`. -/
inductive NuAcodecRole
  | master
  | slave
deriving DecidableEq

/-- The functions of a codec, where the board has them, with what they return and make of the codec's
own configuration. Reference: `drv_i2s.h:48 nu_acodec_ops`. -/
structure NuAcodecOps where
  role : NuAcodecRole
  nu_acodec_init : Option (RtAudioConfigure → Int × RtAudioConfigure)
  nu_acodec_reset : Option (RtAudioConfigure → Int × RtAudioConfigure)
  nu_acodec_dsp_control : Option (RtAudioConfigure → RtAudioConfigure → Int × RtAudioConfigure)
  nu_acodec_mixer_query : Option (Int → Int × BitVec 32)

/-- A device. Of the codec's table the part that is data is here. Reference: `drv_i2s.h:79 nu_i2s`. -/
structure NuI2s where
  config : RtAudioConfigure
  i2s_base : I2sT
  acodecConfig : RtAudioConfigure

/-- What the controller and the DMA can do. Reference: `drv_i2s.c:191 nu_i2s_capacity_check`. -/
def nuI2sCapacityCheck (pconfig : RtAudioConfigure) : Bool :=
  (pconfig.samplebits = 8#16 ∨ pconfig.samplebits = 16#16 ∨ pconfig.samplebits = 32#16) ∧
    (pconfig.channels = 1#16 ∨ pconfig.channels = 2#16)

/-- The codec reset, if it has a function for that. Reference: `drv_i2s.c:233` to `:234`. -/
def acodecReset (ops : NuAcodecOps) (own : RtAudioConfigure) : Int × RtAudioConfigure :=
  match ops.nu_acodec_reset with
  | none => (RT_EOK, own)
  | some nu_acodec_reset => nu_acodec_reset own

/-- The codec and the controller set up for the device's configuration. Where the codec has no
function to set up or to configure it, the controller is not opened and the result is none the less
that of the step before. Reference: `drv_i2s.c:222 nu_i2s_dai_setup`. -/
def nuI2sDaiSetup (ops : NuAcodecOps) (u32SrcClk : BitVec 32) (s : NuI2s) : Int × NuI2s :=
  if nuI2sCapacityCheck s.config then
    let (result, own) := acodecReset ops s.acodecConfig
    if result ≠ RT_EOK then (result, { s with acodecConfig := own })
    else
      match ops.nu_acodec_init with
      | none => (result, { s with acodecConfig := own })
      | some nu_acodec_init =>
        let (result, own) := nu_acodec_init own
        if result ≠ RT_EOK then (result, { s with acodecConfig := own })
        else
          match ops.nu_acodec_dsp_control with
          | none => (result, { s with acodecConfig := own })
          | some nu_acodec_dsp_control =>
            let (result, own) := nu_acodec_dsp_control s.config own
            if result ≠ RT_EOK then (result, { s with acodecConfig := own })
            else
              let (_, i2s_base) := i2sOpen u32SrcClk
                (if ops.role = .master then I2S_CTL0_SLAVE_Msk else 0#32) s.config.samplerate
                (((s.config.samplebits / 8#16).zeroExtend 32 - 1#32) <<< 4)
                (if s.config.channels = 1#16 then I2S_CTL0_MONO_Msk else 0#32) 0#32
              (result, { s with
                acodecConfig := own
                i2s_base := i2sEnableMCLK u32SrcClk i2s_base 12000000#32 })
  else (-RT_EINVAL, s)

/-- The enables of a stream: its DMA's and its data path's.
Reference: `nu_i2s.h:155 I2S_ENABLE_TXDMA`, `nu_i2s.h:187 I2S_ENABLE_TX`. -/
def dmaMsk : AudioStream → BitVec 32
  | .replay => I2S_CTL0_TXPDMAEN_Msk
  | .record => I2S_CTL0_RXPDMAEN_Msk
@[inherit_doc dmaMsk] def pathMsk : AudioStream → BitVec 32
  | .replay => I2S_CTL0_TXEN_Msk
  | .record => I2S_CTL0_RXEN_Msk

/-- New contents for `CTL0`. -/
def NuI2s.setCTL0 (s : NuI2s) (v : BitVec 32) : NuI2s := { s with i2s_base.CTL0 := v }

/-- A stream stopped, and the controller closed when the other one is off.
Reference: `drv_i2s.c:501 nu_i2s_stop`. -/
def nuI2sStop (s : NuI2s) (stream : AudioStream) : Int × NuI2s :=
  let s := s.setCTL0 (s.i2s_base.CTL0 &&& ~~~dmaMsk stream)
  let s := s.setCTL0 (s.i2s_base.CTL0 &&& ~~~pathMsk stream)
  let s := if s.i2s_base.CTL0 &&& (I2S_CTL0_TXEN_Msk ||| I2S_CTL0_RXEN_Msk) = 0#32 then
      { s with i2s_base := i2sClose (i2sDisableMCLK s.i2s_base) }
    else s
  (RT_EOK, s)

/-- A stream started anew. Reference: `drv_i2s.c:452 nu_i2s_start`. -/
def nuI2sStart (ops : NuAcodecOps) (u32SrcClk : BitVec 32) (s : NuI2s) (stream : AudioStream) :
    Int × NuI2s :=
  let (_, s) := nuI2sStop s stream
  let (result, s) := nuI2sDaiSetup ops u32SrcClk s
  if result ≠ RT_EOK then (-RT_ERROR, s)
  else
    let s := s.setCTL0 (s.i2s_base.CTL0 ||| dmaMsk stream)
    let s := s.setCTL0 (s.i2s_base.CTL0 ||| pathMsk stream)
    (RT_EOK, s)

/-! ## Capabilities -/

/-- Types and parameters. Reference: `audio.h:28` to `:61`. -/
def AUDIO_TYPE_QUERY : Int := 0
@[inherit_doc AUDIO_TYPE_QUERY] def AUDIO_TYPE_INPUT : Int := 1
@[inherit_doc AUDIO_TYPE_QUERY] def AUDIO_TYPE_OUTPUT : Int := 2
@[inherit_doc AUDIO_TYPE_QUERY] def AUDIO_TYPE_MIXER : Int := 4
@[inherit_doc AUDIO_TYPE_QUERY] def AUDIO_DSP_PARAM : Int := 0
@[inherit_doc AUDIO_TYPE_QUERY] def AUDIO_DSP_SAMPLERATE : Int := 1
@[inherit_doc AUDIO_TYPE_QUERY] def AUDIO_DSP_CHANNELS : Int := 2
@[inherit_doc AUDIO_TYPE_QUERY] def AUDIO_DSP_SAMPLEBITS : Int := 3

/-- A request. The words `mask` and `value` of the union are its `samplerate`.
Reference: `audio.h:126 rt_audio_caps`. -/
structure RtAudioCaps where
  main_type : Int
  sub_type : Int
  udata : RtAudioConfigure

/-- A request answered. Reference: `drv_i2s.c:275 nu_i2s_getcaps`. -/
def nuI2sGetcaps (ops : NuAcodecOps) (s : NuI2s) (caps : RtAudioCaps) : Int × RtAudioCaps :=
  if caps.main_type = AUDIO_TYPE_QUERY then
    if caps.sub_type = AUDIO_TYPE_QUERY then
      (RT_EOK, { caps with udata.samplerate := 1#32 ||| 2#32 ||| 4#32 })
    else (-RT_ERROR, caps)
  else if caps.main_type = AUDIO_TYPE_MIXER then
    match ops.nu_acodec_mixer_query with
    | none => (-RT_ERROR, caps)
    | some nu_acodec_mixer_query =>
      let (result, value) := nu_acodec_mixer_query caps.sub_type
      (result, { caps with udata.samplerate := value })
  else if caps.main_type = AUDIO_TYPE_INPUT ∨ caps.main_type = AUDIO_TYPE_OUTPUT then
    if caps.sub_type = AUDIO_DSP_PARAM then (RT_EOK, { caps with udata := s.config })
    else if caps.sub_type = AUDIO_DSP_SAMPLERATE then
      (RT_EOK, { caps with udata.samplerate := s.config.samplerate })
    else if caps.sub_type = AUDIO_DSP_CHANNELS then
      (RT_EOK, { caps with udata.channels := s.config.channels })
    else if caps.sub_type = AUDIO_DSP_SAMPLEBITS then
      (RT_EOK, { caps with udata.samplebits := s.config.samplebits })
    else (-RT_ERROR, caps)
  else (-RT_ERROR, caps)

/-- The fields that a request sets, and whether the stream has to start anew: the sample bits go where
the sample rate is and the channels to the codec's configuration; none for an unknown request.
Reference: `drv_i2s.c:388` to `:423`. -/
def configureFields (s : NuI2s) (sub_type : Int) (config : RtAudioConfigure) : Option (Bool × NuI2s) :=
  if sub_type = AUDIO_DSP_PARAM then
    some (if s.config ≠ config then (true, { s with config }) else (false, s))
  else if sub_type = AUDIO_DSP_SAMPLEBITS then
    some (if s.config.samplerate ≠ config.samplebits.zeroExtend 32 then
        (true, { s with config.samplerate := config.samplebits.zeroExtend 32 })
      else (false, s))
  else if sub_type = AUDIO_DSP_CHANNELS then
    some (if s.config.channels ≠ config.channels then
        (true, { s with acodecConfig.channels := config.channels })
      else (false, s))
  else if sub_type = AUDIO_DSP_SAMPLERATE then
    some (if s.config.samplerate ≠ config.samplerate then
        (true, { s with config.samplerate := config.samplerate })
      else (false, s))
  else none

/-- The stream that a request is about. Reference: `drv_i2s.c:377` to `:386`. -/
def streamOf (main_type : Int) : Option AudioStream :=
  if main_type = AUDIO_TYPE_INPUT then some .record
  else if main_type = AUDIO_TYPE_OUTPUT then some .replay
  else none

/-- A request carried out. One for the mixer goes to the codec.
Reference: `drv_i2s.c:356 nu_i2s_configure`. -/
def nuI2sConfigure (ops : NuAcodecOps) (u32SrcClk : BitVec 32) (s : NuI2s) (caps : RtAudioCaps) :
    Int × NuI2s :=
  if caps.main_type = AUDIO_TYPE_MIXER then (RT_EOK, s)
  else
    match streamOf caps.main_type with
    | none => (-RT_ERROR, s)
    | some stream =>
      match configureFields s caps.sub_type caps.udata with
      | none => (-RT_ERROR, s)
      | some (true, s) => nuI2sStart ops u32SrcClk s stream
      | some (false, s) => (RT_EOK, s)

end NumakerMA35D1.I2s

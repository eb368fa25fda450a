/-
# Video inputs

`HauppaugeDev` selects an input, waits for a signal, measures it and tells the encoder
and the receiver what it has found. What it does is kept as a trace of the calls it makes
and of their replies. Two settings that outlive a call are not the device object's own:
the coding mode override in the registry, which the encoder reads when its input format
is set, and the field inversion of the receiver.

The replies of one call of `StartEncoding` are all given beforehand; those of a loop are
given for each of its turns. Floating point numbers are rationals.
-/

import HauppaugeUSB.Control.Stage
import HauppaugeUSB.Device.Parameters
import Mathlib.Data.Rat.Init

namespace HauppaugeUSB.Device

open HauppaugeUSB.Commands HauppaugeUSB.Control HauppaugeUSB.Stores HauppaugeUSB.Wrappers

/-- `receiverInput_t`. -/
inductive ReceiverInput
  | cvbs
  | comp
  | hdmi
  deriving DecidableEq

/-- `receiverOutputBusMode_t`, as far as it is used. -/
inductive OutputBusMode
  /-- `RXOBM_656_10`. -/
  | obm656_10
  /-- `RXOBM_656_10_DC`. -/
  | obm656_10_dc
  /-- `RXOBM_422_10x2`. -/
  | obm422_10x2
  deriving DecidableEq

/-- `encoderSource_t`, as far as it is used. -/
inductive EncoderSource
  | cvbs
  | comp
  | hdmi
  deriving DecidableEq

/-- `encoderAudioInFormat_t`, as far as it is used. -/
inductive AudioInFormat
  | auto
  | ac3
  deriving DecidableEq

/-- `audio_CS8416::AudioInput`, as far as it is used. -/
inductive Cs8416Input
  | optical
  | hdmi
  deriving DecidableEq

/-- What the receiver says of its signal: the fields of `receiverOutputParams_t` and of
`receiverHDMIParams_t` that are read. The latter's aspect ratio is not. -/
structure VideoParams where
  width : ℤ
  height : ℤ
  interlaced : Bool
  vFreq : ℚ
  aspectRatio : ℚ
  deriving DecidableEq

/-- A call of `encoderDev_DXT_t::setInputFormat`, with what the encoder finds in the
registry and the receiver has for its field inversion when it is made. -/
structure InputFormat where
  source : EncoderSource
  audioFormat : AudioInFormat
  width : ℤ
  height : ℤ
  interlaced : Bool
  vFreq : ℚ
  aspectRatio : ℚ
  audioSampleRate : ℚ
  codingMode : Option Dword
  inverted : Bool
  deriving DecidableEq

/-- A call to the receiver, the encoder, the bridge chip, the audio chips or the registry,
with its reply. -/
inductive DeviceEvent
  | setInput (input : ReceiverInput)
  | receiverShowInfo
  | encoderShowInfo
  | hasInputSignal (reply : Bool)
  | getOutputParams (reply : Bool × VideoParams)
  | getAudioParams (sampleRate : ℚ)
  | getHdmiFormat (vic : ℤ)
  | setHdmiFormat (vic : ℤ) (sampleRate : ℚ) (reply : Bool)
  | getHdmiParams (reply : Bool × VideoParams)
  | cs8416Reset (input : Cs8416Input)
  /-- `setPortStateBits` on `FX2_PORT_E`. -/
  | setPortStateBits (first second : ℕ)
  | writeDword (name : Text) (value : Dword)
  /-- `VRX_set_AV_INV_F`. -/
  | setAvInvF (value : Bool)
  | setInputFormat (format : InputFormat) (reply : Bool)
  | setOutputBusMode (mode : OutputBusMode)
  /-- `audio_CX2081x::init`. -/
  | cx2081xInit
  | startCapture (reply : Bool)
  | stopCapture (reply : Bool)
  deriving DecidableEq

/-- The replies to one call of `StartEncoding`. -/
structure Replies where
  hasInputSignal : ℕ → Bool
  /-- The result and what `vp` holds then. -/
  getOutputParams : ℕ → Bool × VideoParams
  /-- What `ap.sampleRate` holds after `getAudioParams`. -/
  audioSampleRate : ℚ
  getHdmiFormat : ℤ
  setHdmiFormat : Bool
  getHdmiParams : ℕ → Bool × VideoParams
  /-- The device has a CS8416 that can be reset. -/
  cs8416 : Bool
  setInputFormat : Bool
  startCapture : Bool

/-- `MAX_RETRY`. -/
def maxRetry : ℕ := 300

/-- A `HauppaugeDev`, the registry and the receiver's field inversion. -/
structure HauppaugeDev where
  params : Parameters
  videoInitialized : ℤ
  errmsg : String
  registry : Registry
  avInvF : Bool
  trace : List DeviceEvent

namespace HauppaugeDev

/-- A device object made while the registry is as given and nothing is inverted. -/
def new (params : Parameters) (registry : Registry) : HauppaugeDev where
  params := params
  videoInitialized := -1
  errmsg := ""
  registry := configure params registry
  avInvF := false
  trace := []

/-- Make calls. -/
def emit (dev : HauppaugeDev) (events : List DeviceEvent) : HauppaugeDev :=
  { dev with trace := dev.trace ++ events }

@[simp]
theorem emit_params {dev : HauppaugeDev} {events : List DeviceEvent} :
    (dev.emit events).params = dev.params := rfl

@[simp]
theorem emit_registry {dev : HauppaugeDev} {events : List DeviceEvent} :
    (dev.emit events).registry = dev.registry := rfl

@[simp]
theorem emit_avInvF {dev : HauppaugeDev} {events : List DeviceEvent} :
    (dev.emit events).avInvF = dev.avInvF := rfl

@[simp]
theorem emit_trace {dev : HauppaugeDev} {events : List DeviceEvent} :
    (dev.emit events).trace = dev.trace ++ events := rfl

end HauppaugeDev

/-- `set_digital_audio`: its result and its calls. -/
def setDigitalAudio (replies : Replies) (optical : Bool) : Bool × List DeviceEvent :=
  if replies.cs8416 then (true, [.cs8416Reset (if optical then .optical else .hdmi)])
  else (false, [])

/-- `set_audio_format`: its calls. It always returns true. -/
def setAudioFormat (params : Parameters) (replies : Replies) (audioFormat : AudioInFormat) :
    List DeviceEvent :=
  let spdif := params.audioInput = hapiAudioCaptureSourceSpdif
  let digital := setDigitalAudio replies spdif
  if spdif ∧ digital.1 then digital.2 ++ [.setPortStateBits 0x10 0x00]
  else if params.audioInput = hapiAudioCaptureSourceHdmi then
    if digital.1 then
      if audioFormat = .ac3 then digital.2 ++ [.setPortStateBits 0x10 0x00]
      else digital.2 ++ [.setPortStateBits 0x00 0x00]
    else digital.2 ++ [.setPortStateBits 0 0x18]
  -- also where the S/PDIF input is asked for and not available
  else if params.audioBoost then [.setPortStateBits 0x18 0]
  else [.setPortStateBits 0x08 0x10]

/-- Make calls. -/
def call (events : List DeviceEvent) : Stage HauppaugeDev Unit :=
  .update fun dev => dev.emit events

/-- Fail for a reason. -/
def giveUp {Value : Type} (message : String) : Stage HauppaugeDev Value := do
  .update fun dev => { dev with errmsg := message }
  .fail

/-- `FlipHDMIFields`. -/
def flipHdmiFields (dev : HauppaugeDev) : HauppaugeDev :=
  { dev with avInvF := true, trace := dev.trace ++ [.setAvInvF true] }

/-- The part of `set_input_format` that writes the coding mode. -/
def overrideCodingMode (interlaced : Bool) (dev : HauppaugeDev) : HauppaugeDev :=
  if hapiCodingModeField ≤ dev.params.videoCodingMode ∧
      dev.params.videoCodingMode ≤ hapiCodingModePaff then
    if interlaced then
      let value := UInt32.ofInt dev.params.videoCodingMode
      { dev with
        registry := (writeDword dev.registry videoCodingModeName value).2
        trace := dev.trace ++ [.writeDword videoCodingModeName value] }
    else dev
  else dev

/-- The audio format that `set_input_format` asks for. -/
def audioInFormat (params : Parameters) : AudioInFormat :=
  if params.audioCodec = hapiAudioCodecAc3 then .ac3 else .auto

/-- What `set_input_format` does before it calls the encoder. -/
def prepareInput (replies : Replies) (interlaced : Bool) (dev : HauppaugeDev) : HauppaugeDev :=
  let routed := dev.emit (setAudioFormat dev.params replies (audioInFormat dev.params))
  let overridden := overrideCodingMode interlaced routed
  if interlaced ∧ dev.params.flipFields then flipHdmiFields overridden else overridden

/-- The call that `set_input_format` makes of the encoder. -/
def formatOf (source : EncoderSource) (vp : VideoParams) (aspectRatio audioSampleRate : ℚ)
    (dev : HauppaugeDev) : InputFormat where
  source := source
  audioFormat := audioInFormat dev.params
  width := vp.width
  height := vp.height
  interlaced := vp.interlaced
  vFreq := vp.vFreq
  aspectRatio := aspectRatio
  audioSampleRate := audioSampleRate
  codingMode := dev.registry videoCodingModeName
  inverted := dev.avInvF

/-- `set_input_format`. -/
def setInputFormat (replies : Replies) (source : EncoderSource) (vp : VideoParams)
    (aspectRatio audioSampleRate : ℚ) : Stage HauppaugeDev Unit := do
  .update (prepareInput replies vp.interlaced)
  .update fun dev => dev.emit
    [.setInputFormat (formatOf source vp aspectRatio audioSampleRate dev) replies.setInputFormat]
  if replies.setInputFormat then pure () else .fail

/-- `valid_resolution`. -/
def validResolution (width height : ℤ) : Bool :=
  if width = 0 ∨ height = 0 then false
  else if width ≠ 1920 ∧ width ≠ 1280 ∧ width ≠ 720 then false
  else if height ≠ 1080 ∧ height ≠ 720 ∧ height ≠ 480 ∧ height ≠ 576 then false
  else true

/-- Select an input, unless it was the last one to be initialized. -/
def selectInput (source : ℤ) (input : ReceiverInput) : Stage HauppaugeDev Unit :=
  .update fun dev =>
    if dev.videoInitialized ≠ source then
      dev.emit [.setInput input, .receiverShowInfo, .encoderShowInfo]
    else dev

/-- The loop that waits for a signal. -/
def awaitSignal (replies : Replies) : Stage HauppaugeDev Unit := do
  call (asked (fun idx => .hasInputSignal (replies.hasInputSignal idx)) replies.hasInputSignal
    maxRetry)
  if stopsAt replies.hasInputSignal maxRetry = maxRetry then giveUp "No input signal."
  else pure ()

/-- The condition for leaving the loop that measures the signal. -/
def acceptsParams (reply : Bool × VideoParams) : Bool :=
  reply.1 && validResolution reply.2.width reply.2.height

/-- The loop that measures the signal, and what `vp` holds after it. The reply to a turn
comes from `getOutputParams` or `getHDMIParams`, and `event` is that call. -/
def awaitParams (event : Bool × VideoParams → DeviceEvent) (reply : ℕ → Bool × VideoParams) :
    Stage HauppaugeDev VideoParams := do
  let accepts := fun idx => acceptsParams (reply idx)
  call (asked (fun idx => event (reply idx)) accepts maxRetry)
  if stopsAt accepts maxRetry = maxRetry then giveUp "Cannot determine video mode."
  else pure (reply (stopsAt accepts maxRetry)).2

/-- `roundf`: half away from zero. -/
def roundf (x : ℚ) : ℤ := if 0 ≤ x then (x + 1 / 2).floor else (x - 1 / 2).ceil

/-- The timings 480i/60 and 576i/50. -/
def isDoubleClocked (vp : VideoParams) : Bool :=
  (vp.height = 480 ∧ roundf vp.vFreq = 60 ∧ vp.interlaced) ∨
    (vp.height = 576 ∧ roundf vp.vFreq = 50 ∧ vp.interlaced)

/-- Note that an input has been initialized. -/
def initialized (source : ℤ) : Stage HauppaugeDev Unit :=
  .update fun dev => { dev with videoInitialized := source }

/-- `init_cvbs`. -/
def initCvbs (replies : Replies) : Stage HauppaugeDev Unit := do
  selectInput hapiVideoCaptureSourceCvbs .cvbs
  awaitSignal replies
  let vp ← awaitParams .getOutputParams replies.getOutputParams
  setInputFormat replies .cvbs vp vp.aspectRatio 0
  call [.setOutputBusMode .obm656_10]
  initialized hapiVideoCaptureSourceCvbs

/-- `init_component`. -/
def initComponent (replies : Replies) : Stage HauppaugeDev Unit := do
  selectInput hapiVideoCaptureSourceComponent .comp
  awaitSignal replies
  let vp ← awaitParams .getOutputParams replies.getOutputParams
  setInputFormat replies .comp vp vp.aspectRatio 0
  call [.setOutputBusMode (if isDoubleClocked vp then .obm656_10_dc else .obm422_10x2)]
  call [.cx2081xInit]
  initialized hapiVideoCaptureSourceComponent

/-- `init_sdi`. -/
def initSdi : Stage HauppaugeDev Unit := giveUp "SDI not supported."

/-- The path of `init_hdmi` for a source whose VIC the encoder does not take. -/
def initMeasured (replies : Replies) : Stage HauppaugeDev Unit := do
  let vp ← awaitParams .getHdmiParams replies.getHdmiParams
  setInputFormat replies .hdmi vp (16 / 9) replies.audioSampleRate
  call [.setOutputBusMode .obm422_10x2]

/-- The path of `init_hdmi` for a VIC that the encoder has taken. -/
def initVic (vic : ℤ) : Stage HauppaugeDev Unit :=
  if vic = 6 ∨ vic = 7 ∨ vic = 21 ∨ vic = 22 then call [.setOutputBusMode .obm656_10_dc]
  else call [.setOutputBusMode .obm422_10x2]

/-- The two paths of `init_hdmi`. The encoder is asked only for a VIC that is one. -/
def initHdmiFormat (replies : Replies) (vic : ℤ) : Stage HauppaugeDev Unit :=
  if vic ≤ 0 then initMeasured replies
  else do
    call [.setHdmiFormat vic replies.audioSampleRate replies.setHdmiFormat]
    if replies.setHdmiFormat then initVic vic else initMeasured replies

/-- `init_hdmi`. -/
def initHdmi (replies : Replies) : Stage HauppaugeDev Unit := do
  selectInput hapiVideoCaptureSourceHdmi .hdmi
  awaitSignal replies
  call [.getAudioParams replies.audioSampleRate]
  call [.getHdmiFormat replies.getHdmiFormat]
  initHdmiFormat replies replies.getHdmiFormat
  initialized hapiVideoCaptureSourceHdmi

/-- The `switch` of `StartEncoding`. -/
def initInput (params : Parameters) (replies : Replies) : Stage HauppaugeDev Unit :=
  if params.videoInput = hapiVideoCaptureSourceCvbs then initCvbs replies
  else if params.videoInput = hapiVideoCaptureSourceComponent then initComponent replies
  else if params.videoInput = hapiVideoCaptureSourceSdi then initSdi
  else initHdmi replies

/-- `HauppaugeDev::StartEncoding`. -/
def startEncoding (replies : Replies) : Stage HauppaugeDev Unit := do
  let dev ← Stage.read
  initInput dev.params replies
  call [.startCapture replies.startCapture]
  if replies.startCapture then pure () else giveUp "Encoder start capture failed."

/-- `HauppaugeDev::StopEncoding`. -/
def stopEncoding (reply : Bool) : Stage HauppaugeDev Unit := do
  call [.stopCapture reply]
  if reply then pure () else giveUp "Encoder stop capture failed."

end HauppaugeUSB.Device

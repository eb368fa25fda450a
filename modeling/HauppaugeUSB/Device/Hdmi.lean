/-
# The two paths of an HDMI source

The encoder takes an HDMI source by its VIC, or else the source is measured and its
parameters are set. Both paths are to configure the device alike, but only the second one
goes through `set_input_format`, and only the first one chooses the bus mode by the
timing. This module determines for which sources the path taken does all that is to be
done.
-/

import HauppaugeUSB.Device.History

namespace HauppaugeUSB.Device

open HauppaugeUSB.Commands HauppaugeUSB.Control HauppaugeUSB.Stores HauppaugeUSB.Wrappers

/-- What calls do to the audio input, the coding mode, the field order and the bus. -/
structure HdmiConfiguration where
  audio : List DeviceEvent
  codingModes : List Dword
  flips : List Bool
  busModes : List OutputBusMode
  deriving DecidableEq

namespace HdmiConfiguration

def empty : HdmiConfiguration := ⟨[], [], [], []⟩

def append (first second : HdmiConfiguration) : HdmiConfiguration where
  audio := first.audio ++ second.audio
  codingModes := first.codingModes ++ second.codingModes
  flips := first.flips ++ second.flips
  busModes := first.busModes ++ second.busModes

@[simp]
theorem append_empty {first : HdmiConfiguration} : first.append empty = first := by
  simp [append, empty]

@[simp]
theorem empty_append {second : HdmiConfiguration} : empty.append second = second := by
  simp [append, empty]

end HdmiConfiguration

/-- A call that routes audio. -/
def DeviceEvent.isAudio : DeviceEvent → Bool
  | .cs8416Reset _ | .setPortStateBits .. => true
  | _ => false

def DeviceEvent.codingMode : DeviceEvent → Option Dword
  | .writeDword name value => if name = videoCodingModeName then some value else none
  | _ => none

def DeviceEvent.flip : DeviceEvent → Option Bool
  | .setAvInvF value => some value
  | _ => none

def DeviceEvent.busMode : DeviceEvent → Option OutputBusMode
  | .setOutputBusMode mode => some mode
  | _ => none

/-- The configuration that calls perform. -/
def configurationOf (events : List DeviceEvent) : HdmiConfiguration where
  audio := events.filter DeviceEvent.isAudio
  codingModes := events.filterMap DeviceEvent.codingMode
  flips := events.filterMap DeviceEvent.flip
  busModes := events.filterMap DeviceEvent.busMode

theorem configurationOf_append {first second : List DeviceEvent} :
    configurationOf (first ++ second) =
      (configurationOf first).append (configurationOf second) := by
  simp [configurationOf, HdmiConfiguration.append]

/-- An HDMI source as the receiver and the encoder see it. Its VIC and its measured
parameters describe one timing, and of the VICs it may have, 6, 7, 21 and 22 are those of
480i/60 and 576i/50. -/
structure HdmiSource where
  replies : Replies
  timing : VideoParams
  measured : ∀ idx, acceptsParams (replies.getHdmiParams idx) = true →
    (replies.getHdmiParams idx).2 = timing
  vic : 0 < replies.getHdmiFormat →
    (replies.getHdmiFormat ∈ [6, 7, 21, 22] ↔ isDoubleClocked timing = true)

/-- The configuration that a source is to get, whichever path it takes. -/
def requiredConfiguration (params : Parameters) (source : HdmiSource) : HdmiConfiguration where
  audio := setAudioFormat params source.replies (audioInFormat params)
  codingModes :=
    if source.timing.interlaced ∧ hapiCodingModeFrame ≤ params.videoCodingMode ∧
        params.videoCodingMode ≤ hapiCodingModePaff then
      [UInt32.ofInt params.videoCodingMode]
    else []
  flips := if source.timing.interlaced ∧ params.flipFields then [true] else []
  busModes := [if isDoubleClocked source.timing then .obm656_10_dc else .obm422_10x2]

/-- `init_hdmi` with a record of its own calls. -/
def initHdmiAlone (source : HdmiSource) (dev : HauppaugeDev) : Option Unit × HauppaugeDev :=
  initHdmi source.replies { dev with trace := [] }

/-- The configuration that `init_hdmi` performs. -/
def performedConfiguration (source : HdmiSource) (dev : HauppaugeDev) : HdmiConfiguration :=
  configurationOf (initHdmiAlone source dev).2.trace

/-- A device that has been configured so far. -/
structure Configured (params : Parameters) (configuration : HdmiConfiguration)
    (dev : HauppaugeDev) : Prop where
  sameParams : dev.params = params
  performed : configurationOf dev.trace = configuration

/-- What `set_input_format` performs. -/
def formatConfiguration (params : Parameters) (replies : Replies) (interlaced : Bool) :
    HdmiConfiguration where
  audio := setAudioFormat params replies (audioInFormat params)
  codingModes :=
    if params.writesCodingMode ∧ interlaced then [UInt32.ofInt params.videoCodingMode] else []
  flips := if interlaced ∧ params.flipFields then [true] else []
  busModes := []

section Stages

variable {params : Parameters} {configuration : HdmiConfiguration} {replies : Replies}
  {E : HauppaugeDev → Prop}

theorem configurationOf_of_isProbe {events : List DeviceEvent}
    (hprobe : ∀ event ∈ events, event.isProbe = true) : configurationOf events = .empty := by
  have hnothing (event : DeviceEvent) (hevent : event.isProbe = true) :
      event.isAudio = false ∧ event.codingMode = none ∧ event.flip = none ∧
        event.busMode = none := by
    cases event <;>
      first
      | exact ⟨rfl, rfl, rfl, rfl⟩
      | simp [DeviceEvent.isProbe] at hevent
  simp only [configurationOf, HdmiConfiguration.empty, HdmiConfiguration.mk.injEq,
    List.filter_eq_nil_iff, List.filterMap_eq_nil_iff, Bool.not_eq_true]
  exact ⟨fun event hevent => (hnothing event (hprobe event hevent)).1,
    fun event hevent => (hnothing event (hprobe event hevent)).2.1,
    fun event hevent => (hnothing event (hprobe event hevent)).2.2.1,
    fun event hevent => (hnothing event (hprobe event hevent)).2.2.2⟩

theorem Configured.emit {dev : HauppaugeDev} {events : List DeviceEvent}
    (hdev : Configured params configuration dev) :
    Configured params (configuration.append (configurationOf events)) (dev.emit events) :=
  ⟨hdev.sameParams, by rw [HauppaugeDev.emit_trace, configurationOf_append, hdev.performed]⟩

theorem indifferent_configured : Indifferent (Configured params configuration) where
  emit dev events hprobe hdev := by
    have hemit : Configured _ _ (dev.emit events) := hdev.emit
    rwa [configurationOf_of_isProbe hprobe, HdmiConfiguration.append_empty] at hemit
  errmsg _ _ hdev := ⟨hdev.sameParams, hdev.performed⟩
  videoInitialized _ _ hdev := ⟨hdev.sameParams, hdev.performed⟩

theorem meets_setOutputBusMode {mode : OutputBusMode} :
    Stage.Meets (Configured params configuration) (call [.setOutputBusMode mode])
      (fun _ => Configured params (configuration.append ⟨[], [], [], [mode]⟩)) E := by
  have hmode : configurationOf [.setOutputBusMode mode] = ⟨[], [], [], [mode]⟩ := rfl
  rw [← hmode]
  exact .update fun _ hdev => hdev.emit

/-- The calls of `set_audio_format` route audio and do nothing else. -/
theorem configurationOf_setAudioFormat {audioFormat : AudioInFormat} :
    configurationOf (setAudioFormat params replies audioFormat) =
      ⟨setAudioFormat params replies audioFormat, [], [], []⟩ := by
  unfold setAudioFormat setDigitalAudio
  cases replies.cs8416 <;> dsimp only <;> split_ifs <;>
    simp [configurationOf, DeviceEvent.isAudio, DeviceEvent.codingMode, DeviceEvent.flip,
      DeviceEvent.busMode]

theorem setAudioFormat_ne_nil {audioFormat : AudioInFormat} :
    setAudioFormat params replies audioFormat ≠ [] := by
  unfold setAudioFormat
  dsimp only
  split_ifs <;> simp

/-- The coding mode that `set_input_format` writes. -/
def overrideEvents (params : Parameters) (interlaced : Bool) : List DeviceEvent :=
  if params.writesCodingMode ∧ interlaced then
    [.writeDword videoCodingModeName (UInt32.ofInt params.videoCodingMode)]
  else []

/-- The field order that it sets. -/
def flipEvents (params : Parameters) (interlaced : Bool) : List DeviceEvent :=
  if interlaced ∧ params.flipFields then [.setAvInvF true] else []

theorem trace_overrideCodingMode {interlaced : Bool} {dev : HauppaugeDev} :
    (overrideCodingMode interlaced dev).trace =
      dev.trace ++ overrideEvents dev.params interlaced := by
  unfold overrideCodingMode overrideEvents Parameters.writesCodingMode
  by_cases hmode : hapiCodingModeField ≤ dev.params.videoCodingMode ∧
      dev.params.videoCodingMode ≤ hapiCodingModePaff
  · cases interlaced <;> simp [hmode]
  · simp [hmode]

theorem trace_prepareInput {interlaced : Bool} {dev : HauppaugeDev} :
    (prepareInput replies interlaced dev).trace =
      dev.trace ++ (setAudioFormat dev.params replies (audioInFormat dev.params) ++
        overrideEvents dev.params interlaced ++ flipEvents dev.params interlaced) := by
  unfold prepareInput flipEvents
  dsimp only
  split
  · simp [flipHdmiFields, trace_overrideCodingMode]
  · simp [trace_overrideCodingMode]

theorem configured_formatSet {source : EncoderSource} {vp : VideoParams}
    {aspectRatio audioSampleRate : ℚ} {dev : HauppaugeDev}
    (hdev : Configured params configuration dev) :
    Configured params (configuration.append (formatConfiguration params replies vp.interlaced))
      (formatSet replies source vp aspectRatio audioSampleRate dev) := by
  have hoverride : configurationOf (overrideEvents params vp.interlaced) =
      ⟨[], (formatConfiguration params replies vp.interlaced).codingModes, [], []⟩ := by
    unfold overrideEvents formatConfiguration
    split <;> rfl
  have hflip : configurationOf (flipEvents params vp.interlaced) =
      ⟨[], [], (formatConfiguration params replies vp.interlaced).flips, []⟩ := by
    unfold flipEvents formatConfiguration
    split <;> rfl
  have hformat (format : InputFormat) (reply : Bool) :
      configurationOf [.setInputFormat format reply] = .empty := rfl
  refine ⟨params_prepareInput.trans hdev.sameParams, ?_⟩
  show configurationOf (_ ++ _) = _
  rw [trace_prepareInput, hdev.sameParams]
  simp only [configurationOf_append, hdev.performed, configurationOf_setAudioFormat, hoverride,
    hflip, hformat]
  simp [HdmiConfiguration.append, HdmiConfiguration.empty, formatConfiguration]

theorem meets_setInputFormat_configured {source : EncoderSource} {vp : VideoParams}
    {aspectRatio audioSampleRate : ℚ} :
    Stage.Meets (Configured params configuration)
      (setInputFormat replies source vp aspectRatio audioSampleRate)
      (fun _ => Configured params
        (configuration.append (formatConfiguration params replies vp.interlaced)))
      fun _ => True := by
  intro dev hdev
  rw [setInputFormat_eq]
  cases replies.setInputFormat
  · trivial
  · exact configured_formatSet hdev

/-- The path by VIC chooses a bus mode. -/
theorem meets_initVic_configured {vic : ℤ} :
    Stage.Meets (Configured params configuration) (initVic vic)
      (fun _ => Configured params (configuration.append
        ⟨[], [], [], [if vic ∈ [6, 7, 21, 22] then .obm656_10_dc else .obm422_10x2]⟩)) E := by
  unfold initVic
  refine .ite (fun hvic => ?_) fun hvic => ?_
  · have hmem : vic ∈ [6, 7, 21, 22] := by simpa using hvic
    rw [if_pos hmem]
    exact meets_setOutputBusMode
  · have hmem : vic ∉ [6, 7, 21, 22] := by simpa using hvic
    rw [if_neg hmem]
    exact meets_setOutputBusMode

/-- The measured path sets the format of what it has measured, and one bus mode. -/
theorem meets_initMeasured_configured {vp : VideoParams}
    (hvp : ∀ found, acceptedParams replies.getHdmiParams = some found → found = vp) :
    Stage.Meets (Configured params configuration) (initMeasured replies)
      (fun _ => Configured params
        ((configuration.append (formatConfiguration params replies vp.interlaced)).append
          ⟨[], [], [], [.obm422_10x2]⟩))
      fun _ => True := by
  refine (meets_awaitParams indifferent_configured (fun _ => rfl) fun _ _ _ => trivial).bind
    fun found => .of_and fun hfound => ?_
  rw [hvp found hfound]
  exact meets_setInputFormat_configured.bind fun _ => meets_setOutputBusMode

/-- Nothing else in `init_hdmi` configures the device. -/
theorem meets_initHdmi_configured
    (hformat : Stage.Meets (Configured params .empty)
      (initHdmiFormat replies replies.getHdmiFormat)
      (fun _ => Configured params configuration) fun _ => True) :
    Stage.Meets (Configured params .empty) (initHdmi replies)
      (fun _ => Configured params configuration) fun _ => True := by
  have hselect : Stage.Meets (Configured params .empty)
      (selectInput hapiVideoCaptureSourceHdmi .hdmi) (fun _ => Configured params .empty)
      fun _ => True := meets_selectInput indifferent_configured
  refine hselect.bind fun _ => ?_
  apply (meets_awaitSignal indifferent_configured fun _ _ _ => trivial).bind
  refine fun _ => .of_and fun _ => ?_
  apply (meets_probe indifferent_configured (by simp [DeviceEvent.isProbe])).bind
  intro _
  apply (meets_probe indifferent_configured (by simp [DeviceEvent.isProbe])).bind
  exact fun _ => hformat.bind fun _ => meets_initialized indifferent_configured

theorem meets_takesVic (htakes : takesVic replies) :
    Stage.Meets (Configured params .empty) (initHdmi replies)
      (fun _ => Configured params ⟨[], [], [],
        [if replies.getHdmiFormat ∈ [6, 7, 21, 22] then .obm656_10_dc else .obm422_10x2]⟩)
      fun _ => True := by
  apply meets_initHdmi_configured
  unfold initHdmiFormat
  rw [if_neg (Int.not_le.mpr htakes.1), if_pos htakes.2]
  apply (meets_probe indifferent_configured (by simp [DeviceEvent.isProbe])).bind
  intro _
  have hvic : Stage.Meets (Configured params .empty) (initVic replies.getHdmiFormat) _
      fun _ => True := meets_initVic_configured
  rwa [HdmiConfiguration.empty_append] at hvic

theorem meets_measuredPath {vp : VideoParams} (htakes : ¬ takesVic replies)
    (hvp : ∀ found, acceptedParams replies.getHdmiParams = some found → found = vp) :
    Stage.Meets (Configured params .empty) (initHdmi replies)
      (fun _ => Configured params ((formatConfiguration params replies vp.interlaced).append
        ⟨[], [], [], [.obm422_10x2]⟩))
      fun _ => True := by
  have hmeasured : Stage.Meets (Configured params .empty) (initMeasured replies) _ _ :=
    meets_initMeasured_configured hvp
  rw [HdmiConfiguration.empty_append] at hmeasured
  apply meets_initHdmi_configured
  unfold initHdmiFormat
  refine .ite (fun _ => hmeasured) fun hvic => ?_
  apply (meets_probe indifferent_configured (by simp [DeviceEvent.isProbe])).bind
  intro _
  rwa [if_neg fun htaken => htakes ⟨Int.not_le.mp hvic, htaken⟩]

end Stages

section Agreement

variable {source : HdmiSource} {dev : HauppaugeDev}

/-- The measured parameters are those of the source. -/
theorem HdmiSource.eq_timing {found : VideoParams}
    (hfound : acceptedParams source.replies.getHdmiParams = some found) :
    found = source.timing := by
  obtain ⟨idx, haccepts, rfl⟩ := exists_reply_of_acceptedParams hfound
  exact source.measured idx haccepts

/-- A successful `init_hdmi` performs what its path performs. -/
theorem performed_of_meets {configuration : HdmiConfiguration}
    (hmeets : Stage.Meets (Configured dev.params .empty) (initHdmi source.replies)
      (fun _ => Configured dev.params configuration) fun _ => True)
    (hok : (initHdmiAlone source dev).1 = some ()) :
    performedConfiguration source dev = configuration := by
  have hstart : Configured dev.params .empty { dev with trace := [] } := ⟨rfl, rfl⟩
  have hend := hmeets.some hstart (Prod.ext hok rfl)
  exact hend.performed

/-- What has been performed for a source is what it requires, unless it is taken by its VIC, is
interlaced where frame coding is requested, or has a doubled clock. -/
theorem agrees_iff (hok : (initHdmiAlone source dev).1 = some ()) :
    performedConfiguration source dev = requiredConfiguration dev.params source ↔
      ¬ takesVic source.replies ∧
        ¬ (source.timing.interlaced = true ∧
          dev.params.videoCodingMode = hapiCodingModeFrame) ∧
        isDoubleClocked source.timing = false := by
  by_cases htakes : takesVic source.replies
  · -- the audio input is not routed
    rw [performed_of_meets (meets_takesVic htakes) hok]
    have haudio : setAudioFormat dev.params source.replies (audioInFormat dev.params) ≠ [] :=
      setAudioFormat_ne_nil
    simp [requiredConfiguration, htakes, haudio.symm]
  · rw [performed_of_meets (meets_measuredPath htakes fun _ => HdmiSource.eq_timing) hok]
    have hmodes : (if dev.params.writesCodingMode ∧ source.timing.interlaced = true then
          [UInt32.ofInt dev.params.videoCodingMode] else []) =
        (requiredConfiguration dev.params source).codingModes ↔
          ¬ (source.timing.interlaced = true ∧
            dev.params.videoCodingMode = hapiCodingModeFrame) := by
      simp only [requiredConfiguration, Parameters.writesCodingMode, hapiCodingModeFrame,
        hapiCodingModeField, hapiCodingModePaff]
      cases source.timing.interlaced
      · simp
      · by_cases hframe : dev.params.videoCodingMode = 0
        · simp [hframe]
        · have hpositive : 1 ≤ dev.params.videoCodingMode ↔ 0 ≤ dev.params.videoCodingMode := by
            omega
          simp [hframe, hpositive]
    have hbus : ([.obm422_10x2] : List OutputBusMode) =
        (requiredConfiguration dev.params source).busModes ↔
          isDoubleClocked source.timing = false := by
      simp only [requiredConfiguration]
      cases isDoubleClocked source.timing <;> simp
    simp only [htakes, not_false_eq_true, true_and, ← hmodes, ← hbus]
    simp [HdmiConfiguration.append, formatConfiguration, requiredConfiguration]

/-- A progressive source without a VIC. -/
def measuredHdmi : HdmiSource where
  replies := { steadySource ⟨1920, 1080, false, 60, 16 / 9⟩ with
    getHdmiParams _ := (true, ⟨1920, 1080, false, 60, 16 / 9⟩) }
  timing := ⟨1920, 1080, false, 60, 16 / 9⟩
  measured _ _ := rfl
  vic hpositive := absurd hpositive (by decide)

theorem agrees_measured :
    performedConfiguration measuredHdmi (.new .default Registry.empty) =
      requiredConfiguration .default measuredHdmi := by
  have hok : (initHdmiAlone measuredHdmi (.new .default Registry.empty)).1 = some () := by decide
  exact (agrees_iff hok).mpr ⟨by decide, by decide, by decide⟩

/-- The same source with its VIC, which the encoder takes. -/
def vicHdmi : HdmiSource where
  replies := { measuredHdmi.replies with getHdmiFormat := 16, setHdmiFormat := true }
  timing := measuredHdmi.timing
  measured _ _ := rfl
  vic _ := by decide

theorem not_agrees :
    (initHdmiAlone vicHdmi (.new .default Registry.empty)).1 = some () ∧
      performedConfiguration vicHdmi (.new .default Registry.empty) ≠
        requiredConfiguration .default vicHdmi := by
  decide

end Agreement

end HauppaugeUSB.Device

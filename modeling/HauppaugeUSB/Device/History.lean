/-
# Recordings on one device

Each recording measures its source and sets the coding mode override and the field
inversion accordingly. Both are latches: they are switched on for an interlaced source
and never off. What the encoder finds when a format is set therefore depends on the
sources of earlier recordings, and this module determines for which sequences of sources
it does not.
-/

import HauppaugeUSB.Device.Stages
import HauppaugeUSB.Stores.Writes

namespace HauppaugeUSB.Device

open HauppaugeUSB.Commands HauppaugeUSB.Control HauppaugeUSB.Stores HauppaugeUSB.Streams
  HauppaugeUSB.Wrappers

/-- The source for which a `StartEncoding` with these replies sets the input format, if it
comes so far. -/
def measuredSource (params : Parameters) (replies : Replies) : Option VideoParams :=
  if params.videoInput = hapiVideoCaptureSourceCvbs ∨
      params.videoInput = hapiVideoCaptureSourceComponent then
    if hasSignal replies then acceptedParams replies.getOutputParams else none
  else if params.videoInput = hapiVideoCaptureSourceSdi then none
  else if hasSignal replies ∧ ¬ takesVic replies then acceptedParams replies.getHdmiParams
  else none

/-- The settings that outlive a call. -/
structure Carried where
  codingMode : Option Dword
  inverted : Bool
  deriving DecidableEq

/-- The coding modes for which `set_input_format` writes an override. -/
def Parameters.writesCodingMode (params : Parameters) : Prop :=
  hapiCodingModeField ≤ params.videoCodingMode ∧ params.videoCodingMode ≤ hapiCodingModePaff

instance (params : Parameters) : Decidable params.writesCodingMode :=
  inferInstanceAs (Decidable (_ ∧ _))

/-- The settings after sources of which some were interlaced, or none. -/
def carriedAfter (params : Parameters) (interlaced : Bool) : Carried where
  codingMode :=
    if params.writesCodingMode ∧ interlaced then some (UInt32.ofInt params.videoCodingMode)
    else none
  inverted := params.flipFields && interlaced

namespace HauppaugeDev

def carried (dev : HauppaugeDev) : Carried where
  codingMode := dev.registry videoCodingModeName
  inverted := dev.avInvF

/-- The formats that the encoder has been given. -/
def formats (dev : HauppaugeDev) : List InputFormat :=
  dev.trace.filterMap fun
    | .setInputFormat format _ => some format
    | _ => none

end HauppaugeDev

/-- The settings are those that a source asks for. -/
structure FreshSettings (params : Parameters) (interlaced : Bool) (settings : Carried) : Prop where
  codingMode : settings.codingMode =
    if interlaced ∧ hapiCodingModeFrame ≤ params.videoCodingMode ∧
        params.videoCodingMode ≤ hapiCodingModePaff then
      some (UInt32.ofInt params.videoCodingMode)
    else none
  inverted : settings.inverted = (interlaced && params.flipFields)

/-- So they were when the encoder was given a format. -/
def FreshFormat (params : Parameters) (format : InputFormat) : Prop :=
  FreshSettings params format.interlaced ⟨format.codingMode, format.inverted⟩

/-- A call to the device. -/
inductive EncodingCall
  | startEncoding (replies : Replies)
  | stopEncoding (reply : Bool)

/-- The device after a call. -/
def encodingStep (dev : HauppaugeDev) : EncodingCall → HauppaugeDev
  | .startEncoding replies => (startEncoding replies dev).2
  | .stopEncoding reply => (stopEncoding reply dev).2

/-- The device after a sequence of calls. -/
def encodingRun (params : Parameters) (calls : List EncodingCall) : HauppaugeDev :=
  calls.foldl encodingStep (.new params Registry.empty)

/-- Whether the source of a call is interlaced, if the call measures one. -/
def sourceOf (params : Parameters) : EncodingCall → List Bool
  | .startEncoding replies =>
      ((measuredSource params replies).map VideoParams.interlaced).toList
  | .stopEncoding _ => []

/-- The sources of a sequence of calls. -/
def sourcesOf (params : Parameters) (calls : List EncodingCall) : List Bool :=
  calls.flatMap (sourceOf params)

/-- The sources leave nothing behind that another one finds, and none is interlaced where
frame coding is requested. -/
structure HistoryFree (params : Parameters) (sources : List Bool) : Prop where
  order : params.writesCodingMode ∨ params.flipFields = true →
    sources.Pairwise fun earlier later => earlier = true → later = true
  frame : params.videoCodingMode = hapiCodingModeFrame → ∀ source ∈ sources, source = false

/-- A device whose sources so far have these interlacing flags. -/
structure Recorded (params : Parameters) (flags : List Bool) (dev : HauppaugeDev) : Prop where
  sameParams : dev.params = params
  settings : dev.carried = carriedAfter params (latched flags)
  fresh : (∀ format ∈ dev.formats, FreshFormat params format) ↔
    ∀ prior flag, prior ++ [flag] <+: flags →
      FreshSettings params flag (carriedAfter params (latched (prior ++ [flag])))

/-- An event other than setting the input format. -/
def DeviceEvent.isQuiet : DeviceEvent → Bool
  | .setInputFormat .. => false
  | _ => true

theorem formats_emit {dev : HauppaugeDev} {events : List DeviceEvent}
    (hquiet : ∀ event ∈ events, event.isQuiet = true) :
    (dev.emit events).formats = dev.formats := by
  have hnone : events.filterMap (fun
      | .setInputFormat format _ => some format
      | _ => none) = ([] : List InputFormat) := by
    rw [List.filterMap_eq_nil_iff]
    intro event hevent
    have hhere := hquiet event hevent
    cases event with
    | setInputFormat format reply => simp [DeviceEvent.isQuiet] at hhere
    | _ => rfl
  rw [HauppaugeDev.formats, HauppaugeDev.emit_trace, List.filterMap_append, hnone, List.append_nil]
  rfl

theorem formats_emit_format {dev : HauppaugeDev} {format : InputFormat} {reply : Bool} :
    (dev.emit [.setInputFormat format reply]).formats = dev.formats ++ [format] := by
  simp [HauppaugeDev.formats]

theorem isQuiet_of_isProbe {event : DeviceEvent} (hprobe : event.isProbe = true) :
    event.isQuiet = true := by
  cases event with
  | setInputFormat format reply => simp [DeviceEvent.isProbe] at hprobe
  | _ => rfl

theorem isQuiet_of_mem_setAudioFormat {params : Parameters} {replies : Replies}
    {audioFormat : AudioInFormat} :
    ∀ event ∈ setAudioFormat params replies audioFormat, event.isQuiet = true := by
  unfold setAudioFormat setDigitalAudio
  cases replies.cs8416 <;> dsimp only <;> split_ifs <;> simp [DeviceEvent.isQuiet]

section Stages

variable {params : Parameters} {flags : List Bool} {replies : Replies}

theorem Recorded.emit {dev : HauppaugeDev} {events : List DeviceEvent}
    (hdev : Recorded params flags dev) (hquiet : ∀ event ∈ events, event.isQuiet = true) :
    Recorded params flags (dev.emit events) :=
  ⟨hdev.sameParams, hdev.settings, by rw [formats_emit hquiet]; exact hdev.fresh⟩

theorem indifferent_recorded : Indifferent (Recorded params flags) where
  emit _ _ hprobe hdev := hdev.emit fun event hevent => isQuiet_of_isProbe (hprobe event hevent)
  errmsg _ _ hdev := ⟨hdev.sameParams, hdev.settings, hdev.fresh⟩
  videoInitialized _ _ hdev := ⟨hdev.sameParams, hdev.settings, hdev.fresh⟩

variable {E : HauppaugeDev → Prop}

theorem meets_call {events : List DeviceEvent} (hquiet : ∀ event ∈ events, event.isQuiet = true) :
    Stage.Meets (Recorded params flags) (call events) (fun _ => Recorded params flags) E :=
  .update fun _ hdev => hdev.emit hquiet

theorem formats_overrideCodingMode {interlaced : Bool} {dev : HauppaugeDev} :
    (overrideCodingMode interlaced dev).formats = dev.formats := by
  unfold overrideCodingMode
  split_ifs
  · exact formats_emit (by simp [DeviceEvent.isQuiet])
  · rfl
  · rfl

theorem params_overrideCodingMode {interlaced : Bool} {dev : HauppaugeDev} :
    (overrideCodingMode interlaced dev).params = dev.params := by
  unfold overrideCodingMode
  split_ifs <;> rfl

theorem avInvF_overrideCodingMode {interlaced : Bool} {dev : HauppaugeDev} :
    (overrideCodingMode interlaced dev).avInvF = dev.avInvF := by
  unfold overrideCodingMode
  split_ifs <;> rfl

/-- The override is a latch: a value that is there is the one that would be written. -/
theorem registry_overrideCodingMode {interlaced : Bool} {dev : HauppaugeDev}
    (hparams : dev.params = params)
    (hregistry : dev.registry videoCodingModeName =
      (carriedAfter params (latched flags)).codingMode) :
    (overrideCodingMode interlaced dev).registry videoCodingModeName =
      (carriedAfter params (latched (flags ++ [interlaced]))).codingMode := by
  have hwrites : (hapiCodingModeField ≤ dev.params.videoCodingMode ∧
      dev.params.videoCodingMode ≤ hapiCodingModePaff) ↔ params.writesCodingMode := by
    rw [hparams]
    exact Iff.rfl
  simp only [carriedAfter] at hregistry
  simp only [carriedAfter, latched_append_singleton, overrideCodingMode, hwrites]
  by_cases hmode : params.writesCodingMode
  case neg => simpa [hmode] using hregistry
  case pos =>
    cases interlaced with
    | false => simpa [hmode] using hregistry
    | true =>
        simp only [hmode, if_true, Bool.or_true, and_true, writeDword, hparams]
        cases hlatched : latched flags with
        | false => simp [insertNew_of_none, hregistry, hlatched]
        | true => simp [insertNew_of_some, hregistry, hlatched, hmode]

theorem formats_flipHdmiFields {dev : HauppaugeDev} :
    (flipHdmiFields dev).formats = dev.formats :=
  formats_emit (by simp [DeviceEvent.isQuiet])

theorem formats_prepareInput {interlaced : Bool} {dev : HauppaugeDev} :
    (prepareInput replies interlaced dev).formats = dev.formats := by
  have hrouted : (dev.emit (setAudioFormat dev.params replies (audioInFormat dev.params))).formats =
      dev.formats := formats_emit isQuiet_of_mem_setAudioFormat
  unfold prepareInput
  dsimp only
  split
  · rw [formats_flipHdmiFields, formats_overrideCodingMode, hrouted]
  · rw [formats_overrideCodingMode, hrouted]

theorem params_prepareInput {interlaced : Bool} {dev : HauppaugeDev} :
    (prepareInput replies interlaced dev).params = dev.params := by
  unfold prepareInput
  dsimp only
  split <;> exact params_overrideCodingMode

/-- Both settings are as they are to be after a source more. -/
theorem carried_prepareInput {interlaced : Bool} {dev : HauppaugeDev}
    (hdev : Recorded params flags dev) :
    (prepareInput replies interlaced dev).carried =
      carriedAfter params (latched (flags ++ [interlaced])) := by
  have hregistry : dev.carried.codingMode = (carriedAfter params (latched flags)).codingMode := by
    rw [hdev.settings]
  have hinverted : dev.carried.inverted = (params.flipFields && latched flags) := by
    rw [hdev.settings]
    rfl
  have hoverridden (events : List DeviceEvent) :
      (overrideCodingMode interlaced (dev.emit events)).registry videoCodingModeName =
        (carriedAfter params (latched (flags ++ [interlaced]))).codingMode :=
    registry_overrideCodingMode hdev.sameParams hregistry
  unfold prepareInput
  dsimp only
  split
  case isTrue hflips =>
    rw [hdev.sameParams] at hflips
    show Carried.mk _ _ = Carried.mk _ _
    congr 1
    · exact hoverridden _
    · show true = _
      simp [hflips]
  case isFalse hkeeps =>
    rw [hdev.sameParams] at hkeeps
    show Carried.mk _ _ = Carried.mk _ _
    congr 1
    · exact hoverridden _
    · rw [avInvF_overrideCodingMode]
      show dev.carried.inverted = _
      rw [hinverted]
      cases interlaced <;> cases hflip : params.flipFields <;> simp_all

/-- The device after the call of the encoder. -/
def formatSet (replies : Replies) (source : EncoderSource) (vp : VideoParams)
    (aspectRatio audioSampleRate : ℚ) (dev : HauppaugeDev) : HauppaugeDev :=
  let prepared := prepareInput replies vp.interlaced dev
  prepared.emit [.setInputFormat (formatOf source vp aspectRatio audioSampleRate prepared)
    replies.setInputFormat]

theorem setInputFormat_eq {source : EncoderSource} {vp : VideoParams}
    {aspectRatio audioSampleRate : ℚ} {dev : HauppaugeDev} :
    setInputFormat replies source vp aspectRatio audioSampleRate dev =
      (if replies.setInputFormat then some () else none,
        formatSet replies source vp aspectRatio audioSampleRate dev) := by
  show (if replies.setInputFormat then (pure () : Stage HauppaugeDev Unit) else .fail)
    (formatSet replies source vp aspectRatio audioSampleRate dev) = _
  split <;> rfl

/-- A format that has been set adds a source, and a point at which the settings are fresh
or not. -/
theorem recorded_formatSet {source : EncoderSource} {vp : VideoParams}
    {aspectRatio audioSampleRate : ℚ} {dev : HauppaugeDev} (hdev : Recorded params flags dev) :
    Recorded params (flags ++ [vp.interlaced])
      (formatSet replies source vp aspectRatio audioSampleRate dev) := by
  have hcarried : (prepareInput replies vp.interlaced dev).carried = _ :=
    carried_prepareInput hdev
  refine ⟨params_prepareInput.trans hdev.sameParams, hcarried, ?_⟩
  have hformats : (formatSet replies source vp aspectRatio audioSampleRate dev).formats =
      dev.formats ++ [formatOf source vp aspectRatio audioSampleRate
        (prepareInput replies vp.interlaced dev)] := by
    have hprepared : (prepareInput replies vp.interlaced dev).formats = dev.formats :=
      formats_prepareInput
    rw [← hprepared]
    exact formats_emit_format
  have hlast : FreshFormat params (formatOf source vp aspectRatio audioSampleRate
      (prepareInput replies vp.interlaced dev)) ↔
        FreshSettings params vp.interlaced
          (carriedAfter params (latched (flags ++ [vp.interlaced]))) := by
    rw [← hcarried]
    rfl
  rw [hformats, forall_points_append_singleton, ← hdev.fresh, ← hlast]
  simp [or_imp, forall_and]

theorem meets_setInputFormat {source : EncoderSource} {vp : VideoParams}
    {aspectRatio audioSampleRate : ℚ}
    (hfail : ∀ dev, Recorded params (flags ++ [vp.interlaced]) dev → E dev) :
    Stage.Meets (Recorded params flags)
      (setInputFormat replies source vp aspectRatio audioSampleRate)
      (fun _ => Recorded params (flags ++ [vp.interlaced])) E := by
  intro dev hdev
  rw [setInputFormat_eq]
  cases replies.setInputFormat
  · exact hfail _ (recorded_formatSet hdev)
  · exact recorded_formatSet hdev

/-- An input that sets the format for what it has measured. -/
theorem meets_measured {event : Bool × VideoParams → DeviceEvent}
    {reply : ℕ → Bool × VideoParams} {rest : VideoParams → Stage HauppaugeDev Unit}
    {found : List Bool} (hprobe : ∀ reply, (event reply).isProbe = true)
    (hfound : found = ((acceptedParams reply).map VideoParams.interlaced).toList)
    (hrest : ∀ vp, Stage.Meets (Recorded params flags) (rest vp)
      (fun _ => Recorded params (flags ++ [vp.interlaced]))
      (Recorded params (flags ++ [vp.interlaced]))) :
    Stage.Meets (Recorded params flags) (awaitParams event reply >>= rest)
      (fun _ => Recorded params (flags ++ found)) (Recorded params (flags ++ found)) := by
  subst hfound
  refine (meets_awaitParams indifferent_recorded hprobe fun hnone dev hdev => ?_).bind fun vp =>
    .of_and fun hsome => ?_
  · simpa [hnone] using hdev
  · simpa [hsome] using hrest vp

/-- The same after waiting for a signal. -/
theorem meets_signalled {rest : Stage HauppaugeDev Unit} {found : List Bool}
    (hnone : ¬ hasSignal replies → found = [])
    (hrest : hasSignal replies → Stage.Meets (Recorded params flags) rest
      (fun _ => Recorded params (flags ++ found)) (Recorded params (flags ++ found))) :
    Stage.Meets (Recorded params flags) (awaitSignal replies >>= fun _ => rest)
      (fun _ => Recorded params (flags ++ found)) (Recorded params (flags ++ found)) := by
  refine (meets_awaitSignal indifferent_recorded fun hno dev hdev => ?_).bind fun _ => .of_and hrest
  simpa [hnone hno] using hdev

theorem meets_initCvbs (hinput : params.videoInput = hapiVideoCaptureSourceCvbs) :
    Stage.Meets (Recorded params flags) (initCvbs replies)
      (fun _ => Recorded params (flags ++ sourceOf params (.startEncoding replies)))
      (Recorded params (flags ++ sourceOf params (.startEncoding replies))) := by
  refine (meets_selectInput indifferent_recorded).bind fun _ =>
    meets_signalled (fun hno => ?_) fun hsignal => ?_
  · simp [sourceOf, measuredSource, hinput, hno]
  · refine meets_measured (fun _ => rfl) (by simp [sourceOf, measuredSource, hinput, hsignal])
      fun vp => ?_
    refine (meets_setInputFormat fun _ h => h).bind fun _ => ?_
    refine (meets_call ?_).bind fun _ => meets_initialized indifferent_recorded
    simp [DeviceEvent.isQuiet]

theorem meets_initComponent (hinput : params.videoInput = hapiVideoCaptureSourceComponent) :
    Stage.Meets (Recorded params flags) (initComponent replies)
      (fun _ => Recorded params (flags ++ sourceOf params (.startEncoding replies)))
      (Recorded params (flags ++ sourceOf params (.startEncoding replies))) := by
  refine (meets_selectInput indifferent_recorded).bind fun _ =>
    meets_signalled (fun hno => ?_) fun hsignal => ?_
  · simp [sourceOf, measuredSource, hinput, hno]
  · refine meets_measured (fun _ => rfl) (by simp [sourceOf, measuredSource, hinput, hsignal])
      fun vp => ?_
    refine (meets_setInputFormat fun _ h => h).bind fun _ => ?_
    refine (meets_call ?_).bind fun _ => (meets_call ?_).bind fun _ =>
      meets_initialized indifferent_recorded
    · simp [DeviceEvent.isQuiet]
    · simp [DeviceEvent.isQuiet]

theorem meets_initSdi (hinput : params.videoInput = hapiVideoCaptureSourceSdi) :
    Stage.Meets (Recorded params flags) initSdi
      (fun _ => Recorded params (flags ++ sourceOf params (.startEncoding replies)))
      (Recorded params (flags ++ sourceOf params (.startEncoding replies))) := by
  apply meets_giveUp indifferent_recorded
  simp [sourceOf, measuredSource, hinput, hapiVideoCaptureSourceSdi, hapiVideoCaptureSourceCvbs,
    hapiVideoCaptureSourceComponent]

theorem meets_initMeasured {found : List Bool}
    (hfound : found = ((acceptedParams replies.getHdmiParams).map VideoParams.interlaced).toList) :
    Stage.Meets (Recorded params flags) (initMeasured replies)
      (fun _ => Recorded params (flags ++ found)) (Recorded params (flags ++ found)) := by
  refine meets_measured (fun _ => rfl) hfound fun vp => ?_
  refine (meets_setInputFormat fun _ h => h).bind fun _ => meets_call ?_
  simp [DeviceEvent.isQuiet]

theorem meets_initVic {vic : ℤ} :
    Stage.Meets (Recorded params flags) (initVic vic) (fun _ => Recorded params flags) E := by
  refine .ite (fun _ => meets_call ?_) fun _ => meets_call ?_
  · simp [DeviceEvent.isQuiet]
  · simp [DeviceEvent.isQuiet]

theorem meets_initHdmiFormat {found : List Bool} (htakes : takesVic replies → found = [])
    (hfound : ¬ takesVic replies →
      found = ((acceptedParams replies.getHdmiParams).map VideoParams.interlaced).toList) :
    Stage.Meets (Recorded params flags) (initHdmiFormat replies replies.getHdmiFormat)
      (fun _ => Recorded params (flags ++ found)) (Recorded params (flags ++ found)) := by
  refine .ite (fun hvic => ?_) fun hvic => ?_
  · exact meets_initMeasured (hfound fun htaken => absurd htaken.1 (Int.not_lt.mpr hvic))
  refine (meets_call ?_).bind fun _ => ?_
  · simp [DeviceEvent.isQuiet]
  -- the encoder has been asked
  refine .ite (fun htaken => ?_) fun htaken => ?_
  · rw [htakes ⟨Int.not_le.mp hvic, htaken⟩, List.append_nil]
    exact meets_initVic
  · exact meets_initMeasured (hfound fun htakes => htaken htakes.2)

theorem meets_initHdmi (hcvbs : params.videoInput ≠ hapiVideoCaptureSourceCvbs)
    (hcomponent : params.videoInput ≠ hapiVideoCaptureSourceComponent)
    (hsdi : params.videoInput ≠ hapiVideoCaptureSourceSdi) :
    Stage.Meets (Recorded params flags) (initHdmi replies)
      (fun _ => Recorded params (flags ++ sourceOf params (.startEncoding replies)))
      (Recorded params (flags ++ sourceOf params (.startEncoding replies))) := by
  refine (meets_selectInput indifferent_recorded).bind fun _ =>
    meets_signalled (fun hno => ?_) fun hsignal => ?_
  · simp [sourceOf, measuredSource, hcvbs, hcomponent, hsdi, hno]
  refine (meets_call ?_).bind fun _ => (meets_call ?_).bind fun _ => ?_
  · simp [DeviceEvent.isQuiet]
  · simp [DeviceEvent.isQuiet]
  refine (meets_initHdmiFormat (fun htakes => ?_) fun htakes => ?_).bind fun _ =>
    meets_initialized indifferent_recorded
  · simp [sourceOf, measuredSource, hcvbs, hcomponent, hsdi, htakes]
  · simp [sourceOf, measuredSource, hcvbs, hcomponent, hsdi, hsignal, htakes]

/-- A call to start adds its source. -/
theorem meets_startEncoding (replies : Replies) :
    Stage.Meets (Recorded params flags) (startEncoding replies)
      (fun _ => Recorded params (flags ++ sourceOf params (.startEncoding replies)))
      (Recorded params (flags ++ sourceOf params (.startEncoding replies))) := by
  have hinput : Stage.Meets (Recorded params flags) (initInput params replies)
      (fun _ => Recorded params (flags ++ sourceOf params (.startEncoding replies)))
      (Recorded params (flags ++ sourceOf params (.startEncoding replies))) := by
    refine .ite meets_initCvbs fun hcvbs => .ite meets_initComponent fun hcomponent => ?_
    exact .ite meets_initSdi fun hsdi => meets_initHdmi hcvbs hcomponent hsdi
  have hread : Stage.Meets (Recorded params flags) Stage.read
      (fun seen dev => Recorded params flags dev ∧ seen.params = params)
      (Recorded params (flags ++ sourceOf params (.startEncoding replies))) :=
    .read fun dev hdev => ⟨hdev, hdev.sameParams⟩
  refine hread.bind fun seen => .of_and fun hseen => ?_
  rw [hseen]
  refine hinput.bind fun _ => (meets_call ?_).bind fun _ => ?_
  · simp [DeviceEvent.isQuiet]
  · exact .ite (fun _ => .pure fun _ hdev => hdev) fun _ =>
      meets_giveUp indifferent_recorded fun _ hdev => hdev

theorem meets_stopEncoding (reply : Bool) :
    Stage.Meets (Recorded params flags) (stopEncoding reply) (fun _ => Recorded params flags)
      (Recorded params flags) := by
  refine (meets_call ?_).bind fun _ => ?_
  · simp [DeviceEvent.isQuiet]
  · exact .ite (fun _ => .pure fun _ hdev => hdev) fun _ =>
      meets_giveUp indifferent_recorded fun _ hdev => hdev

end Stages

section Runs

variable {params : Parameters} {flags : List Bool} {calls : List EncodingCall}

theorem encodingRun_append_singleton {call : EncodingCall} :
    encodingRun params (calls ++ [call]) = encodingStep (encodingRun params calls) call := by
  simp [encodingRun]

theorem recorded_step {call : EncodingCall} {dev : HauppaugeDev}
    (hdev : Recorded params flags dev) :
    Recorded params (flags ++ sourceOf params call) (encodingStep dev call) := by
  cases call with
  | startEncoding replies => exact (meets_startEncoding replies).leaves hdev
  | stopEncoding reply =>
      show Recorded params (flags ++ []) (encodingStep dev (.stopEncoding reply))
      rw [List.append_nil]
      exact (meets_stopEncoding reply).leaves hdev

theorem recorded_new : Recorded params [] (.new params Registry.empty) where
  sameParams := rfl
  settings := by
    simp [HauppaugeDev.carried, HauppaugeDev.new, configure_videoCodingMode, carriedAfter,
      Registry.empty]
  fresh := by
    have hnone : (HauppaugeDev.new params Registry.empty).formats = [] := rfl
    simp [hnone]

theorem recorded_run : Recorded params (sourcesOf params calls) (encodingRun params calls) := by
  induction calls using List.reverseRecOn with
  | nil => exact recorded_new
  | append_singleton earlier call ih =>
      have hsources : sourcesOf params (earlier ++ [call]) =
          sourcesOf params earlier ++ sourceOf params call := by
        simp [sourcesOf]
      rw [encodingRun_append_singleton, hsources]
      exact recorded_step ih

/-- The settings that a latch leaves are fresh exactly when it is as it was asked to be,
where it is asked at all, and frame coding is not. -/
theorem freshSettings_iff {flag latch : Bool} (hlatch : flag = true → latch = true) :
    FreshSettings params flag (carriedAfter params latch) ↔
      (params.writesCodingMode ∨ params.flipFields = true → latch = flag) ∧
        (params.videoCodingMode = hapiCodingModeFrame → flag = false) := by
  have hmodes : hapiCodingModeFrame ≤ params.videoCodingMode ∧
      params.videoCodingMode ≤ hapiCodingModePaff ↔
        params.writesCodingMode ∨ params.videoCodingMode = hapiCodingModeFrame := by
    simp only [Parameters.writesCodingMode, hapiCodingModeFrame, hapiCodingModeField,
      hapiCodingModePaff]
    omega
  have hexclusive : params.videoCodingMode = hapiCodingModeFrame → ¬ params.writesCodingMode := by
    simp only [Parameters.writesCodingMode, hapiCodingModeFrame, hapiCodingModeField,
      hapiCodingModePaff]
    omega
  have hfresh : FreshSettings params flag (carriedAfter params latch) ↔
      ((carriedAfter params latch).codingMode =
        if flag ∧ (params.writesCodingMode ∨ params.videoCodingMode = hapiCodingModeFrame) then
          some (UInt32.ofInt params.videoCodingMode)
        else none) ∧
      (carriedAfter params latch).inverted = (flag && params.flipFields) := by
    simp only [← hmodes]
    exact ⟨fun h => ⟨h.codingMode, h.inverted⟩, fun h => ⟨h.1, h.2⟩⟩
  rw [hfresh]
  by_cases hframe : params.videoCodingMode = hapiCodingModeFrame
  · cases flag <;> cases latch <;> cases hflip : params.flipFields <;>
      simp_all [carriedAfter]
  · by_cases hwrites : params.writesCodingMode <;>
      cases flag <;> cases latch <;> cases hflip : params.flipFields <;>
        simp_all [carriedAfter]

/-- Every format of a run is what a new device would have, exactly when no source leaves anything
behind. -/
theorem fresh_iff_historyFree :
    (∀ format ∈ (encodingRun params calls).formats, FreshFormat params format) ↔
      HistoryFree params (sourcesOf params calls) := by
  have hlatch (prior : List Bool) (flag : Bool) :
      flag = true → latched (prior ++ [flag]) = true := by
    simp +contextual
  have hpoints : (∀ prior flag, prior ++ [flag] <+: sourcesOf params calls →
      FreshSettings params flag (carriedAfter params (latched (prior ++ [flag])))) ↔
        (∀ prior flag, prior ++ [flag] <+: sourcesOf params calls →
          params.writesCodingMode ∨ params.flipFields = true → latched (prior ++ [flag]) = flag) ∧
        ∀ prior flag, prior ++ [flag] <+: sourcesOf params calls →
          params.videoCodingMode = hapiCodingModeFrame → flag = false := by
    simp only [freshSettings_iff (hlatch _ _), imp_and, forall_and]
  rw [recorded_run.fresh, hpoints]
  constructor
  · rintro ⟨horder, hframe⟩
    refine ⟨fun hwants => ?_, fun hmode source hsource => ?_⟩
    · exact latched_follows_iff.mp fun prior flag hbegins => horder prior flag hbegins hwants
    · obtain ⟨prior, rest, hsplit⟩ := List.append_of_mem hsource
      exact hframe prior source ⟨rest, by simp [hsplit]⟩ hmode
  · rintro ⟨horder, hframe⟩
    refine ⟨fun prior flag hbegins hwants => ?_, fun prior flag hbegins hmode => ?_⟩
    · exact latched_follows_iff.mpr (horder hwants) prior flag hbegins
    · exact hframe hmode flag (hbegins.subset (by simp))

/-- A component source that is there at once. -/
def steadySource (vp : VideoParams) : Replies where
  hasInputSignal _ := true
  getOutputParams _ := (true, vp)
  audioSampleRate := 48000
  getHdmiFormat := 0
  setHdmiFormat := false
  getHdmiParams _ := (false, vp)
  cs8416 := true
  setInputFormat := true
  startCapture := true

/-- A recording of 1080i and one of 720p, with field coding. -/
def fieldThenProgressive : Parameters × List EncodingCall :=
  ({ Parameters.default with videoInput := 1, videoCodingMode := 1 },
    [.startEncoding (steadySource ⟨1920, 1080, true, 30, 16 / 9⟩), .stopEncoding true,
      .startEncoding (steadySource ⟨1280, 720, false, 60, 16 / 9⟩)])

theorem not_fresh :
    ¬ ∀ format ∈ (encodingRun fieldThenProgressive.1 fieldThenProgressive.2).formats,
      FreshFormat fieldThenProgressive.1 format := by
  have hformats : (encodingRun fieldThenProgressive.1 fieldThenProgressive.2).formats.map
      (fun format => (format.interlaced, format.codingMode)) =
        [(true, some 1), (false, some 1)] := by
    decide
  intro hfresh
  have hmem : (false, some 1) ∈
      (encodingRun fieldThenProgressive.1 fieldThenProgressive.2).formats.map
        fun format => (format.interlaced, format.codingMode) := by
    simp [hformats]
  obtain ⟨format, hformat, hview⟩ := List.mem_map.mp hmem
  obtain ⟨hprogressive, hoverride⟩ := Prod.mk.inj hview
  have hmode := (hfresh format hformat).codingMode
  simp [hprogressive, hoverride] at hmode

end Runs

end HauppaugeUSB.Device

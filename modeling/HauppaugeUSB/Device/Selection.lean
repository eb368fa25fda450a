/-
# Selecting the input

An input of the receiver is selected by a `StartEncoding` only as long as
`m_video_initialized` is not its source, and that is set at the end of an `init_*` that
succeeds. Over a whole session the input is therefore selected once for each
`StartEncoding` up to the first one that initializes it, whatever becomes of the captures,
and every capture is started with the configured input selected.
-/

import HauppaugeUSB.Device.Hdmi
import HauppaugeUSB.Streams.Search

namespace HauppaugeUSB.Device

open HauppaugeUSB.Control HauppaugeUSB.Streams HauppaugeUSB.Wrappers

/-- The source that `StartEncoding` initializes, and the input of the receiver for it. SDI, which
`init_sdi` refuses, has none. -/
def inputOf (params : Parameters) : Option (ℤ × ReceiverInput) :=
  if params.videoInput = hapiVideoCaptureSourceCvbs then some (hapiVideoCaptureSourceCvbs, .cvbs)
  else if params.videoInput = hapiVideoCaptureSourceComponent then
    some (hapiVideoCaptureSourceComponent, .comp)
  else if params.videoInput = hapiVideoCaptureSourceSdi then none
  else some (hapiVideoCaptureSourceHdmi, .hdmi)

/-- A source is measured, and the encoder takes its format. -/
def setsFormat (replies : Replies) (reply : ℕ → Bool × VideoParams) : Bool :=
  (acceptedParams reply).isSome && replies.setInputFormat

/-- A `StartEncoding` with these replies initializes its input. -/
def initializes (params : Parameters) (replies : Replies) : Bool :=
  decide (hasSignal replies) &&
    if params.videoInput = hapiVideoCaptureSourceCvbs ∨
        params.videoInput = hapiVideoCaptureSourceComponent then
      setsFormat replies replies.getOutputParams
    else if params.videoInput = hapiVideoCaptureSourceSdi then false
    else decide (takesVic replies) || setsFormat replies replies.getHdmiParams

/-- The same of any call. -/
def EncodingCall.initializes (params : Parameters) : EncodingCall → Bool
  | .startEncoding replies => Device.initializes params replies
  | .stopEncoding _ => false

/-- How many calls find the input not initialized yet. -/
def attempts (params : Parameters) : List EncodingCall → ℕ
  | [] => 0
  | .startEncoding replies :: rest =>
      1 + if initializes params replies then 0 else attempts params rest
  | .stopEncoding _ :: rest => attempts params rest

/-- The inputs that have been selected. -/
def selections (trace : List DeviceEvent) : List ReceiverInput :=
  trace.filterMap fun
    | .setInput input => some input
    | _ => none

/-- In a session the configured input is selected once for each attempt, and nothing else is;
where a capture is started, it is the input selected last. -/
structure SelectsInput (params : Parameters) (calls : List EncodingCall) : Prop where
  selected : selections (encodingRun params calls).trace =
    (inputOf params).elim [] fun input => List.replicate (attempts params calls) input.2
  captured : ∀ prior reply,
    prior ++ [.startCapture reply] <+: (encodingRun params calls).trace →
      ∃ input, inputOf params = some input ∧ (selections prior).getLast? = some input.2

/-- A call that selects an input or starts a capture. -/
def DeviceEvent.isSetup : DeviceEvent → Bool
  | .setInput _ | .startCapture _ => true
  | _ => false

/-- A device that has selected its input so many times, and has initialized it or not. -/
structure Selecting (params : Parameters) (count : ℕ) (settled : Bool) (dev : HauppaugeDev) :
    Prop where
  sameParams : dev.params = params
  selected : selections dev.trace =
    (inputOf params).elim [] fun input => List.replicate count input.2
  videoInitialized : ∀ input, inputOf params = some input →
    (dev.videoInitialized = input.1 ↔ settled = true)
  counted : settled = true → 0 < count
  captured : ∀ prior event, prior ++ [event] <+: dev.trace →
    (∃ reply, event = .startCapture reply) → selections prior ≠ []

section Stages

variable {params : Parameters} {count : ℕ} {settled : Bool} {dev : HauppaugeDev}
  {events : List DeviceEvent} {replies : Replies} {E : HauppaugeDev → Prop}

theorem selections_append {first second : List DeviceEvent} :
    selections (first ++ second) = selections first ++ selections second :=
  List.filterMap_append

theorem selections_of_not_isSetup (hquiet : ∀ event ∈ events, event.isSetup = false) :
    selections events = [] := by
  rw [selections, List.filterMap_eq_nil_iff]
  intro event hevent
  have hhere := hquiet event hevent
  cases event with
  | setInput input => simp [DeviceEvent.isSetup] at hhere
  | _ => rfl

/-- Points of a trace at which nothing is started. -/
theorem captured_append {P : List DeviceEvent → Prop} {trace : List DeviceEvent}
    (htrace : ∀ prior event, prior ++ [event] <+: trace →
      (∃ reply, event = .startCapture reply) → P prior)
    (hnone : ∀ reply, .startCapture reply ∉ events) :
    ∀ prior event, prior ++ [event] <+: trace ++ events →
      (∃ reply, event = .startCapture reply) → P prior := by
  induction events using List.reverseRecOn with
  | nil => simpa using htrace
  | append_singleton earlier last ih =>
      rw [← List.append_assoc, forall_points_append_singleton]
      refine ⟨ih fun reply hreply => hnone reply (List.mem_append_left _ hreply), ?_⟩
      rintro ⟨reply, rfl⟩
      exact absurd (List.mem_append_right _ (List.mem_singleton_self _)) (hnone reply)

theorem videoInitialized_prepareInput {interlaced : Bool} :
    (prepareInput replies interlaced dev).videoInitialized = dev.videoInitialized := by
  have hoverride (dev : HauppaugeDev) :
      (overrideCodingMode interlaced dev).videoInitialized = dev.videoInitialized := by
    unfold overrideCodingMode
    split_ifs <;> rfl
  unfold prepareInput
  dsimp only
  split <;> exact hoverride _

theorem isSetup_of_mem_setAudioFormat {audioFormat : AudioInFormat} :
    ∀ event ∈ setAudioFormat params replies audioFormat, event.isSetup = false := by
  unfold setAudioFormat setDigitalAudio
  cases replies.cs8416 <;> dsimp only <;> split_ifs <;> simp [DeviceEvent.isSetup]

theorem isSetup_of_mem_overrideEvents {interlaced : Bool} :
    ∀ event ∈ overrideEvents params interlaced, event.isSetup = false := by
  unfold overrideEvents
  split_ifs <;> simp [DeviceEvent.isSetup]

theorem isSetup_of_mem_flipEvents {interlaced : Bool} :
    ∀ event ∈ flipEvents params interlaced, event.isSetup = false := by
  unfold flipEvents
  split_ifs <;> simp [DeviceEvent.isSetup]

/-- What setting a format calls. -/
theorem isSetup_of_mem_formatEvents {interlaced reply : Bool} {audioFormat : AudioInFormat}
    {format : InputFormat} :
    ∀ event ∈ setAudioFormat params replies audioFormat ++ overrideEvents params interlaced ++
      flipEvents params interlaced ++ [.setInputFormat format reply], event.isSetup = false := by
  intro event hevent
  simp only [List.mem_append, List.mem_singleton] at hevent
  rcases hevent with ((haudio | hoverride) | hflip) | rfl
  · exact isSetup_of_mem_setAudioFormat event haudio
  · exact isSetup_of_mem_overrideEvents event hoverride
  · exact isSetup_of_mem_flipEvents event hflip
  · rfl

namespace Selecting

theorem of_eq {later : HauppaugeDev} (hdev : Selecting params count settled dev)
    (hparams : later.params = dev.params) (htrace : later.trace = dev.trace)
    (hinitialized : later.videoInitialized = dev.videoInitialized) :
    Selecting params count settled later where
  sameParams := hparams.trans hdev.sameParams
  selected := by rw [htrace, hdev.selected]
  videoInitialized input hinput := by rw [hinitialized, hdev.videoInitialized input hinput]
  counted := hdev.counted
  captured := by rw [htrace]; exact hdev.captured

/-- Other calls do not matter. -/
theorem quiet {later : HauppaugeDev} (hdev : Selecting params count settled dev)
    (hparams : later.params = dev.params) (htrace : later.trace = dev.trace ++ events)
    (hinitialized : later.videoInitialized = dev.videoInitialized)
    (hquiet : ∀ event ∈ events, event.isSetup = false) :
    Selecting params count settled later where
  sameParams := hparams.trans hdev.sameParams
  selected := by
    rw [htrace, selections_append, selections_of_not_isSetup hquiet, List.append_nil,
      hdev.selected]
  videoInitialized input hinput := by rw [hinitialized, hdev.videoInitialized input hinput]
  counted := hdev.counted
  captured := by
    rw [htrace]
    refine captured_append hdev.captured fun reply hreply => ?_
    exact absurd (hquiet _ hreply) (by simp [DeviceEvent.isSetup])

theorem meets_call (hquiet : ∀ event ∈ events, event.isSetup = false) :
    Stage.Meets (Selecting params count settled) (call events)
      (fun _ => Selecting params count settled) E :=
  .update fun _ hdev => hdev.quiet rfl rfl rfl hquiet

theorem meets_giveUp {Value : Type} {Q : Value → HauppaugeDev → Prop} {message : String}
    (hfail : ∀ dev, Selecting params count settled dev → E dev) :
    Stage.Meets (Selecting params count settled) (giveUp message) Q E :=
  .update_fail fun _ hdev => hfail _ (hdev.of_eq rfl rfl rfl)

theorem meets_awaitSignal
    (hfail : ¬ hasSignal replies → ∀ dev, Selecting params count settled dev → E dev) :
    Stage.Meets (Selecting params count settled) (awaitSignal replies)
      (fun _ dev => Selecting params count settled dev ∧ hasSignal replies) E := by
  apply (meets_call (forall_mem_asked fun _ => rfl)).bind
  intro _
  refine .ite (fun hstops => ?_) fun hstops => .pure fun dev hdev => ⟨hdev, hstops⟩
  exact meets_giveUp (hfail fun hsignal => hsignal hstops)

theorem meets_awaitParams {event : Bool × VideoParams → DeviceEvent}
    {reply : ℕ → Bool × VideoParams} (hquiet : ∀ reply, (event reply).isSetup = false)
    (hfail : acceptedParams reply = none → ∀ dev, Selecting params count settled dev → E dev) :
    Stage.Meets (Selecting params count settled) (awaitParams event reply)
      (fun vp dev => Selecting params count settled dev ∧ acceptedParams reply = some vp) E := by
  apply (meets_call (forall_mem_asked fun _ => hquiet _)).bind
  intro _
  refine .ite (fun hstops => ?_) fun hstops => .pure fun dev hdev => ⟨hdev, if_neg hstops⟩
  exact meets_giveUp (hfail (if_pos hstops))

theorem meets_setInputFormat {source : EncoderSource} {vp : VideoParams}
    {aspectRatio audioSampleRate : ℚ}
    (hfail : replies.setInputFormat = false →
      ∀ dev, Selecting params count settled dev → E dev) :
    Stage.Meets (Selecting params count settled)
      (setInputFormat replies source vp aspectRatio audioSampleRate)
      (fun _ dev => Selecting params count settled dev ∧ replies.setInputFormat = true) E := by
  intro dev hdev
  have htrace : (formatSet replies source vp aspectRatio audioSampleRate dev).trace =
      dev.trace ++ (setAudioFormat dev.params replies (audioInFormat dev.params) ++
        overrideEvents dev.params vp.interlaced ++ flipEvents dev.params vp.interlaced ++
        [.setInputFormat (formatOf source vp aspectRatio audioSampleRate
          (prepareInput replies vp.interlaced dev)) replies.setInputFormat]) := by
    rw [← List.append_assoc, ← trace_prepareInput]
    rfl
  have hset : Selecting params count settled
      (formatSet replies source vp aspectRatio audioSampleRate dev) :=
    hdev.quiet params_prepareInput htrace videoInitialized_prepareInput
      isSetup_of_mem_formatEvents
  rw [setInputFormat_eq]
  cases hreply : replies.setInputFormat with
  | false => exact hfail hreply _ hset
  | true => exact ⟨hset, rfl⟩

/-- An input is selected unless it has been initialized. -/
theorem meets_selectInput {input : ℤ × ReceiverInput} (hinput : inputOf params = some input) :
    Stage.Meets (Selecting params count settled) (selectInput input.1 input.2)
      (fun _ dev => Selecting params (count + if settled then 0 else 1) settled dev ∧
        0 < count + if settled then 0 else 1) E := by
  apply Stage.Meets.update
  intro dev hdev
  have hinitialized := hdev.videoInitialized input hinput
  cases settled with
  | true =>
      rw [if_neg (not_not_intro (hinitialized.mpr rfl))]
      exact ⟨hdev, hdev.counted rfl⟩
  | false =>
      have hnew : dev.videoInitialized ≠ input.1 := fun hsame =>
        Bool.false_ne_true (hinitialized.mp hsame)
      rw [if_pos hnew]
      refine ⟨⟨hdev.sameParams, ?_, hdev.videoInitialized, fun _ => Nat.succ_pos _, ?_⟩,
        Nat.succ_pos _⟩
      · have hselected := hdev.selected
        simp only [hinput, Option.elim_some] at hselected ⊢
        rw [HauppaugeDev.emit_trace, selections_append, hselected]
        simp [selections, List.replicate_succ']
      · exact captured_append hdev.captured (by simp)

theorem meets_initialized {input : ℤ × ReceiverInput} (hinput : inputOf params = some input)
    (hcount : 0 < count) :
    Stage.Meets (Selecting params count settled) (initialized input.1)
      (fun _ => Selecting params count true) E :=
  .update fun dev hdev =>
    { sameParams := hdev.sameParams
      selected := hdev.selected
      videoInitialized := fun other hother => by
        rw [hinput, Option.some.injEq] at hother
        exact iff_of_true (congrArg Prod.fst hother) rfl
      counted := fun _ => hcount
      captured := hdev.captured }

end Selecting

end Stages

section Inputs

variable {params : Parameters} {count : ℕ} {settled : Bool} {replies : Replies}

/-- A part of initializing the input that succeeds only if all of it does. -/
def Decides (params : Parameters) (count : ℕ) (settled : Bool) (replies : Replies)
    (R : HauppaugeDev → Prop) (stage : Stage HauppaugeDev Unit) : Prop :=
  Stage.Meets (Selecting params count settled) stage
    (fun _ dev => R dev ∧ initializes params replies = true)
    (fun dev => Selecting params count settled dev ∧ initializes params replies = false)

/-- One attempt to initialize the input. -/
def Attempt (params : Parameters) (count : ℕ) (settled : Bool) (replies : Replies)
    (stage : Stage HauppaugeDev Unit) : Prop :=
  Stage.Meets (Selecting params count settled) stage
    (fun _ dev => Selecting params (count + if settled then 0 else 1) true dev ∧
      initializes params replies = true)
    (fun dev => Selecting params (count + if settled then 0 else 1) settled dev ∧
      initializes params replies = false)

/-- An input that is selected and waits for a signal. -/
theorem attempt_input {input : ℤ × ReceiverInput} {rest : Stage HauppaugeDev Unit}
    (hinput : inputOf params = some input)
    (hfails : ¬ hasSignal replies → initializes params replies = false)
    (hrest : ∀ count, 0 < count → hasSignal replies →
      Decides params count settled replies (Selecting params count true) rest) :
    Attempt params count settled replies
      (selectInput input.1 input.2 >>= fun _ => awaitSignal replies >>= fun _ => rest) := by
  refine (Selecting.meets_selectInput hinput).bind fun _ => .of_and fun hcount => ?_
  exact (Selecting.meets_awaitSignal fun hno dev hdev => ⟨hdev, hfails hno⟩).bind fun _ =>
    .of_and fun hsignal => hrest _ hcount hsignal

/-- Measuring a source, and setting its format. -/
theorem decides_measured {R : HauppaugeDev → Prop} {source : EncoderSource}
    {event : Bool × VideoParams → DeviceEvent} {reply : ℕ → Bool × VideoParams}
    {aspectRatio : VideoParams → ℚ} {audioSampleRate : ℚ}
    {rest : VideoParams → Stage HauppaugeDev Unit}
    (hquiet : ∀ reply, (event reply).isSetup = false)
    (hok : initializes params replies = setsFormat replies reply)
    (hrest : ∀ vp, Stage.Meets (Selecting params count settled) (rest vp) (fun _ => R)
      fun _ => False) :
    Decides params count settled replies R
      (awaitParams event reply >>= fun vp =>
        setInputFormat replies source vp (aspectRatio vp) audioSampleRate >>= fun _ =>
          rest vp) := by
  rw [Decides, hok]
  apply (Selecting.meets_awaitParams hquiet fun hnone dev hdev =>
    ⟨hdev, by simp [setsFormat, hnone]⟩).bind
  refine fun vp => .of_and fun hsome => ?_
  apply (Selecting.meets_setInputFormat fun hreply dev hdev =>
    ⟨hdev, by simp [setsFormat, hreply]⟩).bind
  refine fun _ => .of_and fun hreply => ?_
  exact (hrest vp).weaken (fun _ hdev => hdev)
    (fun _ _ hdev => ⟨hdev, by simp [setsFormat, hsome, hreply]⟩) fun _ hfalse => hfalse.elim

theorem attempt_initCvbs (hcvbs : params.videoInput = hapiVideoCaptureSourceCvbs) :
    Attempt params count settled replies (initCvbs replies) := by
  have hinput : inputOf params = some (hapiVideoCaptureSourceCvbs, .cvbs) := if_pos hcvbs
  refine attempt_input hinput (fun hno => by simp [initializes, hno]) fun count hcount hsignal => ?_
  refine decides_measured (fun _ => rfl) (by simp [initializes, hsignal, hcvbs]) fun vp => ?_
  refine (Selecting.meets_call ?_).bind fun _ => Selecting.meets_initialized hinput hcount
  simp [DeviceEvent.isSetup]

theorem attempt_initComponent
    (hcvbs : params.videoInput ≠ hapiVideoCaptureSourceCvbs)
    (hcomponent : params.videoInput = hapiVideoCaptureSourceComponent) :
    Attempt params count settled replies (initComponent replies) := by
  have hinput : inputOf params = some (hapiVideoCaptureSourceComponent, .comp) := by
    rw [inputOf, if_neg hcvbs, if_pos hcomponent]
  refine attempt_input hinput (fun hno => by simp [initializes, hno]) fun count hcount hsignal => ?_
  refine decides_measured (fun _ => rfl) (by simp [initializes, hsignal, hcomponent]) fun vp => ?_
  refine (Selecting.meets_call ?_).bind fun _ => (Selecting.meets_call ?_).bind fun _ =>
    Selecting.meets_initialized hinput hcount
  · simp [DeviceEvent.isSetup]
  · simp [DeviceEvent.isSetup]

theorem attempt_initHdmi (hcvbs : params.videoInput ≠ hapiVideoCaptureSourceCvbs)
    (hcomponent : params.videoInput ≠ hapiVideoCaptureSourceComponent)
    (hsdi : params.videoInput ≠ hapiVideoCaptureSourceSdi) :
    Attempt params count settled replies (initHdmi replies) := by
  have hinput : inputOf params = some (hapiVideoCaptureSourceHdmi, .hdmi) := by
    rw [inputOf, if_neg hcvbs, if_neg hcomponent, if_neg hsdi]
  refine attempt_input hinput (fun hno => by simp [initializes, hno]) fun count hcount hsignal => ?_
  have hok : initializes params replies =
      (decide (takesVic replies) || setsFormat replies replies.getHdmiParams) := by
    simp [initializes, hsignal, hcvbs, hcomponent, hsdi]
  have hmeasured (htakes : ¬ takesVic replies) :
      Decides params count settled replies (Selecting params count settled)
        (initMeasured replies) := by
    refine decides_measured (fun _ => rfl) (by simp [hok, htakes]) fun vp => Selecting.meets_call ?_
    simp [DeviceEvent.isSetup]
  have hvic (htakes : takesVic replies) :
      Decides params count settled replies (Selecting params count settled)
        (initVic replies.getHdmiFormat) := by
    have htrue : initializes params replies = true := by simp [hok, htakes]
    refine .ite (fun _ => .update fun dev hdev => ⟨hdev.quiet rfl rfl rfl ?_, htrue⟩)
      fun _ => .update fun dev hdev => ⟨hdev.quiet rfl rfl rfl ?_, htrue⟩
    · simp [DeviceEvent.isSetup]
    · simp [DeviceEvent.isSetup]
  have hformat : Decides params count settled replies (Selecting params count settled)
      (initHdmiFormat replies replies.getHdmiFormat) := by
    refine .ite (fun hnovic => hmeasured fun htakes => ?_) fun hsome => ?_
    · exact absurd htakes.1 (Int.not_lt.mpr hnovic)
    refine (Selecting.meets_call (by simp [DeviceEvent.isSetup])).bind fun _ => ?_
    refine .ite (fun htaken => hvic ⟨Int.not_le.mp hsome, htaken⟩) fun hrefused => ?_
    exact hmeasured fun htakes => hrefused htakes.2
  refine (Selecting.meets_call (by simp [DeviceEvent.isSetup])).bind fun _ =>
    (Selecting.meets_call (by simp [DeviceEvent.isSetup])).bind fun _ => hformat.bind fun _ =>
      .of_and fun htrue => ?_
  exact (Selecting.meets_initialized hinput hcount).weaken (fun _ hdev => hdev)
    (fun _ _ hdev => ⟨hdev, htrue⟩) fun _ hfailed => hfailed

theorem attempt_initInput (hinput : (inputOf params).isSome = true) :
    Attempt params count settled replies (initInput params replies) := by
  refine .ite attempt_initCvbs fun hcvbs => .ite (attempt_initComponent hcvbs) fun hcomponent => ?_
  refine .ite (fun hsdi => ?_) fun hsdi => attempt_initHdmi hcvbs hcomponent hsdi
  simp [inputOf, hsdi, hapiVideoCaptureSourceSdi, hapiVideoCaptureSourceCvbs,
    hapiVideoCaptureSourceComponent] at hinput

end Inputs

section Sessions

variable {params : Parameters} {count : ℕ} {settled : Bool} {dev : HauppaugeDev}
  {calls : List EncodingCall}

/-- A capture that is started after an attempt. -/
theorem Selecting.startCapture {reply : Bool} (hdev : Selecting params count true dev)
    (hinput : (inputOf params).isSome = true) :
    Selecting params count true (dev.emit [.startCapture reply]) where
  sameParams := hdev.sameParams
  selected := by
    rw [HauppaugeDev.emit_trace, selections_append, hdev.selected]
    simp [selections]
  videoInitialized := hdev.videoInitialized
  counted := hdev.counted
  captured := by
    rw [HauppaugeDev.emit_trace, forall_points_append_singleton]
    refine ⟨hdev.captured, fun _ => ?_⟩
    obtain ⟨input, hsome⟩ := Option.isSome_iff_exists.mp hinput
    have hcount := hdev.counted rfl
    rw [hdev.selected, hsome]
    simp only [Option.elim_some, ne_eq, List.replicate_eq_nil_iff]
    omega

/-- Where there is no input to select, nothing has been counted. -/
theorem Selecting.of_inputOf_eq_none {later : ℕ} (hdev : Selecting params count settled dev)
    (hnone : inputOf params = none) (hcount : count ≤ later) :
    Selecting params later settled dev where
  sameParams := hdev.sameParams
  selected := by
    have hselected := hdev.selected
    rwa [hnone] at hselected ⊢
  videoInitialized _ hsome := by simp [hnone] at hsome
  counted hsettled := Nat.lt_of_lt_of_le (hdev.counted hsettled) hcount
  captured := hdev.captured

/-- The input of a `StartEncoding` is initialized or not. -/
theorem meets_initInput_selecting {replies : Replies} :
    Stage.Meets (Selecting params count settled) (initInput params replies)
      (fun _ dev => Selecting params (count + if settled then 0 else 1) true dev ∧
        initializes params replies = true ∧ (inputOf params).isSome = true)
      (Selecting params (count + if settled then 0 else 1)
        (settled || initializes params replies)) := by
  cases hinput : inputOf params with
  | some input =>
      refine (attempt_initInput (by simp [hinput])).weaken (fun _ hdev => hdev) ?_ ?_
      · rintro _ dev ⟨hdev, htrue⟩
        exact ⟨hdev, htrue, rfl⟩
      · rintro dev ⟨hdev, hfalse⟩
        rwa [hfalse, Bool.or_false]
  | none =>
      have hsdi : params.videoInput = hapiVideoCaptureSourceSdi := by
        unfold inputOf at hinput
        split_ifs at hinput with _ _ hsdi
        exact hsdi
      have hinit : initInput params replies = initSdi := by
        simp [initInput, hsdi, hapiVideoCaptureSourceSdi, hapiVideoCaptureSourceCvbs,
          hapiVideoCaptureSourceComponent]
      have hfalse : initializes params replies = false := by
        simp [initializes, hsdi, hapiVideoCaptureSourceSdi, hapiVideoCaptureSourceCvbs,
          hapiVideoCaptureSourceComponent]
      rw [hinit, hfalse, Bool.or_false]
      exact Selecting.meets_giveUp fun dev hdev =>
        hdev.of_inputOf_eq_none hinput (Nat.le_add_right _ _)

theorem meets_startEncoding_selecting (replies : Replies) :
    Stage.Meets (Selecting params count settled) (startEncoding replies)
      (fun _ => Selecting params (count + if settled then 0 else 1)
        (settled || initializes params replies))
      (Selecting params (count + if settled then 0 else 1)
        (settled || initializes params replies)) := by
  have hread : Stage.Meets (Selecting params count settled) Stage.read
      (fun seen dev => Selecting params count settled dev ∧ seen.params = params)
      (Selecting params (count + if settled then 0 else 1)
        (settled || initializes params replies)) :=
    .read fun dev hdev => ⟨hdev, hdev.sameParams⟩
  refine hread.bind fun seen => .of_and fun hseen => ?_
  rw [hseen]
  refine meets_initInput_selecting.bind fun _ => .of_and fun hfacts => ?_
  rw [hfacts.1, Bool.or_true]
  have hcall : Stage.Meets (Selecting params (count + if settled then 0 else 1) true)
      (call [.startCapture replies.startCapture])
      (fun _ => Selecting params (count + if settled then 0 else 1) true)
      (Selecting params (count + if settled then 0 else 1) true) :=
    .update fun dev hdev => hdev.startCapture hfacts.2
  exact hcall.bind fun _ => .ite (fun _ => .pure fun _ hdev => hdev) fun _ =>
    Selecting.meets_giveUp fun _ hdev => hdev

theorem meets_stopEncoding_selecting (reply : Bool) :
    Stage.Meets (Selecting params count settled) (stopEncoding reply)
      (fun _ => Selecting params count settled) (Selecting params count settled) := by
  refine (Selecting.meets_call (by simp [DeviceEvent.isSetup])).bind fun _ => ?_
  exact .ite (fun _ => .pure fun _ hdev => hdev) fun _ =>
    Selecting.meets_giveUp fun _ hdev => hdev

/-- A call counts if the input has not been initialized before. -/
theorem selecting_step (call : EncodingCall) (hdev : Selecting params count settled dev) :
    Selecting params (count + if settled then 0 else attempts params [call])
      (settled || call.initializes params) (encodingStep dev call) := by
  cases call with
  | startEncoding replies =>
      have hafter := (meets_startEncoding_selecting replies).leaves hdev
      have hone : attempts params [.startEncoding replies] = 1 := by simp [attempts]
      rwa [hone]
  | stopEncoding reply =>
      have hafter := (meets_stopEncoding_selecting reply).leaves hdev
      have hnone : attempts params [.stopEncoding reply] = 0 := rfl
      rw [hnone, ite_self, Nat.add_zero, EncodingCall.initializes, Bool.or_false]
      exact hafter

theorem attempts_cons (call : EncodingCall) (rest : List EncodingCall) :
    attempts params (call :: rest) = attempts params [call] +
      if call.initializes params then 0 else attempts params rest := by
  cases call with
  | startEncoding replies =>
      cases hok : initializes params replies <;> simp [attempts, EncodingCall.initializes, hok]
  | stopEncoding reply => simp [attempts, EncodingCall.initializes]

/-- So does each of a sequence of calls. -/
theorem selecting_foldl (calls : List EncodingCall) (hdev : Selecting params count settled dev) :
    Selecting params (count + if settled then 0 else attempts params calls)
      (settled || calls.any (EncodingCall.initializes params))
      (calls.foldl encodingStep dev) := by
  induction calls generalizing count settled dev with
  | nil => simpa [attempts] using hdev
  | cons call rest ih =>
      have hrest := ih (selecting_step call hdev)
      rw [List.foldl_cons, List.any_cons, ← Bool.or_assoc]
      have hcount : (count + if settled then 0 else attempts params [call]) +
          (if settled || call.initializes params then 0 else attempts params rest) =
            count + if settled then 0 else attempts params (call :: rest) := by
        rw [attempts_cons call rest]
        cases settled <;> cases call.initializes params <;> simp [Nat.add_assoc]
      rwa [hcount] at hrest

theorem selecting_new : Selecting params 0 false (.new params Wrappers.Registry.empty) where
  sameParams := rfl
  selected := by cases inputOf params <;> rfl
  videoInitialized input hinput := by
    have hunknown : input.1 ≠ -1 := by
      unfold inputOf at hinput
      split_ifs at hinput <;> cases hinput <;> decide
    exact iff_of_false (fun hsame => hunknown hsame.symm) Bool.false_ne_true
  counted htrue := by cases htrue
  captured prior event hbegins := by simp [HauppaugeDev.new] at hbegins

/-- The input is selected for each attempt to initialize it, until one succeeds, and every
capture is one of the configured input. -/
theorem selectsInput (params : Parameters) (calls : List EncodingCall) :
    SelectsInput params calls := by
  have hrun : Selecting params (attempts params calls)
      (calls.any (EncodingCall.initializes params)) (encodingRun params calls) := by
    simpa [encodingRun] using selecting_foldl calls selecting_new
  refine ⟨hrun.selected, fun prior reply hbegins => ?_⟩
  have hsome := hrun.captured prior _ hbegins ⟨reply, rfl⟩
  obtain ⟨rest, hrest⟩ := hbegins
  have hsplit : selections prior ++ selections (.startCapture reply :: rest) =
      (inputOf params).elim [] fun input => List.replicate (attempts params calls) input.2 := by
    rw [← hrun.selected, ← hrest, List.append_assoc, selections_append]
    rfl
  cases hinput : inputOf params with
  | none =>
      rw [hinput, Option.elim_none] at hsplit
      exact absurd (List.append_eq_nil_iff.mp hsplit).1 hsome
  | some input =>
      refine ⟨input, rfl, ?_⟩
      rw [hinput, Option.elim_some, List.append_eq_replicate_iff] at hsplit
      rw [hsplit.2.1, List.getLast?_replicate, if_neg]
      rwa [hsplit.2.1, ne_eq, List.replicate_eq_nil_iff] at hsome

end Sessions

end HauppaugeUSB.Device

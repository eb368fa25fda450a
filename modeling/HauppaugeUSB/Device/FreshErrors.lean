/-
# What a failing call reports

`ErrorString` returns the text of a member that a call assigns where it fails and that is
never cleared. A call that fails without assigning it therefore reports nothing, or what an
earlier call has left behind. There is one such place: `set_input_format` only logs that the
encoder has not taken a format. Whatever was called, the text is one of a few.
-/

import HauppaugeUSB.Device.Gate
import HauppaugeUSB.Device.Opening

namespace HauppaugeUSB.Device

open HauppaugeUSB.Control HauppaugeUSB.Streams HauppaugeUSB.Wrappers

/-- A call to a device object, with the replies of the device. -/
inductive DeviceCall
  | openDevice (settings : OpenSettings) (replies : OpenReplies)
  | startEncoding (replies : Replies)
  | stopEncoding (reply : Bool)

/-- `StartEncoding` uses the receiver and the encoder, unless it gives up at once. -/
def OpenableDev.canStart (dev : OpenableDev) : Bool :=
  dev.dev.params.videoInput = hapiVideoCaptureSourceSdi || dev.rxDev && dev.encDev

/-- A call on a device object, where it does not use a null pointer: what it returns, and the
device after it. -/
def deviceStep (dev : OpenableDev) : DeviceCall → Option (Bool × OpenableDev)
  | .openDevice settings replies =>
      some ((openDevice settings replies).returnsTrue dev, (openDevice settings replies dev).2)
  | .startEncoding replies =>
      if dev.canStart then
        some ((startEncoding replies).returnsTrue dev.dev,
          { dev with dev := (startEncoding replies dev.dev).2 })
      else none
  | .stopEncoding reply =>
      if dev.encDev then
        some ((stopEncoding reply).returnsTrue dev.dev,
          { dev with dev := (stopEncoding reply dev.dev).2 })
      else none

/-- The device after a sequence of calls. -/
def deviceRun : OpenableDev → List DeviceCall → Option OpenableDev
  | dev, [] => some dev
  | dev, call :: rest => (deviceStep dev call).bind fun returned => deviceRun returned.2 rest

/-- The text for a step of a recording that has failed. Of a format that has not been taken it
is the one that is logged. -/
def DeviceEvent.failureText : DeviceEvent → Option String
  | .hasInputSignal _ => some "No input signal."
  | .getOutputParams _ | .getHdmiParams _ => some "Cannot determine video mode."
  | .setInputFormat .. => some "Cannot set video mode"
  | .startCapture _ => some "Encoder start capture failed."
  | .stopCapture _ => some "Encoder stop capture failed."
  | _ => none

/-- A text is that of the last call that has been made. An input that is not supported is not
called. -/
def NamesFailure (calls : List DeviceEvent) (text : String) : Prop :=
  match calls.getLast? with
  | none => text = "SDI not supported."
  | some event => event.failureText = some text

/-- The same for the calls of `Open`. -/
def NamesOpenFailure (calls : List OpenEvent) (text : String) : Prop :=
  match calls.getLast? with
  | some (.encoderInit _) => text = "Encoder init failed."
  | some (.openFile name _) => ∃ message, text = "Failed to open '" ++ name ++ "' :" ++ message
  | _ => False

/-- The device with another text left behind by earlier calls. -/
def OpenableDev.withErrmsg (dev : OpenableDev) (errmsg : String) : OpenableDev :=
  { dev with dev := { dev.dev with errmsg := errmsg } }

/-- If a call fails, it reports the step that has failed, and that does not depend on what
earlier calls have left behind. -/
structure FreshFailure (dev : OpenableDev) (call : DeviceCall) : Prop where
  nonempty : ∀ later, deviceStep dev call = some (false, later) → later.dev.errmsg ≠ ""
  named : ∀ later, deviceStep dev call = some (false, later) →
    match call with
    | .openDevice .. =>
        Extends OpenableDev.opening dev (NamesOpenFailure · later.dev.errmsg) later
    | _ => dev.dev.Called (NamesFailure · later.dev.errmsg) later.dev
  assigned : ∀ later, deviceStep dev call = some (false, later) →
    ∀ stale other, deviceStep (dev.withErrmsg stale) call = some (false, other) →
      other.dev.errmsg = later.dev.errmsg

/-- So it is with every call of a sequence. -/
def FreshFailures (params : Parameters) (registry : Registry) (calls : List DeviceCall) : Prop :=
  ∀ prior call, prior ++ [call] <+: calls →
    ∀ dev, deviceRun (.new params registry) prior = some dev → FreshFailure dev call

/-- Every format that is set in a sequence of calls is taken. -/
def FormatsTaken (params : Parameters) (registry : Registry) (calls : List DeviceCall) : Prop :=
  ∀ prior replies, prior ++ [.startEncoding replies] <+: calls →
    ∀ dev, deviceRun (.new params registry) prior = some dev → dev.canStart = true →
      (measuredSource params replies).isSome = true → replies.setInputFormat = true

/-- The text of a `StartEncoding` that fails, if it assigns one. -/
def startFailure (params : Parameters) (replies : Replies) : Option String :=
  if params.videoInput = hapiVideoCaptureSourceSdi then some "SDI not supported."
  else if ¬ hasSignal replies then some "No input signal."
  else if params.isHdmi ∧ takesVic replies then some "Encoder start capture failed."
  else if measuredSource params replies = none then some "Cannot determine video mode."
  else if replies.setInputFormat then some "Encoder start capture failed."
  else none

/-- A failure with a text, or one that leaves the text as it was. -/
def Failed (before : HauppaugeDev) (text : Option String) (dev : HauppaugeDev) : Prop :=
  match text with
  | none => dev.errmsg = before.errmsg
  | some text => dev.errmsg = text ∧ before.Called (NamesFailure · text) dev

/-- Nothing has been reported so far. -/
def Unreported (before : HauppaugeDev) (R : List DeviceEvent → Prop) (dev : HauppaugeDev) : Prop :=
  dev.errmsg = before.errmsg ∧ before.Called R dev

section Stages

variable {before dev : HauppaugeDev} {params : Parameters} {replies : Replies}
  {events : List DeviceEvent} {R R' : List DeviceEvent → Prop} {E : HauppaugeDev → Prop}

theorem namesFailure_append_singleton {calls : List DeviceEvent} {event : DeviceEvent}
    {text : String} :
    NamesFailure (calls ++ [event]) text ↔ event.failureText = some text := by
  simp [NamesFailure]

theorem meets_call_unreported (hevents : ∀ calls, R calls → R' (calls ++ events)) :
    Stage.Meets (Unreported before R) (call events) (fun _ => Unreported before R') E :=
  .update fun _ hdev => ⟨hdev.1, hdev.2.of_trace rfl hevents⟩

theorem meets_any :
    Stage.Meets (Unreported before R) (call events)
      (fun _ => Unreported before fun _ => True) E :=
  meets_call_unreported fun _ _ => trivial

theorem meets_giveUp_failed {Value : Type} {Q : Value → HauppaugeDev → Prop} {message : String}
    (hR : ∀ calls, R calls → NamesFailure calls message)
    (hfail : ∀ dev, Failed before (some message) dev → E dev) :
    Stage.Meets (Unreported before R) (giveUp message) Q E :=
  .update_fail fun _ hdev => hfail _ ⟨rfl, hdev.2.imp hR⟩

theorem meets_selectInput_unreported {source : ℤ} {input : ReceiverInput} :
    Stage.Meets (Unreported before fun _ => True) (selectInput source input)
      (fun _ => Unreported before fun _ => True) E := by
  apply Stage.Meets.update
  intro dev hdev
  split
  · exact ⟨hdev.1, hdev.2.of_trace rfl fun _ _ => trivial⟩
  · exact hdev

/-- A loop that has asked in vain has asked last what names its failure. -/
theorem meets_asked_unreported {event : ℕ → DeviceEvent} {accepts : ℕ → Bool} {text : String}
    (hevent : ∀ idx, (event idx).failureText = some text) :
    Stage.Meets (Unreported before R) (call (asked event accepts maxRetry))
      (fun _ => Unreported before (NamesFailure · text)) E := by
  refine meets_call_unreported fun calls _ => ?_
  have hlimit : 0 < maxRetry := by decide
  obtain ⟨earlier, idx, hasked⟩ := exists_asked_eq event accepts hlimit
  rw [hasked, ← List.append_assoc]
  exact namesFailure_append_singleton.mpr (hevent idx)

theorem meets_awaitSignal_failed
    (hfail : ¬ hasSignal replies → ∀ dev, Failed before (some "No input signal.") dev → E dev) :
    Stage.Meets (Unreported before R) (awaitSignal replies)
      (fun _ dev => Unreported before (fun _ => True) dev ∧ hasSignal replies) E := by
  refine (meets_asked_unreported fun _ => rfl).bind fun _ => .ite (fun hstops => ?_)
    fun hstops => .pure fun dev hdev => ?_
  · exact meets_giveUp_failed (fun _ hnames => hnames) (hfail fun hsignal => hsignal hstops)
  · exact ⟨⟨hdev.1, hdev.2.imp fun _ _ => trivial⟩, hstops⟩

theorem meets_awaitParams_failed {event : Bool × VideoParams → DeviceEvent}
    {reply : ℕ → Bool × VideoParams}
    (hevent : ∀ reply, (event reply).failureText = some "Cannot determine video mode.")
    (hfail : acceptedParams reply = none →
      ∀ dev, Failed before (some "Cannot determine video mode.") dev → E dev) :
    Stage.Meets (Unreported before R) (awaitParams event reply)
      (fun vp dev => Unreported before (fun _ => True) dev ∧ acceptedParams reply = some vp) E := by
  refine (meets_asked_unreported fun _ => hevent _).bind fun _ => .ite (fun hstops => ?_)
    fun hstops => .pure fun dev hdev => ?_
  · exact meets_giveUp_failed (fun _ hnames => hnames) (hfail (if_pos hstops))
  · exact ⟨⟨hdev.1, hdev.2.imp fun _ _ => trivial⟩, if_neg hstops⟩

theorem errmsg_prepareInput {interlaced : Bool} :
    (prepareInput replies interlaced dev).errmsg = dev.errmsg := by
  have hoverride (routed : HauppaugeDev) :
      (overrideCodingMode interlaced routed).errmsg = routed.errmsg := by
    unfold overrideCodingMode
    split_ifs <;> rfl
  unfold prepareInput
  dsimp only
  split <;> exact hoverride _

/-- A format that is not taken is not reported. -/
theorem meets_setInputFormat_failed {source : EncoderSource} {vp : VideoParams}
    {aspectRatio audioSampleRate : ℚ}
    (hfail : replies.setInputFormat = false → ∀ dev, Failed before none dev → E dev) :
    Stage.Meets (Unreported before R)
      (setInputFormat replies source vp aspectRatio audioSampleRate)
      (fun _ dev => Unreported before (fun _ => True) dev ∧ replies.setInputFormat = true) E := by
  intro dev hdev
  have herrmsg : (formatSet replies source vp aspectRatio audioSampleRate dev).errmsg =
      before.errmsg := errmsg_prepareInput.trans hdev.1
  rw [setInputFormat_eq]
  cases hreply : replies.setInputFormat with
  | false => exact hfail hreply _ herrmsg
  | true =>
      have hprepared : before.Called (fun _ => True) (prepareInput replies vp.interlaced dev) :=
        hdev.2.of_trace trace_prepareInput fun _ _ => trivial
      exact ⟨⟨herrmsg, hprepared.of_trace rfl fun _ _ => trivial⟩, rfl⟩

/-- The measured path of an input, with what follows it. -/
theorem meets_measured_failed {event : Bool × VideoParams → DeviceEvent}
    {reply : ℕ → Bool × VideoParams} {source : EncoderSource} {aspectRatio : VideoParams → ℚ}
    {audioSampleRate : ℚ} {rest : VideoParams → Stage HauppaugeDev Unit} {text : Option String}
    (hevent : ∀ reply, (event reply).failureText = some "Cannot determine video mode.")
    (htext : text =
      if acceptedParams reply = none then some "Cannot determine video mode."
      else if replies.setInputFormat then some "Encoder start capture failed."
      else none)
    (hrest : ∀ vp, Stage.Meets (Unreported before fun _ => True) (rest vp)
      (fun _ => Unreported before fun _ => True) (Failed before text)) :
    Stage.Meets (Unreported before fun _ => True)
      (awaitParams event reply >>= fun vp =>
        setInputFormat replies source vp (aspectRatio vp) audioSampleRate >>= fun _ => rest vp)
      (fun _ dev => Unreported before (fun _ => True) dev ∧
        text = some "Encoder start capture failed.") (Failed before text) := by
  refine (meets_awaitParams_failed hevent fun hnone dev hdev => ?_).bind fun vp =>
    .of_and fun hsome => (meets_setInputFormat_failed fun hreply dev hdev => ?_).bind fun _ =>
      .of_and fun hreply => ?_
  · rwa [htext, if_pos hnone]
  · have hne : ¬ acceptedParams reply = none := by simp [hsome]
    rwa [htext, if_neg hne, if_neg (by simp [hreply])]
  · have hne : ¬ acceptedParams reply = none := by simp [hsome]
    have hfinal : text = some "Encoder start capture failed." := by
      rw [htext, if_neg hne, if_pos hreply]
    exact (hrest vp).weaken (fun _ hdev => hdev) (fun _ _ hdev => ⟨hdev, hfinal⟩) fun _ hdev => hdev

theorem meets_initialized_unreported {source : ℤ} :
    Stage.Meets (Unreported before R) (initialized source) (fun _ => Unreported before R) E :=
  .update fun _ hdev => hdev

theorem startFailure_of_measured {reply : ℕ → Bool × VideoParams}
    (hsdi : params.videoInput ≠ hapiVideoCaptureSourceSdi) (hsignal : hasSignal replies)
    (hvic : ¬ (params.isHdmi ∧ takesVic replies))
    (hmeasured : measuredSource params replies = acceptedParams reply) :
    startFailure params replies =
      if acceptedParams reply = none then some "Cannot determine video mode."
      else if replies.setInputFormat then some "Encoder start capture failed."
      else none := by
  rw [startFailure, if_neg hsdi, if_neg (not_not_intro hsignal), if_neg hvic, hmeasured]

/-- An input is selected, and waits for its signal. -/
theorem meets_signalled_failed {source : ℤ} {input : ReceiverInput}
    {rest : Stage HauppaugeDev Unit} {Q : Unit → HauppaugeDev → Prop}
    (hsdi : params.videoInput ≠ hapiVideoCaptureSourceSdi)
    (hrest : hasSignal replies → Stage.Meets (Unreported before fun _ => True) rest Q
      (Failed before (startFailure params replies))) :
    Stage.Meets (Unreported before fun _ => True)
      (selectInput source input >>= fun _ => awaitSignal replies >>= fun _ => rest) Q
      (Failed before (startFailure params replies)) := by
  refine meets_selectInput_unreported.bind fun _ =>
    (meets_awaitSignal_failed fun hno dev hdev => ?_).bind fun _ => .of_and hrest
  rwa [startFailure, if_neg hsdi, if_pos hno]

theorem meets_initHdmiFormat_failed (hhdmi : params.isHdmi) (hsignal : hasSignal replies) :
    Stage.Meets (Unreported before fun _ => True) (initHdmiFormat replies replies.getHdmiFormat)
      (fun _ dev => Unreported before (fun _ => True) dev ∧
        startFailure params replies = some "Encoder start capture failed.")
      (Failed before (startFailure params replies)) := by
  obtain ⟨hcvbs, hcomponent, hsdi⟩ : params.videoInput ≠ hapiVideoCaptureSourceCvbs ∧
      params.videoInput ≠ hapiVideoCaptureSourceComponent ∧
      params.videoInput ≠ hapiVideoCaptureSourceSdi := by
    simpa [Parameters.isHdmi] using hhdmi
  have hmeasured (htakes : ¬ takesVic replies) :
      Stage.Meets (Unreported before fun _ => True) (initMeasured replies)
        (fun _ dev => Unreported before (fun _ => True) dev ∧
          startFailure params replies = some "Encoder start capture failed.")
        (Failed before (startFailure params replies)) := by
    refine meets_measured_failed (fun _ => rfl)
      (startFailure_of_measured hsdi hsignal (fun hboth => htakes hboth.2) ?_) fun _ => meets_any
    simp [measuredSource, hcvbs, hcomponent, hsdi, hsignal, htakes]
  refine .ite (fun hvic => hmeasured fun htakes => absurd htakes.1 (Int.not_lt.mpr hvic))
    fun hvic => meets_any.bind fun _ => .ite (fun htaken => ?_) fun htaken =>
      hmeasured fun htakes => htaken htakes.2
  -- the encoder has taken the VIC
  have htakes : takesVic replies := ⟨Int.not_le.mp hvic, htaken⟩
  have hfinal : startFailure params replies = some "Encoder start capture failed." := by
    rw [startFailure, if_neg hsdi, if_neg (not_not_intro hsignal), if_pos ⟨hhdmi, htakes⟩]
  have hinit : Stage.Meets (Unreported before fun _ => True) (initVic replies.getHdmiFormat)
      (fun _ => Unreported before fun _ => True)
      (Failed before (startFailure params replies)) :=
    .ite (fun _ => meets_any) fun _ => meets_any
  exact hinit.weaken (fun _ hdev => hdev) (fun _ _ hdev => ⟨hdev, hfinal⟩) fun _ hdev => hdev

/-- An input is initialized, and what fails then can only be the capture, or it fails with its
text. -/
theorem meets_initInput_failed :
    Stage.Meets (· = before) (initInput params replies)
      (fun _ dev => Unreported before (fun _ => True) dev ∧
        startFailure params replies = some "Encoder start capture failed.")
      (Failed before (startFailure params replies)) := by
  have hstart (R : List DeviceEvent → Prop) (hR : R []) (dev : HauppaugeDev) (heq : dev = before) :
      Unreported before R dev := heq ▸ ⟨rfl, .refl hR⟩
  have hbegin (stage : Stage HauppaugeDev Unit)
      (hstage : Stage.Meets (Unreported before fun _ => True) stage
        (fun _ dev => Unreported before (fun _ => True) dev ∧
          startFailure params replies = some "Encoder start capture failed.")
        (Failed before (startFailure params replies))) :
      Stage.Meets (· = before) stage
        (fun _ dev => Unreported before (fun _ => True) dev ∧
          startFailure params replies = some "Encoder start capture failed.")
        (Failed before (startFailure params replies)) :=
    hstage.weaken (hstart _ trivial) (fun _ _ hdev => hdev) fun _ hdev => hdev
  have hcodes : hapiVideoCaptureSourceCvbs ≠ hapiVideoCaptureSourceSdi ∧
      hapiVideoCaptureSourceComponent ≠ hapiVideoCaptureSourceSdi := by decide
  refine .ite (fun hcvbs => hbegin _ ?_) fun hcvbs => .ite (fun hcomponent => hbegin _ ?_)
    fun hcomponent => .ite (fun hsdi => ?_) fun hsdi => hbegin _ ?_
  · have hsdi : params.videoInput ≠ hapiVideoCaptureSourceSdi := hcvbs ▸ hcodes.1
    refine meets_signalled_failed hsdi fun hsignal => meets_measured_failed (fun _ => rfl)
      (startFailure_of_measured hsdi hsignal ?_ ?_) fun _ => meets_any.bind fun _ =>
        meets_initialized_unreported
    · exact fun hboth => hboth.1 (by simp [hcvbs])
    · simp [measuredSource, hcvbs, hsignal]
  · have hsdi : params.videoInput ≠ hapiVideoCaptureSourceSdi := hcomponent ▸ hcodes.2
    refine meets_signalled_failed hsdi fun hsignal => meets_measured_failed (fun _ => rfl)
      (startFailure_of_measured hsdi hsignal ?_ ?_) fun _ => meets_any.bind fun _ =>
        meets_any.bind fun _ => meets_initialized_unreported
    · exact fun hboth => hboth.1 (by simp [hcomponent])
    · simp [measuredSource, hcomponent, hsignal]
  · rw [startFailure, if_pos hsdi]
    have hgiveUp : Stage.Meets (Unreported before (· = [])) (initSdi)
        (fun _ dev => Unreported before (fun _ => True) dev ∧
          some "SDI not supported." = some "Encoder start capture failed.")
        (Failed before (some "SDI not supported.")) :=
      meets_giveUp_failed (fun calls hnone => by simp [hnone, NamesFailure]) fun _ hdev => hdev
    exact hgiveUp.weaken (hstart _ rfl) (fun _ _ hdev => hdev) fun _ hdev => hdev
  · have hhdmi : params.isHdmi := by simp [Parameters.isHdmi, hcvbs, hcomponent, hsdi]
    refine meets_signalled_failed hsdi fun hsignal => meets_any.bind fun _ =>
      meets_any.bind fun _ => (meets_initHdmiFormat_failed hhdmi hsignal).bind fun _ =>
        .update fun dev hdev => hdev

/-- What `StartEncoding` reports where it fails. -/
theorem meets_startEncoding_failed (before : HauppaugeDev) (replies : Replies) :
    Stage.Meets (· = before) (startEncoding replies)
      (fun _ _ => startFailure before.params replies = some "Encoder start capture failed.")
      (Failed before (startFailure before.params replies)) := by
  have hread : Stage.Meets (· = before) Stage.read
      (fun seen dev => dev = before ∧ seen.params = before.params)
      (Failed before (startFailure before.params replies)) := .read fun _ heq => ⟨heq, heq ▸ rfl⟩
  refine hread.bind fun seen => .of_and fun hseen => ?_
  rw [hseen]
  refine meets_initInput_failed.bind fun _ => .of_and fun hfinal => ?_
  rw [hfinal]
  have hstart : Stage.Meets (Unreported before fun _ => True)
      (call [.startCapture replies.startCapture])
      (fun _ => Unreported before (NamesFailure · "Encoder start capture failed."))
      (Failed before (some "Encoder start capture failed.")) :=
    meets_call_unreported fun calls _ => namesFailure_append_singleton.mpr rfl
  refine hstart.bind fun _ => .ite (fun _ => .pure fun _ _ => rfl) fun _ => ?_
  exact meets_giveUp_failed (fun _ hnames => hnames) fun _ hdev => hdev

end Stages

section Opening

variable {before : OpenableDev} {settings : OpenSettings} {replies : OpenReplies}
  {R R' : List OpenEvent → Prop} {E : OpenableDev → Prop}

/-- The text of an `Open` that fails. -/
def openFailure (settings : OpenSettings) (replies : OpenReplies) : String :=
  if replies.encoderInit = false then "Encoder init failed."
  else
    match replies.openFile with
    | .ok _ => ""
    | .error message => "Failed to open '" ++ settings.output ++ "' :" ++ message

/-- An `Open` has failed with a text. -/
def OpenFailed (before : OpenableDev) (text : String) (dev : OpenableDev) : Prop :=
  dev.dev.errmsg = text ∧ text ≠ "" ∧
    Extends OpenableDev.opening before (NamesOpenFailure · text) dev

theorem meets_perform_any {events : List OpenEvent} :
    Stage.Meets (Extends OpenableDev.opening before R) (perform events)
      (fun _ => Extends OpenableDev.opening before fun _ => True) E :=
  meets_perform fun _ _ => trivial

theorem meets_failWith_failed {message : String} {Q : Unit → OpenableDev → Prop}
    (hmessage : message ≠ "") (hR : ∀ calls, R calls → NamesOpenFailure calls message)
    (hfail : ∀ dev, OpenFailed before message dev → E dev) :
    Stage.Meets (Extends OpenableDev.opening before R) (failWith message) Q E :=
  .update_fail fun _ hdev => hfail _ ⟨rfl, hmessage, hdev.imp hR⟩

theorem meets_openEncoder_failed :
    Stage.Meets (Extends OpenableDev.opening before fun _ => True) (openEncoder replies)
      (fun _ dev => Extends OpenableDev.opening before (fun _ => True) dev ∧
        replies.encoderInit = true)
      (OpenFailed before (openFailure settings replies)) := by
  have hnew : Stage.Meets (Extends OpenableDev.opening before fun _ => True)
      (.update fun dev => { dev.emit [.newEncoder] with encDev := true })
      (fun _ => Extends OpenableDev.opening before fun _ => True)
      (OpenFailed before (openFailure settings replies)) :=
    Extends.meets_update (fun _ => rfl) fun _ _ => trivial
  have hinit : Stage.Meets (Extends OpenableDev.opening before fun _ => True)
      (perform [.encoderInit replies.encoderInit])
      (fun _ => Extends OpenableDev.opening before (NamesOpenFailure · "Encoder init failed."))
      (OpenFailed before (openFailure settings replies)) :=
    meets_perform fun calls _ => by simp [NamesOpenFailure]
  refine hnew.bind fun _ => hinit.bind fun _ => .ite (fun hreply => .pure fun dev hdev => ?_)
    fun hreply => meets_failWith_failed (by decide) (fun _ hnames => hnames) fun dev hdev => ?_
  · exact ⟨hdev.imp fun _ _ => trivial, hreply⟩
  · rwa [openFailure, if_pos (by simpa using hreply)]

theorem meets_openReceiver_any :
    Stage.Meets (Extends OpenableDev.opening before R) (openReceiver settings)
      (fun _ => Extends OpenableDev.opening before fun _ => True) E := by
  have hnew : Stage.Meets (Extends OpenableDev.opening before R)
      (.update fun dev => { dev.emit [.newReceiver] with rxDev := true })
      (fun _ => Extends OpenableDev.opening before fun _ => True) E :=
    Extends.meets_update (fun _ => rfl) fun _ _ => trivial
  exact hnew.bind fun _ => meets_perform_any.bind fun _ => meets_perform_any

theorem meets_openFile_failed (hencoder : replies.encoderInit = true) :
    Stage.Meets (Extends OpenableDev.opening before fun _ => True)
      (openFile settings.output replies)
      (fun _ => Extends OpenableDev.opening before fun _ => True)
      (OpenFailed before (openFailure settings replies)) := by
  refine .ite (fun _ => .update fun _ hdev => hdev) fun _ => ?_
  cases hfile : replies.openFile with
  | ok fd => exact Extends.meets_update (fun _ => rfl) fun _ _ => trivial
  | error message =>
      have htried : Stage.Meets (Extends OpenableDev.opening before fun _ => True)
          (.update fun dev => { dev.emit [.openFile settings.output none] with fd := none })
          (fun _ => Extends OpenableDev.opening before (NamesOpenFailure ·
            ("Failed to open '" ++ settings.output ++ "' :" ++ message)))
          (OpenFailed before (openFailure settings replies)) :=
        Extends.meets_update (fun _ => rfl) fun calls _ => by simp [NamesOpenFailure]
      refine htried.bind fun _ =>
        meets_failWith_failed (by simp) (fun _ hnames => hnames) fun dev hdev => ?_
      simpa [openFailure, hencoder, hfile] using hdev

theorem meets_openOutput_failed (hencoder : replies.encoderInit = true) :
    Stage.Meets (Extends OpenableDev.opening before fun _ => True) (openOutput settings replies)
      (fun _ => Extends OpenableDev.opening before fun _ => True)
      (OpenFailed before (openFailure settings replies)) :=
  .ite (fun _ => .pure fun _ hdev => hdev) fun _ => (meets_openFile_failed hencoder).bind fun _ =>
    .update fun _ hdev => hdev.append rfl fun _ _ => trivial

theorem meets_openDevice_failed (settings : OpenSettings) (replies : OpenReplies)
    (before : OpenableDev) :
    Stage.Meets (· = before) (openDevice settings replies) (fun _ _ => True)
      (OpenFailed before (openFailure settings replies)) := by
  have hfx2 : Stage.Meets (· = before) (openFx2 settings replies)
      (fun _ => Extends OpenableDev.opening before fun _ => True)
      (OpenFailed before (openFailure settings replies)) :=
    meets_openFx2.weaken (fun _ heq => heq) (fun _ _ hdev => hdev.imp fun _ _ => trivial)
      fun _ hdev => hdev
  refine hfx2.bind fun _ => meets_openEncoder_failed.bind fun _ => .of_and fun hencoder =>
    meets_openReceiver_any.bind fun _ => (meets_openOutput_failed hencoder).bind fun _ =>
      .update fun _ _ => trivial

end Opening

section Calls

variable {dev : OpenableDev} {params : Parameters}

/-- A call that fails with the same text whatever earlier calls have left behind, if the text
is that of the step that has failed. -/
theorem FreshFailure.of_text {call : DeviceCall} {text : String}
    (hfailed : ∀ stale later, deviceStep (dev.withErrmsg stale) call = some (false, later) →
      later.dev.errmsg = text ∧ text ≠ "")
    (hnamed : ∀ later, deviceStep dev call = some (false, later) →
      match call with
      | .openDevice .. => Extends OpenableDev.opening dev (NamesOpenFailure · text) later
      | _ => dev.dev.Called (NamesFailure · text) later.dev) :
    FreshFailure dev call := by
  have hhere (later : OpenableDev) (hstep : deviceStep dev call = some (false, later)) :
      later.dev.errmsg = text ∧ text ≠ "" := hfailed dev.dev.errmsg later hstep
  refine ⟨fun later hstep => ?_, fun later hstep => ?_, fun later hstep stale other hother => ?_⟩
  · rw [(hhere later hstep).1]
    exact (hhere later hstep).2
  · rw [(hhere later hstep).1]
    cases call with
    | openDevice settings replies => exact hnamed later hstep
    | startEncoding replies => exact hnamed later hstep
    | stopEncoding reply => exact hnamed later hstep
  · rw [(hhere later hstep).1, (hfailed stale other hother).1]

theorem freshFailure_openDevice (settings : OpenSettings) (replies : OpenReplies) :
    FreshFailure dev (.openDevice settings replies) := by
  have hfailed (state later : OpenableDev)
      (hstep : deviceStep state (.openDevice settings replies) = some (false, later)) :
      OpenFailed state (openFailure settings replies) later := by
    obtain ⟨hfalse, rfl⟩ := Prod.mk.inj (Option.some.inj hstep)
    exact (meets_openDevice_failed settings replies state).failed rfl hfalse
  refine .of_text (fun stale later hstep => ?_) fun later hstep => (hfailed dev later hstep).2.2
  exact ⟨(hfailed _ later hstep).1, (hfailed _ later hstep).2.1⟩

theorem freshFailure_stopEncoding (reply : Bool) : FreshFailure dev (.stopEncoding reply) := by
  have hfailed (state later : OpenableDev)
      (hstep : deviceStep state (.stopEncoding reply) = some (false, later)) :
      later.dev.errmsg = "Encoder stop capture failed." ∧
        later.dev.trace = state.dev.trace ++ [.stopCapture reply] := by
    simp only [deviceStep, Option.ite_none_right_eq_some, Option.some.injEq, Prod.mk.injEq] at hstep
    obtain ⟨-, hfalse, rfl⟩ := hstep
    cases reply with
    | false => exact ⟨rfl, rfl⟩
    | true => cases hfalse
  refine .of_text (fun stale later hstep => ⟨(hfailed _ later hstep).1, by decide⟩) ?_
  exact fun later hstep => ⟨_, (hfailed dev later hstep).2, rfl⟩

/-- The texts are texts. -/
theorem startFailure_ne {replies : Replies} {text : String}
    (htext : startFailure params replies = some text) : text ≠ "" := by
  unfold startFailure at htext
  split_ifs at htext <;> cases htext <;> decide

theorem failed_startEncoding {replies : Replies} {later : OpenableDev}
    (hstep : deviceStep dev (.startEncoding replies) = some (false, later)) :
    Failed dev.dev (startFailure dev.dev.params replies) later.dev := by
  simp only [deviceStep, Option.ite_none_right_eq_some, Option.some.injEq, Prod.mk.injEq] at hstep
  obtain ⟨-, hfalse, rfl⟩ := hstep
  exact (meets_startEncoding_failed dev.dev replies).failed rfl hfalse

/-- A `StartEncoding` that assigns no text fails. -/
theorem exists_failed_of_startFailure_none {replies : Replies} (hcan : dev.canStart = true)
    (hnone : startFailure dev.dev.params replies = none) :
    ∃ later, deviceStep dev (.startEncoding replies) = some (false, later) ∧
      later.dev.errmsg = dev.dev.errmsg := by
  have hmeets := meets_startEncoding_failed dev.dev replies
  have hfalse : (startEncoding replies).returnsTrue dev.dev = false := by
    by_contra htrue
    obtain ⟨-, hfinal⟩ := hmeets.succeeded rfl (Bool.of_not_eq_false htrue)
    simp [hnone] at hfinal
  have hstep : deviceStep dev (.startEncoding replies) =
      some (false, { dev with dev := (startEncoding replies dev.dev).2 }) := by
    rw [deviceStep, if_pos hcan, hfalse]
  refine ⟨_, hstep, ?_⟩
  have hfailed := failed_startEncoding hstep
  rwa [hnone] at hfailed

theorem freshFailure_startEncoding_iff {replies : Replies} (hcan : dev.canStart = true) :
    FreshFailure dev (.startEncoding replies) ↔
      startFailure dev.dev.params replies ≠ none := by
  constructor
  · intro hfresh hnone
    have hcan' : (dev.withErrmsg "").canStart = true := hcan
    obtain ⟨later, hstep, -⟩ := exists_failed_of_startFailure_none hcan hnone
    obtain ⟨other, hother, hempty⟩ := exists_failed_of_startFailure_none hcan' hnone
    have hsame : other.dev.errmsg = later.dev.errmsg := hfresh.assigned later hstep "" other hother
    exact hfresh.nonempty later hstep (hsame.symm.trans hempty)
  · intro hsome
    obtain ⟨text, htext⟩ := Option.ne_none_iff_exists'.mp hsome
    have hfailed (state later : OpenableDev)
        (hsame : startFailure state.dev.params replies = some text)
        (hstep : deviceStep state (.startEncoding replies) = some (false, later)) :
        Failed state.dev (some text) later.dev := hsame ▸ failed_startEncoding hstep
    refine .of_text (fun stale later hstep => ?_) fun later hstep =>
      (hfailed dev later htext hstep).2
    exact ⟨(hfailed (dev.withErrmsg stale) later htext hstep).1, startFailure_ne htext⟩

/-- The calls that assign no text are those that measure a source whose format is not taken. -/
theorem startFailure_eq_none_iff {replies : Replies} :
    startFailure params replies = none ↔
      (measuredSource params replies).isSome = true ∧ replies.setInputFormat = false := by
  -- a source is measured only where the earlier steps have not failed
  have hmeasured (hsome : (measuredSource params replies).isSome = true) :
      params.videoInput ≠ hapiVideoCaptureSourceSdi ∧ hasSignal replies ∧
        ¬ (params.isHdmi ∧ takesVic replies) := by
    have hcodes : hapiVideoCaptureSourceCvbs ≠ hapiVideoCaptureSourceSdi ∧
        hapiVideoCaptureSourceComponent ≠ hapiVideoCaptureSourceSdi := by decide
    unfold measuredSource at hsome
    split_ifs at hsome with hanalog hsignal hsdi hboth
    · refine ⟨?_, hsignal, fun hvic => ?_⟩
      · rintro hsdi
        exact hanalog.elim (fun hcvbs => hcodes.1 (hcvbs.symm.trans hsdi))
          fun hcomponent => hcodes.2 (hcomponent.symm.trans hsdi)
      · rcases hanalog with hcvbs | hcomponent
        · exact hvic.1 (by simp [hcvbs])
        · exact hvic.1 (by simp [hcomponent])
    · simp at hsome
    · simp at hsome
    · exact ⟨hsdi, hboth.1, fun hvic => hboth.2 hvic.2⟩
    · simp at hsome
  constructor
  · intro hnone
    unfold startFailure at hnone
    split_ifs at hnone with hsdi hsignal hvic hmeasures hreply
    exact ⟨Option.isSome_iff_ne_none.mpr hmeasures, Bool.of_not_eq_true hreply⟩
  · rintro ⟨hsome, hreply⟩
    obtain ⟨hsdi, hsignal, hvic⟩ := hmeasured hsome
    rw [startFailure, if_neg hsdi, if_neg (not_not_intro hsignal), if_neg hvic,
      if_neg (Option.isSome_iff_ne_none.mp hsome), if_neg (by simp [hreply])]

end Calls

section Sequences

variable {params : Parameters} {registry : Registry} {calls : List DeviceCall}

/-- A device object with these parameters. -/
def HasParams (params : Parameters) (dev : OpenableDev) : Prop :=
  dev.dev.params = params

theorem steady_hasParams : Steady fun dev : HauppaugeDev => dev.params = params where
  emit _ _ _ hdev := hdev
  errmsg _ _ _ hdev := hdev
  registry _ _ hdev := hdev
  avInvF _ _ hdev := hdev
  videoInitialized _ _ hdev := hdev

theorem meets_perform_params {events : List OpenEvent} {E : OpenableDev → Prop} :
    Stage.Meets (HasParams params) (perform events) (fun _ => HasParams params) E :=
  .update fun _ hdev => hdev

theorem meets_failWith_params {message : String} :
    Stage.Meets (HasParams params) (failWith message) (fun _ => HasParams params)
      (HasParams params) :=
  .update_fail fun _ hdev => hdev

theorem meets_openFile_params {name : String} {replies : OpenReplies} :
    Stage.Meets (HasParams params) (openFile name replies) (fun _ => HasParams params)
      (HasParams params) := by
  refine .ite (fun _ => .update fun _ hdev => hdev) fun _ => ?_
  cases replies.openFile with
  | ok fd => exact .update fun _ hdev => hdev
  | error message =>
      have htried : Stage.Meets (HasParams params)
          (.update fun dev => { dev.emit [.openFile name none] with fd := none })
          (fun _ => HasParams params) (HasParams params) := .update fun _ hdev => hdev
      exact htried.bind fun _ => meets_failWith_params

/-- `Open` writes no parameters. -/
theorem meets_openDevice_params {settings : OpenSettings} {replies : OpenReplies} :
    Stage.Meets (HasParams params) (openDevice settings replies) (fun _ => HasParams params)
      (HasParams params) := by
  have hnewFx2 : Stage.Meets (HasParams params)
      (.update fun dev => { dev.emit [.newFx2] with fx2 := true })
      (fun _ => HasParams params) (HasParams params) := .update fun _ hdev => hdev
  have hnewEncoder : Stage.Meets (HasParams params)
      (.update fun dev => { dev.emit [.newEncoder] with encDev := true })
      (fun _ => HasParams params) (HasParams params) := .update fun _ hdev => hdev
  have hnewReceiver : Stage.Meets (HasParams params)
      (.update fun dev => { dev.emit [.newReceiver] with rxDev := true })
      (fun _ => HasParams params) (HasParams params) := .update fun _ hdev => hdev
  have hfx2 : Stage.Meets (HasParams params) (openFx2 settings replies)
      (fun _ => HasParams params) (HasParams params) :=
    meets_perform_params.bind fun _ => hnewFx2.bind fun _ => meets_perform_params.bind fun _ =>
      meets_perform_params
  have hencoder : Stage.Meets (HasParams params) (openEncoder replies)
      (fun _ => HasParams params) (HasParams params) :=
    hnewEncoder.bind fun _ => meets_perform_params.bind fun _ =>
      .ite (fun _ => .pure fun _ hdev => hdev) fun _ => meets_failWith_params
  have hreceiver : Stage.Meets (HasParams params) (openReceiver settings)
      (fun _ => HasParams params) (HasParams params) :=
    hnewReceiver.bind fun _ => meets_perform_params.bind fun _ => meets_perform_params
  have houtput : Stage.Meets (HasParams params) (openOutput settings replies)
      (fun _ => HasParams params) (HasParams params) :=
    .ite (fun _ => .pure fun _ hdev => hdev) fun _ => meets_openFile_params.bind fun _ =>
      .update fun _ hdev => hdev
  exact hfx2.bind fun _ => hencoder.bind fun _ => hreceiver.bind fun _ => houtput.bind fun _ =>
    meets_perform_params

theorem params_deviceStep {dev later : OpenableDev} {call : DeviceCall} {result : Bool}
    (hstep : deviceStep dev call = some (result, later)) : later.dev.params = dev.dev.params := by
  cases call with
  | openDevice settings replies =>
      obtain ⟨-, rfl⟩ := Prod.mk.inj (Option.some.inj hstep)
      have hsame : HasParams dev.dev.params dev := rfl
      exact meets_openDevice_params.leaves hsame
  | startEncoding replies =>
      simp only [deviceStep, Option.ite_none_right_eq_some, Option.some.injEq, Prod.mk.injEq]
        at hstep
      obtain ⟨-, -, rfl⟩ := hstep
      have hsteady : Steady fun later => later.params = dev.dev.params := steady_hasParams
      exact (hsteady.meets_startEncoding (fun _ _ hdev => hdev) fun _ hdev => hdev).leaves rfl
  | stopEncoding reply =>
      simp only [deviceStep, Option.ite_none_right_eq_some, Option.some.injEq, Prod.mk.injEq]
        at hstep
      obtain ⟨-, -, rfl⟩ := hstep
      cases reply <;> rfl

theorem params_deviceRun {dev later : OpenableDev} (hrun : deviceRun dev calls = some later) :
    later.dev.params = dev.dev.params := by
  induction calls generalizing dev with
  | nil =>
      rw [deviceRun, Option.some.injEq] at hrun
      rw [hrun]
  | cons call rest ih =>
      obtain ⟨⟨result, next⟩, hstep, hrest⟩ := Option.bind_eq_some_iff.mp hrun
      exact (ih hrest).trans (params_deviceStep hstep)

end Sequences

/-- Every failing call of a sequence reports the step that has failed if and only if every
format that is set in it is taken. -/
theorem freshFailures_iff (params : Parameters) (registry : Registry) (calls : List DeviceCall) :
    FreshFailures params registry calls ↔ FormatsTaken params registry calls := by
  have hparams (prior : List DeviceCall) (dev : OpenableDev)
      (hrun : deviceRun (.new params registry) prior = some dev) : dev.dev.params = params :=
    params_deviceRun hrun
  constructor
  · intro hfresh prior replies hbegins dev hrun hcan hmeasured
    have hhere := (freshFailure_startEncoding_iff hcan).mp (hfresh prior _ hbegins dev hrun)
    rw [hparams prior dev hrun] at hhere
    by_contra hreply
    exact hhere (startFailure_eq_none_iff.mpr ⟨hmeasured, Bool.of_not_eq_true hreply⟩)
  · intro htaken prior call hbegins dev hrun
    cases call with
    | openDevice settings replies => exact freshFailure_openDevice settings replies
    | stopEncoding reply => exact freshFailure_stopEncoding reply
    | startEncoding replies =>
        by_cases hcan : dev.canStart = true
        · refine (freshFailure_startEncoding_iff hcan).mpr fun hnone => ?_
          rw [hparams prior dev hrun] at hnone
          obtain ⟨hmeasured, hreply⟩ := startFailure_eq_none_iff.mp hnone
          have htrue := htaken prior replies hbegins dev hrun hcan hmeasured
          simp [hreply] at htrue
        · -- the call uses a null pointer, and returns nothing
          have hnone : deviceStep dev (.startEncoding replies) = none := if_neg hcan
          refine ⟨?_, ?_, ?_⟩ <;> intro later hstep <;> rw [hnone] at hstep <;> cases hstep

/-- A device that opens, and then does not take the format of its source. -/
def refusedFormat : Parameters × List DeviceCall :=
  ({ Parameters.default with videoInput := hapiVideoCaptureSourceComponent },
    [.openDevice ⟨false, "", false, true⟩ ⟨fun _ => true, true, .ok 3⟩,
      .startEncoding
        { steadySource ⟨1280, 720, false, 60, 16 / 9⟩ with setInputFormat := false }])

/-- The recording fails, and reports nothing. -/
theorem refused_format_unreported :
    ¬ FreshFailures refusedFormat.1 Registry.empty refusedFormat.2 := by
  intro hfresh
  have hfailure := hfresh [.openDevice ⟨false, "", false, true⟩ ⟨fun _ => true, true, .ok 3⟩]
    (.startEncoding { steadySource ⟨1280, 720, false, 60, 16 / 9⟩ with setInputFormat := false })
    (List.prefix_rfl) _ rfl
  exact hfailure.nonempty _ rfl rfl

/-- What the `ErrorString` of an open device may be. -/
def encodingErrors : List String :=
  "" :: "Encoder start capture failed." :: "Encoder stop capture failed." :: inputErrors

/-- The `ErrorString` of a device is one of these. -/
def HauppaugeDev.ReportsKnown (dev : HauppaugeDev) : Prop := dev.errmsg ∈ encodingErrors

theorem steady_reportsKnown : Steady HauppaugeDev.ReportsKnown where
  emit _ _ _ hdev := hdev
  errmsg _ errmsg herrmsg _ := by
    show errmsg ∈ encodingErrors
    simp [encodingErrors, herrmsg]
  registry _ _ hdev := hdev
  avInvF _ _ hdev := hdev
  videoInitialized _ _ hdev := hdev

theorem meets_giveUp_reportsKnown {message : String} {Q : Unit → HauppaugeDev → Prop}
    (hmessage : message ∈ encodingErrors) :
    Stage.Meets HauppaugeDev.ReportsKnown (giveUp message) Q HauppaugeDev.ReportsKnown :=
  .update_fail fun _ _ => hmessage

theorem meets_startEncoding_reportsKnown (replies : Replies) :
    Stage.Meets HauppaugeDev.ReportsKnown (startEncoding replies)
      (fun _ => HauppaugeDev.ReportsKnown) HauppaugeDev.ReportsKnown :=
  steady_reportsKnown.meets_startEncoding (fun _ _ hdev => hdev) fun _ _ => by
    simp [HauppaugeDev.ReportsKnown, encodingErrors]

theorem meets_stopEncoding_reportsKnown (reply : Bool) :
    Stage.Meets HauppaugeDev.ReportsKnown (stopEncoding reply)
      (fun _ => HauppaugeDev.ReportsKnown) HauppaugeDev.ReportsKnown := by
  have hstop : Stage.Meets HauppaugeDev.ReportsKnown (call [.stopCapture reply])
      (fun _ => HauppaugeDev.ReportsKnown) HauppaugeDev.ReportsKnown := .update fun _ hdev => hdev
  refine hstop.bind fun _ => .ite (fun _ => .pure fun _ hdev => hdev) fun _ => ?_
  exact meets_giveUp_reportsKnown (by simp [encodingErrors])

theorem reportsKnown_step {call : EncodingCall} {dev : HauppaugeDev} (hdev : dev.ReportsKnown) :
    (encodingStep dev call).ReportsKnown := by
  cases call with
  | startEncoding replies => exact (meets_startEncoding_reportsKnown replies).leaves hdev
  | stopEncoding reply => exact (meets_stopEncoding_reportsKnown reply).leaves hdev

/-- After any calls the error text is known. -/
theorem reportsKnown_run (params : Parameters) (calls : List EncodingCall) :
    (encodingRun params calls).ReportsKnown := by
  induction calls using List.reverseRecOn with
  | nil => simp [encodingRun, HauppaugeDev.ReportsKnown, HauppaugeDev.new, encodingErrors]
  | append_singleton earlier call ih =>
      rw [encodingRun_append_singleton]
      exact reportsKnown_step ih

end HauppaugeUSB.Device

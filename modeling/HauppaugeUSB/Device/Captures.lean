/-
# Captures

The device is capturing from a successful `startCapture` to a successful `stopCapture`.
`StartEncoding` calls the former last, after it has initialized its input, and
`StopEncoding` calls the latter first; what else they call does not matter for the capture.
-/

import HauppaugeUSB.Device.Stages
import HauppaugeUSB.Streams.Brackets

namespace HauppaugeUSB.Device

open HauppaugeUSB.Control HauppaugeUSB.Streams

/-- The last successful `startCapture` has not been followed by a successful `stopCapture`. -/
def HauppaugeDev.Capturing (dev : HauppaugeDev) : Prop :=
  LeftOpen (· = .startCapture true) (· = .stopCapture true) dev.trace

/-- A call that starts or stops a capture. -/
def DeviceEvent.isCapture : DeviceEvent → Bool
  | .startCapture _ | .stopCapture _ => true
  | _ => false

/-- A device has made further calls, but none for a capture. -/
def HauppaugeDev.Prepared (before dev : HauppaugeDev) : Prop :=
  ∃ calls, dev.trace = before.trace ++ calls ∧ ∀ event ∈ calls, event.isCapture = false

namespace HauppaugeDev

variable {before dev : HauppaugeDev} {events : List DeviceEvent} {reply : Bool}

theorem Prepared.refl (dev : HauppaugeDev) : dev.Prepared dev := ⟨[], by simp⟩

theorem Prepared.of_trace {later : HauppaugeDev} (hdev : before.Prepared dev)
    (htrace : later.trace = dev.trace ++ events)
    (hevents : ∀ event ∈ events, event.isCapture = false) : before.Prepared later := by
  obtain ⟨calls, hcalls, hnone⟩ := hdev
  refine ⟨calls ++ events, by rw [htrace, hcalls, List.append_assoc], fun event hevent => ?_⟩
  exact (List.mem_append.mp hevent).elim (hnone event) (hevents event)

theorem Prepared.capturing_iff (hdev : before.Prepared dev) :
    dev.Capturing ↔ before.Capturing := by
  obtain ⟨calls, hcalls, hnone⟩ := hdev
  rw [Capturing, hcalls]
  refine leftOpen_append ?_ ?_
  · rintro event hevent rfl
    exact absurd (hnone _ hevent) (by simp [DeviceEvent.isCapture])
  · rintro event hevent rfl
    exact absurd (hnone _ hevent) (by simp [DeviceEvent.isCapture])

theorem capturing_startCapture :
    (dev.emit [.startCapture reply]).Capturing ↔ reply = true ∨ dev.Capturing := by
  rw [Capturing, emit_trace, leftOpen_append_singleton]
  simp [Capturing]

theorem capturing_stopCapture :
    (dev.emit [.stopCapture reply]).Capturing ↔ reply = false ∧ dev.Capturing := by
  rw [Capturing, emit_trace, leftOpen_append_singleton]
  simp [Capturing]

end HauppaugeDev

/-- What initializing an input may report. -/
def inputErrors : List String :=
  ["No input signal.", "Cannot determine video mode.", "SDI not supported."]

/-- A property that survives everything that initializing an input may do: it makes calls
that are not for a capture, and reports errors of its own. -/
structure Steady (P : HauppaugeDev → Prop) : Prop where
  emit : ∀ dev events, (∀ event ∈ events, event.isCapture = false) → P dev → P (dev.emit events)
  errmsg : ∀ dev, ∀ errmsg ∈ inputErrors, P dev → P { dev with errmsg }
  registry : ∀ dev registry, P dev → P { dev with registry }
  avInvF : ∀ dev avInvF, P dev → P { dev with avInvF }
  videoInitialized : ∀ dev videoInitialized, P dev → P { dev with videoInitialized }

section Inputs

variable {P E : HauppaugeDev → Prop} {dev : HauppaugeDev} {params : Parameters}
  {replies : Replies} {events : List DeviceEvent}

theorem isCapture_of_isProbe {event : DeviceEvent} (hprobe : event.isProbe = true) :
    event.isCapture = false := by
  cases event with
  | startCapture reply | stopCapture reply => simp [DeviceEvent.isProbe] at hprobe
  | _ => rfl

theorem Steady.meets_call (hP : Steady P) (hevents : ∀ event ∈ events, event.isCapture = false) :
    Stage.Meets P (call events) (fun _ => P) E :=
  .update fun dev hdev => hP.emit dev events hevents hdev

theorem Steady.meets_giveUp {Value : Type} {Q : Value → HauppaugeDev → Prop} {message : String}
    (hP : Steady P) (hmessage : message ∈ inputErrors) : Stage.Meets P (giveUp message) Q P :=
  .update_fail fun dev hdev => hP.errmsg dev message hmessage hdev

theorem Steady.meets_initialized {source : ℤ} (hP : Steady P) :
    Stage.Meets P (initialized source) (fun _ => P) E :=
  .update fun dev hdev => hP.videoInitialized dev source hdev

theorem Steady.overrideCodingMode {interlaced : Bool} (hP : Steady P) (hdev : P dev) :
    P (overrideCodingMode interlaced dev) := by
  unfold Device.overrideCodingMode
  dsimp only
  split
  · split
    · have hwritten := hP.registry dev (Wrappers.writeDword dev.registry videoCodingModeName
        (UInt32.ofInt dev.params.videoCodingMode)).2 hdev
      refine hP.emit _ [.writeDword videoCodingModeName
        (UInt32.ofInt dev.params.videoCodingMode)] ?_ hwritten
      simp [DeviceEvent.isCapture]
    · exact hdev
  · exact hdev

theorem Steady.prepareInput {interlaced : Bool} (hP : Steady P) (hdev : P dev) :
    P (prepareInput replies interlaced dev) := by
  have hrouted : P (dev.emit (setAudioFormat dev.params replies (audioInFormat dev.params))) := by
    refine hP.emit _ _ ?_ hdev
    unfold setAudioFormat setDigitalAudio
    cases replies.cs8416 <;> dsimp only <;> split_ifs <;> simp [DeviceEvent.isCapture]
  have hoverridden : P (Device.overrideCodingMode interlaced _) := hP.overrideCodingMode hrouted
  unfold Device.prepareInput
  dsimp only
  split
  · refine hP.emit _ [.setAvInvF true] ?_ (hP.avInvF _ true hoverridden)
    simp [DeviceEvent.isCapture]
  · exact hoverridden

theorem Steady.meets_setInputFormat {source : EncoderSource} {vp : VideoParams}
    {aspectRatio audioSampleRate : ℚ} (hP : Steady P) :
    Stage.Meets P (setInputFormat replies source vp aspectRatio audioSampleRate) (fun _ => P)
      P := by
  have hprepare : Stage.Meets P (.update (Device.prepareInput replies vp.interlaced))
      (fun _ => P) P := .update fun _ => hP.prepareInput
  have hset : Stage.Meets P (.update fun dev => dev.emit [.setInputFormat
      (formatOf source vp aspectRatio audioSampleRate dev) replies.setInputFormat])
      (fun _ => P) P :=
    .update fun dev hdev => hP.emit dev _ (by simp [DeviceEvent.isCapture]) hdev
  exact hprepare.bind fun _ => hset.bind fun _ =>
    .ite (fun _ => .pure fun _ hdev => hdev) fun _ => .fail fun _ hdev => hdev

/-- An input that measures its source and goes on. -/
theorem Steady.meets_awaitParams {event : Bool × VideoParams → DeviceEvent}
    {reply : ℕ → Bool × VideoParams} {rest : VideoParams → Stage HauppaugeDev Unit}
    (hP : Steady P) (hprobe : ∀ reply, (event reply).isProbe = true)
    (hrest : ∀ vp, Stage.Meets P (rest vp) (fun _ => P) P) :
    Stage.Meets P (awaitParams event reply >>= rest) (fun _ => P) P := by
  refine Stage.Meets.bind (Q := fun _ => P) ?_ hrest
  have hprobes : ∀ made ∈ asked (fun idx => event (reply idx))
      (fun idx => acceptsParams (reply idx)) maxRetry, made.isCapture = false :=
    forall_mem_asked fun _ => isCapture_of_isProbe (hprobe _)
  refine (hP.meets_call hprobes).bind fun _ => ?_
  exact .ite (fun _ => hP.meets_giveUp (by simp [inputErrors])) fun _ => .pure fun _ hdev => hdev

/-- An input that is selected, waits for a signal and goes on. -/
theorem Steady.meets_selected {source : ℤ} {input : ReceiverInput}
    {rest : Stage HauppaugeDev Unit} (hP : Steady P)
    (hrest : Stage.Meets P rest (fun _ => P) P) :
    Stage.Meets P (selectInput source input >>= fun _ => awaitSignal replies >>= fun _ => rest)
      (fun _ => P) P := by
  have hselect : Stage.Meets P (selectInput source input) (fun _ => P) P := by
    apply Stage.Meets.update
    intro dev hdev
    split
    · exact hP.emit dev _ (by simp [DeviceEvent.isCapture]) hdev
    · exact hdev
  refine hselect.bind fun _ => Stage.Meets.bind (Q := fun _ => P) ?_ fun _ => hrest
  refine (hP.meets_call (forall_mem_asked fun _ => rfl)).bind fun _ => ?_
  exact .ite (fun _ => hP.meets_giveUp (by simp [inputErrors])) fun _ => .pure fun _ hdev => hdev

theorem Steady.meets_initMeasured (hP : Steady P) :
    Stage.Meets P (initMeasured replies) (fun _ => P) P := by
  refine hP.meets_awaitParams (fun _ => rfl) fun vp => ?_
  exact hP.meets_setInputFormat.bind fun _ => hP.meets_call (by simp [DeviceEvent.isCapture])

theorem Steady.meets_initHdmiFormat {vic : ℤ} (hP : Steady P) :
    Stage.Meets P (initHdmiFormat replies vic) (fun _ => P) P := by
  refine .ite (fun _ => hP.meets_initMeasured) fun _ => ?_
  refine (hP.meets_call (by simp [DeviceEvent.isCapture])).bind fun _ => ?_
  refine .ite (fun _ => .ite (fun _ => ?_) fun _ => ?_) fun _ => hP.meets_initMeasured
  · exact hP.meets_call (by simp [DeviceEvent.isCapture])
  · exact hP.meets_call (by simp [DeviceEvent.isCapture])

theorem Steady.meets_initInput (hP : Steady P) :
    Stage.Meets P (initInput params replies) (fun _ => P) P := by
  refine .ite (fun _ => ?_) fun _ => .ite (fun _ => ?_) fun _ => .ite (fun _ => ?_) fun _ => ?_
  · refine hP.meets_selected (hP.meets_awaitParams (fun _ => rfl) fun vp => ?_)
    refine hP.meets_setInputFormat.bind fun _ => (hP.meets_call ?_).bind fun _ =>
      hP.meets_initialized
    simp [DeviceEvent.isCapture]
  · refine hP.meets_selected (hP.meets_awaitParams (fun _ => rfl) fun vp => ?_)
    refine hP.meets_setInputFormat.bind fun _ => (hP.meets_call ?_).bind fun _ =>
      (hP.meets_call ?_).bind fun _ => hP.meets_initialized
    · simp [DeviceEvent.isCapture]
    · simp [DeviceEvent.isCapture]
  · exact hP.meets_giveUp (by simp [inputErrors])
  · refine hP.meets_selected ((hP.meets_call ?_).bind fun _ => (hP.meets_call ?_).bind fun _ =>
      hP.meets_initHdmiFormat.bind fun _ => hP.meets_initialized)
    · simp [DeviceEvent.isCapture]
    · simp [DeviceEvent.isCapture]

/-- A recording that is started keeps what its capture keeps as well. -/
theorem Steady.meets_startEncoding (hP : Steady P)
    (hstart : ∀ dev reply, P dev → P (dev.emit [.startCapture reply]))
    (hfail : ∀ dev, P dev → P { dev with errmsg := "Encoder start capture failed." }) :
    Stage.Meets P (startEncoding replies) (fun _ => P) P := by
  have hread : Stage.Meets P Stage.read (fun _ => P) P := .read fun _ hdev => hdev
  have hcall : Stage.Meets P (call [.startCapture replies.startCapture]) (fun _ => P) P :=
    .update fun dev => hstart dev replies.startCapture
  have hgiveUp : Stage.Meets P
      (.update fun dev => { dev with errmsg := "Encoder start capture failed." }) (fun _ => P) P :=
    .update hfail
  exact hread.bind fun _ => hP.meets_initInput.bind fun _ => hcall.bind fun _ =>
    .ite (fun _ => .pure fun _ hdev => hdev) fun _ => hgiveUp.bind fun _ => .fail fun _ hdev => hdev

theorem steady_prepared {before : HauppaugeDev} : Steady before.Prepared where
  emit _ _ hevents hdev := hdev.of_trace rfl hevents
  errmsg _ _ _ hdev := hdev
  registry _ _ hdev := hdev
  avInvF _ _ hdev := hdev
  videoInitialized _ _ hdev := hdev

end Inputs

section Encoding

variable {dev : HauppaugeDev} {reply : Bool}

/-- `StartEncoding` starts a capture or leaves the last one as it is. -/
theorem meets_startEncoding_capturing (replies : Replies) :
    Stage.Meets (· = dev) (startEncoding replies) (fun _ later => later.Capturing)
      (fun later => later.Capturing ↔ dev.Capturing) := by
  have hinput (params : Parameters) : Stage.Meets (· = dev) (initInput params replies)
      (fun _ => dev.Prepared) (fun later => later.Capturing ↔ dev.Capturing) :=
    steady_prepared.meets_initInput.weaken (fun _ heq => heq ▸ .refl dev) (fun _ _ hlater => hlater)
      fun _ hlater => hlater.capturing_iff
  have hstart : Stage.Meets dev.Prepared (call [.startCapture replies.startCapture])
      (fun _ later => later.Capturing ↔ replies.startCapture = true ∨ dev.Capturing)
      (fun later => later.Capturing ↔ dev.Capturing) := by
    apply Stage.Meets.update
    intro before hbefore
    rw [HauppaugeDev.capturing_startCapture, hbefore.capturing_iff]
  have hread : Stage.Meets (· = dev) Stage.read (fun _ later => later = dev)
      (fun later => later.Capturing ↔ dev.Capturing) := .read fun _ heq => heq
  refine hread.bind fun seen => (hinput seen.params).bind fun _ => hstart.bind fun _ => ?_
  refine .ite (fun hstarted => .pure fun later hlater => ?_) fun hfailed => ?_
  · exact hlater.mpr (.inl hstarted)
  · refine Stage.Meets.bind (Q := fun _ later =>
      later.Capturing ↔ replies.startCapture = true ∨ dev.Capturing) (.update fun _ h => h)
      fun _ => .fail fun later hlater => ?_
    simpa [hfailed] using hlater

theorem stopEncoding_trace :
    (stopEncoding reply dev).2.trace = dev.trace ++ [.stopCapture reply] := by
  cases reply <;> rfl

/-- `StopEncoding` ends the capture if it succeeds. -/
theorem capturing_stopEncoding :
    (stopEncoding reply dev).2.Capturing ↔ reply = false ∧ dev.Capturing := by
  rw [← HauppaugeDev.capturing_stopCapture, HauppaugeDev.Capturing, stopEncoding_trace]
  rfl

end Encoding

end HauppaugeUSB.Device

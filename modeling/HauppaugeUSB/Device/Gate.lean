/-
# What a capture depends on

`StartEncoding` starts a capture only after it has seen a signal and has told the encoder
what to expect: the resolution that it has measured, or the VIC of an HDMI source. Every
call that it makes is allowed by the calls before it, in which this can be read off.
-/

import HauppaugeUSB.Device.Captures
import HauppaugeUSB.Device.Hdmi
import HauppaugeUSB.Streams.Search

namespace HauppaugeUSB.Device

open HauppaugeUSB.Control HauppaugeUSB.Streams

/-- A poll for a signal. -/
def DeviceEvent.isPoll : DeviceEvent → Bool
  | .hasInputSignal _ => true
  | _ => false

/-- A call has read parameters with a valid resolution. -/
structure ReadsValid (event : DeviceEvent) (vp : VideoParams) : Prop where
  read : event = .getOutputParams (true, vp) ∨ event = .getHdmiParams (true, vp)
  valid : validResolution vp.width vp.height = true

/-- A format has the resolution of some parameters. -/
def InputFormat.HasResolution (format : InputFormat) (vp : VideoParams) : Prop :=
  format.width = vp.width ∧ format.height = vp.height

/-- A signal has been seen and a format set that has been read after it. -/
def MeasuredInput (calls : List DeviceEvent) : Prop :=
  ∃ read vp format, ReadsValid read vp ∧ format.HasResolution vp ∧
    [.hasInputSignal true, read, .setInputFormat format true].Sublist calls

/-- A signal has been seen, and the encoder has taken a VIC after it. -/
def VicInput (calls : List DeviceEvent) : Prop :=
  ∃ vic sampleRate, 0 < vic ∧
    [.hasInputSignal true, .setHdmiFormat vic sampleRate true].Sublist calls

/-- The inputs for which `StartEncoding` calls `init_hdmi`. -/
def Parameters.isHdmi (params : Parameters) : Prop :=
  params.videoInput ∉
    [hapiVideoCaptureSourceCvbs, hapiVideoCaptureSourceComponent, hapiVideoCaptureSourceSdi]

instance (params : Parameters) : Decidable params.isHdmi := inferInstanceAs (Decidable (_ ∉ _))

/-- The input of a recording has been verified. -/
def Verified (params : Parameters) (calls : List DeviceEvent) : Prop :=
  MeasuredInput calls ∨ params.isHdmi ∧ VicInput calls

/-- The calls that allow another one. -/
def Allowed (params : Parameters) (prior : List DeviceEvent) : DeviceEvent → Prop
  | .hasInputSignal _ => prior.countP DeviceEvent.isPoll < maxRetry
  | .setInputFormat format _ => ∃ read ∈ prior, ∃ vp, ReadsValid read vp ∧ format.HasResolution vp
  | .startCapture _ => Verified params prior ∧ ∀ event ∈ prior, event.isCapture = false
  | _ => True

/-- Every call is allowed by those before it. -/
def GatedCalls (params : Parameters) (calls : List DeviceEvent) : Prop :=
  ∀ prior event, prior ++ [event] <+: calls → Allowed params prior event

/-- The calls of one `StartEncoding` are allowed one by one, and it succeeds if it has started
a capture. -/
def CaptureGated (dev : HauppaugeDev) (replies : Replies) : Prop :=
  ∃ calls, (startEncoding replies dev).2.trace = dev.trace ++ calls ∧
    GatedCalls dev.params calls ∧
    ((startEncoding replies).returnsTrue dev = true ↔ .startCapture true ∈ calls)

section Histories

variable {params : Parameters} {calls events : List DeviceEvent} {event : DeviceEvent}

/-- A call that is always allowed and starts or stops no capture. -/
def DeviceEvent.isNeutral : DeviceEvent → Bool
  | .hasInputSignal _ | .setInputFormat .. | .startCapture _ | .stopCapture _ => false
  | _ => true

theorem gatedCalls_append_singleton :
    GatedCalls params (calls ++ [event]) ↔
      GatedCalls params calls ∧ Allowed params calls event :=
  forall_points_append_singleton

theorem allowed_of_isNeutral (hneutral : event.isNeutral = true) :
    Allowed params calls event := by
  cases event with
  | hasInputSignal reply | startCapture reply => simp [DeviceEvent.isNeutral] at hneutral
  | setInputFormat format reply => simp [DeviceEvent.isNeutral] at hneutral
  | _ => trivial

theorem isCapture_of_isNeutral (hneutral : event.isNeutral = true) : event.isCapture = false := by
  cases event with
  | startCapture reply | stopCapture reply => simp [DeviceEvent.isNeutral] at hneutral
  | _ => rfl

theorem isPoll_of_isNeutral (hneutral : event.isNeutral = true) : ¬ event.isPoll = true := by
  cases event with
  | hasInputSignal reply => simp [DeviceEvent.isNeutral] at hneutral
  | _ => simp [DeviceEvent.isPoll]

theorem GatedCalls.neutral (hcalls : GatedCalls params calls)
    (hneutral : ∀ event ∈ events, event.isNeutral = true) :
    GatedCalls params (calls ++ events) := by
  induction events using List.reverseRecOn with
  | nil => rwa [List.append_nil]
  | append_singleton earlier last ih =>
      rw [← List.append_assoc, gatedCalls_append_singleton]
      have hearlier := ih fun event hevent => hneutral event (List.mem_append_left _ hevent)
      exact ⟨hearlier, allowed_of_isNeutral (hneutral last (by simp))⟩

/-- The polls of one loop. -/
theorem GatedCalls.polls {reply : ℕ → Bool} {count : ℕ} (hcalls : GatedCalls params calls)
    (hneutral : ∀ event ∈ calls, event.isNeutral = true) (hcount : count ≤ maxRetry) :
    GatedCalls params (calls ++ (List.range count).map fun idx => .hasInputSignal (reply idx)) := by
  induction count with
  | zero => simpa using hcalls
  | succ count ih =>
      rw [List.range_succ, List.map_append, List.map_singleton, ← List.append_assoc,
        gatedCalls_append_singleton]
      refine ⟨ih (by omega), ?_⟩
      have hnone : calls.countP DeviceEvent.isPoll = 0 :=
        List.countP_eq_zero.mpr fun event hevent => isPoll_of_isNeutral (hneutral event hevent)
      have hpolls : ((List.range count).map fun idx =>
          DeviceEvent.hasInputSignal (reply idx)).countP DeviceEvent.isPoll = count := by
        rw [List.countP_eq_length.mpr] <;> simp [DeviceEvent.isPoll]
      show (calls ++ _).countP DeviceEvent.isPoll < maxRetry
      rw [List.countP_append, hnone, hpolls]
      omega

end Histories

/-- A device has made calls with a property since. -/
def HauppaugeDev.Called (before : HauppaugeDev) (R : List DeviceEvent → Prop) :
    HauppaugeDev → Prop :=
  Extends HauppaugeDev.trace before R

/-- Neutral calls do not matter to a property. -/
def Stable (R : List DeviceEvent → Prop) : Prop :=
  ∀ calls events, (∀ event ∈ events, event.isNeutral = true) → R calls → R (calls ++ events)

/-- Only neutral calls have been made. -/
def NeutralCalls (params : Parameters) (calls : List DeviceEvent) : Prop :=
  GatedCalls params calls ∧ ∀ event ∈ calls, event.isNeutral = true

/-- No capture has been started. -/
def IdleCalls (params : Parameters) (calls : List DeviceEvent) : Prop :=
  GatedCalls params calls ∧ ∀ event ∈ calls, event.isCapture = false

/-- And a signal has been seen. -/
def SignalCalls (params : Parameters) (calls : List DeviceEvent) : Prop :=
  IdleCalls params calls ∧ [.hasInputSignal true].Sublist calls

/-- And these parameters have been read after it. -/
def ReadCalls (params : Parameters) (vp : VideoParams) (calls : List DeviceEvent) : Prop :=
  IdleCalls params calls ∧
    ∃ read, ReadsValid read vp ∧ [.hasInputSignal true, read].Sublist calls

/-- The input has been verified. -/
def VerifiedCalls (params : Parameters) (calls : List DeviceEvent) : Prop :=
  IdleCalls params calls ∧ Verified params calls

section Properties

variable {params : Parameters} {calls events : List DeviceEvent} {vp : VideoParams}

theorem stable_neutralCalls : Stable (NeutralCalls params) := by
  intro calls events hneutral hcalls
  refine ⟨hcalls.1.neutral hneutral, fun event hevent => ?_⟩
  exact (List.mem_append.mp hevent).elim (hcalls.2 event) (hneutral event)

theorem stable_idleCalls : Stable (IdleCalls params) := by
  intro calls events hneutral hcalls
  refine ⟨hcalls.1.neutral hneutral, fun event hevent => ?_⟩
  rcases List.mem_append.mp hevent with hbefore | hlater
  · exact hcalls.2 event hbefore
  · exact isCapture_of_isNeutral (hneutral event hlater)

theorem stable_signalCalls : Stable (SignalCalls params) := fun _ _ hneutral hcalls =>
  ⟨stable_idleCalls _ _ hneutral hcalls.1, hcalls.2.trans (List.sublist_append_left _ _)⟩

theorem stable_readCalls : Stable (ReadCalls params vp) := by
  rintro calls events hneutral ⟨hidle, read, hread, hsublist⟩
  exact ⟨stable_idleCalls _ _ hneutral hidle, read, hread,
    hsublist.trans (List.sublist_append_left _ _)⟩

theorem stable_verifiedCalls : Stable (VerifiedCalls params) := by
  rintro calls events hneutral ⟨hidle, hverified⟩
  refine ⟨stable_idleCalls _ _ hneutral hidle, ?_⟩
  rcases hverified with ⟨read, vp, format, hread, hformat, hsublist⟩ |
    ⟨hhdmi, vic, sampleRate, hvic, hsublist⟩
  · exact .inl ⟨read, vp, format, hread, hformat, hsublist.trans (List.sublist_append_left _ _)⟩
  · exact .inr ⟨hhdmi, vic, sampleRate, hvic, hsublist.trans (List.sublist_append_left _ _)⟩

end Properties

section Stages

variable {before dev : HauppaugeDev} {params : Parameters} {replies : Replies}
  {events : List DeviceEvent} {R R' : List DeviceEvent → Prop} {E : HauppaugeDev → Prop}

theorem HauppaugeDev.Called.imp (hdev : before.Called R dev) (himp : ∀ calls, R calls → R' calls) :
    before.Called R' dev :=
  Extends.imp hdev himp

theorem HauppaugeDev.Called.of_trace {later : HauppaugeDev} (hdev : before.Called R dev)
    (htrace : later.trace = dev.trace ++ events)
    (hevents : ∀ calls, R calls → R' (calls ++ events)) : before.Called R' later :=
  Extends.append hdev htrace hevents

theorem meets_call_called (hevents : ∀ calls, R calls → R' (calls ++ events)) :
    Stage.Meets (before.Called R) (call events) (fun _ => before.Called R') E :=
  Extends.meets_update (fun _ => rfl) hevents

theorem meets_neutral (hR : Stable R) (hneutral : ∀ event ∈ events, event.isNeutral = true) :
    Stage.Meets (before.Called R) (call events) (fun _ => before.Called R) E :=
  meets_call_called fun calls => hR calls events hneutral

theorem meets_giveUp_called {Value : Type} {Q : Value → HauppaugeDev → Prop} {message : String}
    (hfail : ∀ dev, before.Called R dev → E dev) :
    Stage.Meets (before.Called R) (giveUp message) Q E :=
  .update_fail fun _ hdev => hfail _ hdev

theorem meets_initialized_called {source : ℤ} :
    Stage.Meets (before.Called R) (initialized source) (fun _ => before.Called R) E :=
  .update fun _ hdev => hdev

theorem meets_selectInput_called {source : ℤ} {input : ReceiverInput} (hR : Stable R) :
    Stage.Meets (before.Called R) (selectInput source input) (fun _ => before.Called R) E := by
  apply Stage.Meets.update
  intro dev hdev
  split
  · exact hdev.of_trace rfl fun calls => hR calls _ (by simp [DeviceEvent.isNeutral])
  · exact hdev

/-- The loop that waits for a signal polls for it a bounded number of times. -/
theorem meets_awaitSignal_called :
    Stage.Meets (before.Called (NeutralCalls params)) (awaitSignal replies)
      (fun _ => before.Called (SignalCalls params)) (before.Called (IdleCalls params)) := by
  have hasked : Stage.Meets (before.Called (NeutralCalls params))
      (call (asked (fun idx => .hasInputSignal (replies.hasInputSignal idx))
        replies.hasInputSignal maxRetry))
      (fun _ => before.Called fun calls => IdleCalls params calls ∧
        (hasSignal replies → [.hasInputSignal true].Sublist calls))
      (before.Called (IdleCalls params)) := by
    refine meets_call_called fun calls hcalls => ⟨⟨?_, ?_⟩, fun hsignal => ?_⟩
    · exact hcalls.1.polls hcalls.2 (Nat.min_le_right _ _)
    · intro event hevent
      rcases List.mem_append.mp hevent with hbefore | hpoll
      · exact isCapture_of_isNeutral (hcalls.2 event hbefore)
      · have hpolls : ∀ event ∈ asked
            (fun idx => DeviceEvent.hasInputSignal (replies.hasInputSignal idx))
            replies.hasInputSignal maxRetry, event.isCapture = false :=
          forall_mem_asked fun _ => rfl
        exact hpolls event hpoll
    · have hlast := ask_mem_asked
        (fun idx => DeviceEvent.hasInputSignal (replies.hasInputSignal idx)) hsignal
      rw [accepts_stopsAt hsignal] at hlast
      exact List.singleton_sublist.mpr (List.mem_append_right _ hlast)
  refine hasked.bind fun _ => .ite (fun _ => ?_) fun hstops => .pure fun dev hdev => ?_
  · exact meets_giveUp_called fun dev hdev => hdev.imp fun _ hcalls => hcalls.1
  · exact hdev.imp fun _ hcalls => ⟨hcalls.1, hcalls.2 hstops⟩

/-- The loop that measures the signal. -/
theorem meets_awaitParams_called {event : Bool × VideoParams → DeviceEvent}
    {reply : ℕ → Bool × VideoParams} (hneutral : ∀ reply, (event reply).isNeutral = true)
    (hreads : ∀ vp, validResolution vp.width vp.height = true → ReadsValid (event (true, vp)) vp) :
    Stage.Meets (before.Called (SignalCalls params)) (awaitParams event reply)
      (fun vp => before.Called (ReadCalls params vp)) (before.Called (IdleCalls params)) := by
  have hasked : Stage.Meets (before.Called (SignalCalls params))
      (call (asked (fun idx => event (reply idx)) (fun idx => acceptsParams (reply idx)) maxRetry))
      (fun _ => before.Called fun calls => SignalCalls params calls ∧
        ∀ vp, acceptedParams reply = some vp → ReadCalls params vp calls)
      (before.Called (IdleCalls params)) := by
    refine meets_call_called fun calls hcalls => ?_
    have hlater : SignalCalls params (calls ++ asked (fun idx => event (reply idx))
        (fun idx => acceptsParams (reply idx)) maxRetry) :=
      stable_signalCalls calls _ (forall_mem_asked fun idx => hneutral (reply idx)) hcalls
    refine ⟨hlater, fun vp haccepted => ⟨hlater.1, ?_⟩⟩
    unfold acceptedParams at haccepted
    split at haccepted
    case isTrue => cases haccepted
    case isFalse hstops =>
      cases haccepted
      obtain ⟨hread, hvalid⟩ := Bool.and_eq_true_iff.mp (accepts_stopsAt hstops)
      have hlast := ask_mem_asked (fun idx => event (reply idx)) hstops
      refine ⟨_, hreads _ hvalid, hcalls.2.append (List.singleton_sublist.mpr ?_)⟩
      rw [← hread]
      exact hlast
  refine hasked.bind fun _ => .ite (fun _ => ?_) fun hstops => .pure fun dev hdev => ?_
  · exact meets_giveUp_called fun dev hdev => hdev.imp fun _ hcalls => hcalls.1.1
  · exact hdev.imp fun _ hcalls => hcalls.2 _ (if_neg hstops)

theorem isNeutral_of_mem_setAudioFormat {audioFormat : AudioInFormat} :
    ∀ event ∈ setAudioFormat params replies audioFormat, event.isNeutral = true := by
  unfold setAudioFormat setDigitalAudio
  cases replies.cs8416 <;> dsimp only <;> split_ifs <;> simp [DeviceEvent.isNeutral]

/-- What `set_input_format` does before it calls the encoder is neutral. -/
theorem called_prepareInput {interlaced : Bool} (hR : Stable R) (hdev : before.Called R dev) :
    before.Called R (prepareInput replies interlaced dev) := by
  refine hdev.of_trace trace_prepareInput fun calls hcalls => hR calls _ ?_ hcalls
  simp only [List.mem_append]
  rintro event ((haudio | hoverride) | hflip)
  · exact isNeutral_of_mem_setAudioFormat event haudio
  · unfold overrideEvents at hoverride
    split at hoverride
    case isTrue => exact List.mem_singleton.mp hoverride ▸ rfl
    case isFalse => cases hoverride
  · unfold flipEvents at hflip
    split at hflip
    case isTrue => exact List.mem_singleton.mp hflip ▸ rfl
    case isFalse => cases hflip

/-- What is set is what has been read. -/
theorem meets_setInputFormat_called {source : EncoderSource} {vp : VideoParams}
    {aspectRatio audioSampleRate : ℚ} :
    Stage.Meets (before.Called (ReadCalls params vp))
      (setInputFormat replies source vp aspectRatio audioSampleRate)
      (fun _ => before.Called (VerifiedCalls params)) (before.Called (IdleCalls params)) := by
  have hset : ∀ dev, before.Called (ReadCalls params vp) dev →
      before.Called (fun calls => IdleCalls params calls ∧
        (replies.setInputFormat = true → Verified params calls))
        (formatSet replies source vp aspectRatio audioSampleRate dev) := by
    intro dev hdev
    have hprepared : before.Called (ReadCalls params vp) (prepareInput replies vp.interlaced dev) :=
      called_prepareInput stable_readCalls hdev
    have htrace : (formatSet replies source vp aspectRatio audioSampleRate dev).trace =
        (prepareInput replies vp.interlaced dev).trace ++
          [.setInputFormat (formatOf source vp aspectRatio audioSampleRate
            (prepareInput replies vp.interlaced dev)) replies.setInputFormat] := rfl
    refine hprepared.of_trace htrace fun calls hcalls => ?_
    obtain ⟨⟨hgated, hidle⟩, read, hread, hsublist⟩ := hcalls
    refine ⟨⟨gatedCalls_append_singleton.mpr ⟨hgated, ?_⟩, ?_⟩, fun hreply => .inl ?_⟩
    · exact ⟨read, hsublist.subset (by simp), vp, hread, rfl, rfl⟩
    · intro event hevent
      rcases List.mem_append.mp hevent with hbefore | hlast
      · exact hidle event hbefore
      · exact List.mem_singleton.mp hlast ▸ rfl
    · refine ⟨read, vp, formatOf source vp aspectRatio audioSampleRate
        (prepareInput replies vp.interlaced dev), hread, ⟨rfl, rfl⟩,
        hsublist.append (List.singleton_sublist.mpr ?_)⟩
      exact List.mem_singleton.mpr (by rw [hreply])
  intro dev hdev
  rw [setInputFormat_eq]
  cases hreply : replies.setInputFormat with
  | false => exact (hset dev hdev).imp fun _ hcalls => hcalls.1
  | true => exact (hset dev hdev).imp fun _ hcalls => ⟨hcalls.1, hcalls.2 hreply⟩

theorem meets_initMeasured_called :
    Stage.Meets (before.Called (SignalCalls params)) (initMeasured replies)
      (fun _ => before.Called (VerifiedCalls params)) (before.Called (IdleCalls params)) := by
  refine (meets_awaitParams_called (fun _ => rfl) fun vp hvalid => ⟨.inr rfl, hvalid⟩).bind
    fun vp => meets_setInputFormat_called.bind fun _ => ?_
  exact meets_neutral stable_verifiedCalls (by simp [DeviceEvent.isNeutral])

/-- The encoder takes a VIC, or the source is measured. -/
theorem meets_initHdmiFormat_called {vic : ℤ} (hhdmi : params.isHdmi) :
    Stage.Meets (before.Called (SignalCalls params)) (initHdmiFormat replies vic)
      (fun _ => before.Called (VerifiedCalls params)) (before.Called (IdleCalls params)) := by
  refine .ite (fun _ => meets_initMeasured_called) fun hvic => ?_
  have hcall : Stage.Meets (before.Called (SignalCalls params))
      (call [.setHdmiFormat vic replies.audioSampleRate replies.setHdmiFormat])
      (fun _ => before.Called fun calls => SignalCalls params calls ∧
        (replies.setHdmiFormat = true → Verified params calls))
      (before.Called (IdleCalls params)) := by
    refine meets_call_called fun calls hcalls => ⟨?_, fun hreply => .inr ⟨hhdmi, ?_⟩⟩
    · exact stable_signalCalls calls _ (by simp [DeviceEvent.isNeutral]) hcalls
    · refine ⟨vic, replies.audioSampleRate, by omega, ?_⟩
      refine hcalls.2.append (List.singleton_sublist.mpr ?_)
      exact List.mem_singleton.mpr (by rw [hreply])
  refine hcall.bind fun _ => .ite (fun hreply => ?_) fun _ => ?_
  · have hbus (mode : OutputBusMode) : Stage.Meets (before.Called (VerifiedCalls params))
        (call [.setOutputBusMode mode]) (fun _ => before.Called (VerifiedCalls params))
        (before.Called (IdleCalls params)) :=
      meets_neutral stable_verifiedCalls (by simp [DeviceEvent.isNeutral])
    have hinit : Stage.Meets (before.Called (VerifiedCalls params)) (initVic vic)
        (fun _ => before.Called (VerifiedCalls params)) (before.Called (IdleCalls params)) :=
      .ite (fun _ => hbus _) fun _ => hbus _
    exact hinit.weaken (fun dev hdev => hdev.imp fun _ hcalls => ⟨hcalls.1.1, hcalls.2 hreply⟩)
      (fun _ _ hdev => hdev) fun _ hdev => hdev
  · exact meets_initMeasured_called.weaken (fun dev hdev => hdev.imp fun _ hcalls => hcalls.1)
      (fun _ _ hdev => hdev) fun _ hdev => hdev

/-- Every input is verified or given up. -/
theorem meets_initInput_called :
    Stage.Meets (before.Called (NeutralCalls params)) (initInput params replies)
      (fun _ => before.Called (VerifiedCalls params)) (before.Called (IdleCalls params)) := by
  have hbus (event : DeviceEvent) (hneutral : event.isNeutral = true) :
      Stage.Meets (before.Called (VerifiedCalls params)) (call [event])
        (fun _ => before.Called (VerifiedCalls params)) (before.Called (IdleCalls params)) :=
    meets_neutral stable_verifiedCalls (by simpa using hneutral)
  refine .ite (fun _ => ?_) fun hcvbs => .ite (fun _ => ?_) fun hcomponent =>
    .ite (fun _ => ?_) fun hsdi => ?_
  · refine (meets_selectInput_called stable_neutralCalls).bind fun _ =>
      meets_awaitSignal_called.bind fun _ =>
      (meets_awaitParams_called (fun _ => rfl) fun vp hvalid => ⟨.inl rfl, hvalid⟩).bind fun vp =>
      meets_setInputFormat_called.bind fun _ => (hbus _ rfl).bind fun _ =>
      meets_initialized_called
  · refine (meets_selectInput_called stable_neutralCalls).bind fun _ =>
      meets_awaitSignal_called.bind fun _ =>
      (meets_awaitParams_called (fun _ => rfl) fun vp hvalid => ⟨.inl rfl, hvalid⟩).bind fun vp =>
      meets_setInputFormat_called.bind fun _ => (hbus _ rfl).bind fun _ =>
      (hbus _ rfl).bind fun _ => meets_initialized_called
  · refine meets_giveUp_called fun dev hdev => hdev.imp fun calls hcalls => ?_
    exact ⟨hcalls.1, fun event hevent => isCapture_of_isNeutral (hcalls.2 event hevent)⟩
  · have hhdmi : params.isHdmi := by simp [Parameters.isHdmi, hcvbs, hcomponent, hsdi]
    refine (meets_selectInput_called stable_neutralCalls).bind fun _ =>
      meets_awaitSignal_called.bind fun _ =>
      (meets_neutral stable_signalCalls (by simp [DeviceEvent.isNeutral])).bind fun _ =>
      (meets_neutral stable_signalCalls (by simp [DeviceEvent.isNeutral])).bind fun _ =>
      (meets_initHdmiFormat_called hhdmi).bind fun _ => meets_initialized_called

end Stages

section Encoding

variable {dev : HauppaugeDev} {params : Parameters} {replies : Replies}

/-- The calls are gated, and a capture has been started or not. -/
def StartedCalls (params : Parameters) (started : Prop) (calls : List DeviceEvent) : Prop :=
  GatedCalls params calls ∧ (.startCapture true ∈ calls ↔ started)

theorem meets_startCapture_called :
    Stage.Meets (dev.Called (VerifiedCalls params)) (call [.startCapture replies.startCapture])
      (fun _ => dev.Called (StartedCalls params (replies.startCapture = true)))
      (dev.Called (StartedCalls params False)) := by
  refine meets_call_called fun calls hcalls => ?_
  obtain ⟨⟨hgated, hidle⟩, hverified⟩ := hcalls
  refine ⟨gatedCalls_append_singleton.mpr ⟨hgated, hverified, hidle⟩, ?_⟩
  have hbefore : .startCapture true ∉ calls := fun hmem => absurd (hidle _ hmem) (by decide)
  rw [List.mem_append, List.mem_singleton, DeviceEvent.startCapture.injEq, or_iff_right hbefore]
  exact eq_comm

theorem meets_startEncoding_called (dev : HauppaugeDev) (replies : Replies) :
    Stage.Meets (· = dev) (startEncoding replies)
      (fun _ => dev.Called (StartedCalls dev.params True))
      (dev.Called (StartedCalls dev.params False)) := by
  have hread : Stage.Meets (· = dev) Stage.read (fun seen later => later = dev ∧ seen = dev)
      (dev.Called (StartedCalls dev.params False)) := .read fun _ heq => ⟨heq, heq⟩
  refine hread.bind fun seen => Stage.Meets.of_and fun hseen => ?_
  have hinput : Stage.Meets (· = dev) (initInput seen.params replies)
      (fun _ => dev.Called (VerifiedCalls dev.params))
      (dev.Called (StartedCalls dev.params False)) := by
    rw [hseen]
    refine meets_initInput_called.weaken (fun later heq => ?_) (fun _ _ hlater => hlater)
      fun _ hlater => hlater.imp fun calls hidle => ⟨hidle.1, iff_of_false ?_ not_false⟩
    · refine ⟨[], by simp [heq], fun prior event hbegins => ?_, fun event hevent => by cases hevent⟩
      simp at hbegins
    · exact fun hmem => absurd (hidle.2 _ hmem) (by decide)
  refine hinput.bind fun _ => meets_startCapture_called.bind fun _ =>
    .ite (fun hreply => .pure fun later hlater => ?_) fun hreply => ?_
  · simpa [hreply] using hlater
  · exact meets_giveUp_called fun later hlater => by simpa [hreply] using hlater

/-- The capture of a `StartEncoding` is gated by an input that it has verified itself. -/
theorem captureGated (dev : HauppaugeDev) (replies : Replies) : CaptureGated dev replies := by
  have hmeets := meets_startEncoding_called dev replies
  unfold CaptureGated Stage.returnsTrue
  cases hrun : startEncoding replies dev with
  | mk value later =>
      cases value with
      | none =>
          obtain ⟨calls, htrace, hgated, hstarted⟩ := hmeets.none rfl hrun
          exact ⟨calls, htrace, hgated, by simp [hstarted]⟩
      | some value =>
          obtain ⟨calls, htrace, hgated, hstarted⟩ := hmeets.some rfl hrun
          exact ⟨calls, htrace, hgated, by simp [hstarted]⟩

end Encoding

end HauppaugeUSB.Device

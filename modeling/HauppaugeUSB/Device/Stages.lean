/-
# The stages of an input

Every input goes through the same stages before it sets a format: it is selected, its
signal is waited for and measured. These stages ask the device and leave its
configuration alone. Their rules hold for any property that is indifferent to such
questions, and say on the way what the replies must have been.
-/

import HauppaugeUSB.Device.Inputs

namespace HauppaugeUSB.Device

open HauppaugeUSB.Control

/-- The loop that waits for a signal succeeds. -/
def hasSignal (replies : Replies) : Prop := stopsAt replies.hasInputSignal maxRetry ≠ maxRetry

/-- The parameters that the measuring loop accepts, unless it runs out of tries. -/
def acceptedParams (reply : ℕ → Bool × VideoParams) : Option VideoParams :=
  if stopsAt (fun idx => acceptsParams (reply idx)) maxRetry = maxRetry then none
  else some (reply (stopsAt (fun idx => acceptsParams (reply idx)) maxRetry)).2

instance (replies : Replies) : Decidable (hasSignal replies) :=
  inferInstanceAs (Decidable (_ ≠ _))

/-- The encoder takes the source by its VIC. -/
def takesVic (replies : Replies) : Prop :=
  0 < replies.getHdmiFormat ∧ replies.setHdmiFormat = true

instance (replies : Replies) : Decidable (takesVic replies) := inferInstanceAs (Decidable (_ ∧ _))

/-- A source whose parameters are accepted has replied so. -/
theorem exists_reply_of_acceptedParams {reply : ℕ → Bool × VideoParams} {vp : VideoParams}
    (haccepted : acceptedParams reply = some vp) :
    ∃ idx, acceptsParams (reply idx) = true ∧ (reply idx).2 = vp := by
  unfold acceptedParams at haccepted
  split at haccepted
  case isTrue => cases haccepted
  case isFalse hstops => exact ⟨_, accepts_stopsAt hstops, Option.some.inj haccepted⟩

/-- A call that only prepares the measurement of a source. -/
def DeviceEvent.isProbe : DeviceEvent → Bool
  | .setInput _ | .receiverShowInfo | .encoderShowInfo | .hasInputSignal _ => true
  | .getOutputParams _ | .getAudioParams _ | .getHdmiFormat _ | .getHdmiParams _ => true
  | .setHdmiFormat .. => true
  | _ => false

/-- A property to which such calls, error texts and the last input do not matter. -/
structure Indifferent (P : HauppaugeDev → Prop) : Prop where
  emit : ∀ dev events, (∀ event ∈ events, event.isProbe = true) → P dev → P (dev.emit events)
  errmsg : ∀ dev errmsg, P dev → P { dev with errmsg }
  videoInitialized : ∀ dev videoInitialized, P dev → P { dev with videoInitialized }

section Rules

variable {P E : HauppaugeDev → Prop} {replies : Replies}

theorem meets_probe {events : List DeviceEvent} (hP : Indifferent P)
    (hprobe : ∀ event ∈ events, event.isProbe = true) :
    Stage.Meets P (call events) (fun _ => P) E :=
  .update fun dev hdev => hP.emit dev events hprobe hdev

theorem meets_giveUp {Value : Type} {Q : Value → HauppaugeDev → Prop} {message : String}
    (hP : Indifferent P) (hfail : ∀ dev, P dev → E dev) :
    Stage.Meets P (giveUp message) Q E :=
  .update_fail fun dev hdev => hfail _ (hP.errmsg dev message hdev)

theorem meets_selectInput {source : ℤ} {input : ReceiverInput} (hP : Indifferent P) :
    Stage.Meets P (selectInput source input) (fun _ => P) E := by
  apply Stage.Meets.update
  intro dev hdev
  split
  · exact hP.emit dev _ (by simp [DeviceEvent.isProbe]) hdev
  · exact hdev

theorem meets_initialized {source : ℤ} (hP : Indifferent P) :
    Stage.Meets P (initialized source) (fun _ => P) E :=
  .update fun dev hdev => hP.videoInitialized dev source hdev

theorem meets_awaitSignal (hP : Indifferent P)
    (hfail : ¬ hasSignal replies → ∀ dev, P dev → E dev) :
    Stage.Meets P (awaitSignal replies) (fun _ dev => P dev ∧ hasSignal replies) E := by
  apply (meets_probe hP (forall_mem_asked fun _ => rfl)).bind
  intro _
  refine .ite (fun hstops => ?_) fun hstops => .pure fun dev hdev => ⟨hdev, hstops⟩
  exact meets_giveUp hP (hfail fun hsignal => hsignal hstops)

theorem meets_awaitParams {event : Bool × VideoParams → DeviceEvent}
    {reply : ℕ → Bool × VideoParams} (hP : Indifferent P)
    (hprobe : ∀ reply, (event reply).isProbe = true)
    (hfail : acceptedParams reply = none → ∀ dev, P dev → E dev) :
    Stage.Meets P (awaitParams event reply)
      (fun vp dev => P dev ∧ acceptedParams reply = some vp) E := by
  apply (meets_probe hP (forall_mem_asked fun _ => hprobe _)).bind
  intro _
  refine .ite (fun hstops => ?_) fun hstops => .pure fun dev hdev => ⟨hdev, if_neg hstops⟩
  exact meets_giveUp hP (hfail (if_pos hstops))

end Rules

end HauppaugeUSB.Device

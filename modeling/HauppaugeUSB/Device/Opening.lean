/-
# Opening the device

`HauppaugeDev::Open` loads the firmware of the bridge chip until it reports high speed, and
then initializes the encoder and the receiver and opens the output. The firmware loop is a
bounded one like those of the inputs, but what comes after it does not look at the index.

The calls that `Open` makes are kept apart from those of a recording. Its replies are given
beforehand.
-/

import HauppaugeUSB.Device.Inputs

namespace HauppaugeUSB.Device

open HauppaugeUSB.Control HauppaugeUSB.Wrappers

/-- The EDIDs that `Open` chooses from. -/
inductive Edid
  /-- `edidHDPVR2_1080p6050_ac3_fix_rgb`. -/
  | ac3FixRgb
  /-- `edidHDPVR2_1080p6050_pcm_fix_rgb`. -/
  | pcmFixRgb
  deriving DecidableEq

/-- A call that `Open` makes, with its reply. -/
inductive OpenEvent
  | usbDevDesc
  | newFx2
  | isUsbHighSpeed (reply : Bool)
  | stopCpu
  | loadFirmware
  | startCpu
  /-- `setPortStateBits` on `FX2_CTL_PORTS`. -/
  | setCtlPortStateBits (first second : ℕ)
  | newEncoder
  | encoderInit (reply : Bool)
  | newReceiver
  | setEdid (edid : Edid)
  | receiverInit
  /-- `open`, with a file descriptor or none. -/
  | openFile (name : String) (reply : Option ℕ)
  | setOutputFd (fd : ℕ)
  | setWriteCallback
  deriving DecidableEq

/-- What `Open` is called with, and what it reads of `Parameters`. -/
structure OpenSettings where
  verbose : Bool
  output : String
  ac3 : Bool
  /-- `cb` is not null. -/
  callback : Bool

/-- The replies to one call of `Open`. -/
structure OpenReplies where
  isUsbHighSpeed : ℕ → Bool
  encoderInit : Bool
  /-- A file descriptor, or what `strerror` says. -/
  openFile : Except String ℕ

/-- A `HauppaugeDev` with its three pointers and its output. -/
structure OpenableDev where
  dev : HauppaugeDev
  /-- `m_fx2` is not null. -/
  fx2 : Bool
  /-- `m_encDev` is not null. -/
  encDev : Bool
  /-- `m_rxDev` is not null. -/
  rxDev : Bool
  /-- `m_fd`, unless it is negative. -/
  fd : Option ℕ
  opening : List OpenEvent

namespace OpenableDev

/-- A device object that has just been made. -/
def new (params : Parameters) (registry : Registry) : OpenableDev where
  dev := .new params registry
  fx2 := false
  encDev := false
  rxDev := false
  fd := none
  opening := []

def emit (dev : OpenableDev) (events : List OpenEvent) : OpenableDev :=
  { dev with opening := dev.opening ++ events }

end OpenableDev

/-- Make calls. -/
def perform (events : List OpenEvent) : Stage OpenableDev Unit :=
  .update fun dev => dev.emit events

/-- Fail for a reason. -/
def failWith (message : String) : Stage OpenableDev Unit := do
  .update fun dev => { dev with dev := { dev.dev with errmsg := message } }
  .fail

/-- The firmware loop, with `left` loads left at `idx`. It asks before it looks at the index,
and therefore once more than it loads. -/
def firmwareLoop (highSpeed : ℕ → Bool) : ℕ → ℕ → List OpenEvent
  | 0, idx => [.isUsbHighSpeed (highSpeed idx)]
  | left + 1, idx =>
      if highSpeed idx then [.isUsbHighSpeed (highSpeed idx)]
      else
        [.isUsbHighSpeed (highSpeed idx), .stopCpu, .loadFirmware, .startCpu] ++
          firmwareLoop highSpeed left (idx + 1)

/-- The part of `Open` that is about the bridge chip. -/
def openFx2 (settings : OpenSettings) (replies : OpenReplies) : Stage OpenableDev Unit := do
  perform (if settings.verbose then [.usbDevDesc] else [])
  .update fun dev => { dev.emit [.newFx2] with fx2 := true }
  perform (firmwareLoop replies.isUsbHighSpeed maxRetry 0)
  perform [.setCtlPortStateBits 0 0x10]

/-- The part that is about the encoder. -/
def openEncoder (replies : OpenReplies) : Stage OpenableDev Unit := do
  .update fun dev => { dev.emit [.newEncoder] with encDev := true }
  perform [.encoderInit replies.encoderInit]
  if replies.encoderInit then pure () else failWith "Encoder init failed."

/-- The part that is about the receiver. -/
def openReceiver (settings : OpenSettings) : Stage OpenableDev Unit := do
  .update fun dev => { dev.emit [.newReceiver] with rxDev := true }
  perform [.setEdid (if settings.ac3 then .ac3FixRgb else .pcmFixRgb)]
  perform [.receiverInit]

/-- `open_file`: the file descriptor. -/
def openFile (name : String) (replies : OpenReplies) : Stage OpenableDev Unit :=
  if name = "stdout" then .update fun dev => { dev with fd := some 1 }
  else
    match replies.openFile with
    | .ok fd => .update fun dev => { dev.emit [.openFile name (some fd)] with fd := some fd }
    | .error message => do
        .update fun dev => { dev.emit [.openFile name none] with fd := none }
        failWith ("Failed to open '" ++ name ++ "' :" ++ message)

/-- The part that is about the output. -/
def openOutput (settings : OpenSettings) (replies : OpenReplies) : Stage OpenableDev Unit :=
  if settings.output = "" then pure ()
  else do
    openFile settings.output replies
    .update fun dev => dev.emit ((dev.fd.map OpenEvent.setOutputFd).toList)

/-- `HauppaugeDev::Open`. -/
def openDevice (settings : OpenSettings) (replies : OpenReplies) : Stage OpenableDev Unit := do
  openFx2 settings replies
  openEncoder replies
  openReceiver settings
  openOutput settings replies
  perform (if settings.callback then [.setWriteCallback] else [])

/-- A call of the firmware loop. -/
def OpenEvent.isFirmware : OpenEvent → Bool
  | .isUsbHighSpeed _ | .stopCpu | .loadFirmware | .startCpu => true
  | _ => false

/-- A call that makes or initializes the encoder or the receiver. -/
def OpenEvent.isInit : OpenEvent → Bool
  | .newEncoder | .encoderInit _ | .newReceiver | .setEdid _ | .receiverInit => true
  | _ => false

/-- The firmware loop has ended with a report of high speed. -/
def EndsHigh (calls : List OpenEvent) : Prop :=
  ∃ before after, calls = before ++ .isUsbHighSpeed true :: after ∧
    ∀ event ∈ after, event.isFirmware = false

/-- The output has been opened and given to the encoder. -/
def OutputOpened (output : String) (calls : List OpenEvent) : Prop :=
  ∃ fd, (output = "stdout" ∨ .openFile output (some fd) ∈ calls) ∧ .setOutputFd fd ∈ calls

/-- What an `Open` has called that has succeeded. -/
structure ReadyCalls (settings : OpenSettings) (calls : List OpenEvent) : Prop where
  highSpeed : EndsHigh calls
  encoder : .encoderInit true ∈ calls
  output : settings.output ≠ "" → OutputOpened settings.output calls

/-- `Open` succeeds only with a device that is ready, and running out of firmware loads is a
failure. -/
structure OpensReady (settings : OpenSettings) (replies : OpenReplies) (dev : OpenableDev) :
    Prop where
  success : (openDevice settings replies).returnsTrue dev = true →
    Extends OpenableDev.opening dev (ReadyCalls settings) (openDevice settings replies dev).2
  exhausted : (∀ idx ≤ maxRetry, replies.isUsbHighSpeed idx = false) →
    (openDevice settings replies).returnsTrue dev = false ∧
      (openDevice settings replies dev).2.dev.errmsg ≠ "" ∧
      Extends OpenableDev.opening dev (∀ event ∈ ·, event.isInit = false)
        (openDevice settings replies dev).2

section Stages

variable {settings : OpenSettings} {replies : OpenReplies} {before : OpenableDev}
  {highSpeed : ℕ → Bool} {left idx : ℕ}

/-- If any of its polls is answered so, the loop ends with a report of high speed. -/
theorem firmwareLoop_ends (hhigh : ∃ i, idx ≤ i ∧ i ≤ idx + left ∧ highSpeed i = true) :
    ∃ earlier, firmwareLoop highSpeed left idx = earlier ++ [.isUsbHighSpeed true] := by
  induction left generalizing idx with
  | zero =>
      obtain ⟨i, hle, hge, hi⟩ := hhigh
      obtain rfl : i = idx := by omega
      exact ⟨[], by simp [firmwareLoop, hi]⟩
  | succ left ih =>
      rw [firmwareLoop]
      split
      case isTrue hidx => exact ⟨[], by simp [hidx]⟩
      case isFalse hidx =>
        have hlater : ∃ i, idx + 1 ≤ i ∧ i ≤ idx + 1 + left ∧ highSpeed i = true := by
          obtain ⟨i, hle, hge, hi⟩ := hhigh
          have hne : i ≠ idx := fun heq => hidx (heq ▸ hi)
          exact ⟨i, by omega, by omega, hi⟩
        obtain ⟨earlier, hearlier⟩ := ih hlater
        exact ⟨_, by rw [hearlier, ← List.append_assoc]⟩

/-- Calls that come after the firmware loop. -/
theorem EndsHigh.append {calls events : List OpenEvent} (hcalls : EndsHigh calls)
    (hevents : ∀ event ∈ events, event.isFirmware = false) : EndsHigh (calls ++ events) := by
  obtain ⟨earlier, after, rfl, hafter⟩ := hcalls
  refine ⟨earlier, after ++ events, by simp, fun event hevent => ?_⟩
  exact (List.mem_append.mp hevent).elim (hafter event) (hevents event)

/-- What has been called once the encoder has been initialized. -/
structure EncoderCalls (replies : OpenReplies) (calls : List OpenEvent) : Prop where
  highSpeed : (∃ idx ≤ maxRetry, replies.isUsbHighSpeed idx = true) → EndsHigh calls
  made : .newEncoder ∈ calls
  encoder : .encoderInit true ∈ calls

theorem EncoderCalls.append {calls events : List OpenEvent} (hcalls : EncoderCalls replies calls)
    (hevents : ∀ event ∈ events, event.isFirmware = false) :
    EncoderCalls replies (calls ++ events) where
  highSpeed hhigh := (hcalls.highSpeed hhigh).append hevents
  made := List.mem_append_left _ hcalls.made
  encoder := List.mem_append_left _ hcalls.encoder

variable {R R' : List OpenEvent → Prop} {E : OpenableDev → Prop}

theorem meets_perform {events : List OpenEvent}
    (hevents : ∀ calls, R calls → R' (calls ++ events)) :
    Stage.Meets (Extends OpenableDev.opening before R) (perform events)
      (fun _ => Extends OpenableDev.opening before R') E :=
  Extends.meets_update (fun _ => rfl) hevents

theorem meets_openFx2 :
    Stage.Meets (· = before) (openFx2 settings replies)
      (fun _ => Extends OpenableDev.opening before fun calls =>
        (∃ idx ≤ maxRetry, replies.isUsbHighSpeed idx = true) → EndsHigh calls) E := by
  have hverbose : Stage.Meets (· = before)
      (perform (if settings.verbose then [.usbDevDesc] else []))
      (fun _ => Extends OpenableDev.opening before fun _ => True) E :=
    .update fun dev heq => heq ▸ ⟨_, rfl, trivial⟩
  have hnew : Stage.Meets (Extends OpenableDev.opening before fun _ => True)
      (.update fun dev => { dev.emit [.newFx2] with fx2 := true })
      (fun _ => Extends OpenableDev.opening before fun _ => True) E :=
    Extends.meets_update (fun _ => rfl) fun _ htrivial => htrivial
  have hloop : Stage.Meets (Extends OpenableDev.opening before fun _ => True)
      (perform (firmwareLoop replies.isUsbHighSpeed maxRetry 0))
      (fun _ => Extends OpenableDev.opening before fun calls =>
        (∃ idx ≤ maxRetry, replies.isUsbHighSpeed idx = true) → EndsHigh calls) E := by
    refine meets_perform fun calls _ hhigh => ?_
    obtain ⟨idx, hle, hidx⟩ := hhigh
    have hle' : idx ≤ 0 + maxRetry := by omega
    obtain ⟨earlier, hearlier⟩ := firmwareLoop_ends ⟨idx, Nat.zero_le _, hle', hidx⟩
    exact ⟨calls ++ earlier, [], by rw [hearlier, List.append_assoc], by simp⟩
  refine hverbose.bind fun _ => hnew.bind fun _ => hloop.bind fun _ => ?_
  exact meets_perform fun calls hcalls hhigh =>
    (hcalls hhigh).append (by simp [OpenEvent.isFirmware])

theorem meets_failWith {message : String} {Q : Unit → OpenableDev → Prop}
    (hfail : ∀ dev, Extends OpenableDev.opening before R dev → E dev) :
    Stage.Meets (Extends OpenableDev.opening before R) (failWith message) Q E :=
  .update_fail fun _ hdev => hfail _ hdev

/-- The encoder is made in any case. -/
theorem meets_openEncoder :
    Stage.Meets
      (Extends OpenableDev.opening before fun calls =>
        (∃ idx ≤ maxRetry, replies.isUsbHighSpeed idx = true) → EndsHigh calls)
      (openEncoder replies) (fun _ => Extends OpenableDev.opening before (EncoderCalls replies))
      (Extends OpenableDev.opening before (.newEncoder ∈ ·)) := by
  have hnew : Stage.Meets
      (Extends OpenableDev.opening before fun calls =>
        (∃ idx ≤ maxRetry, replies.isUsbHighSpeed idx = true) → EndsHigh calls)
      (.update fun dev => { dev.emit [.newEncoder] with encDev := true })
      (fun _ => Extends OpenableDev.opening before fun calls =>
        ((∃ idx ≤ maxRetry, replies.isUsbHighSpeed idx = true) → EndsHigh calls) ∧
          .newEncoder ∈ calls)
      (Extends OpenableDev.opening before (.newEncoder ∈ ·)) :=
    Extends.meets_update (fun _ => rfl) fun calls hcalls =>
      ⟨fun hhigh => (hcalls hhigh).append (by simp [OpenEvent.isFirmware]), by simp⟩
  have hinit : Stage.Meets
      (Extends OpenableDev.opening before fun calls =>
        ((∃ idx ≤ maxRetry, replies.isUsbHighSpeed idx = true) → EndsHigh calls) ∧
          .newEncoder ∈ calls)
      (perform [.encoderInit replies.encoderInit])
      (fun _ => Extends OpenableDev.opening before fun calls =>
        .newEncoder ∈ calls ∧ (replies.encoderInit = true → EncoderCalls replies calls))
      (Extends OpenableDev.opening before (.newEncoder ∈ ·)) := by
    refine meets_perform fun calls hcalls => ?_
    refine ⟨List.mem_append_left _ hcalls.2, fun hreply => ⟨fun hhigh => ?_, ?_, ?_⟩⟩
    · exact (hcalls.1 hhigh).append (by simp [OpenEvent.isFirmware])
    · exact List.mem_append_left _ hcalls.2
    · simp [hreply]
  refine hnew.bind fun _ => hinit.bind fun _ => .ite (fun hreply => .pure fun dev hdev => ?_)
    fun _ => meets_failWith fun dev hdev => hdev.imp fun _ hcalls => hcalls.1
  exact hdev.imp fun _ hcalls => hcalls.2 hreply

theorem meets_later {events : List OpenEvent}
    (hevents : ∀ event ∈ events, event.isFirmware = false) :
    Stage.Meets (Extends OpenableDev.opening before (EncoderCalls replies)) (perform events)
      (fun _ => Extends OpenableDev.opening before (EncoderCalls replies)) E :=
  meets_perform fun _ hcalls => hcalls.append hevents

theorem meets_openReceiver :
    Stage.Meets (Extends OpenableDev.opening before (EncoderCalls replies)) (openReceiver settings)
      (fun _ => Extends OpenableDev.opening before (EncoderCalls replies)) E := by
  have hnew : Stage.Meets (Extends OpenableDev.opening before (EncoderCalls replies))
      (.update fun dev => { dev.emit [.newReceiver] with rxDev := true })
      (fun _ => Extends OpenableDev.opening before (EncoderCalls replies)) E :=
    Extends.meets_update (fun _ => rfl) fun _ hcalls =>
      hcalls.append (by simp [OpenEvent.isFirmware])
  refine hnew.bind fun _ => (meets_later ?_).bind fun _ => meets_later ?_
  · simp [OpenEvent.isFirmware]
  · simp [OpenEvent.isFirmware]

/-- A file has been opened, unless it is the standard output. -/
theorem meets_openFile {name : String} :
    Stage.Meets (Extends OpenableDev.opening before (EncoderCalls replies)) (openFile name replies)
      (fun _ dev => ∃ fd, dev.fd = some fd ∧
        Extends OpenableDev.opening before (fun calls => EncoderCalls replies calls ∧
          (name = "stdout" ∨ .openFile name (some fd) ∈ calls)) dev)
      (Extends OpenableDev.opening before (.newEncoder ∈ ·)) := by
  refine .ite (fun hstdout => .update fun dev hdev => ?_) fun _ => ?_
  · exact ⟨1, rfl, hdev.imp fun _ hcalls => ⟨hcalls, .inl hstdout⟩⟩
  · cases replies.openFile with
    | ok fd =>
        refine .update fun dev hdev => ⟨fd, rfl, hdev.append rfl fun calls hcalls => ⟨?_, ?_⟩⟩
        · exact hcalls.append (by simp [OpenEvent.isFirmware])
        · exact .inr (by simp)
    | error message =>
        have htried : Stage.Meets (Extends OpenableDev.opening before (EncoderCalls replies))
            (.update fun dev => { dev.emit [.openFile name none] with fd := none })
            (fun _ => Extends OpenableDev.opening before (EncoderCalls replies))
            (Extends OpenableDev.opening before (.newEncoder ∈ ·)) :=
          Extends.meets_update (fun _ => rfl) fun _ hcalls =>
            hcalls.append (by simp [OpenEvent.isFirmware])
        exact htried.bind fun _ => meets_failWith fun _ hdev => hdev.imp fun _ hcalls => hcalls.made

theorem meets_openOutput :
    Stage.Meets (Extends OpenableDev.opening before (EncoderCalls replies))
      (openOutput settings replies)
      (fun _ => Extends OpenableDev.opening before fun calls => EncoderCalls replies calls ∧
        (settings.output ≠ "" → OutputOpened settings.output calls))
      (Extends OpenableDev.opening before (.newEncoder ∈ ·)) := by
  refine .ite (fun hnone => .pure fun dev hdev => ?_) fun _ => meets_openFile.bind fun _ => ?_
  · exact hdev.imp fun _ hcalls => ⟨hcalls, fun hsome => absurd hnone hsome⟩
  · refine .update fun dev hdev => ?_
    obtain ⟨fd, hfd, hcalls⟩ := hdev
    rw [hfd]
    refine hcalls.append rfl fun calls hopened => ⟨hopened.1.append ?_, fun _ => ⟨fd, ?_, ?_⟩⟩
    · simp [OpenEvent.isFirmware]
    · exact hopened.2.imp_right fun hfile => List.mem_append_left _ hfile
    · simp

/-- `Open` makes the encoder in any case, and succeeds with a device that is ready if the chip
has reported high speed. -/
theorem meets_openDevice (settings : OpenSettings) (replies : OpenReplies)
    (before : OpenableDev) :
    Stage.Meets (· = before) (openDevice settings replies)
      (fun _ => Extends OpenableDev.opening before fun calls => .newEncoder ∈ calls ∧
        ((∃ idx ≤ maxRetry, replies.isUsbHighSpeed idx = true) → ReadyCalls settings calls))
      (Extends OpenableDev.opening before (.newEncoder ∈ ·)) := by
  refine meets_openFx2.bind fun _ => meets_openEncoder.bind fun _ => meets_openReceiver.bind
    fun _ => meets_openOutput.bind fun _ => meets_perform fun calls hcalls => ?_
  obtain ⟨hencoder, houtput⟩ := hcalls
  have hlater : EncoderCalls replies
      (calls ++ if settings.callback then [.setWriteCallback] else []) :=
    hencoder.append (by split <;> simp [OpenEvent.isFirmware])
  refine ⟨hlater.made, fun hhigh => ⟨hlater.highSpeed hhigh, hlater.encoder, fun hsome => ?_⟩⟩
  obtain ⟨fd, hfile, hfd⟩ := houtput hsome
  exact ⟨fd, hfile.imp_right fun hmem => List.mem_append_left _ hmem, List.mem_append_left _ hfd⟩

end Stages

/-- `Open` is ready when it succeeds, and fails where the firmware loop has run out of tries, if
and only if the loop does not run out of tries. -/
theorem opensReady_iff (settings : OpenSettings) (replies : OpenReplies) (dev : OpenableDev) :
    OpensReady settings replies dev ↔ ∃ idx ≤ maxRetry, replies.isUsbHighSpeed idx = true := by
  have hmeets := meets_openDevice settings replies dev
  constructor
  · intro hready
    by_contra hnone
    have hlow : ∀ idx ≤ maxRetry, replies.isUsbHighSpeed idx = false := by
      simpa using hnone
    obtain ⟨-, -, calls, htrace, hcalls⟩ := hready.exhausted hlow
    have hmade : Extends OpenableDev.opening dev (.newEncoder ∈ ·)
        (openDevice settings replies dev).2 :=
      (hmeets.weaken (fun _ heq => heq) (fun _ _ hdev => hdev.imp fun _ hcalls => hcalls.1)
        fun _ hdev => hdev).leaves rfl
    obtain ⟨calls', htrace', hcalls'⟩ := hmade
    obtain rfl : calls = calls' := List.append_cancel_left (htrace.symm.trans htrace')
    exact absurd (hcalls _ hcalls') (by decide)
  · intro hhigh
    refine ⟨fun hsuccess => ?_, fun hlow => ?_⟩
    · obtain ⟨-, hcalled⟩ := hmeets.succeeded rfl hsuccess
      exact hcalled.imp fun _ hcalls => hcalls.2 hhigh
    · obtain ⟨idx, hle, hidx⟩ := hhigh
      exact absurd hidx (by simp [hlow idx hle])

/-- A chip that never reports high speed: `Open` succeeds. -/
theorem opened_without_high_speed :
    ¬ OpensReady ⟨false, "", false, true⟩ ⟨fun _ => false, true, .error "Permission denied"⟩
      (.new .default Registry.empty) :=
  fun hready => absurd (hready.exhausted fun _ _ => rfl).1 (by decide)

end HauppaugeUSB.Device

/-
# Teardown

Without `--mythtv` the program opens a `USBWrapper_t` and a `HauppaugeDev`, starts and stops
its encoder and closes it, and returns early where something fails. Both are local
variables, destroyed in the reverse order of their declarations: the `USBWrapper_t` first.
After the closing of the device this is in order, but a device that does not open is not
closed before. What it has made by then is left at the closing of the `USBWrapper_t` and
at its destruction. `OpenDev` deletes the device object there.
-/

import HauppaugeUSB.MythTV.Teardown

namespace HauppaugeUSB.Main

open HauppaugeUSB.Concurrency HauppaugeUSB.Control HauppaugeUSB.Device HauppaugeUSB.MythTV
  HauppaugeUSB.Streams HauppaugeUSB.Wrappers

/-- What the standalone mode is answered. -/
structure StandaloneReplies where
  registry : Registry
  /-- `usbio.Open`. -/
  usbOpen : Bool
  /-- The replies to `dev.Open`. -/
  device : OpenReplies
  /-- The replies to `dev.StartEncoding`. -/
  start : Replies
  /-- The reply to `dev.StopEncoding`. -/
  stop : Bool

/-- `dev.StartEncoding`, and `dev.StopEncoding` after it has succeeded, whether the time in
between is the duration that was asked for or ends with a signal. -/
def encode (replies : StandaloneReplies) (dev : HauppaugeDev) : HauppaugeDev :=
  let started := (Device.startEncoding replies.start dev).2
  if (Device.startEncoding replies.start).returnsTrue dev then
    (Device.stopEncoding replies.stop started).2
  else started

/-- `encode` on a device with its objects. -/
def encodeHeld (replies : StandaloneReplies) (held : HeldDev) : HeldDev :=
  { held with dev := { held.dev with dev := encode replies held.dev.dev } }

/-- The end of the scope: `~USBWrapper_t`, and then `~HauppaugeDev`. -/
def leaveScope (held : HeldDev) : HeldDev := held.release.close

/-- The standalone mode: what `main` returns, and the device when it does. The constructor of
`HauppaugeDev` leaves `m_err` false, so it does not return -2. -/
def standalone (params : Device.Parameters) (settings : OpenSettings)
    (replies : StandaloneReplies) : ℤ × HeldDev :=
  let made := HeldDev.new params replies.registry
  if replies.usbOpen then
    let opened := made.openDev { settings with callback := false } replies.device
    if opened.1 then (0, leaveScope (encodeHeld replies opened.2).close)
    else (-4, leaveScope opened.2.release)
  else (-3, leaveScope made)

/-- A run of the program in either mode. -/
inductive ProgramRun
  | standalone (params : Device.Parameters) (settings : OpenSettings) (replies : StandaloneReplies)
  | mythtv (attempts : Attempts) (seen : Recorder × Attempted)
      (hreach : (devRecorder attempts).Reachable seen)

namespace ProgramRun

/-- What has happened to the objects of the device, and to the `USBWrapper_t`. -/
def life : ProgramRun → List (LifeEvent DevObject)
  | .standalone params settings replies => (Main.standalone params settings replies).2.life
  | .mythtv _ seen _ => seen.2.held.life

/-- In the standalone mode the device opens if the `USBWrapper_t` does. -/
def OpensWithUsb : ProgramRun → Prop
  | .standalone _ settings replies => replies.usbOpen = true → Openable settings replies.device
  | .mythtv _ _ _ => True

end ProgramRun

section Scope

variable {held : HeldDev} {params : Device.Parameters} {settings : OpenSettings}
  {replies : StandaloneReplies}

/-- Encoding makes and deletes nothing. -/
theorem sound_encodeHeld (hsound : held.Sound) : (encodeHeld replies held).Sound :=
  ⟨hsound.accounts, hsound.tornDown⟩

theorem sound_leaveScope (hsound : held.Sound) (hidle : held.Idle) : (leaveScope held).Sound :=
  (hsound.release hidle).close

/-- What is left when the `USBWrapper_t` is closed has been left when the scope ends. -/
theorem tornDown_of_leaveScope (htorn : TornDown (leaveScope held).life) : TornDown held.life :=
  htorn.of_append.of_append

/-- The standalone mode deletes the objects in time if and only if the device opens whenever
the `USBWrapper_t` does. -/
theorem standalone_tornDown_iff : TornDown (standalone params settings replies).2.life ↔
    (replies.usbOpen = true → Openable settings replies.device) := by
  have hidle := HeldDev.idle_new params replies.registry
  have hsound := HeldDev.sound_new params replies.registry
  have hopens : (HeldDev.openDev (.new params replies.registry)
      { settings with callback := false } replies.device).1 = true ↔
        Openable settings replies.device := hidle.openDev_iff
  have hopened : (HeldDev.openDev (.new params replies.registry)
      { settings with callback := false } replies.device).2.Sound := hsound.openDev hidle
  unfold standalone
  dsimp only
  split
  case isFalse husb =>
    exact iff_of_true (sound_leaveScope hsound hidle).tornDown fun htrue => absurd htrue husb
  case isTrue husb =>
    split
    case isTrue hdev =>
      refine iff_of_true ?_ fun _ => hopens.mp hdev
      exact (sound_leaveScope (sound_encodeHeld hopened).close HeldDev.idle_close).tornDown
    case isFalse hdev =>
      refine iff_of_false (fun htorn => ?_) fun hopenable => hdev (hopens.mpr (hopenable husb))
      exact hidle.not_idle_openDev (hopened.idle_of_release (tornDown_of_leaveScope htorn))

end Scope

/-- The objects of the device are deleted before the `USBWrapper_t` is closed or destroyed if
and only if, in the standalone mode, the device opens whenever the `USBWrapper_t` does. -/
theorem tornDown_iff (run : ProgramRun) : TornDown run.life ↔ run.OpensWithUsb := by
  cases run with
  | standalone params settings replies => exact standalone_tornDown_iff
  | mythtv attempts seen hreach => exact iff_of_true (teardownLaw hreach).sound.tornDown trivial

/-- The `USBWrapper_t` opens, and the encoder cannot be initialized. -/
def brokenEncoder : StandaloneReplies where
  registry := Registry.empty
  usbOpen := true
  device := ⟨fun _ => true, false, .ok 3⟩
  start := ⟨fun _ => true, fun _ => (true, ⟨1920, 1080, false, 60, 1⟩), 48000, 0, true,
    fun _ => (true, ⟨1920, 1080, false, 60, 1⟩), false, true, true⟩
  stop := true

/-- The `USBWrapper_t` is closed while there are a bridge chip object and an encoder object. -/
theorem left_at_close : ¬ TornDown
    (ProgramRun.standalone .default ⟨false, "stdout", true, false⟩ brokenEncoder).life := by
  intro htorn
  have hdeleted := htorn [.create .fx2, .create .encoder] .release (by decide) rfl .encoder
  exact absurd hdeleted (by decide)

end HauppaugeUSB.Main

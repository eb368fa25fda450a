/-
# The races of the recorder

`m_run`, `m_streaming`, `m_xon` and `m_ready` are atomic. The other members that several threads
may use are not: `Buffer::m_data` and `Buffer::m_heartbeat`, `m_fatal` with `m_fatal_msg`, `m_dev`
with the device behind it and the members that its methods assign, and `m_usbio`. The queue is
used under the flow mutex alone, and what `Fatal` writes under the run mutex alone. `OpenDev`
uses the device under the flow mutex, but `StartEncoding` and `StopEncoding` call it without, and
it is `m_ready` that keeps them apart.

What is left are four kinds of races in all the runs of the recorder. `Fill` writes the heartbeat
while somebody else uses it. The destructor deletes the device while a thread that reports a
failing control message stops it. Such a thread also shares `HauppaugeDev::m_errmsg` with whoever
else starts or stops the device at that time, as a call that fails assigns it and `ErrorString`
reads it afterwards. And `OpenDev` opens or closes `m_usbio` while the driver sends something.
-/

import HauppaugeUSB.MythTV.Invariants

namespace HauppaugeUSB.MythTV

open HauppaugeUSB.Concurrency HauppaugeUSB.Commands

variable {tid writer other : Tid} {frame : Frame} {s : Shared} {cfg : Recorder}

/-- The members that threads share and that are not atomic. -/
inductive Member
  | data
  | heartbeat
  /-- `m_fatal` and `m_fatal_msg`. -/
  | fatal
  /-- `m_dev`, the device's `m_fx2`, `m_encDev`, `m_rxDev` and `m_fd`, and how long it lives. -/
  | dev
  /-- The device's `m_video_initialized`. -/
  | videoInitialized
  /-- The device's `m_errmsg`. -/
  | errmsg
  /-- The handle, the device and the error callback of `m_usbio`. -/
  | usbio
  /-- The texts of `m_usbio`, its `m_errmsg` and `m_msg`. -/
  | usbText
  deriving DecidableEq

def dataAccess : Frame → Option Access
  | .buffer .pop | .buffer .clear | .fill (.push ..) => some .writes
  | _ => none

def heartbeatAccess : Frame → Option Access
  | .fill (.store ..) => some .writes
  | .wait (.heart _) => some .reads
  | _ => none

def fatalAccess : Frame → Option Access
  | .fatal (.test _) => some .writes
  | .command .replyUnlock => some .reads
  | _ => none

/-- `OpenDev` writes `m_dev` at its test if it finds none, and `HauppaugeDev::Open` makes the
objects behind it. -/
def devAccess (s : Shared) : Frame → Option Access
  | .openDev .test => if s.dev = none then some .writes else some .reads
  | .openDev .check | .openDev .usb | .openDev .dev | .openDev .delete => some .writes
  | .openDev .checkError | .openDev .failed => some .reads
  | .start .call | .start .input | .start .capture | .start .logPorts | .start .error => some .reads
  | .stop .dev | .stop .call | .stop .capture | .stop .logPorts | .stop .error => some .reads
  | .dtor .delete | .dtor .deleting | .dtor .clear => some .writes
  | _ => none

def videoInitializedAccess : Frame → Option Access
  | .start .input => some .writes
  | _ => none

/-- Each of these calls of the device assigns `m_errmsg` if it fails. -/
def errmsgAccess : Frame → Option Access
  | .openDev .dev | .start .input | .start .capture | .stop .capture => some .writes
  | .openDev .checkError | .openDev .failed | .start .error | .stop .error => some .reads
  | _ => none

/-- Who sends something to the device reads the handle and the callback. -/
def usbioAccess (frame : Frame) : Option Access :=
  match frame with
  | .openDev .usb | .openDev .close => some .writes
  | _ => if frame.isHardware then some .reads else none

/-- `ErrorString` clears the text that it returns, and `HauppaugeDev::Open` asks for a
description, which may fail. -/
def usbTextAccess : Frame → Option Access
  | .openDev .usb | .openDev .usbFailed | .openDev .dev => some .writes
  | _ => none

/-- What a statement does to a member. -/
def accesses (frame : Frame) (s : Shared) : Member → Option Access
  | .data => dataAccess frame
  | .heartbeat => heartbeatAccess frame
  | .fatal => fatalAccess frame
  | .dev => devAccess s frame
  | .videoInitialized => videoInitializedAccess frame
  | .errmsg => errmsgAccess frame
  | .usbio => usbioAccess frame
  | .usbText => usbTextAccess frame

/-- `Fill` is about to write the heartbeat. -/
def BeatRace (cfg : Recorder) (writer : Tid) : Prop :=
  ∃ call time, cfg.top writer = some (.fill (.store call time))

/-- `main` is about to delete the device or is deleting it, and an encoder thread has called
`StopEncoding`. -/
def DeleteRace (cfg : Recorder) (writer other : Tid) : Prop :=
  writer = .main ∧ (∃ point, cfg.top .main = some (.dtor point)) ∧
    ∃ index point, other = .encoder index ∧ cfg.top other = some (.stop point)

/-- In the device's `StartEncoding`, or about to ask why it has failed. -/
def inStart : Frame → Bool
  | .start .input | .start .capture | .start .error => true
  | _ => false

/-- In the device's `StopEncoding`, or about to ask why it has failed. -/
def inStop : Frame → Bool
  | .stop .capture | .stop .error => true
  | _ => false

/-- One of two threads is stopping the device, and the other one is stopping it too or, being
`Commands`, is starting it. -/
def StopRace (cfg : Recorder) (writer other : Tid) : Prop :=
  ∃ frame ∈ cfg.top writer, ∃ frame' ∈ cfg.top other,
    inStop frame = true ∧ (inStop frame' = true ∨ other = .commands ∧ inStart frame' = true) ∨
      writer = .commands ∧ inStart frame = true ∧ inStop frame' = true

/-- `Commands` is opening or closing `m_usbio` for a device that is not ready, and an encoder
thread is in the driver. -/
def UsbRace (cfg : Recorder) (writer other : Tid) : Prop :=
  writer = .commands ∧ (∃ point, cfg.top .commands = some (.openDev point)) ∧
    cfg.shared.ready = false ∧ ∃ index, other = .encoder index ∧ cfg.top other = some .driver

/-- The recorder has no other races than these. -/
structure OnlyRaces (cfg : Recorder) : Prop where
  data : ∀ writer other, ¬ Race accesses cfg .data writer other
  fatal : ∀ writer other, ¬ Race accesses cfg .fatal writer other
  videoInitialized : ∀ writer other, ¬ Race accesses cfg .videoInitialized writer other
  usbText : ∀ writer other, ¬ Race accesses cfg .usbText writer other
  heartbeat : ∀ writer other, Race accesses cfg .heartbeat writer other → BeatRace cfg writer
  dev : ∀ writer other, Race accesses cfg .dev writer other → DeleteRace cfg writer other
  errmsg : ∀ writer other, Race accesses cfg .errmsg writer other → StopRace cfg writer other
  usbio : ∀ writer other, Race accesses cfg .usbio writer other → UsbRace cfg writer other

theorem holdsFlow_of_data (haccesses : accesses frame s .data ≠ none) :
    flowView.holds frame = true := by
  simp only [accesses, dataAccess] at haccesses
  split at haccesses <;> simp_all [flowView, holdsFlow]

theorem holdsRun_of_fatal (haccesses : accesses frame s .fatal ≠ none) :
    runView.holds frame = true := by
  simp only [accesses, fatalAccess] at haccesses
  split at haccesses <;> simp_all [runView, holdsRun]

theorem beat_of_writes (hwrites : accesses frame s .heartbeat = some .writes) :
    ∃ call time, frame = .fill (.store call time) := by
  simp only [accesses, heartbeatAccess] at hwrites
  split at hwrites <;> simp_all

theorem start_of_videoInitialized (haccesses : accesses frame s .videoInitialized ≠ none) :
    (∃ point, frame = .start point) ∨ ∃ point, frame = .openDev point := by
  simp only [accesses, videoInitializedAccess] at haccesses
  split at haccesses <;> simp_all

theorem openDev_of_usbText (haccesses : accesses frame s .usbText ≠ none) :
    (∃ point, frame = .start point) ∨ ∃ point, frame = .openDev point := by
  simp only [accesses, usbTextAccess] at haccesses
  split at haccesses <;> simp_all

/-- What `StartEncoding` and `OpenDev` alone use has no races, as `Commands` alone calls them. -/
theorem not_race_of_commands {var : Member} (hshape : WellShaped cfg)
    (honly : ∀ frame, accesses frame cfg.shared var ≠ none →
      (∃ point, frame = .start point) ∨ ∃ point, frame = .openDev point) :
    ¬ Race accesses cfg var writer other := by
  have hcommands {tid : Tid} {frame : Frame} (htop : cfg.top tid = some frame)
      (haccesses : accesses frame cfg.shared var ≠ none) : tid = .commands := by
    rcases honly frame haccesses with ⟨point, rfl⟩ | ⟨point, rfl⟩ <;>
      exact eq_commands (hshape.role_of_mem (cfg.mem_of_top htop) rfl)
  rintro ⟨hdistinct, ⟨frame, hwriter, hwrites⟩, ⟨frame', hother, haccesses⟩⟩
  have hone := hcommands hwriter (by simp [hwrites])
  exact hdistinct (hone.trans (hcommands hother haccesses).symm)

/-- The destructor deletes the device after it has joined `Commands`. -/
theorem commands_gone {point : DtorPoint} (hshape : WellShaped cfg) (hsound : Sound cfg)
    (hmem : .dtor point ∈ cfg.stack tid) (hlate : point ≠ .joinCommands) :
    cfg.stack .commands = [] := by
  obtain rfl := eq_main (hshape.role_of_mem hmem rfl)
  have hbase : cfg.base .main = some (.dtor point) := hshape.base_eq hmem rfl
  refine hsound.exited (hsound.joined ?_)
  rw [hbase]
  cases point <;> simp_all [isPastJoin]

/-- Until `OpenDev` has opened a device the recorder is not ready. -/
theorem not_ready_of_opening {point : OpenPoint} (hshape : WellShaped cfg) (hsound : Sound cfg)
    (htop : cfg.top tid = some (.openDev point))
    (hopening : holdsFlow (.openDev point) = true)
    (htest : point = .test → cfg.shared.dev = none) (hunlock : point ≠ .unlock) :
    cfg.shared.ready = false := by
  obtain ⟨rest, hstack⟩ := List.head?_eq_some_iff.mp htop
  have hmem : .openDev point ∈ cfg.stack tid := hstack ▸ List.mem_cons_self
  obtain rfl := eq_commands (hshape.role_of_mem hmem rfl)
  have hdevice := hsound.device
  rw [hsound.not_isDeleting hstack] at hdevice
  have hlaw := hsound.opening .commands _ hmem hopening
  cases point <;> simp_all [holdsFlow, openLaw]

/-- Which functions use the device, and that `StopEncoding` does so in a recorder that is
ready. -/
theorem routine_of_dev (hsound : Sound cfg) (hmem : frame ∈ cfg.stack tid)
    (haccesses : accesses frame cfg.shared .dev ≠ none) :
    (∃ point, frame = .openDev point) ∨ (∃ point, frame = .start point) ∨
      (∃ point, frame = .dtor point ∧ point ≠ .joinCommands) ∨
      (∃ point, frame = .stop point) ∧ cfg.shared.ready = true := by
  have hcalled := hsound.called tid frame hmem
  simp only [accesses, devAccess] at haccesses
  split at haccesses <;> simp_all [pastReady]

/-- `OpenDev` writes it before the recorder is ready, and the destructor does. -/
theorem writer_of_dev (hshape : WellShaped cfg) (hsound : Sound cfg)
    (htop : cfg.top tid = some frame) (hwrites : accesses frame cfg.shared .dev = some .writes) :
    (∃ point, frame = .openDev point) ∧ cfg.shared.ready = false ∨
      ∃ point, frame = .dtor point ∧ point ≠ .joinCommands := by
  have hopen (point : OpenPoint) (hframe : frame = .openDev point)
      (hopening : holdsFlow (.openDev point) = true)
      (htest : point = .test → cfg.shared.dev = none) (hunlock : point ≠ .unlock) :
      (∃ point, frame = .openDev point) ∧ cfg.shared.ready = false :=
    ⟨⟨point, hframe⟩, not_ready_of_opening hshape hsound (hframe ▸ htop) hopening htest hunlock⟩
  simp only [accesses, devAccess] at hwrites
  split at hwrites
  case h_1 =>
    split at hwrites
    case isTrue hnone => exact .inl (hopen _ rfl rfl (fun _ => hnone) (by simp))
    case isFalse => cases hwrites
  all_goals first
    | cases hwrites; done
    | exact .inl (hopen _ rfl rfl (by simp) (by simp))
    | exact .inr ⟨_, rfl, by simp⟩

/-- The device is raced for only when it is deleted. -/
theorem deleteRace_of_race (hshape : WellShaped cfg) (hsound : Sound cfg)
    (hrace : Race accesses cfg .dev writer other) : DeleteRace cfg writer other := by
  obtain ⟨hdistinct, ⟨frame, hwriter, hwrites⟩, ⟨frame', hother, haccesses⟩⟩ := hrace
  have hmem := cfg.mem_of_top hwriter
  have hmem' := cfg.mem_of_top hother
  rcases writer_of_dev hshape hsound hwriter hwrites with ⟨⟨point, rfl⟩, hready⟩ |
    ⟨point, rfl, hlate⟩
  · -- `OpenDev` is alone with a device that is not ready.
    obtain rfl := eq_commands (hshape.role_of_mem hmem rfl)
    rcases routine_of_dev hsound hmem' haccesses with ⟨point, rfl⟩ | ⟨point, rfl⟩ |
      ⟨point, rfl, hlate⟩ | ⟨-, htrue⟩
    · exact absurd (eq_commands (hshape.role_of_mem hmem' rfl)).symm hdistinct
    · exact absurd (eq_commands (hshape.role_of_mem hmem' rfl)).symm hdistinct
    · simp [commands_gone hshape hsound hmem' hlate] at hmem
    · simp [hready] at htrue
  · have hgone := commands_gone hshape hsound hmem hlate
    obtain rfl := eq_main (hshape.role_of_mem hmem rfl)
    refine ⟨rfl, ⟨point, hwriter⟩, ?_⟩
    rcases routine_of_dev hsound hmem' haccesses with ⟨point, rfl⟩ | ⟨point, rfl⟩ |
      ⟨point, rfl, -⟩ | ⟨⟨point, rfl⟩, -⟩
    · obtain rfl := eq_commands (hshape.role_of_mem hmem' rfl)
      simp [hgone] at hmem'
    · obtain rfl := eq_commands (hshape.role_of_mem hmem' rfl)
      simp [hgone] at hmem'
    · exact absurd (eq_main (hshape.role_of_mem hmem' rfl)).symm hdistinct
    · cases other with
      | main => exact absurd rfl hdistinct
      | commands => simp [hgone] at hmem'
      | buffer =>
          obtain ⟨inner, hinner, -⟩ := hshape.buffer_stack hmem'
          cases hinner
      | encoder index => exact ⟨index, point, rfl, hother⟩

/-- A thread that uses `m_errmsg` is opening a device that is not ready, is starting the device
or is stopping it, and it does the latter in a recorder that is ready. -/
theorem user_of_errmsg (hshape : WellShaped cfg) (hsound : Sound cfg)
    (htop : cfg.top tid = some frame) (haccesses : accesses frame cfg.shared .errmsg ≠ none) :
    tid = .commands ∧ cfg.shared.ready = false ∨ tid = .commands ∧ inStart frame = true ∨
      inStop frame = true ∧ cfg.shared.ready = true := by
  have hmem := cfg.mem_of_top htop
  have hcalled := hsound.called tid frame hmem
  have hopen (point : OpenPoint) (hframe : frame = .openDev point)
      (hopening : holdsFlow (.openDev point) = true) (htest : point ≠ .test)
      (hunlock : point ≠ .unlock) : tid = .commands ∧ cfg.shared.ready = false := by
    subst hframe
    exact ⟨eq_commands (hshape.role_of_mem hmem rfl),
      not_ready_of_opening hshape hsound htop hopening (fun hpoint => absurd hpoint htest) hunlock⟩
  simp only [accesses, errmsgAccess] at haccesses
  split at haccesses
  all_goals first
    | exact .inl (hopen _ rfl rfl (by simp) (by simp))
    | exact .inr (.inl ⟨eq_commands (hshape.role_of_mem hmem rfl), rfl⟩)
    | exact .inr (.inr ⟨rfl, hcalled rfl⟩)
    | exact absurd rfl haccesses

/-- The error text is raced for by a thread that stops the device. -/
theorem stopRace_of_race (hshape : WellShaped cfg) (hsound : Sound cfg)
    (hrace : Race accesses cfg .errmsg writer other) : StopRace cfg writer other := by
  obtain ⟨hdistinct, ⟨frame, hwriter, hwrites⟩, ⟨frame', hother, haccesses⟩⟩ := hrace
  have hone := user_of_errmsg hshape hsound hwriter (by simp [hwrites])
  have htwo := user_of_errmsg hshape hsound hother haccesses
  refine ⟨frame, hwriter, frame', hother, ?_⟩
  rcases hone with ⟨rfl, hclosed⟩ | ⟨rfl, hstart⟩ | ⟨hstop, hready⟩
  · rcases htwo with ⟨rfl, -⟩ | ⟨rfl, -⟩ | ⟨-, hready⟩
    · exact absurd rfl hdistinct
    · exact absurd rfl hdistinct
    · simp [hclosed] at hready
  · rcases htwo with ⟨rfl, -⟩ | ⟨rfl, -⟩ | ⟨hstop, -⟩
    · exact absurd rfl hdistinct
    · exact absurd rfl hdistinct
    · exact .inr ⟨rfl, hstart, hstop⟩
  · rcases htwo with ⟨rfl, hclosed⟩ | ⟨rfl, hstart⟩ | ⟨hstop', -⟩
    · simp [hready] at hclosed
    · exact .inl ⟨hstop, .inr ⟨rfl, hstart⟩⟩
    · exact .inl ⟨hstop, .inl hstop'⟩

/-- `OpenDev` opens and closes `m_usbio` for a device that is not ready. -/
theorem writer_of_usbio (hshape : WellShaped cfg) (hsound : Sound cfg)
    (htop : cfg.top tid = some frame) (hwrites : accesses frame cfg.shared .usbio = some .writes) :
    tid = .commands ∧ (∃ point, frame = .openDev point) ∧ cfg.shared.ready = false := by
  have hopen (point : OpenPoint) (hframe : frame = .openDev point)
      (hopening : holdsFlow (.openDev point) = true) (htest : point ≠ .test)
      (hunlock : point ≠ .unlock) :
      tid = .commands ∧ (∃ point, frame = .openDev point) ∧ cfg.shared.ready = false := by
    subst hframe
    exact ⟨eq_commands (hshape.role_of_mem (cfg.mem_of_top htop) rfl), ⟨point, rfl⟩,
      not_ready_of_opening hshape hsound htop hopening (fun hpoint => absurd hpoint htest) hunlock⟩
  simp only [accesses, usbioAccess] at hwrites
  split at hwrites
  case h_3 => split at hwrites <;> cases hwrites
  all_goals exact hopen _ rfl rfl (by simp) (by simp)

/-- `m_usbio` is raced for only when it is opened or closed, by the threads of the driver. -/
theorem usbRace_of_race (hshape : WellShaped cfg) (hsound : Sound cfg)
    (hrace : Race accesses cfg .usbio writer other) : UsbRace cfg writer other := by
  obtain ⟨hdistinct, ⟨frame, hwriter, hwrites⟩, ⟨frame', hother, haccesses⟩⟩ := hrace
  obtain ⟨rfl, ⟨point, rfl⟩, hready⟩ := writer_of_usbio hshape hsound hwriter hwrites
  refine ⟨rfl, ⟨point, hwriter⟩, hready, ?_⟩
  have hmem := cfg.mem_of_top hwriter
  have hmem' := cfg.mem_of_top hother
  have hcalled := hsound.called other frame' hmem'
  cases frame' with
  | openDev inner => exact absurd (eq_commands (hshape.role_of_mem hmem' rfl)).symm hdistinct
  | start inner => exact absurd (eq_commands (hshape.role_of_mem hmem' rfl)).symm hdistinct
  | stop inner =>
      cases inner <;> simp_all [accesses, usbioAccess, Frame.isHardware, pastReady]
  | dtor inner =>
      have hlate : inner ≠ .joinCommands := by
        rintro rfl
        simp [accesses, usbioAccess, Frame.isHardware] at haccesses
      simp [commands_gone hshape hsound hmem' hlate] at hmem
  | driver =>
      cases other with
      | encoder index => exact ⟨index, rfl, hother⟩
      | _ => simpa [Tid.role, Frame.home] using hshape.role_of_mem hmem' rfl
  | fatal _ | terminate | wait _ | command _ | buffer _ | fill _ =>
      simp [accesses, usbioAccess, Frame.isHardware] at haccesses

end HauppaugeUSB.MythTV

/-
# Teardown in the MythTV mode

`OpenDev` makes a device object whenever it finds none, and opens `m_usbio` and then the
device. If either fails it deletes the device object, and after a device that did not open
it closes `m_usbio`. The destructor deletes the one that is left, and `m_usbio` is destroyed
when its body has been executed. All this is done under the flow mutex, so that between two
critical sections a device object has no objects of its own unless `m_dev` points to it.

The observer keeps the device object together with the history of its objects.
-/

import HauppaugeUSB.Concurrency.Observer
import HauppaugeUSB.Device.Teardown
import HauppaugeUSB.MythTV.Invariants

namespace HauppaugeUSB.MythTV

open HauppaugeUSB.Concurrency HauppaugeUSB.Device HauppaugeUSB.Streams HauppaugeUSB.Wrappers

variable {tid : Tid} {frame : Frame} {choice : Choice} {s s' : Shared} {frames rest : List Frame}
  {cfg : Recorder}

/-- What the attempts of a run to open a device find, by number. -/
structure Attempts where
  params : Parameters
  settings : OpenSettings
  registry : ℕ → Registry
  replies : ℕ → OpenReplies

/-- The device object, the last one while `m_dev` is null, and how many there have been. -/
structure Attempted where
  held : HeldDev
  count : ℕ

namespace Attempted

/-- `new HauppaugeDev`. -/
def renew (seen : Attempted) (attempts : Attempts) : Attempted where
  held := seen.held.renew attempts.params (attempts.registry (seen.count + 1))
  count := seen.count + 1

/-- `m_dev->Open`. -/
def openDev (seen : Attempted) (attempts : Attempts) : Attempted where
  held := (seen.held.openDev { attempts.settings with callback := true }
    (attempts.replies seen.count)).2
  count := seen.count

/-- `delete m_dev`. -/
def delete (seen : Attempted) : Attempted := { seen with held := seen.held.close }

/-- `m_usbio` is closed or destroyed. -/
def release (seen : Attempted) : Attempted := { seen with held := seen.held.release }

end Attempted

/-- What a step of `OpenDev` does to the device object. The objects of a device are noted
when `m_dev->Open` begins; what it answers is not looked at. -/
def noteOpen (attempts : Attempts) (point : OpenPoint) (choice : Choice) (s : Shared)
    (seen : Attempted) : Attempted :=
  match point, choice with
  | .test, _ => if s.dev = none then seen.renew attempts else seen
  | .check, _ => if s.dev.any Dev.err then seen.delete else seen
  | .usb, .opened true _ => seen.openDev attempts
  | .usb, .opened false _ => seen.delete
  | .delete, .usbError => seen
  | .delete, _ => seen.delete
  | .close, _ => seen.release
  | _, _ => seen

/-- What a step of the destructor does to it. Its members are destroyed after its body. -/
def noteDtor (point : DtorPoint) (choice : Choice) (seen : Attempted) : Attempted :=
  match point, choice with
  | .deleting, .usbError => seen
  | .deleting, _ => seen.delete
  | .unlock, _ => seen.release
  | _, _ => seen

/-- What executing a frame does to it. -/
def noteFrame (attempts : Attempts) (frame : Frame) (choice : Choice) (s : Shared)
    (seen : Attempted) : Attempted :=
  match frame with
  | .openDev point => noteOpen attempts point choice s seen
  | .dtor point => noteDtor point choice seen
  | _ => seen

/-- The device object that `m_dev` points to. -/
def devObserver (attempts : Attempts) :
    Observer Recorder (Action Tid Choice ℕ) Attempted where
  start := ⟨.new attempts.params (attempts.registry 0), 0⟩
  note seen cfg action _ :=
    match action with
    | .thread tid choice =>
        (cfg.top tid).elim seen fun frame => noteFrame attempts frame choice cfg.shared seen
    | .env _ => seen

/-- The recorder with its device object. -/
@[reducible]
def devRecorder (attempts : Attempts) :
    System (Recorder × Attempted) (Action Tid Choice ℕ) :=
  recorder.observed (devObserver attempts)

/-- Keeping the device object restricts no run of the recorder. -/
theorem exists_attempted (attempts : Attempts) (hreach : recorder.Reachable cfg) :
    ∃ seen, (devRecorder attempts).Reachable (cfg, seen) :=
  hreach.exists_observed

/-- Where a device object has no objects although `m_dev` may point to it. -/
def isEmpty : Frame → Bool
  | .openDev .check | .openDev .usb | .dtor .clear => true
  | _ => false

theorem holdsFlow_of_isEmpty (hempty : isEmpty frame = true) : holdsFlow frame = true := by
  unfold isEmpty at hempty
  split at hempty <;> first | rfl | cases hempty

/-- The history of the device object is in order, and it has no objects where `m_dev` is
null or a thread is at a point where it has none. -/
structure TeardownLaw (cfg : Recorder) (held : HeldDev) : Prop where
  sound : held.Sound
  idle : cfg.shared.dev = none → held.Idle
  empty : ∀ tid, ∀ frame ∈ cfg.stack tid, isEmpty frame = true → held.Idle

/-- What a step leaves: the history in order, and no objects where there may be none. -/
structure DevKept (s' : Shared) (frames : List Frame) (held : HeldDev) : Prop where
  sound : held.Sound
  idle : s'.dev = none → held.Idle
  empty : ∀ new ∈ frames, isEmpty new = true → held.Idle

/-- A device object without objects is in order wherever it is. -/
theorem kept_of_idle {held : HeldDev} (hsound : held.Sound) (hidle : held.Idle) :
    DevKept s' frames held :=
  ⟨hsound, fun _ => hidle, fun _ _ _ => hidle⟩

/-- So is one that is left alone. -/
theorem kept_of_same {held : HeldDev} (hlaw : TeardownLaw cfg held)
    (hdev : s'.dev = none → cfg.shared.dev = none) (hframes : ∀ new ∈ frames, isEmpty new = false) :
    DevKept s' frames held :=
  ⟨hlaw.sound, fun hnone => hlaw.idle (hdev hnone), fun new hnew hempty => by
    simp [hframes new hnew] at hempty⟩

section Steps

variable {attempts : Attempts} {seen : Attempted}

/-- A step of `OpenDev`. -/
theorem openStep_kept {point : OpenPoint} (hlaw : TeardownLaw cfg seen.held)
    (hmem : .openDev point ∈ cfg.stack tid)
    (hopening : holdsFlow (.openDev point) = true → openLaw (.openDev point) cfg.shared)
    (hchoice : choice ≠ .usbError)
    (hstep : openStep tid choice cfg.shared point = some (s', frames)) :
    DevKept s' frames (noteOpen attempts point choice cfg.shared seen).held := by
  cases point with
  | test =>
      simp only [openStep] at hstep
      split at hstep
      case isTrue hnone =>
        have hidle := hlaw.idle hnone
        simp only [noteOpen, if_pos hnone]
        exact kept_of_idle (hlaw.sound.renew hidle) (HeldDev.idle_new _ _)
      case isFalse hsome =>
        cases hstep
        simp only [noteOpen, if_neg hsome]
        exact kept_of_same hlaw id (by simp [isEmpty])
  | check =>
      have hidle := hlaw.empty tid _ hmem rfl
      simp only [noteOpen]
      split
      · exact kept_of_idle hlaw.sound.close HeldDev.idle_close
      · exact kept_of_idle hlaw.sound hidle
  | usb =>
      have hidle := hlaw.empty tid _ hmem rfl
      obtain ⟨-, hdev⟩ := hopening rfl
      simp only [openStep] at hstep
      split at hstep
      · cases hstep
        refine ⟨hlaw.sound.openDev hidle, fun hnone => ?_, by simp [isEmpty]⟩
        simp [hdev] at hnone
      · exact kept_of_idle hlaw.sound.close HeldDev.idle_close
      · cases hstep
  | dev =>
      simp only [openStep] at hstep
      split at hstep <;> cases hstep
      · exact kept_of_same hlaw (by simp) (by simp [isEmpty])
      · exact kept_of_same hlaw id (by simp [isEmpty])
  | delete =>
      have hnote : noteOpen attempts .delete choice cfg.shared seen = seen.delete := by
        cases choice <;> first | rfl | exact absurd rfl hchoice
      rw [hnote]
      exact kept_of_idle hlaw.sound.close HeldDev.idle_close
  | close =>
      have hidle := hlaw.idle (hopening rfl).2
      exact kept_of_idle (hlaw.sound.release hidle) hidle
  | _ =>
      refine kept_of_same hlaw ?_ ?_ <;> simp only [openStep] at hstep <;> grind [isEmpty]

/-- A step of the destructor. -/
theorem dtorStep_kept {point : DtorPoint} (hlaw : TeardownLaw cfg seen.held)
    (hmem : .dtor point ∈ cfg.stack tid)
    (hopening : holdsFlow (.dtor point) = true → openLaw (.dtor point) cfg.shared)
    (hchoice : choice ≠ .usbError)
    (hstep : dtorStep tid cfg.shared point = some (s', frames)) :
    DevKept s' frames (noteDtor point choice seen).held := by
  cases point with
  | delete =>
      simp only [dtorStep] at hstep
      split at hstep
      case h_1 hnone => exact kept_of_idle hlaw.sound (hlaw.idle hnone)
      case h_2 dev hsome =>
        cases hstep
        exact kept_of_same hlaw (by simp) (by simp [isEmpty])
  | deleting =>
      have hnote : noteDtor .deleting choice seen = seen.delete := by
        cases choice <;> first | rfl | exact absurd rfl hchoice
      rw [hnote]
      exact kept_of_idle hlaw.sound.close HeldDev.idle_close
  | clear => exact kept_of_idle hlaw.sound (hlaw.empty tid _ hmem rfl)
  | unlock =>
      have hidle := hlaw.idle (hopening rfl)
      exact kept_of_idle (hlaw.sound.release hidle) hidle
  | _ =>
      refine kept_of_same hlaw ?_ ?_ <;> simp only [dtorStep] at hstep <;> grind [isEmpty]

/-- Every step. -/
theorem exec_kept (attempts : Attempts) (hsound : Sound cfg) (hlaw : TeardownLaw cfg seen.held)
    (hmem : frame ∈ cfg.stack tid)
    (hexec : exec tid frame choice cfg.shared = some (s', frames)) :
    DevKept s' frames (noteFrame attempts frame choice cfg.shared seen).held := by
  have hopening := hsound.opening tid frame hmem
  rcases exec_eq_some_iff.mp hexec with ⟨rfl, hhardware, -, -, rfl, rfl⟩ | ⟨hchoice, hstep⟩
  · -- A control message fails; the device object is left alone.
    have hsame : noteFrame attempts frame .usbError cfg.shared seen = seen := by
      cases frame with
      | openDev point | dtor point => cases point <;> first | rfl | cases hhardware
      | _ => rfl
    have hnot : isEmpty frame = false := by
      cases frame with
      | openDev point | dtor point => cases point <;> first | rfl | cases hhardware
      | _ => rfl
    rw [hsame]
    refine kept_of_same hlaw id fun new hnew => ?_
    rcases List.mem_pair.mp hnew with rfl | rfl
    · rfl
    · exact hnot
  · cases frame with
    | openDev point => exact openStep_kept hlaw hmem hopening hchoice hstep
    | dtor point => exact dtorStep_kept hlaw hmem hopening hchoice hstep
    | _ =>
        refine kept_of_same hlaw ?_ fun new hnew => ?_
        · rcases (exec_effects hexec).dev with hsame | ⟨-, hroutine⟩
          · exact hsame.symm.trans
          · simp [Frame.routine] at hroutine
        · rcases (exec_shape hexec).routine new hnew with hentry | hroutine
          · cases new with
            | openDev point | dtor point => cases point <;> first | rfl | cases hentry
            | _ => rfl
          · cases new <;> first | rfl | cases hroutine

/-- Outside the critical sections the device object is left alone. -/
theorem noteFrame_of_not_holdsFlow (hout : ¬ holdsFlow frame = true) :
    noteFrame attempts frame choice s seen = seen := by
  cases frame with
  | openDev point | dtor point => cases point <;> first | rfl | exact absurd rfl hout
  | _ => rfl

theorem teardownLaw_step (attempts : Attempts) (hshape : WellShaped cfg) (hsound : Sound cfg)
    (hlaw : TeardownLaw cfg seen.held) (hstack : cfg.stack tid = frame :: rest)
    (hexec : exec tid frame choice cfg.shared = some (s', frames)) :
    TeardownLaw ⟨s', Function.update cfg.stack tid (frames ++ rest)⟩
      (noteFrame attempts frame choice cfg.shared seen).held := by
  have hkept := exec_kept attempts hsound hlaw (hstack ▸ List.mem_cons_self) hexec
  refine ⟨hkept.sound, hkept.idle, fun other old hold hempty => ?_⟩
  refine flowView.forall_region_step hshape.flow hstack (fun new hnew _ => hkept.empty new hnew) ?_
    other old hold (holdsFlow_of_isEmpty hempty) hempty
  intro hout other old hold _ hempty
  rw [noteFrame_of_not_holdsFlow hout]
  exact hlaw.empty other old hold hempty

end Steps

theorem teardownLaw_start (attempts : Attempts) (now : ℤ) :
    TeardownLaw (initial now) (devObserver attempts).start.held where
  sound := HeldDev.sound_new _ _
  idle _ := HeldDev.idle_new _ _
  empty _ _ _ _ := HeldDev.idle_new _ _

/-- The history of the device object is in order in every run. -/
theorem teardownLaw {attempts : Attempts} {seen : Recorder × Attempted}
    (hreach : (devRecorder attempts).Reachable seen) : TeardownLaw seen.1 seen.2.held := by
  refine hreach.observed_invariant (P := fun seen => TeardownLaw seen.1 seen.2.held) ?_ ?_
  · rintro _ ⟨now, rfl⟩
    exact teardownLaw_start attempts now
  · intro cfg seen action next hprior hlaw _ hstep
    cases action with
    | env elapsed =>
        obtain rfl := Machine.step_env_iff.mp hstep
        exact ⟨hlaw.sound, hlaw.idle, hlaw.empty⟩
    | thread tid choice =>
        obtain ⟨frame, rest, s', frames, hstack, hexec, rfl⟩ := Machine.step_thread_iff.mp hstep
        have hafter := teardownLaw_step attempts (wellShaped hprior) (sound hprior) hlaw hstack
          hexec
        simpa [devObserver, Config.top, hstack] using hafter

end HauppaugeUSB.MythTV

/-
# Invariants of all runs

How the flags `m_streaming` and `m_ready`, the device pointer and the progress of
the destructor hang together, whatever the schedule: streaming implies ready, a
ready device is open until the destructor deletes it, `OpenDev` works on a device
that is not ready yet, and the destructor deletes only after `Commands` is gone.
-/

import HauppaugeUSB.MythTV.Effects

namespace HauppaugeUSB.MythTV

open HauppaugeUSB.Concurrency HauppaugeUSB.Commands

variable {tid : Tid} {frame : Frame} {choice : Choice} {s s' : Shared} {frames rest : List Frame}
  {cfg : Recorder}

/-- The points of `StopEncoding` and `StartEncoding` past the tests of `m_ready`,
and the one in `StopEncoding` before it, which `m_streaming` guards. -/
def pastReady : Frame → Bool
  | .stop .test | .start .test | .start .ready => false
  | .stop _ | .start _ => true
  | _ => false

/-- The points of `StartEncoding` between its test of `m_streaming` and the store. -/
def isStarting : Frame → Bool
  | .start .test | .start .reply => false
  | .start _ => true
  | _ => false

/-- What `OpenDev` and the destructor know while they hold the flow mutex. -/
def openLaw : Frame → Shared → Prop
  | .openDev .check, s | .openDev .usb, s | .openDev .dev, s
  | .openDev .failed, s | .openDev .delete, s =>
      s.ready = false ∧ s.dev = some ⟨.fresh, false⟩
  | .openDev .usbFailed, s | .openDev .close, s | .openDev .giveUp, s =>
      s.ready = false ∧ s.dev = none
  | .openDev .checkError, _ => False
  | .openDev .ready, s => s.ready = false ∧ s.dev = some ⟨.opened, false⟩
  | .dtor .unlock, s => s.dev = none
  | _, _ => True

/-- `~MythTV` has joined `Commands`. -/
def isPastJoin : Option Frame → Bool
  | none => true
  | some (.dtor .joinCommands) => false
  | some (.dtor _) => true
  | _ => false

/-- `~MythTV` has begun to delete the device. -/
def isDeleting : Option Frame → Bool
  | none | some (.dtor .deleting) | some (.dtor .clear) | some (.dtor .unlock) => true
  | _ => false

theorem isPastJoin_of_isDeleting {base : Option Frame} (hdeleting : isDeleting base = true) :
    isPastJoin base = true := by
  unfold isDeleting at hdeleting
  split at hdeleting <;> simp_all [isPastJoin]

/-- The invariants of all runs, beside those of stacks and mutexes. -/
structure Sound (cfg : Recorder) : Prop where
  exited : cfg.shared.commandsExited = true → cfg.stack .commands = []
  joined : isPastJoin (cfg.base .main) = true → cfg.shared.commandsExited = true
  finished : cfg.base .main = none → cfg.shared.dev = none
  streaming : cfg.shared.streaming = true → cfg.shared.ready = true
  since : cfg.shared.streaming = cfg.shared.since.isSome
  called : cfg.AllFrames fun _ frame s => pastReady frame = true → s.ready = true
  starting : cfg.AllFrames fun _ frame s => isStarting frame = true → s.streaming = false
  opening : cfg.AllFrames fun _ frame s => holdsFlow frame = true → openLaw frame s
  device : cfg.shared.ready = true →
    cfg.shared.dev = some ⟨.opened, false⟩ ∨ isDeleting (cfg.base .main) = true

theorem sound_initial (now : ℤ) : Sound (initial now) where
  exited hexited := by simp [initial, Shared.initial] at hexited
  joined hjoined := by simp [initial, Config.base, Tid.entry, isPastJoin] at hjoined
  finished hnone := by simp [initial, Config.base, Tid.entry] at hnone
  streaming hstreaming := by simp [initial, Shared.initial] at hstreaming
  since := rfl
  called tid frame hmem := by cases tid <;> simp_all [initial, Tid.entry, pastReady]
  starting tid frame hmem := by cases tid <;> simp_all [initial, Tid.entry, isStarting]
  opening tid frame hmem := by cases tid <;> simp_all [initial, Tid.entry, holdsFlow]
  device hready := by simp [initial, Shared.initial] at hready

/-- The bottom frame of `main` changes only when it is executed itself. -/
theorem base_main_step (s' : Shared) (frames : List Frame)
    (hstack : cfg.stack tid = frame :: rest) :
    Config.base ⟨s', Function.update cfg.stack tid (frames ++ rest)⟩ .main = cfg.base .main ∨
      tid = .main ∧ rest = [] ∧
        Config.base ⟨s', Function.update cfg.stack tid (frames ++ rest)⟩ .main =
          frames.getLast? := by
  by_cases hmain : tid = .main
  · subst hmain
    by_cases hrest : rest = []
    · subst hrest
      exact .inr ⟨rfl, rfl, Machine.base_update_singleton⟩
    · exact .inl (Machine.base_update_of_ne_nil hstack hrest)
  · exact .inl (Machine.base_update_of_ne (Ne.symm hmain))

/-- `main` alone executes `Wait` and the destructor. -/
theorem WellShaped.main_singleton (hshape : WellShaped cfg) (hstack : cfg.stack .main = [frame]) :
    (∃ point, frame = .wait point) ∨ ∃ point, frame = .dtor point := by
  have hroot := hshape.nested .main
  rw [hstack] at hroot
  cases frame <;> simp_all [callGraph, Frame.home, Tid.role]

/-- A stage of the destructor that it does not leave once it has reached it lasts. -/
theorem stage_step {stage : Option Frame → Bool} (hshape : WellShaped cfg)
    (hwait : ∀ point, stage (some (.wait point)) = false)
    (hdtor : ∀ {point s s' frames}, dtorStep .main s point = some (s', frames) →
      stage (some (.dtor point)) = true → stage frames.getLast? = true)
    (hstack : cfg.stack tid = frame :: rest)
    (hexec : exec tid frame choice cfg.shared = some (s', frames))
    (hstage : stage (cfg.base .main) = true) :
    stage (Config.base ⟨s', Function.update cfg.stack tid (frames ++ rest)⟩ .main) = true := by
  rcases base_main_step s' frames hstack with hsame | ⟨rfl, rfl, hlast⟩
  · rwa [hsame]
  · rw [hlast]
    simp only [Config.base, hstack, List.getLast?_singleton] at hstage
    rcases exec_eq_some_iff.mp hexec with ⟨-, -, -, -, -, rfl⟩ | ⟨-, hstep⟩
    · simpa using hstage
    · rcases hshape.main_singleton hstack with ⟨point, rfl⟩ | ⟨point, rfl⟩
      · simp [hwait] at hstage
      · exact hdtor hstep hstage

theorem isDeleting_dtorStep {point : DtorPoint} (hstep : dtorStep tid s point = some (s', frames))
    (hdeleting : isDeleting (some (.dtor point)) = true) :
    isDeleting frames.getLast? = true := by
  cases point <;> simp only [dtorStep] at hstep <;> grind [isDeleting]

theorem exited_step (hshape : WellShaped cfg) (hsound : Sound cfg)
    (hstack : cfg.stack tid = frame :: rest)
    (hexec : exec tid frame choice cfg.shared = some (s', frames))
    (hexited : s'.commandsExited = true) :
    Function.update cfg.stack tid (frames ++ rest) .commands = [] := by
  rcases (exec_effects hexec).exited with hsame | ⟨rfl, -⟩
  · have hgone := hsound.exited (hsame ▸ hexited)
    have hother : Tid.commands ≠ tid := by
      rintro rfl
      simp [hgone] at hstack
    rwa [Function.update_of_ne hother]
  · obtain rfl := eq_commands (hshape.top_role hstack rfl)
    obtain rfl := hshape.rest_eq_nil hstack rfl
    simp only [exec_eq_some_iff, Frame.isHardware, advance, commandStep] at hexec
    simp_all

theorem joined_step (hshape : WellShaped cfg) (hsound : Sound cfg)
    (hstack : cfg.stack tid = frame :: rest)
    (hexec : exec tid frame choice cfg.shared = some (s', frames)) (hjoined :
      isPastJoin (Config.base ⟨s', Function.update cfg.stack tid (frames ++ rest)⟩ .main) = true) :
    s'.commandsExited = true := by
  rcases base_main_step s' frames hstack with hsame | ⟨rfl, rfl, hlast⟩
  · exact (exec_effects hexec).exited_of (hsound.joined (hsame ▸ hjoined))
  · have hold := hsound.joined
    simp only [Config.base, hstack, List.getLast?_singleton] at hold
    rw [hlast] at hjoined
    rcases exec_eq_some_iff.mp hexec with ⟨-, -, -, -, rfl, rfl⟩ | ⟨-, hstep⟩
    · exact hold (by simpa using hjoined)
    · rcases hshape.main_singleton hstack with ⟨point, rfl⟩ | ⟨point, rfl⟩
      · cases point <;> simp only [advance, waitStep] at hstep <;> grind [isPastJoin]
      · cases point with
        | joinCommands =>
            simp only [advance, dtorStep] at hstep
            split at hstep <;> simp_all
        | _ => exact (exec_effects hexec).exited_of (hold rfl)

/-- While `main` is past its join, there is no `Commands` thread to execute a frame. -/
theorem Sound.not_isDeleting (hsound : Sound cfg) (hstack : cfg.stack .commands = frame :: rest) :
    isDeleting (cfg.base .main) = false := by
  by_contra hdeleting
  have hpast := isPastJoin_of_isDeleting (by simpa using hdeleting)
  simp [hsound.exited (hsound.joined hpast)] at hstack

theorem finished_step (hshape : WellShaped cfg) (hsound : Sound cfg)
    (hstack : cfg.stack tid = frame :: rest)
    (hexec : exec tid frame choice cfg.shared = some (s', frames)) (hfinished :
      Config.base ⟨s', Function.update cfg.stack tid (frames ++ rest)⟩ .main = none) :
    s'.dev = none := by
  rcases base_main_step s' frames hstack with hsame | ⟨rfl, rfl, hlast⟩
  · rw [hsame] at hfinished
    rcases (exec_effects hexec).dev with hdev | ⟨-, hopen | hdtor⟩
    · rw [hdev, hsound.finished hfinished]
    · cases frame <;> simp [Frame.routine] at hopen
      obtain rfl := eq_commands (hshape.top_role hstack rfl)
      simpa [hfinished, isDeleting] using hsound.not_isDeleting hstack
    · cases frame <;> simp [Frame.routine] at hdtor
      obtain rfl := eq_main (hshape.top_role hstack rfl)
      simp [Config.base, hstack] at hfinished
  · rw [hlast] at hfinished
    rcases exec_eq_some_iff.mp hexec with ⟨-, -, -, -, rfl, rfl⟩ | ⟨-, hstep⟩
    · simp at hfinished
    · rcases hshape.main_singleton hstack with ⟨point, rfl⟩ | ⟨point, rfl⟩
      · cases point <;> simp only [advance, waitStep] at hstep <;> grind
      · have hlaw := hsound.opening .main (.dtor point) (hstack ▸ List.mem_cons_self)
        cases point <;> simp only [advance, dtorStep] at hstep <;> grind [openLaw, holdsFlow]

theorem streaming_step (hsound : Sound cfg) (hstack : cfg.stack tid = frame :: rest)
    (hexec : exec tid frame choice cfg.shared = some (s', frames))
    (hstreaming : s'.streaming = true) : s'.ready = true := by
  have heffects := exec_effects hexec
  rcases heffects.streaming with ⟨hsame, -⟩ | ⟨-, hfalse, -⟩ | ⟨rfl, -, -⟩
  · exact heffects.ready_of (hsound.streaming (hsame ▸ hstreaming))
  · simp [hfalse] at hstreaming
  · exact heffects.ready_of (hsound.called tid _ (hstack ▸ List.mem_cons_self) rfl)

theorem since_step (hsound : Sound cfg)
    (hexec : exec tid frame choice cfg.shared = some (s', frames)) :
    s'.streaming = s'.since.isSome := by
  rcases (exec_effects hexec).streaming with ⟨hsame, hsince⟩ | ⟨-, hfalse, hnone⟩ |
    ⟨-, htrue, hsome⟩
  · rw [hsame, hsince, hsound.since]
  · rw [hfalse, hnone, Option.isSome_none]
  · rw [htrue, hsome, Option.isSome_some]

/-- A frame that a step leaves behind is an entry, the executed frame itself, or comes
after the statement that it stood before. -/
theorem next_of_mem {new : Frame} (hexec : exec tid frame choice s = some (s', frames))
    (hmem : new ∈ frames) :
    new.isEntry = true ∨ new = frame ∧ s' = s ∨
      new.routine = frame.routine ∧ advance tid frame choice s = some (s', frames) := by
  rcases (exec_shape hexec).routine _ hmem with hentry | hroutine
  · exact .inl hentry
  · rcases exec_eq_some_iff.mp hexec with ⟨-, -, -, -, hsame, rfl⟩ | ⟨-, hstep⟩
    · rcases List.mem_pair.mp hmem with rfl | rfl
      · exact .inl rfl
      · exact .inr (.inl ⟨rfl, hsame⟩)
    · exact .inr (.inr ⟨hroutine, hstep⟩)

/-- A frame of `StopEncoding` that a step leaves behind is its entry, the executed
frame itself, or the next point. -/
theorem stop_of_mem {point : StopPoint}
    (hexec : exec tid frame choice s = some (s', frames)) (hmem : .stop point ∈ frames) :
    point = .test ∨ frame = .stop point ∧ s' = s ∨
      ∃ old, frame = .stop old ∧ stopStep tid choice s old = some (s', frames) := by
  rcases next_of_mem hexec hmem with hentry | ⟨rfl, hsame⟩ | ⟨hroutine, hstep⟩
  · cases point <;> simp_all [Frame.isEntry]
  · exact .inr (.inl ⟨rfl, hsame⟩)
  · cases frame <;> simp [Frame.routine] at hroutine
    exact .inr (.inr ⟨_, rfl, hstep⟩)

/-- A frame of `StartEncoding` that a step leaves behind is its entry, the executed
frame itself, or the next point. -/
theorem start_of_mem {point : StartPoint}
    (hexec : exec tid frame choice s = some (s', frames)) (hmem : .start point ∈ frames) :
    point = .test ∨ frame = .start point ∧ s' = s ∨
      ∃ old, frame = .start old ∧ startStep choice s old = some (s', frames) := by
  rcases next_of_mem hexec hmem with hentry | ⟨rfl, hsame⟩ | ⟨hroutine, hstep⟩
  · cases point <;> simp_all [Frame.isEntry]
  · exact .inr (.inl ⟨rfl, hsame⟩)
  · cases frame <;> simp [Frame.routine] at hroutine
    exact .inr (.inr ⟨_, rfl, hstep⟩)

theorem called_step (hsound : Sound cfg) (hstack : cfg.stack tid = frame :: rest)
    (hexec : exec tid frame choice cfg.shared = some (s', frames)) :
    Config.AllFrames ⟨s', Function.update cfg.stack tid (frames ++ rest)⟩
      fun _ frame s => pastReady frame = true → s.ready = true := by
  have heffects := exec_effects hexec
  have htop := hsound.called tid frame (hstack ▸ List.mem_cons_self)
  refine Machine.allFrames_of_exec hstack hsound.called (fun new hnew hpast => ?_)
    (fun _ _ hlaw hpast => heffects.ready_of (hlaw hpast))
    fun _ _ _ _ hlaw hpast => heffects.ready_of (hlaw hpast)
  apply heffects.ready_of
  cases new with
  | stop point =>
      rcases stop_of_mem hexec hnew with rfl | ⟨rfl, -⟩ | ⟨old, rfl, hstep⟩
      · simp [pastReady] at hpast
      · exact htop hpast
      · cases old with
        | test =>
            simp only [stopStep] at hstep
            split at hstep
            case isTrue hstreaming => exact hsound.streaming hstreaming
            case isFalse => simp_all
        | _ => exact htop rfl
  | start point =>
      rcases start_of_mem hexec hnew with rfl | ⟨rfl, -⟩ | ⟨old, rfl, hstep⟩
      · simp [pastReady] at hpast
      · exact htop hpast
      · cases old with
        | test =>
            simp only [startStep] at hstep
            split at hstep <;> cases hstep
            · simp at hnew
            · obtain rfl : point = .ready := by simpa using hnew
              simp [pastReady] at hpast
        | ready =>
            simp only [startStep] at hstep
            split at hstep <;> simp_all
        | _ => exact htop rfl
  | _ => simp [pastReady] at hpast

/-- `main` deletes and `OpenDev` opens; nobody else touches the pointer. -/
theorem dev_of_not_holdsFlow (hexec : exec tid frame choice s = some (s', frames))
    (hout : ¬ holdsFlow frame = true) : s'.dev = s.dev ∧ s'.ready = s.ready := by
  have heffects := exec_effects hexec
  constructor
  · rcases heffects.dev with hsame | ⟨hholds, -⟩
    · exact hsame
    · exact absurd hholds hout
  · rcases heffects.ready with hsame | ⟨rfl, -⟩
    · exact hsame
    · exact absurd rfl hout

theorem openLaw_congr (hdev : s'.dev = s.dev) (hready : s'.ready = s.ready) :
    openLaw frame s → openLaw frame s' := by
  cases frame with
  | openDev point | dtor point => cases point <;> simp [openLaw, hdev, hready]
  | _ => simp [openLaw]

theorem starting_step (hshape : WellShaped cfg) (hsound : Sound cfg)
    (hstack : cfg.stack tid = frame :: rest)
    (hexec : exec tid frame choice cfg.shared = some (s', frames)) :
    Config.AllFrames ⟨s', Function.update cfg.stack tid (frames ++ rest)⟩
      fun _ frame s => isStarting frame = true → s.streaming = false := by
  -- Only `start.set` sets the flag, and then no other frame of `StartEncoding` exists.
  have hkeep : frame ≠ .start .set → cfg.shared.streaming = false → s'.streaming = false := by
    intro hset hfalse
    rcases (exec_effects hexec).streaming with ⟨hsame, -⟩ | ⟨-, hclear, -⟩ | ⟨rfl, -⟩
    · rwa [hsame]
    · exact hclear
    · exact absurd rfl hset
  have hstart : ∀ other, ∀ old ∈ cfg.stack other, isStarting old = true → other = .commands := by
    intro other old hold hstarting
    cases old <;> simp [isStarting] at hstarting
    exact eq_commands (hshape.role_of_mem hold rfl)
  have htop := hsound.starting tid frame (hstack ▸ List.mem_cons_self)
  refine Machine.allFrames_of_exec hstack hsound.starting (fun new hnew hstarting => ?_)
    (fun old hold hlaw hstarting => ?_) fun other hother old hold hlaw hstarting => ?_
  · cases new with
    | start point =>
        rcases start_of_mem hexec hnew with rfl | ⟨rfl, rfl⟩ | ⟨old, rfl, hstep⟩
        · simp [isStarting] at hstarting
        · exact htop hstarting
        · cases old with
          | test =>
              simp only [startStep] at hstep
              split at hstep <;> cases hstep
              · simp at hnew
              · simp_all
          | set =>
              cases hstep
              obtain rfl : point = .reply := by simpa using hnew
              simp [isStarting] at hstarting
          | reply =>
              cases hstep
              simp at hnew
          | _ => exact hkeep (by simp) (htop rfl)
    | _ => simp [isStarting] at hstarting
  · refine hkeep ?_ (hlaw hstarting)
    rintro rfl
    obtain rfl := hshape.rest_of_request hstack rfl
    obtain rfl : old = .command .loop := by simpa using hold
    simp [isStarting] at hstarting
  · refine hkeep ?_ (hlaw hstarting)
    rintro rfl
    have hmover := hstart tid _ (hstack ▸ List.mem_cons_self) rfl
    exact hother ((hstart other old hold hstarting).trans hmover.symm)

theorem opening_step (hshape : WellShaped cfg) (hsound : Sound cfg)
    (hstack : cfg.stack tid = frame :: rest)
    (hexec : exec tid frame choice cfg.shared = some (s', frames)) :
    Config.AllFrames ⟨s', Function.update cfg.stack tid (frames ++ rest)⟩
      fun _ frame s => holdsFlow frame = true → openLaw frame s := by
  have htop := hsound.opening tid frame (hstack ▸ List.mem_cons_self)
  refine flowView.allFrames_step hshape.flow hstack hsound.opening (fun new hnew hholds => ?_)
    fun hout old hlaw => ?_
  · rcases exec_eq_some_iff.mp hexec with ⟨-, -, -, -, rfl, rfl⟩ | ⟨-, hstep⟩
    · rcases List.mem_pair.mp hnew with rfl | rfl
      · simp [flowView, holdsFlow] at hholds
      · exact htop hholds
    · cases frame with
      | openDev point =>
          obtain rfl := eq_commands (hshape.top_role hstack rfl)
          have hdevice := hsound.device
          rw [hsound.not_isDeleting hstack] at hdevice
          simp only [advance] at hstep
          cases point <;> simp only [openStep] at hstep <;> grind [openLaw, holdsFlow]
      | dtor point =>
          simp only [advance] at hstep
          cases point <;> simp only [dtorStep] at hstep <;> grind [openLaw, holdsFlow]
      | _ =>
          have hroutine := (exec_shape hexec).routine new hnew
          cases new with
          | openDev point | dtor point =>
              cases point <;> simp_all [Frame.isEntry, Frame.routine, flowView, holdsFlow, openLaw]
          | _ => simp [openLaw]
  · obtain ⟨hdev, hready⟩ := dev_of_not_holdsFlow hexec hout
    exact openLaw_congr hdev hready hlaw

theorem device_step (hshape : WellShaped cfg) (hsound : Sound cfg)
    (hstack : cfg.stack tid = frame :: rest)
    (hexec : exec tid frame choice cfg.shared = some (s', frames)) (hready : s'.ready = true) :
    s'.dev = some ⟨.opened, false⟩ ∨
      isDeleting (Config.base ⟨s', Function.update cfg.stack tid (frames ++ rest)⟩ .main) =
        true := by
  have heffects := exec_effects hexec
  have hlaw := hsound.opening tid frame (hstack ▸ List.mem_cons_self)
  have hkeep : s'.dev = cfg.shared.dev → cfg.shared.ready = true →
      s'.dev = some ⟨.opened, false⟩ ∨
        isDeleting (Config.base ⟨s', Function.update cfg.stack tid (frames ++ rest)⟩ .main) =
          true := by
    intro hdev hold
    exact (hsound.device hold).imp hdev.trans
      (stage_step hshape (fun _ => rfl) isDeleting_dtorStep hstack hexec)
  cases frame with
  | openDev point =>
      obtain rfl := eq_commands (hshape.top_role hstack rfl)
      have hdevice := hsound.device
      rw [hsound.not_isDeleting hstack] at hdevice
      rcases exec_eq_some_iff.mp hexec with ⟨-, -, -, -, rfl, rfl⟩ | ⟨-, hstep⟩
      · exact hkeep rfl hready
      · left
        simp only [advance] at hstep
        cases point <;> simp only [openStep] at hstep <;> grind [openLaw, holdsFlow]
  | dtor point =>
      obtain rfl := eq_main (hshape.top_role hstack rfl)
      obtain rfl := hshape.rest_eq_nil hstack rfl
      rcases exec_eq_some_iff.mp hexec with ⟨-, -, -, -, rfl, rfl⟩ | ⟨-, hstep⟩
      · exact hkeep rfl hready
      · simp only [advance] at hstep
        cases point with
        | delete =>
            simp only [dtorStep] at hstep
            split at hstep <;> cases hstep <;> exact .inr (by simp [Config.base, isDeleting])
        | clear =>
            cases hstep
            exact .inr (by simp [Config.base, isDeleting])
        | _ =>
            simp only [dtorStep] at hstep
            try split at hstep
            all_goals cases hstep
            all_goals exact hkeep rfl hready
  | _ =>
      refine hkeep ?_ ?_
      · rcases heffects.dev with hsame | ⟨-, hroutine⟩
        · exact hsame
        · simp [Frame.routine] at hroutine
      · rcases heffects.ready with hsame | ⟨hframe, -⟩
        · exact hsame ▸ hready
        · simp at hframe

theorem sound_step {action : Action Tid Choice ℕ} {cfg' : Recorder} (hshape : WellShaped cfg)
    (hsound : Sound cfg) (hstep : machine.step cfg action = some cfg') : Sound cfg' := by
  cases action with
  | env elapsed =>
      obtain rfl := Machine.step_env_iff.mp hstep
      exact { hsound with
        opening := fun tid frame hmem hholds => by
          have hlaw := hsound.opening tid frame hmem hholds
          refine openLaw_congr ?_ ?_ hlaw <;> rfl }
  | thread tid choice =>
      obtain ⟨frame, rest, s', frames, hstack, hexec, rfl⟩ := Machine.step_thread_iff.mp hstep
      exact {
        exited := exited_step hshape hsound hstack hexec
        joined := joined_step hshape hsound hstack hexec
        finished := finished_step hshape hsound hstack hexec
        streaming := streaming_step hsound hstack hexec
        since := since_step hsound hexec
        called := called_step hsound hstack hexec
        starting := starting_step hshape hsound hstack hexec
        opening := opening_step hshape hsound hstack hexec
        device := device_step hshape hsound hstack hexec }

/-- The invariants hold of every reachable configuration. -/
theorem sound (hreach : recorder.Reachable cfg) : Sound cfg := by
  refine hreach.invariant ?_ fun _ _ _ hprior hsound hstep =>
    sound_step (wellShaped hprior) hsound hstep
  rintro _ ⟨now, rfl⟩
  exact sound_initial now

end HauppaugeUSB.MythTV

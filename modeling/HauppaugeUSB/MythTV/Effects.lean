/-
# What a step can change

Each member of the shared state is written at a few program points only. This
file says which, once for all members; the invariants of the later files use
these facts and look into a step only where it writes what they speak of.
-/

import HauppaugeUSB.MythTV.Shape

namespace HauppaugeUSB.MythTV

open HauppaugeUSB.Concurrency HauppaugeUSB.Commands

variable {tid : Tid} {frame : Frame} {choice : Choice} {s s' : Shared} {frames : List Frame}

/-- The members that only `Buffer::Run` and `Buffer::Fill` write. -/
structure SameQueue (s s' : Shared) : Prop where
  data : s'.data = s.data
  fills : s'.fills = s.fills
  timedOut : s'.timedOut = s.timedOut
  overrun : s'.overrun = s.overrun
  discarded : s'.discarded = s.discarded
  popped : s'.popped = s.popped
  stdout : s'.stdout = s.stdout

/-- What executing a frame does to each member. -/
structure Effects (frame : Frame) (s s' : Shared) : Prop where
  now : s'.now = s.now
  built : s'.built = s.built
  runMutex : s'.runMutex = s.runMutex ∨ holdsRun frame = true ∨ awaits frame = some .run
  flowMutex : s'.flowMutex = s.flowMutex ∨ holdsFlow frame = true ∨ acquires frame = some .flow
  fatal : s'.fatal = s.fatal ∨ s'.fatal = true
  ready : s'.ready = s.ready ∨ frame = .openDev .ready ∧ s'.ready = true
  dev : s'.dev = s.dev ∨
    holdsFlow frame = true ∧ (frame.routine = .openDev ∨ frame.routine = .dtor)
  exited : s'.commandsExited = s.commandsExited ∨
    frame = .command .exit ∧ s'.commandsExited = true
  streaming : s'.streaming = s.streaming ∧ s'.since = s.since ∨
    frame = .stop .clear ∧ s'.streaming = false ∧ s'.since = none ∨
    frame = .start .set ∧ s'.streaming = true ∧ s'.since = some s.now
  captures : s'.captures = s.captures ∨
    frame = .stop .call ∧ s'.captures = s.captures ++ [.stopped] ∨
    frame = .start .capture ∧ s'.captures = s.captures ++ [.started]
  epoch : s'.epoch = s.epoch ∨ frame = .start .input ∧ s'.epoch = s.epoch + 1
  recording : s'.recording = s.recording ∨ frame = .start .set ∧ s'.recording = s.epoch
  live : s'.live = s.live ∨ frame = .start .capture ∨
    frame = .stop .test ∧ s.streaming = true ∧ s'.live = false
  queue : SameQueue s s' ∨ frame.routine = .buffer ∨ frame.routine = .fill
  heart : s'.heartbeat = s.heartbeat ∧ s'.completions = s.completions ∨
    ∃ call time, frame = .fill (.store call time) ∧ s'.heartbeat = time ∧
      s'.completions = s.completions ++ [s.now]
  calls : s'.calls = s.calls ∧ s'.returned = s.returned ∨
    frame.routine = .fill ∨ frame.routine = .driver

namespace Effects

/-- `m_ready` is never reset. -/
theorem ready_of (heffects : Effects frame s s') (hready : s.ready = true) : s'.ready = true := by
  rcases heffects.ready with hsame | ⟨-, htrue⟩
  · rwa [hsame]
  · exact htrue

/-- `m_fatal` is never reset. -/
theorem fatal_of (heffects : Effects frame s s') (hfatal : s.fatal = true) : s'.fatal = true := by
  rcases heffects.fatal with hsame | htrue
  · rwa [hsame]
  · exact htrue

/-- `Commands::Run` does not come back. -/
theorem exited_of (heffects : Effects frame s s') (hexited : s.commandsExited = true) :
    s'.commandsExited = true := by
  rcases heffects.exited with hsame | ⟨-, htrue⟩
  · rwa [hsame]
  · exact htrue

/-- Nothing changes. -/
theorem refl (frame : Frame) (s : Shared) : Effects frame s s := by
  constructor
  case queue => exact .inl ⟨rfl, rfl, rfl, rfl, rfl, rfl, rfl⟩
  all_goals simp

end Effects

section

attribute [local simp] holdsRun holdsFlow awaits acquires Frame.routine

theorem fatalStep_effects {point : FatalPoint}
    (hstep : fatalStep tid s point = some (s', frames)) : Effects (.fatal point) s s' := by
  cases point <;> simp only [fatalStep] at hstep <;> (try split at hstep) <;> cases hstep <;>
    constructor <;> first | exact .inl ⟨rfl, rfl, rfl, rfl, rfl, rfl, rfl⟩ | simp

theorem terminateStep_effects (hstep : terminateStep s = some (s', frames)) :
    Effects .terminate s s' := by
  cases hstep
  constructor <;> first | exact .inl ⟨rfl, rfl, rfl, rfl, rfl, rfl, rfl⟩ | simp

theorem stopStep_effects {point : StopPoint}
    (hstep : stopStep tid choice s point = some (s', frames)) : Effects (.stop point) s s' := by
  cases point <;> simp only [stopStep] at hstep <;> (try split at hstep) <;> cases hstep <;>
    constructor <;> first | exact .inl ⟨rfl, rfl, rfl, rfl, rfl, rfl, rfl⟩ | simp_all

theorem startStep_effects {point : StartPoint}
    (hstep : startStep choice s point = some (s', frames)) : Effects (.start point) s s' := by
  cases point <;> simp only [startStep] at hstep <;> (try split at hstep) <;> cases hstep <;>
    constructor <;> first | exact .inl ⟨rfl, rfl, rfl, rfl, rfl, rfl, rfl⟩ | simp

theorem openStep_effects {point : OpenPoint}
    (hstep : openStep tid choice s point = some (s', frames)) :
    Effects (.openDev point) s s' := by
  cases point <;> simp only [openStep] at hstep <;> (try split at hstep) <;>
    (try split at hstep) <;> cases hstep <;>
    constructor <;> first | exact .inl ⟨rfl, rfl, rfl, rfl, rfl, rfl, rfl⟩ | simp

theorem waitStep_effects {point : WaitPoint} (hstep : waitStep tid s point = some (s', frames)) :
    Effects (.wait point) s s' := by
  cases point <;> simp only [waitStep] at hstep <;> (try split at hstep) <;> cases hstep <;>
    constructor <;> first | exact .inl ⟨rfl, rfl, rfl, rfl, rfl, rfl, rfl⟩ | simp

theorem dtorStep_effects {point : DtorPoint} (hstep : dtorStep tid s point = some (s', frames)) :
    Effects (.dtor point) s s' := by
  cases point <;> simp only [dtorStep] at hstep <;> (try split at hstep) <;> cases hstep <;>
    constructor <;> first | exact .inl ⟨rfl, rfl, rfl, rfl, rfl, rfl, rfl⟩ | simp

theorem commandStep_effects {point : CommandPoint}
    (hstep : commandStep tid choice s point = some (s', frames)) :
    Effects (.command point) s s' := by
  cases point <;> simp only [commandStep] at hstep <;> (try split at hstep) <;>
    (try split at hstep) <;> cases hstep <;>
    constructor <;> first | exact .inl ⟨rfl, rfl, rfl, rfl, rfl, rfl, rfl⟩ | simp

theorem bufferStep_effects {point : BufferPoint}
    (hstep : bufferStep tid choice s point = some (s', frames)) :
    Effects (.buffer point) s s' := by
  cases point <;> simp only [bufferStep] at hstep <;> (try split at hstep) <;>
    (try split at hstep) <;> cases hstep <;> constructor <;> simp

theorem fillStep_effects {point : FillPoint}
    (hstep : fillStep tid choice s point = some (s', frames)) : Effects (.fill point) s s' := by
  cases point <;> simp only [fillStep] at hstep <;> (try split at hstep) <;>
    (try split at hstep) <;> cases hstep <;> constructor <;> simp

theorem driverStep_effects (hstep : driverStep tid choice s = some (s', frames)) :
    Effects .driver s s' := by
  unfold driverStep at hstep
  split at hstep <;> cases hstep <;>
    constructor <;> first | exact .inl ⟨rfl, rfl, rfl, rfl, rfl, rfl, rfl⟩ | simp

end

theorem exec_effects (hexec : exec tid frame choice s = some (s', frames)) :
    Effects frame s s' := by
  rcases exec_eq_some_iff.mp hexec with ⟨-, -, -, -, rfl, rfl⟩ | ⟨-, hstep⟩
  · exact Effects.refl frame _
  · cases frame with
    | fatal point => exact fatalStep_effects hstep
    | terminate => exact terminateStep_effects hstep
    | stop point => exact stopStep_effects hstep
    | start point => exact startStep_effects hstep
    | openDev point => exact openStep_effects hstep
    | wait point => exact waitStep_effects hstep
    | dtor point => exact dtorStep_effects hstep
    | command point => exact commandStep_effects hstep
    | buffer point => exact bufferStep_effects hstep
    | fill point => exact fillStep_effects hstep
    | driver => exact driverStep_effects hstep

end HauppaugeUSB.MythTV

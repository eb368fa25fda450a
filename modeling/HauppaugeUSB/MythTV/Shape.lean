/-
# The shape of the recorder's stacks

What can be said of every frame of every reachable configuration without looking
at the flags: which thread executes which functions, which program point may
stand above which, and which points lie inside the critical sections of the two
mutexes. Together they turn a question about a thread's stack ("is it inside
`Fatal`?") into one about the owner of a mutex, and back.
-/

import HauppaugeUSB.MythTV.Step

namespace HauppaugeUSB.MythTV

open HauppaugeUSB.Concurrency HauppaugeUSB.Commands

variable {tid : Tid} {frame : Frame} {choice : Choice} {s s' : Shared} {frames : List Frame}
  {cfg : Recorder}

/-- A step is a failing control message inside the driver, which changes nothing
and calls `Fatal`, or the statement that the frame stands before. -/
theorem exec_eq_some_iff : exec tid frame choice s = some (s', frames) ↔
    (choice = .usbError ∧ frame.isHardware = true ∧ s.usbHandle = true ∧ s.useErrorCb = true ∧
      s' = s ∧ frames = [.fatal (.lock usbErrorMsg), frame]) ∨
    (choice ≠ .usbError ∧ advance tid frame choice s = some (s', frames)) := by
  by_cases hchoice : choice = .usbError
  · simp only [exec, if_pos hchoice, controlFailure]
    grind
  · simp [exec, hchoice]

/-- Outside the driver a thread executes its statements and nothing else. -/
theorem advance_of_exec (hquiet : frame.isHardware = false)
    (hexec : exec tid frame choice s = some (s', frames)) :
    advance tid frame choice s = some (s', frames) := by
  rcases exec_eq_some_iff.mp hexec with ⟨-, hhardware, -⟩ | ⟨-, hstep⟩
  · simp [hquiet] at hhardware
  · exact hstep

/-- A request makes the thread enter at most one function. -/
theorem requestFrames_eq (request : Request) :
    requestFrames request = [] ∨ requestFrames request = [.command .replyLock] ∨
      requestFrames request = [.openDev .lock] ∨
      (∃ on, requestFrames request = [.command (.xonReply on)]) ∨
      requestFrames request = [.terminate] ∨ requestFrames request = [.start .test] ∨
      requestFrames request = [.stop .test] := by
  cases request <;> simp [requestFrames]

/-- The points at which a thread holds `m_run_mutex`. -/
def holdsRun : Frame → Bool
  | .fatal (.test _) | .fatal .unlock => true
  | .wait .sleep | .wait .test => true
  | .command .replyUnlock => true
  | _ => false

/-- The points at which a thread holds `m_flow_mutex`. -/
def holdsFlow : Frame → Bool
  | .stop .dev | .stop .noDev | .stop .unlock => true
  | .openDev .lock => false
  | .openDev _ => true
  | .dtor .delete | .dtor .deleting | .dtor .clear | .dtor .unlock => true
  | .buffer .pop | .buffer (.unlock _) | .buffer .clear | .buffer .clearUnlock => true
  | .fill (.push ..) | .fill (.unlock _) => true
  | _ => false

/-- The mutex that an untimed acquisition waits for. -/
def awaits : Frame → Option Mutex
  | .fatal (.lock _) | .wait .lock | .wait .relock | .command .replyLock => some .run
  | .stop .lock | .openDev .lock | .dtor .lock => some .flow
  | _ => none

/-- The mutex that an acquisition asks for, timed or not. -/
def acquires : Frame → Option Mutex
  | .buffer .lock | .buffer .clearLock | .fill (.lock ..) => some .flow
  | frame => awaits frame

/-- `m_run_mutex`. -/
def runView : MutexView Tid Frame Shared := ⟨Shared.runMutex, holdsRun⟩

/-- `m_flow_mutex`. -/
def flowView : MutexView Tid Frame Shared := ⟨Shared.flowMutex, holdsFlow⟩

/-- What a step does to a mutex: it keeps the owner and the thread's side of the
critical section, or it takes the free mutex into it, or it leaves and frees it. -/
def Moves (owner owner' : Option Tid) (inside inside' : ℕ) (tid : Tid) : Prop :=
  (owner' = owner ∧ inside' = inside) ∨
    (owner = none ∧ owner' = some tid ∧ inside = 0 ∧ inside' = 1) ∨
    (owner' = none ∧ inside = 1 ∧ inside' = 0)

/-- Groups of functions with the same callers. -/
inductive Kind
  /-- `Fatal`. -/
  | fatal
  /-- `Terminate` and `StopEncoding`. -/
  | stop
  /-- What `process_command` does for a single request. -/
  | request
  /-- `Fill`. -/
  | fill
  /-- A function in which a thread begins. -/
  | base
  deriving DecidableEq

/-- The group that a program point belongs to. -/
def Frame.kind : Frame → Kind
  | .fatal _ => .fatal
  | .terminate | .stop _ => .stop
  | .start _ | .openDev _ => .request
  | .command .replyLock | .command .replyUnlock => .request
  | .command (.xonReply _) | .command (.xonSet _) => .request
  | .fill _ => .fill
  | .wait _ | .dtor _ | .command _ | .buffer _ | .driver => .base

/-- What may be called at a point: the error callback from the driver, `Fatal`
also from `OpenDev`, `Wait` and `Commands::Run`, and `StopEncoding` through
`Terminate` from `Fatal` and from the destructor. -/
def calls : Frame → Kind → Bool
  | .fatal .unlock, .stop | .dtor .joinCommands, .stop => true
  | .openDev .giveUp, .fatal | .wait .lock, .fatal | .command .exit, .fatal => true
  | .command .loop, .request | .command .loop, .stop => true
  | .driver, .fatal | .driver, .fill => true
  | .stop .capture, .fatal | .stop .logPorts, .fatal => true
  | .start .input, .fatal | .start .capture, .fatal | .start .logPorts, .fatal => true
  | .openDev .dev, .fatal | .openDev .delete, .fatal | .dtor .deleting, .fatal => true
  | _, _ => false

/-- The four kinds of threads. -/
inductive Role
  | main
  | commands
  | buffer
  | encoder
  deriving DecidableEq

/-- The kind of a thread. -/
def Tid.role : Tid → Role
  | .main => .main
  | .commands => .commands
  | .buffer => .buffer
  | .encoder _ => .encoder

/-- The threads that execute a function, if not all of them may. -/
def Frame.home : Frame → Option Role
  | .fatal _ | .terminate | .stop _ => none
  | .start _ | .openDev _ | .command _ => some .commands
  | .wait _ | .dtor _ => some .main
  | .buffer _ => some .buffer
  | .fill _ | .driver => some .encoder

/-- The recorder's call graph; a thread begins in a base function of its own. -/
def callGraph : CallGraph Tid Frame where
  returnsTo above below := calls below above.kind
  root tid frame := frame.kind = .base && frame.home = some tid.role

/-- The functions of the source. -/
inductive Routine
  | fatal
  | terminate
  | stop
  | start
  | openDev
  | wait
  | dtor
  | command
  | buffer
  | fill
  | driver
  deriving DecidableEq

/-- The function that a program point belongs to. -/
def Frame.routine : Frame → Routine
  | .fatal _ => .fatal
  | .terminate => .terminate
  | .stop _ => .stop
  | .start _ => .start
  | .openDev _ => .openDev
  | .wait _ => .wait
  | .dtor _ => .dtor
  | .command _ => .command
  | .buffer _ => .buffer
  | .fill _ => .fill
  | .driver => .driver

/-- The points at which a function is entered by another one. -/
def Frame.isEntry : Frame → Bool
  | .fatal (.lock _) | .terminate | .stop .test | .start .test | .openDev .lock => true
  | .dtor .joinCommands | .command .replyLock | .command (.xonReply _) => true
  | .fill (.lock ..) => true
  | _ => false

/-- The points that call a function, other than through the error callback. -/
def enters : Frame → Frame → Bool
  | .openDev .check, .fatal (.lock _) | .openDev .checkError, .fatal (.lock _) => true
  | .openDev .usbFailed, .fatal (.lock _) | .openDev .failed, .fatal (.lock _) => true
  | .wait (.heart _), .fatal (.lock _) | .command .poll, .fatal (.lock _) => true
  | .fatal (.test _), .terminate | .wait .test, .terminate | .command .poll, .terminate => true
  | .terminate, .stop .test | .command .poll, .stop .test => true
  | .command .poll, .start .test | .command .poll, .openDev .lock => true
  | .command .poll, .command .replyLock | .command .poll, .command (.xonReply _) => true
  | .wait .test, .dtor .joinCommands | .driver, .fill (.lock ..) => true
  | _, _ => false

/-- What every step respects. -/
structure StepShape (tid : Tid) (frame : Frame) (choice : Choice) (s s' : Shared)
    (frames : List Frame) : Prop where
  run : Moves s.runMutex s'.runMutex (if holdsRun frame then 1 else 0) (frames.countP holdsRun) tid
  flow : Moves s.flowMutex s'.flowMutex (if holdsFlow frame then 1 else 0)
    (frames.countP holdsFlow) tid
  last : ∀ last, frames.getLast? = some last →
    last.kind = frame.kind ∧ last.home = frame.home
  chain : frames.IsChain fun above below => calls below above.kind = true
  home : ∀ new ∈ frames, new.home = none ∨ new.home = frame.home
  routine : ∀ new ∈ frames, new.isEntry = true ∨ new.routine = frame.routine
  entered : ∀ new ∈ frames, new.isEntry = true →
    enters frame new = true ∨ choice = .usbError ∧ s' = s

section

attribute [local simp] Moves holdsRun holdsFlow Frame.kind calls Frame.home Frame.routine
  Frame.isEntry enters

theorem fatalStep_shape {point : FatalPoint} (hstep : fatalStep tid s point = some (s', frames)) :
    StepShape tid (.fatal point) choice s s' frames := by
  cases point <;> simp only [fatalStep] at hstep <;> (try split at hstep) <;> cases hstep <;>
    constructor <;> simp_all

theorem stopStep_shape {point : StopPoint}
    (hstep : stopStep tid choice s point = some (s', frames)) :
    StepShape tid (.stop point) choice s s' frames := by
  cases point <;> simp only [stopStep] at hstep <;> (try split at hstep) <;> cases hstep <;>
    constructor <;> simp_all

theorem startStep_shape {point : StartPoint}
    (hstep : startStep choice s point = some (s', frames)) :
    StepShape tid (.start point) choice s s' frames := by
  cases point <;> simp only [startStep] at hstep <;> (try split at hstep) <;> cases hstep <;>
    constructor <;> simp_all

theorem openStep_shape {point : OpenPoint}
    (hstep : openStep tid choice s point = some (s', frames)) :
    StepShape tid (.openDev point) choice s s' frames := by
  cases point <;> simp only [openStep] at hstep <;> (try split at hstep) <;>
    (try split at hstep) <;> cases hstep <;> constructor <;> simp_all

theorem waitStep_shape {point : WaitPoint} (hstep : waitStep tid s point = some (s', frames)) :
    StepShape tid (.wait point) choice s s' frames := by
  cases point <;> simp only [waitStep] at hstep <;> (try split at hstep) <;> cases hstep <;>
    constructor <;> simp_all

theorem dtorStep_shape {point : DtorPoint} (hstep : dtorStep tid s point = some (s', frames)) :
    StepShape tid (.dtor point) choice s s' frames := by
  cases point <;> simp only [dtorStep] at hstep <;> (try split at hstep) <;> cases hstep <;>
    constructor <;> simp_all

theorem commandStep_shape {point : CommandPoint}
    (hstep : commandStep tid choice s point = some (s', frames)) :
    StepShape tid (.command point) choice s s' frames := by
  cases point with
  | poll =>
      simp only [commandStep] at hstep
      split at hstep
      case h_4 request =>
        split at hstep
        · cases hstep
        · cases hstep
          rcases requestFrames_eq request with h | h | h | ⟨on, h⟩ | h | h | h <;> rw [h] <;>
            constructor <;> simp
      all_goals cases hstep
      all_goals constructor <;> simp
  | _ =>
      simp only [commandStep] at hstep
      try split at hstep
      all_goals cases hstep
      all_goals constructor <;> simp_all

theorem bufferStep_shape {point : BufferPoint}
    (hstep : bufferStep tid choice s point = some (s', frames)) :
    StepShape tid (.buffer point) choice s s' frames := by
  cases point <;> simp only [bufferStep] at hstep <;> (try split at hstep) <;>
    (try split at hstep) <;> cases hstep <;> constructor <;> simp_all

theorem fillStep_shape {point : FillPoint}
    (hstep : fillStep tid choice s point = some (s', frames)) :
    StepShape tid (.fill point) choice s s' frames := by
  cases point <;> simp only [fillStep] at hstep <;> (try split at hstep) <;>
    (try split at hstep) <;> cases hstep <;> constructor <;> simp_all

theorem terminateStep_shape (hstep : terminateStep s = some (s', frames)) :
    StepShape tid .terminate choice s s' frames := by
  cases hstep
  constructor <;> simp

theorem driverStep_shape (hstep : driverStep tid choice s = some (s', frames)) :
    StepShape tid .driver choice s s' frames := by
  unfold driverStep at hstep
  split at hstep <;> cases hstep <;> constructor <;> simp

/-- The error callback may run above every frame that is inside the driver. -/
theorem controlFailure_shape (hhardware : frame.isHardware = true) :
    StepShape tid frame .usbError s s [.fatal (.lock usbErrorMsg), frame] := by
  constructor
  case chain =>
    cases frame with
    | stop point | start point | openDev point | dtor point =>
        cases point <;> simp_all [Frame.isHardware]
    | driver => simp
    | _ => simp_all [Frame.isHardware]
  all_goals simp

end

theorem advance_shape (hstep : advance tid frame choice s = some (s', frames)) :
    StepShape tid frame choice s s' frames := by
  cases frame with
  | fatal point => exact fatalStep_shape hstep
  | terminate => exact terminateStep_shape hstep
  | stop point => exact stopStep_shape hstep
  | start point => exact startStep_shape hstep
  | openDev point => exact openStep_shape hstep
  | wait point => exact waitStep_shape hstep
  | dtor point => exact dtorStep_shape hstep
  | command point => exact commandStep_shape hstep
  | buffer point => exact bufferStep_shape hstep
  | fill point => exact fillStep_shape hstep
  | driver => exact driverStep_shape hstep

theorem exec_shape (hexec : exec tid frame choice s = some (s', frames)) :
    StepShape tid frame choice s s' frames := by
  rcases exec_eq_some_iff.mp hexec with ⟨rfl, hhardware, -, -, rfl, rfl⟩ | ⟨-, hstep⟩
  · exact controlFailure_shape hhardware
  · exact advance_shape hstep

/-- A function that the thread has just entered was called, by its caller or by a
failing control message. -/
theorem entered_of_head {new : Frame} (hexec : exec tid frame choice s = some (s', frames))
    (hhead : frames.head? = some new) (hentry : new.isEntry = true) :
    enters frame new = true ∨
      ∃ msg, new = .fatal (.lock msg) ∧ choice = .usbError ∧ s' = s := by
  rcases (exec_shape hexec).entered new (List.mem_of_head? hhead) hentry with
    henters | ⟨hchoice, hsame⟩
  · exact .inl henters
  · rcases exec_eq_some_iff.mp hexec with ⟨-, -, -, -, -, rfl⟩ | ⟨hnot, -⟩
    · obtain rfl : .fatal (.lock usbErrorMsg) = new := by simpa using hhead
      exact .inr ⟨usbErrorMsg, rfl, hchoice, hsame⟩
    · exact absurd hchoice hnot

/-- A step that moves in and out of a critical section in step with the owner of
its mutex is accounted for. -/
theorem accounted_of_moves {V : MutexView Tid Frame Shared}
    (hmoves : ∀ {tid frame choice s s' frames}, exec tid frame choice s = some (s', frames) →
      Moves (V.owner s) (V.owner s') (if V.holds frame then 1 else 0) (frames.countP V.holds) tid)
    (henv : ∀ elapsed s, V.owner (machine.env elapsed s) = V.owner s) : V.Accounted machine where
  exec := by
    intro tid frame choice s s' frames hexec hhere
    rcases hmoves hexec with ⟨howner, hinside⟩ | ⟨hfree, howner, hout, hin⟩ | ⟨hfree, hin, hout⟩
    · simp only [MutexView.owned, howner, hinside]
    · simp [MutexView.owned, howner, hfree, hout, hin]
    · have hholds : V.holds frame = true := by
        by_contra hnot
        simp [hnot] at hin
      simp [MutexView.owned, hfree, hout, hholds, hhere hholds]
  others := by
    intro tid frame choice s s' frames hexec hhere other hother
    rcases hmoves hexec with ⟨howner, -⟩ | ⟨hfree, howner, -, -⟩ | ⟨hfree, hin, -⟩
    · rw [howner]
    · simp [howner, hfree, Ne.symm hother]
    · have hholds : V.holds frame = true := by
        by_contra hnot
        simp [hnot] at hin
      simp [hfree, hhere hholds, Ne.symm hother]
  env := henv

theorem runView_accounted : runView.Accounted machine :=
  accounted_of_moves (fun hexec => (exec_shape hexec).run) fun _ _ => rfl

theorem flowView_accounted : flowView.Accounted machine :=
  accounted_of_moves (fun hexec => (exec_shape hexec).flow) fun _ _ => rfl

/-- The laws of stacks and mutexes. -/
structure WellShaped (cfg : Recorder) : Prop where
  nested : ∀ tid, callGraph.Nested tid (cfg.stack tid)
  home : cfg.AllFrames fun tid frame _ => frame.home = none ∨ frame.home = some tid.role
  run : runView.Balanced cfg
  flow : flowView.Balanced cfg

theorem wellShaped_initial (now : ℤ) : WellShaped (initial now) where
  nested tid := by cases tid <;> rfl
  home tid frame hmem := by
    cases tid <;> simp_all [initial, Tid.entry, Frame.home, Tid.role]
  run tid := by cases tid <;> rfl
  flow tid := by cases tid <;> rfl

theorem wellShaped_step {action : Action Tid Choice ℕ} {cfg' : Recorder} (hshape : WellShaped cfg)
    (hstep : machine.step cfg action = some cfg') : WellShaped cfg' where
  nested := by
    refine Machine.nested_step (fun hexec => ⟨fun last hlast => ?_, (exec_shape hexec).chain⟩)
      hshape.nested hstep
    obtain ⟨hkind, hhome⟩ := (exec_shape hexec).last last hlast
    simp only [callGraph, hkind, hhome]
    exact ⟨id, fun _ => id⟩
  home := by
    cases action with
    | env elapsed =>
        obtain rfl := Machine.step_env_iff.mp hstep
        exact hshape.home
    | thread tid choice =>
        obtain ⟨frame, rest, s', frames, hstack, hexec, rfl⟩ := Machine.step_thread_iff.mp hstep
        refine Machine.allFrames_of_exec hstack hshape.home (fun new hnew => ?_)
          (fun _ _ h => h) fun _ _ _ _ h => h
        have hframe := hshape.home tid frame (hstack ▸ List.mem_cons_self)
        rcases (exec_shape hexec).home new hnew with hnone | hsame
        · exact .inl hnone
        · exact hsame ▸ hframe
  run := runView_accounted.balanced_step hshape.run hstep
  flow := flowView_accounted.balanced_step hshape.flow hstep

/-- Every reachable configuration is well shaped. -/
theorem wellShaped (hreach : recorder.Reachable cfg) : WellShaped cfg := by
  refine hreach.invariant ?_ fun _ _ _ _ hshape hstep => wellShaped_step hshape hstep
  rintro _ ⟨now, rfl⟩
  exact wellShaped_initial now

@[simp]
theorem calls_base (below : Frame) : calls below .base = false := by
  cases below with
  | fatal point | stop point | start point | openDev point | wait point | dtor point
  | command point => cases point <;> rfl
  | _ => rfl

theorem calls_stop {below : Frame} (hcalls : calls below .stop = true) :
    below = .fatal .unlock ∨ below = .dtor .joinCommands ∨ below = .command .loop := by
  cases below with
  | fatal point | stop point | start point | openDev point | wait point | dtor point
  | command point => cases point <;> simp_all [calls]
  | _ => simp_all [calls]

theorem calls_request {below : Frame} (hcalls : calls below .request = true) :
    below = .command .loop := by
  cases below with
  | fatal point | stop point | start point | openDev point | wait point | dtor point
  | command point => cases point <;> simp_all [calls]
  | _ => simp_all [calls]

theorem calls_fill {below : Frame} (hcalls : calls below .fill = true) : below = .driver := by
  cases below with
  | fatal point | stop point | start point | openDev point | wait point | dtor point
  | command point => cases point <;> simp_all [calls]
  | _ => simp_all [calls]

theorem calls_of_nested {below : Frame} {rest : List Frame}
    (hnested : callGraph.Nested tid (frame :: below :: rest)) : calls below frame.kind = true :=
  hnested.1

theorem eq_main (hrole : tid.role = .main) : tid = .main := by
  cases tid <;> simp_all [Tid.role]

theorem eq_commands (hrole : tid.role = .commands) : tid = .commands := by
  cases tid <;> simp_all [Tid.role]

theorem eq_buffer (hrole : tid.role = .buffer) : tid = .buffer := by
  cases tid <;> simp_all [Tid.role]

section

variable {rest : List Frame}

/-- After a step the thread goes on at the first of the new frames, or where the
executed function returns to. -/
theorem top_after {new : Frame}
    (htop : Config.top ⟨s', Function.update cfg.stack tid (frames ++ rest)⟩ tid = some new) :
    frames.head? = some new ∨ frames = [] ∧ rest.head? = some new := by
  cases frames with
  | nil => simpa [Config.top] using htop
  | cons head later => simpa [Config.top] using htop

theorem top_of_stack (hstack : cfg.stack tid = frame :: rest) : cfg.top tid = some frame := by
  rw [Config.top, hstack, List.head?_cons]

/-- Other threads stay where they are. -/
theorem top_of_ne {other : Tid} (hother : other ≠ tid) :
    Config.top ⟨s', Function.update cfg.stack tid (frames ++ rest)⟩ other = cfg.top other := by
  simp [Config.top, hother]

end

namespace WellShaped

variable {rest : List Frame}

/-- Every suspended frame has a callee. -/
theorem calls_of_mem_rest (hshape : WellShaped cfg)
    (hstack : cfg.stack tid = frame :: rest) {below : Frame} (hbelow : below ∈ rest) :
    ∃ kind, calls below kind = true := by
  obtain ⟨above, -, hcalls⟩ := (hstack ▸ hshape.nested tid).exists_above hbelow
  exact ⟨above.kind, hcalls⟩

/-- A bottom frame with others above it has a callee. -/
theorem calls_of_base (hshape : WellShaped cfg) {last : Frame} (hbase : cfg.base tid = some last)
    (hmem : frame ∈ cfg.stack tid) (hne : frame ≠ last) : ∃ kind, calls last kind = true := by
  cases hstack : cfg.stack tid with
  | nil => simp [hstack] at hmem
  | cons head rest =>
      rw [Config.base, hstack] at hbase
      rw [hstack] at hmem
      cases rest with
      | nil =>
          obtain rfl : head = last := by simpa using hbase
          exact absurd (List.mem_singleton.mp hmem) hne
      | cons below later =>
          rw [List.getLast?_cons_cons] at hbase
          exact hshape.calls_of_mem_rest hstack (List.mem_of_getLast? hbase)

/-- A function with a home is executed there. -/
theorem role_of_mem (hshape : WellShaped cfg) (hmem : frame ∈ cfg.stack tid) {role : Role}
    (hhome : frame.home = some role) : tid.role = role := by
  rcases hshape.home tid frame hmem with hnone | hsome
  · simp [hhome] at hnone
  · exact (Option.some.inj (hhome.symm.trans hsome)).symm

theorem top_role (hshape : WellShaped cfg) (hstack : cfg.stack tid = frame :: rest)
    {role : Role} (hhome : frame.home = some role) : tid.role = role :=
  hshape.role_of_mem (hstack ▸ List.mem_cons_self) hhome

/-- A frame of a base function is its thread's bottom frame. -/
theorem base_eq (hshape : WellShaped cfg) (hmem : frame ∈ cfg.stack tid)
    (hkind : frame.kind = .base) : cfg.base tid = some frame :=
  (hshape.nested tid).getLast?_eq hmem fun below => by simp [callGraph, hkind]

theorem rest_eq_nil (hshape : WellShaped cfg) (hstack : cfg.stack tid = frame :: rest)
    (hkind : frame.kind = .base) : rest = [] := by
  have hnested := hshape.nested tid
  rw [hstack] at hnested
  cases rest with
  | nil => rfl
  | cons below rest => simp [callGraph, hkind] at hnested

/-- A thread's only frame belongs to a base function. -/
theorem kind_of_singleton (hshape : WellShaped cfg) (hstack : cfg.stack tid = [frame]) :
    frame.kind = .base := by
  have hnested := hshape.nested tid
  rw [hstack] at hnested
  simp_all [callGraph]

/-- Under a called frame lies one that calls it, and nothing under a base function. -/
theorem rest_of_called (hshape : WellShaped cfg) (hstack : cfg.stack tid = frame :: rest)
    (hkind : frame.kind ≠ .base) :
    ∃ below later, rest = below :: later ∧ calls below frame.kind = true ∧
      (below.kind = .base → later = []) := by
  have hnested := hshape.nested tid
  rw [hstack] at hnested
  cases rest with
  | nil => simp [callGraph, hkind] at hnested
  | cons below later =>
      refine ⟨below, later, rfl, calls_of_nested hnested, fun hbase => ?_⟩
      cases later with
      | nil => rfl
      | cons last later => simp [callGraph, hbase] at hnested

/-- A request is handled above the loop of `Commands::Run`. -/
theorem rest_of_request (hshape : WellShaped cfg) (hstack : cfg.stack tid = frame :: rest)
    (hkind : frame.kind = .request) : rest = [.command .loop] := by
  obtain ⟨below, later, rfl, hcalls, hlast⟩ := hshape.rest_of_called hstack (by simp [hkind])
  obtain rfl := calls_request (hkind ▸ hcalls)
  rw [hlast rfl]

/-- `Fill` is called from the driver. -/
theorem rest_of_fill (hshape : WellShaped cfg) (hstack : cfg.stack tid = frame :: rest)
    (hkind : frame.kind = .fill) : rest = [.driver] := by
  obtain ⟨below, later, rfl, hcalls, hlast⟩ := hshape.rest_of_called hstack (by simp [hkind])
  obtain rfl := calls_fill (hkind ▸ hcalls)
  rw [hlast rfl]

/-- What `StopEncoding` was called from: `Fatal`, the destructor or a command. -/
theorem rest_of_stop (hshape : WellShaped cfg) (hstack : cfg.stack tid = frame :: rest)
    (hkind : frame.kind = .stop) :
    (∃ later, rest = .fatal .unlock :: later) ∨ rest = [.dtor .joinCommands] ∨
      rest = [.command .loop] := by
  obtain ⟨below, later, rfl, hcalls, hlast⟩ := hshape.rest_of_called hstack (by simp [hkind])
  rcases calls_stop (hkind ▸ hcalls) with rfl | rfl | rfl
  · exact .inl ⟨later, rfl⟩
  · rw [hlast rfl]
    exact .inr (.inl rfl)
  · rw [hlast rfl]
    exact .inr (.inr rfl)

/-- A thread anywhere in `Terminate` or `StopEncoding` holds the run mutex, unless
it is in the destructor or handles a command. -/
theorem caller_of_stop (hshape : WellShaped cfg) (hmem : frame ∈ cfg.stack tid)
    (hkind : frame.kind = .stop) :
    cfg.shared.runMutex = some tid ∨ tid = .main ∧ cfg.base .main = some (.dtor .joinCommands) ∨
      tid = .commands := by
  rcases (hshape.nested tid).exists_below hmem with hroot | ⟨below, hbelow, hcalls⟩
  · simp [callGraph, hkind] at hroot
  · have hkinds : calls below frame.kind = true := hcalls
    rcases calls_stop (hkind ▸ hkinds) with rfl | rfl | rfl
    · exact .inl (hshape.run.owner_of_mem hbelow rfl)
    · obtain rfl := eq_main (hshape.role_of_mem hbelow rfl)
      exact .inr (.inl ⟨rfl, hshape.base_eq hbelow rfl⟩)
    · exact .inr (.inr (eq_commands (hshape.role_of_mem hbelow rfl)))

/-- The `Buffer` thread calls nothing. -/
theorem buffer_stack (hshape : WellShaped cfg) (hmem : frame ∈ cfg.stack .buffer) :
    ∃ point, frame = .buffer point ∧ cfg.stack .buffer = [frame] := by
  obtain ⟨last, hlast⟩ := Option.isSome_iff_exists.mp
    (List.getLast?_isSome.mpr (List.ne_nil_of_mem hmem))
  have hroot := (hshape.nested .buffer).root_of_getLast? hlast
  obtain ⟨point, rfl⟩ : ∃ point, last = .buffer point := by
    cases last <;> simp_all [callGraph, Frame.home, Tid.role, Frame.kind]
  have hlastmem := List.mem_of_getLast? hlast
  cases hstack : cfg.stack .buffer with
  | nil => simp [hstack] at hmem
  | cons head rest =>
      rw [hstack] at hlastmem hmem hlast
      rcases List.mem_cons.mp hlastmem with rfl | hrest
      · obtain rfl := hshape.rest_eq_nil hstack rfl
        obtain rfl : frame = .buffer point := by simpa using hmem
        exact ⟨point, rfl, rfl⟩
      · obtain ⟨above, -, hcalls⟩ := (hstack ▸ hshape.nested .buffer).exists_above hrest
        simp [callGraph, calls] at hcalls

end WellShaped

end HauppaugeUSB.MythTV

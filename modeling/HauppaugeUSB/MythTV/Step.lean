/-
# The steps of the MythTV recorder

One function for each function of the source executes its program points. A
step returns the new shared state and the frames that replace the executed one:
the next point of the same function, the points of a function it calls on top of
the point it returns to, or nothing when the function returns.

An untimed acquisition of a mutex that is held has no step: the thread is
blocked. A timed one may also give up, and the choice of the environment decides
which. The environment also chooses the answers of the device, the lines read
from stdin, the calls that the driver makes, and which control messages fail. A
failing control message calls the registered error callback on the thread that
sent it, wherever in the driver that thread is.
-/

import HauppaugeUSB.MythTV.State

namespace HauppaugeUSB.MythTV

open HauppaugeUSB.Concurrency HauppaugeUSB.Commands

/-- `Buffer::MAX_QUEUE`. -/
def maxQueue : ℕ := 500

/-- Sixty seconds, after which `Wait` takes a silent encoder for wedged. -/
def wedgeLimit : ℤ := 60 * 1000000000

/-- The text of the fatal error that `Wait` raises. -/
def wedgedMsg : String := "We seem to be wedged!"

/-- The text of the fatal error that `USBError` raises. -/
def usbErrorMsg : String := "Detected Error with USB."

/-- What the environment decides about a step. -/
inductive Choice
  /-- Nothing: the statement has one outcome. -/
  | proceed
  /-- A call of the driver, the device or libusb returns. -/
  | answer (ok : Bool)
  /-- `m_usbio.Open` returns, having set a handle or not. -/
  | opened (ok handle : Bool)
  /-- `ErrorString()` returns a text. -/
  | errorString (msg : String)
  /-- A timed acquisition of a mutex gives up. -/
  | timeout
  /-- A control message fails. -/
  | usbError
  /-- `poll` returns without anything for this thread to do. -/
  | idle
  /-- `poll` reports a hang-up or an error that ends the loop. -/
  | leave
  /-- `poll` reports an invalid descriptor. -/
  | pollError
  /-- A line was read and names this request. -/
  | request (request : Request)
  /-- The driver calls `Buffer::Fill`. -/
  | fill (bytes : List UInt8)
  deriving DecidableEq

/-- The outcome of a step: the shared state and the frames to continue with. -/
abbrev Outcome := Option (Shared × List Frame)

/-- `MythTV::Fatal`. -/
def fatalStep (tid : Tid) (s : Shared) : FatalPoint → Outcome
  | .lock msg =>
      if s.runMutex = none then some ({ s with runMutex := some tid }, [.fatal (.test msg)])
      else none
  | .test msg =>
      if s.fatal then some (s, [.fatal .unlock])
      else some ({ s with fatal := true, fatalMsg := msg }, [.terminate, .fatal .unlock])
  | .unlock => some ({ s with runMutex := none }, [])

/-- `MythTV::Terminate`; its notifications wake waits that may end anyway. -/
def terminateStep (s : Shared) : Outcome := some ({ s with run := false }, [.stop .test])

/-- `MythTV::StopEncoding` and `HauppaugeDev::StopEncoding`. -/
def stopStep (tid : Tid) (choice : Choice) (s : Shared) : StopPoint → Outcome
  | .test =>
      if s.streaming then some ({ s with live := false }, [.stop .ready]) else some (s, [])
  | .ready => if s.ready then some (s, [.stop .lock]) else some (s, [])
  | .lock =>
      if s.flowMutex = none then some ({ s with flowMutex := some tid }, [.stop .dev]) else none
  | .dev => if s.dev = none then some (s, [.stop .noDev]) else some (s, [.stop .unlock])
  | .noDev => some ({ s with flowMutex := none }, [])
  | .unlock => some ({ s with flowMutex := none }, [.stop .clear])
  | .clear => some ({ s with streaming := false, since := none }, [.stop .call])
  | .call => some ({ s with captures := s.captures ++ [.stopped] }, [.stop .capture])
  | .capture =>
      match choice with
      | .answer true => some (s, [.stop .logPorts])
      | .answer false => some (s, [.stop .error])
      | _ => none
  | .logPorts => some (s, [])
  | .error => some (s, [])

/-- `MythTV::StartEncoding`, `HauppaugeDev::StartEncoding` and the reply to
`StartStreaming` after a capture was started. -/
def startStep (choice : Choice) (s : Shared) : StartPoint → Outcome
  | .test => if s.streaming then some (s, []) else some (s, [.start .ready])
  | .ready => if s.ready then some (s, [.start .call]) else some (s, [])
  | .call => some (s, [.start .input])
  | .input =>
      match choice with
      | .answer true => some ({ s with epoch := s.epoch + 1 }, [.start .capture])
      | .answer false => some (s, [.start .error])
      | _ => none
  | .capture =>
      match choice with
      | .answer true =>
          some ({ s with captures := s.captures ++ [.started], live := true }, [.start .logPorts])
      | .answer false => some (s, [.start .error])
      | _ => none
  | .logPorts => some (s, [.start .set])
  | .error => some (s, [])
  | .set =>
      some ({ s with streaming := true, since := some s.now, recording := s.epoch },
        [.start .reply])
  | .reply => some ({ s with answered := s.answered ++ [s.epoch] }, [])

/-- `MythTV::OpenDev`. `new` does not return null and `HauppaugeDev`'s constructor
leaves `m_err` false; the branches for both are translated all the same. -/
def openStep (tid : Tid) (choice : Choice) (s : Shared) : OpenPoint → Outcome
  | .lock =>
      if s.flowMutex = none then some ({ s with flowMutex := some tid }, [.openDev .test])
      else none
  | .test =>
      if s.dev = none then some ({ s with dev := some ⟨.fresh, false⟩ }, [.openDev .check])
      else some (s, [.openDev .unlock])
  | .check =>
      match s.dev with
      | none =>
          some (s, [.fatal (.lock "Unable to create Hauppauge dev."), .openDev .giveUp])
      | some dev =>
          if dev.err then some ({ s with dev := none }, [.openDev .checkError])
          else some (s, [.openDev .usb])
  | .checkError =>
      match choice with
      | .errorString msg => some (s, [.fatal (.lock msg), .openDev .giveUp])
      | _ => none
  | .usb =>
      match choice with
      | .opened true handle =>
          some ({ s with useErrorCb := true, usbHandle := handle }, [.openDev .dev])
      | .opened false handle =>
          some ({ s with useErrorCb := true, usbHandle := handle, dev := none },
            [.openDev .usbFailed])
      | _ => none
  | .usbFailed =>
      match choice with
      | .errorString msg => some (s, [.fatal (.lock msg), .openDev .giveUp])
      | _ => none
  | .dev =>
      match choice with
      | .answer true =>
          some ({ s with dev := s.dev.map fun dev => { dev with phase := .opened } },
            [.openDev .ready])
      | .answer false => some (s, [.openDev .failed])
      | _ => none
  | .failed =>
      match choice with
      | .errorString msg => some (s, [.fatal (.lock msg), .openDev .delete])
      | _ => none
  | .delete => some ({ s with dev := none }, [.openDev .close])
  | .close => some ({ s with usbHandle := false }, [.openDev .giveUp])
  | .ready => some ({ s with ready := true }, [.openDev .unlock])
  | .giveUp => some ({ s with flowMutex := none }, [])
  | .unlock => some ({ s with flowMutex := none }, [])

/-- `MythTV::Wait`. Its `wait_for` gives up the run mutex and takes it again; the
test of `m_run` includes the release at the end of the scope. -/
def waitStep (tid : Tid) (s : Shared) : WaitPoint → Outcome
  | .lock =>
      if s.runMutex = none then some ({ s with runMutex := some tid }, [.wait .sleep]) else none
  | .sleep => some ({ s with runMutex := none }, [.wait .relock])
  | .relock =>
      if s.runMutex = none then some ({ s with runMutex := some tid }, [.wait .test]) else none
  | .test =>
      if s.run then some ({ s with runMutex := none }, [.wait .streaming])
      else some ({ s with runMutex := none }, [.terminate, .dtor .joinCommands])
  | .streaming => if s.streaming then some (s, [.wait .clock]) else some (s, [.wait .lock])
  | .clock => some (s, [.wait (.heart (s.now - wedgeLimit))])
  | .heart limit =>
      if s.heartbeat < limit then some (s, [.fatal (.lock wedgedMsg), .wait .lock])
      else some (s, [.wait .lock])

/-- `MythTV::~MythTV` after `Terminate`. -/
def dtorStep (tid : Tid) (s : Shared) : DtorPoint → Outcome
  | .joinCommands => if s.commandsExited then some (s, [.dtor .joinBuffer]) else none
  | .joinBuffer => if s.bufferExited then some (s, [.dtor .lock]) else none
  | .lock =>
      if s.flowMutex = none then some ({ s with flowMutex := some tid }, [.dtor .delete])
      else none
  | .delete =>
      match s.dev with
      | none => some (s, [.dtor .clear])
      | some dev => some ({ s with dev := some { dev with phase := .deleted } }, [.dtor .deleting])
  | .deleting => some (s, [.dtor .clear])
  | .clear => some ({ s with dev := none }, [.dtor .unlock])
  | .unlock => some ({ s with flowMutex := none }, [])

/-- What `process_command` does for a request, down to its own use of shared
state: requests that read `m_fatal` or set the API version do so, and reply,
under the run mutex; the others reply without it. -/
def requestFrames : Request → List Frame
  | .apiVersionQuery | .versionQuery | .isOpen | .apiVersion _ => [.command .replyLock]
  | .lockTimeout => [.openDev .lock]
  | .xon => [.command (.xonReply true)]
  | .xoff => [.command (.xonReply false)]
  | .closeRecorder => [.terminate]
  | .startStreaming => [.start .test]
  | .stopStreaming => [.stop .test]
  | _ => []

/-- `Commands::Run`. A request whose handling throws ends the process. -/
def commandStep (tid : Tid) (choice : Choice) (s : Shared) : CommandPoint → Outcome
  | .loop => if s.run then some (s, [.command .poll]) else some (s, [.command .exit])
  | .poll =>
      match choice with
      | .idle => some (s, [.command .loop])
      | .leave => some (s, [.command .exit])
      | .pollError => some (s, [.fatal (.lock "poll error"), .command .exit])
      | .request request =>
          if request.throws then none else some (s, requestFrames request ++ [.command .loop])
      | _ => none
  | .replyLock =>
      if s.runMutex = none then some ({ s with runMutex := some tid }, [.command .replyUnlock])
      else none
  | .replyUnlock => some ({ s with runMutex := none }, [])
  | .xonReply on => some (s, [.command (.xonSet on)])
  | .xonSet on => some ({ s with xon := on }, [])
  | .exit => some ({ s with commandsExited := true }, [])

/-- `Buffer::Run`. Its waits and its sleep only pass time; its statistics are
written to the log alone. -/
def bufferStep (tid : Tid) (choice : Choice) (s : Shared) : BufferPoint → Outcome
  | .loop => if s.run then some (s, [.buffer .streaming]) else some (s, [.buffer .exit])
  | .streaming =>
      if s.streaming then some (s, [.buffer .xon]) else some (s, [.buffer .clearLock])
  | .xon => if s.xon then some (s, [.buffer .lock]) else some (s, [.buffer .loop])
  | .lock =>
      if choice = .timeout then some (s, [.buffer (.write .empty)])
      else if s.flowMutex = none then
        some ({ s with flowMutex := some tid }, [.buffer .pop])
      else none
  | .pop =>
      match s.data with
      | [] => some (s, [.buffer (.unlock .empty)])
      | pkt :: rest =>
          some ({ s with data := rest, popped := s.popped ++ [pkt] }, [.buffer (.unlock pkt)])
  | .unlock pkt => some ({ s with flowMutex := none }, [.buffer (.write pkt)])
  | .write pkt =>
      if pkt.bytes = [] then some (s, [.buffer .loop])
      else some ({ s with stdout := s.stdout ++ [⟨pkt, s.recording⟩] }, [.buffer .loop])
  | .clearLock =>
      if choice = .timeout then some (s, [.buffer .loop])
      else if s.flowMutex = none then
        some ({ s with flowMutex := some tid }, [.buffer .clear])
      else none
  | .clear =>
      some ({ s with data := [], discarded := s.discarded ++ s.data }, [.buffer .clearUnlock])
  | .clearUnlock => some ({ s with flowMutex := none }, [.buffer .loop])
  | .exit => some ({ s with bufferExited := true }, [])

/-- The number that tells an encoder thread from the others. -/
def Tid.index : Tid → ℕ
  | .encoder index => index
  | _ => 0

/-- The block that a `Fill` call hands over, as it stands when the call is decided. -/
def Shared.block (s : Shared) (tid : Tid) (call : ℕ) (bytes : List UInt8) : Block :=
  ⟨call, tid.index, bytes, s.epoch, s.live⟩

/-- `Buffer::Fill` past its test of `len`. -/
def fillStep (tid : Tid) (choice : Choice) (s : Shared) : FillPoint → Outcome
  | .lock call bytes =>
      if choice = .timeout then
        some ({ s with
          fills := s.fills ++ [s.block tid call bytes]
          timedOut := s.timedOut ++ [s.block tid call bytes] }, [.fill (.beat call)])
      else if s.flowMutex = none then
        some ({ s with flowMutex := some tid }, [.fill (.push call bytes)])
      else none
  | .push call bytes =>
      if s.data.length < maxQueue then
        some ({ s with
          fills := s.fills ++ [s.block tid call bytes]
          data := s.data ++ [s.block tid call bytes] }, [.fill (.unlock call)])
      else
        some ({ s with
          fills := s.fills ++ [s.block tid call bytes]
          overrun := s.overrun ++ [s.block tid call bytes] }, [.fill (.unlock call)])
  | .unlock call => some ({ s with flowMutex := none }, [.fill (.beat call)])
  | .beat call => some (s, [.fill (.store call s.now)])
  | .store call time =>
      some ({ s with
        heartbeat := time
        returned := s.returned ++ [call]
        completions := s.completions ++ [s.now] }, [])

/-- Driver code of an encoder thread, which may call `Buffer::Fill`; a call
without data returns at once. -/
def driverStep (tid : Tid) (choice : Choice) (s : Shared) : Outcome :=
  match choice with
  | .fill [] => some (s, [.driver])
  | .fill bytes =>
      some ({ s with calls := s.calls ++ [(tid.index, bytes)] },
        [.fill (.lock s.calls.length bytes), .driver])
  | _ => none

/-- Execute a frame other than by a failing control message. -/
def advance (tid : Tid) (frame : Frame) (choice : Choice) (s : Shared) : Outcome :=
  match frame with
  | .fatal point => fatalStep tid s point
  | .terminate => terminateStep s
  | .stop point => stopStep tid choice s point
  | .start point => startStep choice s point
  | .openDev point => openStep tid choice s point
  | .wait point => waitStep tid s point
  | .dtor point => dtorStep tid s point
  | .command point => commandStep tid choice s point
  | .buffer point => bufferStep tid choice s point
  | .fill point => fillStep tid choice s point
  | .driver => driverStep tid choice s

/-- `USBWrapper_t::controlMessage` fails inside the driver: with a device handle
and a registered callback, `USBError` runs before the driver goes on. -/
def controlFailure (frame : Frame) (s : Shared) : Outcome :=
  if frame.isHardware && s.usbHandle && s.useErrorCb then
    some (s, [.fatal (.lock usbErrorMsg), frame])
  else none

/-- Execute a frame. -/
def exec (tid : Tid) (frame : Frame) (choice : Choice) (s : Shared) : Outcome :=
  if choice = .usbError then controlFailure frame s else advance tid frame choice s

/-- The recorder as a machine; its environment lets the clock advance. -/
def machine : Machine Tid Frame Choice ℕ Shared where
  exec := exec
  env elapsed s := { s with now := s.now + elapsed }

/-- The recorder as a transition system, started by `MythTV`'s constructor. -/
@[reducible]
def recorder : System Recorder (Action Tid Choice ℕ) :=
  machine.system fun cfg => ∃ now, cfg = initial now

/-- The induction rule for invariants of the recorder: they hold after construction, and
neither time nor a step of a thread breaks them. -/
theorem recorder_invariant {ok : Recorder → Action Tid Choice ℕ → Prop} {P : Recorder → Prop}
    {cfg : Recorder} (hreach : recorder.ReachableBy ok cfg) (hstart : ∀ now, P (initial now))
    (hpass : ∀ (cfg : Recorder) (elapsed : ℕ), P cfg →
      P ⟨{ cfg.shared with now := cfg.shared.now + elapsed }, cfg.stack⟩)
    (hthread : ∀ {cfg : Recorder} {tid choice frame rest s' frames}, recorder.Reachable cfg →
      P cfg → ok cfg (.thread tid choice) → cfg.stack tid = frame :: rest →
      exec tid frame choice cfg.shared = some (s', frames) →
      P ⟨s', Function.update cfg.stack tid (frames ++ rest)⟩) : P cfg := by
  refine hreach.invariant ?_ fun state action next hprior hlaw hok hstep => ?_
  · rintro _ ⟨now, rfl⟩
    exact hstart now
  · cases action with
    | env elapsed =>
        obtain rfl := Machine.step_env_iff.mp hstep
        exact hpass state elapsed hlaw
    | thread tid choice =>
        obtain ⟨frame, rest, s', frames, hstack, hexec, rfl⟩ := Machine.step_thread_iff.mp hstep
        exact hthread hprior.reachable hlaw hok hstack hexec

theorem reachableBy_initial {ok : Recorder → Action Tid Choice ℕ → Prop} (now : ℤ) :
    recorder.ReachableBy ok (initial now) :=
  .start ⟨now, rfl⟩

/-- The other threads have not moved. -/
def OnlyCommands (cfg : Recorder) : Prop :=
  ∀ other, other ≠ .commands → cfg.stack other = other.entry

/-- A schedule of `Commands` alone is a guarded run if its actions meet the guard
while the other threads have not moved. -/
theorem exists_reachableBy_of_commands {ok : Recorder → Action Tid Choice ℕ → Prop}
    {View : Type} {view : Recorder → View} {value : View} {choices : List Choice} {now : ℤ}
    (hok : ∀ cfg, OnlyCommands cfg → ∀ choice ∈ choices, ok cfg (.thread .commands choice))
    (hrun : (recorder.run (initial now) (choices.map (.thread .commands))).map view =
      some value) :
    ∃ cfg, recorder.ReachableBy ok cfg ∧ OnlyCommands cfg ∧ view cfg = value := by
  obtain ⟨last, hlast, hvalue⟩ := Option.map_eq_some_iff.mp hrun
  have hkeep : ∀ state next, ∀ action ∈ choices.map (.thread .commands),
      OnlyCommands state → recorder.step state action = some next → OnlyCommands next := by
    intro state next action hmem honly hstep other hother
    obtain ⟨choice, -, rfl⟩ := List.mem_map.mp hmem
    obtain ⟨frame, rest, s', frames, -, -, rfl⟩ := Machine.step_thread_iff.mp hstep
    simpa [hother] using honly other hother
  have hstart : OnlyCommands (initial now) := fun _ _ => rfl
  have hguard : ∀ state, ∀ action ∈ choices.map (.thread .commands),
      OnlyCommands state → ok state action := by
    intro state action hmem honly
    obtain ⟨choice, hchoice, rfl⟩ := List.mem_map.mp hmem
    exact hok state honly choice hchoice
  obtain ⟨hreach, honly⟩ :=
    System.reachableBy_of_run (reachableBy_initial now) hstart hkeep hguard hlast
  exact ⟨last, hreach, honly, hvalue⟩

/-- Statements that leave nothing to choose. -/
def goOn (count : ℕ) : List Choice := List.replicate count .proceed

/-- `Commands` reads a request and executes the first point of its handling. -/
def dispatch (request : Request) : List Choice := [.proceed, .request request, .proceed]

/-- `Commands` opens the device. -/
def openDevice : List Choice :=
  dispatch .lockTimeout ++ goOn 2 ++ .opened true true :: .answer true :: goOn 2

/-- `Commands` starts the encoder, up to the success of `startCapture`. -/
def startCapture : List Choice :=
  dispatch .startStreaming ++ goOn 2 ++ [Choice.answer true, Choice.answer true]

/-- `Commands` opens the device and starts a recording. -/
def startRecording : List Choice := openDevice ++ startCapture ++ goOn 3

/-- `StopEncoding`, past its test of `m_streaming`, up to the call of the device. -/
def finishStop : List Choice := goOn 6

end HauppaugeUSB.MythTV

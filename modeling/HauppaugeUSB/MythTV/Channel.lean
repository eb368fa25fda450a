/-
# The `Commands` thread and the control channel

`Commands::Run` and `process_command` are modelled twice: with their input and their
replies, and as points of a thread of the recorder. The second model leaves open what
is read and lets the environment choose. Here the first one is shown to choose from
what the second one allows: every turn of the loop is one of its steps, and a request
enters the functions that `process_command` calls for it.
-/

import HauppaugeUSB.Commands.Reply
import HauppaugeUSB.Commands.Stdin
import HauppaugeUSB.MythTV.Step

namespace HauppaugeUSB.MythTV

open HauppaugeUSB.Concurrency HauppaugeUSB.Commands

/-- The points that lead to what a request does outside `Commands`. Its reply and the
block size are not among the recorder's shared state. -/
def eventFrames : Event → List Frame
  | .lockRun => [.command .replyLock]
  | .openDev => [.openDev .lock]
  | .setXon on => [.command (.xonReply on)]
  | .terminate => [.terminate]
  | .startEncoding => [.start .test]
  | .stopEncoding => [.stop .test]
  | .reply .. | .setBlockSize _ => []

/-- A request enters what `process_command` calls for it. -/
theorem requestFrames_eq_trace {parent : Parent} {cmd serial : Text} {request : Request}
    {version : ℤ} {returned : Bool} {session' : Session}
    (hrun : (handle parent cmd serial request).run ⟨version, []⟩ = .ok returned session') :
    session'.trace.flatMap eventFrames = requestFrames request := by
  cases request with
  | apiVersionQuery | versionQuery =>
      cases hfatal : parent.fatal <;> simp only [handle, hfatal] at hrun <;> cases hrun <;> rfl
  | isOpen =>
      cases hfatal : parent.fatal <;> cases hready : parent.ready <;>
        simp only [handle, hfatal, hready] at hrun <;> cases hrun <;> rfl
  | hasLock | signalStrengthPercent =>
      cases hready : parent.ready <;> simp only [handle, hready] at hrun <;> cases hrun <;> rfl
  | startStreaming =>
      rcases hstart : parent.startEncoding with ⟨started, resultmsg⟩
      cases started <;> simp only [handle, hstart] at hrun <;> cases hrun <;> rfl
  | stopStreaming =>
      rcases hstop : parent.stopEncoding with ⟨stopped, resultmsg⟩
      cases stopped <;> simp only [handle, hstop] at hrun <;> cases hrun <;> rfl
  | apiVersion data | blockSize data =>
      cases hstoul : stoul data with
      | ok n =>
          simp only [handle, convert, hstoul] at hrun
          cases hrun
          rfl
      | error exception =>
          simp only [handle, convert, hstoul] at hrun
          cases hrun
  | _ =>
      cases hrun
      rfl
/-- The point of the thread while the loop is at a point of its own. -/
def commandPoint : ReadPoint → CommandPoint
  | .loop => .loop
  | .poll | .getline _ => .poll
  | .exit _ => .exit

/-- What a step of the loop and its input is for the thread in the recorder. -/
inductive Follows (tid : Tid) (version : ℤ) (s : Shared) (before after : Reader) : Prop
  /-- The thread stays where it is. -/
  | stays : commandPoint after.point = commandPoint before.point →
      after.processed = before.processed → Follows tid version s before after
  /-- A turn without a request. -/
  | turns (choice : Choice) :
      commandStep tid choice s (commandPoint before.point) =
        some (s, [.command (commandPoint after.point)]) →
      after.processed = before.processed → Follows tid version s before after
  /-- A turn that ends in a fatal error. -/
  | fails (choice : Choice) (msg : String) :
      commandStep tid choice s (commandPoint before.point) =
        some (s, [.fatal (.lock msg), .command (commandPoint after.point)]) →
      after.processed = before.processed → Follows tid version s before after
  /-- A request, if handling it does not throw. -/
  | requests (line : Text) :
      ((parseLine version line).2.throws = false →
        commandStep tid (.request (parseLine version line).2) s (commandPoint before.point) =
          some (s, requestFrames (parseLine version line).2 ++
            [.command (commandPoint after.point)])) →
      after.processed = before.processed ++ [line] → Follows tid version s before after

variable {tid : Tid} {version : ℤ} {s : Shared} {before after : Reader} {action : ReadAction}

/-- A line that `getline` delivers is a request to the thread, which waits in `poll`. -/
theorem follows_process {cmd line : Text} {reader : Reader}
    (hpoint : before.point = .getline cmd) (hprocessed : reader.processed = before.processed) :
    Follows tid version s before (reader.process line) := by
  refine .requests line (fun hthrows => ?_) ?_
  · rw [hpoint]
    simp only [commandPoint, commandStep, hthrows]
    rfl
  · rw [Reader.process, hprocessed]

/-- Where `poll` sends the loop, the thread may go. -/
theorem follows_poll {revents : Revents} {result : PollResult} (hpoint : before.point = .poll) :
    Follows tid version s before
      { before with revents := revents, point := result.branch revents } := by
  unfold PollResult.branch
  by_cases hhangUp : revents.hangUp = true
  · rw [if_pos hhangUp]
    exact .turns .leave (by rw [hpoint]; rfl) rfl
  rw [if_neg hhangUp]
  by_cases hinvalid : revents.invalid = true
  · rw [if_pos hinvalid]
    exact .fails .pollError "poll error" (by rw [hpoint]; rfl) rfl
  rw [if_neg hinvalid]
  by_cases hreadable : revents.readable = true
  · rw [if_pos hreadable]
    rcases result with reported | _ | error
    · exact .stays (by rw [hpoint]; rfl) rfl
    · exact .turns .idle (by rw [hpoint]; rfl) rfl
    · cases error with
      | overflow => exact .turns .leave (by rw [hpoint]; rfl) rfl
      | again => exact .turns .idle (by rw [hpoint]; rfl) rfl
      | other => exact .turns .idle (by rw [hpoint]; rfl) rfl
  · rw [if_neg hreadable]
    exact .turns .idle (by rw [hpoint]; rfl) rfl

/-- Every step of the loop is one that the thread may take. -/
theorem follows_of_step (hrun : s.run = before.run) (hstep : before.step action = some after) :
    Follows tid version s before after := by
  cases action with
  | send bytes =>
      simp only [Reader.step] at hstep
      split at hstep <;> cases hstep
      exact .stays rfl rfl
  | close | terminate =>
      cases hstep
      exact .stays rfl rfl
  | proceed =>
      simp only [Reader.step] at hstep
      split at hstep
      case h_1 hpoint =>
        cases hstep
        refine .turns .proceed ?_ rfl
        rw [hpoint]
        simp only [commandPoint, commandStep, hrun]
        cases before.run <;> rfl
      case h_2 cmd hpoint =>
        simp only [Reader.extract] at hstep
        split at hstep
        · cases hstep
          exact follows_process hpoint rfl
        split at hstep
        · cases hstep
        split at hstep <;> cases hstep
        · exact follows_process hpoint rfl
        · exact .stays (by rw [hpoint]; rfl) rfl
      case h_3 => cases hstep
  | poll result =>
      simp only [Reader.step] at hstep
      split at hstep
      case isTrue hready =>
        cases hstep
        exact follows_poll hready.1
      case isFalse => cases hstep
  | read count =>
      simp only [Reader.step] at hstep
      split at hstep
      case h_1 cmd hpoint =>
        simp only [Reader.refill] at hstep
        split at hstep
        · cases hstep
        split at hstep
        · split at hstep <;> cases hstep
          exact follows_process hpoint rfl
        split at hstep <;> cases hstep
        exact .stays rfl rfl
      case h_2 => cases hstep

end HauppaugeUSB.MythTV

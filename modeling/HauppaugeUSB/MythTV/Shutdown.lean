/-
# The end of the recorder

Once `m_run` is false, `Wait` goes on to `~MythTV`, which waits for `Commands` and `Buffer` and
then deletes the device. Each of these threads has a bounded number of statements left, but it
may have to wait: for a mutex, whose owner may wait for the other one, or for a thread to end.
Where failing control messages do not deadlock the recorder, somebody can always go on, so that
the end of the process is never out of reach.

The other half holds of all runs. What goes on after `m_run` has become false is at most what
had been begun: `Buffer::Run` writes at most one more block and `Commands` takes at most one
more request.
-/

import HauppaugeUSB.Concurrency.Observer
import HauppaugeUSB.MythTV.Progress
import HauppaugeUSB.MythTV.Recording

namespace HauppaugeUSB.MythTV

open HauppaugeUSB.Concurrency HauppaugeUSB.Commands

variable {tid : Tid} {frame : Frame} {choice : Choice} {s s' : Shared} {frames rest : List Frame}
  {cfg : Recorder}

/-- Once `m_run` is false, the recorder can end, unless failing control messages have come at
the wrong moment: the threads return and the device is gone. -/
theorem canEnd_of_callbackSafe (hreach : recorder.ReachableBy CallbackSafe cfg)
    (hstopped : cfg.shared.run = false) :
    ∃ schedule last, (∀ action ∈ schedule, Undisturbed action) ∧
      recorder.run cfg schedule = some last ∧ AllReturned last ∧ last.shared.dev = none := by
  obtain ⟨schedule, last, hallowed, hrun, -, hlast, hreturned, -⟩ :=
    exists_ending hreach hstopped (R := fun _ => True) trivial fun _ _ _ _ _ _ _ => trivial
  refine ⟨schedule, last, hallowed, hrun, hreturned, ?_⟩
  exact (sound hlast.reachable).finished (by simp [Config.base, hreturned.main])

/-- `CloseRecorder` while a recording is running. -/
theorem canEnd_while_streaming :
    ∃ cfg : Recorder, cfg.shared.streaming = true ∧ cfg.shared.run = false ∧
      ∃ schedule last, (∀ action ∈ schedule, Undisturbed action) ∧
        recorder.run cfg schedule = some last ∧ AllReturned last ∧ last.shared.dev = none := by
  have hok : ∀ cfg, OnlyCommands cfg → ∀ choice ∈ startRecording ++ dispatch .closeRecorder,
      CallbackSafe cfg (.thread .commands choice) := by
    simp [startRecording, openDevice, startCapture, dispatch, goOn, CallbackSafe]
  have hrun : (recorder.run (initial 0)
      ((startRecording ++ dispatch .closeRecorder).map (.thread .commands))).map
      (fun cfg => (cfg.shared.streaming, cfg.shared.run)) = some (true, false) := by rfl
  obtain ⟨cfg, hreach, -, hvalue⟩ := exists_reachableBy_of_commands hok hrun
  obtain ⟨hstreaming, hstopped⟩ := Prod.mk.inj hvalue
  exact ⟨cfg, hstreaming, hstopped, canEnd_of_callbackSafe hreach hstopped⟩

/-- How far the recorder was when `m_run` became false. -/
structure StopMark where
  /-- The number of requests that `Commands` had read. -/
  requests : ℕ
  /-- The number of blocks that `Buffer::Run` had written. -/
  written : ℕ
  deriving DecidableEq

/-- The requests that have been read, and where `m_run` became false. -/
structure Winding where
  requests : ℕ
  stop : Option StopMark
  deriving DecidableEq

/-- `Commands` reads a request. -/
def takesRequest (cfg : Recorder) : Action Tid Choice ℕ → Bool
  | .thread tid (.request _) => cfg.top tid = some (.command .poll)
  | _ => false

/-- What is remembered of the requests and of the end of `m_run`. -/
def windingObserver : Observer Recorder (Action Tid Choice ℕ) Winding where
  start := ⟨0, none⟩
  note seen cfg action next :=
    let requests := seen.requests + (takesRequest cfg action).toNat
    if cfg.shared.run && !next.shared.run then
      ⟨requests, some ⟨requests, next.shared.stdout.length⟩⟩
    else ⟨requests, seen.stop⟩

/-- The recorder with its requests counted. -/
@[reducible]
def windingRecorder : System (Recorder × Winding) (Action Tid Choice ℕ) :=
  recorder.observed windingObserver

/-- After `m_run` has become false, at most one block is written and at most one request is
read. -/
def WindsUp (seen : Recorder × Winding) : Prop :=
  seen.1.shared.run = false → ∃ mark, seen.2.stop = some mark ∧
    seen.1.shared.stdout.length ≤ mark.written + 1 ∧ seen.2.requests ≤ mark.requests + 1

/-- `Buffer::Run` has tested `m_run` and may come to write a block. -/
def mayWrite : Option Frame → Bool
  | some (.buffer .streaming) | some (.buffer .xon) | some (.buffer .lock) => true
  | some (.buffer .pop) | some (.buffer (.unlock _)) | some (.buffer (.write _)) => true
  | _ => false

/-- `Commands::Run` has tested `m_run` and may read a request. -/
def mayTake (top : Option Frame) : Bool := top = some (.command .poll)

/-- What is left to do after the mark. -/
structure WindingLaw (seen : Recorder × Winding) : Prop where
  running : seen.2.stop = none → seen.1.shared.run = true
  stopped : ∀ mark, seen.2.stop = some mark → seen.1.shared.run = false ∧
    seen.1.shared.stdout.length + (mayWrite (seen.1.top .buffer)).toNat ≤ mark.written + 1 ∧
    seen.2.requests + (mayTake (seen.1.top .commands)).toNat ≤ mark.requests + 1

/-- A statement of `Buffer::Run` after `m_run` has become false. -/
theorem write_left {point : BufferPoint} (hstopped : s.run = false)
    (hstep : bufferStep tid choice s point = some (s', frames)) :
    s'.stdout.length + (mayWrite frames.head?).toNat ≤
      s.stdout.length + (mayWrite (some (.buffer point))).toNat := by
  cases point <;> simp only [bufferStep, hstopped, Bool.false_eq_true, if_false] at hstep <;>
    (try split at hstep) <;> (try split at hstep) <;> cases hstep <;> simp [mayWrite]

/-- The other statements write nothing. -/
theorem stdout_of_routine (hexec : exec tid frame choice s = some (s', frames))
    (hroutine : frame.routine ≠ .buffer) : s'.stdout = s.stdout := by
  rcases (exec_effects hexec).queue with hsame | hbuffer | hfill
  · exact hsame.stdout
  · exact absurd hbuffer hroutine
  · cases frame with
    | fill point => exact (written_of_fill (advance_of_exec rfl hexec)).1
    | _ => simp [Frame.routine] at hfill

/-- Once `m_run` is false, `Commands::Run` does not come back to `poll`. -/
theorem mayTake_after (hshape : WellShaped cfg) (hstopped : cfg.shared.run = false)
    (hstack : cfg.stack .commands = frame :: rest)
    (hexec : exec .commands frame choice cfg.shared = some (s', frames)) :
    mayTake (Config.top ⟨s', Function.update cfg.stack .commands (frames ++ rest)⟩ .commands) =
      false := by
  by_contra htake
  have htop : Config.top ⟨s', Function.update cfg.stack .commands (frames ++ rest)⟩ .commands =
      some (.command .poll) := by simpa [mayTake] using htake
  rcases top_after htop with hhead | ⟨-, hhead⟩
  · -- There is more to do from `poll` on than from any other point of the loop.
    obtain ⟨later, rfl⟩ := List.head?_eq_some_iff.mp hhead
    have hroutine : frame.routine = .command :=
      (((exec_shape hexec).routine _ List.mem_cons_self).resolve_left
        (by simp [Frame.isEntry])).symm
    cases frame <;> simp only [Frame.routine, reduceCtorEq] at hroutine
    have hless := stackWork_advance (by simp) (fun _ => hstopped) (advance_of_exec rfl hexec)
    rename_i point
    cases point <;> simp only [stackWork, List.map_cons, List.sum_cons, Frame.work] at hless <;>
      omega
  · obtain ⟨kind, hcalls⟩ := hshape.calls_of_mem_rest hstack (List.mem_of_head? hhead)
    simp [calls] at hcalls

/-- A request is read by `Commands` in `poll`. -/
theorem takesRequest_thread (hshape : WellShaped cfg) (tid : Tid) (choice : Choice) :
    (takesRequest cfg (.thread tid choice)).toNat ≤ (mayTake (cfg.top tid)).toNat ∧
      (tid ≠ .commands → takesRequest cfg (.thread tid choice) = false) := by
  refine ⟨?_, fun htid => ?_⟩
  · cases choice <;> simp [takesRequest, mayTake]
  · by_contra htakes
    have htop : cfg.top tid = some (.command .poll) := by
      cases choice <;> simp_all [takesRequest]
    obtain ⟨rest, hstack⟩ := List.head?_eq_some_iff.mp htop
    exact htid (eq_commands (hshape.top_role hstack rfl))

theorem windingLaw_step {seen : Winding} (hshape : WellShaped cfg)
    (hlaw : WindingLaw (cfg, seen)) (hstack : cfg.stack tid = frame :: rest)
    (hexec : exec tid frame choice cfg.shared = some (s', frames)) :
    WindingLaw (⟨s', Function.update cfg.stack tid (frames ++ rest)⟩,
      windingObserver.note seen cfg (.thread tid choice)
        ⟨s', Function.update cfg.stack tid (frames ++ rest)⟩) := by
  by_cases hmarks : cfg.shared.run = true ∧ s'.run = false
  · -- The mark is set here, and nothing has happened since.
    simp only [windingObserver, hmarks.1, hmarks.2, Bool.not_false, Bool.and_self, if_true]
    refine ⟨by simp, fun mark hmark => ?_⟩
    obtain rfl := Option.some.inj hmark
    have hwrite := Bool.toNat_le
      (mayWrite (Config.top ⟨s', Function.update cfg.stack tid (frames ++ rest)⟩ .buffer))
    have htake := Bool.toNat_le
      (mayTake (Config.top ⟨s', Function.update cfg.stack tid (frames ++ rest)⟩ .commands))
    exact ⟨hmarks.2, Nat.add_le_add_left hwrite _, Nat.add_le_add_left htake _⟩
  have hnote : windingObserver.note seen cfg (.thread tid choice)
      ⟨s', Function.update cfg.stack tid (frames ++ rest)⟩ =
        ⟨seen.requests + (takesRequest cfg (.thread tid choice)).toNat, seen.stop⟩ := by
    simp only [windingObserver]
    split <;> simp_all
  rw [hnote]
  refine ⟨fun hnone => ?_, fun mark hmark => ?_⟩
  · by_contra hfalse
    exact hmarks ⟨hlaw.running hnone, by simpa using hfalse⟩
  obtain ⟨hstopped, hwritten, hrequests⟩ := hlaw.stopped mark hmark
  obtain ⟨htakes, hothers⟩ := takesRequest_thread hshape tid choice
  refine ⟨(verdictStep hexec).run hstopped, ?_, ?_⟩
  · by_cases htid : tid = .buffer
    · subst htid
      obtain ⟨point, rfl, -⟩ := hshape.buffer_stack (hstack ▸ List.mem_cons_self)
      obtain rfl := hshape.rest_eq_nil hstack rfl
      have hleft := write_left hstopped (advance_of_exec rfl hexec)
      have htop : Config.top ⟨s', Function.update cfg.stack .buffer (frames ++ [])⟩ .buffer =
          frames.head? := by simp [Config.top]
      have hbefore : cfg.top .buffer = some (.buffer point) := top_of_stack hstack
      simp only [hbefore] at hwritten
      simp only [htop]
      exact hleft.trans hwritten
    · have hsame : s'.stdout = cfg.shared.stdout := by
        refine stdout_of_routine hexec fun hroutine => htid ?_
        cases frame <;> simp [Frame.routine] at hroutine
        exact eq_buffer (hshape.top_role hstack rfl)
      rw [top_of_ne (Ne.symm htid), hsame]
      exact hwritten
  · by_cases htid : tid = .commands
    · subst htid
      simp only [mayTake_after hshape hstopped hstack hexec]
      exact (Nat.add_le_add_left htakes _).trans hrequests
    · simp only [top_of_ne (Ne.symm htid), hothers htid]
      exact hrequests

/-- In every run, what goes on after the end of `m_run` is at most what had been begun. -/
theorem windsUp {seen : Recorder × Winding} (hreach : windingRecorder.Reachable seen) :
    WindsUp seen := by
  have hlaw : WindingLaw seen := by
    refine System.ReachableBy.observed_invariant hreach ?_ ?_
    · rintro _ ⟨now, rfl⟩
      exact ⟨fun _ => rfl, fun mark hmark => by cases hmark⟩
    · intro state memory action next hprior hlaw _ hstep
      cases action with
      | env elapsed =>
          obtain rfl := Machine.step_env_iff.mp hstep
          have hnote : windingObserver.note memory state (.env elapsed)
              ⟨machine.env elapsed state.shared, state.stack⟩ = memory := by
            simp [windingObserver, takesRequest, machine]
          rw [hnote]
          exact ⟨hlaw.running, hlaw.stopped⟩
      | thread tid choice =>
          obtain ⟨frame, rest, s', frames, hstack, hexec, rfl⟩ := Machine.step_thread_iff.mp hstep
          exact windingLaw_step (wellShaped hprior) hlaw hstack hexec
  intro hstopped
  cases hmark : seen.2.stop with
  | none => simp [hlaw.running hmark] at hstopped
  | some mark =>
      obtain ⟨-, hwritten, hrequests⟩ := hlaw.stopped mark hmark
      exact ⟨mark, rfl, by omega, by omega⟩

/-- A control message of an encoder thread fails while `Buffer::Run` has a block in hand and
`Commands` waits in `poll`; then the block is written and a request read. -/
def windUpBusy : List (Action Tid Choice ℕ) :=
  (startRecording ++ dispatch .xon ++ goOn 2).map (.thread .commands) ++
    (.fill [71, 0] :: goOn 5).map (.thread (.encoder 0)) ++ (goOn 6).map (.thread .buffer) ++
    (.usbError :: goOn 3).map (.thread (.encoder 0)) ++
    [.thread .buffer .proceed, .thread .commands (.request .isOpen)]

theorem windsUp_busy : ∃ seen : Recorder × Winding, seen.1.shared.run = false ∧
    seen.2 = ⟨4, some ⟨3, 0⟩⟩ ∧ seen.1.shared.stdout.length = 1 ∧ WindsUp seen := by
  have hrun : (windingRecorder.run (initial 0, ⟨0, none⟩) windUpBusy).map
      (fun seen => (seen.1.shared.run, seen.2, seen.1.shared.stdout.length)) =
      some (false, ⟨4, some ⟨3, 0⟩⟩, 1) := by rfl
  have hstart : windingRecorder.Reachable (initial 0, ⟨0, none⟩) := .start ⟨⟨0, rfl⟩, rfl⟩
  obtain ⟨seen, hreach, hvalue⟩ := System.exists_reachable_of_run hstart hrun
  simp only [Prod.mk.injEq] at hvalue
  exact ⟨seen, hvalue.1, hvalue.2.1, hvalue.2.2, windsUp hreach⟩

end HauppaugeUSB.MythTV

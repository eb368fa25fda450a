/-
# How the threads go on

Between two tests of `m_run` at the heads of its loops a thread has a bounded number of statements
to execute, with those of the functions that it calls. It may have to wait: for a mutex, whose
owner may wait for the other one, or for a thread to end. Where failing control messages do not
deadlock the recorder, somebody can always go on. So a few threads that have to go on, together
with whoever holds a mutex, are enough to get them where they go: the request that is being
handled returns, and once `m_run` is false the recorder ends.
-/

import HauppaugeUSB.MythTV.Deadlock
import HauppaugeUSB.MythTV.FatalText
import Mathlib.Algebra.Order.BigOperators.Group.List
import Mathlib.Algebra.Order.Group.Nat
import Mathlib.Data.Fintype.EquivFin

namespace HauppaugeUSB.MythTV

open HauppaugeUSB.Concurrency HauppaugeUSB.Commands

variable {tid : Tid} {frame : Frame} {choice : Choice} {s s' : Shared} {frames rest : List Frame}
  {cfg : Recorder}

/-- How many statements are left at a point until a loop begins anew, at most and with those of
the functions that are called on the way. -/
def Frame.work : Frame → ℕ
  | .fatal (.lock _) => 13
  | .fatal (.test _) => 12
  | .fatal .unlock => 1
  | .terminate => 10
  | .stop .test => 9
  | .stop .ready => 8
  | .stop .lock => 7
  | .stop .dev => 6
  | .stop .unlock => 5
  | .stop .clear => 4
  | .stop .call => 3
  | .stop .capture => 2
  | .stop .noDev | .stop .logPorts | .stop .error => 1
  | .start .test => 8
  | .start .ready => 7
  | .start .call => 6
  | .start .input => 5
  | .start .capture => 4
  | .start .logPorts => 3
  | .start .set => 2
  | .start .error | .start .reply => 1
  | .openDev .lock => 22
  | .openDev .test => 21
  | .openDev .check => 20
  | .openDev .usb => 19
  | .openDev .dev => 18
  | .openDev .failed => 17
  | .openDev .checkError | .openDev .usbFailed => 15
  | .openDev .delete => 3
  | .openDev .close | .openDev .ready => 2
  | .openDev .giveUp | .openDev .unlock => 1
  | .wait .streaming => 37
  | .wait .clock => 36
  | .wait (.heart _) => 35
  | .wait .lock => 21
  | .wait .sleep => 20
  | .wait .relock => 19
  | .wait .test => 18
  | .dtor .joinCommands => 7
  | .dtor .joinBuffer => 6
  | .dtor .lock => 5
  | .dtor .delete => 4
  | .dtor .deleting => 3
  | .dtor .clear => 2
  | .dtor .unlock => 1
  | .command .poll => 25
  | .command .loop | .command .replyLock | .command (.xonReply _) => 2
  | .command .exit | .command .replyUnlock | .command (.xonSet _) => 1
  | .buffer .streaming => 8
  | .buffer .xon => 7
  | .buffer .lock => 6
  | .buffer .pop | .buffer .clearLock => 5
  | .buffer (.unlock _) | .buffer .clear => 4
  | .buffer (.write _) | .buffer .clearUnlock => 3
  | .buffer .loop => 2
  | .buffer .exit => 1
  | .fill (.lock ..) => 5
  | .fill (.push ..) => 4
  | .fill (.unlock _) => 3
  | .fill (.beat _) => 2
  | .fill (.store ..) => 1
  | .driver => 0

/-- The statements that a thread has left. -/
def stackWork (stack : List Frame) : ℕ := (stack.map Frame.work).sum

/-- The tests of `m_run` in the loops of the threads. -/
def Frame.testsRun : Frame → Bool
  | .command .loop | .wait .test | .buffer .loop => true
  | _ => false

/-- Every statement but those of the driver leaves fewer of them, unless a loop begins anew. -/
theorem stackWork_advance (hframe : frame ≠ .driver)
    (hloop : frame.testsRun = true → s.run = false)
    (hstep : advance tid frame choice s = some (s', frames)) : stackWork frames < frame.work := by
  cases frame with
  | driver => exact absurd rfl hframe
  | terminate =>
      cases hstep
      decide
  | command point =>
      cases point with
      | poll =>
          simp only [advance, commandStep] at hstep
          split at hstep
          case h_4 request =>
            split at hstep <;> cases hstep
            rcases requestFrames_eq request with h | h | h | ⟨on, h⟩ | h | h | h <;>
              simp [h, stackWork, Frame.work]
          all_goals cases hstep
          all_goals simp [stackWork, Frame.work]
      | _ =>
          simp only [advance, commandStep] at hstep
          try split at hstep
          all_goals cases hstep
          all_goals simp_all [stackWork, Frame.work, Frame.testsRun]
  | fatal point | stop point | start point | openDev point | wait point | dtor point
  | buffer point | fill point =>
      cases point <;>
        simp only [advance, fatalStep, stopStep, startStep, openStep, waitStep, dtorStep,
          bufferStep, fillStep] at hstep <;>
        (try split at hstep) <;> (try split at hstep) <;> cases hstep <;>
        simp_all [stackWork, Frame.work, Frame.testsRun]

/-- When `Buffer::Run` has returned it is known. -/
def BufferLaw (cfg : Recorder) : Prop :=
  cfg.stack .buffer = [] → cfg.shared.bufferExited = true

theorem bufferExited_of_exec (hexec : exec tid frame choice s = some (s', frames))
    (hexited : s.bufferExited = true) : s'.bufferExited = true := by
  rcases exec_eq_some_iff.mp hexec with ⟨-, -, -, -, rfl, -⟩ | ⟨-, hstep⟩
  · exact hexited
  cases frame with
  | terminate =>
      cases hstep
      exact hexited
  | driver =>
      simp only [advance, driverStep] at hstep
      split at hstep <;> cases hstep <;> exact hexited
  | fatal point | stop point | start point | openDev point | wait point | dtor point
  | command point | buffer point | fill point =>
      cases point <;>
        simp only [advance, fatalStep, stopStep, startStep, openStep, waitStep, dtorStep,
          commandStep, bufferStep, fillStep] at hstep <;>
        (try split at hstep) <;> (try split at hstep) <;> cases hstep <;>
        first | exact hexited | rfl

theorem bufferLaw (hreach : recorder.Reachable cfg) : BufferLaw cfg := by
  refine recorder_invariant hreach (fun now hnil => by cases hnil) (fun _ _ hlaw => hlaw) ?_
  intro cfg tid choice frame rest s' frames hprior hlaw _ hstack hexec hnil
  by_cases htid : tid = .buffer
  case neg =>
    refine bufferExited_of_exec hexec (hlaw ?_)
    simpa [Function.update_of_ne (Ne.symm htid)] using hnil
  subst htid
  obtain ⟨rfl, rfl⟩ : frames = [] ∧ rest = [] := by simpa using hnil
  obtain ⟨point, rfl, -⟩ := (wellShaped hprior).buffer_stack (hstack ▸ List.mem_cons_self)
  have hstep := advance_of_exec rfl hexec
  cases point <;> simp only [advance, bufferStep] at hstep <;> (try split at hstep) <;>
    (try split at hstep) <;> cases hstep
  rfl

/-- The threads that the recorder has started have returned, and so has `main`. -/
structure AllReturned (cfg : Recorder) : Prop where
  main : cfg.stack .main = []
  commands : cfg.stack .commands = []
  buffer : cfg.stack .buffer = []

/-- A step of a thread in which no control message fails. -/
def Undisturbed : Action Tid Choice ℕ → Prop
  | .thread _ choice => choice ≠ .usbError
  | .env _ => False

/-- The outcome of a statement that lets its thread go on: the device answers, libusb opens it,
nothing arrives on `stdin`, and a timed acquisition of a mutex gives up. -/
def Frame.goesOn : Frame → Choice
  | .stop .capture | .start .input | .start .capture | .openDev .dev => .answer true
  | .openDev .usb => .opened true true
  | .openDev .checkError | .openDev .usbFailed | .openDev .failed => .errorString ""
  | .command .poll => .idle
  | .buffer .lock | .buffer .clearLock | .fill (.lock ..) => .timeout
  | _ => .proceed

/-- `~MythTV` waits for a thread that has not ended. -/
def Frame.joins (s : Shared) : Frame → Bool
  | .dtor .joinCommands => !s.commandsExited
  | .dtor .joinBuffer => !s.bufferExited
  | _ => false

theorem goesOn_ne_usbError (frame : Frame) : frame.goesOn ≠ .usbError := by
  unfold Frame.goesOn
  split <;> decide

/-- Every other statement can be executed. -/
theorem exists_advance_goesOn (tid : Tid) (hframe : frame ≠ .driver)
    (hfree : ∀ mutex, awaits frame = some mutex → s.owner mutex = none)
    (hjoins : frame.joins s = false) :
    ∃ s' frames, advance tid frame frame.goesOn s = some (s', frames) := by
  suffices hsome : (advance tid frame frame.goesOn s).isSome = true by
    obtain ⟨⟨s', frames⟩, hstep⟩ := Option.isSome_iff_exists.mp hsome
    exact ⟨s', frames, hstep⟩
  cases frame with
  | driver => exact absurd rfl hframe
  | terminate => rfl
  | fatal point | stop point | start point | openDev point | wait point | dtor point
  | command point | buffer point | fill point =>
      cases point <;>
        simp_all [advance, fatalStep, stopStep, startStep, openStep, waitStep, dtorStep,
          commandStep, bufferStep, fillStep, Frame.goesOn, Frame.joins, awaits, Shared.owner] <;>
        split <;> (try split) <;> rfl

/-- When `Commands::Run` has returned it is known. -/
def CommandsLaw (cfg : Recorder) : Prop :=
  cfg.stack .commands = [] → cfg.shared.commandsExited = true

theorem commandsLaw (hreach : recorder.Reachable cfg) : CommandsLaw cfg := by
  refine recorder_invariant hreach (fun now hnil => by cases hnil) (fun _ _ hlaw => hlaw) ?_
  intro cfg tid choice frame rest s' frames hprior hlaw _ hstack hexec hnil
  by_cases htid : tid = .commands
  case neg =>
    refine (exec_effects hexec).exited_of (hlaw ?_)
    simpa [Function.update_of_ne (Ne.symm htid)] using hnil
  subst htid
  obtain ⟨rfl, rfl⟩ : frames = [] ∧ rest = [] := by simpa using hnil
  have hkind := (wellShaped hprior).kind_of_singleton hstack
  have hhome := (wellShaped hprior).home .commands frame (hstack ▸ List.mem_cons_self)
  rcases exec_eq_some_iff.mp hexec with ⟨-, -, -, -, -, hframes⟩ | ⟨-, hstep⟩
  · cases hframes
  cases frame with
  | command point =>
      cases point with
      | exit =>
          cases hstep
          rfl
      | _ =>
          simp only [advance, commandStep, Frame.kind, reduceCtorEq] at hstep hkind
          try split at hstep
          all_goals try split at hstep
          all_goals simp_all
  | _ => simp_all [Frame.kind, Frame.home, Tid.role]

/-- A statement changes the owner of a mutex to its own thread or to nobody. -/
theorem owner_of_exec (hexec : exec tid frame choice s = some (s', frames)) (mutex : Mutex) :
    s'.owner mutex = s.owner mutex ∨ s'.owner mutex = some tid ∨ s'.owner mutex = none := by
  have hshape := exec_shape hexec
  cases mutex with
  | run => exact hshape.run.imp And.left fun hmoves => hmoves.imp (·.2.1) And.left
  | flow => exact hshape.flow.imp And.left fun hmoves => hmoves.imp (·.2.1) And.left

/-- A thread that holds a mutex has a statement of the recorder to execute. -/
theorem WellShaped.of_owner (hshape : WellShaped cfg) {mutex : Mutex}
    (howner : cfg.shared.owner mutex = some tid) :
    ∃ frame rest, cfg.stack tid = frame :: rest ∧ frame ≠ .driver ∧
      frame.joins cfg.shared = false := by
  obtain ⟨held, hheld, hholds⟩ : ∃ held ∈ cfg.stack tid,
      holdsRun held = true ∨ holdsFlow held = true := by
    cases mutex with
    | run =>
        obtain ⟨held, hheld, hholds⟩ := hshape.run.exists_of_owner howner
        exact ⟨held, hheld, .inl hholds⟩
    | flow =>
        obtain ⟨held, hheld, hholds⟩ := hshape.flow.exists_of_owner howner
        exact ⟨held, hheld, .inr hholds⟩
  cases hstack : cfg.stack tid with
  | nil => simp [hstack] at hheld
  | cons frame rest =>
      have hoccupied (hbase : frame.kind = .base) : held = frame := by
        obtain rfl := hshape.rest_eq_nil hstack hbase
        simpa [hstack] using hheld
      refine ⟨frame, rest, rfl, ?_, ?_⟩
      · rintro rfl
        obtain rfl := hoccupied rfl
        simp [holdsRun, holdsFlow] at hholds
      · by_contra hjoins
        cases frame with
        | dtor point =>
            obtain rfl := hoccupied rfl
            cases point <;> simp_all [Frame.joins, holdsRun, holdsFlow]
        | _ => simp [Frame.joins] at hjoins

/-- The threads of a core, which have to go on, and whoever holds a mutex. -/
def Counts (core : List Tid) (s : Shared) (tid : Tid) : Prop :=
  tid ∈ core ∨ s.runMutex = some tid ∨ s.flowMutex = some tid

instance (core : List Tid) (s : Shared) (tid : Tid) : Decidable (Counts core s tid) :=
  inferInstanceAs (Decidable (_ ∨ _ ∨ _))

theorem counts_of_owner {core : List Tid} {mutex : Mutex} (howner : s.owner mutex = some tid) :
    Counts core s tid := by
  cases mutex with
  | run => exact .inr (.inl howner)
  | flow => exact .inr (.inr howner)

theorem owner_of_counts {core : List Tid} (hcounts : Counts core s tid) :
    tid ∈ core ∨ ∃ mutex, s.owner mutex = some tid := by
  rcases hcounts with hcore | hrun | hflow
  · exact .inl hcore
  · exact .inr ⟨.run, hrun⟩
  · exact .inr ⟨.flow, hflow⟩

/-- Nobody but the thread that moves comes to hold a mutex. -/
theorem counts_of_exec {core : List Tid} {other : Tid} (hother : other ≠ tid)
    (hexec : exec tid frame choice s = some (s', frames)) (hcounts : Counts core s' other) :
    Counts core s other := by
  rcases owner_of_counts hcounts with hcore | ⟨mutex, howner⟩
  · exact .inl hcore
  · rcases owner_of_exec hexec mutex with hsame | hself | hnone
    · exact counts_of_owner (hsame ▸ howner)
    · exact absurd (Option.some.inj (hself.symm.trans howner)).symm hother
    · cases hnone.symm.trans howner

/-- A recorder with a team of threads that includes its core and every owner of a mutex. -/
structure Team (core team : List Tid) (cfg : Recorder) : Prop where
  reach : recorder.ReachableBy CallbackSafe cfg
  counts : ∀ tid, Counts core cfg.shared tid → tid ∈ team

/-- The statements that those of them have left who have to go on. -/
def teamWork (core team : List Tid) (cfg : Recorder) : ℕ :=
  (team.map fun tid =>
    if Counts core cfg.shared tid then stackWork (cfg.stack tid) else 0).sum

/-- `Wait` holds the run mutex at the head of its loop and gives it up there. -/
theorem not_counts_of_testsRun {core : List Tid} (hshape : WellShaped cfg)
    (hstack : cfg.stack tid = frame :: rest) (hcore : tid ∉ core)
    (hcounts : Counts core cfg.shared tid) (htests : frame.testsRun = true)
    (hstep : advance tid frame choice cfg.shared = some (s', frames)) : ¬ Counts core s' tid := by
  obtain rfl : rest = [] := by
    refine hshape.rest_eq_nil hstack ?_
    cases frame with
    | command point | wait point | buffer point =>
        cases point <;> simp_all [Frame.testsRun, Frame.kind]
    | _ => simp [Frame.testsRun] at htests
  obtain ⟨mutex, howner⟩ := (owner_of_counts hcounts).resolve_left hcore
  have hflow : cfg.shared.flowMutex ≠ some tid := by
    intro howner
    obtain ⟨held, hheld, hholds⟩ := hshape.flow.exists_of_owner howner
    obtain rfl : held = frame := by simpa [hstack] using hheld
    cases held with
    | command point | wait point | buffer point =>
        cases point <;> simp_all [Frame.testsRun, flowView, holdsFlow]
    | _ => simp [Frame.testsRun] at htests
  obtain rfl : frame = .wait .test := by
    cases mutex with
    | flow => exact absurd howner hflow
    | run =>
        obtain ⟨held, hheld, hholds⟩ := hshape.run.exists_of_owner howner
        obtain rfl : held = frame := by simpa [hstack] using hheld
        cases held with
        | command point | wait point | buffer point =>
            cases point <;> simp_all [Frame.testsRun, runView, holdsRun]
        | _ => simp [Frame.testsRun] at htests
  simp only [advance, waitStep] at hstep
  split at hstep <;> cases hstep <;> simp [Counts, hcore, hflow]

/-- A statement of such a thread leaves them with fewer statements. -/
theorem Team.step {core team : List Tid} (hteam : Team core team cfg)
    (hcounts : Counts core cfg.shared tid) (hstack : cfg.stack tid = frame :: rest)
    (hframe : frame ≠ .driver)
    (hloop : tid ∈ core → frame.testsRun = true → cfg.shared.run = false)
    (hchoice : choice ≠ .usbError) (hexec : exec tid frame choice cfg.shared = some (s', frames)) :
    Team core team ⟨s', Function.update cfg.stack tid (frames ++ rest)⟩ ∧
      teamWork core team ⟨s', Function.update cfg.stack tid (frames ++ rest)⟩ <
        teamWork core team cfg := by
  have hstep : recorder.step cfg (.thread tid choice) =
      some ⟨s', Function.update cfg.stack tid (frames ++ rest)⟩ :=
    Machine.step_thread_iff.mpr ⟨frame, rest, s', frames, hstack, hexec, rfl⟩
  have hadvance : advance tid frame choice cfg.shared = some (s', frames) :=
    (exec_eq_some_iff.mp hexec).elim (fun hfails => absurd hfails.1 hchoice) And.right
  have hsafe : CallbackSafe cfg (.thread tid choice) := by
    cases choice <;> trivial
  have hmem := hteam.counts tid hcounts
  refine ⟨⟨.step hteam.reach hsafe hstep, fun other hother => ?_⟩, ?_⟩
  · by_cases hsame : other = tid
    · exact hsame ▸ hmem
    · exact hteam.counts other (counts_of_exec hsame hexec hother)
  have hhere : (if Counts core s' tid then
        stackWork (Function.update cfg.stack tid (frames ++ rest) tid) else 0) <
      stackWork (cfg.stack tid) := by
    simp only [Function.update_self, hstack, stackWork, List.map_append, List.sum_append,
      List.map_cons, List.sum_cons]
    by_cases hgoes : frame.testsRun = true → cfg.shared.run = false
    · have hless : (frames.map Frame.work).sum < frame.work :=
        stackWork_advance hframe hgoes hadvance
      split <;> omega
    · have htests : frame.testsRun = true := by
        by_contra hnot
        exact hgoes fun htests => absurd htests hnot
      have hcore : tid ∉ core := fun hcore => hgoes (hloop hcore)
      have hshape := wellShaped hteam.reach.reachable
      have hwork : 0 < frame.work := by
        cases frame with
        | command point | wait point | buffer point =>
            cases point <;> simp_all [Frame.testsRun, Frame.work]
        | _ => simp [Frame.testsRun] at htests
      rw [if_neg (not_counts_of_testsRun hshape hstack hcore hcounts htests hadvance)]
      omega
  refine List.sum_lt_sum _ _ (fun other _ => ?_) ⟨tid, hmem, by rwa [if_pos hcounts]⟩
  by_cases hother : other = tid
  · subst hother
    rw [if_pos hcounts]
    exact hhere.le
  · simp only [Function.update_of_ne hother]
    by_cases hlater : Counts core s' other
    · rw [if_pos hlater, if_pos (counts_of_exec hother hexec hlater)]
    · rw [if_neg hlater]
      exact Nat.zero_le _

/-- As long as a thread that has to go on is not waiting for another one to end, it can, or the
owner of a mutex can that it waits for. -/
theorem Team.exists_going {core team : List Tid} (hteam : Team core team cfg) {first : Tid}
    (hfirst : Counts core cfg.shared first) (hstack : cfg.stack first = frame :: rest)
    (hframe : frame ≠ .driver) (hjoins : frame.joins cfg.shared = false) :
    ∃ tid, Counts core cfg.shared tid ∧ ∃ frame rest, cfg.stack tid = frame :: rest ∧
      frame ≠ .driver ∧ (∀ mutex, awaits frame = some mutex → cfg.shared.owner mutex = none) ∧
      frame.joins cfg.shared = false := by
  have hshape := wellShaped hteam.reach.reachable
  have hfinite : Finite Mutex := by
    refine Finite.of_surjective (fun first : Bool => if first then Mutex.run else .flow) ?_
    rintro (_ | _)
    · exact ⟨true, rfl⟩
    · exact ⟨false, rfl⟩
  have hnoDeadlock := deadlockFree_of_callbackLaw hshape (sound hteam.reach.reachable)
    (callbackLaw hteam.reach)
  obtain ⟨last, hchain, hlast⟩ := WaitGraph.exists_unblocked hnoDeadlock first
  have hfree {frame : Frame} {rest : List Frame} (hstack : cfg.stack last = frame :: rest)
      (mutex : Mutex) (hawaits : awaits frame = some mutex) : cfg.shared.owner mutex = none := by
    cases howner : cfg.shared.owner mutex with
    | none => rfl
    | some other =>
        refine absurd ⟨mutex, ?_, howner⟩ (hlast other)
        simpa [waitGraph, top_of_stack hstack] using hawaits
  rcases Relation.ReflTransGen.cases_tail hchain with rfl | ⟨waiting, -, mutex, -, howner⟩
  · exact ⟨_, hfirst, frame, rest, hstack, hframe, hfree hstack, hjoins⟩
  · obtain ⟨frame, rest, hstack, hframe, hjoins⟩ := hshape.of_owner howner
    exact ⟨last, counts_of_owner howner, frame, rest, hstack, hframe, hfree hstack, hjoins⟩

/-- Then the team has fewer statements left. -/
theorem Team.exists_step {core team : List Tid} (hteam : Team core team cfg) {first : Tid}
    (hfirst : Counts core cfg.shared first) (hstack : cfg.stack first = frame :: rest)
    (hframe : frame ≠ .driver) (hjoins : frame.joins cfg.shared = false)
    (hloop : ∀ tid ∈ core, ∀ frame rest, cfg.stack tid = frame :: rest →
      frame.testsRun = true → cfg.shared.run = false) :
    ∃ tid frame rest next, cfg.stack tid = frame :: rest ∧
      recorder.step cfg (.thread tid frame.goesOn) = some next ∧ Team core team next ∧
      teamWork core team next < teamWork core team cfg := by
  obtain ⟨tid, hcounts, frame, rest, hstack, hframe, hfree, hjoins⟩ :=
    hteam.exists_going hfirst hstack hframe hjoins
  obtain ⟨s', frames, hadvance⟩ := exists_advance_goesOn tid hframe hfree hjoins
  have hchoice := goesOn_ne_usbError frame
  have hexec : exec tid frame frame.goesOn cfg.shared = some (s', frames) := by
    rwa [exec, if_neg hchoice]
  obtain ⟨hnext, hless⟩ := hteam.step hcounts hstack hframe
    (fun hcore => hloop tid hcore frame rest hstack) hchoice hexec
  exact ⟨tid, frame, rest, _, hstack,
    Machine.step_thread_iff.mpr ⟨frame, rest, s', frames, hstack, hexec, rfl⟩, hnext, hless⟩

/-- The team of a recorder as it stands. -/
theorem exists_team (core : List Tid) (hreach : recorder.ReachableBy CallbackSafe cfg) :
    ∃ team, Team core team cfg := by
  refine ⟨core ++ (cfg.shared.runMutex.toList ++ cfg.shared.flowMutex.toList), hreach, ?_⟩
  rintro tid (hcore | hrun | hflow)
  · exact List.mem_append_left _ hcore
  · simp [hrun]
  · simp [hflow]

/-- The threads that end with the process. -/
def endingThreads : List Tid := [.main, .commands, .buffer]

/-- Until they have returned and nobody holds a mutex, someone can go on. -/
theorem Team.exists_first {team : List Tid} (hteam : Team endingThreads team cfg)
    (hleft : ¬ (AllReturned cfg ∧ ∀ mutex, cfg.shared.owner mutex = none)) :
    ∃ first frame rest, Counts endingThreads cfg.shared first ∧
      cfg.stack first = frame :: rest ∧ frame ≠ .driver ∧ frame.joins cfg.shared = false := by
  have hshape := wellShaped hteam.reach.reachable
  by_cases howned : ∃ mutex tid, cfg.shared.owner mutex = some tid
  · obtain ⟨mutex, tid, howner⟩ := howned
    obtain ⟨frame, rest, hstack, hframe, hjoins⟩ := hshape.of_owner howner
    exact ⟨tid, frame, rest, counts_of_owner howner, hstack, hframe, hjoins⟩
  have hfree : ∀ mutex, cfg.shared.owner mutex = none := fun mutex =>
    Option.eq_none_iff_forall_ne_some.mpr fun tid howner => howned ⟨mutex, tid, howner⟩
  -- The first of the three that has not returned is not waiting for another of them to return.
  have hbegin {first : Tid} (hmem : first ∈ endingThreads) (hne : cfg.stack first ≠ [])
      (hjoins : ∀ point, .dtor point ∈ cfg.stack first →
        (Frame.dtor point).joins cfg.shared = false) :
      ∃ first frame rest, Counts endingThreads cfg.shared first ∧
        cfg.stack first = frame :: rest ∧ frame ≠ .driver ∧ frame.joins cfg.shared = false := by
    obtain ⟨frame, rest, hstack⟩ := List.exists_cons_of_ne_nil hne
    refine ⟨first, frame, rest, .inl hmem, hstack, ?_, ?_⟩
    · rintro rfl
      have hrole : first.role = .encoder := hshape.top_role hstack rfl
      cases first <;> simp_all [endingThreads, Tid.role]
    · cases frame with
      | dtor point => exact hjoins point (hstack ▸ List.mem_cons_self)
      | _ => rfl
  by_cases hcommands : cfg.stack .commands = []
  case neg =>
    refine hbegin (by decide) hcommands fun point hmem => ?_
    exact absurd (hshape.role_of_mem hmem rfl) (by decide)
  by_cases hbuffer : cfg.stack .buffer = []
  case neg =>
    refine hbegin (by decide) hbuffer fun point hmem => ?_
    exact absurd (hshape.role_of_mem hmem rfl) (by decide)
  have hmain : cfg.stack .main ≠ [] := fun hmain => hleft ⟨⟨hmain, hcommands, hbuffer⟩, hfree⟩
  refine hbegin (by decide) hmain fun point _ => ?_
  have hcommandsExited := commandsLaw hteam.reach.reachable hcommands
  have hbufferExited := bufferLaw hteam.reach.reachable hbuffer
  cases point <;> simp [Frame.joins, hcommandsExited, hbufferExited]

/-- Once `m_run` is false, the recorder can end, and what the statements keep it has in the
end. -/
theorem exists_ending {R : Recorder → Prop} (hreach : recorder.ReachableBy CallbackSafe cfg)
    (hstopped : cfg.shared.run = false) (hR : R cfg)
    (hkeep : ∀ state tid choice next, R state → choice ≠ .usbError →
      recorder.step state (.thread tid choice) = some next → R next) :
    ∃ schedule last, (∀ action ∈ schedule, Undisturbed action) ∧
      recorder.run cfg schedule = some last ∧ R last ∧ recorder.ReachableBy CallbackSafe last ∧
      AllReturned last ∧ ∀ mutex, last.shared.owner mutex = none := by
  obtain ⟨team, hteam⟩ := exists_team endingThreads hreach
  let P (state : Recorder) : Prop :=
    Team endingThreads team state ∧ state.shared.run = false ∧ R state
  have hnearer (state : Recorder) (hstate : P state)
      (hleft : ¬ (AllReturned state ∧ ∀ mutex, state.shared.owner mutex = none)) :
      ∃ action next, Undisturbed action ∧ recorder.step state action = some next ∧ P next ∧
        teamWork endingThreads team next < teamWork endingThreads team state := by
    obtain ⟨hhere, hfalse, hkept⟩ := hstate
    obtain ⟨first, frame, rest, hcounts, hstack, hframe, hjoins⟩ := hhere.exists_first hleft
    obtain ⟨tid, frame, rest, next, -, hstep, hnext, hless⟩ :=
      hhere.exists_step hcounts hstack hframe hjoins fun _ _ _ _ _ _ => hfalse
    obtain ⟨frame', rest', s', frames, -, hexec, rfl⟩ := Machine.step_thread_iff.mp hstep
    have hchoice := goesOn_ne_usbError frame
    exact ⟨.thread tid frame.goesOn, _, hchoice, hstep,
      ⟨hnext, (verdictStep hexec).run hfalse, hkeep _ _ _ _ hkept hchoice hstep⟩, hless⟩
  obtain ⟨schedule, last, hallowed, -, hrun, ⟨hended, -, hkept⟩, hreturned, hfree⟩ :=
    System.exists_run_of_rank (teamWork endingThreads team) hnearer ⟨hteam, hstopped, hR⟩
  exact ⟨schedule, last, hallowed, hrun, hkept, hended.reach, hreturned, hfree⟩

end HauppaugeUSB.MythTV

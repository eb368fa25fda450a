/-
# One reply to a line

`process_command` calls `send_status` once for every request, in whichever branch, unless the
line carries data that `std::stoul` rejects: then an exception escapes that nobody catches.
Whether it returns is also a matter of the other threads, since it may have to wait for the run
mutex, or for the flow mutex in what it calls. Where failing control messages do not deadlock
`Fatal`, every owner of these gives them up again, and `process_command` has only so many
statements to execute itself.
-/

import HauppaugeUSB.MythTV.Dialogue
import HauppaugeUSB.MythTV.Progress

namespace HauppaugeUSB.MythTV

open HauppaugeUSB.Concurrency HauppaugeUSB.Commands

variable {settings : Settings} {c later next : Conversation} {turn : Turn} {cmd : Text}
  {cfg : Recorder} {frame : Frame} {rest : List Frame}

/-- `Commands` has read a line and is handling it, or has just done so. All threads have gone on
meanwhile, and no control message has failed at a moment that deadlocks `Fatal`. -/
inductive Handles (settings : Settings) (c : Conversation) (cmd : Text) : Conversation → Prop
  | read {turn : Turn} {next : Conversation} {request : Request} :
      turn.cmd = cmd → turn.action = .thread .commands (.request request) →
      c.step settings turn = some next → Handles settings c cmd next
  | step {later next : Conversation} {turn : Turn} :
      Handles settings c cmd later → later.recorder.stack .commands ≠ [.command .loop] →
      CallbackSafe later.recorder turn.action → later.step settings turn = some next →
      Handles settings c cmd next

/-- `process_command` returns normally for a line and calls `send_status` once. -/
structure RepliesOnce (settings : Settings) (c : Conversation) (cmd : Text) : Prop where
  /-- No exception escapes, whatever it finds of the recorder. -/
  body : ∀ parent, AnswersOnce parent c.session cmd
  begins : ∃ next, Handles settings c cmd next
  /-- `send_status` is not called twice. -/
  atMost : ∀ later, Handles settings c cmd later →
    replies later.session.trace = replies c.session.trace ∨
      ∃ reply, replies later.session.trace = replies c.session.trace ++ [reply]
  /-- It has been called when `Commands::Run` comes to look for the next line. -/
  once : ∀ later, Handles settings c cmd later →
    later.recorder.stack .commands = [.command .loop] →
      ∃ reply, replies later.session.trace = replies c.session.trace ++ [reply]
  /-- The thread has fewer statements left after each one, as long as no control message of its
  own fails. -/
  nearer : ∀ later choice turn next, Handles settings c cmd later →
    later.recorder.stack .commands ≠ [.command .loop] →
      turn.action = .thread .commands choice → choice ≠ .usbError →
        later.step settings turn = some next →
          stackWork (next.recorder.stack .commands) < stackWork (later.recorder.stack .commands)
  /-- However far it is and wherever the other threads are, it comes to its end. -/
  returns : ∀ later, Handles settings c cmd later →
    ∃ schedule last, (∀ turn ∈ schedule, Undisturbed turn.action) ∧
      (conversation settings).run later schedule = some last ∧
      last.recorder.stack .commands = [.command .loop]

/-- What is known while a line is handled. -/
structure HandlesLaw (c later : Conversation) : Prop where
  reach : recorder.ReachableBy CallbackSafe later.recorder
  answers : AnswerLaw later
  base : later.recorder.base .commands = some (.command .loop)
  legal : ∀ pending, later.pending = some pending → pending.request.throws = false
  said : later.pending ≠ none ∧ replies later.session.trace = replies c.session.trace ∨
    later.pending = none ∧
      ∃ reply, replies later.session.trace = replies c.session.trace ++ [reply]

/-- Until it returns, the thread is in a function that it has called. -/
theorem HandlesLaw.exists_inner (hlaw : HandlesLaw c later)
    (hleft : later.recorder.stack .commands ≠ [.command .loop]) :
    ∃ frame rest, later.recorder.stack .commands = frame :: rest ∧ frame.kind ≠ .base := by
  have hshape := wellShaped hlaw.reach.reachable
  cases hstack : later.recorder.stack .commands with
  | nil => simpa [Config.base, hstack] using hlaw.base
  | cons frame rest =>
      refine ⟨frame, rest, rfl, fun hbase => hleft ?_⟩
      obtain rfl := hshape.rest_eq_nil hstack hbase
      simpa [Config.base, hstack] using hlaw.base

theorem testsRun_of_kind (hkind : frame.kind ≠ .base) : frame.testsRun = false := by
  cases frame with
  | command point | wait point | buffer point =>
      cases point <;> simp_all [Frame.kind, Frame.testsRun]
  | _ => rfl

theorem joins_of_kind {s : Shared} (hkind : frame.kind ≠ .base) : frame.joins s = false := by
  cases frame with
  | dtor point => simp [Frame.kind] at hkind
  | _ => rfl

/-- While a line is handled, none is read. -/
theorem HandlesLaw.heardIn_eq_nil (hlaw : HandlesLaw c later)
    (hturn : TurnShape settings later next turn) : heardIn later turn = [] := by
  refine List.eq_nil_iff_forall_not_mem.mpr fun line hline => ?_
  have hpoll := (hturn.legal line hline).2.2.2
  simpa [Config.base, hpoll] using hlaw.base

theorem HandlesLaw.step (hlaw : HandlesLaw c later)
    (hleft : later.recorder.stack .commands ≠ [.command .loop])
    (hok : CallbackSafe later.recorder turn.action) (hstep : later.step settings turn = some next) :
    HandlesLaw c next := by
  have hshape := wellShaped hlaw.reach.reachable
  have hturn := turnShape hshape hlaw.answers hstep
  have hquiet := hlaw.heardIn_eq_nil hturn
  refine ⟨.step hlaw.reach hok hturn.recorder, answerLaw_step hshape hlaw.answers hstep, ?_,
    fun pending hpending => ?_, ?_⟩
  · rw [← hlaw.base]
    rcases commands_cases hturn.recorder with
      ⟨choice, frame, rest, s', frames, -, hstack, -, hafter⟩ | ⟨-, hsame⟩
    · have hrest : rest ≠ [] := by
        rintro rfl
        exact hleft (by simpa [Config.base, hstack] using hlaw.base)
      rw [hafter]
      exact Machine.base_update_of_ne_nil hstack hrest
    · rw [Config.base, hsame, Config.base]
  · rcases hturn.said with ⟨hwaiting, -⟩ | ⟨line, result, returned, -, hnone, -⟩
    · rw [hquiet, List.append_nil] at hwaiting
      exact hlaw.legal pending (pending_of_waiting_eq hwaiting ▸ hpending)
    · simp [hnone] at hpending
  · rcases hturn.said with ⟨hwaiting, hsession⟩ |
      ⟨line, result, returned, hline, hnone, -, -, hrun⟩
    · rw [hquiet, List.append_nil] at hwaiting
      rw [hsession, pending_of_waiting_eq hwaiting]
      exact hlaw.said
    · rw [hquiet, List.append_nil] at hline
      have hpending := pending_of_waiting hline
      rcases hlaw.said with ⟨-, hreplies⟩ | ⟨hnot, -⟩
      · obtain ⟨status, hreply⟩ := reply_of_run hrun
        exact .inr ⟨hnone, _, hreplies ▸ hreply⟩
      · simp [hpending] at hnot

/-- The line is read, and answered at once or not. -/
theorem handlesLaw_read {session : Session} {request : Request}
    (hreach : recorder.ReachableBy CallbackSafe cfg)
    (hpoll : cfg.stack .commands = [.command .poll])
    (haction : turn.action = .thread .commands (.request request))
    (hstep : Conversation.step settings ⟨cfg, session, none⟩ turn = some next) :
    HandlesLaw ⟨cfg, session, none⟩ next := by
  have hshape := wellShaped hreach.reachable
  have hanswers : AnswerLaw ⟨cfg, session, none⟩ := fun pending hpending => by cases hpending
  have hturn := turnShape (c := ⟨cfg, session, none⟩) hshape hanswers hstep
  obtain ⟨line, hline⟩ : ∃ line, heardIn ⟨cfg, session, none⟩ turn = [line] := by
    simp [heardIn, haction, Config.top, hpoll]
  have hlegal := (hturn.legal line (hline ▸ List.mem_singleton_self _)).2.1
  have hsafe : CallbackSafe cfg turn.action := by
    rw [haction]
    trivial
  refine ⟨.step hreach hsafe hturn.recorder, answerLaw_step hshape hanswers hstep, ?_,
    fun pending hpending => ?_, ?_⟩
  · obtain ⟨frame, rest, s', frames, hstack, hexec, hafter⟩ :=
      Machine.step_thread_iff.mp (haction ▸ hturn.recorder)
    obtain ⟨rfl, rfl⟩ := List.cons.inj (hstack.symm.trans hpoll)
    have hadvance : advance .commands (.command .poll) (.request request) cfg.shared =
        some (s', frames) := advance_of_exec rfl hexec
    simp only [advance, commandStep] at hadvance
    split at hadvance <;> cases hadvance
    simp [hafter, Config.base]
  · rcases hturn.said with ⟨hwaiting, -⟩ | ⟨other, result, returned, -, hnone, -⟩
    · have hsame : waiting next = [line] := by simpa [waiting, hline] using hwaiting
      rw [pending_of_waiting hsame, Option.some.injEq] at hpending
      exact hpending ▸ hlegal
    · simp [hnone] at hpending
  · rcases hturn.said with ⟨hwaiting, hsession⟩ | ⟨other, result, returned, -, hnone, -, -, hrun⟩
    · have hsame : waiting next = [line] := by simpa [waiting, hline] using hwaiting
      exact .inl ⟨by simp [pending_of_waiting hsame], by rw [hsession]⟩
    · obtain ⟨status, hreply⟩ := reply_of_run hrun
      exact .inr ⟨hnone, _, hreply⟩

theorem handlesLaw {session : Session} (hreach : recorder.ReachableBy CallbackSafe cfg)
    (hpoll : cfg.stack .commands = [.command .poll])
    (hhandles : Handles settings ⟨cfg, session, none⟩ cmd later) :
    HandlesLaw ⟨cfg, session, none⟩ later := by
  induction hhandles with
  | read _ haction hstep => exact handlesLaw_read hreach hpoll haction hstep
  | step _ hleft hok hstep ih => exact ih.step hleft hok hstep

/-- A line whose data is accepted can be answered where it comes to that. -/
theorem exists_answer (settings : Settings) (s : Shared) (answers : Request → Option (Bool × Text))
    (hlegal : ∀ pending, c.pending = some pending → pending.request.throws = false) :
    ∃ answered, c.answer settings s answers = some answered := by
  unfold Conversation.answer
  cases hpending : c.pending with
  | none => exact ⟨c, rfl⟩
  | some pending =>
      cases hresult : answers pending.request with
      | none => exact ⟨c, by simp [hresult]⟩
      | some result =>
          obtain ⟨session, hrun, -⟩ := handle_answers (settings.parent s result) pending.cmd
            pending.serial c.session (hlegal pending hpending)
          exact ⟨{ c with session, pending := none }, by simp [hresult, hrun]⟩

/-- A statement of the recorder that reads no line is one of the conversation. -/
theorem exists_turn (settings : Settings) {tid : Tid} {choice : Choice} {after : Recorder}
    (hlegal : ∀ pending, c.pending = some pending → pending.request.throws = false)
    (hquiet : ∀ request, choice ≠ .request request)
    (hstep : recorder.step c.recorder (.thread tid choice) = some after) :
    ∃ next, c.step settings ⟨.thread tid choice, [], .default, []⟩ = some next ∧
      next.recorder = after := by
  have hread (frame : Frame) : c.read frame choice [] = some c := by
    unfold Conversation.read
    split
    case h_1 request => exact absurd rfl (hquiet request)
    case h_2 => rfl
  have hrecorder : machine.step c.recorder (.thread tid choice) = some after := hstep
  simp only [Conversation.step, hrecorder, Option.bind_some]
  split
  case h_1 frame rest haction hstack =>
    split
    · exact ⟨_, rfl, rfl⟩
    · obtain ⟨rfl, rfl⟩ := Action.thread.inj haction
      rw [hread, Option.bind_some]
      obtain ⟨answered, hanswered⟩ := exists_answer settings _ _ hlegal
      exact ⟨_, by rw [hanswered]; rfl, rfl⟩
  case h_2 => exact ⟨_, rfl, rfl⟩

/-- A line whose data is accepted can be read. -/
theorem exists_handles {session : Session} (hpoll : cfg.stack .commands = [.command .poll])
    (hline : OneLine cmd) (hthrows : (parseLine session.apiVersion cmd).2.throws = false) :
    ∃ next, Handles settings ⟨cfg, session, none⟩ cmd next := by
  let request := (parseLine session.apiVersion cmd).2
  have hexec : exec .commands (.command .poll) (.request request) cfg.shared =
      some (cfg.shared, requestFrames request ++ [.command .loop]) := by
    simp [exec, advance, commandStep, request, hthrows]
  have hrecorder : machine.step cfg (.thread .commands (.request request)) =
      some ⟨cfg.shared, Function.update cfg.stack .commands
        (requestFrames request ++ [.command .loop] ++ [])⟩ :=
    Machine.step_thread_iff.mpr ⟨_, _, _, _, hpoll, hexec, rfl⟩
  let heard : Conversation :=
    ⟨cfg, session, some ⟨cmd, (parseLine session.apiVersion cmd).1, request⟩⟩
  have hread : Conversation.read ⟨cfg, session, none⟩ (.command .poll) (.request request) cmd =
      some heard := by
    simp [Conversation.read, hline, request, heard]
  have hlegal : ∀ pending, heard.pending = some pending → pending.request.throws = false := by
    intro pending hpending
    obtain rfl := Option.some.inj hpending
    exact hthrows
  let turn : Turn := ⟨.thread .commands (.request request), cmd, .default, []⟩
  let errmsg := (Device.encodingRun turn.params turn.calls).errmsg.toList
  obtain ⟨answered, hanswered⟩ := exists_answer settings cfg.shared
    ((Frame.command .poll).answers [] cfg.shared errmsg) hlegal
  have hstep : Conversation.step settings ⟨cfg, session, none⟩ turn =
      some { answered with recorder := ⟨cfg.shared, Function.update cfg.stack .commands
        (requestFrames request ++ [.command .loop] ++ [])⟩ } := by
    simp only [Conversation.step, turn, hrecorder, Option.bind_some, hpoll, reduceCtorEq, if_false]
    rw [hread, Option.bind_some, hanswered]
    rfl
  exact ⟨_, .read (by rfl) (by rfl) hstep⟩

/-- `process_command` comes to its end. -/
theorem exists_return {session : Session} (hreach : recorder.ReachableBy CallbackSafe cfg)
    (hpoll : cfg.stack .commands = [.command .poll])
    (hhandles : Handles settings ⟨cfg, session, none⟩ cmd later) :
    ∃ schedule last, (∀ turn ∈ schedule, Undisturbed turn.action) ∧
      (conversation settings).run later schedule = some last ∧
      last.recorder.stack .commands = [.command .loop] := by
  obtain ⟨team, hteam⟩ := exists_team [.commands] (handlesLaw hreach hpoll hhandles).reach
  let P (state : Conversation) : Prop :=
    Handles settings ⟨cfg, session, none⟩ cmd state ∧ Team [.commands] team state.recorder
  have hnearer (state : Conversation) (hstate : P state)
      (hleft : ¬ state.recorder.stack .commands = [.command .loop]) :
      ∃ turn next, Undisturbed turn.action ∧ (conversation settings).step state turn = some next ∧
        P next ∧ teamWork [.commands] team next.recorder <
          teamWork [.commands] team state.recorder := by
    obtain ⟨hhere, hmembers⟩ := hstate
    have hlaw := handlesLaw hreach hpoll hhere
    obtain ⟨frame, rest, hstack, hkind⟩ := hlaw.exists_inner hleft
    have hframe : frame ≠ .driver := by
      rintro rfl
      exact hkind rfl
    obtain ⟨tid, frame, rest, after, -, hstep, hnext, hless⟩ :=
      hmembers.exists_step (.inl (List.mem_singleton_self _)) hstack hframe (joins_of_kind hkind)
        fun other hother frame' rest' hstack' htests => by
          obtain rfl := List.mem_singleton.mp hother
          obtain ⟨rfl, rfl⟩ := List.cons.inj (hstack.symm.trans hstack')
          simp [testsRun_of_kind hkind] at htests
    have hquiet (request : Request) : frame.goesOn ≠ .request request := by
      unfold Frame.goesOn
      split <;> simp
    have hchoice := goesOn_ne_usbError frame
    obtain ⟨next, hturn, rfl⟩ := exists_turn settings hlaw.legal hquiet hstep
    have hsafe : CallbackSafe state.recorder (.thread tid frame.goesOn) := by
      cases hgoes : frame.goesOn <;> trivial
    exact ⟨⟨.thread tid frame.goesOn, [], .default, []⟩, next, hchoice, hturn,
      ⟨.step hhere hleft hsafe hturn, hnext⟩, hless⟩
  obtain ⟨schedule, last, hallowed, -, hrun, -, hreturned⟩ :=
    System.exists_run_of_rank (fun state : Conversation => teamWork [.commands] team state.recorder)
      hnearer ⟨hhandles, hteam⟩
  exact ⟨schedule, last, hallowed, hrun, hreturned⟩

theorem stackWork_of_turn (hlaw : HandlesLaw c later) {choice : Choice}
    (hleft : later.recorder.stack .commands ≠ [.command .loop])
    (haction : turn.action = .thread .commands choice) (hchoice : choice ≠ .usbError)
    (hstep : later.step settings turn = some next) :
    stackWork (next.recorder.stack .commands) < stackWork (later.recorder.stack .commands) := by
  have hturn := turnShape (wellShaped hlaw.reach.reachable) hlaw.answers hstep
  obtain ⟨frame, rest, hstack, hkind⟩ := hlaw.exists_inner hleft
  obtain ⟨frame', rest', s', frames, hstack', hexec, hafter⟩ :=
    Machine.step_thread_iff.mp (haction ▸ hturn.recorder)
  obtain ⟨rfl, rfl⟩ := List.cons.inj (hstack.symm.trans hstack')
  rcases exec_eq_some_iff.mp hexec with ⟨husb, -⟩ | ⟨-, hadvance⟩
  · exact absurd husb hchoice
  have hframe : frame ≠ .driver := by
    rintro rfl
    exact hkind rfl
  have hless := stackWork_advance hframe (by simp [testsRun_of_kind hkind]) hadvance
  simp only [hafter, Function.update_self, hstack, stackWork, List.map_append, List.sum_append,
    List.map_cons, List.sum_cons] at hless ⊢
  omega

/-- In every state that is reached without a deadlock of `Fatal`, in which `Commands` looks for a
line, and whatever the API version is then: a line is answered once, by a `process_command` that
returns, exactly if it carries no data that `std::stoul` rejects. -/
theorem repliesOnce_iff (hreach : recorder.ReachableBy CallbackSafe cfg)
    (hpoll : cfg.stack .commands = [.command .poll]) (session : Session) (hline : OneLine cmd) :
    RepliesOnce settings ⟨cfg, session, none⟩ cmd ↔
      (parseLine session.apiVersion cmd).2.throws = false := by
  refine ⟨fun honce => (answersOnce_iff .idle session cmd).mp (honce.body .idle),
    fun hthrows => ?_⟩
  have hlaw {later : Conversation} (hhandles : Handles settings ⟨cfg, session, none⟩ cmd later) :=
    handlesLaw hreach hpoll hhandles
  refine ⟨fun parent => (answersOnce_iff parent session cmd).mpr hthrows,
    exists_handles hpoll hline hthrows, fun later hhandles => ?_,
    fun later hhandles hreturned => ?_,
    fun later choice turn next hhandles hleft haction hchoice hstep =>
      stackWork_of_turn (hlaw hhandles) hleft haction hchoice hstep,
    fun later hhandles => exists_return hreach hpoll hhandles⟩
  · rcases (hlaw hhandles).said with ⟨-, hnone⟩ | ⟨-, hone⟩
    · exact .inl hnone
    · exact .inr hone
  · rcases (hlaw hhandles).said with ⟨hpending, -⟩ | ⟨-, hone⟩
    · exact absurd (pending_of_singleton (hlaw hhandles).answers hreturned) hpending
    · exact hone

/-- `Commands` looks for a line while a recording is running. -/
theorem exists_polling (ok : Recorder → Action Tid Choice ℕ → Prop)
    (hok : ∀ cfg, ∀ choice ∈ startRecording ++ [Choice.proceed],
      ok cfg (.thread .commands choice)) :
    ∃ cfg, recorder.ReachableBy ok cfg ∧ cfg.shared.streaming = true ∧
      cfg.stack .commands = [.command .poll] := by
  have hrun : (recorder.run (initial 0)
      ((startRecording ++ [Choice.proceed]).map (.thread .commands))).map
      (fun cfg => (cfg.shared.streaming, cfg.stack .commands)) =
      some (true, [.command .poll]) := by rfl
  obtain ⟨cfg, hreach, -, hvalue⟩ := exists_reachableBy_of_commands (fun cfg _ => hok cfg) hrun
  exact ⟨cfg, hreach, Prod.mk.inj hvalue⟩

/-- A recording is stopped, under API version 2. -/
theorem repliesOnce_stopStreaming : ∃ cfg : Recorder, cfg.shared.streaming = true ∧
    RepliesOnce plainSettings ⟨cfg, { Session.initial with apiVersion := 2 }, none⟩
      (text "7:StopStreaming") := by
  obtain ⟨cfg, hreach, hstreaming, hpoll⟩ := exists_polling CallbackSafe
    (by simp [startRecording, openDevice, startCapture, dispatch, goOn, CallbackSafe])
  have hline : OneLine (text "7:StopStreaming") := by decide
  exact ⟨cfg, hstreaming, (repliesOnce_iff hreach hpoll _ hline).mpr (by decide +kernel)⟩

theorem not_repliesOnce :
    ¬ ∀ (settings : Settings) (cfg : Recorder) (session : Session) (cmd : Text),
      recorder.Reachable cfg → cfg.stack .commands = [.command .poll] → OneLine cmd →
        RepliesOnce settings ⟨cfg, session, none⟩ cmd := by
  intro hall
  obtain ⟨cfg, hreach, -, hpoll⟩ := exists_polling (fun _ _ => True) fun _ _ _ => trivial
  have hline : OneLine (text "APIVersion:x") := by decide
  have hthrows : (parseLine Session.initial.apiVersion (text "APIVersion:x")).2.throws = true := by
    decide +kernel
  have honce := (hall plainSettings cfg .initial _ hreach hpoll hline).body .idle
  exact not_answersOnce_of_throws hthrows honce

/-- An encoder thread waits for the run mutex that it holds, and `Commands` waits for it too. -/
structure Stuck (cfg : Recorder) : Prop where
  owner : cfg.shared.runMutex = some (.encoder 0)
  encoder : cfg.top (.encoder 0) = some (.fatal (.lock usbErrorMsg))
  commands : cfg.stack .commands = [.command .replyLock, .command .loop]

/-- They wait for ever. -/
theorem Stuck.step {cfg' : Recorder} {action : Action Tid Choice ℕ} (hstuck : Stuck cfg)
    (hshape : WellShaped cfg) (hstep : machine.step cfg action = some cfg') : Stuck cfg' := by
  cases action with
  | env elapsed =>
      obtain rfl := Machine.step_env_iff.mp hstep
      exact ⟨hstuck.owner, hstuck.encoder, hstuck.commands⟩
  | thread tid choice =>
      obtain ⟨frame, rest, s', frames, hstack, hexec, rfl⟩ := Machine.step_thread_iff.mp hstep
      have hencoder : tid ≠ .encoder 0 := by
        rintro rfl
        obtain rfl := Option.some.inj ((top_of_stack hstack).symm.trans hstuck.encoder)
        have hlocked : fatalStep (.encoder 0) cfg.shared (.lock usbErrorMsg) = some (s', frames) :=
          advance_of_exec rfl hexec
        simp [fatalStep, hstuck.owner] at hlocked
      have hcommands : tid ≠ .commands := by
        rintro rfl
        obtain ⟨rfl, rfl⟩ := List.cons.inj (hstack.symm.trans hstuck.commands)
        have hlocked : commandStep .commands choice cfg.shared .replyLock = some (s', frames) :=
          advance_of_exec rfl hexec
        simp [commandStep, hstuck.owner] at hlocked
      have hhere : runView.holds frame = true → runView.owner cfg.shared = some tid :=
        hshape.run.owner_of_mem (hstack ▸ List.mem_cons_self)
      refine ⟨?_, ?_, ?_⟩
      · exact (runView_accounted.others hexec hhere _ (Ne.symm hencoder)).mpr hstuck.owner
      · rw [top_of_ne (Ne.symm hencoder)]
        exact hstuck.encoder
      · exact (Function.update_of_ne (Ne.symm hcommands) _ _).trans hstuck.commands

theorem Stuck.run {schedule : List Turn} {last : Conversation} (hstuck : Stuck c.recorder)
    (hshape : WellShaped c.recorder)
    (hrun : (conversation settings).run c schedule = some last) : Stuck last.recorder := by
  induction schedule generalizing c with
  | nil =>
      rw [System.run, Option.some.injEq] at hrun
      exact hrun ▸ hstuck
  | cons turn schedule ih =>
      obtain ⟨next, hstep, hrest⟩ := Option.bind_eq_some_iff.mp hrun
      have hrecorder := Conversation.recorder_of_step hstep
      exact ih (hstuck.step hshape hrecorder) (wellShaped_step hshape hrecorder) hrest

/-- After `Fatal` has deadlocked, `IsOpen?` is never answered. -/
theorem not_repliesOnce_stuck : ∃ cfg : Recorder, recorder.Reachable cfg ∧
    cfg.stack .commands = [.command .poll] ∧
      ¬ RepliesOnce plainSettings ⟨cfg, .initial, none⟩ (text "IsOpen?") := by
  have hrun : (recorder.run (initial 0)
      ((startRecording ++ [Choice.proceed]).map (.thread .commands) ++
        (.usbError :: goOn 10 ++ [Choice.usbError]).map (.thread (.encoder 0)))).map
      (fun cfg => (cfg.shared.runMutex, cfg.top (.encoder 0), cfg.stack .commands)) =
      some (some (.encoder 0), some (.fatal (.lock usbErrorMsg)), [.command .poll]) := by
    rfl
  obtain ⟨cfg, hreach, hvalue⟩ := System.exists_reachable_of_run (reachableBy_initial 0) hrun
  simp only [Prod.mk.injEq] at hvalue
  obtain ⟨howner, hencoder, hpoll⟩ := hvalue
  refine ⟨cfg, hreach, hpoll, fun honce => ?_⟩
  let turn := commandsTurn (.request .isOpen) (text "IsOpen?")
  have hexec : exec .commands (.command .poll) (.request .isOpen) cfg.shared =
      some (cfg.shared, [.command .replyLock, .command .loop]) := rfl
  have hrecorder : machine.step cfg turn.action = some ⟨cfg.shared,
      Function.update cfg.stack .commands [.command .replyLock, .command .loop]⟩ :=
    Machine.step_thread_iff.mpr ⟨_, _, _, _, hpoll, hexec, rfl⟩
  have hparsed : OneLine (text "IsOpen?") ∧ (parseLine 1 (text "IsOpen?")).2 = .isOpen := by
    decide +kernel
  obtain ⟨next, hstep⟩ : ∃ next,
      Conversation.step plainSettings ⟨cfg, .initial, none⟩ turn = some next := by
    simp only [Conversation.step, hrecorder, Option.bind_some]
    simp [turn, commandsTurn, hpoll, Conversation.read, Session.initial, hparsed,
      Conversation.answer, Frame.answers]
  have hafter := Option.some.inj (hrecorder.symm.trans (Conversation.recorder_of_step hstep))
  have hstuck : Stuck next.recorder := by
    have hother : Tid.encoder 0 ≠ .commands := by decide
    rw [← hafter]
    refine ⟨howner, ?_, by simp⟩
    simpa [Config.top, Function.update_of_ne hother] using hencoder
  obtain ⟨schedule, last, -, hschedule, hreturned⟩ :=
    honce.returns next (.read (by rfl) (by rfl) hstep)
  have hshape := wellShaped_step (wellShaped hreach) (Conversation.recorder_of_step hstep)
  have hlast := (hstuck.run hshape hschedule).commands
  rw [hreturned] at hlast
  simp at hlast

end HauppaugeUSB.MythTV

/-
# The recorder as a station

The threads of the recorder and the backend that talks to it are simulated by a station. Every
statement is matched by at most one operation of the station on its members, by the line that is
read with it and by the answer that is given with it, in this order. So however the threads
interleave, what happens to blocks, recordings, failures and lines is a run of a recorder without
threads, in which every answer is what is so at that moment.
-/

import HauppaugeUSB.Commands.Version
import HauppaugeUSB.Concurrency.Observer
import HauppaugeUSB.MythTV.Answering
import HauppaugeUSB.MythTV.Verdict

namespace HauppaugeUSB.MythTV

open HauppaugeUSB.Concurrency HauppaugeUSB.Commands

variable {tid : Tid} {frame : Frame} {choice : Choice} {s s' : Shared} {frames rest : List Frame}
  {cfg : Recorder} {settings : Settings} {c c' : Conversation} {turn : Turn}
  {hand : Option Block} {desk : Desk}

/-- How far the function has got that is called for the line. -/
def Conversation.stage (c : Conversation) : Stage := stageOf (c.recorder.stack .commands)

/-- What the members of `Commands` say. -/
def deskOf (c : Conversation) : Desk where
  version := c.session.apiVersion
  question := c.pending.map fun pending => ⟨pending.cmd, pending.serial, pending.request, c.stage⟩
  said := replies c.session.trace

/-- What the recorder looks like. -/
def stationOf (c : Conversation) : Station Block :=
  plantOf c.recorder.shared (handed (c.recorder.top .buffer)) (deskOf c)

/-- What a kind of thread stands for. -/
def Role.party : Role → Party
  | .main => .keeper
  | .commands => .backend
  | .buffer => .output
  | .encoder => .encoder

/-- What a statement of `StartEncoding` or `StopEncoding` does for the line that is handled. -/
def Conversation.serving (c : Conversation) (choice : Choice) : Option (Operation Block) :=
  match c.pending.map Pending.request, c.recorder.stack .commands with
  | some .startStreaming, [.start .set, _] => some .begin
  | some .stopStreaming, [.stop .test, _] =>
      if c.recorder.shared.streaming then some .halt else none
  | some .stopStreaming, [.stop .capture, _] =>
      if choice = .answer false then some .reject else none
  | _, _ => none

/-- The operation that a statement is the effect of. -/
def Conversation.operation (c : Conversation) (tid : Tid) (choice : Choice) :
    Option (Operation Block) :=
  ((c.recorder.top tid).bind (Frame.operation tid choice c.recorder.shared)).or
    (if tid = .commands then c.serving choice else none)

/-- The operation that a step is the effect of, and whose it is. -/
def operationIn (c : Conversation) (turn : Turn) : List (Party × Operation Block) :=
  match turn.action with
  | .env _ => []
  | .thread tid choice =>
      (c.operation tid choice).toList.map fun operation => (tid.role.party, operation)

/-- All that happens in a step: a line is read, the statement takes effect, and the line is
answered. -/
def operationsIn (c : Conversation) (turn : Turn) (c' : Conversation) :
    List (Party × Operation Block) :=
  ((heardIn c turn).map fun line => (.backend, .ask line.cmd)) ++ operationIn c turn ++
    ((replies c'.session.trace).drop (replies c.session.trace).length).map
      fun reply => (.backend, .tell reply.1)

/-- The members of `Commands` once the line has been read. -/
def deskHeard (c : Conversation) (turn : Turn) (stage : Stage) : Desk :=
  { deskOf c with
    question := (waiting c ++ heardIn c turn).head?.map fun line =>
      ⟨line.cmd, line.serial, line.request, stage⟩ }

theorem heardIn_cases (c : Conversation) (turn : Turn) :
    heardIn c turn = [] ∨ ∃ line, heardIn c turn = [line] ∧
      parseLine c.session.apiVersion line.cmd = (line.serial, line.request) := by
  unfold heardIn
  split
  · split
    · exact .inr ⟨_, rfl, rfl⟩
    · exact .inl rfl
  · exact .inl rfl

theorem run_asks (hanswer : AnswerLaw c) (hturn : TurnShape settings c c' turn) :
    (station Block settings.plate maxQueue).run (plantOf s hand (deskOf c))
        ((heardIn c turn).map fun line => (.backend, .ask line.cmd)) =
      some (plantOf s hand (deskHeard c turn c.stage)) := by
  rcases heardIn_cases c turn with hquiet | ⟨line, hline, hparsed⟩
  · have hsame : deskHeard c turn c.stage = deskOf c := by
      cases hpending : c.pending <;> simp [deskHeard, deskOf, hquiet, waiting, hpending]
    rw [hquiet, hsame]
    rfl
  · obtain ⟨honeLine, hthrows, -, hpoll⟩ := hturn.legal line (by simp [hline])
    have hnone := pending_of_singleton hanswer hpoll
    have hstage : c.stage = .asked := by simp [Conversation.stage, stageOf, hpoll]
    rw [hline, List.map_singleton, System.run_singleton]
    simp [Station.step, Operation.party, plantOf, deskOf, deskHeard, hline, hnone, hparsed,
      honeLine, hthrows, hstage, waiting]

/-- A function that only some threads execute has operations that are theirs. -/
theorem operation_party {operation : Operation Block}
    (hoperation : frame.operation tid choice s = some operation) :
    operation.party = frame.home.map Role.party := by
  cases frame with
  | fatal point | stop point | start point | openDev point | wait point | dtor point
  | command point | buffer point | fill point =>
      cases point <;> simp only [Frame.operation] at hoperation <;>
        (try split at hoperation) <;> cases hoperation <;> rfl
  | terminate =>
      simp only [Frame.operation] at hoperation
      split at hoperation <;> cases hoperation
      rfl
  | driver => cases hoperation

theorem run_perform {station' : Station Block} {operation : Option (Operation Block)}
    {start : Station Block} {party : Party}
    (hparty : ∀ op, operation = some op → op.party.all (· = party) = true)
    (hperform : start.perform settings.plate operation = some station') :
    (station Block settings.plate maxQueue).run start
      (operation.toList.map fun operation => (party, operation)) = some station' := by
  cases operation with
  | none => exact hperform
  | some op =>
      rw [Option.toList_some, List.map_singleton, System.run_singleton]
      simp only [hparty op rfl, if_true]
      exact hperform

/-- The statements that do something for a line, the requests that they do it for and the states
in which they do. -/
theorem serving_cases {operation : Operation Block} (hserving : c.serving choice = some operation) :
    ∃ pending bottom, c.pending = some pending ∧
      (pending.request = .startStreaming ∧
          c.recorder.stack .commands = [.start .set, bottom] ∧ operation = .begin ∨
        pending.request = .stopStreaming ∧
          c.recorder.stack .commands = [.stop .test, bottom] ∧
          c.recorder.shared.streaming = true ∧ operation = .halt ∨
        pending.request = .stopStreaming ∧
          c.recorder.stack .commands = [.stop .capture, bottom] ∧
          choice = .answer false ∧ operation = .reject) := by
  unfold Conversation.serving at hserving
  split at hserving
  case h_1 bottom hrequest hstack =>
    obtain ⟨pending, hpending, hrequest⟩ := Option.map_eq_some_iff.mp hrequest
    cases hserving
    exact ⟨pending, bottom, hpending, .inl ⟨hrequest, hstack, rfl⟩⟩
  case h_2 bottom hrequest hstack =>
    obtain ⟨pending, hpending, hrequest⟩ := Option.map_eq_some_iff.mp hrequest
    split at hserving <;> cases hserving
    exact ⟨pending, bottom, hpending, .inr (.inl ⟨hrequest, hstack, ‹_›, rfl⟩)⟩
  case h_3 bottom hrequest hstack =>
    obtain ⟨pending, hpending, hrequest⟩ := Option.map_eq_some_iff.mp hrequest
    split at hserving <;> cases hserving
    exact ⟨pending, bottom, hpending, .inr (.inr ⟨hrequest, hstack, ‹_›, rfl⟩)⟩
  case h_4 => cases hserving

/-- The statement does nothing for the line that is handled. -/
def Idle (c : Conversation) (turn : Turn) : Prop :=
  ∀ choice, turn.action = .thread .commands choice → c.serving choice = none

theorem operationIn_of_stack (hidle : Idle c turn) (haction : turn.action = .thread tid choice)
    (hstack : c.recorder.stack tid = frame :: rest) :
    operationIn c turn = (frame.operation tid choice c.recorder.shared).toList.map
      fun operation => (tid.role.party, operation) := by
  by_cases htid : tid = .commands
  · subst htid
    simp [operationIn, Conversation.operation, haction, top_of_stack hstack, hidle choice haction]
  · simp [operationIn, Conversation.operation, haction, top_of_stack hstack, htid]

theorem operationIn_of_serving {operation : Operation Block}
    (haction : turn.action = .thread .commands choice)
    (hstack : c.recorder.stack .commands = frame :: rest)
    (hnothing : frame.operation .commands choice c.recorder.shared = none)
    (hserving : c.serving choice = some operation) :
    operationIn c turn = [(.backend, operation)] := by
  simp [operationIn, Conversation.operation, haction, top_of_stack hstack, hnothing, hserving,
    Tid.role, Role.party]

/-- The store of `StartEncoding` is done for the line that asks for it. -/
theorem Idle.set_ne (hidle : Idle c turn) (hshape : WellShaped c.recorder) (hlaw : StartLaw c)
    (haction : turn.action = .thread tid choice) (hstack : c.recorder.stack tid = frame :: rest) :
    frame ≠ .start .set := by
  rintro rfl
  obtain rfl := eq_commands (hshape.top_role hstack rfl)
  obtain rfl := hshape.rest_of_request hstack rfl
  obtain ⟨pending, hpending, hrequest⟩ := hlaw .set (hstack ▸ List.mem_cons_self)
  have hserving := hidle choice haction
  simp [Conversation.serving, hpending, hrequest, hstack] at hserving

/-- Any other statement is the effect of its operation. -/
theorem run_operation {cfg' : Recorder} (hreach : recorder.Reachable c.recorder)
    (hlaw : StartLaw c) (hstep : machine.step c.recorder turn.action = some cfg')
    (hidle : Idle c turn) :
    (station Block settings.plate maxQueue).run
        (plantOf c.recorder.shared (handed (c.recorder.top .buffer)) desk) (operationIn c turn) =
      some (plantOf cfg'.shared (handed (cfg'.top .buffer)) desk) := by
  cases haction : turn.action with
  | env elapsed =>
      obtain rfl := Machine.step_env_iff.mp (haction ▸ hstep)
      simp only [operationIn, haction]
      rfl
  | thread tid choice =>
      obtain ⟨frame, rest, s', frames, hstack, hexec, rfl⟩ :=
        Machine.step_thread_iff.mp (haction ▸ hstep)
      have hshape := wellShaped hreach
      have hhome := hshape.home tid frame (hstack ▸ List.mem_cons_self)
      have hset := hidle.set_ne hshape hlaw haction hstack
      rw [operationIn_of_stack hidle haction hstack]
      refine run_perform (fun operation hoperation => ?_) (plant_step hreach hstack hexec hset)
      rw [operation_party hoperation]
      rcases hhome with hnone | hsome
      · simp [hnone]
      · simp [hsome]

section

attribute [local simp] System.run_singleton Operation.party Station.step plantOf deskHeard deskOf
  waiting Conversation.stage stageOf Frame.stage Shared.ledger

/-- What is done for the line that is handled: a recording begins, the device is told to end the
one that is on, or it has not been able to. -/
theorem run_serving {operation : Operation Block} (hreach : recorder.Reachable c.recorder)
    (hquiet : heardIn c turn = []) (haction : turn.action = .thread .commands choice)
    (hserving : c.serving choice = some operation)
    (hstep : machine.step c.recorder turn.action = some c'.recorder) :
    (station Block settings.plate maxQueue).run
        (plantOf c.recorder.shared (handed (c.recorder.top .buffer)) (deskHeard c turn c.stage))
        (operationIn c turn) =
      some (plantOf c'.recorder.shared (handed (c'.recorder.top .buffer))
        (deskHeard c turn c'.stage)) := by
  obtain ⟨frame, rest, s', frames, hstack, hexec, hafter⟩ :=
    Machine.step_thread_iff.mp (haction ▸ hstep)
  have hsound := sound hreach
  have hmem : frame ∈ c.recorder.stack .commands := hstack ▸ List.mem_cons_self
  have htop : c'.recorder.top .buffer = c.recorder.top .buffer := by
    rw [hafter]
    exact top_of_ne (by decide)
  obtain ⟨pending, bottom, hpending, hcase⟩ := serving_cases hserving
  rcases hcase with ⟨hrequest, hsame, rfl⟩ | ⟨hrequest, hsame, hstreaming, rfl⟩ |
    ⟨hrequest, hsame, rfl, rfl⟩ <;> obtain ⟨rfl, rfl⟩ := List.cons.inj (hstack.symm.trans hsame)
  · have hready := hsound.called .commands _ hmem rfl
    have hidle := hsound.starting .commands _ hmem rfl
    cases advance_of_exec rfl hexec
    rw [operationIn_of_serving haction hstack rfl hserving, htop]
    simp [hpending, hquiet, hrequest, hready, hidle, hafter, hstack]
  · have hadvance : advance .commands (.stop .test) choice c.recorder.shared = some (s', frames) :=
      advance_of_exec rfl hexec
    simp only [advance, stopStep, hstreaming, if_true] at hadvance
    cases hadvance
    rw [operationIn_of_serving haction hstack rfl hserving, htop]
    simp [hpending, hquiet, hrequest, hstreaming, hafter, hstack]
  · have hidle := (stoppedLaw hreach .commands _ hmem rfl).2 rfl
    cases hexec
    rw [operationIn_of_serving haction hstack rfl hserving, htop]
    simp [hpending, hquiet, hrequest, hidle, hafter, hstack]

end

/-- A statement after which a line is answered has no other effect. -/
theorem operation_of_answers {errmsg : Text} {result : Bool × Text} {request : Request}
    (hanswers : frame.answers rest s errmsg request = some result) :
    frame.operation tid choice s = none := by
  have hreturns (h : frame.result s errmsg = some result) :
      frame.operation tid choice s = none := by
    cases frame with
    | start point | stop point =>
        cases point <;> simp only [Frame.result] at h <;> (try cases h) <;> rfl
    | _ => cases h
  have hcommand {point : CommandPoint}
      (hpoint : (Frame.command point).operation tid choice s = none)
      (h : (if frame = .command point then some (true, []) else none) = some result) :
      frame.operation tid choice s = none := by
    split at h
    case isTrue hframe => rwa [hframe]
    case isFalse => cases h
  cases request with
  | startStreaming | stopStreaming =>
      exact hreturns (returns_of_answers (by simp) hanswers).2
  | _ => exact hcommand rfl hanswers

/-- And nothing is done for the line any more. -/
theorem serving_of_answers {errmsg : Text} {result : Bool × Text} {line : Heard}
    (hstack : c.recorder.stack .commands = frame :: rest)
    (hline : waiting c ++ heardIn c turn = [line])
    (hanswers : frame.answers rest c.recorder.shared errmsg line.request = some result) :
    c.serving choice = none := by
  cases hserving : c.serving choice with
  | none => rfl
  | some operation =>
      exfalso
      obtain ⟨pending, bottom, hpending, hcase⟩ := serving_cases hserving
      obtain rfl : line.toPending = pending := by
        simp only [waiting, hpending, Option.toList_some, List.map_cons, List.map_nil,
          List.cons_append, List.cons.injEq] at hline
        rw [← hline.1]
      rcases hcase with ⟨hrequest, hsame, -⟩ | ⟨hrequest, hsame, hstreaming, -⟩ |
        ⟨hrequest, hsame, -⟩ <;> obtain ⟨rfl, rfl⟩ := List.cons.inj (hstack.symm.trans hsame)
      · have hresult := (returns_of_answers (.inl hrequest) hanswers).2
        cases hresult
      · have hresult := (returns_of_answers (.inr hrequest) hanswers).2
        simp [Frame.result, hstreaming] at hresult
      · have hresult := (returns_of_answers (.inr hrequest) hanswers).2
        cases hresult

/-- A request that has just been read is not served yet. -/
theorem stageOf_request (request : Request) :
    stageOf (requestFrames request ++ [.command .loop]) = .asked := by
  cases request <;> rfl

theorem startStep_stage {point : StartPoint} (hset : point ≠ .set)
    (hstep : startStep choice s point = some (s', frames)) (hgoesOn : frames ≠ []) :
    ∃ next, frames = [next] ∧ next.stage = (Frame.start point).stage := by
  cases point <;> simp only [startStep] at hstep <;> (try split at hstep) <;> cases hstep <;>
    simp_all [Frame.stage]

theorem stopStep_stage {point : StopPoint} (htest : point = .test → s.streaming = false)
    (hcapture : point = .capture → choice ≠ .answer false)
    (hstep : stopStep tid choice s point = some (s', frames)) (hgoesOn : frames ≠ []) :
    ∃ next, frames = [next] ∧ next.stage = (Frame.stop point).stage := by
  cases point <;> simp only [stopStep] at hstep <;> (try split at hstep) <;> cases hstep <;>
    simp_all [Frame.stage]

/-- What is above the function that was called for a line does not matter, and the function gets
no further itself. -/
theorem stageOf_called {above above' : List Frame} {last last' bottom : Frame}
    (hexec : exec .commands frame choice s = some (s', frames))
    (hbefore : frame :: rest = above ++ [last, bottom])
    (hafter : frames ++ rest = above' ++ [last', bottom])
    (hstep : frame :: rest = [last, bottom] → frames ≠ [] →
      advance .commands last choice s = some (s', frames) →
      ∃ next, frames = [next] ∧ next.stage = last.stage) :
    stageOf (frames ++ rest) = stageOf (frame :: rest) := by
  cases above with
  | cons head above =>
      obtain rfl : rest = above ++ [last, bottom] := (List.cons.inj hbefore).2
      rw [← List.append_assoc, ← List.cons_append, stageOf_above, stageOf_above]
  | nil =>
      obtain ⟨rfl, rfl⟩ := List.cons.inj hbefore
      have hhere : stageOf [frame, bottom] = frame.stage := stageOf_above [] frame bottom
      have hgoesOn : frames ≠ [] := by
        rintro rfl
        have hlength := congrArg List.length hafter
        simp at hlength
      rw [hhere]
      rcases exec_eq_some_iff.mp hexec with ⟨-, -, -, -, -, rfl⟩ | ⟨-, hadvance⟩
      · exact stageOf_above [_] frame bottom
      · obtain ⟨next, rfl, hstage⟩ := hstep rfl hgoesOn hadvance
        rw [← hstage]
        exact stageOf_above [] next bottom

/-- A function that goes on for a line has got no further when nothing is done for the line. -/
theorem stageOf_step {pending : Pending} (hpending : c.pending = some pending)
    (hstack : c.recorder.stack .commands = frame :: rest) (hserving : c.serving choice = none)
    (hexec : exec .commands frame choice c.recorder.shared = some (s', frames))
    (hawaits : AwaitsAnswer pending.request (frame :: rest))
    (hlater : AwaitsAnswer pending.request (frames ++ rest)) :
    stageOf (frames ++ rest) = stageOf (frame :: rest) := by
  cases hrequest : pending.request with
  | apiVersionQuery | versionQuery | isOpen | apiVersion data =>
      rw [hrequest] at hawaits hlater
      rcases hawaits with hbefore | hbefore <;> rcases hlater with hafter | hafter <;>
        rw [hbefore, hafter] <;> rfl
  | xon | xoff =>
      rw [hrequest] at hawaits hlater
      rw [hawaits, hlater]
  | startStreaming =>
      rw [hrequest] at hawaits hlater
      obtain ⟨above, point, hbefore⟩ := hawaits
      obtain ⟨above', later, hafter⟩ := hlater
      refine stageOf_called hexec hbefore hafter fun hcalled hgoesOn hstep => ?_
      rw [hcalled] at hstack
      refine startStep_stage ?_ hstep hgoesOn
      rintro rfl
      simp [Conversation.serving, hpending, hrequest, hstack] at hserving
  | stopStreaming =>
      rw [hrequest] at hawaits hlater
      obtain ⟨above, point, hbefore⟩ := hawaits
      obtain ⟨above', later, hafter⟩ := hlater
      refine stageOf_called hexec hbefore hafter fun hcalled hgoesOn hstep => ?_
      rw [hcalled] at hstack
      refine stopStep_stage ?_ ?_ hstep hgoesOn
      · rintro rfl
        simpa [Conversation.serving, hpending, hrequest, hstack] using hserving
      · rintro rfl rfl
        simp [Conversation.serving, hpending, hrequest, hstack] at hserving
  | _ =>
      rw [hrequest] at hawaits
      exact hawaits.elim

/-- While a line is handled, it gets further only with what is done for it. -/
theorem stage_of_idle {pending : Pending} (hanswer : AnswerLaw c) (hlater : AnswerLaw c')
    (hturn : TurnShape settings c c' turn) (hidle : Idle c turn)
    (hwaiting : waiting c' = waiting c ++ heardIn c turn) (hpending : c'.pending = some pending) :
    c'.stage = c.stage := by
  rcases commands_cases hturn.recorder with
    ⟨choice, frame, rest, s', frames, haction, hstack, hexec, hafter⟩ | ⟨-, hsame⟩
  case inr => simp only [Conversation.stage, hsame]
  have hstack' : c'.recorder.stack .commands = frames ++ rest := by simp [hafter]
  simp only [Conversation.stage, hstack, hstack']
  rcases heardIn_cases c turn with hquiet | ⟨line, hline, -⟩
  · have hbefore : c.pending = some pending := by
      rw [hquiet, List.append_nil] at hwaiting
      rw [← pending_of_waiting_eq hwaiting, hpending]
    exact stageOf_step hbefore hstack (hidle choice haction) hexec (hstack ▸ hanswer _ hbefore)
      (hstack' ▸ hlater _ hpending)
  · -- The line has just been read.
    obtain ⟨-, -, hrequest, hpoll⟩ := hturn.legal line (by simp [hline])
    obtain ⟨rfl, rfl⟩ := List.cons.inj (hstack.symm.trans hpoll)
    obtain rfl := (Action.thread.inj (haction.symm.trans hrequest)).2
    have hadvance : commandStep .commands (.request line.request) c.recorder.shared .poll =
        some (s', frames) := advance_of_exec rfl hexec
    simp only [commandStep] at hadvance
    split at hadvance <;> cases hadvance
    rw [List.append_nil, stageOf_request]
    rfl

/-- What `Commands` knows of the line, if it has been read and not answered. -/
theorem deskHeard_eq (hwaiting : waiting c' = waiting c ++ heardIn c turn)
    (hsession : c'.session = c.session) {stage : Stage}
    (hstage : ∀ pending, c'.pending = some pending → c'.stage = stage) :
    deskHeard c turn stage = deskOf c' := by
  rw [deskHeard, ← hwaiting]
  cases hpending : c'.pending with
  | none => simp [waiting, deskOf, hsession, hpending]
  | some pending => simp [waiting, deskOf, hsession, hpending, hstage pending hpending]

/-- The line that has been read is answered with what is so. -/
theorem run_tells {line : Heard} {result : Bool × Text} {returned : Bool} {errmsg : Text}
    (hreach : recorder.Reachable c.recorder) (hanswer : AnswerLaw c)
    (hturn : TurnShape settings c c' turn) (hline : waiting c ++ heardIn c turn = [line])
    (hnone : c'.pending = none) (hstack : c.recorder.stack .commands = frame :: rest)
    (hanswers : frame.answers rest c.recorder.shared errmsg line.request = some result)
    (hrun : (handle (settings.parent c.recorder.shared result) line.cmd line.serial
      line.request).run c.session = .ok returned c'.session) :
    (station Block settings.plate maxQueue).run
        (plantOf c.recorder.shared hand (deskHeard c turn c.stage))
        (((replies c'.session.trace).drop (replies c.session.trace).length).map
          fun reply => (.backend, .tell reply.1)) =
      some (plantOf c.recorder.shared hand (deskOf c')) := by
  have hawaits : AwaitsAnswer line.request (frame :: rest) ∨ frame = .command .poll := by
    rcases heardIn_cases c turn with hquiet | ⟨heard, hheard, -⟩
    · rw [hquiet, List.append_nil] at hline
      exact .inl (hstack ▸ hanswer _ (pending_of_waiting hline))
    · have hpoll := (hturn.legal heard (by simp [hheard])).2.2.2
      exact .inr (List.cons.inj (hstack.symm.trans hpoll)).1
  have hfits : Fits c.recorder.shared c.stage line.request result := by
    rw [Conversation.stage, hstack]
    exact fits_of_answers hreach hstack hawaits hanswers
  obtain ⟨status, hreplies, htells⟩ :=
    answers_of_fits hand (deskHeard c turn c.stage) hfits hrun
  let question : Question := ⟨line.cmd, line.serial, line.request, c.stage⟩
  have hquestion : (deskHeard c turn c.stage).question = some question := by
    simp [deskHeard, hline, question]
  have hversion : (plantOf c.recorder.shared hand (deskHeard c turn c.stage)).versionAfter
      line.request = c'.session.apiVersion := by
    rw [handle_version hrun]
    cases line.request <;> try rfl
    cases hfatal : c.recorder.shared.fatal <;>
      simp [Station.versionAfter, versionAfter, plantOf, Settings.parent, hfatal, deskHeard, deskOf]
  have hdesk : deskOf c' = ⟨c'.session.apiVersion, none, replies c.session.trace ++
      [(status, (deskHeard c turn c.stage).lineOf question status)]⟩ := by
    simp only [deskOf, hnone, hreplies]
    rfl
  have hstep : (plantOf c.recorder.shared hand (deskHeard c turn c.stage)).step settings.plate
      maxQueue (.tell status) = _ := Station.step_tell hquestion htells
  rw [hversion] at hstep
  rw [hreplies, List.drop_left, List.map_singleton, System.run_singleton, hdesk]
  exact hstep

/-- Every step is what its operations make of the station. -/
theorem simulates_step (hreach : (conversation settings).Reachable c)
    (hstep : c.step settings turn = some c') :
    (station Block settings.plate maxQueue).run (stationOf c) (operationsIn c turn c') =
      some (stationOf c') := by
  have hrecorder := (talkLaw hreach).reachable
  have hshape := wellShaped hrecorder
  have hanswer := answerLaw hreach
  have hturn := turnShape hshape hanswer hstep
  have hlaw := startLaw hreach
  have hlater : AnswerLaw c' := answerLaw (hreach.step hstep)
  rw [operationsIn, System.run_append, System.run_append, stationOf, run_asks hanswer hturn,
    Option.bind_some]
  rcases hturn.said with ⟨hwaiting, hsession⟩ |
    ⟨line, result, returned, hline, hnone, -, ⟨choice, frame, rest, errmsg, haction, hstack,
      hanswers⟩, hrun⟩
  · -- Nothing is told.
    rw [hsession, List.drop_length, List.map_nil]
    by_cases hidle : Idle c turn
    · have hdesk : deskHeard c turn c.stage = deskOf c' := deskHeard_eq hwaiting hsession
        fun _ hpending => stage_of_idle hanswer hlater hturn hidle hwaiting hpending
      rw [run_operation hrecorder hlaw hturn.recorder hidle, hdesk]
      rfl
    · simp only [Idle, not_forall] at hidle
      obtain ⟨choice, haction, hsome⟩ := hidle
      obtain ⟨operation, hserving⟩ := Option.ne_none_iff_exists'.mp hsome
      have hquiet : heardIn c turn = [] := by
        obtain ⟨_, _, _, hcase⟩ := serving_cases hserving
        rcases hcase with ⟨-, hstack, -⟩ | ⟨-, hstack, -⟩ | ⟨-, hstack, -⟩ <;>
          exact hturn.heardIn_of_stack hstack (by simp)
      rw [run_serving hrecorder hquiet haction hserving hturn.recorder,
        deskHeard_eq hwaiting hsession fun _ _ => rfl]
      rfl
  · -- The line is answered, and the statement has no other effect.
    have hnothing : frame.operation .commands choice c.recorder.shared = none :=
      operation_of_answers hanswers
    have hidle : Idle c turn := fun _ _ => serving_of_answers hstack hline hanswers
    have hsame {desk : Desk} : plantOf c.recorder.shared (handed (c.recorder.top .buffer)) desk =
        plantOf c'.recorder.shared (handed (c'.recorder.top .buffer)) desk := by
      have hrun : (station Block settings.plate maxQueue).run
          (plantOf c.recorder.shared (handed (c.recorder.top .buffer)) desk) _ = _ :=
        run_operation hrecorder hlaw hturn.recorder hidle
      rw [operationIn_of_stack hidle haction hstack, hnothing] at hrun
      exact Option.some.inj hrun
    rw [operationIn_of_stack hidle haction hstack, hnothing, stationOf, ← hsame]
    exact run_tells hrecorder hanswer hturn hline hnone hstack hanswers hrun

/-- The recorder is simulated by a station with room for as many blocks. -/
def refinement (settings : Settings) :
    Simulation (conversation settings) (station Block settings.plate maxQueue) where
  view := stationOf
  operations := operationsIn
  start := by
    rintro _ ⟨now, rfl⟩
    rfl
  step _ _ _ hreach hstep := simulates_step hreach hstep

/-- The conversation with all that happened in it. -/
@[reducible]
def toldConversation (settings : Settings) :
    System (Conversation × List (Party × Operation Block)) Turn :=
  (conversation settings).observed (refinement settings).observer

/-- So what every station keeps the recorder keeps: it is made ready, fails and leaves at most once,
its recordings are begun and finished in turn, and as many of them are told of. A recorder that
has failed has left as soon as `Fatal` has let go of the mutex. -/
theorem recorderInOrder {seen : Conversation × List (Party × Operation Block)}
    (hreach : (toldConversation settings).Reachable seen) :
    (stationOf seen.1).InOrder maxQueue (seen.2.map Prod.snd) ∧
      ((stationOf seen.1).failure ≠ none → seen.1.recorder.shared.runMutex = none →
        (stationOf seen.1).running = false) := by
  obtain ⟨first, rfl, hrun⟩ := (refinement settings).exists_run hreach
  have horder : (stationOf seen.1).InOrder maxQueue ([] ++ seen.2.map Prod.snd) :=
    Station.inOrder_initial.run hrun
  rw [List.nil_append] at horder
  have hrecorder := (talkLaw hreach.reachable_fst).reachable
  refine ⟨horder, fun hfailed hfree => run_of_fatal hrecorder ?_ hfree⟩
  by_contra hfatal
  simp [stationOf, plantOf, hfatal] at hfailed

/-! ## A recording from its beginning to its end -/

/-- What the backend writes to ask for something. -/
def lineFor : Action Tid Choice ℕ → Text
  | .thread _ (.request .lockTimeout) => text "LockTimeout?"
  | .thread _ (.request .startStreaming) => text "StartStreaming"
  | .thread _ (.request .xon) => text "XON"
  | .thread _ (.request .stopStreaming) => text "StopStreaming"
  | _ => []

/-- A block passes through the queue, and the recording is stopped. -/
def recordAndStop : List (Action Tid Choice ℕ) :=
  passBlock ++ (dispatch .stopStreaming ++ finishStop ++ [Choice.answer true] ++ goOn 1).map
    (.thread .commands)

/-- The operations that this takes. -/
def recordedOperations : List (Operation Block) :=
  [.ask (text "LockTimeout?"), .tell (text "OK:12000"), .prepare,
    .ask (text "StartStreaming"), .begin, .tell (text "OK:Started"),
    .ask (text "XON"), .tell (text "OK"), .allow true, .offer ⟨0, 0, [71, 0], 1, true⟩,
    .take, .pass, .ask (text "StopStreaming"), .halt, .finish, .tell (text "OK:Stopped")]

theorem exists_recordAndStop : ∃ seen, (toldConversation plainSettings).Reachable seen ∧
    seen.2.map Prod.snd = recordedOperations := by
  have hrun : ((toldConversation plainSettings).run (⟨initial 0, .initial, none⟩, [])
      (recordAndStop.map fun action => ⟨action, lineFor action, .default, []⟩)).map
        (fun seen => seen.2.map Prod.snd) = some recordedOperations := by
    decide +kernel
  have hstart : (toldConversation plainSettings).Reachable (⟨initial 0, .initial, none⟩, []) :=
    .start ⟨⟨0, rfl⟩, rfl⟩
  exact System.exists_reachable_of_run hstart hrun

theorem recorderInOrder_recordAndStop : ∃ c : Conversation,
    (stationOf c).InOrder maxQueue recordedOperations := by
  obtain ⟨seen, hreach, hvalue⟩ := exists_recordAndStop
  exact ⟨seen.1, hvalue ▸ (recorderInOrder hreach).1⟩

end HauppaugeUSB.MythTV

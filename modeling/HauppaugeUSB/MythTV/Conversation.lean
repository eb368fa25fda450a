/-
# The conversation with mythbackend

The `Commands` thread reads a line, does what it asks for and answers it, while the other
threads go on. An answer is given at a certain point of the thread, and quotes what the
thread finds there: the members of the recorder, what a function that it has called has
returned, and the text of the device's last error. Here the steps of the recorder are put
together with the handling of the lines, and every answer is shown to be one line.
-/

import HauppaugeUSB.Device.FreshErrors
import HauppaugeUSB.MythTV.FatalText

namespace HauppaugeUSB.MythTV

open HauppaugeUSB.Concurrency HauppaugeUSB.Commands
open HauppaugeUSB.Device (EncodingCall Parameters encodingRun)

/-- What the recorder was constructed with and quotes in answers. -/
structure Settings where
  desc : Text
  version : Text
  desc_oneLine : OneLine desc
  version_oneLine : OneLine version

/-- A line that has been read and not answered, as it was parsed. -/
structure Pending where
  cmd : Text
  serial : Text
  request : Request

/-- The recorder, the state of `process_command`, and the line that is being handled. -/
structure Conversation where
  recorder : Recorder
  session : Session
  pending : Option Pending

/-- A step of the recorder, with the line that it reads, if it reads one, and the calls that
led to the `ErrorString` of the device, if it asks for it. -/
structure Turn where
  action : Action Tid Choice ℕ
  cmd : Text
  params : Parameters
  calls : List EncodingCall

/-- What `StartEncoding` or `StopEncoding` returns, with its `resultmsg`, if it returns at a
point. -/
def Frame.result (s : Shared) (errmsg : Text) : Frame → Option (Bool × Text)
  | .start .test => if s.streaming then some (true, text "Already streaming!") else none
  | .start .ready => if s.ready then none else some (false, text "Hauppauge device not ready.")
  | .start .error => some (false, errmsg)
  | .start .reply => some (true, [])
  | .stop .test => if s.streaming then none else some (true, text "Already not streaming!")
  | .stop .ready => if s.ready then none else some (false, text "Hauppauge device not ready.")
  | .stop .noDev => some (false, text "Invalid Hauppauge device.")
  | .stop .error => some (false, errmsg)
  | .stop .logPorts => some (true, [])
  | _ => none

/-- `process_command` calls `send_status` for a request at a point of the thread, having got
this from the function it has called, if it has called one. -/
def Frame.answers (frame : Frame) (rest : List Frame) (s : Shared) (errmsg : Text) :
    Request → Option (Bool × Text)
  | .apiVersionQuery | .versionQuery | .isOpen | .apiVersion _ =>
      if frame = .command .replyUnlock then some (true, []) else none
  | .xon => if frame = .command (.xonReply true) then some (true, []) else none
  | .xoff => if frame = .command (.xonReply false) then some (true, []) else none
  | .startStreaming | .stopStreaming =>
      if rest = [.command .loop] then frame.result s errmsg else none
  | _ => if frame = .command .poll then some (true, []) else none

/-- What an answer may quote. -/
def Settings.parent (settings : Settings) (s : Shared) (result : Bool × Text) : Parent where
  desc := settings.desc
  version := settings.version
  fatal := s.fatal
  fatalMsg := s.fatalMsg.toList
  ready := s.ready
  startEncoding := result
  stopEncoding := result

namespace Conversation

/-- The thread reads a line in `poll` and parses it. -/
def read (c : Conversation) (frame : Frame) (choice : Choice) (cmd : Text) :
    Option Conversation :=
  match frame, choice with
  | .command .poll, .request request =>
      let parsed := parseLine c.session.apiVersion cmd
      if OneLine cmd ∧ parsed.2 = request then
        some { c with pending := some ⟨cmd, parsed.1, parsed.2⟩ }
      else none
  | _, _ => some c

/-- The thread answers if it is at the point where it does. An exception ends the process. -/
def answer (settings : Settings) (s : Shared) (answers : Request → Option (Bool × Text))
    (c : Conversation) : Option Conversation :=
  match c.pending with
  | none => some c
  | some pending =>
      match answers pending.request with
      | none => some c
      | some result =>
          match (handle (settings.parent s result) pending.cmd pending.serial
              pending.request).run c.session with
          | .ok _ session => some { c with session, pending := none }
          | .error _ _ => none

/-- A step of the recorder. A failing control message interrupts the function that it occurs
in, so that nothing is answered then. -/
def step (settings : Settings) (c : Conversation) (turn : Turn) : Option Conversation :=
  (machine.step c.recorder turn.action).bind fun later =>
    match turn.action, c.recorder.stack .commands with
    | .thread .commands choice, frame :: rest =>
        if choice = .usbError then some { c with recorder := later }
        else
          let errmsg := (encodingRun turn.params turn.calls).errmsg.toList
          let s := c.recorder.shared
          ((c.read frame choice turn.cmd).bind (answer settings s
            (frame.answers rest s errmsg))).map fun c => { c with recorder := later }
    | _, _ => some { c with recorder := later }

end Conversation

/-- The conversation as a transition system. -/
@[reducible]
def conversation (settings : Settings) : System Conversation Turn where
  IsStart c := ∃ now, c = ⟨initial now, .initial, none⟩
  step := Conversation.step settings

variable {settings : Settings} {c c' : Conversation} {frame : Frame} {rest : List Frame}
  {s : Shared} {errmsg : Text} {request : Request} {result : Bool × Text}

namespace Conversation

/-- Nothing is read, or in `poll` a line, which has no line end and is parsed. -/
theorem read_cases {choice : Choice} {cmd : Text} (hread : c.read frame choice cmd = some c') :
    c' = c ∨ ∃ serial request, frame = .command .poll ∧ choice = .request request ∧
      OneLine cmd ∧ parseLine c.session.apiVersion cmd = (serial, request) ∧
      c' = { c with pending := some ⟨cmd, serial, request⟩ } := by
  unfold read at hread
  split at hread
  case h_1 request =>
    dsimp only at hread
    split at hread
    case isTrue hline =>
      cases hread
      refine .inr ⟨(parseLine c.session.apiVersion cmd).1, request, rfl, rfl, hline.1, ?_, ?_⟩
      · exact Prod.ext rfl hline.2
      · rw [hline.2]
    case isFalse => cases hread
  case h_2 =>
    cases hread
    exact .inl rfl

/-- Nothing is answered, or the pending line is, and `process_command` returns. -/
theorem answer_cases {answers : Request → Option (Bool × Text)}
    (hanswer : c.answer settings s answers = some c') :
    (c' = c ∧ ∀ pending, c.pending = some pending → answers pending.request = none) ∨
      ∃ pending result returned session, c.pending = some pending ∧
        answers pending.request = some result ∧
        (handle (settings.parent s result) pending.cmd pending.serial pending.request).run
          c.session = .ok returned session ∧
        c' = { c with session, pending := none } := by
  unfold answer at hanswer
  cases hpending : c.pending with
  | none =>
      rw [hpending] at hanswer
      cases hanswer
      exact .inl ⟨rfl, fun _ hnone => by cases hnone⟩
  | some pending =>
      rw [hpending] at hanswer
      dsimp only at hanswer
      cases hresult : answers pending.request with
      | none =>
          rw [hresult] at hanswer
          cases hanswer
          refine .inl ⟨rfl, fun other hother => ?_⟩
          cases hother
          exact hresult
      | some result =>
          rw [hresult] at hanswer
          dsimp only at hanswer
          split at hanswer
          case h_1 returned session hrun =>
            cases hanswer
            exact .inr ⟨pending, result, returned, session, rfl, hresult, hrun, rfl⟩
          case h_2 => cases hanswer

/-- A turn of the conversation is a step of the recorder. -/
theorem recorder_of_step {turn : Turn} (hstep : c.step settings turn = some c') :
    machine.step c.recorder turn.action = some c'.recorder := by
  obtain ⟨later, hrecorder, hstep⟩ := Option.bind_eq_some_iff.mp hstep
  split at hstep
  case h_2 =>
    cases hstep
    exact hrecorder
  case h_1 =>
    split at hstep
    · cases hstep
      exact hrecorder
    · obtain ⟨answered, -, rfl⟩ := Option.map_eq_some_iff.mp hstep
      exact hrecorder

end Conversation

/-- What is known of a conversation. -/
structure TalkLaw (c : Conversation) : Prop where
  reachable : recorder.Reachable c.recorder
  tidy : c.session.Tidy
  pending : ∀ pending, c.pending = some pending →
    OneLine pending.cmd ∧ OneLine pending.serial ∧ OneLine pending.request.quotes

/-- The text of the device's last error is one line. -/
theorem oneLine_errmsg (params : Parameters) (calls : List EncodingCall) :
    OneLine (encodingRun params calls).errmsg.toList := by
  have hknown := Device.reportsKnown_run params calls
  have hall : ∀ errmsg ∈ Device.encodingErrors, OneLine errmsg.toList := by decide
  exact hall _ hknown

/-- So are the texts that the functions return. -/
theorem oneLine_result (herrmsg : OneLine errmsg) (hresult : frame.result s errmsg = some result) :
    OneLine result.2 := by
  cases frame with
  | start point | stop point =>
      cases point <;> simp only [Frame.result] at hresult <;> (try split at hresult) <;>
        cases hresult <;> first | exact herrmsg | decide
  | _ => cases hresult

theorem oneLine_answers (herrmsg : OneLine errmsg)
    (hanswers : frame.answers rest s errmsg request = some result) : OneLine result.2 := by
  have hnothing {point : CommandPoint}
      (h : (if frame = .command point then some (true, []) else none) = some result) :
      OneLine result.2 := by
    split at h <;> cases h
    exact List.not_mem_nil
  cases request with
  | startStreaming | stopStreaming =>
      simp only [Frame.answers] at hanswers
      split at hanswers
      · exact oneLine_result herrmsg hanswers
      · cases hanswers
  | _ => exact hnothing hanswers

/-- The text of a fatal error is quoted under the run mutex. -/
theorem frame_of_quotesFatal (hfatal : request.quotesFatal = true)
    (hanswers : frame.answers rest s errmsg request = some result) :
    frame = .command .replyUnlock := by
  cases request with
  | apiVersionQuery | versionQuery | isOpen =>
      simp only [Frame.answers] at hanswers
      split at hanswers
      case isTrue hframe => exact hframe
      case isFalse => cases hanswers
  | _ => cases hfatal

/-- What is quoted in an answer has no line ends. -/
theorem quotesLines_parent (hreach : recorder.Reachable c.recorder)
    (hstack : c.recorder.stack .commands = frame :: rest) (herrmsg : OneLine errmsg)
    (hanswers : frame.answers rest c.recorder.shared errmsg request = some result) :
    (settings.parent c.recorder.shared result).QuotesLines request where
  desc := settings.desc_oneLine
  version := settings.version_oneLine
  fatalMsg hfatal := by
    obtain rfl := frame_of_quotesFatal hfatal hanswers
    exact oneLine_fatalMsg hreach hstack
  startEncoding := oneLine_answers herrmsg hanswers
  stopEncoding := oneLine_answers herrmsg hanswers

theorem talkLaw_read {choice : Choice} {cmd : Text} (hlaw : TalkLaw c)
    (hread : c.read frame choice cmd = some c') : TalkLaw c' ∧ c'.recorder = c.recorder := by
  rcases Conversation.read_cases hread with rfl | ⟨serial, request, -, -, hline, hparsed, rfl⟩
  · exact ⟨hlaw, rfl⟩
  · refine ⟨⟨hlaw.reachable, hlaw.tidy, fun pending hpending => ?_⟩, rfl⟩
    cases hpending
    have hquotes := oneLine_parseLine c.session.apiVersion hline
    rw [hparsed] at hquotes
    exact ⟨hline, hquotes⟩

theorem talkLaw_answer (hlaw : TalkLaw c) (hstack : c.recorder.stack .commands = frame :: rest)
    (herrmsg : OneLine errmsg)
    (hanswer : c.answer settings c.recorder.shared
      (frame.answers rest c.recorder.shared errmsg) = some c') :
    TalkLaw c' ∧ c'.recorder = c.recorder := by
  rcases Conversation.answer_cases hanswer with
    ⟨rfl, -⟩ | ⟨pending, result, returned, session, hpending, hanswers, hrun, rfl⟩
  · exact ⟨hlaw, rfl⟩
  · obtain ⟨hcmd, hserial, hquotes⟩ := hlaw.pending pending hpending
    have hparent : (settings.parent c.recorder.shared result).QuotesLines pending.request :=
      quotesLines_parent hlaw.reachable hstack herrmsg hanswers
    have htidy := keepsTidy_handle hcmd hserial hquotes hparent c.session hlaw.tidy
    rw [hrun] at htidy
    exact ⟨⟨hlaw.reachable, htidy, fun _ hnone => by cases hnone⟩, rfl⟩

theorem talkLaw_step {turn : Turn} (hlaw : TalkLaw c)
    (hstep : c.step settings turn = some c') : TalkLaw c' := by
  obtain ⟨later, hrecorder, hstep⟩ := Option.bind_eq_some_iff.mp hstep
  have hlater : recorder.Reachable later := hlaw.reachable.step hrecorder
  split at hstep
  case h_2 =>
    cases hstep
    exact ⟨hlater, hlaw.tidy, hlaw.pending⟩
  case h_1 choice frame rest haction hstack =>
    split at hstep
    · cases hstep
      exact ⟨hlater, hlaw.tidy, hlaw.pending⟩
    · obtain ⟨answered, hanswered, rfl⟩ := Option.map_eq_some_iff.mp hstep
      obtain ⟨heard, hread, hanswer⟩ := Option.bind_eq_some_iff.mp hanswered
      obtain ⟨hheard, hsame⟩ := talkLaw_read hlaw hread
      rw [← hsame] at hstack hanswer
      obtain ⟨hlaw', -⟩ := talkLaw_answer hheard hstack (oneLine_errmsg _ _) hanswer
      exact ⟨hlater, hlaw'.tidy, hlaw'.pending⟩

theorem talkLaw (hreach : (conversation settings).Reachable c) : TalkLaw c := by
  refine hreach.invariant ?_ fun _ _ _ _ hlaw hstep => talkLaw_step hlaw hstep
  rintro _ ⟨now, rfl⟩
  refine ⟨reachableBy_initial now, fun reply hreply => ?_, fun _ hpending => by cases hpending⟩
  simp [Session.initial, replies] at hreply

/-- Whatever the lines and the texts of errors are, each reply is one line. -/
theorem singleLine_of_mem_replies (hreach : (conversation settings).Reachable c) :
    ∀ reply ∈ replies c.session.trace, SingleLine reply.2 :=
  (talkLaw hreach).tidy

/-- The text of `USBWrapper_t` when it cannot open the recorder. -/
def usbMsg : String :=
  "Failed to open dev.Unable to find serial E505-00-00AF4321 in USB dev list.\n"

def plainSettings : Settings where
  desc := text "HD PVR 2"
  version := text "1.0"
  desc_oneLine := by decide
  version_oneLine := by decide

/-- A step of `Commands`, which may read a line. -/
def commandsTurn (choice : Choice) (cmd : Text) : Turn :=
  ⟨.thread .commands choice, cmd, .default, []⟩

/-- `Commands` is asked for a description and to open the device, which fails. -/
def failedOpening : List Turn :=
  [commandsTurn .proceed [], commandsTurn (.request .description) (text "Description?"),
    commandsTurn .proceed [], commandsTurn (.request .lockTimeout) (text "LockTimeout?")] ++
    List.replicate 3 (commandsTurn .proceed []) ++
    [commandsTurn (.opened false false) [], commandsTurn (.errorString usbMsg) []] ++
    List.replicate 6 (commandsTurn .proceed [])

theorem singleLine_failedOpening :
    ∃ c, (conversation plainSettings).Reachable c ∧ c.recorder.shared.fatalMsg = usbMsg ∧
      (replies c.session.trace).length = 2 ∧
      ∀ reply ∈ replies c.session.trace, SingleLine reply.2 := by
  have hrun : ((conversation plainSettings).run ⟨initial 0, .initial, none⟩ failedOpening).map
      (fun c => (c.recorder.shared.fatalMsg, (replies c.session.trace).length)) =
        some (usbMsg, 2) := by
    decide +kernel
  have hstart : (conversation plainSettings).Reachable ⟨initial 0, .initial, none⟩ :=
    .start ⟨0, rfl⟩
  obtain ⟨c, hreach, hview⟩ := System.exists_reachable_of_run hstart hrun
  obtain ⟨hmsg, hcount⟩ := Prod.mk.inj hview
  exact ⟨c, hreach, hmsg, hcount, singleLine_of_mem_replies hreach⟩

/-- Where `Commands` stands while a line that it has read is not answered yet. -/
def AwaitsAnswer : Request → List Frame → Prop
  | .apiVersionQuery, stack | .versionQuery, stack | .isOpen, stack | .apiVersion _, stack =>
      stack = [.command .replyLock, .command .loop] ∨
        stack = [.command .replyUnlock, .command .loop]
  | .xon, stack => stack = [.command (.xonReply true), .command .loop]
  | .xoff, stack => stack = [.command (.xonReply false), .command .loop]
  | .startStreaming, stack => ∃ above point, stack = above ++ [.start point, .command .loop]
  | .stopStreaming, stack => ∃ above point, stack = above ++ [.stop point, .command .loop]
  | _, _ => False

/-- A function that does not return at a point goes on at another one. -/
theorem startStep_of_result {choice : Choice} {point : StartPoint} {s' : Shared}
    {frames : List Frame} (hstep : startStep choice s point = some (s', frames))
    (hresult : (Frame.start point).result s errmsg = none) :
    ∃ later, frames = [.start later] := by
  cases point <;> simp only [startStep, Frame.result] at hstep hresult <;>
    (try split at hstep) <;> cases hstep <;> simp_all

theorem stopStep_of_result {tid : Tid} {choice : Choice} {point : StopPoint} {s' : Shared}
    {frames : List Frame} (hstep : stopStep tid choice s point = some (s', frames))
    (hresult : (Frame.stop point).result s errmsg = none) :
    ∃ later, frames = [.stop later] := by
  cases point <;> simp only [stopStep, Frame.result] at hstep hresult <;>
    (try split at hstep) <;> cases hstep <;> simp_all

theorem awaitsAnswer_advance {choice : Choice} {s' : Shared} {frames : List Frame}
    (hstep : advance .commands frame choice s = some (s', frames))
    (hawaits : AwaitsAnswer request (frame :: rest))
    (hanswers : frame.answers rest s errmsg request = none) :
    AwaitsAnswer request (frames ++ rest) := by
  cases request with
  | apiVersionQuery | versionQuery | isOpen | apiVersion data =>
      rcases hawaits with hlock | hunlock
      · obtain ⟨rfl, rfl⟩ := List.cons.inj hlock
        simp only [advance, commandStep] at hstep
        split at hstep <;> cases hstep
        exact .inr rfl
      · obtain ⟨rfl, rfl⟩ := List.cons.inj hunlock
        simp [Frame.answers] at hanswers
  | xon | xoff =>
      obtain ⟨rfl, rfl⟩ := List.cons.inj hawaits
      simp [Frame.answers] at hanswers
  | startStreaming =>
      obtain ⟨above, point, hstack⟩ := hawaits
      cases above with
      | nil =>
          obtain ⟨rfl, rfl⟩ := List.cons.inj hstack
          obtain ⟨later, rfl⟩ := startStep_of_result hstep (by simpa [Frame.answers] using hanswers)
          exact ⟨[], later, rfl⟩
      | cons head above =>
          obtain ⟨rfl, rfl⟩ := List.cons.inj hstack
          exact ⟨frames ++ above, point, by simp⟩
  | stopStreaming =>
      obtain ⟨above, point, hstack⟩ := hawaits
      cases above with
      | nil =>
          obtain ⟨rfl, rfl⟩ := List.cons.inj hstack
          obtain ⟨later, rfl⟩ := stopStep_of_result hstep (by simpa [Frame.answers] using hanswers)
          exact ⟨[], later, rfl⟩
      | cons head above =>
          obtain ⟨rfl, rfl⟩ := List.cons.inj hstack
          exact ⟨frames ++ above, point, by simp⟩
  | _ => cases hawaits

/-- A line that is not answered when it is read makes the thread enter a function. -/
theorem awaitsAnswer_request
    (hanswers : (Frame.command .poll).answers [] s errmsg request = none) :
    AwaitsAnswer request (requestFrames request ++ [.command .loop]) := by
  cases request with
  | apiVersionQuery | versionQuery | isOpen | apiVersion data => exact .inl rfl
  | xon | xoff => exact rfl
  | startStreaming => exact ⟨[], .test, rfl⟩
  | stopStreaming => exact ⟨[], .test, rfl⟩
  | _ => simp [Frame.answers] at hanswers

/-- A line that has been read and not answered is being handled. -/
def AnswerLaw (c : Conversation) : Prop :=
  ∀ pending, c.pending = some pending →
    AwaitsAnswer pending.request (c.recorder.stack .commands)

/-- A failing control message does not end what is being handled. -/
theorem awaitsAnswer_interrupt (hhardware : frame.isHardware = true)
    (hawaits : AwaitsAnswer request (frame :: rest)) (new : Frame) :
    AwaitsAnswer request (new :: frame :: rest) := by
  cases request with
  | apiVersionQuery | versionQuery | isOpen | apiVersion data =>
      rcases hawaits with hlock | hunlock
      · obtain ⟨rfl, -⟩ := List.cons.inj hlock
        cases hhardware
      · obtain ⟨rfl, -⟩ := List.cons.inj hunlock
        cases hhardware
  | xon | xoff =>
      obtain ⟨rfl, -⟩ := List.cons.inj hawaits
      cases hhardware
  | startStreaming | stopStreaming =>
      obtain ⟨above, point, hstack⟩ := hawaits
      exact ⟨new :: above, point, by rw [hstack, List.cons_append]⟩
  | _ => cases hawaits

/-- A line that has just been read makes the thread enter a function, or is answered. -/
theorem pending_of_read {choice : Choice} {cmd : Text} {frames : List Frame} {s' : Shared}
    (hshape : WellShaped c.recorder) (hlaw : AnswerLaw c)
    (hstack : c.recorder.stack .commands = frame :: rest)
    (hstep : advance .commands frame choice c.recorder.shared = some (s', frames))
    (hread : c.read frame choice cmd = some c') {pending : Pending}
    (hpending : c'.pending = some pending)
    (hanswers : frame.answers rest c.recorder.shared errmsg pending.request = none) :
    AwaitsAnswer pending.request (frames ++ rest) := by
  rcases Conversation.read_cases hread with rfl | ⟨serial, request, rfl, rfl, -, -, rfl⟩
  · exact awaitsAnswer_advance hstep (hstack ▸ hlaw pending hpending) hanswers
  · obtain rfl := hshape.rest_eq_nil hstack rfl
    cases hpending
    simp only [advance, commandStep] at hstep
    split at hstep <;> cases hstep
    rw [List.append_nil]
    exact awaitsAnswer_request hanswers

theorem answerLaw_step {turn : Turn} (hshape : WellShaped c.recorder) (hlaw : AnswerLaw c)
    (hstep : c.step settings turn = some c') : AnswerLaw c' := by
  obtain ⟨later, hrecorder, hstep⟩ := Option.bind_eq_some_iff.mp hstep
  split at hstep
  case h_1 choice frame rest haction hstack =>
    rw [haction] at hrecorder
    obtain ⟨frame', rest', s', frames, hstack', hexec, rfl⟩ :=
      Machine.step_thread_iff.mp hrecorder
    obtain ⟨rfl, rfl⟩ := List.cons.inj (hstack'.symm.trans hstack)
    rcases exec_eq_some_iff.mp hexec with ⟨hchoice, hhardware, -, -, -, rfl⟩ | ⟨hchoice, hadvance⟩
    · rw [if_pos hchoice] at hstep
      cases hstep
      intro pending hpending
      have hawaits := hlaw pending hpending
      rw [hstack'] at hawaits
      simpa using awaitsAnswer_interrupt hhardware hawaits _
    · rw [if_neg hchoice] at hstep
      obtain ⟨answered, hanswered, rfl⟩ := Option.map_eq_some_iff.mp hstep
      obtain ⟨heard, hread, hanswer⟩ := Option.bind_eq_some_iff.mp hanswered
      intro pending hpending
      rcases Conversation.answer_cases hanswer with ⟨rfl, hanswers⟩ | ⟨_, _, _, _, -, -, -, rfl⟩
      · have hawaits := pending_of_read hshape hlaw hstack' hadvance hread hpending
          (hanswers pending hpending)
        simpa using hawaits
      · cases hpending
  case h_2 hother =>
    cases hstep
    intro pending hpending
    have hsame : later.stack .commands = c.recorder.stack .commands := by
      cases haction : turn.action with
      | env elapsed =>
          obtain rfl := Machine.step_env_iff.mp (haction ▸ hrecorder)
          rfl
      | thread tid choice =>
          obtain ⟨frame, rest, s', frames, hstack, -, rfl⟩ :=
            Machine.step_thread_iff.mp (haction ▸ hrecorder)
          refine Function.update_of_ne ?_ _ _
          rintro rfl
          exact hother choice frame rest haction hstack
    show AwaitsAnswer pending.request (later.stack .commands)
    rw [hsame]
    exact hlaw pending hpending

theorem answerLaw (hreach : (conversation settings).Reachable c) : AnswerLaw c := by
  refine hreach.invariant ?_ fun state _ _ hprior hlaw hstep => ?_
  · rintro _ ⟨now, rfl⟩ pending hpending
    cases hpending
  · exact answerLaw_step (wellShaped (talkLaw hprior).reachable) hlaw hstep

end HauppaugeUSB.MythTV

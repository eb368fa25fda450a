/-
# Lines and their answers

The backend writes a line and waits for the answer to it, while the threads of the recorder go
on and may start, fail or end in between. What it can rely on: the answers come in the order of
the lines, one for each line, and each in the framing that was agreed on when its line was read,
but for two kinds of line: `APIVersion:` is answered in the version that it sets, and
`APIVersion?` without a serial. And the answers do not contradict each other. A recorder that has
told of a fatal error tells of the same one from then on, and one that has said that it is ready
does not take it back.
-/

import HauppaugeUSB.Concurrency.Observer
import HauppaugeUSB.MythTV.Conversation

namespace HauppaugeUSB.MythTV

open HauppaugeUSB.Concurrency HauppaugeUSB.Commands

/-- A line that was read, as it was parsed, and the API version at that time. -/
structure Heard extends Pending where
  version : ℤ

/-- The line that a step of the conversation reads. -/
def heardIn (c : Conversation) (turn : Turn) : List Heard :=
  match turn.action with
  | .thread .commands (.request _) =>
      if c.recorder.top .commands = some (.command .poll) then
        let parsed := parseLine c.session.apiVersion turn.cmd
        [⟨⟨turn.cmd, parsed.1, parsed.2⟩, c.session.apiVersion⟩]
      else []
  | _ => []

/-- The lines that have been read, in order. -/
def dialogueObserver : Observer Conversation Turn (List Heard) where
  start := []
  note heard c turn _ := heard ++ heardIn c turn

/-- The conversation with the lines that were read. -/
@[reducible]
def dialogue (settings : Settings) : System (Conversation × List Heard) Turn :=
  (conversation settings).observed dialogueObserver

/-- A reply carries its status in the framing that belongs to a line. -/
def Heard.AnsweredBy (heard : Heard) (reply : Text × Text) : Prop :=
  reply.2 = statusLine (replyVersion heard.version heard.request)
    (replySerial heard.serial heard.request) reply.1

/-- What a reply says of the recorder. -/
inductive Verdict
  | failed (msg : Text)
  | ready
  | notReady
  deriving DecidableEq

/-- The text of an `ERR` status. -/
def errorText (status : Text) : Option Text :=
  if startsWith status "ERR:" then some (status.drop 4) else none

/-- What the status of a reply to a request says of the recorder, if it says anything. -/
def verdictIn : Request → Text → Option Verdict
  | .apiVersionQuery, status | .versionQuery, status => (errorText status).map .failed
  | .isOpen, status =>
      if status = text "OK:Open" then some .ready
      else if status = text "WARN:Not Open yet" then some .notReady
      else (errorText status).map .failed
  | .hasLock, status => if status = text "OK:Yes" then some .ready else some .notReady
  | .signalStrengthPercent, status => if status = text "OK:100" then some .ready else some .notReady
  | _, _ => none

/-- The requests that have been answered, with the statuses of the replies. -/
def exchanges (seen : Conversation × List Heard) : List (Request × Text) :=
  (seen.2.map fun heard => heard.request).zip ((replies seen.1.session.trace).map Prod.fst)

/-- A later answer does not contradict an earlier one: after a fatal error every request that
quotes the error is told of this one, and a recorder that was ready is not said to be unready. -/
structure Consistent (earlier later : Request × Text) : Prop where
  failed : ∀ msg, verdictIn earlier.1 earlier.2 = some (.failed msg) →
    later.1.quotesFatal = true → verdictIn later.1 later.2 = some (.failed msg)
  ready : verdictIn earlier.1 earlier.2 = some .ready →
    verdictIn later.1 later.2 ≠ some .notReady

/-- Every line but the one that is being handled has been answered, in order and in the framing
that belongs to it. -/
structure Answered (seen : Conversation × List Heard) : Prop where
  parsed : ∀ heard ∈ seen.2, parseLine heard.version heard.cmd = (heard.serial, heard.request)
  prompt : seen.2.length =
    (replies seen.1.session.trace).length + seen.1.pending.toList.length
  inOrder : List.Forall₂ Heard.AnsweredBy
    (seen.2.take (replies seen.1.session.trace).length) (replies seen.1.session.trace)
  /-- When `Commands::Run` looks for the next line, there is none left to answer. -/
  complete : seen.1.recorder.stack .commands = [.command .loop] →
    seen.2.length = (replies seen.1.session.trace).length

variable {settings : Settings} {c c' : Conversation} {heard : List Heard} {turn : Turn}
  {parent : Parent} {cmd serial : Text} {request : Request} {session session' : Session}

/-- A step is one of `Commands`, or leaves it where it is. -/
theorem commands_cases {cfg cfg' : Recorder} {action : Action Tid Choice ℕ}
    (hstep : machine.step cfg action = some cfg') :
    (∃ choice frame rest s' frames, action = .thread .commands choice ∧
        cfg.stack .commands = frame :: rest ∧
        exec .commands frame choice cfg.shared = some (s', frames) ∧
        cfg' = ⟨s', Function.update cfg.stack .commands (frames ++ rest)⟩) ∨
      (∀ choice, action ≠ .thread .commands choice) ∧
        cfg'.stack .commands = cfg.stack .commands := by
  cases action with
  | env elapsed =>
      obtain rfl := Machine.step_env_iff.mp hstep
      exact .inr ⟨fun _ => by simp, rfl⟩
  | thread tid choice =>
      obtain ⟨frame, rest, s', frames, hstack, hexec, rfl⟩ := Machine.step_thread_iff.mp hstep
      by_cases htid : tid = .commands
      · subst htid
        exact .inl ⟨choice, frame, rest, s', frames, rfl, hstack, hexec, rfl⟩
      · refine .inr ⟨fun _ hsame => htid (Action.thread.inj hsame).1, ?_⟩
        exact Function.update_of_ne (Ne.symm htid) _ _

/-- The line that is being handled. -/
def waiting (c : Conversation) : List Heard :=
  c.pending.toList.map fun pending => ⟨pending, c.session.apiVersion⟩

theorem pending_of_waiting {line : Heard} (hwaiting : waiting c = [line]) :
    c.pending = some line.toPending := by
  cases hpending : c.pending with
  | none => simp [waiting, hpending] at hwaiting
  | some pending =>
      simp only [waiting, hpending, Option.toList_some, List.map_cons, List.map_nil,
        List.cons.injEq, and_true] at hwaiting
      rw [← hwaiting]

theorem pending_of_waiting_eq (hsame : waiting c' = waiting c) : c'.pending = c.pending := by
  cases hpending : c.pending with
  | none =>
      cases hlater : c'.pending with
      | none => rfl
      | some pending => simp [waiting, hpending, hlater] at hsame
  | some pending =>
      have hline : waiting c = [⟨pending, c.session.apiVersion⟩] := by simp [waiting, hpending]
      exact pending_of_waiting (hsame.trans hline)

/-- A thread that waits for the next line has answered the one before. -/
theorem pending_of_singleton {frame : Frame} (hlaw : AnswerLaw c)
    (hstack : c.recorder.stack .commands = [frame]) : c.pending = none := by
  cases hpending : c.pending with
  | none => rfl
  | some pending =>
      have hawaits := hlaw pending hpending
      rw [hstack] at hawaits
      cases hrequest : pending.request with
      | startStreaming | stopStreaming =>
          rw [hrequest] at hawaits
          obtain ⟨above, point, hframes⟩ := hawaits
          have hlength := congrArg List.length hframes
          simp at hlength
      | _ =>
          rw [hrequest] at hawaits
          simp [AwaitsAnswer] at hawaits

/-- A turn of the conversation: a line is read or not, and then the line that is being handled
is answered or not. -/
structure TurnShape (settings : Settings) (c c' : Conversation) (turn : Turn) : Prop where
  recorder : machine.step c.recorder turn.action = some c'.recorder
  parsed : ∀ heard ∈ heardIn c turn,
    parseLine heard.version heard.cmd = (heard.serial, heard.request)
  legal : ∀ heard ∈ heardIn c turn, OneLine heard.cmd ∧ heard.request.throws = false ∧
    turn.action = .thread .commands (.request heard.request) ∧
    c.recorder.stack .commands = [.command .poll]
  said : (waiting c' = waiting c ++ heardIn c turn ∧ c'.session = c.session) ∨
    ∃ heard result returned, waiting c ++ heardIn c turn = [heard] ∧ c'.pending = none ∧
      heard.version = c.session.apiVersion ∧
      (∃ choice frame rest errmsg, turn.action = .thread .commands choice ∧
        c.recorder.stack .commands = frame :: rest ∧
        frame.answers rest c.recorder.shared errmsg heard.request = some result) ∧
      (handle (settings.parent c.recorder.shared result) heard.cmd heard.serial
        heard.request).run c.session = .ok returned c'.session

/-- A request that `process_command` throws on ends the process before the recorder goes on. -/
theorem throws_of_step {cfg cfg' : Recorder} (hstack : cfg.stack .commands = [.command .poll])
    (hstep : machine.step cfg (.thread .commands (.request request)) = some cfg') :
    request.throws = false := by
  obtain ⟨frame, rest, s', frames, htop, hexec, -⟩ := Machine.step_thread_iff.mp hstep
  obtain ⟨rfl, rfl⟩ := List.cons.inj (htop.symm.trans hstack)
  have hadvance : advance .commands (.command .poll) (.request request) cfg.shared =
      some (s', frames) := advance_of_exec rfl hexec
  simp only [advance, commandStep] at hadvance
  split at hadvance
  case isTrue => cases hadvance
  case isFalse hthrows => simpa using hthrows

theorem turnShape (hshape : WellShaped c.recorder) (hlaw : AnswerLaw c)
    (hstep : c.step settings turn = some c') : TurnShape settings c c' turn := by
  have hparsed : ∀ heard ∈ heardIn c turn,
      parseLine heard.version heard.cmd = (heard.serial, heard.request) := by
    intro heard hmem
    unfold heardIn at hmem
    split at hmem
    · split at hmem
      · obtain rfl := List.mem_singleton.mp hmem
        rfl
      · cases hmem
    · cases hmem
  obtain ⟨later, hrecorder, hstep⟩ := Option.bind_eq_some_iff.mp hstep
  split at hstep
  case h_2 hother =>
    cases hstep
    have hquiet : heardIn c turn = [] := by
      unfold heardIn
      split
      case h_1 request haction =>
        split
        case isTrue htop =>
          obtain ⟨rest, hstack⟩ := List.head?_eq_some_iff.mp htop
          exact (hother _ _ rest haction hstack).elim
        case isFalse => rfl
      case h_2 => rfl
    exact ⟨hrecorder, hparsed, by simp [hquiet], .inl ⟨by simp [hquiet, waiting], rfl⟩⟩
  case h_1 choice frame rest haction hstack =>
    split at hstep
    case isTrue hchoice =>
      cases hstep
      have hquiet : heardIn c turn = [] := by simp [heardIn, haction, hchoice]
      exact ⟨hrecorder, hparsed, by simp [hquiet], .inl ⟨by simp [hquiet, waiting], rfl⟩⟩
    case isFalse =>
      obtain ⟨answered, hanswered, rfl⟩ := Option.map_eq_some_iff.mp hstep
      obtain ⟨read, hread, hanswer⟩ := Option.bind_eq_some_iff.mp hanswered
      -- What is read is what is being handled from then on.
      have hheard : waiting read = waiting c ++ heardIn c turn ∧ read.session = c.session ∧
          ∀ heard ∈ heardIn c turn, OneLine heard.cmd ∧ heard.request.throws = false ∧
            turn.action = .thread .commands (.request heard.request) ∧
            c.recorder.stack .commands = [.command .poll] := by
        by_cases hpoll : frame = .command .poll ∧ ∃ request, choice = .request request
        · obtain ⟨rfl, request, rfl⟩ := hpoll
          obtain rfl := hshape.rest_eq_nil hstack rfl
          have hnone := pending_of_singleton hlaw hstack
          have hthrows := throws_of_step hstack (haction ▸ hrecorder)
          simp only [Conversation.read] at hread
          split at hread
          case isTrue hline =>
            cases hread
            simp [heardIn, haction, top_of_stack hstack, hstack, waiting, hnone, hline, hthrows]
          case isFalse => cases hread
        · have hsame : read = c := by
            unfold Conversation.read at hread
            split at hread
            case h_1 => exact (hpoll ⟨rfl, _, rfl⟩).elim
            case h_2 =>
              cases hread
              rfl
          have hquiet : heardIn c turn = [] := by
            unfold heardIn
            split
            case h_1 request hrequest =>
              obtain rfl : choice = .request request := by
                rw [haction] at hrequest
                exact (Action.thread.inj hrequest).2
              rw [if_neg]
              intro htop
              rw [top_of_stack hstack] at htop
              exact hpoll ⟨Option.some.inj htop, request, rfl⟩
            case h_2 => rfl
          simp [hsame, hquiet]
      obtain ⟨hwaiting, hsession, hlegal⟩ := hheard
      refine ⟨hrecorder, hparsed, hlegal, ?_⟩
      rcases Conversation.answer_cases hanswer with
        ⟨rfl, -⟩ | ⟨pending, result, returned, session, hpending, hanswers, hrun, rfl⟩
      · exact .inl ⟨hwaiting, hsession⟩
      · refine .inr ⟨⟨pending, read.session.apiVersion⟩, result, returned, ?_, rfl, ?_,
          ⟨choice, frame, rest, _, haction, hstack, hanswers⟩, ?_⟩
        · rw [← hwaiting]
          simp [waiting, hpending]
        · rw [hsession]
        · rw [← hsession]
          exact hrun

/-- A request whose handling returns has been answered once. -/
theorem reply_of_run {returned : Bool}
    (hrun : (handle parent cmd serial request).run session = .ok returned session') :
    ∃ status, replies session'.trace = replies session.trace ++
      [(status, statusLine (replyVersion session.apiVersion request) (replySerial serial request)
        status)] := by
  cases hthrows : request.throws with
  | false =>
      obtain ⟨session₂, hanswered, hreplies⟩ := handle_answers parent cmd serial session hthrows
      cases hrun.symm.trans hanswered
      exact hreplies
  | true =>
      obtain ⟨exception, session₂, hthrown, -⟩ :=
        handle_throws parent cmd serial session hthrows
      cases hrun.symm.trans hthrown

/-- The lines that have been read are those that have been answered and the one that is being
handled. -/
structure DialogueLaw (seen : Conversation × List Heard) : Prop where
  parsed : ∀ heard ∈ seen.2, parseLine heard.version heard.cmd = (heard.serial, heard.request)
  answered : ∃ answered, seen.2 = answered ++ waiting seen.1 ∧
    List.Forall₂ Heard.AnsweredBy answered (replies seen.1.session.trace)

theorem dialogueLaw_step (hlaw : DialogueLaw (c, heard)) (hturn : TurnShape settings c c' turn) :
    DialogueLaw (c', heard ++ heardIn c turn) := by
  obtain ⟨answered, hheard, hall⟩ := hlaw.answered
  have hheard : heard = answered ++ waiting c := hheard
  refine ⟨fun line hline => ?_, ?_⟩
  · exact (List.mem_append.mp hline).elim (hlaw.parsed line) (hturn.parsed line)
  rcases hturn.said with ⟨hwaiting, hsession⟩ |
    ⟨line, result, returned, hline, hpending, hversion, -, hrun⟩
  · refine ⟨answered, ?_, ?_⟩
    · rw [hheard, List.append_assoc, hwaiting]
    · rw [hsession]
      exact hall
  · obtain ⟨status, hreplies⟩ := reply_of_run hrun
    refine ⟨answered ++ [line], ?_, ?_⟩
    · have hempty : waiting c' = [] := by simp [waiting, hpending]
      rw [hheard, List.append_assoc, hline, hempty, List.append_nil]
    · simp only [hreplies]
      refine List.rel_append hall (.cons ?_ .nil)
      rw [Heard.AnsweredBy, hversion]

theorem dialogueLaw {seen : Conversation × List Heard}
    (hreach : (dialogue settings).Reachable seen) : DialogueLaw seen := by
  refine System.ReachableBy.observed_invariant hreach ?_ ?_
  · rintro _ ⟨now, rfl⟩
    exact ⟨fun _ hmem => (List.not_mem_nil hmem).elim, [], rfl, List.Forall₂.nil⟩
  · intro state memory turn next hprior hlaw _ hstep
    have hshape := wellShaped (talkLaw hprior).reachable
    exact dialogueLaw_step hlaw (turnShape hshape (answerLaw hprior) hstep)

/-- In every run of the recorder the replies answer the lines. -/
theorem dialogueAnswered {seen : Conversation × List Heard}
    (hreach : (dialogue settings).Reachable seen) : Answered seen := by
  obtain ⟨hparsed, answered, hheard, hall⟩ := dialogueLaw hreach
  have hlength : answered.length = (replies seen.1.session.trace).length := hall.length_eq
  have hprompt : seen.2.length =
      (replies seen.1.session.trace).length + seen.1.pending.toList.length := by
    rw [hheard, List.length_append, hlength, waiting, List.length_map]
  refine ⟨hparsed, hprompt, ?_, fun hloop => ?_⟩
  · rw [hheard, List.take_left' hlength]
    exact hall
  · have hnone := pending_of_singleton (answerLaw hreach.reachable_fst) hloop
    simpa [hnone] using hprompt

/-- What `process_command` finds when it answers a request that tells of the recorder. -/
def Parent.verdict (parent : Parent) : Request → Option Verdict
  | .apiVersionQuery | .versionQuery =>
      if parent.fatal then some (.failed parent.fatalMsg) else none
  | .isOpen =>
      if parent.fatal then some (.failed parent.fatalMsg)
      else if parent.ready then some .ready else some .notReady
  | .hasLock | .signalStrengthPercent => if parent.ready then some .ready else some .notReady
  | _ => none

@[simp]
theorem errorText_append (msg : Text) : errorText (text "ERR:" ++ msg) = some msg := by
  simp [errorText, startsWith, text]

theorem errorText_ok (msg : Text) : errorText (text "OK:" ++ msg) = none := by
  simp [errorText, startsWith, text]

theorem verdictIn_isOpen_failed (msg : Text) :
    verdictIn .isOpen (text "ERR:" ++ msg) = some (.failed msg) := by
  have hopen : text "ERR:" ++ msg ≠ text "OK:Open" := by simp [text]
  have hnotOpen : text "ERR:" ++ msg ≠ text "WARN:Not Open yet" := by simp [text]
  rw [verdictIn, if_neg hopen, if_neg hnotOpen, errorText_append, Option.map_some]

/-- The reply tells it. -/
theorem verdictIn_of_run {returned : Bool}
    (hrun : (handle parent cmd serial request).run session = .ok returned session') :
    ∃ status, (replies session'.trace).map Prod.fst =
      (replies session.trace).map Prod.fst ++ [status] ∧
      verdictIn request status = Parent.verdict parent request := by
  cases request with
  | apiVersionQuery | versionQuery =>
      cases hfatal : parent.fatal <;> simp only [handle, hfatal] at hrun <;> cases hrun
      · exact ⟨_, by simp [replies]; rfl, by simp [verdictIn, Parent.verdict, hfatal, errorText_ok]⟩
      · exact ⟨_, by simp [replies]; rfl, by simp [verdictIn, Parent.verdict, hfatal]⟩
  | isOpen =>
      cases hfatal : parent.fatal <;> cases hready : parent.ready <;>
        simp only [handle, hfatal, hready] at hrun <;> cases hrun <;>
        refine ⟨_, by simp [replies]; rfl, ?_⟩ <;>
        simp only [Parent.verdict, hfatal, hready, verdictIn_isOpen_failed] <;> rfl
  | hasLock | signalStrengthPercent =>
      cases hready : parent.ready <;> simp only [handle, hready] at hrun <;> cases hrun <;>
        refine ⟨_, by simp [replies]; rfl, ?_⟩ <;> simp only [Parent.verdict, hready] <;> rfl
  | _ =>
      obtain ⟨status, hreplies⟩ := reply_of_run hrun
      exact ⟨status, by simp [hreplies], rfl⟩

/-- What an exchange has told is so. -/
structure Shared.Bears (s : Shared) (exchange : Request × Text) : Prop where
  failed : ∀ msg, verdictIn exchange.1 exchange.2 = some (.failed msg) →
    s.fatal = true ∧ s.fatalMsg.toList = msg
  ready : verdictIn exchange.1 exchange.2 = some .ready → s.ready = true

/-- And it stays so. -/
theorem Shared.Bears.kept {cfg cfg' : Recorder} {action : Action Tid Choice ℕ}
    {exchange : Request × Text} (hbears : cfg.shared.Bears exchange)
    (hstep : machine.step cfg action = some cfg') : cfg'.shared.Bears exchange := by
  cases action with
  | env elapsed =>
      obtain rfl := Machine.step_env_iff.mp hstep
      exact ⟨hbears.failed, hbears.ready⟩
  | thread tid choice =>
      obtain ⟨frame, rest, s', frames, -, hexec, rfl⟩ := Machine.step_thread_iff.mp hstep
      refine ⟨fun msg hfailed => ?_, fun hready => ?_⟩
      · obtain ⟨hfatal, hmsg⟩ := hbears.failed msg hfailed
        rcases (verdictStep hexec).fatal with ⟨hsame, hsameMsg⟩ | ⟨later, -, hunset, -⟩
        · exact ⟨hsame.trans hfatal, hsameMsg ▸ hmsg⟩
        · simp [hfatal] at hunset
      · exact (exec_effects hexec).ready_of (hbears.ready hready)

section

variable {s : Shared} {result : Bool × Text}

theorem verdict_failed {msg : Text}
    (hverdict : Parent.verdict (settings.parent s result) request = some (.failed msg)) :
    s.fatal = true ∧ s.fatalMsg.toList = msg := by
  cases request <;> grind [Parent.verdict, Settings.parent]

theorem verdict_ready (hverdict : Parent.verdict (settings.parent s result) request = some .ready) :
    s.ready = true := by
  cases request <;> grind [Parent.verdict, Settings.parent]

theorem verdict_notReady
    (hverdict : Parent.verdict (settings.parent s result) request = some .notReady) :
    s.ready = false := by
  cases request <;> grind [Parent.verdict, Settings.parent]

/-- Every request that quotes a fatal error does so. -/
theorem verdict_of_quotesFatal (hquotes : request.quotesFatal = true) (hfatal : s.fatal = true) :
    Parent.verdict (settings.parent s result) request = some (.failed s.fatalMsg.toList) := by
  cases request <;> simp_all [Parent.verdict, Settings.parent, Request.quotesFatal]

end

/-- A turn adds an exchange, which tells what is so, or none. -/
theorem exchanges_step (hlaw : DialogueLaw (c, heard)) (hturn : TurnShape settings c c' turn) :
    exchanges (c', heard ++ heardIn c turn) = exchanges (c, heard) ∨
      ∃ request status result,
        exchanges (c', heard ++ heardIn c turn) = exchanges (c, heard) ++ [(request, status)] ∧
        verdictIn request status =
          Parent.verdict (settings.parent c.recorder.shared result) request := by
  obtain ⟨answered, hheard, hall⟩ := hlaw.answered
  have hheard : heard = answered ++ waiting c := hheard
  have hlength : (answered.map fun line => line.request).length =
      ((replies c.session.trace).map Prod.fst).length := by
    rw [List.length_map, List.length_map]
    exact hall.length_eq
  have hzip (later : List Heard) (statuses : List Text) :
      ((answered ++ later).map fun line => line.request).zip
        ((replies c.session.trace).map Prod.fst ++ statuses) =
      (answered.map fun line => line.request).zip ((replies c.session.trace).map Prod.fst) ++
        (later.map fun line => line.request).zip statuses := by
    rw [List.map_append, List.zip_append hlength]
  have hbefore : exchanges (c, heard) =
      (answered.map fun line => line.request).zip ((replies c.session.trace).map Prod.fst) := by
    have hold := hzip (waiting c) []
    rw [List.append_nil, List.zip_nil_right, List.append_nil] at hold
    rw [exchanges, hheard]
    exact hold
  rcases hturn.said with ⟨hwaiting, hsession⟩ |
    ⟨line, result, returned, hline, hpending, hversion, -, hrun⟩
  · left
    have hnew := hzip (waiting c') []
    rw [List.append_nil, List.zip_nil_right, List.append_nil] at hnew
    rw [hbefore, exchanges, hheard, List.append_assoc, ← hwaiting, hsession]
    exact hnew
  · obtain ⟨status, hstatuses, hverdict⟩ := verdictIn_of_run hrun
    refine .inr ⟨line.request, status, result, ?_, hverdict⟩
    rw [hbefore, exchanges, hheard, List.append_assoc, hline, hstatuses]
    exact hzip [line] [status]

/-- What has been told is so, and was not contradicted. -/
structure VerdictLaw (seen : Conversation × List Heard) : Prop where
  borne : ∀ exchange ∈ exchanges seen, seen.1.recorder.shared.Bears exchange
  consistent : (exchanges seen).Pairwise Consistent

theorem verdictLaw_step (hdialogue : DialogueLaw (c, heard)) (hlaw : VerdictLaw (c, heard))
    (hturn : TurnShape settings c c' turn) : VerdictLaw (c', heard ++ heardIn c turn) := by
  have hkept : ∀ exchange ∈ exchanges (c, heard), c'.recorder.shared.Bears exchange :=
    fun exchange hmem => (hlaw.borne exchange hmem).kept hturn.recorder
  rcases exchanges_step hdialogue hturn with hsame | ⟨request, status, result, hnew, hverdict⟩
  · exact ⟨by rwa [hsame], by rw [hsame]; exact hlaw.consistent⟩
  · have hbears : c.recorder.shared.Bears (request, status) :=
      ⟨fun msg hfailed => verdict_failed (hverdict.symm.trans hfailed),
        fun hready => verdict_ready (hverdict.symm.trans hready)⟩
    refine ⟨fun exchange hmem => ?_, ?_⟩
    · rw [hnew] at hmem
      rcases List.mem_append.mp hmem with hold | hlast
      · exact hkept exchange hold
      · obtain rfl := List.mem_singleton.mp hlast
        exact hbears.kept hturn.recorder
    · rw [hnew, List.pairwise_append]
      refine ⟨hlaw.consistent, List.pairwise_singleton _ _, fun earlier hearlier later hlater => ?_⟩
      obtain rfl := List.mem_singleton.mp hlater
      have hborne : c.recorder.shared.Bears earlier := hlaw.borne earlier hearlier
      refine ⟨fun msg hfailed hquotes => ?_, fun hready hnotReady => ?_⟩
      · obtain ⟨hfatal, rfl⟩ := hborne.failed msg hfailed
        exact hverdict.trans (verdict_of_quotesFatal hquotes hfatal)
      · have hunready := verdict_notReady (hverdict.symm.trans hnotReady)
        simp [hborne.ready hready] at hunready

/-- In every run of the recorder no reply contradicts an earlier one. -/
theorem repliesConsistent {seen : Conversation × List Heard}
    (hreach : (dialogue settings).Reachable seen) : (exchanges seen).Pairwise Consistent := by
  have hboth : DialogueLaw seen ∧ VerdictLaw seen := by
    refine System.ReachableBy.observed_invariant
      (P := fun seen => DialogueLaw seen ∧ VerdictLaw seen) hreach ?_ ?_
    · rintro _ ⟨now, rfl⟩
      exact ⟨⟨fun _ hmem => (List.not_mem_nil hmem).elim, [], rfl, List.Forall₂.nil⟩,
        fun _ hmem => (List.not_mem_nil hmem).elim, List.Pairwise.nil⟩
    · intro state memory turn next hprior hlaw _ hstep
      have hshape := wellShaped (talkLaw hprior).reachable
      have hturn := turnShape hshape (answerLaw hprior) hstep
      exact ⟨dialogueLaw_step hlaw.1 hturn, verdictLaw_step hlaw.1 hlaw.2 hturn⟩
  exact hboth.2.consistent

/-- The device is opened and asked for, then a control message fails, and then the recorder is
asked whether it is open. -/
def loseDevice : List Turn :=
  [commandsTurn .proceed [], commandsTurn (.request .lockTimeout) (text "LockTimeout?")] ++
    (goOn 3 ++ [Choice.opened true true, Choice.answer true] ++ goOn 3).map (commandsTurn · []) ++
    [commandsTurn (.request .hasLock) (text "HasLock?"), commandsTurn .proceed []] ++
    (.usbError :: goOn 5).map (fun choice => ⟨.thread (.encoder 0) choice, [], .default, []⟩) ++
    [commandsTurn (.request .isOpen) (text "IsOpen?")] ++ (goOn 2).map (commandsTurn · [])

/-- Three lines and their answers, and what these tell. -/
theorem exists_loseDevice : ∃ seen, (dialogue plainSettings).Reachable seen ∧
    seen.2.length = 3 ∧ (exchanges seen).map (fun exchange => verdictIn exchange.1 exchange.2) =
      [none, some .ready, some (.failed (text usbErrorMsg))] := by
  have hrun : ((dialogue plainSettings).run (⟨initial 0, .initial, none⟩, []) loseDevice).map
      (fun seen => (seen.2.length,
        (exchanges seen).map fun exchange => verdictIn exchange.1 exchange.2)) =
      some (3, [none, some .ready, some (.failed (text usbErrorMsg))]) := by
    decide +kernel
  have hstart : (dialogue plainSettings).Reachable (⟨initial 0, .initial, none⟩, []) :=
    .start ⟨⟨0, rfl⟩, rfl⟩
  obtain ⟨seen, hreach, hvalue⟩ := System.exists_reachable_of_run hstart hrun
  exact ⟨seen, hreach, Prod.mk.inj hvalue⟩

theorem dialogueAnswered_loseDevice :
    ∃ seen : Conversation × List Heard, seen.2.length = 3 ∧ Answered seen := by
  obtain ⟨seen, hreach, hlength, -⟩ := exists_loseDevice
  exact ⟨seen, hlength, dialogueAnswered hreach⟩

theorem repliesConsistent_loseDevice : ∃ seen : Conversation × List Heard,
    (exchanges seen).map (fun exchange => verdictIn exchange.1 exchange.2) =
      [none, some .ready, some (.failed (text usbErrorMsg))] ∧
    (exchanges seen).Pairwise Consistent := by
  obtain ⟨seen, hreach, -, hverdicts⟩ := exists_loseDevice
  exact ⟨seen, hverdicts, repliesConsistent hreach⟩

end HauppaugeUSB.MythTV

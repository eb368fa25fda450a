/-
# Replies on the control channel

The answering half of `process_command`, and `send_status`. Every request is
answered by one line on descriptor 2, which from API version 2 on begins with the
serial of the request. `send_status` looks at the session's API version again when
it writes the line, and two of the requests change that version: `APIVersion?`
after its reply and `APIVersion:` before it.

What a request finds when it reads a member of the recorder, or calls one of its
functions, is an input here. The other threads may change the members at any time,
so nothing is assumed of it. It is also taken for granted here that the request gets
the run mutex and that these functions return; when they do is a matter of the threads.
-/

import HauppaugeUSB.Commands.Request

namespace HauppaugeUSB.Commands

/-- `Commands::max_api_version`. -/
def maxApiVersion : ℤ := 2

/-- What a request reads of the recorder, `m_parent`, and gets from its functions. -/
structure Parent where
  desc : Text
  /-- `m_params.version`. -/
  version : Text
  fatal : Bool
  fatalMsg : Text
  ready : Bool
  /-- The result of `StartEncoding` and its `resultmsg`. -/
  startEncoding : Bool × Text
  /-- The result of `StopEncoding` and its `resultmsg`. -/
  stopEncoding : Bool × Text

/-- What a request does outside `Commands`. -/
inductive Event
  /-- `m_run_mutex` is taken, until the branch ends. -/
  | lockRun
  /-- `send_status` hands a text to `write(2)`. -/
  | reply (status written : Text)
  | openDev
  | setXon (on : Bool)
  | terminate
  | startEncoding
  | stopEncoding
  | setBlockSize (size : ℕ)
  deriving DecidableEq

/-- The state of `Commands`: its `m_api_version`, and what its requests have done. -/
structure Session where
  apiVersion : ℤ
  trace : List Event

/-- `Commands` as its constructor leaves it. -/
def Session.initial : Session := ⟨1, []⟩

/-- A part of `process_command`: it may throw, and it changes the session. -/
abbrev Handler := EStateM StdException Session

def record (event : Event) : Handler Unit :=
  modify fun session => { session with trace := session.trace ++ [event] }

/-- `std::to_string`. -/
def decimal (n : ℤ) : Text := (toString n).toList

/-- The line that carries a status under an API version. -/
def statusLine (version : ℤ) (serial status : Text) : Text :=
  if 1 < version then serial ++ text ":" ++ status ++ text "\n" else status ++ text "\n"

/-- `Commands::send_status`. The command is for the log alone, and no caller uses the
result. -/
def sendStatus (serial status : Text) : Handler Unit := do
  let session ← get
  record (.reply status (statusLine session.apiVersion serial status))

/-- The number that `std::stoul` reads, or its exception. -/
def convert (data : Text) : Handler ℕ :=
  match stoul data with
  | .ok n => pure n
  | .error exception => throw exception

def setApiVersion (version : ℤ) : Handler Unit :=
  modify fun session => { session with apiVersion := version }

/-- The branches of `process_command`, once it has got the run mutex where it takes it, and
once the functions that it calls have returned. -/
def handle (parent : Parent) (cmd serial : Text) : Request → Handler Bool
  | .apiVersionQuery => do
      record .lockRun
      if parent.fatal then
        sendStatus [] (text "ERR:" ++ parent.fatalMsg)
      else
        sendStatus [] (text "OK:" ++ decimal maxApiVersion)
        setApiVersion maxApiVersion
      return true
  | .missingSerial => do
      sendStatus (text "-1") (text "ERR:Malformed message. Expecting " ++
        text "<serial>:command<:optional data>, but received \"" ++ cmd ++ text "\"")
      return true
  | .versionQuery => do
      record .lockRun
      if parent.fatal then
        sendStatus serial (text "ERR:" ++ parent.fatalMsg)
      else
        sendStatus serial (text "OK:" ++ parent.version)
      return true
  | .description => do
      sendStatus serial (text "OK:" ++ parent.desc)
      return true
  | .hasLock => do
      if parent.ready then
        sendStatus serial (text "OK:Yes")
      else
        sendStatus serial (text "OK:No")
      return true
  | .signalStrengthPercent => do
      if parent.ready then
        sendStatus serial (text "OK:100")
      else
        sendStatus serial (text "OK:20")
      return true
  | .lockTimeout => do
      sendStatus serial (text "OK:12000")
      record .openDev
      return true
  | .hasTuner => do
      sendStatus serial (text "OK:No")
      return true
  | .hasPictureAttributes => do
      sendStatus serial (text "OK:No")
      return true
  | .sendBytes => do
      sendStatus serial (text "ERR:Not supported")
      return true
  | .xon => do
      sendStatus serial (text "OK")
      record (.setXon true)
      return true
  | .xoff => do
      sendStatus serial (text "OK")
      record (.setXon false)
      return true
  | .isOpen => do
      record .lockRun
      if parent.fatal then
        sendStatus serial (text "ERR:" ++ parent.fatalMsg)
      else if parent.ready then
        sendStatus serial (text "OK:Open")
      else
        sendStatus serial (text "WARN:Not Open yet")
      return true
  | .closeRecorder => do
      sendStatus serial (text "OK:Terminating")
      record .terminate
      return true
  | .flowControl => do
      sendStatus serial (text "OK:XON/XOFF")
      return true
  | .startStreaming => do
      record .startEncoding
      let (started, resultmsg) := parent.startEncoding
      if started then
        sendStatus serial (text "OK:Started")
      else
        sendStatus serial (text "ERR:" ++ resultmsg)
      return true
  | .stopStreaming => do
      record .stopEncoding
      let (stopped, resultmsg) := parent.stopEncoding
      if stopped then
        sendStatus serial (text "OK:Stopped")
      else
        sendStatus serial (text "ERR:" ++ resultmsg)
      return true
  | .missingData => do
      sendStatus serial (text "ERR:Malformed message. Expecting " ++
        text "<serial>:command:<data>, but received \"" ++ cmd ++ text "\"")
      return true
  | .apiVersion data => do
      record .lockRun
      let version ← convert data
      setApiVersion (toInt version)
      sendStatus serial (text "OK:API Version " ++ decimal (toInt version))
      return true
  | .tuneChannel => do
      sendStatus serial (text "ERR:Not supported")
      return true
  | .blockSize data => do
      let size ← convert data
      record (.setBlockSize (toUInt32 size))
      sendStatus serial (text "OK")
      return true
  | .unrecognized command => do
      sendStatus serial (text "ERR:Unrecognized command: '" ++ command ++ text "'")
      return true

/-- `Commands::process_command`. -/
def processCommand (parent : Parent) (cmd : Text) : Handler Bool := do
  let session ← get
  let (serial, request) := parseLine session.apiVersion cmd
  handle parent cmd serial request

variable {parent : Parent} {cmd serial : Text} {request : Request} {session : Session}

/-- The replies among what was done: their statuses and the lines that carry them. -/
def replies (trace : List Event) : List (Text × Text) :=
  trace.filterMap fun
    | .reply status written => some (status, written)
    | _ => none

/-- The session's API version when the reply to a request is written. -/
def replyVersion (version : ℤ) : Request → ℤ
  | .apiVersion data =>
      match stoul data with
      | .ok n => toInt n
      | .error _ => version
  | _ => version

/-- The serial that `process_command` passes to `send_status`. -/
def replySerial (serial : Text) : Request → Text
  | .apiVersionQuery => []
  | .missingSerial => text "-1"
  | _ => serial

/-- A request whose data can be converted is answered once. -/
theorem handle_answers (parent : Parent) (cmd serial : Text) (session : Session)
    (hthrows : request.throws = false) :
    ∃ session', (handle parent cmd serial request).run session = .ok true session' ∧
      ∃ status, replies session'.trace = replies session.trace ++
        [(status, statusLine (replyVersion session.apiVersion request) (replySerial serial request)
          status)] := by
  cases request with
  | apiVersionQuery | versionQuery =>
      cases hfatal : parent.fatal <;> simp only [handle, hfatal] <;>
        exact ⟨_, rfl, by simp [replies, replyVersion, replySerial]⟩
  | isOpen =>
      cases hfatal : parent.fatal <;> cases hready : parent.ready <;>
        simp only [handle, hfatal, hready] <;>
        exact ⟨_, rfl, by simp [replies, replyVersion, replySerial]⟩
  | hasLock | signalStrengthPercent =>
      cases hready : parent.ready <;> simp only [handle, hready] <;>
        exact ⟨_, rfl, by simp [replies, replyVersion, replySerial]⟩
  | startStreaming =>
      rcases hstart : parent.startEncoding with ⟨started, resultmsg⟩
      cases started <;> simp only [handle, hstart] <;>
        exact ⟨_, rfl, by simp [replies, replyVersion, replySerial]⟩
  | stopStreaming =>
      rcases hstop : parent.stopEncoding with ⟨stopped, resultmsg⟩
      cases stopped <;> simp only [handle, hstop] <;>
        exact ⟨_, rfl, by simp [replies, replyVersion, replySerial]⟩
  | apiVersion data | blockSize data =>
      obtain ⟨n, hstoul⟩ := exists_of_not_stoulThrows hthrows
      simp only [handle, convert, hstoul]
      exact ⟨_, rfl, by simp [replies, replyVersion, replySerial, hstoul]⟩
  | _ => exact ⟨_, rfl, by simp [replies, replyVersion, replySerial]⟩

/-- A request whose data cannot be converted is not answered. -/
theorem handle_throws (parent : Parent) (cmd serial : Text) (session : Session)
    (hthrows : request.throws = true) :
    ∃ exception session',
      (handle parent cmd serial request).run session = .error exception session' ∧
        replies session'.trace = replies session.trace := by
  cases request with
  | apiVersion data | blockSize data =>
      obtain ⟨exception, hstoul⟩ := exists_of_stoulThrows hthrows
      simp only [handle, convert, hstoul]
      exact ⟨exception, _, rfl, by simp [replies]⟩
  | _ => simp [Request.throws] at hthrows

theorem processCommand_run :
    (processCommand parent cmd).run session =
      (handle parent cmd (parseLine session.apiVersion cmd).1
        (parseLine session.apiVersion cmd).2).run session := rfl

/-- No exception escapes from `process_command`, and it calls `send_status` once. -/
def AnswersOnce (parent : Parent) (session : Session) (cmd : Text) : Prop :=
  ∃ returned session' reply, (processCommand parent cmd).run session = .ok returned session' ∧
    replies session'.trace = replies session.trace ++ [reply]

theorem not_answersOnce_of_throws
    (hthrows : (parseLine session.apiVersion cmd).2.throws = true) :
    ¬ AnswersOnce parent session cmd := by
  rintro ⟨returned, session', reply, hrun, -⟩
  obtain ⟨exception, thrown, herror, -⟩ := handle_throws parent cmd _ session hthrows
  rw [processCommand_run, herror] at hrun
  cases hrun

/-- A line is answered once if `std::stoul` accepts the number it carries, and not at
all otherwise. -/
theorem answersOnce_iff (parent : Parent) (session : Session) (cmd : Text) :
    AnswersOnce parent session cmd ↔ (parseLine session.apiVersion cmd).2.throws = false := by
  constructor
  · intro honce
    apply Bool.eq_false_iff.mpr
    exact fun hthrows => not_answersOnce_of_throws hthrows honce
  · intro hthrows
    obtain ⟨session', hrun, status, hreplies⟩ := handle_answers parent cmd _ session hthrows
    exact ⟨true, session', _, hrun, hreplies⟩

/-- A recorder that nothing has happened to. -/
def Parent.idle : Parent where
  desc := text "Hauppauge"
  version := text "1.0"
  fatal := false
  fatalMsg := []
  ready := false
  startEncoding := (false, text "Hauppauge device not ready.")
  stopEncoding := (true, text "Already not streaming!")

/-- A request and what it was answered. -/
structure Exchange where
  /-- The API version under which the line was parsed. -/
  version : ℤ
  cmd : Text
  replies : List (Text × Text)
  deriving DecidableEq

/-- The handling of one line: what was answered, and the session that goes on unless
an exception has ended the process. -/
def exchange (session : Session) (parent : Parent) (cmd : Text) : Exchange × Option Session :=
  match (processCommand parent cmd).run { session with trace := [] } with
  | .ok _ session' => (⟨session.apiVersion, cmd, replies session'.trace⟩, some session')
  | .error _ session' => (⟨session.apiVersion, cmd, replies session'.trace⟩, none)

/-- The handling of lines one after the other, each with what it finds of the recorder. -/
def converse : Session → List (Parent × Text) → List Exchange
  | _, [] => []
  | session, (parent, cmd) :: later =>
      (exchange session parent cmd).1 ::
        match (exchange session parent cmd).2 with
        | some session' => converse session' later
        | none => []

/-- The first token of a line, which is its serial from version 2 on. -/
def lineSerial (cmd : Text) : Text :=
  match cmd.splitOn ':' with
  | serial :: _ :: _ => serial
  | _ => text "-1"

/-- A line of output carries a status in the framing of an API version. -/
def Framed (version : ℤ) (cmd status line : Text) : Prop :=
  if 1 < version then line = lineSerial cmd ++ text ":" ++ status ++ text "\n"
  else line = status ++ text "\n"

/-- Every reply has the framing of the version under which the request was parsed. -/
def Exchange.Correlated (exchange : Exchange) : Prop :=
  ∀ reply ∈ exchange.replies, Framed exchange.version exchange.cmd reply.1 reply.2

/-- The line is not `APIVersion?` under version 2 or later, and is not an `APIVersion:`
that leads from version 1 to a later one or back. -/
def KeepsFraming (version : ℤ) (cmd : Text) : Prop :=
  match (parseLine version cmd).2 with
  | .apiVersionQuery => version ≤ 1
  | .apiVersion data => ∀ n, stoul data = .ok n → (1 < toInt n ↔ 1 < version)
  | _ => True

/-- The command word alone never makes one of the two requests that are found earlier. -/
theorem replySerial_classify (serial command : Text) (data : List Text) :
    replySerial serial (classify command data) = serial := by
  fun_cases classify command data <;> rfl

/-- From version 2 on the serial of a reply is that of the line, but for `APIVersion?`. -/
theorem replySerial_parseLine {version : ℤ} (hversion : 1 < version)
    (hquery : startsWith cmd "APIVersion?" = false) :
    replySerial (parseLine version cmd).1 (parseLine version cmd).2 = lineSerial cmd := by
  rw [parseLine, if_neg (by simp [hquery])]
  rcases htokens : cmd.splitOn ':' with _ | ⟨serial, _ | ⟨command, data⟩⟩
  · simp [hversion, lineSerial, htokens, replySerial]
  · simp [hversion, lineSerial, htokens, replySerial]
  · simp [hversion, lineSerial, htokens, replySerial_classify]

/-- The two framings of a status differ, whatever the serial. -/
theorem framed_ne (serial status : Text) :
    serial ++ text ":" ++ status ++ text "\n" ≠ status ++ text "\n" := by
  intro heq
  have hlength := congrArg List.length heq
  simp only [text, List.length_append, String.length_toList] at hlength
  have hcolon : ":".length = 1 := rfl
  omega

/-- The right framing is used if the version when the reply is written is on the same
side of version 2 as the one when the line was parsed. -/
theorem framed_iff {spoken version : ℤ} {status : Text}
    (hserial : 1 < version → serial = lineSerial cmd) :
    Framed version cmd status (statusLine spoken serial status) ↔ (1 < spoken ↔ 1 < version) := by
  by_cases hspoken : 1 < spoken <;> by_cases hversion : 1 < version
  · rw [Framed, if_pos hversion, statusLine, if_pos hspoken, hserial hversion]
    exact iff_of_true rfl (iff_of_true hspoken hversion)
  · rw [Framed, if_neg hversion, statusLine, if_pos hspoken]
    exact iff_of_false (framed_ne serial status) fun h => hversion (h.mp hspoken)
  · rw [Framed, if_pos hversion, statusLine, if_neg hspoken]
    exact iff_of_false (framed_ne (lineSerial cmd) status).symm fun h => hspoken (h.mpr hversion)
  · rw [Framed, if_neg hversion, statusLine, if_neg hspoken]
    exact iff_of_true rfl (iff_of_false hspoken hversion)

theorem lineSerial_ne_nil {first : Char} (rest : Text) (hfirst : first ≠ ':') :
    lineSerial (first :: rest) ≠ [] := by
  rcases htokens : rest.splitOn ':' with _ | ⟨serial, _ | ⟨command, data⟩⟩ <;>
    simp [lineSerial, List.splitOn_cons_eq_if_modifyHead, hfirst, htokens, text]

/-- `APIVersion?` is answered without a serial. -/
theorem framed_query_iff {version : ℤ} {status : Text}
    (hquery : startsWith cmd "APIVersion?" = true) :
    Framed version cmd status (statusLine version [] status) ↔ version ≤ 1 := by
  by_cases hversion : 1 < version
  · rw [Framed, if_pos hversion, statusLine, if_pos hversion]
    refine iff_of_false (fun heq => ?_) (Int.not_le.mpr hversion)
    obtain ⟨rest, rfl⟩ := List.isPrefixOf_iff_prefix.mp hquery
    have hserial : [] = lineSerial (text "APIVersion?" ++ rest) := by
      simpa only [List.append_assoc, List.append_left_inj] using heq
    exact lineSerial_ne_nil _ (by decide) hserial.symm
  · rw [Framed, if_neg hversion, statusLine, if_neg hversion]
    exact iff_of_true rfl (Int.not_lt.mp hversion)

theorem parseLine_ne_query (version : ℤ) (hquery : startsWith cmd "APIVersion?" = false) :
    (parseLine version cmd).2 ≠ .apiVersionQuery := by
  have hclassify : ∀ command data, classify command data ≠ .apiVersionQuery := by
    intro command data
    fun_cases classify command data <;> simp
  rw [parseLine, if_neg (by simp [hquery])]
  rcases htokens : cmd.splitOn ':' with _ | ⟨serial, _ | ⟨command, data⟩⟩ <;>
    by_cases hversion : 1 < version <;> simp [hversion, hclassify]

/-- What the condition says of the other requests. -/
theorem keepsFraming_iff {version : ℤ} (hquery : startsWith cmd "APIVersion?" = false)
    (hthrows : (parseLine version cmd).2.throws = false) :
    KeepsFraming version cmd ↔
      (1 < replyVersion version (parseLine version cmd).2 ↔ 1 < version) := by
  have hne := parseLine_ne_query version hquery
  unfold KeepsFraming
  cases hrequest : (parseLine version cmd).2 with
  | apiVersionQuery => exact absurd hrequest hne
  | apiVersion data =>
      rw [hrequest] at hthrows
      obtain ⟨n, hstoul⟩ := exists_of_not_stoulThrows hthrows
      simp [replyVersion, hstoul]
  | _ => simp [replyVersion]

/-- A line is answered in its framing if it meets the condition. -/
theorem exchange_correlated_iff (session : Session) (parent : Parent) (cmd : Text) :
    (exchange session parent cmd).1.Correlated ↔ KeepsFraming session.apiVersion cmd := by
  cases hthrows : (parseLine session.apiVersion cmd).2.throws with
  | true =>
      obtain ⟨exception, session', hrun, hreplies⟩ :=
        handle_throws parent cmd (parseLine session.apiVersion cmd).1
          { session with trace := [] } hthrows
      have hnone : replies session'.trace = [] := hreplies
      refine iff_of_true ?_ ?_
      · rw [exchange, processCommand_run, hrun]
        simp [Exchange.Correlated, hnone]
      · unfold KeepsFraming
        cases hrequest : (parseLine session.apiVersion cmd).2 with
        | apiVersion data =>
            rw [hrequest] at hthrows
            obtain ⟨exception, herror⟩ := exists_of_stoulThrows hthrows
            intro n hstoul
            simp [herror] at hstoul
        | apiVersionQuery => simp [hrequest, Request.throws] at hthrows
        | _ => trivial
  | false =>
      obtain ⟨session', hrun, status, hreplies⟩ :=
        handle_answers parent cmd (parseLine session.apiVersion cmd).1
          { session with trace := [] } hthrows
      have hone : replies session'.trace = [(status, _)] := hreplies
      have hcorrelated : (exchange session parent cmd).1.Correlated ↔
          Framed session.apiVersion cmd status
            (statusLine (replyVersion session.apiVersion (parseLine session.apiVersion cmd).2)
              (replySerial (parseLine session.apiVersion cmd).1
                (parseLine session.apiVersion cmd).2) status) := by
        rw [exchange, processCommand_run, hrun]
        simp [Exchange.Correlated, hone]
      rw [hcorrelated]
      cases hquery : startsWith cmd "APIVersion?" with
      | true =>
          have hparse : parseLine session.apiVersion cmd = ([], .apiVersionQuery) := by
            rw [parseLine, if_pos hquery]
          rw [KeepsFraming, hparse]
          exact framed_query_iff hquery
      | false =>
          rw [keepsFraming_iff hquery hthrows]
          exact framed_iff fun hversion => replySerial_parseLine hversion hquery

theorem exchange_version (session : Session) (parent : Parent) (cmd : Text) :
    (exchange session parent cmd).1.version = session.apiVersion ∧
      (exchange session parent cmd).1.cmd = cmd := by
  unfold exchange
  split <;> exact ⟨rfl, rfl⟩

/-- Every part of a conversation is the handling of one line. -/
theorem exists_of_mem_converse {requests : List (Parent × Text)} {done : Exchange}
    (hdone : done ∈ converse session requests) :
    ∃ before parent cmd, done = (exchange before parent cmd).1 := by
  induction requests generalizing session with
  | nil => simp [converse] at hdone
  | cons request later ih =>
      obtain ⟨parent, cmd⟩ := request
      rw [converse, List.mem_cons] at hdone
      rcases hdone with rfl | hlater
      · exact ⟨session, parent, cmd, rfl⟩
      · split at hlater
        · exact ih hlater
        · simp at hlater

/-- In a conversation every reply is framed as its request was parsed if every line
meets the condition. -/
theorem correlated_iff (requests : List (Parent × Text)) :
    (∀ done ∈ converse .initial requests, done.Correlated) ↔
      ∀ done ∈ converse .initial requests, KeepsFraming done.version done.cmd := by
  refine forall₂_congr fun done hdone => ?_
  obtain ⟨before, parent, cmd, rfl⟩ := exists_of_mem_converse hdone
  rw [(exchange_version before parent cmd).1, (exchange_version before parent cmd).2]
  exact exchange_correlated_iff before parent cmd

/-- The answer to a new version is in the framing of that version. -/
theorem not_correlated :
    ¬ ∀ done ∈ converse .initial [(.idle, text "APIVersion:2")], done.Correlated := by
  intro hall
  have hdone : converse .initial [(.idle, text "APIVersion:2")] =
      [⟨1, text "APIVersion:2", [(text "OK:API Version 2", text ":OK:API Version 2\n")]⟩] := by
    decide +kernel
  rw [hdone] at hall
  have hframed := hall _ List.mem_cons_self _ List.mem_cons_self
  rw [Framed, if_neg (by decide)] at hframed
  exact absurd hframed (by decide)

end HauppaugeUSB.Commands

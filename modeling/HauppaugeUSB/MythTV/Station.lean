/-
# A recorder without threads

What a recorder is for can be said without its threads. Blocks are offered to it and queued as
long as there is room, and they are passed on one at a time and in order. It is made ready once, a
recording is begun when the backend asks for it and ended, the first failure is the one that it
speaks of, and it leaves once. The backend asks one line after another and is told of each what
is so at that moment.

Here every operation takes effect at once. The operations are the words in which the runs of the
recorder's threads are described later, so they promise no more than the threads keep: a failed
recorder may still be told to begin a recording, and the queue may be cleared at any time.
-/

import HauppaugeUSB.Commands.Lines
import HauppaugeUSB.Concurrency.Ledger
import HauppaugeUSB.Concurrency.System

namespace HauppaugeUSB.MythTV

open HauppaugeUSB.Concurrency HauppaugeUSB.Commands

variable {Item : Type*}

/-- What a recorder says of itself. -/
structure Nameplate where
  desc : Text
  version : Text

/-- How far the recorder has got with what a line asks for. -/
inductive Stage
  | asked
  /-- The recording has been begun. -/
  | begun
  /-- The device is told to end the recording that is on. -/
  | halted
  /-- The device has not been able to. -/
  | rejected
  deriving DecidableEq

/-- A line that has not been answered yet. -/
structure Question where
  line : Text
  serial : Text
  request : Request
  stage : Stage
  deriving DecidableEq

/-- What has been agreed on with the backend, asked by it and told it. -/
structure Desk where
  version : ℤ
  question : Option Question
  /-- The statuses and the lines that carried them. -/
  said : List (Text × Text)
  deriving DecidableEq

/-- The line that carries a status. -/
def Desk.lineOf (desk : Desk) (question : Question) (status : Text) : Text :=
  statusLine (replyVersion desk.version question.request)
    (replySerial question.serial question.request) status

/-- A recorder. -/
structure Station (Item : Type*) where
  running : Bool
  /-- The first failure. -/
  failure : Option Text
  ready : Bool
  recording : Bool
  /-- The backend takes blocks. -/
  flowing : Bool
  /-- The queue, and what became of all that was offered to it. -/
  books : Ledger Item
  /-- The block that has been taken from the queue and is to be passed on. -/
  hand : Option Item
  passed : List Item
  desk : Desk

/-- What can happen to a recorder. -/
inductive Operation (Item : Type*)
  | offer (item : Item)
  /-- An offer comes at a bad moment and is dropped. -/
  | drop (item : Item)
  | take
  | pass
  | clear
  | prepare
  | begin
  /-- The recording that is on is to be ended for the line that asks for it. -/
  | halt
  | reject
  | finish
  | allow (flowing : Bool)
  | fail (msg : Text)
  | leave
  | ask (line : Text)
  | tell (status : Text)
  deriving DecidableEq

/-- Who has to do with a recorder. -/
inductive Party
  | encoder
  | output
  | backend
  /-- Whoever looks after it. -/
  | keeper
  deriving DecidableEq

/-- Who performs an operation, if not everybody may. -/
def Operation.party : Operation Item → Option Party
  | .offer _ | .drop _ => some .encoder
  | .take | .pass | .clear => some .output
  | .prepare | .begin | .halt | .reject | .allow _ | .ask _ | .tell _ => some .backend
  | .finish | .fail _ | .leave => none

/-- A new recorder. -/
def Station.initial : Station Item where
  running := true
  failure := none
  ready := false
  recording := false
  flowing := false
  books := ⟨[], [], [], [], [], []⟩
  hand := none
  passed := []
  desk := ⟨1, none, []⟩

namespace Station

/-- The API version after an answer. -/
def versionAfter (s : Station Item) : Request → ℤ
  | .apiVersionQuery => if s.failure.isSome then s.desk.version else maxApiVersion
  | request => replyVersion s.desk.version request

/-- A status, unless the recorder has failed. -/
def report (s : Station Item) (status : Text) : Text :=
  match s.failure with
  | some msg => text "ERR:" ++ msg
  | none => status

/-- What may be told in answer to a question. -/
def answers (plate : Nameplate) (s : Station Item) (question : Question) (status : Text) : Bool :=
  match question.request with
  | .apiVersionQuery => status = s.report (text "OK:" ++ decimal maxApiVersion)
  | .versionQuery => status = s.report (text "OK:" ++ plate.version)
  | .isOpen =>
      status = s.report (if s.ready then text "OK:Open" else text "WARN:Not Open yet")
  | .hasLock => status = if s.ready then text "OK:Yes" else text "OK:No"
  | .signalStrengthPercent => status = if s.ready then text "OK:100" else text "OK:20"
  | .startStreaming =>
      if question.stage = .begun || s.recording then status = text "OK:Started"
      else if s.ready then startsWith status "ERR:"
      else status = text "ERR:Hauppauge device not ready."
  | .stopStreaming =>
      !s.recording &&
        if question.stage = .rejected then startsWith status "ERR:"
        else status = text "OK:Stopped"
  | .description => status = text "OK:" ++ plate.desc
  | .lockTimeout => status = text "OK:12000"
  | .hasTuner | .hasPictureAttributes => status = text "OK:No"
  | .sendBytes | .tuneChannel => status = text "ERR:Not supported"
  | .xon | .xoff | .blockSize _ => status = text "OK"
  | .closeRecorder => status = text "OK:Terminating"
  | .flowControl => status = text "OK:XON/XOFF"
  | .apiVersion data =>
      status = text "OK:API Version " ++ decimal (s.versionAfter (.apiVersion data))
  | .missingSerial =>
      status = text "ERR:Malformed message. Expecting " ++
        text "<serial>:command<:optional data>, but received \"" ++ question.line ++ text "\""
  | .missingData =>
      status = text "ERR:Malformed message. Expecting " ++
        text "<serial>:command:<data>, but received \"" ++ question.line ++ text "\""
  | .unrecognized command =>
      status = text "ERR:Unrecognized command: '" ++ command ++ text "'"

/-- An operation, where it is possible. -/
def step (plate : Nameplate) (capacity : ℕ) (s : Station Item) :
    Operation Item → Option (Station Item)
  | .offer item =>
      if s.books.queue.length < capacity then some { s with books := s.books.push item }
      else some { s with books := s.books.refuse item }
  | .drop item => some { s with books := s.books.withdraw item }
  | .take =>
      match s.books.queue, s.hand with
      | item :: rest, none => some { s with books := s.books.take item rest, hand := some item }
      | _, _ => none
  | .pass => s.hand.map fun item => { s with hand := none, passed := s.passed ++ [item] }
  | .clear => if s.hand.isSome then none else some { s with books := s.books.clear }
  | .prepare => if s.ready then none else some { s with ready := true }
  | .begin =>
      match s.desk.question with
      | some ⟨line, serial, .startStreaming, .asked⟩ =>
          if s.ready && !s.recording then
            some { s with
              recording := true
              desk := { s.desk with question := some ⟨line, serial, .startStreaming, .begun⟩ } }
          else none
      | _ => none
  | .halt =>
      match s.desk.question with
      | some ⟨line, serial, .stopStreaming, .asked⟩ =>
          if s.recording then
            some { s with
              desk := { s.desk with question := some ⟨line, serial, .stopStreaming, .halted⟩ } }
          else none
      | _ => none
  | .reject =>
      match s.desk.question with
      | some ⟨line, serial, .stopStreaming, .halted⟩ =>
          if s.recording then none
          else some { s with
            desk := { s.desk with question := some ⟨line, serial, .stopStreaming, .rejected⟩ } }
      | _ => none
  | .finish => if s.recording then some { s with recording := false } else none
  | .allow flowing => some { s with flowing := flowing }
  | .fail msg => if s.failure.isSome then none else some { s with failure := some msg }
  | .leave => if s.running then some { s with running := false } else none
  | .ask line =>
      let parsed := parseLine s.desk.version line
      if s.desk.question.isNone ∧ OneLine line ∧ parsed.2.throws = false then
        some { s with desk := { s.desk with question := some ⟨line, parsed.1, parsed.2, .asked⟩ } }
      else none
  | .tell status =>
      match s.desk.question with
      | some question =>
          if s.answers plate question status then
            some { s with
              desk :=
                { version := s.versionAfter question.request
                  question := none
                  said := s.desk.said ++ [(status, s.desk.lineOf question status)] } }
          else none
      | none => none

theorem step_tell {plate : Nameplate} {capacity : ℕ} {s : Station Item} {question : Question}
    {status : Text} (hquestion : s.desk.question = some question)
    (hanswers : s.answers plate question status = true) :
    s.step plate capacity (.tell status) = some { s with
      desk :=
        { version := s.versionAfter question.request
          question := none
          said := s.desk.said ++ [(status, s.desk.lineOf question status)] } } := by
  simp [step, hquestion, hanswers]

end Station

/-- Recorders with room for so many blocks, and who does what to them. -/
@[reducible]
def station (Item : Type*) (plate : Nameplate) (capacity : ℕ) :
    System (Station Item) (Party × Operation Item) where
  IsStart s := s = .initial
  step s performed :=
    if performed.2.party.all (· = performed.1) then s.step plate capacity performed.2 else none

/-- The item that is offered. -/
def Operation.offered : Operation Item → Option Item
  | .offer item | .drop item => some item
  | _ => none

def Operation.isPrepare : Operation Item → Bool
  | .prepare => true
  | _ => false

def Operation.isFail : Operation Item → Bool
  | .fail _ => true
  | _ => false

def Operation.isLeave : Operation Item → Bool
  | .leave => true
  | _ => false

def Operation.isBegin : Operation Item → Bool
  | .begin => true
  | _ => false

def Operation.isFinish : Operation Item → Bool
  | .finish => true
  | _ => false

def Operation.isAsk : Operation Item → Bool
  | .ask _ => true
  | _ => false

/-- The recording that is asked for has been begun and the backend does not know yet. -/
def Desk.begun (desk : Desk) : Bool := desk.question.any fun question => question.stage = .begun

/-- The blocks of a recorder after some operations. -/
structure Station.BlocksKept (capacity : ℕ) (performed : List (Operation Item))
    (s : Station Item) : Prop where
  books : s.books.Conserved capacity
  offered : s.books.offered = performed.filterMap Operation.offered
  passed : s.books.taken = s.passed ++ s.hand.toList

/-- Its life after these operations. -/
structure Station.LifeKept (performed : List (Operation Item)) (s : Station Item) : Prop where
  /-- It fails at most once. -/
  failed : performed.countP Operation.isFail = s.failure.toList.length
  /-- It leaves at most once, and does not run from then on. -/
  left : performed.countP Operation.isLeave = (!s.running).toNat
  /-- It is made ready at most once. -/
  prepared : performed.countP Operation.isPrepare = s.ready.toNat
  /-- Recordings are begun and finished in turn, by a recorder that is ready. -/
  recorded : performed.countP Operation.isBegin =
    performed.countP Operation.isFinish + s.recording.toNat
  ready : s.recording = true → s.ready = true

/-- What the backend has been told after these operations. -/
structure Station.TalkKept (performed : List (Operation Item)) (s : Station Item) : Prop where
  /-- As many recordings are told of as have been begun. -/
  told : performed.countP Operation.isBegin ≤
    s.desk.said.countP (fun said => said.1 = text "OK:Started") + s.desk.begun.toNat
  begun : ∀ question, s.desk.question = some question → question.stage = .begun →
    question.request = .startStreaming
  answered : performed.countP Operation.isAsk =
    s.desk.said.length + s.desk.question.toList.length

/-- All of this. -/
structure Station.InOrder (capacity : ℕ) (performed : List (Operation Item)) (s : Station Item) :
    Prop where
  blocks : s.BlocksKept capacity performed
  life : s.LifeKept performed
  talk : s.TalkKept performed

namespace Station

variable {plate : Nameplate} {capacity : ℕ} {performed : List (Operation Item)}
  {s s' : Station Item} {operation : Operation Item}

theorem inOrder_initial : (initial : Station Item).InOrder capacity [] where
  blocks := ⟨.empty, rfl, rfl⟩
  life := ⟨rfl, rfl, rfl, rfl, fun hrecording => by cases hrecording⟩
  talk := ⟨Nat.zero_le _, fun _ hnone => (by cases hnone), rfl⟩

theorem filterMap_offered :
    (performed ++ [operation]).filterMap Operation.offered =
      performed.filterMap Operation.offered ++ operation.offered.toList := by
  rw [List.filterMap_append]
  cases hoffered : operation.offered <;> simp [hoffered]

theorem BlocksKept.step (hkept : s.BlocksKept capacity performed)
    (hstep : s.step plate capacity operation = some s') :
    s'.BlocksKept capacity (performed ++ [operation]) := by
  obtain ⟨hbooks, hoffered, hpassed⟩ := hkept
  have hsame (hnone : operation.offered = none) :
      s.books.offered = (performed ++ [operation]).filterMap Operation.offered := by
    rw [filterMap_offered, hnone, Option.toList_none, List.append_nil, hoffered]
  have hadded {item : Item} (hsome : operation.offered = some item) :
      s.books.offered ++ [item] = (performed ++ [operation]).filterMap Operation.offered := by
    rw [filterMap_offered, hsome, Option.toList_some, hoffered]
  cases operation with
  | offer item =>
      simp only [Station.step] at hstep
      split at hstep <;> rename_i hroom <;> cases hstep
      · exact ⟨hbooks.push hroom, hadded rfl, hpassed⟩
      · exact ⟨hbooks.refuse, hadded rfl, hpassed⟩
  | drop item =>
      cases hstep
      exact ⟨hbooks.withdraw, hadded rfl, hpassed⟩
  | take =>
      simp only [Station.step] at hstep
      split at hstep
      case h_1 item rest hqueue hhand =>
        cases hstep
        exact ⟨hbooks.take hqueue, hsame rfl, by simpa [Ledger.take, hhand] using hpassed⟩
      case h_2 => cases hstep
  | pass =>
      obtain ⟨item, hhand, rfl⟩ := Option.map_eq_some_iff.mp hstep
      exact ⟨hbooks, hsame rfl, by simpa [hhand] using hpassed⟩
  | clear =>
      simp only [Station.step] at hstep
      split at hstep <;> cases hstep
      exact ⟨hbooks.clear, hsame rfl, hpassed⟩
  | _ =>
      simp only [Station.step] at hstep
      (try split at hstep) <;> (try split at hstep) <;> cases hstep
      all_goals exact ⟨hbooks, hsame rfl, hpassed⟩

section

attribute [local simp] Operation.isPrepare Operation.isFail Operation.isLeave Operation.isBegin
  Operation.isFinish Operation.isAsk Desk.begun

theorem LifeKept.step (hkept : s.LifeKept performed)
    (hstep : s.step plate capacity operation = some s') :
    s'.LifeKept (performed ++ [operation]) := by
  obtain ⟨hfailed, hleft, hprepared, hrecorded, hready⟩ := hkept
  cases operation with
  | pass =>
      obtain ⟨item, hhand, rfl⟩ := Option.map_eq_some_iff.mp hstep
      constructor <;> simpa
  | _ =>
      simp only [Station.step] at hstep
      (try split at hstep) <;> (try split at hstep) <;> cases hstep <;> constructor <;> simp_all

/-- Who has asked for a recording that was begun is told so. -/
theorem startStreaming_told {question : Question} {status : Text}
    (hrequest : question.request = .startStreaming) (hbegun : question.stage = .begun)
    (hanswers : s.answers plate question status = true) : status = text "OK:Started" := by
  simpa [answers, hrequest, hbegun] using hanswers

theorem TalkKept.step (hkept : s.TalkKept performed)
    (hstep : s.step plate capacity operation = some s') :
    s'.TalkKept (performed ++ [operation]) := by
  obtain ⟨htold, hbegun, hanswered⟩ := hkept
  cases operation with
  | pass =>
      obtain ⟨item, hhand, rfl⟩ := Option.map_eq_some_iff.mp hstep
      exact ⟨by simpa, hbegun, by simpa⟩
  | begin =>
      simp only [Station.step] at hstep
      split at hstep
      case h_1 line serial hquestion =>
        split at hstep <;> cases hstep
        refine ⟨by simpa [hquestion] using htold, fun _ hsome _ => ?_, by
          simpa [hquestion] using hanswered⟩
        cases hsome
        rfl
      case h_2 => cases hstep
  | ask line =>
      simp only [Station.step] at hstep
      split at hstep
      case isFalse => cases hstep
      case isTrue hask =>
        cases hstep
        have hnone := Option.isNone_iff_eq_none.mp hask.1
        refine ⟨by simpa [hnone] using htold, fun _ hsome hbegun => ?_, by
          simpa [hnone] using hanswered⟩
        cases hsome
        cases hbegun
  | tell status =>
      simp only [Station.step] at hstep
      split at hstep
      case h_1 question hquestion =>
        split at hstep <;> cases hstep
        refine ⟨?_, fun _ hsome => (by cases hsome), by simpa [hquestion] using hanswered⟩
        by_cases hlater : question.stage = .begun
        · have hstarted := startStreaming_told (hbegun question hquestion hlater) hlater ‹_›
          simpa [hquestion, hlater, hstarted] using htold
        · simp only [List.countP_append, Desk.begun, hquestion, Option.any_some, hlater,
            decide_false] at htold ⊢
          exact Nat.le_add_right_of_le (Nat.le_add_right_of_le htold)
      case h_2 => cases hstep
  | halt | reject =>
      simp only [Station.step] at hstep
      split at hstep
      case h_1 line serial hquestion =>
        split at hstep <;> cases hstep
        refine ⟨by simpa [hquestion] using htold, fun _ hsome hstage => ?_, by
          simpa [hquestion] using hanswered⟩
        cases hsome
        cases hstage
      case h_2 => cases hstep
  | _ =>
      simp only [Station.step] at hstep
      (try split at hstep) <;> cases hstep <;> exact ⟨by simpa, hbegun, by simpa⟩

end

/-- An operation keeps everything in order. -/
theorem InOrder.step (horder : s.InOrder capacity performed)
    (hstep : s.step plate capacity operation = some s') :
    s'.InOrder capacity (performed ++ [operation]) :=
  ⟨horder.blocks.step hstep, horder.life.step hstep, horder.talk.step hstep⟩

/-- And so does a run. -/
theorem InOrder.run {parties : List (Party × Operation Item)}
    (horder : s.InOrder capacity performed)
    (hrun : (station Item plate capacity).run s parties = some s') :
    s'.InOrder capacity (performed ++ parties.map Prod.snd) := by
  induction parties generalizing s performed with
  | nil =>
      obtain rfl : s = s' := by simpa [System.run] using hrun
      simpa using horder
  | cons head rest ih =>
      obtain ⟨next, hstep, hrest⟩ := Option.bind_eq_some_iff.mp hrun
      simp only [Option.ite_none_right_eq_some] at hstep
      simpa using ih (horder.step hstep.2) hrest

end Station

end HauppaugeUSB.MythTV

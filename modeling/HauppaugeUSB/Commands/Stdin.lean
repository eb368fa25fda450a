/-
# Reading the control channel

`Commands::Run` asks `poll` whether descriptor 0 has something to read and takes a
line with `std::getline(std::cin)`. The two look at different things: `getline`
reads whole chunks of the descriptor into the buffer of the stream, and what is
left there after the line is out of sight of `poll`.

This file models the descriptor, the stream and the loop. The peer writes and closes
when it likes; `poll` returns anything that it may return in the situation, and each
`read` of the stream delivers any part of what is there. That `std::getline` leaves
the string empty at end of file is an assumption about the C++ library.
-/

import HauppaugeUSB.Commands.Request
import HauppaugeUSB.Concurrency.System
import HauppaugeUSB.Streams.Records

namespace HauppaugeUSB.Commands

open HauppaugeUSB.Concurrency HauppaugeUSB.Streams

/-- The points of `Commands::Run`. -/
inductive ReadPoint
  | loop
  | poll
  /-- Inside `std::getline`, with what it has extracted so far. -/
  | getline (cmd : Text)
  /-- Past the loop, left because of a hang-up or for another reason. -/
  | exit (hangUp : Bool)
  deriving DecidableEq

/-- The bits of `polls[0].revents`. -/
structure Revents where
  /-- `POLLIN`. -/
  readable : Bool
  /-- `POLLHUP`. -/
  hangUp : Bool
  /-- `POLLNVAL`. -/
  invalid : Bool
  /-- Any other bit. -/
  other : Bool
  deriving DecidableEq

/-- No bit is set. -/
def Revents.none : Revents := ⟨false, false, false, false⟩

/-- The values of `errno` that the loop tells apart after a failed `poll`. -/
inductive PollError
  | overflow
  /-- `EAGAIN` or `EINTR`. -/
  | again
  | other
  deriving DecidableEq

/-- What `poll` returns. -/
inductive PollResult
  /-- A positive number, with these bits set. -/
  | ready (revents : Revents)
  /-- Zero. -/
  | timeout
  /-- A negative number; `revents` stays as it was. -/
  | failed (error : PollError)
  deriving DecidableEq

/-- `Commands::Run`, its standard input, and histories. -/
structure Reader where
  point : ReadPoint
  /-- `m_parent->m_run`. -/
  run : Bool
  /-- `polls[0].revents`. -/
  revents : Revents
  /-- What `std::cin` has read from descriptor 0 and not handed out. -/
  buffer : Text
  /-- `std::cin` has met the end of file. -/
  eof : Bool
  /-- What the peer has written and nobody has read. -/
  pipe : Text
  /-- The peer has closed its end. -/
  closed : Bool
  /-- Everything the peer has written. -/
  sent : Text
  /-- Everything read from descriptor 0. -/
  received : Text
  /-- The arguments of `process_command`. -/
  processed : List Text

/-- `Commands::Run` at its start. -/
def Reader.initial : Reader where
  point := .loop
  run := true
  revents := .none
  buffer := []
  eof := false
  pipe := []
  closed := false
  sent := []
  received := []
  processed := []

/-- What happens next. -/
inductive ReadAction
  /-- The peer writes. -/
  | send (bytes : Text)
  /-- The peer closes its end. -/
  | close
  /-- Another thread, or the last command, clears `m_run`. -/
  | terminate
  /-- The loop goes on. -/
  | proceed
  /-- `poll` returns. -/
  | poll (result : PollResult)
  /-- The `read` of descriptor 0 inside `std::getline` returns so many bytes, or none at
  end of file. -/
  | read (count : ℕ)
  deriving DecidableEq

variable {s s' : Reader} {action : ReadAction}

/-- `poll` reports input only if there are bytes or the end of file to read, and a
hang-up only if the peer has closed. -/
def PollResult.legal (s : Reader) : PollResult → Bool
  | .ready revents =>
      revents ≠ .none && (!revents.readable || s.pipe ≠ [] || s.closed) &&
        (!revents.hangUp || s.closed)
  | _ => true

/-- What `poll` leaves in `revents`. -/
def PollResult.store (revents : Revents) : PollResult → Revents
  | .ready reported => reported
  | .timeout => .none
  | .failed _ => revents

/-- Where the loop goes on after `poll`, once `revents` is stored. -/
def PollResult.branch (revents : Revents) (result : PollResult) : ReadPoint :=
  if revents.hangUp then .exit true
  else if revents.invalid then .exit false
  else if revents.readable then
    match result with
    | .ready _ => .getline []
    | .failed .overflow => .exit false
    | .failed _ | .timeout => .loop
  else .loop

/-- `getline` has returned a line, and `process_command` handles it. -/
def Reader.process (s : Reader) (cmd : Text) : Reader :=
  { s with point := .loop, processed := s.processed ++ [cmd] }

/-- `std::getline` on what the stream has buffered. -/
def Reader.extract (s : Reader) (cmd : Text) : Option Reader :=
  if s.eof then some (s.process [])
  else if s.buffer = [] then none
  else match cut '\n' s.buffer with
    | some (line, later) => some ({ s with buffer := later }.process (cmd ++ line))
    | none => some { s with buffer := [], point := .getline (cmd ++ s.buffer) }

/-- `std::getline` has to refill the buffer of the stream. -/
def Reader.refill (s : Reader) (cmd : Text) (count : ℕ) : Option Reader :=
  if s.eof ∨ s.buffer ≠ [] then none
  else if s.pipe = [] then
    if s.closed then some ({ s with eof := true }.process cmd) else none
  else if 1 ≤ count ∧ count ≤ s.pipe.length then
    some { s with
      buffer := s.pipe.take count
      pipe := s.pipe.drop count
      received := s.received ++ s.pipe.take count }
  else none

/-- The steps of the loop and of its surroundings. -/
def Reader.step (s : Reader) : ReadAction → Option Reader
  | .send bytes =>
      if s.closed then none
      else some { s with pipe := s.pipe ++ bytes, sent := s.sent ++ bytes }
  | .close => some { s with closed := true }
  | .terminate => some { s with run := false }
  | .proceed =>
      match s.point with
      | .loop => some { s with point := if s.run then .poll else .exit false }
      | .getline cmd => s.extract cmd
      | _ => none
  | .poll result =>
      if s.point = .poll ∧ result.legal s then
        some { s with
          revents := result.store s.revents
          point := result.branch (result.store s.revents) }
      else none
  | .read count =>
      match s.point with
      | .getline cmd => s.refill cmd count
      | _ => none

/-- `Commands::Run` as a transition system. -/
@[reducible]
def reader : System Reader ReadAction where
  IsStart s := s = .initial
  step := Reader.step

/-- The commands processed are the lines received: so far while `getline` is at work,
all of them when the loop is about to wait in `poll`, and all that were ever sent when
it has left because of a hang-up. -/
structure Delivered (s : Reader) : Prop where
  inOrder : s.processed <+: records '\n' s.received
  complete : s.point = .poll → '\n' ∉ s.buffer ∧ s.processed = records '\n' s.received
  hungUp : s.point = .exit true → s.processed = records '\n' s.sent

/-- Each `read` inside `getline` returns something, with at most one newline, and `poll`
does not report a hang-up while a complete line is waiting in the descriptor. -/
def ReadSafe (s : Reader) : ReadAction → Prop
  | .poll (.ready revents) => revents.hangUp = true → '\n' ∉ s.pipe
  | .read count => s.pipe ≠ [] ∧ (s.pipe.take count).count '\n' ≤ 1
  | _ => True

/-- What `getline` has extracted of a line. -/
def ReadPoint.extracted : ReadPoint → Text
  | .getline cmd => cmd
  | _ => []

/-- How many newlines may be waiting in the buffer of the stream. -/
def ReadPoint.allowance : ReadPoint → ℕ
  | .getline _ => 1
  | _ => 0

/-- The invariant of runs that meet the condition: what was read are the processed
lines, the part of a line that `getline` holds, and the buffer. -/
structure ReadLaw (s : Reader) : Prop where
  sent : s.sent = s.received ++ s.pipe
  good : s.eof = false
  received : s.received = written '\n' s.processed ++ s.point.extracted ++ s.buffer
  lines : ∀ line ∈ s.processed, '\n' ∉ line
  extracted : '\n' ∉ s.point.extracted
  buffer : s.buffer.count '\n' ≤ s.point.allowance
  hangUp : s.revents.hangUp = true → s.point = .exit true
  hungUp : s.point = .exit true → s.closed = true ∧ '\n' ∉ s.pipe

theorem readLaw_initial : ReadLaw .initial where
  sent := rfl
  good := rfl
  received := rfl
  lines line hmem := by simp [Reader.initial] at hmem
  extracted := List.not_mem_nil
  buffer := Nat.le_refl 0
  hangUp hset := by simp [Reader.initial, Revents.none] at hset
  hungUp hexit := by simp [Reader.initial] at hexit

/-- The loop itself neither reads nor processes anything. -/
theorem ReadLaw.move {point : ReadPoint} {revents : Revents} (hlaw : ReadLaw s)
    (hextracted : s.point.extracted = []) (hallowance : s.point.allowance = 0)
    (hpoint : point.extracted = []) (hset : revents.hangUp = true → point = .exit true)
    (hexit : point = .exit true → s.closed = true ∧ '\n' ∉ s.pipe) :
    ReadLaw { s with revents := revents, point := point } where
  sent := hlaw.sent
  good := hlaw.good
  received := by
    rw [hlaw.received, hextracted]
    simp [hpoint]
  lines := hlaw.lines
  extracted := by simp [hpoint]
  buffer := by
    have hnone := hlaw.buffer
    rw [hallowance] at hnone
    exact Nat.le_trans hnone (Nat.zero_le _)
  hangUp := hset
  hungUp := hexit

/-- `revents` has no hang-up while the loop runs. -/
theorem ReadLaw.not_hangUp (hlaw : ReadLaw s) (hpoint : s.point ≠ .exit true) :
    s.revents.hangUp = false :=
  Bool.eq_false_iff.mpr fun hset => hpoint (hlaw.hangUp hset)

/-- A complete line goes to `process_command`. -/
theorem ReadLaw.process {cmd line later : Text} (hlaw : ReadLaw s)
    (hpoint : s.point = .getline cmd) (hcut : cut '\n' s.buffer = some (line, later)) :
    ReadLaw ({ s with buffer := later }.process (cmd ++ line)) := by
  obtain ⟨hbuffer, hline⟩ := of_cut_eq_some hcut
  have hreceived := hlaw.received
  have hcmd := hlaw.extracted
  have hcount := hlaw.buffer
  rw [hpoint] at hreceived hcmd hcount
  have hquiet := hlaw.not_hangUp (by simp [hpoint])
  refine ⟨hlaw.sent, hlaw.good, ?_, ?_, List.not_mem_nil, ?_, ?_, nofun⟩
  · change s.received = written '\n' (s.processed ++ [cmd ++ line]) ++ [] ++ later
    rw [hreceived, hbuffer, written_append_singleton]
    simp [ReadPoint.extracted]
  · intro other hother
    rcases List.mem_append.mp hother with hold | hnew
    · exact hlaw.lines other hold
    · rw [List.mem_singleton.mp hnew, List.mem_append, not_or]
      exact ⟨hcmd, hline⟩
  · change later.count '\n' ≤ 0
    rw [hbuffer, List.count_append, List.count_cons_self] at hcount
    change _ ≤ 1 at hcount
    omega
  · simp [Reader.process, hquiet]

theorem ReadLaw.extract {cmd : Text} (hlaw : ReadLaw s) (hpoint : s.point = .getline cmd)
    (hstep : s.extract cmd = some s') : ReadLaw s' := by
  rw [Reader.extract, if_neg (by simp [hlaw.good])] at hstep
  split at hstep
  case isTrue => simp at hstep
  case isFalse =>
    split at hstep
    case h_1 line later hcut =>
      cases hstep
      exact hlaw.process hpoint hcut
    case h_2 hcut =>
      cases hstep
      have hreceived := hlaw.received
      have hcmd := hlaw.extracted
      rw [hpoint] at hreceived hcmd
      have hquiet := hlaw.not_hangUp (by simp [hpoint])
      refine ⟨hlaw.sent, hlaw.good, ?_, hlaw.lines, ?_, Nat.zero_le 1, ?_, nofun⟩
      · rw [hreceived]
        simp [ReadPoint.extracted]
      · rw [ReadPoint.extracted, List.mem_append, not_or]
        exact ⟨hcmd, cut_eq_none_iff.mp hcut⟩
      · simp [hquiet]

theorem ReadLaw.refill {cmd : Text} {count : ℕ} (hlaw : ReadLaw s)
    (hpoint : s.point = .getline cmd) (hok : ReadSafe s (.read count))
    (hstep : s.refill cmd count = some s') : ReadLaw s' := by
  rw [Reader.refill] at hstep
  split at hstep
  case isTrue => simp at hstep
  case isFalse hempty =>
    rw [if_neg hok.1] at hstep
    split at hstep
    case isTrue =>
      cases hstep
      have hbuffer : s.buffer = [] := by
        rw [not_or, not_not] at hempty
        exact hempty.2
      have hreceived := hlaw.received
      rw [hbuffer, List.append_nil] at hreceived
      refine ⟨?_, hlaw.good, ?_, hlaw.lines, hlaw.extracted, ?_, hlaw.hangUp, ?_⟩
      · rw [hlaw.sent, List.append_assoc, List.take_append_drop]
      · rw [hreceived]
      · change (s.pipe.take count).count '\n' ≤ s.point.allowance
        rw [hpoint]
        exact hok.2
      · simp [hpoint]
    case isFalse => simp at hstep

/-- `poll` sends the loop back, into `getline`, or out of it, and the latter because of
a hang-up only if it has just been reported. -/
theorem PollResult.branch_cases (revents : Revents) (result : PollResult) :
    (result.branch revents).extracted = [] ∧
      (result.branch revents = .exit true ↔ revents.hangUp = true) := by
  unfold PollResult.branch
  cases revents.hangUp with
  | true => simp [ReadPoint.extracted]
  | false =>
      cases revents.invalid with
      | true => simp [ReadPoint.extracted]
      | false =>
          cases revents.readable with
          | false => simp [ReadPoint.extracted]
          | true =>
              rcases result with reported | _ | error
              · simp [ReadPoint.extracted]
              · simp [ReadPoint.extracted]
              · cases error <;> simp [ReadPoint.extracted]

theorem readLaw_step (hlaw : ReadLaw s) (hok : ReadSafe s action)
    (hstep : s.step action = some s') : ReadLaw s' := by
  cases action with
  | send bytes =>
      simp only [Reader.step] at hstep
      split at hstep
      case isTrue => cases hstep
      case isFalse hopen =>
        cases hstep
        refine ⟨?_, hlaw.good, hlaw.received, hlaw.lines, hlaw.extracted, hlaw.buffer,
          hlaw.hangUp, fun hexit => absurd (hlaw.hungUp hexit).1 hopen⟩
        rw [hlaw.sent, List.append_assoc]
  | close =>
      cases hstep
      exact ⟨hlaw.sent, hlaw.good, hlaw.received, hlaw.lines, hlaw.extracted, hlaw.buffer,
        hlaw.hangUp, fun hexit => ⟨rfl, (hlaw.hungUp hexit).2⟩⟩
  | terminate =>
      cases hstep
      exact ⟨hlaw.sent, hlaw.good, hlaw.received, hlaw.lines, hlaw.extracted, hlaw.buffer,
        hlaw.hangUp, hlaw.hungUp⟩
  | proceed =>
      simp only [Reader.step] at hstep
      split at hstep
      case h_1 hpoint =>
        cases hstep
        have hquiet := hlaw.not_hangUp (by simp [hpoint])
        refine hlaw.move (by simp [hpoint, ReadPoint.extracted])
          (by simp [hpoint, ReadPoint.allowance]) ?_ (by simp [hquiet]) ?_
        · split <;> rfl
        · split <;> simp
      case h_2 cmd hpoint => exact hlaw.extract hpoint hstep
      case h_3 => cases hstep
  | poll result =>
      simp only [Reader.step] at hstep
      split at hstep
      case isFalse => cases hstep
      case isTrue hready =>
        cases hstep
        obtain ⟨hpoint, hlegal⟩ := hready
        obtain ⟨hextracted, hexit⟩ := PollResult.branch_cases (result.store s.revents) result
        refine hlaw.move (by simp [hpoint, ReadPoint.extracted])
          (by simp [hpoint, ReadPoint.allowance]) hextracted hexit.mpr fun hleft => ?_
        have hset := hexit.mp hleft
        cases result with
        | ready revents =>
            simp only [PollResult.store] at hset
            refine ⟨?_, hok hset⟩
            simpa [PollResult.legal, hset] using (Bool.and_eq_true_iff.mp hlegal).2
        | timeout => simp [PollResult.store, Revents.none] at hset
        | failed error =>
            have hquiet := hlaw.not_hangUp (by simp [hpoint])
            simp [PollResult.store, hquiet] at hset
  | read count =>
      simp only [Reader.step] at hstep
      split at hstep
      case h_1 cmd hpoint => exact hlaw.refill hpoint hok hstep
      case h_2 => cases hstep

theorem readLaw (hreach : reader.ReachableBy ReadSafe s) : ReadLaw s := by
  refine hreach.invariant ?_ fun state action next hprior hlaw hok hstep => ?_
  · rintro _ rfl
    exact readLaw_initial
  · exact readLaw_step hlaw hok hstep

/-- A run that meets the condition delivers the commands. -/
theorem delivered_of_readSafe (hreach : reader.ReachableBy ReadSafe s) : Delivered s := by
  have hlaw := readLaw hreach
  have hrecords : records '\n' s.received =
      s.processed ++ records '\n' (s.point.extracted ++ s.buffer) := by
    rw [hlaw.received, List.append_assoc, records_written_append hlaw.lines]
  refine ⟨?_, fun hpoll => ?_, fun hexit => ?_⟩
  · rw [hrecords]
    exact List.prefix_append _ _
  · have hbuffer := hlaw.buffer
    rw [hpoll] at hbuffer hrecords
    have hnone : '\n' ∉ s.buffer := List.count_eq_zero.mp (Nat.le_zero.mp hbuffer)
    have hextracted : ReadPoint.poll.extracted = [] := rfl
    refine ⟨hnone, ?_⟩
    rw [hrecords, hextracted, List.nil_append, records_eq_nil hnone, List.append_nil]
  · have hbuffer := hlaw.buffer
    have hreceived := hlaw.received
    rw [hexit] at hbuffer hreceived
    have hnone : '\n' ∉ s.buffer ++ s.pipe := by
      rw [List.mem_append, not_or]
      exact ⟨List.count_eq_zero.mp (Nat.le_zero.mp hbuffer), (hlaw.hungUp hexit).2⟩
    have hextracted : (ReadPoint.exit true).extracted = [] := rfl
    rw [hlaw.sent, hreceived, hextracted, List.append_nil, List.append_assoc,
      records_written_append hlaw.lines, records_eq_nil hnone, List.append_nil]

instance (s : Reader) : ∀ action, Decidable (ReadSafe s action)
  | .poll (.ready revents) =>
      inferInstanceAs (Decidable (revents.hangUp = true → '\n' ∉ s.pipe))
  | .read count =>
      inferInstanceAs (Decidable (s.pipe ≠ [] ∧ (s.pipe.take count).count '\n' ≤ 1))
  | .poll .timeout | .poll (.failed _) | .send _ | .close | .terminate | .proceed =>
      .isTrue trivial

/-- `poll` finds something to read. -/
def readable : PollResult := .ready ⟨true, false, false, false⟩

/-- `poll` finds that the peer has gone. -/
def hungUp : PollResult := .ready ⟨false, true, false, false⟩

/-- A command is read before the peer closes. -/
theorem delivered_at_hangUp :
    ∃ s, s.point = .exit true ∧ s.processed = [text "XON"] ∧ Delivered s := by
  have hrun : (reader.runBy ReadSafe .initial [.send (text "XON\n"), .proceed, .poll readable,
      .read 4, .proceed, .close, .proceed, .poll hungUp]).map
      (fun s => (s.point, s.processed)) = some (.exit true, [text "XON"]) := by
    decide
  obtain ⟨s, hreach, hvalue⟩ := System.exists_reachableBy_of_runBy (.start rfl) hrun
  simp only [Prod.mk.injEq] at hvalue
  exact ⟨s, hvalue.1, hvalue.2, delivered_of_readSafe hreach⟩

/-- Two commands arrive together: `getline` takes both from the descriptor, the loop
handles the first and waits in `poll` for the second. -/
theorem not_delivered : ∃ s, reader.Reachable s ∧ ¬ Delivered s := by
  have hrun : (reader.run .initial [.send (text "XON\nXOFF\n"), .proceed, .poll readable,
      .read 9, .proceed, .proceed]).map
      (fun s => (s.point, s.buffer)) = some (.poll, text "XOFF\n") := by
    decide
  obtain ⟨s, hreach, hvalue⟩ := System.exists_reachable_of_run (.start rfl) hrun
  simp only [Prod.mk.injEq] at hvalue
  refine ⟨s, hreach, fun hdelivered => ?_⟩
  have hnone := (hdelivered.complete hvalue.1).1
  rw [hvalue.2] at hnone
  exact hnone (by decide)

end HauppaugeUSB.Commands

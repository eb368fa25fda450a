/-
# The API version of a session

A session speaks an API version between 1 and `max_api_version`, and mythbackend may
ask for one by number. The number is whatever `std::stoul` reads in the text after
the colon, cut down to an `int`, and the branch takes it as it is: it answers with
OK and sets the version to a number that the recorder does not speak, or that has
lost its high bits, and a number that is too large for `unsigned long` ends the
process. The version stays in its range as long as only numbers in it are asked for.
-/

import HauppaugeUSB.Commands.Reply

namespace HauppaugeUSB.Commands

/-- A line that is processed, with the session it finds and what it reads of the recorder. -/
structure ProcessedLine where
  session : Session
  parent : Parent
  cmd : Text

/-- The request that the line is. -/
def ProcessedLine.request (line : ProcessedLine) : Request :=
  (parseLine line.session.apiVersion line.cmd).2

/-- The replies to the line. -/
def ProcessedLine.replies (line : ProcessedLine) : List (Text × Text) :=
  (exchange line.session line.parent line.cmd).1.replies

/-- The session after the line, unless an exception has ended the process. -/
def ProcessedLine.after (line : ProcessedLine) : Option Session :=
  (exchange line.session line.parent line.cmd).2

/-- The lines that are processed, up to an exception. -/
def processed : Session → List (Parent × Text) → List ProcessedLine
  | _, [] => []
  | session, (parent, cmd) :: later =>
      let line : ProcessedLine := ⟨session, parent, cmd⟩
      line ::
        match line.after with
        | some session' => processed session' later
        | none => []

variable {parent : Parent} {cmd serial data : Text} {request : Request}
  {session session' : Session} {lines : List (Parent × Text)} {line : ProcessedLine}

/-- A law of sessions that every processed line keeps holds before each of them. -/
theorem processed_invariant {P : Session → Prop} (hstart : P session)
    (hstep : ∀ line ∈ processed session lines, P line.session → ∀ session' ∈ line.after,
      P session') :
    ∀ line ∈ processed session lines, P line.session := by
  induction lines generalizing session with
  | nil => exact fun line hmem => nomatch hmem
  | cons first later ih =>
      obtain ⟨parent, cmd⟩ := first
      intro line hmem
      rw [processed] at hmem hstep
      rcases List.mem_cons.mp hmem with rfl | hlater
      · exact hstart
      · split at hlater
        case h_1 session' hafter =>
          have hkept := hstep _ List.mem_cons_self hstart session' hafter
          refine ih hkept (fun line hmem => hstep line (List.mem_cons_of_mem _ ?_)) line hlater
          rwa [hafter]
        case h_2 => cases hlater

/-- The versions that the recorder speaks. -/
def InRange (version : ℤ) : Prop := 1 ≤ version ∧ version ≤ maxApiVersion

instance (version : ℤ) : Decidable (InRange version) :=
  inferInstanceAs (Decidable (_ ∧ _))

/-- The number that decimal digits name, if there are any. -/
def namedNumber (digits : Text) : Option ℕ :=
  if digits = [] then none else some (digitsValue digits)

/-- The number that a text names, of any size, in the notation that `std::stoul` reads. -/
def requestedVersion (data : Text) : Option ℤ :=
  match data.dropWhile isSpace with
  | '-' :: rest => (namedNumber (leadingDigits rest)).map fun n : ℕ => -(n : ℤ)
  | '+' :: rest => (namedNumber (leadingDigits rest)).map fun n : ℕ => (n : ℤ)
  | rest => (namedNumber (leadingDigits rest)).map fun n : ℕ => (n : ℤ)

/-- The line is answered with ERR and leaves the version as it is. -/
def ProcessedLine.Refused (line : ProcessedLine) : Prop :=
  (∃ reply ∈ line.replies, startsWith reply.1 "ERR" = true) ∧
    ∃ session' ∈ line.after, session'.apiVersion = line.session.apiVersion

/-- The version is in range before and after the line, and a request for a version that
is not is refused. -/
structure ProcessedLine.KeepsRange (line : ProcessedLine) : Prop where
  before : InRange line.session.apiVersion
  after : ∀ session' ∈ line.after, InRange session'.apiVersion
  refused : ∀ data, line.request = .apiVersion data → ∀ version ∈ requestedVersion data,
    ¬ InRange version → line.Refused

/-- If the line asks for a version by number, it is one that the recorder speaks. -/
def ProcessedLine.AsksInRange (line : ProcessedLine) : Prop :=
  ∀ data, line.request = .apiVersion data → ∀ version ∈ requestedVersion data, InRange version

/-- The session's API version once a request has been handled. -/
def versionAfter (version : ℤ) (parent : Parent) : Request → ℤ
  | .apiVersionQuery => if parent.fatal then version else maxApiVersion
  | request => replyVersion version request

theorem handle_version {returned : Bool}
    (hrun : (handle parent cmd serial request).run session = .ok returned session') :
    session'.apiVersion = versionAfter session.apiVersion parent request := by
  cases request with
  | apiVersionQuery | versionQuery =>
      cases hfatal : parent.fatal <;> simp only [handle, hfatal] at hrun <;> cases hrun <;>
        simp [versionAfter, replyVersion, hfatal]
  | isOpen =>
      cases hfatal : parent.fatal <;> cases hready : parent.ready <;>
        simp only [handle, hfatal, hready] at hrun <;> cases hrun <;> rfl
  | hasLock | signalStrengthPercent =>
      cases hready : parent.ready <;> simp only [handle, hready] at hrun <;> cases hrun <;> rfl
  | startStreaming =>
      rcases hstart : parent.startEncoding with ⟨started, resultmsg⟩
      cases started <;> simp only [handle, hstart] at hrun <;> cases hrun <;> rfl
  | stopStreaming =>
      rcases hstop : parent.stopEncoding with ⟨stopped, resultmsg⟩
      cases stopped <;> simp only [handle, hstop] at hrun <;> cases hrun <;> rfl
  | apiVersion data | blockSize data =>
      cases hstoul : stoul data with
      | ok n =>
          simp only [handle, convert, hstoul] at hrun
          cases hrun
          simp [versionAfter, replyVersion, hstoul]
      | error exception =>
          simp only [handle, convert, hstoul] at hrun
          cases hrun
  | _ =>
      cases hrun
      rfl

theorem after_version (hafter : line.after = some session') :
    session'.apiVersion = versionAfter line.session.apiVersion line.parent line.request := by
  rw [ProcessedLine.after, exchange, processCommand_run] at hafter
  split at hafter <;> cases hafter
  case h_1 returned hrun =>
    have hversion := handle_version hrun
    exact hversion

/-- The process ends with a line that `std::stoul` throws on. -/
theorem after_eq_none (hthrows : line.request.throws = true) : line.after = none := by
  obtain ⟨exception, session', hrun, -⟩ := handle_throws line.parent line.cmd
    (parseLine line.session.apiVersion line.cmd).1 { line.session with trace := [] } hthrows
  rw [ProcessedLine.after, exchange, processCommand_run]
  simp only [ProcessedLine.request] at hrun
  rw [hrun]

theorem toInt_of_lt {n : ℕ} (hsmall : n < 2 ^ 31) : toInt n = n := by
  have hlow : -((2 ^ 32 : ℕ) / 2 : ℤ) ≤ n := by omega
  have hhigh : (n : ℤ) < ((2 ^ 32 : ℕ) + 1) / 2 := by omega
  exact Int.bmod_eq_of_le hlow hhigh

theorem stoulMagnitude_of_le {digits : Text} {n : ℕ} (hnamed : namedNumber digits = some n)
    (hsmall : n ≤ maxULong) : stoulMagnitude digits = .ok n := by
  rw [namedNumber] at hnamed
  split at hnamed
  case isTrue => cases hnamed
  case isFalse hne =>
    rw [Option.some.injEq] at hnamed
    subst hnamed
    rw [stoulMagnitude, if_neg hne, if_neg (Nat.not_lt.mpr hsmall)]

theorem stoulMagnitude_of_none {digits : Text} (hnamed : namedNumber digits = none) :
    stoulMagnitude digits = .error .invalidArgument := by
  rw [namedNumber] at hnamed
  split at hnamed
  case isTrue hnil => rw [stoulMagnitude, if_pos hnil]
  case isFalse => cases hnamed

/-- A number in the range is read as it is written. -/
theorem stoul_of_inRange {version : ℤ} (hversion : requestedVersion data = some version)
    (hrange : InRange version) : ∃ n, stoul data = .ok n ∧ toInt n = version := by
  obtain ⟨hlow, hhigh⟩ := hrange
  simp only [maxApiVersion] at hhigh
  have hread : ∀ digits : Text, (namedNumber digits).map (fun n : ℕ => (n : ℤ)) = some version →
      ∃ n, stoulMagnitude digits = .ok n ∧ toInt n = version := by
    intro digits hdigits
    obtain ⟨n, hnamed, rfl⟩ := Option.map_eq_some_iff.mp hdigits
    have hfits : n ≤ maxULong := by
      simp only [maxULong]
      omega
    exact ⟨n, stoulMagnitude_of_le hnamed hfits, toInt_of_lt (by omega)⟩
  rw [requestedVersion] at hversion
  split at hversion
  case h_1 rest htext =>
    obtain ⟨n, -, hneg⟩ := Option.map_eq_some_iff.mp hversion
    omega
  case h_2 rest htext =>
    rw [stoul, htext]
    exact hread _ hversion
  case h_3 hminus hplus =>
    rw [stoul]
    split
    case h_1 rest htext => exact absurd htext (hminus rest)
    case h_2 rest htext => exact absurd htext (hplus rest)
    case h_3 => exact hread _ hversion

/-- A text that names no number is not read. -/
theorem stoulThrows_of_none (hversion : requestedVersion data = none) :
    stoulThrows data = true := by
  have hfails : ∀ digits : Text, namedNumber digits = none →
      (stoulMagnitude digits).isOk = false := by
    intro digits hnamed
    rw [stoulMagnitude_of_none hnamed]
    rfl
  rw [requestedVersion] at hversion
  split at hversion
  case h_1 rest htext =>
    rw [stoulThrows, stoul, htext]
    have hnone := stoulMagnitude_of_none (Option.map_eq_none_iff.mp hversion)
    simp [hnone, Except.map, Except.isOk, Except.toBool]
  case h_2 rest htext =>
    rw [stoulThrows, stoul, htext]
    simp [hfails _ (Option.map_eq_none_iff.mp hversion)]
  case h_3 hminus hplus =>
    rw [stoulThrows, stoul]
    split
    case h_1 rest htext => exact absurd htext (hminus rest)
    case h_2 rest htext => exact absurd htext (hplus rest)
    case h_3 => simp [hfails _ (Option.map_eq_none_iff.mp hversion)]

theorem initial_inRange : InRange Session.initial.apiVersion := by decide

/-- A line that asks for no other version keeps the session in range. -/
theorem inRange_after (hbefore : InRange line.session.apiVersion) (hasks : line.AsksInRange)
    (hafter : line.after = some session') : InRange session'.apiVersion := by
  rw [after_version hafter]
  cases hrequest : line.request with
  | apiVersionQuery =>
      simp only [versionAfter]
      split
      · exact hbefore
      · decide
  | apiVersion data =>
      cases hversion : requestedVersion data with
      | some version =>
          have hrange := hasks data hrequest version hversion
          obtain ⟨n, hstoul, hn⟩ := stoul_of_inRange hversion hrange
          simp only [versionAfter, replyVersion, hstoul, hn]
          exact hrange
      | none =>
          have hthrows : line.request.throws = true := by
            rw [hrequest, Request.throws]
            exact stoulThrows_of_none hversion
          rw [after_eq_none hthrows] at hafter
          cases hafter
  | _ => exact hbefore

/-- A number that can be read is answered with OK. -/
theorem handle_apiVersion (parent : Parent) (cmd serial : Text) (session : Session) {n : ℕ}
    (hstoul : stoul data = .ok n) :
    ∃ session', (handle parent cmd serial (.apiVersion data)).run session = .ok true session' ∧
      ∃ written, replies session'.trace =
        replies session.trace ++ [(text "OK:API Version " ++ decimal (toInt n), written)] := by
  simp only [handle, convert, hstoul]
  exact ⟨_, rfl, _, by simp [replies]; rfl⟩

/-- A request for a version by number is answered with OK or not at all. -/
theorem not_refused (hrequest : line.request = .apiVersion data) : ¬ line.Refused := by
  rintro ⟨⟨reply, hreply, herr⟩, session', hafter, -⟩
  cases hstoul : stoul data with
  | error exception =>
      have hthrows : line.request.throws = true := by
        simp [hrequest, Request.throws, stoulThrows, hstoul, Except.isOk, Except.toBool]
      rw [after_eq_none hthrows] at hafter
      cases hafter
  | ok n =>
      obtain ⟨session', hrun, written, hreplies⟩ := handle_apiVersion line.parent line.cmd
        (parseLine line.session.apiVersion line.cmd).1 { line.session with trace := [] } hstoul
      rw [ProcessedLine.request] at hrequest
      rw [ProcessedLine.replies, exchange, processCommand_run] at hreply
      simp only [hrequest] at hreply
      rw [hrun] at hreply
      have hstatus : reply.1 = text "OK:API Version " ++ decimal (toInt n) := by
        simp only [hreplies] at hreply
        simpa [replies] using congrArg Prod.fst (List.mem_singleton.mp hreply)
      rw [hstatus] at herr
      simp [startsWith, text] at herr

theorem asksInRange_of_keepsRange (hkeeps : line.KeepsRange) : line.AsksInRange := by
  intro data hrequest version hversion
  refine Decidable.of_not_not fun hout => ?_
  exact not_refused hrequest (hkeeps.refused data hrequest version hversion hout)

/-- The version stays in range and other versions are refused if no line asks for one. -/
theorem keepsRange_iff (lines : List (Parent × Text)) :
    (∀ line ∈ processed .initial lines, line.KeepsRange) ↔
      ∀ line ∈ processed .initial lines, line.AsksInRange := by
  refine ⟨fun hkeeps line hmem => asksInRange_of_keepsRange (hkeeps line hmem), fun hasks => ?_⟩
  have hbefore := processed_invariant (P := fun session => InRange session.apiVersion)
    initial_inRange fun line hmem hrange session' hafter =>
      inRange_after hrange (hasks line hmem) hafter
  intro line hmem
  constructor
  case before => exact hbefore line hmem
  case after =>
    intro session' hafter
    exact inRange_after (hbefore line hmem) (hasks line hmem) hafter
  case refused =>
    intro data hrequest version hversion hout
    exact absurd (hasks line hmem data hrequest version hversion) hout

theorem not_keepsRange :
    ¬ ∀ line ∈ processed .initial [(.idle, text "APIVersion:7")], line.KeepsRange := by
  intro hkeeps
  have hkept := hkeeps ⟨.initial, .idle, text "APIVersion:7"⟩ List.mem_cons_self
  have hafter : (ProcessedLine.after ⟨.initial, .idle, text "APIVersion:7"⟩).map
      Session.apiVersion = some 7 := by
    decide +kernel
  obtain ⟨session', hsession, hversion⟩ := Option.map_eq_some_iff.mp hafter
  have hrange := hkept.after session' hsession
  rw [hversion] at hrange
  exact absurd hrange (by decide)

end HauppaugeUSB.Commands

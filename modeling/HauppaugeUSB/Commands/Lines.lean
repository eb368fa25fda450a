/-
# Replies of one line

mythbackend reads replies line by line, so that a reply must be one line: a single newline,
at its end. The statuses quote the line that is answered and texts of the recorder. If
these have no newline, no status has, and the reply is one line.
-/

import HauppaugeUSB.Commands.Reply

namespace HauppaugeUSB.Commands

/-- A text without line ends. -/
def OneLine (line : Text) : Prop := '\n' ∉ line

instance (line : Text) : Decidable (OneLine line) := inferInstanceAs (Decidable (¬ _))

/-- A single newline, at the end. -/
def SingleLine (written : Text) : Prop := ∃ line, written = line ++ ['\n'] ∧ OneLine line

variable {line later cmd serial status : Text} {version : ℤ} {request : Request}

theorem oneLine_append : OneLine (line ++ later) ↔ OneLine line ∧ OneLine later := by
  simp [OneLine]

theorem oneLine_of_subset (hlater : OneLine later) (hsubset : line ⊆ later) : OneLine line :=
  fun hnewline => hlater (hsubset hnewline)

/-- A number is written without line ends. -/
theorem oneLine_decimal (n : ℤ) : OneLine (decimal n) := by
  have hdigits (m : ℕ) : '\n' ∉ Nat.toDigits 10 m := by
    intro hnewline
    exact absurd (Nat.isDigit_of_mem_toDigits (by decide) (by decide) hnewline) (by decide)
  cases n with
  | ofNat m =>
      show '\n' ∉ (Nat.repr m).toList
      simp [hdigits]
  | negSucc m =>
      show '\n' ∉ ("-" ++ Nat.repr (m + 1)).toList
      simp [hdigits]

theorem singleLine_statusLine (hserial : OneLine serial) (hstatus : OneLine status) :
    SingleLine (statusLine version serial status) := by
  unfold statusLine
  split
  · refine ⟨serial ++ text ":" ++ status, rfl, ?_⟩
    simp only [oneLine_append]
    exact ⟨⟨hserial, by decide⟩, hstatus⟩
  · exact ⟨status, rfl, hstatus⟩

/-- The part of the line that the answer to a request quotes besides the line itself. -/
def Request.quotes : Request → Text
  | .unrecognized command => command
  | _ => []

/-- The answer to a request may be `m_fatal_msg`. -/
def Request.quotesFatal : Request → Bool
  | .apiVersionQuery | .versionQuery | .isOpen => true
  | _ => false

theorem subset_intercalate {separator : Text} {parts : List Text} (hline : line ∈ parts) :
    line ⊆ separator.intercalate parts := by
  induction parts with
  | nil => simp at hline
  | cons first rest ih =>
      cases rest with
      | nil =>
          obtain rfl := List.mem_singleton.mp hline
          rw [List.intercalate_singleton]
          exact List.Subset.refl line
      | cons second rest =>
          rw [List.intercalate_cons_cons]
          rcases List.mem_cons.mp hline with rfl | hrest
          · intro c hc
            simp [hc]
          · exact List.Subset.trans (ih hrest) (List.subset_append_right _ _)

/-- The parts of a split line are parts of it. -/
theorem oneLine_of_mem_splitOn (hcmd : OneLine cmd) (hline : line ∈ cmd.splitOn ':') :
    OneLine line := by
  have hparts : line ⊆ [':'].intercalate (cmd.splitOn ':') := subset_intercalate hline
  rw [List.intercalate_splitOn] at hparts
  exact oneLine_of_subset hcmd hparts

theorem quotes_classify (command : Text) (data : List Text) :
    (classify command data).quotes = [] ∨ (classify command data).quotes = command := by
  fun_cases classify command data <;> simp [Request.quotes]

/-- The serial and what is quoted of a line have no line ends. -/
theorem oneLine_parseLine (version : ℤ) (hcmd : OneLine cmd) :
    OneLine (parseLine version cmd).1 ∧ OneLine (parseLine version cmd).2.quotes := by
  have hempty : OneLine [] := List.not_mem_nil
  have hclassify (command : Text) (data : List Text) (hcommand : OneLine command) :
      OneLine (classify command data).quotes := by
    rcases quotes_classify command data with h | h <;> rw [h]
    · exact hempty
    · exact hcommand
  have hpart (line : Text) (hline : line ∈ cmd.splitOn ':') : OneLine line :=
    oneLine_of_mem_splitOn hcmd hline
  unfold parseLine
  split
  · exact ⟨hempty, hempty⟩
  rcases htokens : cmd.splitOn ':' with _ | ⟨first, _ | ⟨second, rest⟩⟩
  · exact absurd htokens (List.splitOn_ne_nil ':' cmd)
  · rw [htokens] at hpart
    split
    · exact ⟨(by decide : OneLine (text "-1")), hempty⟩
    · exact ⟨hempty, hclassify first [] (hpart first (by simp))⟩
  · rw [htokens] at hpart
    split
    · exact ⟨hpart first (by simp), hclassify second rest (hpart second (by simp))⟩
    · exact ⟨hempty, hclassify first (second :: rest) (hpart first (by simp))⟩

/-- What was answered so far are lines. -/
def Session.Tidy (session : Session) : Prop :=
  ∀ reply ∈ replies session.trace, SingleLine reply.2

/-- A part of the handler answers with lines, whether or not it throws. -/
def KeepsTidy {Value : Type} (handler : Handler Value) : Prop :=
  ∀ session : Session, session.Tidy →
    match handler.run session with
    | .ok _ later => later.Tidy
    | .error _ later => later.Tidy

section Rules

variable {Value Value' : Type} {handler : Handler Value} {next : Value → Handler Value'}

theorem KeepsTidy.pure {value : Value} : KeepsTidy (pure value : Handler Value) :=
  fun _ hsession => hsession

theorem KeepsTidy.bind (hhandler : KeepsTidy handler) (hnext : ∀ value, KeepsTidy (next value)) :
    KeepsTidy (handler >>= next) := by
  intro session hsession
  have hfirst := hhandler session hsession
  rw [EStateM.run_bind]
  cases hrun : handler.run session with
  | ok value later =>
      rw [hrun] at hfirst
      exact hnext value later hfirst
  | error exception later =>
      rw [hrun] at hfirst
      exact hfirst

theorem KeepsTidy.ite {condition : Prop} [Decidable condition] {other : Handler Value}
    (htrue : condition → KeepsTidy handler) (hfalse : ¬ condition → KeepsTidy other) :
    KeepsTidy (if condition then handler else other) := by
  split
  case isTrue h => exact htrue h
  case isFalse h => exact hfalse h

/-- Events other than replies are no answers. -/
theorem keepsTidy_record {event : Event} (hevent : replies [event] = []) :
    KeepsTidy (record event) := by
  intro session hsession reply hreply
  have hsame : replies (session.trace ++ [event]) = replies session.trace := by
    simp only [replies, List.filterMap_append] at hevent ⊢
    rw [hevent, List.append_nil]
  exact hsession reply (hsame ▸ hreply)

theorem keepsTidy_setApiVersion : KeepsTidy (setApiVersion version) :=
  fun _ hsession => hsession

theorem keepsTidy_convert {data : Text} : KeepsTidy (convert data) := by
  intro session hsession
  unfold convert
  cases stoul data with
  | ok n => exact hsession
  | error exception => exact hsession

theorem keepsTidy_sendStatus (hserial : OneLine serial) (hstatus : OneLine status) :
    KeepsTidy (sendStatus serial status) := by
  intro session hsession reply hreply
  have hreplies : replies (session.trace ++ [.reply status
      (statusLine session.apiVersion serial status)]) = replies session.trace ++
        [(status, statusLine session.apiVersion serial status)] := by
    simp [replies]
  have hmem : reply ∈ replies session.trace ++
      [(status, statusLine session.apiVersion serial status)] := hreplies ▸ hreply
  rcases List.mem_append.mp hmem with hold | hnew
  · exact hsession reply hold
  · rw [List.mem_singleton.mp hnew]
    exact singleLine_statusLine hserial hstatus

end Rules

/-- What an answer may quote of the recorder has no line ends. -/
structure Parent.QuotesLines (parent : Parent) (request : Request) : Prop where
  desc : OneLine parent.desc
  version : OneLine parent.version
  fatalMsg : request.quotesFatal = true → OneLine parent.fatalMsg
  startEncoding : OneLine parent.startEncoding.2
  stopEncoding : OneLine parent.stopEncoding.2

/-- A request that quotes lines is answered with one. -/
theorem keepsTidy_handle {parent : Parent} (hcmd : OneLine cmd) (hserial : OneLine serial)
    (hquotes : OneLine request.quotes) (hparent : parent.QuotesLines request) :
    KeepsTidy (handle parent cmd serial request) := by
  have hempty : OneLine [] := List.not_mem_nil
  have herror {message : Text} (hmessage : OneLine message) : OneLine (text "ERR:" ++ message) :=
    oneLine_append.mpr ⟨by decide, hmessage⟩
  have hok {message : Text} (hmessage : OneLine message) : OneLine (text "OK:" ++ message) :=
    oneLine_append.mpr ⟨by decide, hmessage⟩
  have hmalformed {form : Text} (hform : OneLine form) :
      OneLine (text "ERR:Malformed message. Expecting " ++ form ++ cmd ++ text "\"") := by
    simp only [oneLine_append]
    exact ⟨⟨⟨by decide, hform⟩, hcmd⟩, by decide⟩
  have hsays {status : Text} (hstatus : OneLine status) :
      KeepsTidy (sendStatus serial status >>= fun _ => pure true) :=
    (keepsTidy_sendStatus hserial hstatus).bind fun _ => .pure
  cases request with
  | apiVersionQuery =>
      refine (keepsTidy_record rfl).bind fun _ => .ite (fun _ => ?_) fun _ => ?_
      · exact (keepsTidy_sendStatus hempty (herror (hparent.fatalMsg rfl))).bind fun _ => .pure
      · exact (keepsTidy_sendStatus hempty (hok (oneLine_decimal _))).bind fun _ =>
          keepsTidy_setApiVersion.bind fun _ => .pure
  | missingSerial =>
      exact (keepsTidy_sendStatus (by decide) (hmalformed (by decide))).bind fun _ => .pure
  | versionQuery =>
      refine (keepsTidy_record rfl).bind fun _ => .ite (fun _ => ?_) fun _ => ?_
      · exact hsays (herror (hparent.fatalMsg rfl))
      · exact hsays (hok hparent.version)
  | description => exact hsays (hok hparent.desc)
  | hasLock | signalStrengthPercent =>
      exact .ite (fun _ => hsays (by decide)) fun _ => hsays (by decide)
  | lockTimeout | xon | xoff | closeRecorder =>
      exact (keepsTidy_sendStatus hserial (by decide)).bind fun _ =>
        (keepsTidy_record rfl).bind fun _ => .pure
  | hasTuner | hasPictureAttributes | sendBytes | flowControl | tuneChannel =>
      exact hsays (by decide)
  | isOpen =>
      refine (keepsTidy_record rfl).bind fun _ => .ite (fun _ => ?_) fun _ => .ite (fun _ => ?_)
        fun _ => ?_
      · exact hsays (herror (hparent.fatalMsg rfl))
      · exact hsays (by decide)
      · exact hsays (by decide)
  | startStreaming =>
      refine (keepsTidy_record rfl).bind fun _ => ?_
      exact .ite (fun _ => hsays (by decide)) fun _ => hsays (herror hparent.startEncoding)
  | stopStreaming =>
      refine (keepsTidy_record rfl).bind fun _ => ?_
      exact .ite (fun _ => hsays (by decide)) fun _ => hsays (herror hparent.stopEncoding)
  | missingData => exact hsays (hmalformed (by decide))
  | apiVersion data =>
      refine (keepsTidy_record rfl).bind fun _ => keepsTidy_convert.bind fun _ =>
        keepsTidy_setApiVersion.bind fun _ => hsays ?_
      exact oneLine_append.mpr ⟨by decide, oneLine_decimal _⟩
  | blockSize data =>
      exact keepsTidy_convert.bind fun _ => (keepsTidy_record rfl).bind fun _ => hsays (by decide)
  | unrecognized command =>
      refine hsays ?_
      simp only [oneLine_append]
      exact ⟨⟨by decide, hquotes⟩, by decide⟩

end HauppaugeUSB.Commands

/-
# The text of a fatal error

`m_fatal_msg` is quoted in replies to later requests, and the text that `OpenDev` passes to
`Fatal` may have several lines. It is recorded by the thread that handles the requests,
which clears `m_run` on the way and then leaves its loop. Every other text that is recorded
has one line, so that where a request is answered the text has one.
-/

import HauppaugeUSB.Commands.Lines
import HauppaugeUSB.MythTV.Effects

namespace HauppaugeUSB.MythTV

open HauppaugeUSB.Concurrency HauppaugeUSB.Commands

variable {tid : Tid} {frame : Frame} {choice : Choice} {s s' : Shared} {frames rest : List Frame}
  {cfg : Recorder} {msg : String}

/-- The text that a point of `Fatal` has yet to record. -/
def Frame.quotes : Frame → Option String
  | .fatal (.lock msg) | .fatal (.test msg) => some msg
  | _ => none

/-- The texts that a stack has yet to record. -/
def quoted (stack : List Frame) : List String := stack.filterMap Frame.quotes

/-- A stack is inside `OpenDev`. -/
def Opening (stack : List Frame) : Prop := ∃ point, Frame.openDev point ∈ stack

/-- The frames of `Commands` when its loop ends and nothing will be answered. -/
def Leaving (stack : List Frame) : Prop :=
  Opening stack ∨ stack = [.command .loop] ∨ stack = [.command .exit] ∨ stack = []

/-- What is known of the texts: only inside `OpenDev` is one with several lines about to be
recorded, and once it is, `Commands` leaves. -/
structure TextLaw (cfg : Recorder) : Prop where
  quoted : ∀ tid, ∀ msg ∈ quoted (cfg.stack tid), OneLine msg.toList ∨ Opening (cfg.stack tid)
  recorded : OneLine cfg.shared.fatalMsg.toList ∨
    cfg.shared.fatal = true ∧
      (cfg.shared.run = false ∧ Leaving (cfg.stack .commands) ∨
        cfg.top .commands = some .terminate ∧ Opening (cfg.stack .commands))

/-- What a step does to `m_run`, `m_fatal` and `m_fatal_msg`. -/
structure VerdictStep (frame : Frame) (s s' : Shared) (frames : List Frame) : Prop where
  run : s.run = false → s'.run = false
  terminates : frame = .terminate → s'.run = false
  fatal : s'.fatal = s.fatal ∧ s'.fatalMsg = s.fatalMsg ∨
    ∃ msg, frame = .fatal (.test msg) ∧ s.fatal = false ∧ s'.fatal = true ∧ s'.fatalMsg = msg ∧
      frames = [.terminate, .fatal .unlock]

/-- Most functions leave them alone. -/
theorem VerdictStep.of_same (hframe : frame ≠ .terminate) (hrun : s'.run = s.run)
    (hfatal : s'.fatal = s.fatal) (hmsg : s'.fatalMsg = s.fatalMsg) :
    VerdictStep frame s s' frames :=
  ⟨fun h => hrun.trans h, fun h => absurd h hframe, .inl ⟨hfatal, hmsg⟩⟩

theorem verdictStep_fatal {point : FatalPoint} (hstep : fatalStep tid s point = some (s', frames)) :
    VerdictStep (.fatal point) s s' frames := by
  cases point with
  | lock msg =>
      simp only [fatalStep] at hstep
      split at hstep <;> cases hstep
      exact .of_same (by simp) rfl rfl rfl
  | test msg =>
      simp only [fatalStep] at hstep
      split at hstep
      case isTrue =>
        cases hstep
        exact .of_same (by simp) rfl rfl rfl
      case isFalse hfatal =>
        cases hstep
        exact ⟨id, by simp, .inr ⟨msg, rfl, by simpa using hfatal, rfl, rfl, rfl⟩⟩
  | unlock =>
      cases hstep
      exact .of_same (by simp) rfl rfl rfl

theorem verdictStep_advance (hstep : advance tid frame choice s = some (s', frames)) :
    VerdictStep frame s s' frames := by
  cases frame with
  | fatal point => exact verdictStep_fatal hstep
  | terminate =>
      cases hstep
      exact ⟨fun _ => rfl, fun _ => rfl, .inl ⟨rfl, rfl⟩⟩
  | stop point | start point | openDev point | wait point | dtor point | command point
  | buffer point | fill point =>
      cases point <;>
        simp only [advance, stopStep, startStep, openStep, waitStep, dtorStep, commandStep,
          bufferStep, fillStep] at hstep <;>
        (try split at hstep) <;> (try split at hstep) <;> cases hstep <;>
        exact .of_same (by simp) rfl rfl rfl
  | driver =>
      simp only [advance, driverStep] at hstep
      split at hstep <;> cases hstep <;> exact .of_same (by simp) rfl rfl rfl

theorem verdictStep (hexec : exec tid frame choice s = some (s', frames)) :
    VerdictStep frame s s' frames := by
  rcases exec_eq_some_iff.mp hexec with ⟨-, hhardware, -, -, rfl, -⟩ | ⟨-, hstep⟩
  · refine .of_same ?_ rfl rfl rfl
    rintro rfl
    cases hhardware
  · exact verdictStep_advance hstep

/-- A thread in `OpenDev` stays there or returns. -/
theorem opening_or_nil {point : OpenPoint}
    (hexec : exec tid (.openDev point) choice s = some (s', frames)) :
    Opening frames ∨ frames = [] := by
  rcases exec_eq_some_iff.mp hexec with ⟨-, -, -, -, -, rfl⟩ | ⟨-, hstep⟩
  · exact .inl ⟨point, by simp⟩
  · cases point <;> simp only [advance, openStep] at hstep <;> (try split at hstep) <;>
      (try split at hstep) <;> cases hstep <;> simp [Opening]

/-- `Fatal` goes on with the text it was called with. -/
theorem quotes_of_test (hexec : exec tid frame choice s = some (s', frames))
    (hmem : .fatal (.test msg) ∈ frames) : frame.quotes = some msg := by
  have hroutine : frame.routine = .fatal :=
    (((exec_shape hexec).routine _ hmem).resolve_left (by simp [Frame.isEntry])).symm
  cases frame with
  | fatal point =>
      have hstep := advance_of_exec rfl hexec
      cases point with
      | lock text =>
          simp only [advance, fatalStep] at hstep
          split at hstep <;> cases hstep
          cases List.mem_singleton.mp hmem
          rfl
      | test text =>
          simp only [advance, fatalStep] at hstep
          split at hstep <;> cases hstep <;> simp at hmem
      | unlock =>
          cases hstep
          simp at hmem
  | _ => cases hroutine

/-- `Fatal` is called with a text of the program's own, or from `OpenDev`. -/
theorem oneLine_of_lock (hexec : exec tid frame choice s = some (s', frames))
    (hmem : .fatal (.lock msg) ∈ frames) : OneLine msg.toList ∨ Opening frames := by
  rcases exec_eq_some_iff.mp hexec with ⟨-, hhardware, -, -, -, rfl⟩ | ⟨hchoice, hstep⟩
  · rcases List.mem_cons.mp hmem with hnew | hsame
    · cases hnew
      exact .inl (by decide)
    · cases List.mem_singleton.mp hsame
      cases hhardware
  have henters : enters frame (.fatal (.lock msg)) = true :=
    ((exec_shape hexec).entered _ hmem rfl).resolve_right fun husb => hchoice husb.1
  cases frame with
  | openDev point =>
      refine .inr ((opening_or_nil hexec).resolve_right ?_)
      rintro rfl
      cases hmem
  | wait point =>
      cases point with
      | heart now =>
          simp only [advance, waitStep] at hstep
          split at hstep <;> cases hstep <;> simp at hmem
          exact .inl (hmem ▸ by decide)
      | _ => cases henters
  | command point =>
      cases point with
      | poll =>
          simp only [advance, commandStep] at hstep
          split at hstep
          case h_3 =>
            cases hstep
            simp only [List.mem_cons, Frame.fatal.injEq, FatalPoint.lock.injEq, List.not_mem_nil,
              or_false, reduceCtorEq] at hmem
            exact .inl (hmem ▸ by decide)
          case h_4 request =>
            split at hstep <;> cases hstep
            rcases requestFrames_eq request with h | h | h | ⟨on, h⟩ | h | h | h <;>
              simp [h] at hmem
          all_goals cases hstep
          all_goals simp at hmem
      | _ => cases henters
  | fatal point | stop point | start point | dtor point | buffer point | fill point =>
      cases point <;> cases henters
  | terminate | driver => cases henters

/-- A text that is about to be recorded is one of the program's own or comes from `OpenDev`,
unless it was there before. -/
theorem of_mem_quoted (hexec : exec tid frame choice s = some (s', frames))
    (hmsg : msg ∈ quoted frames) :
    OneLine msg.toList ∨ frame.quotes = some msg ∨ Opening frames := by
  obtain ⟨new, hnew, hquotes⟩ := List.mem_filterMap.mp hmsg
  cases new with
  | fatal point =>
      cases point with
      | lock text =>
          cases hquotes
          exact (oneLine_of_lock hexec hnew).imp_right .inr
      | test text =>
          cases hquotes
          exact .inr (.inl (quotes_of_test hexec hnew))
      | unlock => cases hquotes
  | _ => cases hquotes

theorem quoted_append {stack later : List Frame} :
    quoted (stack ++ later) = quoted stack ++ quoted later :=
  List.filterMap_append

theorem Opening.append_left {stack : List Frame} (hopening : Opening stack) (new : List Frame) :
    Opening (new ++ stack) := by
  obtain ⟨point, hpoint⟩ := hopening
  exact ⟨point, List.mem_append_right _ hpoint⟩

theorem Opening.append_right {stack : List Frame} (hopening : Opening stack) (old : List Frame) :
    Opening (stack ++ old) := by
  obtain ⟨point, hpoint⟩ := hopening
  exact ⟨point, List.mem_append_left _ hpoint⟩

/-- Under another function `OpenDev` is suspended. -/
theorem Opening.of_cons (hopening : Opening (frame :: rest)) (hframe : frame.routine ≠ .openDev) :
    Opening rest := by
  obtain ⟨point, hpoint⟩ := hopening
  rcases List.mem_cons.mp hpoint with rfl | hrest
  · exact absurd rfl hframe
  · exact ⟨point, hrest⟩

/-- `OpenDev` returns to the loop. -/
theorem insideOpenDev_step (hshape : WellShaped cfg) (hstack : cfg.stack tid = frame :: rest)
    (hexec : exec tid frame choice s = some (s', frames)) (hopening : Opening (frame :: rest)) :
    Opening (frames ++ rest) ∨ frames ++ rest = [.command .loop] := by
  by_cases hframe : frame.routine = .openDev
  · obtain ⟨point, rfl⟩ : ∃ point, frame = .openDev point := by
      cases frame <;> simp_all [Frame.routine]
    rcases opening_or_nil hexec with hstays | rfl
    · exact .inl (hstays.append_right rest)
    · exact .inr (hshape.rest_of_request hstack rfl)
  · exact .inl ((hopening.of_cons hframe).append_left frames)

theorem textLaw_initial (now : ℤ) : TextLaw (initial now) where
  quoted tid msg hmsg := by cases tid <;> simp [initial, Tid.entry, quoted, Frame.quotes] at hmsg
  recorded := .inl (by simp [initial, Shared.initial, OneLine])

/-- The new frames quote one-line texts, or are inside `OpenDev`. -/
theorem quoted_step (hshape : WellShaped cfg) (hlaw : TextLaw cfg)
    (hstack : cfg.stack tid = frame :: rest)
    (hexec : exec tid frame choice s = some (s', frames)) (hmsg : msg ∈ quoted (frames ++ rest)) :
    OneLine msg.toList ∨ Opening (frames ++ rest) := by
  have hold (hmsg : msg ∈ quoted (frame :: rest)) :
      OneLine msg.toList ∨ Opening (frame :: rest) := by
    rw [← hstack] at hmsg ⊢
    exact hlaw.quoted tid msg hmsg
  rw [quoted_append, List.mem_append] at hmsg
  rcases hmsg with hnew | hrest
  · rcases of_mem_quoted hexec hnew with hline | hquotes | hopening
    · exact .inl hline
    · refine (hold (List.mem_filterMap.mpr ⟨frame, by simp, hquotes⟩)).imp_right fun hopening => ?_
      refine (hopening.of_cons fun hroutine => ?_).append_left frames
      cases frame <;> simp_all [Frame.quotes, Frame.routine]
    · exact .inr (hopening.append_right rest)
  · refine (hold ?_).imp_right fun hopening => ?_
    · obtain ⟨old, hmem, hquotes⟩ := List.mem_filterMap.mp hrest
      exact List.mem_filterMap.mpr ⟨old, List.mem_cons_of_mem _ hmem, hquotes⟩
    · rcases insideOpenDev_step hshape hstack hexec hopening with hstays | hloop
      · exact hstays
      · -- there is no text left above the loop
        have hnone : msg ∈ quoted (frames ++ rest) := by simp [quoted_append, hrest]
        simp [hloop, quoted, Frame.quotes] at hnone

/-- Where the texts of the verdict stay as they are, `Commands` goes on leaving. -/
theorem leaving_step (hshape : WellShaped cfg) (hstack : cfg.stack .commands = frame :: rest)
    (hexec : exec .commands frame choice cfg.shared = some (s', frames))
    (hrun : cfg.shared.run = false) (hleaving : Leaving (frame :: rest)) :
    Leaving (frames ++ rest) := by
  rcases hleaving with hopening | hloop | hexit | hnil
  · exact (insideOpenDev_step hshape hstack hexec hopening).imp_right .inl
  · obtain ⟨rfl, rfl⟩ := List.cons.inj hloop
    have hstep := advance_of_exec rfl hexec
    simp only [advance, commandStep, hrun] at hstep
    cases hstep
    exact .inr (.inr (.inl rfl))
  · obtain ⟨rfl, rfl⟩ := List.cons.inj hexit
    cases advance_of_exec rfl hexec
    exact .inr (.inr (.inr rfl))
  · cases hnil

theorem recorded_step (hshape : WellShaped cfg) (hlaw : TextLaw cfg)
    (hstack : cfg.stack tid = frame :: rest)
    (hexec : exec tid frame choice cfg.shared = some (s', frames)) :
    OneLine s'.fatalMsg.toList ∨ s'.fatal = true ∧
      (s'.run = false ∧ Leaving (Function.update cfg.stack tid (frames ++ rest) .commands) ∨
        Config.top ⟨s', Function.update cfg.stack tid (frames ++ rest)⟩ .commands =
            some .terminate ∧
          Opening (Function.update cfg.stack tid (frames ++ rest) .commands)) := by
  have hverdict := verdictStep hexec
  rcases hverdict.fatal with ⟨hfatal, hmsg⟩ | ⟨msg, rfl, -, hfatal, hmsg, rfl⟩
  · rw [hmsg, hfatal]
    refine hlaw.recorded.imp_right fun ⟨htrue, hleaves⟩ => ⟨htrue, ?_⟩
    by_cases htid : tid = .commands
    · subst htid
      rw [Function.update_self]
      rw [hstack, top_of_stack hstack] at hleaves
      rcases hleaves with ⟨hrun, hleaving⟩ | ⟨htop, hopening⟩
      · exact .inl ⟨hverdict.run hrun, leaving_step hshape hstack hexec hrun hleaving⟩
      · refine .inl ⟨hverdict.terminates (Option.some.inj htop), ?_⟩
        exact (insideOpenDev_step hshape hstack hexec hopening).imp_right .inl
    · rw [Function.update_of_ne (Ne.symm htid), top_of_ne (Ne.symm htid)]
      exact hleaves.imp_left fun ⟨hrun, hleaving⟩ => ⟨hverdict.run hrun, hleaving⟩
  · rw [hmsg, hfatal]
    have hquoted : msg ∈ quoted (cfg.stack tid) := by simp [hstack, quoted, Frame.quotes]
    refine (hlaw.quoted tid msg hquoted).imp_right fun hopening => ⟨rfl, .inr ?_⟩
    obtain ⟨point, hpoint⟩ := hopening
    obtain rfl := eq_commands (hshape.role_of_mem hpoint rfl)
    have hrest : Opening rest := Opening.of_cons ⟨point, hstack ▸ hpoint⟩ (by simp [Frame.routine])
    refine ⟨by simp [Config.top], ?_⟩
    rw [Function.update_self]
    exact hrest.append_left _

theorem textLaw (hreach : recorder.Reachable cfg) : TextLaw cfg := by
  refine recorder_invariant hreach textLaw_initial
    (fun _ _ hlaw => ⟨hlaw.quoted, hlaw.recorded⟩) ?_
  intro cfg tid choice frame rest s' frames hprior hlaw _ hstack hexec
  have hshape := wellShaped hprior
  refine ⟨fun other msg hmsg => ?_, recorded_step hshape hlaw hstack hexec⟩
  by_cases hother : other = tid
  · subst hother
    simp only [Function.update_self] at hmsg ⊢
    exact quoted_step hshape hlaw hstack hexec hmsg
  · simp only [Function.update_of_ne hother] at hmsg ⊢
    exact hlaw.quoted other msg hmsg

/-- Where a request is answered that quotes the text of a fatal error, it has one line. -/
theorem oneLine_fatalMsg (hreach : recorder.Reachable cfg)
    (hstack : cfg.stack .commands = .command .replyUnlock :: rest) :
    OneLine cfg.shared.fatalMsg.toList := by
  have hrest := (wellShaped hreach).rest_of_request hstack rfl
  rw [hrest] at hstack
  rcases (textLaw hreach).recorded with hline | ⟨-, ⟨-, hleaving⟩ | ⟨htop, -⟩⟩
  · exact hline
  · simp [hstack, Leaving, Opening] at hleaving
  · simp [top_of_stack hstack] at htop

end HauppaugeUSB.MythTV

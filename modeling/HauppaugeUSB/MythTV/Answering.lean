/-
# Answers that are so

An answer is put together where `process_command` stands when it sends it. What it quotes of the
recorder it reads there, and what `StartEncoding` or `StopEncoding` has returned still holds:
nobody else starts a recording, so after `StopEncoding` has reset `m_streaming` it stays reset
until the answer is sent, whatever the device has said. Where `StartEncoding` has set it, another
thread may have reset it since, and the answer tells of a recording that has begun.
-/

import HauppaugeUSB.MythTV.Dialogue
import HauppaugeUSB.MythTV.Plant

namespace HauppaugeUSB.MythTV

open HauppaugeUSB.Concurrency HauppaugeUSB.Commands

variable {tid : Tid} {frame : Frame} {choice : Choice} {s s' : Shared} {frames rest : List Frame}
  {cfg : Recorder} {settings : Settings} {c c' : Conversation} {turn : Turn}

/-- The points of `StopEncoding` past its store. -/
def isStopped : Frame → Bool
  | .stop .call | .stop .capture | .stop .logPorts | .stop .error => true
  | _ => false

/-- While `Commands` stops a recording, there is a device, and once it has stopped it nobody
starts another one. -/
def StoppedLaw (tid : Tid) (frame : Frame) (s : Shared) : Prop :=
  tid = .commands → frame ≠ .stop .noDev ∧ (isStopped frame = true → s.streaming = false)

theorem stoppedLaw (hreach : recorder.Reachable cfg) : cfg.AllFrames StoppedLaw := by
  refine recorder_invariant (P := fun cfg => cfg.AllFrames StoppedLaw) hreach
    (fun now tid frame hmem htid => ?_) (fun _ _ hlaw => hlaw) ?_
  · subst htid
    simp_all [initial, Tid.entry, isStopped]
  intro cfg tid choice frame rest s' frames hprior hlaw _ hstack hexec
  have hshape := wellShaped hprior
  have hsound := sound hprior
  have heffects := exec_effects hexec
  refine Machine.allFrames_of_exec hstack hlaw (fun new hnew htid => ?_)
    (fun old hold hbefore htid => ⟨(hbefore htid).1, fun hstopped => ?_⟩)
    fun other hother old hold hbefore htid => ⟨(hbefore htid).1, fun hstopped => ?_⟩
  · subst htid
    have htop := hlaw .commands frame (hstack ▸ List.mem_cons_self) rfl
    cases new with
    | stop point =>
        rcases stop_of_mem hexec hnew with rfl | ⟨rfl, rfl⟩ | ⟨old, rfl, hstep⟩
        · simp [isStopped]
        · exact htop
        · have hready : old = .dev → cfg.shared.dev ≠ none := by
            rintro rfl hnone
            have hcalled := hsound.called .commands _ (hstack ▸ List.mem_cons_self) rfl
            rcases hsound.device hcalled with hdev | hdeleting
            · simp [hdev] at hnone
            · simp [hsound.not_isDeleting hstack] at hdeleting
          cases old <;> simp only [stopStep] at hstep <;> (try split at hstep) <;>
            cases hstep <;> simp_all [isStopped]
    | _ => simp [isStopped]
  · subst htid
    have hstreaming := (hbefore rfl).2 hstopped
    rcases heffects.streaming with ⟨hsame, -⟩ | ⟨-, hfalse, -⟩ | ⟨rfl, -, -⟩
    · rwa [hsame]
    · exact hfalse
    · obtain rfl := hshape.rest_of_request hstack rfl
      obtain rfl := List.mem_singleton.mp hold
      simp [isStopped] at hstopped
  · subst htid
    have hstreaming := (hbefore rfl).2 hstopped
    rcases heffects.streaming with ⟨hsame, -⟩ | ⟨-, hfalse, -⟩ | ⟨rfl, -, -⟩
    · rwa [hsame]
    · exact hfalse
    · exact absurd (eq_commands (hshape.top_role hstack rfl)).symm hother

/-- How far `StartEncoding` or `StopEncoding` has got for the line that it was called for. -/
def Frame.stage : Frame → Stage
  | .start .reply => .begun
  | .stop .test => .asked
  | .stop .error => .rejected
  | .stop _ => .halted
  | _ => .asked

/-- How far the function has got that `process_command` has called, if it has called one. -/
def stageOf (stack : List Frame) : Stage := stack.dropLast.getLast?.elim .asked Frame.stage

/-- What is above the function that was called does not matter. -/
theorem stageOf_above (above : List Frame) (last bottom : Frame) :
    stageOf (above ++ [last, bottom]) = last.stage := by
  rw [← List.singleton_append, ← List.append_assoc, stageOf, List.dropLast_concat]
  simp

/-- What `StartEncoding` and `StopEncoding` have returned for a request is so. -/
structure Fits (s : Shared) (stage : Stage) (request : Request) (result : Bool × Text) : Prop where
  started : request = .startStreaming → result.1 = true → stage = .begun ∨ s.streaming = true
  notStarted : request = .startStreaming → result.1 = false →
    stage ≠ .begun ∧ s.streaming = false ∧
      (s.ready = false → result.2 = text "Hauppauge device not ready.")
  stopped : request = .stopStreaming →
    s.streaming = false ∧ (stage = .rejected ↔ result.1 = false)

/-- What a recorder constructed like this says of itself. -/
def Settings.plate (settings : Settings) : Nameplate := ⟨settings.desc, settings.version⟩

section

attribute [local simp] replies replyVersion replySerial Station.answers Station.report plantOf
  Settings.plate

/-- A request is answered with what is so. -/
theorem answers_of_fits (hand : Option Block) (desk : Desk) {result : Bool × Text}
    {returned : Bool} {stage : Stage} {request : Request} {cmd serial : Text}
    {session session' : Session} (hfits : Fits s stage request result)
    (hrun : (handle (settings.parent s result) cmd serial request).run session =
      .ok returned session') :
    ∃ status, replies session'.trace = replies session.trace ++
        [(status, statusLine (replyVersion session.apiVersion request) (replySerial serial request)
          status)] ∧
      (plantOf s hand desk).answers settings.plate ⟨cmd, serial, request, stage⟩ status = true := by
  cases request with
  | apiVersionQuery | versionQuery =>
      cases hfatal : s.fatal <;> simp only [handle, Settings.parent, hfatal] at hrun <;>
        cases hrun <;> exact ⟨_, by simp; exact ⟨rfl, rfl⟩, by simp [hfatal]⟩
  | isOpen =>
      cases hfatal : s.fatal <;> cases hready : s.ready <;>
        simp only [handle, Settings.parent, hfatal, hready] at hrun <;> cases hrun <;>
        exact ⟨_, by simp; exact ⟨rfl, rfl⟩, by simp [hfatal, hready]⟩
  | hasLock | signalStrengthPercent =>
      cases hready : s.ready <;> simp only [handle, Settings.parent, hready] at hrun <;>
        cases hrun <;> exact ⟨_, by simp; exact ⟨rfl, rfl⟩, by simp [hready]⟩
  | startStreaming =>
      rcases result with ⟨started, resultmsg⟩
      cases started <;> simp only [handle, Settings.parent] at hrun <;> cases hrun <;>
        refine ⟨_, by simp; exact ⟨rfl, rfl⟩, ?_⟩
      · obtain ⟨hstage, hidle, hmsg⟩ := hfits.notStarted rfl rfl
        cases hready : s.ready
        · obtain rfl : resultmsg = text "Hauppauge device not ready." := hmsg hready
          simp [hstage, hidle, hready, text]
        · simp [hstage, hidle, hready, startsWith, text]
      · simp [hfits.started rfl rfl]
  | stopStreaming =>
      rcases result with ⟨stopped, resultmsg⟩
      obtain ⟨hidle, hstage⟩ := hfits.stopped rfl
      cases stopped <;> simp only [handle, Settings.parent] at hrun <;> cases hrun <;>
        exact ⟨_, by simp; exact ⟨rfl, rfl⟩, by simp [hidle, hstage, startsWith, text]⟩
  | apiVersion data | blockSize data =>
      cases hdata : stoul data <;> simp only [handle, convert, hdata] at hrun <;> cases hrun
      exact ⟨_, by simp [hdata]; exact ⟨rfl, rfl⟩, by simp [hdata, Station.versionAfter]⟩
  | _ =>
      cases hrun
      exact ⟨_, by simp; exact ⟨rfl, rfl⟩, by simp [Settings.parent]⟩

end

/-- A stack with two frames and a frame above the loop. -/
theorem head_of_above {above : List Frame} {last : Frame}
    (hstack : frame :: [.command .loop] = above ++ [last, .command .loop]) : frame = last := by
  cases above with
  | nil => exact (List.cons.inj hstack).1
  | cons head later =>
      have hlength := congrArg List.length hstack
      simp at hlength

/-- A request that a function is called for is answered where the function returns. -/
theorem returns_of_answers {errmsg : Text} {result : Bool × Text} {request : Request}
    (hrequest : request = .startStreaming ∨ request = .stopStreaming)
    (hanswers : frame.answers rest s errmsg request = some result) :
    rest = [.command .loop] ∧ frame.result s errmsg = some result := by
  rcases hrequest with rfl | rfl <;> simp only [Frame.answers] at hanswers <;>
    split at hanswers <;> first | exact ⟨‹_›, hanswers⟩ | cases hanswers

/-- What the functions return is so when it is answered. -/
theorem fits_of_answers {errmsg : Text} {result : Bool × Text} {request : Request}
    (hreach : recorder.Reachable cfg) (hstack : cfg.stack .commands = frame :: rest)
    (hawaits : AwaitsAnswer request (frame :: rest) ∨ frame = .command .poll)
    (hanswers : frame.answers rest cfg.shared errmsg request = some result) :
    Fits cfg.shared (stageOf (frame :: rest)) request result := by
  have hsound := sound hreach
  have htop : frame ∈ cfg.stack .commands := hstack ▸ List.mem_cons_self
  have hcalled := hsound.called .commands _ htop
  have hstart (hrequest : request = .startStreaming) : rest = [.command .loop] ∧ ∃ point,
      frame = .start point ∧ (Frame.start point).result cfg.shared errmsg = some result := by
    subst hrequest
    obtain ⟨rfl, hresult⟩ := returns_of_answers (.inl rfl) hanswers
    rcases hawaits with ⟨above, point, habove⟩ | rfl
    · obtain rfl := head_of_above habove
      exact ⟨rfl, point, rfl, hresult⟩
    · cases hresult
  refine ⟨fun hrequest htrue => ?_, fun hrequest hfalse => ?_, fun hrequest => ?_⟩
  · obtain ⟨rfl, point, rfl, hresult⟩ := hstart hrequest
    cases point <;> simp only [Frame.result] at hresult <;> (try split at hresult) <;>
      cases hresult <;> simp_all [stageOf, Frame.stage]
  · obtain ⟨rfl, point, rfl, hresult⟩ := hstart hrequest
    have hstarting := hsound.starting .commands _ htop
    cases point with
    | ready =>
        simp only [Frame.result] at hresult
        split at hresult <;> cases hresult
        exact ⟨by simp [stageOf, Frame.stage], hstarting rfl, fun _ => rfl⟩
    | error =>
        cases hresult
        exact ⟨by simp [stageOf, Frame.stage], hstarting rfl,
          fun hnotReady => by simp [hcalled rfl] at hnotReady⟩
    | test =>
        simp only [Frame.result] at hresult
        split at hresult <;> cases hresult
        cases hfalse
    | reply =>
        cases hresult
        cases hfalse
    | _ => cases hresult
  · subst hrequest
    obtain ⟨rfl, hresult⟩ := returns_of_answers (.inr rfl) hanswers
    rcases hawaits with ⟨above, point, habove⟩ | rfl
    · obtain rfl := head_of_above habove
      obtain ⟨hnoDev, hstopped⟩ := stoppedLaw hreach .commands _ htop rfl
      cases point with
      | test =>
          simp only [Frame.result] at hresult
          split at hresult <;> cases hresult
          exact ⟨by simpa using ‹¬ cfg.shared.streaming = true›, by
            simp [stageOf, Frame.stage]⟩
      | ready => simp [Frame.result, hcalled rfl] at hresult
      | noDev => exact absurd rfl hnoDev
      | error | logPorts =>
          cases hresult
          exact ⟨hstopped rfl, by simp [stageOf, Frame.stage]⟩
      | _ => cases hresult
    · cases hresult

/-- While `StartEncoding` goes on, the line that asks for it is being handled. -/
def StartLaw (c : Conversation) : Prop :=
  ∀ point, .start point ∈ c.recorder.stack .commands →
    ∃ pending, c.pending = some pending ∧ pending.request = .startStreaming

theorem startStreaming_of_mem {request : Request} {point : StartPoint}
    (hmem : .start point ∈ requestFrames request ++ [.command .loop]) :
    request = .startStreaming := by
  cases request <;> simp_all [requestFrames]

/-- `StartEncoding` goes on, or it is called for a `StartStreaming` that has been read. -/
theorem start_cases {point : StartPoint} (hexec : exec tid frame choice s = some (s', frames))
    (hmem : .start point ∈ frames) :
    (∃ old, frame = .start old) ∨ frame = .command .poll ∧ choice = .request .startStreaming := by
  rcases exec_eq_some_iff.mp hexec with ⟨-, -, -, -, -, rfl⟩ | ⟨hchoice, hstep⟩
  · rcases List.mem_pair.mp hmem with hfatal | hsame
    · cases hfatal
    · exact .inl ⟨point, hsame.symm⟩
  rcases (exec_shape hexec).routine _ hmem with hentry | hroutine
  · have henters : enters frame (.start point) = true :=
      ((exec_shape hexec).entered _ hmem hentry).resolve_right fun hfails => hchoice hfails.1
    obtain rfl : frame = .command .poll := by
      cases frame with
      | command old | fatal old | openDev old | wait old => cases old <;> simp_all [enters]
      | _ => simp_all [enters]
    simp only [advance, commandStep] at hstep
    split at hstep
    case h_4 =>
      split at hstep <;> cases hstep
      exact .inr ⟨rfl, by rw [startStreaming_of_mem hmem]⟩
    all_goals cases hstep
    all_goals simp at hmem
  · cases frame with
    | start old => exact .inl ⟨old, rfl⟩
    | _ => cases hroutine

/-- Nothing is asked and nothing answered in a step of another thread. -/
theorem TurnShape.quiet (hturn : TurnShape settings c c' turn)
    (hothers : ∀ choice, turn.action ≠ .thread .commands choice) :
    heardIn c turn = [] ∧ waiting c' = waiting c ∧ c'.session = c.session := by
  have hquiet : heardIn c turn = [] := by
    unfold heardIn
    split
    case h_1 request haction => exact (hothers _ haction).elim
    case h_2 => rfl
  rcases hturn.said with ⟨hwaiting, hsession⟩ |
    ⟨line, result, returned, hline, hpending, hversion, ⟨choice, _, _, _, haction, -⟩, -⟩
  · exact ⟨hquiet, by rw [hwaiting, hquiet, List.append_nil], hsession⟩
  · exact (hothers choice haction).elim

/-- A line is read when none is being handled. -/
theorem TurnShape.heardIn_eq_nil (hturn : TurnShape settings c c' turn) (hanswer : AnswerLaw c)
    (hpending : c.pending ≠ none) : heardIn c turn = [] := by
  refine List.eq_nil_iff_forall_not_mem.mpr fun line hline => hpending ?_
  exact pending_of_singleton hanswer (hturn.legal line hline).2.2.2

theorem TurnShape.heardIn_of_stack (hturn : TurnShape settings c c' turn)
    (hstack : c.recorder.stack .commands = frame :: rest) (hframe : frame ≠ .command .poll) :
    heardIn c turn = [] := by
  refine List.eq_nil_iff_forall_not_mem.mpr fun line hline => hframe ?_
  exact (List.cons.inj (hstack.symm.trans (hturn.legal line hline).2.2.2)).1

/-- `StartEncoding` has nothing more to do where it returns. -/
theorem startStep_returns {point : StartPoint} {errmsg : Text} {result : Bool × Text}
    (hstep : startStep choice s point = some (s', frames))
    (hresult : (Frame.start point).result s errmsg = some result) : frames = [] := by
  cases point <;> simp only [Frame.result] at hresult <;> (try cases hresult) <;>
    simp only [startStep] at hstep <;> (try split at hresult) <;> (try cases hresult) <;>
    (try split at hstep) <;> cases hstep <;> simp_all

theorem startLaw_step (hshape : WellShaped c.recorder) (hanswer : AnswerLaw c)
    (hlaw : StartLaw c) (hturn : TurnShape settings c c' turn) : StartLaw c' := by
  intro point hmem
  rcases commands_cases hturn.recorder with
    ⟨choice, frame, rest, s', frames, haction, hstack, hexec, hafter⟩ | ⟨hothers, hsame⟩
  case inr =>
    rw [pending_of_waiting_eq (hturn.quiet hothers).2.1]
    exact hlaw point (hsame ▸ hmem)
  have hnew : .start point ∈ frames ++ rest := by simpa [hafter] using hmem
  -- The thread was in `StartEncoding`, or it has just read the line.
  have hold : (∃ old, .start old ∈ c.recorder.stack .commands) ∨
      frame = .command .poll ∧ choice = .request .startStreaming := by
    rw [hstack]
    rcases List.mem_append.mp hnew with hframes | hrest
    · exact (start_cases hexec hframes).imp_left fun ⟨old, htop⟩ => ⟨old, by simp [htop]⟩
    · exact .inl ⟨point, List.mem_cons_of_mem _ hrest⟩
  obtain ⟨line, hline, hrequest⟩ : ∃ line, waiting c ++ heardIn c turn = [line] ∧
      line.request = .startStreaming := by
    rcases hold with ⟨old, hold⟩ | ⟨rfl, rfl⟩
    · obtain ⟨pending, hpending, hrequest⟩ := hlaw old hold
      have hquiet := hturn.heardIn_eq_nil hanswer (by simp [hpending])
      exact ⟨⟨pending, c.session.apiVersion⟩, by simp [hquiet, waiting, hpending], hrequest⟩
    · obtain rfl := hshape.rest_eq_nil hstack rfl
      have hnone := pending_of_singleton hanswer hstack
      obtain ⟨line, hline⟩ : ∃ line, heardIn c turn = [line] := by
        simp [heardIn, haction, top_of_stack hstack]
      have hlegal := (hturn.legal line (by simp [hline])).2.2.1
      rw [haction] at hlegal
      refine ⟨line, by simp [waiting, hnone, hline], ?_⟩
      exact (Choice.request.inj (Action.thread.inj hlegal).2).symm
  rcases hturn.said with ⟨hwaiting, -⟩ |
    ⟨answered, result, returned, hanswered, -, -,
      ⟨choice', top, below, errmsg, -, htop, hanswers⟩, -⟩
  · exact ⟨line.toPending, pending_of_waiting (hwaiting.trans hline), hrequest⟩
  · exfalso
    obtain ⟨rfl, rfl⟩ := List.cons.inj (htop.symm.trans hstack)
    obtain rfl : answered = line := by simpa [hanswered] using hline
    rw [hrequest] at hanswers
    obtain ⟨rfl, hresult⟩ := returns_of_answers (.inl rfl) hanswers
    have hframes : .start point ∈ frames := by simpa using hnew
    rcases start_cases hexec hframes with ⟨old, rfl⟩ | ⟨rfl, -⟩
    · rcases exec_eq_some_iff.mp hexec with ⟨-, hhardware, -⟩ | ⟨-, hstep⟩
      · cases old <;> simp [Frame.isHardware, Frame.result] at hhardware hresult
      · rw [startStep_returns hstep hresult] at hframes
        cases hframes
    · cases hresult

theorem startLaw (hreach : (conversation settings).Reachable c) : StartLaw c := by
  refine hreach.invariant ?_ fun state _ _ hprior hlaw hstep => ?_
  · rintro _ ⟨now, rfl⟩ point hmem
    simp [initial, Tid.entry] at hmem
  · have hshape := wellShaped (talkLaw hprior).reachable
    have hanswer := answerLaw hprior
    exact startLaw_step hshape hanswer hlaw (turnShape hshape hanswer hstep)

end HauppaugeUSB.MythTV

/-
# Starting and stopping the encoder

`StartStreaming` and `StopStreaming` are handled one after the other, each by a function
that calls the device if the members of `MythTV` let it. `StartEncoding` sets
`m_streaming` when the device has succeeded; `StopEncoding` clears it before the device is
called, and leaves it so when that fails. Here the functions are taken as a whole, with
the device and what it replies, and it is determined for which sequences of commands
`m_streaming` says whether there is a capture.

The steps that the threads of the recorder take are another model of these functions; at
the end it is shown to do the same.
-/

import HauppaugeUSB.Device.Captures
import HauppaugeUSB.Device.History
import HauppaugeUSB.MythTV.Step

namespace HauppaugeUSB.MythTV

open HauppaugeUSB.Concurrency
open HauppaugeUSB.Device (DeviceEvent HauppaugeDev Replies)

/-- The members of `MythTV` that the two functions read and write. -/
structure Encoding where
  streaming : Bool
  ready : Bool
  /-- `m_dev`, with `none` for `nullptr`. -/
  dev : Option HauppaugeDev

/-- What a call returns, its `resultmsg`, and the members after it. -/
structure Returned where
  ok : Bool
  resultmsg : String
  mythtv : Encoding

/-- `MythTV::StartEncoding`. There is no result where it calls a device that is not there. -/
def startEncoding (replies : Replies) (mythtv : Encoding) : Option Returned :=
  if mythtv.streaming then some ⟨true, "Already streaming!", mythtv⟩
  else if mythtv.ready = false then some ⟨false, "Hauppauge device not ready.", mythtv⟩
  else mythtv.dev.map fun dev =>
    match Device.startEncoding replies dev with
    | (none, dev) => ⟨false, dev.errmsg, { mythtv with dev := some dev }⟩
    | (some (), dev) => ⟨true, "", { mythtv with streaming := true, dev := some dev }⟩

/-- `MythTV::StopEncoding`, called with a `resultmsg`, where `reply` is what `stopCapture`
returns. -/
def stopEncoding (reply : Bool) (resultmsg : String) (soft : Bool) (mythtv : Encoding) :
    Returned :=
  if mythtv.streaming = false then
    ⟨true, if soft then resultmsg else "Already not streaming!", mythtv⟩
  else if mythtv.ready = false then ⟨false, "Hauppauge device not ready.", mythtv⟩
  else
    match mythtv.dev with
    | none => ⟨false, "Invalid Hauppauge device.", mythtv⟩
    | some dev =>
        let cleared := { mythtv with streaming := false }
        match Device.stopEncoding reply dev with
        | (none, dev) => ⟨false, dev.errmsg, { cleared with dev := some dev }⟩
        | (some (), dev) => ⟨true, "", { cleared with dev := some dev }⟩

/-- A command, with what the device replies if it is asked. -/
inductive EncodingCommand
  | startStreaming (replies : Replies)
  | stopStreaming (reply : Bool)

/-- What `process_command` calls for a command. -/
def EncodingCommand.call (command : EncodingCommand) (mythtv : Encoding) : Option Returned :=
  match command with
  | .startStreaming replies => startEncoding replies mythtv
  | .stopStreaming reply => some (stopEncoding reply "" false mythtv)

namespace Encoding

/-- The calls that the device has made. -/
def calls (mythtv : Encoding) : List DeviceEvent := mythtv.dev.elim [] HauppaugeDev.trace

/-- What the other functions of `MythTV` see. -/
def observed (mythtv : Encoding) : Bool × Bool × Bool :=
  (mythtv.streaming, mythtv.ready, mythtv.dev.isSome)

/-- The device is capturing. -/
def Capturing (mythtv : Encoding) : Prop := ∃ dev, mythtv.dev = some dev ∧ dev.Capturing

/-- `m_streaming` says whether the device is capturing. -/
def Tracks (mythtv : Encoding) : Prop := mythtv.streaming = true ↔ mythtv.Capturing

/-- `StopEncoding` will call the device. -/
def CallsStop (mythtv : Encoding) : Prop :=
  mythtv.streaming = true ∧ mythtv.ready = true ∧ mythtv.dev.isSome = true

end Encoding

/-- A call of `StopEncoding` that fails has changed nothing. If the device has failed, the
next call asks it again and `StartEncoding` does not. -/
structure StaysStoppable (reply : Bool) (before : Encoding) : Prop where
  unchanged : ∀ resultmsg soft, (stopEncoding reply resultmsg soft before).ok = false →
    (stopEncoding reply resultmsg soft before).mythtv.observed = before.observed
  again : ∀ resultmsg soft after, (stopEncoding reply resultmsg soft before).mythtv = after →
    after.calls = before.calls ++ [.stopCapture false] →
      (∀ again, (stopEncoding again "" false after).mythtv.calls =
        after.calls ++ [.stopCapture again]) ∧
      ∀ replies returned, startEncoding replies after = some returned →
        returned.mythtv.calls = after.calls

/-- The recorder as far as these commands go. -/
@[reducible]
def encoding : System Encoding EncodingCommand where
  IsStart := Encoding.Tracks
  step mythtv command := (command.call mythtv).map Returned.mythtv

/-- At every point of a sequence of commands the recorder can be stopped and knows whether
it is to be. -/
structure StoppableThroughout (start : Encoding) (commands : List EncodingCommand) : Prop where
  stoppable : ∀ prior reply before, prior ++ [.stopStreaming reply] <+: commands →
    encoding.run start prior = some before → StaysStoppable reply before
  tracks : ∀ prior mythtv, prior <+: commands → encoding.run start prior = some mythtv →
    mythtv.Tracks

/-- No call of `stopCapture` that the commands lead to fails. -/
def NoStopFails (start : Encoding) (commands : List EncodingCommand) : Prop :=
  ∀ prior before, prior ++ [.stopStreaming false] <+: commands →
    encoding.run start prior = some before → ¬ before.CallsStop

section Call

variable {before : Encoding} {reply : Bool}

/-- A call that reaches the device has cleared `m_streaming` and returns what it replies. -/
theorem stopEncoding_of_callsStop {dev : HauppaugeDev} (reply : Bool) (resultmsg : String)
    (soft : Bool) (hcalls : before.CallsStop) (hdev : before.dev = some dev) :
    (stopEncoding reply resultmsg soft before).ok = reply ∧
      (stopEncoding reply resultmsg soft before).mythtv =
        ⟨false, before.ready, some (Device.stopEncoding reply dev).2⟩ := by
  obtain ⟨hstreaming, hready, -⟩ := hcalls
  unfold stopEncoding
  rw [if_neg (by simp [hstreaming]), if_neg (by simp [hready]), hdev]
  cases reply <;> exact ⟨rfl, rfl⟩

/-- A command that is refused is answered with one of the texts of `MythTV`, or with what the
device then has in its `ErrorString`. -/
theorem EncodingCommand.resultmsg_of_refused {command : EncodingCommand} {returned : Returned}
    (hcall : command.call before = some returned) (hrefused : returned.ok = false) :
    returned.resultmsg = "Hauppauge device not ready." ∨
      returned.resultmsg = "Invalid Hauppauge device." ∨
      ∃ dev, returned.mythtv.dev = some dev ∧ returned.resultmsg = dev.errmsg := by
  cases command with
  | startStreaming replies =>
      unfold EncodingCommand.call startEncoding at hcall
      split_ifs at hcall
      · cases hcall
        cases hrefused
      · cases hcall
        exact Or.inl rfl
      · obtain ⟨dev, -, rfl⟩ := Option.map_eq_some_iff.mp hcall
        cases hrun : Device.startEncoding replies dev with
        | mk value later =>
            cases value with
            | none => exact Or.inr (Or.inr ⟨later, rfl, rfl⟩)
            | some value => simp [hrun] at hrefused
  | stopStreaming reply =>
      obtain rfl := Option.some.inj hcall
      unfold stopEncoding at hrefused ⊢
      split_ifs at hrefused ⊢ with hstreaming hready
      · exact Or.inl rfl
      · cases hdev : before.dev with
        | none => exact Or.inr (Or.inl rfl)
        | some dev =>
            cases hrun : Device.stopEncoding reply dev with
            | mk value later =>
                cases value with
                | none => exact Or.inr (Or.inr ⟨later, by simp [hrun], by simp [hrun]⟩)
                | some value => simp [hdev, hrun] at hrefused

/-- A call that does not reach it leaves everything as it is. -/
theorem stopEncoding_of_not_callsStop (reply : Bool) (resultmsg : String) (soft : Bool)
    (hcalls : ¬ before.CallsStop) :
    (stopEncoding reply resultmsg soft before).mythtv = before := by
  unfold stopEncoding
  by_cases hstreaming : before.streaming = false
  · rw [if_pos hstreaming]
  by_cases hready : before.ready = false
  · rw [if_neg hstreaming, if_pos hready]
  rw [if_neg hstreaming, if_neg hready]
  cases hdev : before.dev with
  | none => rfl
  | some dev =>
      have hboth : before.streaming = true ∧ before.ready = true := by
        exact ⟨by simpa using hstreaming, by simpa using hready⟩
      exact absurd ⟨hboth.1, hboth.2, by simp [hdev]⟩ hcalls

theorem staysStoppable_iff :
    StaysStoppable reply before ↔ (before.CallsStop → reply = true) := by
  constructor
  · intro hstoppable hcalls
    obtain ⟨dev, hdev⟩ := Option.isSome_iff_exists.mp hcalls.2.2
    cases reply with
    | true => rfl
    | false =>
        have hfailed := stopEncoding_of_callsStop false "" false hcalls hdev
        have hunchanged := hstoppable.unchanged "" false hfailed.1
        simp [hfailed.2, Encoding.observed, hcalls.1] at hunchanged
  · intro hreply
    by_cases hcalls : before.CallsStop
    · obtain rfl := hreply hcalls
      obtain ⟨dev, hdev⟩ := Option.isSome_iff_exists.mp hcalls.2.2
      constructor
      · intro resultmsg soft hfailed
        simp [(stopEncoding_of_callsStop true resultmsg soft hcalls hdev).1] at hfailed
      · rintro resultmsg soft after rfl hasked
        simp [(stopEncoding_of_callsStop true resultmsg soft hcalls hdev).2,
          Encoding.calls, hdev, Device.stopEncoding_trace] at hasked
    · constructor
      · intro resultmsg soft hfailed
        rw [stopEncoding_of_not_callsStop reply resultmsg soft hcalls]
      · rintro resultmsg soft after rfl hasked
        simp [stopEncoding_of_not_callsStop reply resultmsg soft hcalls] at hasked

/-- A call of `StartEncoding` keeps track of the capture. -/
theorem tracks_startEncoding {replies : Replies} {returned : Returned} (htracks : before.Tracks)
    (hcall : startEncoding replies before = some returned) : returned.mythtv.Tracks := by
  unfold startEncoding at hcall
  by_cases hstreaming : before.streaming = true
  · rw [if_pos hstreaming] at hcall
    cases hcall
    exact htracks
  by_cases hready : before.ready = false
  · rw [if_neg hstreaming, if_pos hready] at hcall
    cases hcall
    exact htracks
  rw [if_neg hstreaming, if_neg hready] at hcall
  obtain ⟨dev, hdev, rfl⟩ := Option.map_eq_some_iff.mp hcall
  have hidle : ¬ dev.Capturing := fun hcapturing => hstreaming (htracks.mpr ⟨dev, hdev, hcapturing⟩)
  have hmeets := Device.meets_startEncoding_capturing replies dev rfl
  cases hrun : Device.startEncoding replies dev with
  | mk started later =>
      rw [hrun] at hmeets
      cases started with
      | none => simp [Encoding.Tracks, Encoding.Capturing, hstreaming, hmeets, hidle]
      | some _ => simpa [Encoding.Tracks, Encoding.Capturing] using hmeets

/-- So does one of `StopEncoding`, unless the device fails. -/
theorem tracks_stopEncoding (htracks : before.Tracks) (hreply : before.CallsStop → reply = true)
    (resultmsg : String) (soft : Bool) :
    (stopEncoding reply resultmsg soft before).mythtv.Tracks := by
  by_cases hcalls : before.CallsStop
  · obtain ⟨dev, hdev⟩ := Option.isSome_iff_exists.mp hcalls.2.2
    rw [(stopEncoding_of_callsStop reply resultmsg soft hcalls hdev).2]
    simp [Encoding.Tracks, Encoding.Capturing, Device.capturing_stopEncoding, hreply hcalls]
  · rwa [stopEncoding_of_not_callsStop reply resultmsg soft hcalls]

end Call

section Sequence

variable {start mythtv : Encoding} {commands : List EncodingCommand}

/-- While no `stopCapture` fails, the recorder keeps track of the capture. -/
theorem tracks_of_noStopFails (hstart : start.Tracks) (hnone : NoStopFails start commands)
    (hrun : encoding.run start commands = some mythtv) : mythtv.Tracks := by
  induction commands using List.reverseRecOn generalizing mythtv with
  | nil =>
      cases hrun
      exact hstart
  | append_singleton earlier command ih =>
      rw [System.run_append_singleton, Option.bind_eq_some_iff] at hrun
      obtain ⟨before, hearlier, hstep⟩ := hrun
      obtain ⟨returned, hcall, rfl⟩ := Option.map_eq_some_iff.mp hstep
      have hbefore : before.Tracks := by
        refine ih (fun prior state hbegins => ?_) hearlier
        exact hnone prior state (hbegins.trans (List.prefix_append _ _))
      cases command with
      | startStreaming replies => exact tracks_startEncoding hbefore hcall
      | stopStreaming reply =>
          cases hcall
          refine tracks_stopEncoding hbefore (fun hcalls => ?_) _ _
          by_contra hreply
          obtain rfl : reply = false := by simpa using hreply
          exact hnone earlier before (List.prefix_refl _) hearlier hcalls

/-- A call can go wrong only where the device is asked to stop and fails, and a sequence of
commands only at such a call. -/
theorem stoppable_iff (reply : Bool) (before : Encoding) (hstart : start.Tracks) :
    (StaysStoppable reply before ↔ (before.CallsStop → reply = true)) ∧
      (StoppableThroughout start commands ↔ NoStopFails start commands) := by
  refine ⟨staysStoppable_iff, ?_, ?_⟩
  · intro hthroughout prior before hbegins hrun hcalls
    have hstoppable := hthroughout.stoppable prior false before hbegins hrun
    cases staysStoppable_iff.mp hstoppable hcalls
  · intro hnone
    constructor
    · intro prior reply before hbegins hrun
      refine staysStoppable_iff.mpr fun hcalls => ?_
      cases reply with
      | false => exact absurd hcalls (hnone prior before hbegins hrun)
      | true => rfl
    · intro prior mythtv hbegins hrun
      refine tracks_of_noStopFails hstart (fun earlier before hearlier => ?_) hrun
      exact hnone earlier before (hearlier.trans hbegins)

/-- A recorder with an open device and a component input. -/
def readyRecorder : Encoding where
  streaming := false
  ready := true
  dev := some (.new { Device.Parameters.default with videoInput := 1 } fun _ => none)

/-- A start that succeeds. -/
def startOnce : EncodingCommand :=
  .startStreaming (Device.steadySource ⟨1920, 1080, true, 30, 16 / 9⟩)

theorem tracks_readyRecorder : readyRecorder.Tracks := by
  constructor
  · intro hstreaming
    cases hstreaming
  · rintro ⟨dev, hdev, hcapturing⟩
    cases hdev
    exact absurd hcapturing Streams.not_leftOpen_nil

theorem stoppable_readyRecorder :
    StoppableThroughout readyRecorder [startOnce, .stopStreaming true, startOnce] := by
  refine (stoppable_iff true readyRecorder tracks_readyRecorder).2.mpr
    fun prior before hbegins => ?_
  have hmem : EncodingCommand.stopStreaming false ∈ [startOnce, .stopStreaming true, startOnce] :=
    hbegins.subset (by simp)
  simp [startOnce] at hmem

theorem not_stoppable :
    ¬ StoppableThroughout readyRecorder [startOnce, .stopStreaming false, .stopStreaming true] := by
  intro hthroughout
  have hview : (encoding.run readyRecorder [startOnce]).map Encoding.observed =
      some (true, true, true) := by
    decide
  obtain ⟨before, hrun, hobserved⟩ := Option.map_eq_some_iff.mp hview
  obtain ⟨hstreaming, hready, hdev⟩ : before.streaming = true ∧ before.ready = true ∧
      before.dev.isSome = true := by
    simpa [Encoding.observed] using hobserved
  have hstoppable := hthroughout.stoppable [startOnce] false before ⟨[_], rfl⟩ hrun
  cases staysStoppable_iff.mp hstoppable ⟨hstreaming, hready, hdev⟩

end Sequence

section Threads

variable {mythtv : Encoding} {tid : Tid} {s : Shared} {rest : List Frame}

/-- The members have the same values. -/
structure Encoding.Agrees (mythtv : Encoding) (s : Shared) : Prop where
  streaming : mythtv.streaming = s.streaming
  ready : mythtv.ready = s.ready
  dev : mythtv.dev.isSome = s.dev.isSome

/-- A step of a thread by itself. -/
theorem alone_advance {frame : Frame} {choice : Choice} {s' later : Shared}
    {frames stack : List Frame} (hchoice : choice ≠ .usbError)
    (hadvance : advance tid frame choice s = some (s', frames))
    (halone : machine.Alone tid s' (frames ++ rest) later stack) :
    machine.Alone tid s (frame :: rest) later stack := by
  have hexec : machine.exec tid frame choice s = some (s', frames) := by
    show exec tid frame choice s = _
    rw [exec, if_neg hchoice, hadvance]
  exact .step hexec halone

/-- A thread that is not disturbed in `StopEncoding` does what the function does. -/
theorem alone_stopEncoding (hagrees : mythtv.Agrees s) (hmutex : s.flowMutex = none)
    (reply : Bool) (resultmsg : String) (soft : Bool) :
    ∃ later, machine.Alone tid s (.stop .test :: rest) later rest ∧
      (stopEncoding reply resultmsg soft mythtv).mythtv.Agrees later := by
  obtain ⟨hstreaming, hready, hdev⟩ := hagrees
  have hproceed : Choice.proceed ≠ .usbError := by decide
  have hanswer (ok : Bool) : Choice.answer ok ≠ .usbError := by simp
  by_cases hcalls : mythtv.CallsStop
  · obtain ⟨dev, hhere⟩ := Option.isSome_iff_exists.mp hcalls.2.2
    rw [(stopEncoding_of_callsStop reply resultmsg soft hcalls hhere).2]
    have hon : s.streaming = true := hstreaming ▸ hcalls.1
    have hopen : s.ready = true := hready ▸ hcalls.2.1
    have hsome : s.dev ≠ none := by
      rw [← Option.isSome_iff_ne_none, ← hdev, hhere, Option.isSome_some]
    have hdevice (later : Shared) :
        machine.Alone tid later (.stop .capture :: rest) later rest := by
      cases reply with
      | false => exact alone_advance (hanswer false) rfl (alone_advance hproceed rfl .stay)
      | true => exact alone_advance (hanswer true) rfl (alone_advance hproceed rfl .stay)
    refine ⟨_, alone_advance hproceed (if_pos hon) <| alone_advance hproceed (if_pos hopen) <|
      alone_advance hproceed (if_pos hmutex) <| alone_advance hproceed (if_neg hsome) <|
      alone_advance hproceed rfl <| alone_advance hproceed rfl <| alone_advance hproceed rfl <|
      hdevice _, ?_⟩
    exact ⟨rfl, hready, by simpa using (Option.isSome_iff_ne_none.mpr hsome).symm⟩
  · rw [stopEncoding_of_not_callsStop reply resultmsg soft hcalls]
    by_cases hon : s.streaming = true
    case neg => exact ⟨s, alone_advance hproceed (if_neg hon) .stay, hstreaming, hready, hdev⟩
    by_cases hopen : s.ready = true
    case neg =>
      exact ⟨_, alone_advance hproceed (if_pos hon) (alone_advance hproceed (if_neg hopen) .stay),
        hstreaming, hready, hdev⟩
    have hnone : s.dev = none := by
      rw [← Option.not_isSome_iff_eq_none, ← hdev]
      exact fun hdev => hcalls ⟨hstreaming.trans hon, hready.trans hopen, hdev⟩
    exact ⟨_, alone_advance hproceed (if_pos hon) <| alone_advance hproceed (if_pos hopen) <|
      alone_advance hproceed (if_pos hmutex) <| alone_advance hproceed (if_pos hnone) <|
      alone_advance hproceed rfl .stay, hstreaming, hready, hdev⟩

/-- A thread that is not disturbed in `StartEncoding` does what the function does. -/
theorem alone_startEncoding {replies : Replies} {returned : Returned}
    (hagrees : mythtv.Agrees s) (hcall : startEncoding replies mythtv = some returned) :
    ∃ later, machine.Alone tid s (.start .test :: rest) later rest ∧
      returned.mythtv.Agrees later := by
  have hproceed : Choice.proceed ≠ .usbError := by decide
  have hanswer (ok : Bool) : Choice.answer ok ≠ .usbError := by simp
  obtain ⟨hstreaming, hready, hdev⟩ := hagrees
  unfold startEncoding at hcall
  by_cases hon : mythtv.streaming = true
  · rw [if_pos hon] at hcall
    cases hcall
    exact ⟨s, alone_advance hproceed (if_pos (hstreaming ▸ hon)) .stay, hstreaming, hready, hdev⟩
  have hidle : ¬ s.streaming = true := hstreaming ▸ hon
  by_cases hclosed : mythtv.ready = false
  · rw [if_neg hon, if_pos hclosed] at hcall
    cases hcall
    have hnot : ¬ s.ready = true := by simp [← hready, hclosed]
    exact ⟨_, alone_advance hproceed (if_neg hidle) (alone_advance hproceed (if_neg hnot) .stay),
      hstreaming, hready, hdev⟩
  have hopen : s.ready = true := by simpa [← hready] using hclosed
  rw [if_neg hon, if_neg hclosed] at hcall
  obtain ⟨dev, hhere, rfl⟩ := Option.map_eq_some_iff.mp hcall
  have hpresent : s.dev.isSome = true := by rw [← hdev, hhere, Option.isSome_some]
  cases hrun : Device.startEncoding replies dev with
  | mk started after =>
      cases started with
      | none =>
          refine ⟨_, alone_advance hproceed (if_neg hidle) <|
            alone_advance hproceed (if_pos hopen) <| alone_advance hproceed rfl <|
            alone_advance (hanswer false) rfl <| alone_advance hproceed rfl .stay, ?_⟩
          exact ⟨hstreaming, hready, hpresent.symm⟩
      | some _ =>
          refine ⟨_, alone_advance hproceed (if_neg hidle) <|
            alone_advance hproceed (if_pos hopen) <| alone_advance hproceed rfl <|
            alone_advance (hanswer true) rfl <| alone_advance (hanswer true) rfl <|
            alone_advance hproceed rfl <| alone_advance hproceed rfl <|
            alone_advance hproceed rfl .stay, ?_⟩
          exact ⟨rfl, hready, hpresent.symm⟩

/-- The point at which a command enters its function. -/
def EncodingCommand.point : EncodingCommand → Frame
  | .startStreaming _ => .start .test
  | .stopStreaming _ => .stop .test

/-- What a command does, the recorder can do in its runs. -/
theorem exists_reachable_of_call {cfg : Recorder} {command : EncodingCommand} {returned : Returned}
    (hreach : recorder.Reachable cfg) (hagrees : mythtv.Agrees cfg.shared)
    (hmutex : cfg.shared.flowMutex = none) (hstack : cfg.stack tid = command.point :: rest)
    (hcall : command.call mythtv = some returned) :
    ∃ later, recorder.Reachable ⟨later, Function.update cfg.stack tid rest⟩ ∧
      returned.mythtv.Agrees later := by
  have halone : ∃ later, machine.Alone tid cfg.shared (command.point :: rest) later rest ∧
      returned.mythtv.Agrees later := by
    cases command with
    | startStreaming replies => exact alone_startEncoding hagrees hcall
    | stopStreaming reply =>
        cases hcall
        exact alone_stopEncoding hagrees hmutex reply "" false
  obtain ⟨later, hlater, hagrees'⟩ := halone
  exact ⟨later, hlater.reachable hreach rfl hstack, hagrees'⟩

end Threads

end HauppaugeUSB.MythTV

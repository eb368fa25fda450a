/-
# Losing the control channel

When `Commands::Run` returns, nobody is left to end the recorder but `Wait`, which looks at
`m_run` alone. The loop returns because `m_run` is false, or after a call of `Fatal`, which
makes it false, or because `poll` has reported a hang-up or an overflow, and then it just
returns. Where it does not return like that while `m_run` is true, the recorder ends, unless
`Fatal` deadlocks: `main` and `Buffer` have only so many statements left to execute, and whoever
they may have to wait for can go on. Once `~MythTV` has called `Terminate` the capture has been
stopped, unless `StartEncoding` announces it too late for that.
-/

import HauppaugeUSB.MythTV.Pairing
import HauppaugeUSB.MythTV.Progress

namespace HauppaugeUSB.MythTV

open HauppaugeUSB.Concurrency HauppaugeUSB.Commands

variable {tid : Tid} {frame : Frame} {choice : Choice} {s s' : Shared} {frames rest : List Frame}
  {cfg : Recorder}

/-- If `Commands::Run` has returned, the recorder ends. -/
structure ChannelEnds (cfg : Recorder) : Prop where
  run : cfg.shared.commandsExited = true → cfg.shared.run = false
  /-- `Wait`, `~MythTV` and `Buffer::Run` have fewer statements left after each one, as long as
  no control message fails. -/
  nearer : cfg.shared.commandsExited = true → ∀ tid choice next,
    tid = .main ∨ tid = .buffer → choice ≠ .usbError →
      recorder.step cfg (.thread tid choice) = some next →
        stackWork (next.stack tid) < stackWork (cfg.stack tid)
  /-- They come to their end, and then the device is deleted and its capture stopped. -/
  ends : cfg.shared.commandsExited = true →
    ∃ schedule last, (∀ action ∈ schedule, Undisturbed action) ∧
      recorder.run cfg schedule = some last ∧ AllReturned last ∧ last.shared.dev = none ∧
      last.shared.streaming = false ∧ isRunning last.shared.captures = false
  /-- When `Terminate` has returned to `~MythTV`, the capture has been stopped or someone is
  about to do so. -/
  stopped : cfg.shared.commandsExited = true →
    (cfg.stack .main = [] ∨ ∃ point, cfg.stack .main = [.dtor point]) →
      cfg.shared.streaming = false ∧
        (isRunning cfg.shared.captures = true → ∃ tid, cfg.Inside (isCalling ·) tid)

/-- `Commands::Run` does not return on its own, and `StartEncoding` does not announce a capture
once `~MythTV` has tested `m_streaming`. -/
def HangUpSafe (cfg : Recorder) : Action Tid Choice ℕ → Prop
  | .thread tid choice =>
      (cfg.top tid = some (.command .poll) → choice = .leave → cfg.shared.run = false) ∧
      (cfg.top tid = some (.start .set) → ¬ Tested cfg)
  | .env _ => True

/-- Nor does a control message fail at a moment that deadlocks `Fatal`. -/
def EndSafe (cfg : Recorder) (action : Action Tid Choice ℕ) : Prop :=
  HangUpSafe cfg action ∧ CallbackSafe cfg action

/-- On the way to clear `m_run`. -/
def headsForTerminate : Frame → Bool
  | .fatal (.lock _) | .fatal (.test _) | .terminate => true
  | _ => false

/-- What is known of `m_run`: a fatal error clears it, and so does everything else that ends
`Commands::Run`. -/
structure RunLaw (cfg : Recorder) : Prop where
  fatal : cfg.shared.fatal = true → cfg.shared.run = false ∨
    ∃ tid, cfg.top tid = some .terminate ∧ .fatal .unlock ∈ cfg.stack tid
  leaving : .command .exit ∈ cfg.stack .commands → cfg.shared.run = false ∨
    ∃ frame, cfg.top .commands = some frame ∧ headsForTerminate frame = true
  exited : cfg.shared.commandsExited = true → cfg.shared.run = false

theorem runLaw_initial (now : ℤ) : RunLaw (initial now) where
  fatal hfatal := by simp [initial, Shared.initial] at hfatal
  leaving hmem := by simp [initial, Tid.entry] at hmem
  exited hexited := by simp [initial, Shared.initial] at hexited

theorem runLaw_fatal_step (hlaw : RunLaw cfg) (hstack : cfg.stack tid = frame :: rest)
    (hexec : exec tid frame choice cfg.shared = some (s', frames)) (hfatal : s'.fatal = true) :
    s'.run = false ∨ ∃ other,
      Config.top ⟨s', Function.update cfg.stack tid (frames ++ rest)⟩ other = some .terminate ∧
        .fatal .unlock ∈ Function.update cfg.stack tid (frames ++ rest) other := by
  have hverdict := verdictStep hexec
  rcases hverdict.fatal with ⟨hsame, -⟩ | ⟨msg, rfl, -, -, -, rfl⟩
  · rcases hlaw.fatal (hsame ▸ hfatal) with hrun | ⟨other, htop, hmem⟩
    · exact .inl (hverdict.run hrun)
    · by_cases hother : other = tid
      · subst hother
        obtain rfl : frame = .terminate := Option.some.inj ((top_of_stack hstack).symm.trans htop)
        exact .inl (hverdict.terminates rfl)
      · refine .inr ⟨other, by rwa [top_of_ne hother], ?_⟩
        rwa [Function.update_of_ne hother]
  · exact .inr ⟨tid, by simp [Config.top], by simp⟩

/-- `Commands::Run` is about to return because `m_run` is false, or it calls `Fatal` first. -/
theorem run_of_exit (hok : HangUpSafe cfg (.thread tid choice))
    (hstack : cfg.stack tid = frame :: rest)
    (hexec : exec tid frame choice cfg.shared = some (s', frames))
    (hmem : .command .exit ∈ frames) :
    s'.run = false ∨ ∃ msg, frames.head? = some (.fatal (.lock msg)) := by
  have hroutine : frame.routine = .command :=
    (((exec_shape hexec).routine _ hmem).resolve_left (by simp [Frame.isEntry])).symm
  obtain ⟨point, rfl⟩ : ∃ point, frame = .command point := by
    cases frame <;> simp_all [Frame.routine]
  have hstep := advance_of_exec rfl hexec
  cases point with
  | loop =>
      simp only [advance, commandStep] at hstep
      split at hstep
      case isTrue =>
        cases hstep
        simp at hmem
      case isFalse hrun =>
        cases hstep
        exact .inl (by simpa using hrun)
  | poll =>
      simp only [advance, commandStep] at hstep
      split at hstep
      case h_2 =>
        cases hstep
        exact .inl (hok.1 (top_of_stack hstack) rfl)
      case h_3 =>
        cases hstep
        exact .inr ⟨_, rfl⟩
      case h_4 request =>
        split at hstep <;> cases hstep
        rcases requestFrames_eq request with h | h | h | ⟨on, h⟩ | h | h | h <;> simp [h] at hmem
      all_goals cases hstep
      simp at hmem
  | replyLock =>
      simp only [advance, commandStep] at hstep
      split at hstep <;> cases hstep
      simp at hmem
  | replyUnlock | xonReply on | xonSet on | exit =>
      cases hstep
      simp at hmem

theorem runLaw_leaving_step (hshape : WellShaped cfg) (hlaw : RunLaw cfg)
    (hok : HangUpSafe cfg (.thread tid choice)) (hstack : cfg.stack tid = frame :: rest)
    (hexec : exec tid frame choice cfg.shared = some (s', frames))
    (hmem : .command .exit ∈ Function.update cfg.stack tid (frames ++ rest) .commands) :
    s'.run = false ∨ ∃ new,
      Config.top ⟨s', Function.update cfg.stack tid (frames ++ rest)⟩ .commands = some new ∧
        headsForTerminate new = true := by
  have hverdict := verdictStep hexec
  by_cases htid : tid = .commands
  case neg =>
    rw [Function.update_of_ne (Ne.symm htid)] at hmem
    rw [top_of_ne (Ne.symm htid)]
    exact (hlaw.leaving hmem).imp_left hverdict.run
  subst htid
  rw [Function.update_self] at hmem
  rcases List.mem_append.mp hmem with hnew | hrest
  · refine (run_of_exit hok hstack hexec hnew).imp_right fun hraised => ?_
    obtain ⟨msg, hhead⟩ := hraised
    exact ⟨.fatal (.lock msg), by simp [Config.top, hhead], rfl⟩
  · -- `Fatal` has been called
    have hold : .command .exit ∈ cfg.stack .commands := hstack ▸ List.mem_cons_of_mem _ hrest
    rcases hlaw.leaving hold with hrun | ⟨top, htop, hheads⟩
    · exact .inl (hverdict.run hrun)
    obtain rfl : frame = top := Option.some.inj ((top_of_stack hstack).symm.trans htop)
    cases frame with
    | terminate => exact .inl (hverdict.terminates rfl)
    | fatal point =>
        have hstep := advance_of_exec rfl hexec
        cases point with
        | lock msg =>
            simp only [advance, fatalStep] at hstep
            split at hstep <;> cases hstep
            exact .inr ⟨.fatal (.test msg), by simp [Config.top], rfl⟩
        | test msg =>
            simp only [advance, fatalStep] at hstep
            split at hstep
            case isFalse =>
              cases hstep
              exact .inr ⟨.terminate, by simp [Config.top], rfl⟩
            case isTrue hfatal =>
              cases hstep
              refine (hlaw.fatal hfatal).imp_right fun hraised => ?_
              obtain ⟨other, hother, hmem⟩ := hraised
              -- only the thread itself could be the one that has raised the error
              obtain rfl : other = .commands := hshape.run.unique hmem rfl
                (hstack ▸ List.mem_cons_self) rfl
              rw [top_of_stack hstack] at hother
              cases hother
        | unlock => cases hheads
    | _ => cases hheads

theorem runLaw (hreach : recorder.ReachableBy HangUpSafe cfg) : RunLaw cfg := by
  refine recorder_invariant hreach runLaw_initial
    (fun _ _ hlaw => ⟨hlaw.fatal, hlaw.leaving, hlaw.exited⟩) ?_
  intro cfg tid choice frame rest s' frames hprior hlaw hok hstack hexec
  have hshape := wellShaped hprior
  refine ⟨runLaw_fatal_step hlaw hstack hexec, runLaw_leaving_step hshape hlaw hok hstack hexec,
    fun hexited => ?_⟩
  rcases (exec_effects hexec).exited with hsame | ⟨rfl, -⟩
  · exact (verdictStep hexec).run (hlaw.exited (hsame ▸ hexited))
  · obtain rfl := eq_commands (hshape.top_role hstack rfl)
    rcases hlaw.leaving (hstack ▸ List.mem_cons_self) with hrun | ⟨top, htop, hheads⟩
    · exact (verdictStep hexec).run hrun
    · obtain rfl : .command .exit = top := Option.some.inj ((top_of_stack hstack).symm.trans htop)
      cases hheads

/-- `~MythTV` is past its own test of `m_streaming`, or has returned. -/
def Finishing (cfg : Recorder) : Prop := Tested cfg ∨ cfg.stack .main = []

/-- What it finds set then it is about to clear. -/
def StopLaw (cfg : Recorder) : Prop :=
  Finishing cfg → cfg.shared.streaming = true →
    cfg.base .main = some (.dtor .joinCommands) ∧ cfg.Inside (isStopping ·) .main

/-- In the destructor by itself, `main` is past its test. -/
theorem finishing_of_dtor {point : DtorPoint} (hstack : cfg.stack .main = [.dtor point]) :
    Finishing cfg :=
  .inl ⟨⟨point, by simp [Config.base, hstack]⟩, by simp [hstack], by simp [hstack]⟩

theorem finishing_before (hshape : WellShaped cfg) (hstack : cfg.stack tid = frame :: rest)
    (hexec : exec tid frame choice cfg.shared = some (s', frames))
    (hfinishing : Finishing ⟨s', Function.update cfg.stack tid (frames ++ rest)⟩) :
    Finishing cfg ∨ tid = .main ∧ cfg.stack tid = [.stop .test, .dtor .joinCommands] := by
  rcases hfinishing with htested | hnil
  · exact (tested_before hshape hstack hexec htested).imp_left .inl
  · left
    by_cases htid : tid = .main
    case neg =>
      right
      simpa [Function.update_of_ne (Ne.symm htid)] using hnil
    subst htid
    obtain ⟨rfl, rfl⟩ : frames = [] ∧ rest = [] := by simpa using hnil
    rcases hshape.main_singleton hstack with ⟨point, rfl⟩ | ⟨point, rfl⟩
    · have hstep := advance_of_exec rfl hexec
      cases point <;> simp only [advance, waitStep] at hstep <;> (try split at hstep) <;>
        cases hstep
    · exact finishing_of_dtor hstack

/-- While `main` has something to stop, it goes on to clear the flag. -/
theorem isStopping_step (hsound : Sound cfg)
    (hbase : cfg.base .main = some (.dtor .joinCommands))
    (hstack : cfg.stack .main = frame :: rest)
    (hexec : exec .main frame choice cfg.shared = some (s', frames))
    (hstopping : isStopping frame = true) (hstreaming : s'.streaming = true) :
    ∃ new ∈ frames, isStopping new = true := by
  have hquiet : frame.isHardware = false := by
    cases frame with
    | stop point => cases point <;> simp_all [isStopping, Frame.isHardware]
    | _ => simp [isStopping] at hstopping
  have hstep := advance_of_exec hquiet hexec
  have hready (hsame : s'.streaming = cfg.shared.streaming) : cfg.shared.ready = true :=
    hsound.streaming (hsame ▸ hstreaming)
  cases frame with
  | stop point =>
      cases point with
      | ready =>
          simp only [advance, stopStep] at hstep
          split at hstep
          case isTrue =>
            cases hstep
            exact ⟨_, List.mem_singleton_self _, rfl⟩
          case isFalse hnot =>
            cases hstep
            exact absurd (hready rfl) hnot
      | lock =>
          simp only [advance, stopStep] at hstep
          split at hstep <;> cases hstep
          exact ⟨_, List.mem_singleton_self _, rfl⟩
      | dev =>
          simp only [advance, stopStep] at hstep
          split at hstep
          case isTrue hnone =>
            cases hstep
            rcases hsound.device (hready rfl) with hdev | hdeleting
            · simp [hnone] at hdev
            · simp [hbase, isDeleting] at hdeleting
          case isFalse =>
            cases hstep
            exact ⟨_, List.mem_singleton_self _, rfl⟩
      | unlock =>
          cases hstep
          exact ⟨_, List.mem_singleton_self _, rfl⟩
      | clear =>
          cases hstep
          cases hstreaming
      | _ => simp [isStopping] at hstopping
  | _ => simp [isStopping] at hstopping

theorem stopLaw_step (hshape : WellShaped cfg) (hsound : Sound cfg) (hlaw : StopLaw cfg)
    (hok : HangUpSafe cfg (.thread tid choice)) (hstack : cfg.stack tid = frame :: rest)
    (hexec : exec tid frame choice cfg.shared = some (s', frames)) :
    StopLaw ⟨s', Function.update cfg.stack tid (frames ++ rest)⟩ := by
  intro hfinishing hstreaming
  have hsame (hnot : frame ≠ .start .set) : cfg.shared.streaming = true := by
    rcases (exec_effects hexec).streaming with ⟨hsame, -⟩ | ⟨-, hclear, -⟩ | ⟨hset, -⟩
    · rw [← hsame]
      exact hstreaming
    · exact absurd hstreaming (by simp [hclear])
    · exact absurd hset hnot
  rcases finishing_before hshape hstack hexec hfinishing with hbefore | ⟨rfl, htest⟩
  · have hnot : frame ≠ .start .set := by
      rintro rfl
      rcases hbefore with htested | hnil
      · exact hok.2 (top_of_stack hstack) htested
      · obtain rfl := eq_commands (hshape.top_role hstack rfl)
        have hgone := hsound.exited (hsound.joined (by simp [Config.base, hnil, isPastJoin]))
        simp [hgone] at hstack
    obtain ⟨hbase, hinside⟩ := hlaw hbefore (hsame hnot)
    refine ⟨(base_of_stop hshape hstack (fun _ => kind_of_isStopping) hinside).trans hbase, ?_⟩
    by_cases htid : tid = .main
    case neg =>
      rw [Machine.inside_update_of_ne (Ne.symm htid)]
      exact hinside
    subst htid
    rw [Machine.inside_update_self]
    obtain ⟨inner, hmem, hinner⟩ := hinside
    rw [hstack] at hmem
    rcases List.mem_cons.mp hmem with rfl | hrest
    · exact .inl (isStopping_step hsound hbase hstack hexec hinner hstreaming)
    · obtain ⟨kind, hcalls⟩ := hshape.calls_of_mem_rest hstack hrest
      simp [calls_of_isStopping kind hinner] at hcalls
  · -- the test itself
    obtain ⟨rfl, rfl⟩ := List.cons.inj (hstack.symm.trans htest)
    have hstep := advance_of_exec rfl hexec
    simp only [advance, stopStep, if_pos (hsame (by simp))] at hstep
    cases hstep
    refine ⟨by simp only [Config.base, Function.update_self]; rfl, ?_⟩
    exact Machine.inside_update_self.mpr (.inl ⟨_, List.mem_singleton_self _, rfl⟩)

theorem stopLaw (hreach : recorder.ReachableBy HangUpSafe cfg) : StopLaw cfg := by
  refine recorder_invariant hreach (fun now _ hstreaming => ?_) (fun _ _ hlaw => hlaw) ?_
  · simp [initial, Shared.initial] at hstreaming
  · intro cfg tid choice frame rest s' frames hprior hlaw hok hstack hexec
    exact stopLaw_step (wellShaped hprior) (sound hprior) hlaw hok hstack hexec

/-- A capture that is running is announced, or about to be announced or stopped. -/
def CaptureLaw (cfg : Recorder) : Prop :=
  isRunning cfg.shared.captures = true → cfg.shared.streaming = true ∨
    cfg.Inside (isLaunched ·) .commands ∨ ∃ tid, cfg.Inside (isCalling ·) tid

/-- Only a thread that executes a frame of a region may leave it. -/
theorem inside_or_top {region : Frame → Prop} {other : Tid} (hstack : cfg.stack tid = frame :: rest)
    (hinside : cfg.Inside region other) :
    Config.Inside ⟨s', Function.update cfg.stack tid (frames ++ rest)⟩ region other ∨
      other = tid ∧ region frame := by
  by_cases hother : other = tid
  · subst hother
    rw [Machine.inside_update_self]
    rcases (Config.inside_iff hstack).mp hinside with hframe | hrest
    · exact .inr ⟨rfl, hframe⟩
    · exact .inl (.inr hrest)
  · exact .inl ((Machine.inside_update_of_ne hother).mpr hinside)

theorem start_of_isLaunched (hlaunched : isLaunched frame = true) :
    frame = .start .logPorts ∨ frame = .start .set := by
  cases frame with
  | start point => cases point <;> simp_all [isLaunched]
  | _ => simp [isLaunched] at hlaunched

theorem stop_of_isCalling (hcalling : isCalling frame = true) : frame = .stop .call := by
  cases frame with
  | stop point => cases point <;> simp_all [isCalling]
  | _ => simp [isCalling] at hcalling

theorem captureLaw_step (hshape : WellShaped cfg) (hlaw : CaptureLaw cfg)
    (hstack : cfg.stack tid = frame :: rest)
    (hexec : exec tid frame choice cfg.shared = some (s', frames)) :
    CaptureLaw ⟨s', Function.update cfg.stack tid (frames ++ rest)⟩ := by
  intro hrunning
  have henter {region : Frame → Prop} {new : Frame} (hmem : new ∈ frames) (hregion : region new) :
      Config.Inside ⟨s', Function.update cfg.stack tid (frames ++ rest)⟩ region tid :=
    Machine.inside_update_self.mpr (.inl ⟨new, hmem, hregion⟩)
  rcases (exec_effects hexec).captures with hsame | ⟨-, hstopped⟩ | ⟨rfl, hstarted⟩
  · rcases hlaw (hsame ▸ hrunning) with hstreaming | hlaunched | ⟨other, hcalling⟩
    · rcases (exec_effects hexec).streaming with ⟨hkept, -⟩ | ⟨rfl, -, -⟩ | ⟨-, hset, -⟩
      · exact .inl (hkept.trans hstreaming)
      · cases advance_of_exec rfl hexec
        exact .inr (.inr ⟨tid, henter (List.mem_singleton_self _) rfl⟩)
      · exact .inl hset
    · rcases inside_or_top hstack hlaunched with hstays | ⟨rfl, hframe⟩
      · exact .inr (.inl hstays)
      · rcases exec_eq_some_iff.mp hexec with ⟨-, -, -, -, -, rfl⟩ | ⟨-, hstep⟩
        · exact .inr (.inl (henter (by simp) hframe))
        · rcases start_of_isLaunched hframe with rfl | rfl
          · cases hstep
            exact .inr (.inl (henter (List.mem_singleton_self _) rfl))
          · cases hstep
            exact .inl rfl
    · rcases inside_or_top hstack hcalling with hstays | ⟨rfl, hframe⟩
      · exact .inr (.inr ⟨other, hstays⟩)
      · obtain rfl := stop_of_isCalling hframe
        cases advance_of_exec rfl hexec
        simp at hrunning
  · simp [hstopped] at hrunning
  · obtain rfl := eq_commands (hshape.top_role hstack rfl)
    have hgrown : s'.captures ≠ cfg.shared.captures := by simp [hstarted]
    rcases exec_eq_some_iff.mp hexec with ⟨-, -, -, -, rfl, -⟩ | ⟨-, hstep⟩
    · exact absurd rfl hgrown
    · simp only [advance, startStep] at hstep
      split at hstep <;> cases hstep
      · exact .inr (.inl (henter (List.mem_singleton_self _) rfl))
      · exact absurd rfl hgrown

theorem captureLaw (hreach : recorder.Reachable cfg) : CaptureLaw cfg := by
  refine recorder_invariant hreach (fun now hrunning => ?_) (fun _ _ hlaw => hlaw) ?_
  · simp [initial, Shared.initial, isRunning] at hrunning
  · intro cfg tid choice frame rest s' frames hprior hlaw _ hstack hexec
    exact captureLaw_step (wellShaped hprior) hlaw hstack hexec

/-- Without `Commands` the condition is met by every statement. -/
theorem hangUpSafe_of_exited (hshape : WellShaped cfg) (hsound : Sound cfg)
    (hexited : cfg.shared.commandsExited = true) : HangUpSafe cfg (.thread tid choice) := by
  have hgone := hsound.exited hexited
  refine ⟨fun htop => ?_, fun htop => ?_⟩
  all_goals
    obtain ⟨rest, hstack⟩ := List.head?_eq_some_iff.mp htop
    obtain rfl := eq_commands (hshape.top_role hstack rfl)
    simp [hgone] at hstack

/-- Past the destructor's test the recorder is not streaming any more. -/
theorem streaming_of_stopLaw (hlaw : StopLaw cfg)
    (hmain : cfg.stack .main = [] ∨ ∃ point, cfg.stack .main = [.dtor point]) :
    cfg.shared.streaming = false := by
  by_contra hstreaming
  have hfinishing : Finishing cfg := hmain.elim .inr fun ⟨point, hpoint⟩ =>
    finishing_of_dtor hpoint
  obtain ⟨-, inner, hmem, hinner⟩ := hlaw hfinishing (by simpa using hstreaming)
  rcases hmain with hnil | ⟨point, hpoint⟩
  · simp [hnil] at hmem
  · obtain rfl : inner = .dtor point := by simpa [hpoint] using hmem
    cases hinner

/-- A capture that runs on without `Commands` and `m_streaming` is about to be stopped. -/
theorem isCalling_of_captureLaw (hsound : Sound cfg) (hlaw : CaptureLaw cfg)
    (hexited : cfg.shared.commandsExited = true) (hidle : cfg.shared.streaming = false)
    (hrunning : isRunning cfg.shared.captures = true) :
    ∃ tid, cfg.Inside (isCalling ·) tid := by
  rcases hlaw hrunning with hstreaming | ⟨inner, hmem, -⟩ | hcalling
  · simp [hidle] at hstreaming
  · simp [hsound.exited hexited] at hmem
  · exact hcalling

/-- When the threads have returned and nobody holds a mutex, nobody is about to stop it. -/
theorem not_isCalling (hshape : WellShaped cfg) (hreturned : AllReturned cfg)
    (hfree : ∀ mutex, cfg.shared.owner mutex = none) : ¬ ∃ tid, cfg.Inside (isCalling ·) tid := by
  rintro ⟨tid, inner, hmem, hinner⟩
  obtain rfl := stop_of_isCalling hinner
  rcases hshape.caller_of_stop hmem rfl with howner | ⟨rfl, -⟩ | rfl
  · cases (hfree .run).symm.trans howner
  · simp [hreturned.main] at hmem
  · simp [hreturned.commands] at hmem

/-- Where `Commands::Run` has returned, the rest of the recorder comes to its end. -/
theorem exists_end_of_exited (hreach : recorder.ReachableBy EndSafe cfg)
    (hstopped : cfg.shared.run = false) (hexited : cfg.shared.commandsExited = true) :
    ∃ schedule last, (∀ action ∈ schedule, Undisturbed action) ∧
      recorder.run cfg schedule = some last ∧ AllReturned last ∧ last.shared.dev = none ∧
      last.shared.streaming = false ∧ isRunning last.shared.captures = false := by
  let R (state : Recorder) : Prop :=
    recorder.ReachableBy HangUpSafe state ∧ state.shared.commandsExited = true
  have hkeep (state : Recorder) (tid : Tid) (choice : Choice) (next : Recorder) (hR : R state)
      (_ : choice ≠ .usbError) (hstep : recorder.step state (.thread tid choice) = some next) :
      R next := by
    obtain ⟨hprior, hgone⟩ := hR
    have hok : HangUpSafe state (.thread tid choice) :=
      hangUpSafe_of_exited (wellShaped hprior.reachable) (sound hprior.reachable) hgone
    refine ⟨.step hprior hok hstep, ?_⟩
    obtain ⟨frame, rest, s', frames, -, hexec, rfl⟩ := Machine.step_thread_iff.mp hstep
    exact (exec_effects hexec).exited_of hgone
  have hhangUp : recorder.ReachableBy HangUpSafe cfg := hreach.mono fun _ _ => And.left
  have hcallback : recorder.ReachableBy CallbackSafe cfg := hreach.mono fun _ _ => And.right
  obtain ⟨schedule, last, hallowed, hrun, ⟨hlast, hgone⟩, -, hreturned, hfree⟩ :=
    exists_ending hcallback hstopped ⟨hhangUp, hexited⟩ hkeep
  have hsound := sound hlast.reachable
  have hidle := streaming_of_stopLaw (stopLaw hlast) (.inl hreturned.main)
  refine ⟨schedule, last, hallowed, hrun, hreturned, ?_, hidle, ?_⟩
  · exact hsound.finished (by simp [Config.base, hreturned.main])
  · by_contra hrunning
    exact not_isCalling (wellShaped hlast.reachable) hreturned hfree
      (isCalling_of_captureLaw hsound (captureLaw hlast.reachable) hgone hidle
        (by simpa using hrunning))

/-- In a run that meets the conditions the recorder ends with its control channel. -/
theorem channelEnds_of_endSafe (hreach : recorder.ReachableBy EndSafe cfg) :
    ChannelEnds cfg := by
  have hhangUp : recorder.ReachableBy HangUpSafe cfg := hreach.mono fun _ _ => And.left
  have hshape := wellShaped hreach.reachable
  have hrun := (runLaw hhangUp).exited
  refine ⟨hrun, fun hexited tid choice next hends hchoice hstep => ?_,
    fun hexited => exists_end_of_exited hreach (hrun hexited) hexited, fun hexited hmain => ?_⟩
  · obtain ⟨frame, rest, s', frames, hstack, hexec, rfl⟩ := Machine.step_thread_iff.mp hstep
    have hframe : frame ≠ .driver := by
      rintro rfl
      have hrole : tid.role = .encoder := hshape.top_role hstack rfl
      rcases hends with rfl | rfl <;> cases hrole
    rcases exec_eq_some_iff.mp hexec with ⟨husb, -⟩ | ⟨-, hadvance⟩
    · exact absurd husb hchoice
    have hless := stackWork_advance hframe (fun _ => hrun hexited) hadvance
    simp only [Function.update_self, hstack, stackWork, List.map_append, List.sum_append,
      List.map_cons, List.sum_cons] at hless ⊢
    omega
  · have hidle := streaming_of_stopLaw (stopLaw hhangUp) hmain
    exact ⟨hidle, isCalling_of_captureLaw (sound hreach.reachable) (captureLaw hreach.reachable)
      hexited hidle⟩

/-- A poll error of a recorder that is idle. -/
theorem channelEnds_after_pollError :
    ∃ cfg : Recorder, cfg.shared.commandsExited = true ∧ ChannelEnds cfg := by
  have hok (cfg : Recorder) (honly : OnlyCommands cfg)
      (choice : Choice) (hmem : choice ∈ .proceed :: .pollError :: goOn 6) :
      EndSafe cfg (.thread .commands choice) := by
    refine ⟨⟨fun _ hleave => ?_, fun _ htested => ?_⟩, ?_⟩
    · subst hleave
      simp [goOn] at hmem
    · obtain ⟨⟨point, hbase⟩, -⟩ := htested
      simp [Config.base, honly .main (by decide), Tid.entry] at hbase
    · cases choice <;> trivial
  have hrun : (recorder.run (initial 0)
      ((Choice.proceed :: .pollError :: goOn 6).map (.thread .commands))).map
      (fun cfg => cfg.shared.commandsExited) = some true := by rfl
  obtain ⟨cfg, hreach, -, hexited⟩ := exists_reachableBy_of_commands hok hrun
  exact ⟨cfg, hexited, channelEnds_of_endSafe hreach⟩

/-- The device is recording when `stdin` is hung up. -/
def hangUpWhileStreaming : List (Action Tid Choice ℕ) :=
  (startRecording ++ [Choice.proceed, .leave, .proceed]).map (.thread .commands)

theorem not_channelEnds : ¬ ∀ cfg, recorder.Reachable cfg → ChannelEnds cfg := by
  have hrun : (recorder.run (initial 0) hangUpWhileStreaming).map
      (fun cfg => (cfg.shared.commandsExited, cfg.shared.run, cfg.shared.streaming)) =
      some (true, true, true) := by rfl
  obtain ⟨cfg, hreach, hvalue⟩ := System.exists_reachable_of_run (reachableBy_initial 0) hrun
  simp only [Prod.mk.injEq] at hvalue
  obtain ⟨hexited, hrunning, -⟩ := hvalue
  intro hends
  simp [(hends cfg hreach).run hexited] at hrunning

end HauppaugeUSB.MythTV

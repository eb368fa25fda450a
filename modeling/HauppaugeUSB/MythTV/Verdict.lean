/-
# The first fatal error stands

`Fatal` may be called by any thread at any time, also several times: from `Wait`, from
`OpenDev`, from `Commands::Run` and from every control message that fails. The run mutex puts
these calls in an order. The first of them writes `m_fatal_msg` and ends the recorder, and the
others change nothing, so that `m_fatal` and its text always tell of the first one.
-/

import HauppaugeUSB.Concurrency.Observer
import HauppaugeUSB.MythTV.FatalText

namespace HauppaugeUSB.MythTV

open HauppaugeUSB.Concurrency HauppaugeUSB.Commands

variable {tid : Tid} {frame : Frame} {choice : Choice} {s s' : Shared} {frames rest : List Frame}
  {cfg : Recorder} {texts : List String}

/-- The text of a call of `Fatal` that is about to get the run mutex. -/
def Frame.raises : Frame → Option String
  | .fatal (.lock msg) => some msg
  | _ => none

/-- The texts of the calls of `Fatal`, in the order in which they have got the run mutex. -/
def fatalObserver : Observer Recorder (Action Tid Choice ℕ) (List String) where
  start := []
  note texts cfg action _ :=
    match action with
    | .thread tid _ => texts ++ ((cfg.top tid).bind Frame.raises).toList
    | .env _ => texts

/-- The recorder with its calls of `Fatal`. -/
@[reducible]
def fatalRecorder : System (Recorder × List String) (Action Tid Choice ℕ) :=
  recorder.observed fatalObserver

/-- The first fatal error stands: its text is the one that is recorded, and as soon as its call
has let go of the run mutex, the recorder is ending. -/
structure FirstStands (seen : Recorder × List String) : Prop where
  recorded : seen.1.shared.fatal = true → seen.2.head? = some seen.1.shared.fatalMsg
  ending : seen.2 ≠ [] → seen.1.shared.runMutex = none →
    seen.1.shared.fatal = true ∧ seen.1.shared.run = false
  silent : seen.2 = [] → seen.1.shared.fatal = false ∧ seen.1.shared.fatalMsg = ""

/-- How far the first call of `Fatal` has come. -/
inductive FatalStage (cfg : Recorder) : List String → Prop
  /-- There is none, so nobody is past its `lock`. -/
  | silent (hfatal : cfg.shared.fatal = false) (hmsg : cfg.shared.fatalMsg = "")
      (hnone : ∀ tid msg, cfg.top tid ≠ some (.fatal (.test msg))) : FatalStage cfg []
  /-- It has the mutex. -/
  | asked (tid : Tid) (msg : String) (rest : List Frame) (hfatal : cfg.shared.fatal = false)
      (howner : cfg.shared.runMutex = some tid)
      (hstack : cfg.stack tid = .fatal (.test msg) :: rest) : FatalStage cfg [msg]
  /-- It has recorded its text and calls `Terminate`. -/
  | raised (tid : Tid) (msg : String) (rest : List Frame) (hfatal : cfg.shared.fatal = true)
      (hmsg : cfg.shared.fatalMsg = msg) (howner : cfg.shared.runMutex = some tid)
      (hstack : cfg.stack tid = .terminate :: rest) : FatalStage cfg [msg]
  /-- `m_run` is false. -/
  | stands (later : List String) (hfatal : cfg.shared.fatal = true)
      (hrun : cfg.shared.run = false) : FatalStage cfg (cfg.shared.fatalMsg :: later)

/-- `Fatal` tests `m_fatal` after it has got the mutex. -/
theorem lock_of_test {msg : String} (hexec : exec tid frame choice s = some (s', frames))
    (hmem : .fatal (.test msg) ∈ frames) : frame = .fatal (.lock msg) := by
  have hroutine : frame.routine = .fatal :=
    (((exec_shape hexec).routine _ hmem).resolve_left (by simp [Frame.isEntry])).symm
  cases frame <;> simp only [Frame.routine, reduceCtorEq] at hroutine
  rename_i point
  have hstep : fatalStep tid s point = some (s', frames) := advance_of_exec rfl hexec
  cases point <;> simp only [fatalStep] at hstep <;> (try split at hstep) <;> cases hstep <;>
    simp_all

/-- A thread gets to the test of `m_fatal` in no other way. -/
theorem lock_of_top {msg : String} (hshape : WellShaped cfg)
    (hstack : cfg.stack tid = frame :: rest)
    (hexec : exec tid frame choice cfg.shared = some (s', frames))
    (htop : Config.top ⟨s', Function.update cfg.stack tid (frames ++ rest)⟩ tid =
      some (.fatal (.test msg))) : frame = .fatal (.lock msg) := by
  rcases top_after htop with hhead | ⟨-, hhead⟩
  · exact lock_of_test hexec (List.mem_of_head? hhead)
  · obtain ⟨kind, hcalls⟩ := hshape.calls_of_mem_rest hstack (List.mem_of_head? hhead)
    simp [calls] at hcalls

/-- While a thread holds the run mutex, the steps of the others neither raise an error nor
record one. -/
theorem verdict_kept {owner : Tid} (hshape : WellShaped cfg)
    (howner : cfg.shared.runMutex = some owner) (hother : tid ≠ owner)
    (hstack : cfg.stack tid = frame :: rest)
    (hexec : exec tid frame choice cfg.shared = some (s', frames)) :
    frame.raises = none ∧ s'.runMutex = some owner ∧ s'.fatal = cfg.shared.fatal ∧
      s'.fatalMsg = cfg.shared.fatalMsg := by
  have hhere : runView.holds frame = true → runView.owner cfg.shared = some tid :=
    hshape.run.owner_of_mem (hstack ▸ List.mem_cons_self)
  have hkept : s'.runMutex = some owner :=
    (runView_accounted.others hexec hhere owner (Ne.symm hother)).mpr howner
  refine ⟨?_, hkept, ?_⟩
  · cases hraises : frame.raises with
    | none => rfl
    | some msg =>
        obtain rfl : frame = .fatal (.lock msg) := by
          unfold Frame.raises at hraises
          split at hraises <;> simp_all
        have hstep : fatalStep tid cfg.shared (.lock msg) = some (s', frames) :=
          advance_of_exec rfl hexec
        simp [fatalStep, howner] at hstep
  · rcases (verdictStep hexec).fatal with hsame | ⟨msg, rfl, -⟩
    · exact hsame
    · exact absurd (Option.some.inj ((hhere rfl).symm.trans howner)) hother

theorem fatalStage_step (hshape : WellShaped cfg) (hstage : FatalStage cfg texts)
    (hstack : cfg.stack tid = frame :: rest)
    (hexec : exec tid frame choice cfg.shared = some (s', frames)) :
    FatalStage ⟨s', Function.update cfg.stack tid (frames ++ rest)⟩
      (texts ++ frame.raises.toList) := by
  have hverdict := verdictStep hexec
  cases hstage with
  | silent hfatal hmsg hnone =>
      have htop := top_of_stack hstack
      by_cases hlock : ∃ msg, frame = .fatal (.lock msg)
      · obtain ⟨msg, rfl⟩ := hlock
        have hstep : fatalStep tid cfg.shared (.lock msg) = some (s', frames) :=
          advance_of_exec rfl hexec
        simp only [fatalStep] at hstep
        split at hstep <;> cases hstep
        exact .asked tid msg rest hfatal rfl (by simp)
      · have hraises : frame.raises = none := by
          unfold Frame.raises
          split <;> simp_all
        obtain ⟨hfatal', hmsg'⟩ : s'.fatal = cfg.shared.fatal ∧
            s'.fatalMsg = cfg.shared.fatalMsg := by
          rcases hverdict.fatal with hsame | ⟨msg, rfl, -⟩
          · exact hsame
          · exact absurd htop (hnone tid msg)
        rw [hraises, Option.toList_none, List.append_nil]
        refine .silent (hfatal'.trans hfatal) (hmsg'.trans hmsg) fun other msg hother => ?_
        by_cases hmover : other = tid
        · subst hmover
          exact hlock ⟨msg, lock_of_top hshape hstack hexec hother⟩
        · rw [top_of_ne hmover] at hother
          exact hnone other msg hother
  | asked owner msg below hfatal howner hbelow =>
      by_cases hmover : tid = owner
      · subst hmover
        obtain ⟨rfl, rfl⟩ := List.cons.inj (hstack.symm.trans hbelow)
        have hstep : fatalStep tid cfg.shared (.test msg) = some (s', frames) :=
          advance_of_exec rfl hexec
        simp only [fatalStep, hfatal, Bool.false_eq_true, if_false] at hstep
        cases hstep
        exact .raised tid msg (.fatal .unlock :: rest) rfl rfl howner (by simp)
      · obtain ⟨hraises, hkept, hfatal', -⟩ := verdict_kept hshape howner hmover hstack hexec
        rw [hraises, Option.toList_none, List.append_nil]
        refine .asked owner msg below (hfatal'.trans hfatal) hkept ?_
        simpa [Function.update_of_ne (Ne.symm hmover)] using hbelow
  | raised owner msg below hfatal hmsg howner hbelow =>
      by_cases hmover : tid = owner
      · subst hmover
        obtain ⟨rfl, rfl⟩ := List.cons.inj (hstack.symm.trans hbelow)
        have hstep : terminateStep cfg.shared = some (s', frames) := advance_of_exec rfl hexec
        cases hstep
        subst hmsg
        exact .stands [] hfatal rfl
      · obtain ⟨hraises, hkept, hfatal', hmsg'⟩ := verdict_kept hshape howner hmover hstack hexec
        rw [hraises, Option.toList_none, List.append_nil]
        refine .raised owner msg below (hfatal'.trans hfatal) (hmsg'.trans hmsg) hkept ?_
        simpa [Function.update_of_ne (Ne.symm hmover)] using hbelow
  | stands later hfatal hrun =>
      obtain ⟨hfatal', hmsg'⟩ : s'.fatal = cfg.shared.fatal ∧
          s'.fatalMsg = cfg.shared.fatalMsg := by
        rcases hverdict.fatal with hsame | ⟨msg, -, hunset, -⟩
        · exact hsame
        · simp [hfatal] at hunset
      rw [List.cons_append, ← hmsg']
      exact .stands _ (hfatal'.trans hfatal) (hverdict.run hrun)

/-- Time does not matter. -/
theorem FatalStage.pass (hstage : FatalStage cfg texts) (elapsed : ℕ) :
    FatalStage ⟨machine.env elapsed cfg.shared, cfg.stack⟩ texts := by
  cases hstage with
  | silent hfatal hmsg hnone => exact .silent hfatal hmsg hnone
  | asked owner msg below hfatal howner hbelow =>
      exact .asked owner msg below hfatal howner hbelow
  | raised owner msg below hfatal hmsg howner hbelow =>
      exact .raised owner msg below hfatal hmsg howner hbelow
  | stands later hfatal hrun => exact .stands later hfatal hrun

theorem fatalStage {seen : Recorder × List String} (hreach : fatalRecorder.Reachable seen) :
    FatalStage seen.1 seen.2 := by
  refine System.ReachableBy.observed_invariant (P := fun seen => FatalStage seen.1 seen.2) hreach
    ?_ ?_
  · rintro _ ⟨now, rfl⟩
    refine .silent rfl rfl fun tid msg htop => ?_
    cases tid <;> simp [initial, Config.top, Tid.entry] at htop
  · intro state texts action next hprior hstage _ hstep
    cases action with
    | env elapsed =>
        obtain rfl := Machine.step_env_iff.mp hstep
        exact hstage.pass elapsed
    | thread tid choice =>
        obtain ⟨frame, rest, s', frames, hstack, hexec, rfl⟩ := Machine.step_thread_iff.mp hstep
        have hnext := fatalStage_step (wellShaped hprior) hstage hstack hexec
        simpa [fatalObserver, top_of_stack hstack] using hnext

theorem FatalStage.firstStands (hstage : FatalStage cfg texts) : FirstStands (cfg, texts) := by
  cases hstage with
  | silent hfatal hmsg hnone =>
      exact ⟨fun h => absurd (hfatal.symm.trans h) (by simp), fun h => absurd rfl h,
        fun _ => ⟨hfatal, hmsg⟩⟩
  | asked owner msg below hfatal howner hbelow =>
      exact ⟨fun h => absurd (hfatal.symm.trans h) (by simp),
        fun _ h => absurd (howner.symm.trans h) (by simp), fun h => by cases h⟩
  | raised owner msg below hfatal hmsg howner hbelow =>
      exact ⟨fun _ => congrArg some hmsg.symm,
        fun _ h => absurd (howner.symm.trans h) (by simp), fun h => by cases h⟩
  | stands later hfatal hrun =>
      exact ⟨fun _ => rfl, fun _ _ => ⟨hfatal, hrun⟩, fun h => by cases h⟩

/-- A recorder that has failed is ending as soon as the run mutex is free. -/
theorem run_of_fatal (hreach : recorder.Reachable cfg) (hfatal : cfg.shared.fatal = true)
    (hfree : cfg.shared.runMutex = none) : cfg.shared.run = false := by
  obtain ⟨texts, hseen⟩ := hreach.exists_observed (O := fatalObserver)
  have hstands : FirstStands (cfg, texts) := (fatalStage hseen).firstStands
  have hraised : texts ≠ [] := fun hnone =>
    absurd (hfatal.symm.trans (hstands.silent hnone).1) (by simp)
  exact (hstands.ending hraised hfree).2

/-- In every run the first fatal error stands. -/
theorem firstFatal_stands {seen : Recorder × List String} (hreach : fatalRecorder.Reachable seen) :
    FirstStands seen :=
  (fatalStage hreach).firstStands

/-- While a recording is running, two encoder threads find the USB device gone, and `poll`
reports an error. -/
def failThrice : List (Action Tid Choice ℕ) :=
  (startRecording ++ goOn 1).map (.thread .commands) ++
    [.thread (.encoder 0) .usbError, .thread (.encoder 1) .usbError,
      .thread .commands .pollError] ++
    (goOn 10).map (.thread .commands) ++ [.thread .commands (.answer true)] ++
    (goOn 2).map (.thread .commands) ++ (goOn 1).map (.thread (.encoder 0))

theorem firstStands_poll :
    ∃ seen : Recorder × List String, seen.2 = ["poll error", usbErrorMsg] ∧
      seen.1.shared.fatalMsg = "poll error" ∧ FirstStands seen := by
  have hrun : (fatalRecorder.run (initial 0, []) failThrice).map
      (fun seen => (seen.2, seen.1.shared.fatalMsg)) =
      some (["poll error", usbErrorMsg], "poll error") := by rfl
  have hstart : fatalRecorder.Reachable (initial 0, []) := .start ⟨⟨0, rfl⟩, rfl⟩
  obtain ⟨seen, hreach, hvalue⟩ := System.exists_reachable_of_run hstart hrun
  obtain ⟨htexts, hmsg⟩ := Prod.mk.inj hvalue
  exact ⟨seen, htexts, hmsg, firstFatal_stands hreach⟩

end HauppaugeUSB.MythTV

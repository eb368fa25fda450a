/-
# The watchdog

`Wait` compares the heartbeat of `Buffer::Fill` with the clock in every turn of its loop that
finds `m_streaming` set. What it must not do is overlook a silent encoder: where no `Fill` has
returned in the sixty seconds before a turn nor in the turn itself, the recorder is ending with
a fatal error once the turn has ended. That holds although the clock and the heartbeat are read
one after the other and the other threads go on meanwhile. The heartbeat itself may go back,
when a `Fill` that was overtaken stores what it has read long ago; but what it says is never
later than the return of the `Fill` that has stored it. And it holds although somebody else may
raise a fatal error at the same time, because `Fatal` does not return before that one is dealt
with.
-/

import HauppaugeUSB.MythTV.Verdict
import HauppaugeUSB.MythTV.Wedge

namespace HauppaugeUSB.MythTV

open HauppaugeUSB.Concurrency HauppaugeUSB.Commands

variable {tid : Tid} {frame : Frame} {choice : Choice} {s s' : Shared} {frames rest : List Frame}
  {cfg : Recorder} {checked : Option ℤ}

/-- When `Wait` last tested `m_streaming`, if it found it set. -/
def watchObserver : Observer Recorder (Action Tid Choice ℕ) (Option ℤ) where
  start := none
  note checked cfg action _ :=
    match action with
    | .thread tid _ =>
        if cfg.top tid = some (.wait .streaming) then
          if cfg.shared.streaming then some cfg.shared.now else none
        else checked
    | .env _ => checked

/-- The recorder with a note of the turn that `Wait` is in. -/
@[reducible]
def watchedRecorder : System (Recorder × Option ℤ) (Action Tid Choice ℕ) :=
  recorder.observed watchObserver

/-- A turn of `Wait` that began while the recorder was streaming has ended the recorder if no
`Fill` has returned since sixty seconds before the turn, and the recorder is older than that. -/
def DetectsWedge (seen : Recorder × Option ℤ) : Prop :=
  ∀ began ∈ seen.2, seen.1.stack .main = [.wait .lock] →
    seen.1.shared.built < began - wedgeLimit →
      (∀ time ∈ seen.1.shared.completions, time < began - wedgeLimit) →
        seen.1.shared.fatal = true ∧ seen.1.shared.run = false

/-- What `Wait` knows at each point of a turn. -/
structure WatchLaw (seen : Recorder × Option ℤ) : Prop where
  clock : seen.1.top .main = some (.wait .clock) → ∃ began ∈ seen.2, began ≤ seen.1.shared.now
  heart : ∀ limit, seen.1.top .main = some (.wait (.heart limit)) →
    ∃ began ∈ seen.2, began - wedgeLimit ≤ limit
  turn : DetectsWedge seen

/-- `Fatal` returns only when `m_fatal` is set. -/
def ReturnLaw (cfg : Recorder) : Prop :=
  cfg.AllFrames fun _ frame s => frame = .fatal .unlock → s.fatal = true

theorem returnLaw (hreach : recorder.Reachable cfg) : ReturnLaw cfg := by
  refine recorder_invariant hreach (fun now tid frame hmem hframe => ?_)
    (fun _ _ hlaw => hlaw) ?_
  · cases tid <;> simp_all [initial, Tid.entry]
  intro cfg tid choice frame rest s' frames hprior hlaw _ hstack hexec
  have hfatal := (exec_effects hexec).fatal_of
  refine Machine.allFrames_of_exec hstack hlaw (fun new hnew hunlock => ?_)
    (fun _ _ hold hunlock => hfatal (hold hunlock))
    fun _ _ _ _ hold hunlock => hfatal (hold hunlock)
  subst hunlock
  rcases next_of_mem hexec hnew with hentry | ⟨rfl, -⟩ | ⟨hroutine, hstep⟩
  · simp [Frame.isEntry] at hentry
  · exact hfatal (hlaw tid _ (hstack ▸ List.mem_cons_self) rfl)
  · cases frame <;> simp only [Frame.routine, reduceCtorEq] at hroutine
    rename_i point
    cases point <;> simp only [advance, fatalStep] at hstep <;> (try split at hstep) <;>
      cases hstep <;> simp_all

/-- When `Fatal` is about to return, the recorder is ending, whoever has raised the error. -/
theorem ending_of_unlock (hreach : recorder.Reachable cfg)
    (hstack : cfg.stack tid = .fatal .unlock :: rest) :
    cfg.shared.fatal = true ∧ cfg.shared.run = false := by
  have hfatal := returnLaw hreach tid _ (hstack ▸ List.mem_cons_self) rfl
  obtain ⟨texts, hseen⟩ := hreach.exists_observed (O := fatalObserver)
  have hstage : FatalStage cfg texts := fatalStage hseen
  refine ⟨hfatal, ?_⟩
  cases hstage with
  | silent hnone => simp [hnone] at hfatal
  | asked owner msg below hnone => simp [hnone] at hfatal
  | raised owner msg below _ _ howner hbelow =>
      -- The thread that has raised the error holds the mutex, and so does this one.
      have hhere : cfg.shared.runMutex = some tid :=
        (wellShaped hreach).run.owner_of_mem (hstack ▸ List.mem_cons_self) rfl
      obtain rfl := Option.some.inj (hhere.symm.trans howner)
      cases hstack.symm.trans hbelow
  | stands later _ hrun => exact hrun

/-- What the heartbeat says is not later than the construction or the return of a `Fill`. -/
structure HeartLaw (cfg : Recorder) : Prop where
  stores : cfg.AllFrames fun _ frame s => ∀ time ∈ storeTime (some frame), time ≤ s.now
  heard : cfg.shared.heartbeat = cfg.shared.built ∨
    ∃ time ∈ cfg.shared.completions, cfg.shared.heartbeat ≤ time

/-- `Fill` is about to store what it has just read from the clock. -/
theorem storeTime_le_of_mem (hexec : exec tid frame choice s = some (s', frames)) {new : Frame}
    (hnew : new ∈ frames) (hstores : ∀ time ∈ storeTime (some frame), time ≤ s.now) :
    ∀ time ∈ storeTime (some new), time ≤ s'.now := by
  intro time htime
  obtain ⟨call, rfl⟩ : ∃ call, new = .fill (.store call time) := by
    unfold storeTime at htime
    split at htime <;> simp_all
  rcases next_of_mem hexec hnew with hentry | ⟨rfl, -⟩ | ⟨hroutine, hstep⟩
  · simp [Frame.isEntry] at hentry
  · exact (exec_effects hexec).now ▸ hstores time rfl
  · cases frame <;> simp only [Frame.routine, reduceCtorEq] at hroutine
    rename_i point
    cases point <;> simp only [advance, fillStep] at hstep <;> (try split at hstep) <;>
      (try split at hstep) <;> cases hstep <;> simp at hnew
    exact hnew.2 ▸ Int.le_refl _

theorem heartLaw (hreach : recorder.Reachable cfg) : HeartLaw cfg := by
  refine recorder_invariant hreach (fun now => ⟨fun tid frame hmem => ?_, .inl rfl⟩)
    (fun cfg elapsed hlaw => ⟨fun tid frame hmem time htime => ?_, hlaw.heard⟩) ?_
  · cases tid <;> simp_all [initial, Tid.entry, storeTime]
  · have hbefore := hlaw.stores tid frame hmem time htime
    have helapsed := Int.natCast_nonneg elapsed
    simp only
    omega
  intro cfg tid choice frame rest s' frames hprior hlaw _ hstack hexec
  have heffects := exec_effects hexec
  have hhere := hlaw.stores tid frame (hstack ▸ List.mem_cons_self)
  refine ⟨Machine.allFrames_of_exec hstack hlaw.stores
    (fun new hnew => storeTime_le_of_mem hexec hnew hhere)
    (fun _ _ hold time htime => heffects.now ▸ hold time htime)
    fun _ _ _ _ hold time htime => heffects.now ▸ hold time htime, ?_⟩
  rcases heffects.heart with ⟨hbeat, hcompletions⟩ | ⟨call, time, rfl, hbeat, hcompletions⟩
  · simp only [hbeat, hcompletions, heffects.built]
    exact hlaw.heard
  · refine .inr ⟨cfg.shared.now, by simp [hcompletions], ?_⟩
    exact hbeat ▸ hhere time rfl

/-- Where no `Fill` has returned after a time the heartbeat is from before it. -/
theorem HeartLaw.heartbeat_lt (hheart : HeartLaw cfg) {time : ℤ} (hbuilt : cfg.shared.built < time)
    (hcompletions : ∀ returned ∈ cfg.shared.completions, returned < time) :
    cfg.shared.heartbeat < time := by
  rcases hheart.heard with hfirst | ⟨returned, hmem, hle⟩
  · exact hfirst ▸ hbuilt
  · exact Int.lt_of_le_of_lt hle (hcompletions returned hmem)

/-- A turn that has ended stays as it has ended. -/
theorem detectsWedge_kept (hturn : DetectsWedge (cfg, checked))
    (hmain : cfg.stack .main = [.wait .lock])
    (hexec : exec tid frame choice cfg.shared = some (s', frames)) :
    ∀ began ∈ checked, s'.built < began - wedgeLimit →
      (∀ time ∈ s'.completions, time < began - wedgeLimit) → s'.fatal = true ∧ s'.run = false := by
  intro began hbegan hbuilt hcompletions
  have heffects := exec_effects hexec
  have hbefore : ∀ time ∈ cfg.shared.completions, time < began - wedgeLimit := by
    intro time htime
    rcases heffects.heart with ⟨-, hsame⟩ | ⟨-, -, -, -, hmore⟩
    · exact hcompletions time (hsame ▸ htime)
    · exact hcompletions time (hmore ▸ List.mem_append_left _ htime)
  obtain ⟨hfatal, hrun⟩ := hturn began hbegan hmain (heffects.built ▸ hbuilt) hbefore
  exact ⟨heffects.fatal_of hfatal, (verdictStep hexec).run hrun⟩

/-- The other threads do not take part in it. -/
theorem watchLaw_other (hshape : WellShaped cfg)
    (hlaw : WatchLaw (cfg, checked)) (htid : tid ≠ .main) (hstack : cfg.stack tid = frame :: rest)
    (hexec : exec tid frame choice cfg.shared = some (s', frames)) :
    WatchLaw (⟨s', Function.update cfg.stack tid (frames ++ rest)⟩,
      watchObserver.note checked cfg (.thread tid choice)
        ⟨s', Function.update cfg.stack tid (frames ++ rest)⟩) := by
  have hnote : ¬ cfg.top tid = some (.wait .streaming) := by
    rw [top_of_stack hstack]
    rintro ⟨⟩
    exact htid (eq_main (hshape.top_role hstack rfl))
  simp only [watchObserver, if_neg hnote]
  have htop : Config.top ⟨s', Function.update cfg.stack tid (frames ++ rest)⟩ .main =
      cfg.top .main := top_of_ne (Ne.symm htid)
  refine ⟨fun hclock => ?_, fun limit hlimit => ?_, fun began hbegan hmain => ?_⟩
  · rw [(exec_effects hexec).now]
    exact hlaw.clock (htop ▸ hclock)
  · exact hlaw.heart limit (htop ▸ hlimit)
  · have hsame : cfg.stack .main = [.wait .lock] :=
      (Function.update_of_ne (Ne.symm htid) _ _).symm.trans hmain
    exact detectsWedge_kept hlaw.turn hsame hexec began hbegan

/-- A statement of `Wait` itself. -/
theorem watchLaw_wait {point : WaitPoint} (hheart : HeartLaw cfg)
    (hlaw : WatchLaw (cfg, checked))
    (hstack : cfg.stack .main = [.wait point])
    (hstep : waitStep .main cfg.shared point = some (s', frames)) :
    WatchLaw (⟨s', Function.update cfg.stack .main (frames ++ [])⟩,
      watchObserver.note checked cfg (.thread .main choice)
        ⟨s', Function.update cfg.stack .main (frames ++ [])⟩) := by
  have htop : cfg.top .main = some (.wait point) := top_of_stack hstack
  have hmoved : Config.top ⟨s', Function.update cfg.stack .main (frames ++ [])⟩ .main =
      frames.head? := by simp [Config.top]
  have hframes : Function.update cfg.stack .main (frames ++ []) .main = frames := by simp
  simp only [watchObserver, htop, Option.some.injEq, Frame.wait.injEq]
  refine ⟨fun hclock => ?_, fun limit hlimit => ?_,
    fun began hbegan hmain hbuilt hcompletions => ?_⟩
  · rw [hmoved] at hclock
    cases point <;> simp only [waitStep] at hstep <;> (try split at hstep) <;> cases hstep <;>
      simp at hclock
    rename_i hstreaming
    exact ⟨cfg.shared.now, by simp [hstreaming], Int.le_refl _⟩
  · rw [hmoved] at hlimit
    cases point <;> simp only [waitStep] at hstep <;> (try split at hstep) <;> cases hstep <;>
      simp at hlimit
    obtain ⟨began, hbegan, hbefore⟩ := hlaw.clock htop
    subst hlimit
    exact ⟨began, by simpa using hbegan, Int.sub_le_sub_right hbefore _⟩
  · replace hmain : frames = [.wait .lock] := hframes.symm.trans hmain
    cases point <;> simp only [waitStep] at hstep <;> (try split at hstep) <;> cases hstep <;>
      simp at hmain
    · rename_i hstreaming
      simp [hstreaming] at hbegan
    · rename_i limit hfresh
      obtain ⟨time, htime, hlimit⟩ := hlaw.heart limit htop
      obtain rfl : time = began := by
        simp only [reduceCtorEq, if_false, Option.mem_def] at hbegan htime
        exact Option.some.inj (htime.symm.trans hbegan)
      have hold := hheart.heartbeat_lt hbuilt hcompletions
      exact absurd (Int.lt_of_lt_of_le hold hlimit) hfresh

/-- A statement of a function that `main` has called, or of the destructor. -/
theorem watchLaw_called (hreach : recorder.Reachable cfg) (hstack : cfg.stack .main = frame :: rest)
    (hframe : frame.routine ≠ .wait)
    (hexec : exec .main frame choice cfg.shared = some (s', frames)) :
    WatchLaw (⟨s', Function.update cfg.stack .main (frames ++ rest)⟩,
      watchObserver.note checked cfg (.thread .main choice)
        ⟨s', Function.update cfg.stack .main (frames ++ rest)⟩) := by
  have hshape := wellShaped hreach
  have hnote : ¬ cfg.top .main = some (.wait .streaming) := by
    rw [top_of_stack hstack]
    rintro ⟨⟩
    exact hframe rfl
  simp only [watchObserver, if_neg hnote]
  have hinner {point : WaitPoint} (htop : Config.top
      ⟨s', Function.update cfg.stack .main (frames ++ rest)⟩ .main = some (.wait point)) :
      frames = [] ∧ rest.head? = some (.wait point) := by
    rcases top_after htop with hhead | hreturn
    · rcases (exec_shape hexec).routine _ (List.mem_of_head? hhead) with hentry | hroutine
      · simp [Frame.isEntry] at hentry
      · exact absurd hroutine.symm hframe
    · exact hreturn
  refine ⟨fun hclock => ?_, fun limit hlimit => ?_,
    fun began hbegan hmain hbuilt hcompletions => ?_⟩
  · obtain ⟨kind, hcalls⟩ :=
      hshape.calls_of_mem_rest hstack (List.mem_of_head? (hinner hclock).2)
    simp [calls] at hcalls
  · obtain ⟨kind, hcalls⟩ :=
      hshape.calls_of_mem_rest hstack (List.mem_of_head? (hinner hlimit).2)
    simp [calls] at hcalls
  · obtain ⟨rfl, hhead⟩ := hinner (top_of_stack hmain)
    obtain ⟨later, rfl⟩ := List.head?_eq_some_iff.mp hhead
    -- `Wait` calls `Fatal` and nothing else.
    have hcalled : calls (.wait .lock) frame.kind = true :=
      calls_of_nested (hstack ▸ hshape.nested .main)
    have hkind : frame.kind = .fatal := by
      cases hkind : frame.kind <;> simp_all [calls]
    obtain ⟨point, rfl⟩ : ∃ point, frame = .fatal point := by
      cases frame with
      | fatal point => exact ⟨point, rfl⟩
      | command point => cases point <;> simp [Frame.kind] at hkind
      | _ => simp [Frame.kind] at hkind
    have hstep : fatalStep .main cfg.shared point = some (s', []) := advance_of_exec rfl hexec
    cases point with
    | lock msg =>
        simp only [fatalStep] at hstep
        split at hstep <;> cases hstep
    | test msg =>
        simp only [fatalStep] at hstep
        split at hstep <;> cases hstep
    | unlock =>
        obtain ⟨hfatal, hrun⟩ := ending_of_unlock hreach hstack
        exact ⟨(exec_effects hexec).fatal_of hfatal, (verdictStep hexec).run hrun⟩

theorem watchLaw {seen : Recorder × Option ℤ} (hreach : watchedRecorder.Reachable seen) :
    WatchLaw seen := by
  refine System.ReachableBy.observed_invariant hreach ?_ ?_
  · rintro _ ⟨now, rfl⟩
    refine ⟨fun hclock => ?_, fun limit hlimit => ?_, fun began hbegan => ?_⟩
    · simp [initial, Config.top, Tid.entry] at hclock
    · simp [initial, Config.top, Tid.entry] at hlimit
    · cases hbegan
  intro state checked action next hprior hlaw _ hstep
  cases action with
  | env elapsed =>
      obtain rfl := Machine.step_env_iff.mp hstep
      have hlater : state.shared.now ≤ state.shared.now + elapsed :=
        Int.le_add_of_nonneg_right (Int.natCast_nonneg elapsed)
      refine ⟨fun hclock => ?_, hlaw.heart, hlaw.turn⟩
      obtain ⟨began, hbegan, hbefore⟩ := hlaw.clock hclock
      exact ⟨began, hbegan, Int.le_trans hbefore hlater⟩
  | thread tid choice =>
      obtain ⟨frame, rest, s', frames, hstack, hexec, rfl⟩ := Machine.step_thread_iff.mp hstep
      have hshape := wellShaped hprior
      by_cases htid : tid = .main
      case neg => exact watchLaw_other hshape hlaw htid hstack hexec
      subst htid
      by_cases hframe : frame.routine = .wait
      case neg => exact watchLaw_called hprior hstack hframe hexec
      cases frame <;> simp only [Frame.routine, reduceCtorEq] at hframe
      obtain rfl := hshape.rest_eq_nil hstack rfl
      exact watchLaw_wait (heartLaw hprior) hlaw hstack (advance_of_exec rfl hexec)

/-- In every run, `Wait` does not overlook a silent encoder. -/
theorem detectsWedge {seen : Recorder × Option ℤ} (hreach : watchedRecorder.Reachable seen) :
    DetectsWedge seen :=
  (watchLaw hreach).turn

/-- The encoder has been silent for a minute, and a control message fails at the same time. -/
theorem detectsWedge_after_minute :
    ∃ seen : Recorder × Option ℤ, seen.2 = some 60000000001 ∧
      seen.1.stack .main = [.wait .lock] ∧ seen.1.shared.built = 0 ∧
      seen.1.shared.completions = [0] ∧ seen.1.shared.fatalMsg = usbErrorMsg ∧
      seen.1.shared.fatal = true ∧ seen.1.shared.run = false := by
  have hrun : (watchedRecorder.run (initial 0, none)
      (startRecording.map (.thread .commands) ++
        (.fill [71] :: goOn 5).map (.thread (.encoder 0)) ++
        .env overAMinute :: checkHeart ++ .thread .main .proceed ::
        (.usbError :: goOn 10 ++ .answer true :: goOn 2).map (.thread (.encoder 0)) ++
        (goOn 3).map (.thread .main))).map
      (fun seen => (seen.2, seen.1.stack .main, seen.1.shared.built, seen.1.shared.completions,
        seen.1.shared.fatalMsg)) =
      some (some 60000000001, [.wait .lock], 0, [0], usbErrorMsg) := by rfl
  have hstart : watchedRecorder.Reachable (initial 0, none) := .start ⟨⟨0, rfl⟩, rfl⟩
  obtain ⟨seen, hreach, hvalue⟩ := System.exists_reachable_of_run hstart hrun
  simp only [Prod.mk.injEq] at hvalue
  obtain ⟨hbegan, hmain, hbuilt, hcompletions, hmsg⟩ := hvalue
  have hturn := detectsWedge hreach 60000000001 (by rw [hbegan]; rfl) hmain
    (by rw [hbuilt]; decide) (by rw [hcompletions]; decide)
  exact ⟨seen, hbegan, hmain, hbuilt, hcompletions, hmsg, hturn⟩

end HauppaugeUSB.MythTV

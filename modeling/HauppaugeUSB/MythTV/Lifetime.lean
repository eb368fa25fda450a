/-
# The lifetime of the device

`m_ready` and `m_streaming` say that there is an open device, and the destructor
deletes it without clearing either. It joins `Commands` and `Buffer` first, but not
the threads of the encoder driver, on which the error callback may be stopping
the encoder. As `Fatal` holds the run mutex all the while, none of them is when
`Wait` returns; one that starts to afterwards, before the destructor has the flow
mutex, may go on to use a deleted device. Later ones find that it is gone.
-/

import HauppaugeUSB.MythTV.Invariants

namespace HauppaugeUSB.MythTV

open HauppaugeUSB.Concurrency HauppaugeUSB.Commands

variable {tid : Tid} {frame : Frame} {choice : Choice} {s s' : Shared} {frames rest : List Frame}
  {cfg : Recorder} {index : ℕ} {point : StopPoint}

/-- What a call through `m_dev` needs: an open device, or one that is there where
`OpenDev` itself calls. -/
def callLaw : Frame → Shared → Prop
  | .stop .call, s | .stop .error, s | .start .call, s | .start .error, s =>
      ∃ dev, s.dev = some dev ∧ dev.phase = .opened
  | .openDev .check, s | .openDev .checkError, s | .openDev .dev, s | .openDev .failed, s =>
      ∃ dev, s.dev = some dev ∧ dev.phase ≠ .deleted
  | _, _ => True

/-- Inside a method of `HauppaugeDev` called through `m_dev`. -/
def inMethod : Frame → Bool
  | .stop .capture | .stop .logPorts => true
  | .start .input | .start .capture | .start .logPorts => true
  | .openDev .dev => true
  | _ => false

/-- Calls through `m_dev` find a device, and `~MythTV` deletes it when no other
thread is inside one of its methods. -/
structure DeviceSafe (cfg : Recorder) : Prop where
  called : ∀ tid frame, cfg.top tid = some frame → callLaw frame cfg.shared
  alone : cfg.top .main = some (.dtor .delete) → ∀ tid, tid ≠ .main →
    ¬ cfg.Inside (inMethod ·) tid

/-- `Wait` has returned and `~MythTV` does not hold the flow mutex yet. -/
def isClosing : Option Frame → Bool
  | some (.dtor .joinCommands) | some (.dtor .joinBuffer) | some (.dtor .lock) => true
  | _ => false

/-- From the return of `Wait` until `~MythTV` has the flow mutex, no `StopEncoding` on
an encoder thread finds `m_streaming` set. -/
def LifetimeSafe (cfg : Recorder) : Action Tid Choice ℕ → Prop
  | .thread (.encoder index) _ =>
      isClosing (cfg.base .main) = true → cfg.top (.encoder index) = some (.stop .test) →
        cfg.shared.streaming = false
  | _ => True

/-- The points of `StopEncoding` at which an encoder thread may be, by the bottom
frame of `main`. -/
def encoderMay : Option Frame → StopPoint → Prop
  | some (.wait _), _ => True
  | some (.dtor .joinCommands), point | some (.dtor .joinBuffer), point
  | some (.dtor .lock), point => point = .test
  | _, point =>
      point = .test ∨ point = .ready ∨ point = .lock ∨ point = .dev ∨ point = .noDev

/-- The same for `main`, when a control message fails in the destructor. -/
def mainMay : Option Frame → StopPoint → Prop
  | some (.dtor .deleting), point => point = .test ∨ point = .ready ∨ point = .lock
  | _, _ => True

/-- The invariant of runs that meet the condition. -/
structure LifetimeLaw (cfg : Recorder) : Prop where
  encoders : ∀ index point, .stop point ∈ cfg.stack (.encoder index) →
    encoderMay (cfg.base .main) point
  main : ∀ point, .stop point ∈ cfg.stack .main → mainMay (cfg.base .main) point

theorem encoderMay_test (base : Option Frame) : encoderMay base .test := by
  unfold encoderMay
  split <;> simp

/-- An encoder thread in `StopEncoding` holds the run mutex. -/
theorem WellShaped.owner_of_encoder (hshape : WellShaped cfg)
    (hmem : .stop point ∈ cfg.stack (.encoder index)) :
    cfg.shared.runMutex = some (.encoder index) := by
  rcases hshape.caller_of_stop hmem rfl with howner | ⟨hmain, -⟩ | hcommands
  · exact howner
  · simp at hmain
  · simp at hcommands

/-- When `main` moves on, what it lets encoder threads do only shrinks where none of
them is in `StopEncoding`: it leaves `Wait` with the run mutex. -/
theorem encoderMay_of_main (hshape : WellShaped cfg) (hlaw : LifetimeLaw cfg)
    (hstack : cfg.stack .main = [frame])
    (hstep : advance .main frame choice cfg.shared = some (s', frames))
    (hmem : .stop point ∈ cfg.stack (.encoder index)) :
    encoderMay frames.getLast? point := by
  have hbase : cfg.base .main = some frame := by simp [Config.base, hstack]
  have hmay := hlaw.encoders index point hmem
  rw [hbase] at hmay
  rcases hshape.main_singleton hstack with ⟨wait, rfl⟩ | ⟨dtor, rfl⟩
  · cases wait with
    | test =>
        have howner : cfg.shared.runMutex = some .main :=
          hshape.run.owner_of_mem (hstack ▸ List.mem_cons_self) rfl
        have hencoder := hshape.owner_of_encoder hmem
        simp [howner] at hencoder
    | _ =>
        simp only [advance, waitStep] at hstep
        try split at hstep
        all_goals cases hstep
        all_goals trivial
  · cases dtor <;> simp only [advance, dtorStep] at hstep <;> (try split at hstep) <;>
      cases hstep <;> simp_all [encoderMay]

/-- While the destructor has the flow mutex, and after it, an encoder thread does not
find a device. -/
theorem dev_of_encoder (hshape : WellShaped cfg) (hsound : Sound cfg)
    (hlate : ∀ wait, cfg.base .main ≠ some (.wait wait))
    (hclosed : isClosing (cfg.base .main) = false)
    (hmem : .stop .dev ∈ cfg.stack (.encoder index)) : cfg.shared.dev = none := by
  have hflow : cfg.shared.flowMutex = some (.encoder index) := hshape.flow.owner_of_mem hmem rfl
  cases hbase : cfg.base .main with
  | none => exact hsound.finished hbase
  | some last =>
      have hroot := (hshape.nested .main).root_of_getLast? hbase
      have hlast : last ∈ cfg.stack .main := List.mem_of_getLast? hbase
      cases last with
      | wait wait => exact absurd hbase (hlate wait)
      | dtor dtor =>
          have hholds : holdsFlow (.dtor dtor) = true := by
            cases dtor <;> simp_all [isClosing, holdsFlow]
          have hmain : cfg.shared.flowMutex = some .main := hshape.flow.owner_of_mem hlast hholds
          simp [hflow] at hmain
      | _ => simp [callGraph, Frame.home, Frame.kind, Tid.role] at hroot

/-- An encoder thread that executes a point of `StopEncoding` stays where it may be. -/
theorem encoderMay_of_encoder {old : StopPoint} (hshape : WellShaped cfg) (hsound : Sound cfg)
    (hlaw : LifetimeLaw cfg) (hok : LifetimeSafe cfg (.thread (.encoder index) choice))
    (hstack : cfg.stack (.encoder index) = .stop old :: rest)
    (hstep : stopStep (.encoder index) choice cfg.shared old = some (s', frames))
    (hmem : .stop point ∈ frames) : encoderMay (cfg.base .main) point := by
  have hhere : .stop old ∈ cfg.stack (.encoder index) := hstack ▸ List.mem_cons_self
  have hmay := hlaw.encoders index old hhere
  by_cases hlate : ∃ wait, cfg.base .main = some (.wait wait)
  · obtain ⟨wait, hbase⟩ := hlate
    rw [hbase]
    trivial
  · have hlate' : ∀ wait, cfg.base .main ≠ some (.wait wait) := fun wait h => hlate ⟨wait, h⟩
    by_cases hclosing : isClosing (cfg.base .main) = true
    · -- The only step is the test of `m_streaming`, and it finds it clear.
      obtain rfl : old = .test := by
        unfold isClosing at hclosing
        split at hclosing <;> simp_all [encoderMay]
      have hclear := hok hclosing (top_of_stack hstack)
      simp only [stopStep, hclear] at hstep
      cases hstep
      simp at hmem
    · have hdev : .stop .dev ∈ cfg.stack (.encoder index) → cfg.shared.dev = none :=
        dev_of_encoder hshape hsound hlate' (by simpa using hclosing)
      have hpoints : encoderMay (cfg.base .main) point ↔
          point = .test ∨ point = .ready ∨ point = .lock ∨ point = .dev ∨ point = .noDev := by
        unfold encoderMay
        split <;> simp_all [isClosing]
      have hold : old = .test ∨ old = .ready ∨ old = .lock ∨ old = .dev ∨ old = .noDev := by
        unfold encoderMay at hmay
        split at hmay <;> simp_all [isClosing]
      rw [hpoints]
      rcases hold with rfl | rfl | rfl | rfl | rfl <;> simp only [stopStep] at hstep
      all_goals grind

theorem encoders_step (hshape : WellShaped cfg) (hsound : Sound cfg) (hlaw : LifetimeLaw cfg)
    (hok : LifetimeSafe cfg (.thread tid choice)) (hstack : cfg.stack tid = frame :: rest)
    (hexec : exec tid frame choice cfg.shared = some (s', frames))
    (hmem : .stop point ∈ Function.update cfg.stack tid (frames ++ rest) (.encoder index)) :
    encoderMay (Config.base ⟨s', Function.update cfg.stack tid (frames ++ rest)⟩ .main) point := by
  rcases base_main_step s' frames hstack with hsame | ⟨rfl, rfl, hlast⟩
  · rw [hsame]
    rcases Machine.mem_update_stack.mp hmem with ⟨rfl, hnew | hold⟩ | ⟨-, hold⟩
    · rcases stop_of_mem hexec hnew with rfl | ⟨rfl, -⟩ | ⟨old, rfl, hstep⟩
      · exact encoderMay_test _
      · exact hlaw.encoders index point (hstack ▸ List.mem_cons_self)
      · exact encoderMay_of_encoder hshape hsound hlaw hok hstack hstep hnew
    · exact hlaw.encoders index point (hstack ▸ List.mem_cons_of_mem _ hold)
    · exact hlaw.encoders index point hold
  · simp only [Function.update_of_ne (show Tid.encoder index ≠ .main by simp)] at hmem
    rw [hlast]
    rcases exec_eq_some_iff.mp hexec with ⟨-, -, -, -, -, rfl⟩ | ⟨-, hstep⟩
    · simpa [Config.base, hstack] using hlaw.encoders index point hmem
    · exact encoderMay_of_main hshape hlaw hstack hstep hmem

theorem mainMay_test (base : Option Frame) : mainMay base .test := by
  unfold mainMay
  split <;> simp

/-- While it deletes the device, `main` would wait for its own flow mutex before it
could stop the encoder. -/
theorem main_step (hshape : WellShaped cfg) (hlaw : LifetimeLaw cfg)
    (hstack : cfg.stack tid = frame :: rest)
    (hexec : exec tid frame choice cfg.shared = some (s', frames))
    (hmem : .stop point ∈ Function.update cfg.stack tid (frames ++ rest) .main) :
    mainMay (Config.base ⟨s', Function.update cfg.stack tid (frames ++ rest)⟩ .main) point := by
  rcases base_main_step s' frames hstack with hsame | ⟨rfl, rfl, -⟩
  · rw [hsame]
    rcases Machine.mem_update_stack.mp hmem with ⟨rfl, hnew | hold⟩ | ⟨-, hold⟩
    · rcases stop_of_mem hexec hnew with rfl | ⟨rfl, -⟩ | ⟨old, rfl, hstep⟩
      · exact mainMay_test _
      · exact hlaw.main point (hstack ▸ List.mem_cons_self)
      · have hmay := hlaw.main old (hstack ▸ List.mem_cons_self)
        by_cases hdeleting : cfg.base .main = some (.dtor .deleting)
        · have hflow : cfg.shared.flowMutex = some .main :=
            hshape.flow.owner_of_mem (List.mem_of_getLast? hdeleting) rfl
          rw [hdeleting] at hmay ⊢
          rcases hmay with rfl | rfl | rfl <;> simp only [stopStep, hflow] at hstep <;>
            grind [mainMay]
        · unfold mainMay
          split
          · exact absurd ‹_› hdeleting
          · trivial
    · exact hlaw.main point (hstack ▸ List.mem_cons_of_mem _ hold)
    · exact hlaw.main point hold
  · simp only [List.append_nil, Function.update_self] at hmem
    rcases stop_of_mem hexec hmem with rfl | ⟨rfl, -⟩ | ⟨old, rfl, -⟩
    · exact mainMay_test _
    · simpa [Frame.kind] using hshape.kind_of_singleton hstack
    · simpa [Frame.kind] using hshape.kind_of_singleton hstack

theorem lifetimeLaw_initial (now : ℤ) : LifetimeLaw (initial now) where
  encoders index point hmem := by simp [initial, Tid.entry] at hmem
  main point hmem := by simp [initial, Tid.entry] at hmem

theorem lifetimeLaw (hreach : recorder.ReachableBy LifetimeSafe cfg) : LifetimeLaw cfg := by
  refine recorder_invariant hreach lifetimeLaw_initial (fun state elapsed hlaw => ?_)
    fun hprior hlaw hok hstack hexec => ?_
  · exact ⟨hlaw.encoders, hlaw.main⟩
  · have hshape := wellShaped hprior
    have hsound := sound hprior
    exact ⟨fun _ _ => encoders_step hshape hsound hlaw hok hstack hexec,
      fun _ => main_step hshape hlaw hstack hexec⟩

/-- Past the test of `m_ready` the device is open, up to the destructor. -/
theorem opened_of_called (hsound : Sound cfg) (hmem : frame ∈ cfg.stack tid)
    (hpast : pastReady frame = true) (hdeleting : isDeleting (cfg.base .main) = false) :
    ∃ dev, cfg.shared.dev = some dev ∧ dev.phase = .opened := by
  rcases hsound.device (hsound.called tid frame hmem hpast) with hopened | hgone
  · exact ⟨_, hopened, rfl⟩
  · simp [hdeleting] at hgone

/-- No thread is about to call the device from `StopEncoding` when the destructor has
begun to delete it. -/
theorem not_isDeleting_of_call (hshape : WellShaped cfg) (hsound : Sound cfg)
    (hlaw : LifetimeLaw cfg) (hmem : .stop point ∈ cfg.stack tid)
    (hpoint : point = .call ∨ point = .error) : isDeleting (cfg.base .main) = false := by
  cases tid with
  | main =>
      have hmay := hlaw.main point hmem
      cases hbase : cfg.base .main with
      | none => simp [Config.base, List.ne_nil_of_mem hmem] at hbase
      | some last =>
          obtain ⟨kind, hcalls⟩ : last = .stop point ∨ ∃ kind, calls last kind = true := by
            by_cases hne : .stop point = last
            · exact .inl hne.symm
            · exact .inr (hshape.calls_of_base hbase hmem hne)
          · rfl
          · cases last with
            | dtor dtor =>
                rw [hbase] at hmay
                cases dtor with
                | deleting => rcases hpoint with rfl | rfl <;> simp [mainMay] at hmay
                | _ => simp_all [isDeleting, calls]
            | _ => rfl
  | commands =>
      obtain ⟨frame, rest, hstack⟩ := List.exists_cons_of_ne_nil (List.ne_nil_of_mem hmem)
      exact hsound.not_isDeleting hstack
  | buffer =>
      obtain ⟨point, hbuffer, -⟩ := hshape.buffer_stack hmem
      simp at hbuffer
  | encoder index =>
      have hmay := hlaw.encoders index point hmem
      unfold isDeleting
      split <;> rcases hpoint with rfl | rfl <;> simp_all [encoderMay]

theorem callLaw_of_lifetimeLaw (hshape : WellShaped cfg) (hsound : Sound cfg)
    (hlaw : LifetimeLaw cfg) (htop : cfg.top tid = some frame) : callLaw frame cfg.shared := by
  have hmem := List.mem_of_head? htop
  cases frame with
  | stop point =>
      have hdeleting := not_isDeleting_of_call hshape hsound hlaw hmem
      cases point with
      | call => exact opened_of_called hsound hmem rfl (hdeleting (.inl rfl))
      | error => exact opened_of_called hsound hmem rfl (hdeleting (.inr rfl))
      | _ => trivial
  | start point =>
      obtain rfl := eq_commands (hshape.role_of_mem hmem rfl)
      obtain ⟨rest, hstack⟩ := List.head?_eq_some_iff.mp htop
      have hdeleting := hsound.not_isDeleting hstack
      cases point with
      | call => exact opened_of_called hsound hmem rfl hdeleting
      | error => exact opened_of_called hsound hmem rfl hdeleting
      | _ => trivial
  | openDev point =>
      have hopening := hsound.opening tid _ hmem
      cases point with
      | check => exact ⟨_, (hopening rfl).2, by simp⟩
      | dev => exact ⟨_, (hopening rfl).2, by simp⟩
      | failed => exact ⟨_, (hopening rfl).2, by simp⟩
      | checkError => exact (hopening rfl).elim
      | _ => trivial
  | _ => trivial

theorem inMethod_of_delete (hshape : WellShaped cfg) (hsound : Sound cfg)
    (hlaw : LifetimeLaw cfg) (hdelete : cfg.top .main = some (.dtor .delete))
    (htid : tid ≠ .main) (hmem : frame ∈ cfg.stack tid) : inMethod frame = false := by
  have hbase := hshape.base_eq (List.mem_of_head? hdelete) rfl
  have hgone := hsound.exited (hsound.joined (by rw [hbase]; rfl))
  have hnotCommands : tid ≠ .commands := by
    rintro rfl
    simp [hgone] at hmem
  cases frame with
  | stop point =>
      cases tid with
      | main => exact (htid rfl).elim
      | commands => exact (hnotCommands rfl).elim
      | buffer =>
          obtain ⟨point, hbuffer, -⟩ := hshape.buffer_stack hmem
          simp at hbuffer
      | encoder index =>
          have hmay := hlaw.encoders index point hmem
          rw [hbase] at hmay
          cases point <;> simp_all [encoderMay, inMethod]
  | start point | openDev point =>
      exact (hnotCommands (eq_commands (hshape.role_of_mem hmem rfl))).elim
  | _ => rfl

/-- The device is there for each call of it and is deleted when nobody is inside, as long as no
encoder thread stops a recording while the recorder is ending. -/
theorem deviceSafe_of_lifetimeSafe (hreach : recorder.ReachableBy LifetimeSafe cfg) :
    DeviceSafe cfg := by
  have hshape := wellShaped hreach.reachable
  have hsound := sound hreach.reachable
  have hlaw := lifetimeLaw hreach
  constructor
  · intro tid frame htop
    exact callLaw_of_lifetimeLaw hshape hsound hlaw htop
  · rintro hdelete tid htid ⟨inner, hmem, hinner⟩
    simp [inMethod_of_delete hshape hsound hlaw hdelete htid hmem] at hinner

/-- `Commands` about to stop a recording calls an open device. -/
theorem deviceSafe_at_stop :
    ∃ cfg, cfg.top .commands = some (.stop .call) ∧ DeviceSafe cfg := by
  have hrun : (recorder.run (initial 0)
      ((startRecording ++ dispatch .stopStreaming ++ finishStop.dropLast).map
        (.thread .commands))).map (fun cfg => cfg.top .commands) = some (some (.stop .call)) := by
    rfl
  have hok : ∀ cfg, OnlyCommands cfg → ∀ choice ∈ startRecording ++ dispatch .stopStreaming ++
      finishStop.dropLast, LifetimeSafe cfg (.thread .commands choice) := fun _ _ _ _ => trivial
  obtain ⟨cfg, hreach, -, hvalue⟩ := exists_reachableBy_of_commands hok hrun
  exact ⟨cfg, hvalue, deviceSafe_of_lifetimeSafe hreach⟩

/-- `CloseRecorder` ends the recording. When `Wait` returns, a control message of an
encoder thread fails and the error callback finds `m_streaming` still set; before it
calls the device, the destructor deletes it. -/
def stopDeleted : List (Action Tid Choice ℕ) :=
  (startRecording ++ dispatch .closeRecorder).map (.thread .commands) ++
    (goOn 4).map (.thread .main) ++ (.usbError :: goOn 9).map (.thread (.encoder 0)) ++
    (goOn 2).map (.thread .main) ++ (goOn 3).map (.thread .commands) ++
    (goOn 2).map (.thread .buffer) ++ (goOn 4).map (.thread .main)

theorem not_deviceSafe : ¬ ∀ cfg, recorder.Reachable cfg → DeviceSafe cfg := by
  intro hall
  have hrun : (recorder.run (initial 0) stopDeleted).map
      (fun cfg => (cfg.top (.encoder 0), cfg.shared.dev)) =
      some (some (.stop .call), some ⟨.deleted, false⟩) := by
    rfl
  obtain ⟨cfg, hreach, hvalue⟩ := System.exists_reachable_of_run (reachableBy_initial 0) hrun
  obtain ⟨htop, hdev⟩ := Prod.mk.inj hvalue
  obtain ⟨dev, hsome, hopened⟩ := (hall cfg hreach).called _ _ htop
  obtain rfl : dev = ⟨.deleted, false⟩ := Option.some.inj (hsome.symm.trans hdev)
  simp at hopened

end HauppaugeUSB.MythTV

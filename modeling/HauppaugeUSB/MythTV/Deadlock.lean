/-
# Deadlocks of the recorder

`Fatal` keeps the run mutex while it stops the encoder, and a control message
that fails on the way calls `Fatal` again, on the same thread. `~MythTV` keeps the
flow mutex while it deletes the device, and a control message that fails there
may want the flow mutex again, or the run mutex of a thread that wants the flow
mutex. Nothing else blocks for good: where no control message fails at these
points, no thread asks for a mutex it holds and the wait-for graph has no cycle.

The two mutexes are nested in both orders (flow before run in `OpenDev` and the
destructor, run before flow below `Fatal`), so the lock order has to depend on
the state: at no time are both nestings blocked.
-/

import HauppaugeUSB.Concurrency.WaitGraph
import HauppaugeUSB.MythTV.Invariants

namespace HauppaugeUSB.MythTV

open HauppaugeUSB.Concurrency HauppaugeUSB.Commands

variable {tid : Tid} {frame : Frame} {choice : Choice} {s s' : Shared} {frames rest : List Frame}
  {cfg : Recorder}

/-- Who holds a mutex. -/
def Shared.owner (s : Shared) : Mutex → Option Tid
  | .run => s.runMutex
  | .flow => s.flowMutex

/-- Which thread waits for which mutex. -/
def waitGraph (cfg : Recorder) : WaitGraph Tid Mutex where
  waitsFor tid := (cfg.top tid).bind awaits
  owner := cfg.shared.owner

/-- No thread asks for a mutex that it holds, and no threads wait in a circle. -/
structure LockSafe (cfg : Recorder) : Prop where
  notHeld : ∀ tid frame mutex, cfg.top tid = some frame → acquires frame = some mutex →
    cfg.shared.owner mutex ≠ some tid
  deadlockFree : (waitGraph cfg).DeadlockFree

/-- On the way from `Terminate` to the flow mutex. -/
def headsForFlow (s : Shared) : Frame → Bool
  | .stop .ready | .stop .lock => true
  | .terminate | .stop .test => s.streaming
  | _ => false

/-- A control message fails only on a thread that does not hold the run mutex; and
while `~MythTV` deletes the device it fails only if `Fatal` has nothing to stop
and the thread that holds the run mutex, if any, is not about to take the flow
mutex. -/
def CallbackSafe (cfg : Recorder) : Action Tid Choice ℕ → Prop
  | .thread tid .usbError =>
      cfg.shared.runMutex ≠ some tid ∧
      (cfg.top tid = some (.dtor .deleting) →
        (cfg.shared.streaming = true → cfg.shared.fatal = true) ∧
        ∀ other frame, cfg.shared.runMutex = some other → cfg.top other = some frame →
          headsForFlow cfg.shared frame = false)
  | _ => True

/-- The error callback runs on `main` while `~MythTV` deletes the device. -/
def DeletingSuspended (cfg : Recorder) : Prop := .dtor .deleting ∈ (cfg.stack .main).tail

/-- The invariant of runs that meet the guard. -/
structure CallbackLaw (cfg : Recorder) : Prop where
  notOwner : ∀ tid msg, cfg.top tid = some (.fatal (.lock msg)) →
    cfg.shared.runMutex ≠ some tid
  stopped : DeletingSuspended cfg → cfg.shared.streaming = true → cfg.shared.fatal = true
  notHeading : DeletingSuspended cfg → ∀ tid frame, cfg.shared.runMutex = some tid →
    cfg.top tid = some frame → headsForFlow cfg.shared frame = false

/-- `OpenDev`, `Wait` and `Commands::Run` call `Fatal` without the run mutex. -/
theorem enters_fatal {msg : String} (henters : enters frame (.fatal (.lock msg)) = true) :
    (frame.kind = .base ∨ frame.kind = .request) ∧ holdsRun frame = false ∧
      awaits frame ≠ some .run := by
  cases frame with
  | openDev point | wait point | command point =>
      cases point <;> simp_all [enters, Frame.kind, holdsRun, awaits]
  | _ => simp_all [enters]

/-- `Terminate` is called from `Fatal`, from `Wait` and from `Commands::Run`. -/
theorem enters_terminate (henters : enters frame .terminate = true) :
    (∃ msg, frame = .fatal (.test msg)) ∨ frame = .wait .test ∨ frame = .command .poll := by
  cases frame with
  | fatal point | wait point | command point => cases point <;> simp_all [enters]
  | _ => simp_all [enters]

/-- `StopEncoding` is called from `Terminate` and from `Commands::Run`. -/
theorem enters_stop (henters : enters frame (.stop .test) = true) :
    frame = .terminate ∨ frame = .command .poll := by
  cases frame with
  | command point => cases point <;> simp_all [enters]
  | _ => simp_all [enters]

theorem notOwner_step (hshape : WellShaped cfg) (hlaw : CallbackLaw cfg)
    (hok : CallbackSafe cfg (.thread tid choice)) (hstack : cfg.stack tid = frame :: rest)
    (hexec : exec tid frame choice cfg.shared = some (s', frames)) {other : Tid} {msg : String}
    (htop : Config.top ⟨s', Function.update cfg.stack tid (frames ++ rest)⟩ other =
      some (.fatal (.lock msg))) : s'.runMutex ≠ some other := by
  by_cases hother : other = tid
  · subst hother
    rcases top_after htop with hhead | ⟨-, hhead⟩
    · rcases (exec_shape hexec).entered _ (List.mem_of_head? hhead) rfl with
        henters | ⟨rfl, rfl⟩
      · -- Not from a critical section, and there is none under a base or request frame.
        obtain ⟨hkind, hout, hnot⟩ := enters_fatal henters
        have hsame : s'.runMutex = cfg.shared.runMutex := by
          rcases (exec_effects hexec).runMutex with hsame | hholds | hawaits
          · exact hsame
          · simp [hout] at hholds
          · exact absurd hawaits hnot
        rw [hsame]
        intro howner
        obtain ⟨held, hheld, hholds⟩ := hshape.run.exists_of_owner howner
        rw [hstack] at hheld
        rcases List.mem_cons.mp hheld with rfl | hbelow
        · simp [runView, hout] at hholds
        · rcases hkind with hbase | hrequest
          · simp [hshape.rest_eq_nil hstack hbase] at hbelow
          · rw [hshape.rest_of_request hstack hrequest, List.mem_singleton] at hbelow
            simp [hbelow, runView, holdsRun] at hholds
      · exact hok.1
    · obtain ⟨kind, hcalls⟩ := hshape.calls_of_mem_rest hstack (List.mem_of_head? hhead)
      simp [calls] at hcalls
  · rw [top_of_ne hother] at htop
    have hhere : runView.holds frame = true → runView.owner cfg.shared = some tid :=
      hshape.run.owner_of_mem (hstack ▸ List.mem_cons_self)
    have hsame := runView_accounted.others hexec hhere other hother
    exact fun howner => hlaw.notOwner other msg htop (hsame.mp howner)

/-- Under the error callback of the destructor, `main` has nothing else, and
`Commands` is gone. -/
theorem DeletingSuspended.base (hshape : WellShaped cfg) (hsuspended : DeletingSuspended cfg) :
    cfg.base .main = some (.dtor .deleting) :=
  hshape.base_eq (List.mem_of_mem_tail hsuspended) rfl

theorem DeletingSuspended.not_commands (hshape : WellShaped cfg) (hsound : Sound cfg)
    (hsuspended : DeletingSuspended cfg) : cfg.stack .commands = [] := by
  apply hsound.exited
  apply hsound.joined
  rw [hsuspended.base hshape]
  rfl

/-- The callback starts at the failing control message, or it was running before. -/
theorem suspended_before (hshape : WellShaped cfg)
    (hshape' : WellShaped ⟨s', Function.update cfg.stack tid (frames ++ rest)⟩)
    (hstack : cfg.stack tid = frame :: rest)
    (hexec : exec tid frame choice cfg.shared = some (s', frames))
    (hsuspended : DeletingSuspended ⟨s', Function.update cfg.stack tid (frames ++ rest)⟩) :
    DeletingSuspended cfg ∨ tid = .main ∧ frame = .dtor .deleting ∧ choice = .usbError ∧
      s' = cfg.shared ∧ frames = [.fatal (.lock usbErrorMsg), .dtor .deleting] := by
  by_cases hmain : tid = .main
  · subst hmain
    simp only [DeletingSuspended, Function.update_self] at hsuspended
    cases rest with
    | nil =>
        right
        rcases exec_eq_some_iff.mp hexec with ⟨rfl, -, -, -, rfl, rfl⟩ | ⟨-, hstep⟩
        · obtain rfl : .dtor .deleting = frame := by simpa using hsuspended
          exact ⟨rfl, rfl, rfl, rfl, rfl⟩
        · rcases hshape.main_singleton hstack with ⟨point, rfl⟩ | ⟨point, rfl⟩
          · cases point <;> simp only [advance, waitStep] at hstep <;> grind
          · cases point <;> simp only [advance, dtorStep] at hstep <;> grind
    | cons below later =>
        left
        have hbase : cfg.base .main = some (.dtor .deleting) := by
          have hsame : Config.base ⟨s', Function.update cfg.stack .main
              (frames ++ below :: later)⟩ .main = cfg.base .main :=
            Machine.base_update_of_ne_nil hstack (by simp)
          exact hsame ▸ hshape'.base_eq (by simpa using List.mem_of_mem_tail hsuspended) rfl
        rw [Config.base, hstack, List.getLast?_cons_cons] at hbase
        simpa [DeletingSuspended, hstack] using List.mem_of_getLast? hbase
  · left
    simpa [DeletingSuspended, Function.update_of_ne (Ne.symm hmain)] using hsuspended

theorem stopped_step (hshape : WellShaped cfg) (hsound : Sound cfg) (hlaw : CallbackLaw cfg)
    (hsuspended : DeletingSuspended cfg) (hstack : cfg.stack tid = frame :: rest)
    (hexec : exec tid frame choice cfg.shared = some (s', frames)) :
    (s'.streaming = true → cfg.shared.streaming = true) ∧
      (s'.streaming = true → s'.fatal = true) := by
  have heffects := exec_effects hexec
  have hstreaming : s'.streaming = true → cfg.shared.streaming = true := by
    intro hstreaming
    rcases heffects.streaming with ⟨hsame, -⟩ | ⟨-, hfalse, -⟩ | ⟨rfl, -⟩
    · exact hsame ▸ hstreaming
    · simp [hfalse] at hstreaming
    · obtain rfl := eq_commands (hshape.top_role hstack rfl)
      simp [hsuspended.not_commands hshape hsound] at hstack
  exact ⟨hstreaming, fun h => heffects.fatal_of (hlaw.stopped hsuspended (hstreaming h))⟩

/-- The thread that holds the run mutex stays away from the flow mutex: `Fatal` has
nothing to stop while the destructor's control message fails. -/
theorem notHeading_step (hshape : WellShaped cfg) (hsound : Sound cfg) (hlaw : CallbackLaw cfg)
    (hsuspended : DeletingSuspended cfg) (hok : CallbackSafe cfg (.thread tid choice))
    (hstack : cfg.stack tid = frame :: rest)
    (hexec : exec tid frame choice cfg.shared = some (s', frames)) {other : Tid} {new : Frame}
    (howner : s'.runMutex = some other)
    (htop : Config.top ⟨s', Function.update cfg.stack tid (frames ++ rest)⟩ other = some new) :
    headsForFlow s' new = false := by
  obtain ⟨hstreaming, -⟩ := stopped_step hshape hsound hlaw hsuspended hstack hexec
  have hgone := hsuspended.not_commands hshape hsound
  by_contra hheads
  rw [Bool.not_eq_false] at hheads
  by_cases hother : other = tid
  · subst hother
    rcases top_after htop with hhead | ⟨-, hhead⟩
    · cases new with
      | terminate =>
          rcases entered_of_head hexec hhead rfl with henters | ⟨msg, hmsg, -⟩
          · rcases enters_terminate henters with ⟨msg, rfl⟩ | rfl | rfl
            · have hfatal := hlaw.stopped hsuspended (hstreaming hheads)
              simp only [exec_eq_some_iff, Frame.isHardware, advance, fatalStep, hfatal] at hexec
              grind
            · obtain rfl := eq_main (hshape.top_role hstack rfl)
              obtain rfl := hshape.rest_eq_nil hstack rfl
              simpa [Config.base, hstack] using hsuspended.base hshape
            · obtain rfl := eq_commands (hshape.top_role hstack rfl)
              simp [hgone] at hstack
          · simp at hmsg
      | stop point =>
          rcases stop_of_mem hexec (List.mem_of_head? hhead) with
            rfl | ⟨rfl, rfl⟩ | ⟨old, rfl, hstep⟩
          · rcases entered_of_head hexec hhead rfl with henters | ⟨msg, hmsg, -⟩
            · rcases enters_stop henters with rfl | rfl
              · have hsame : s' = { cfg.shared with run := false } := by
                  simp only [exec_eq_some_iff, Frame.isHardware, advance, terminateStep] at hexec
                  grind
                rw [hsame] at howner hheads
                have hnot := hlaw.notHeading hsuspended _ _ howner (top_of_stack hstack)
                simp_all [headsForFlow]
              · obtain rfl := eq_commands (hshape.top_role hstack rfl)
                simp [hgone] at hstack
            · simp at hmsg
          · have hnot := hlaw.notHeading hsuspended _ _ howner (top_of_stack hstack)
            simp [hnot] at hheads
          · have hsame : s'.runMutex = cfg.shared.runMutex := by
              cases old <;> simp only [stopStep] at hstep <;> grind
            have hnot := hlaw.notHeading hsuspended _ _ (hsame ▸ howner) (top_of_stack hstack)
            cases old with
            | test => grind [stopStep, headsForFlow]
            | ready | lock => simp [headsForFlow] at hnot
            | _ =>
                simp only [stopStep] at hstep
                try split at hstep
                all_goals cases hstep
                all_goals simp at hhead
                all_goals subst hhead
                all_goals simp [headsForFlow] at hheads
      | _ => simp [headsForFlow] at hheads
    · obtain ⟨kind, hcalls⟩ := hshape.calls_of_mem_rest hstack (List.mem_of_head? hhead)
      cases new with
      | terminate => simp [calls] at hcalls
      | stop point => cases point <;> simp_all [calls, headsForFlow]
      | _ => simp [headsForFlow] at hheads
  · rw [top_of_ne hother] at htop
    have hhere : runView.holds frame = true → runView.owner cfg.shared = some tid :=
      hshape.run.owner_of_mem (hstack ▸ List.mem_cons_self)
    have hbefore := (runView_accounted.others hexec hhere other hother).mp howner
    have hnot := hlaw.notHeading hsuspended other new hbefore htop
    cases new with
    | terminate => simp_all [headsForFlow]
    | stop point => cases point <;> simp_all [headsForFlow]
    | _ => simp [headsForFlow] at hheads

theorem callbackLaw_initial (now : ℤ) : CallbackLaw (initial now) where
  notOwner tid msg _ := by simp [initial, Shared.initial]
  stopped hsuspended := by simp [DeletingSuspended, initial, Tid.entry] at hsuspended
  notHeading hsuspended := by simp [DeletingSuspended, initial, Tid.entry] at hsuspended

theorem callbackLaw_step {action : Action Tid Choice ℕ} {cfg' : Recorder}
    (hshape : WellShaped cfg) (hsound : Sound cfg) (hlaw : CallbackLaw cfg)
    (hok : CallbackSafe cfg action) (hstep : machine.step cfg action = some cfg') :
    CallbackLaw cfg' := by
  have hshape' := wellShaped_step hshape hstep
  cases action with
  | env elapsed =>
      obtain rfl := Machine.step_env_iff.mp hstep
      refine ⟨hlaw.notOwner, hlaw.stopped, fun hsuspended other frame howner htop => ?_⟩
      have hnot := hlaw.notHeading hsuspended other frame howner htop
      cases frame with
      | stop point => cases point <;> simp_all [headsForFlow, machine]
      | _ => simp_all [headsForFlow, machine]
  | thread tid choice =>
      obtain ⟨frame, rest, s', frames, hstack, hexec, rfl⟩ := Machine.step_thread_iff.mp hstep
      have hbefore := suspended_before hshape hshape' hstack hexec
      refine ⟨fun other msg => notOwner_step hshape hlaw hok hstack hexec,
        fun hsuspended => ?_, fun hsuspended other new howner htop => ?_⟩
      · rcases hbefore hsuspended with hsuspended | ⟨rfl, rfl, rfl, rfl, rfl⟩
        · exact (stopped_step hshape hsound hlaw hsuspended hstack hexec).2
        · exact (hok.2 (top_of_stack hstack)).1
      · rcases hbefore hsuspended with hsuspended | ⟨rfl, rfl, rfl, rfl, rfl⟩
        · exact notHeading_step hshape hsound hlaw hsuspended hok hstack hexec howner htop
        · have hother : other ≠ .main := by
            rintro rfl
            exact hok.1 howner
          rw [top_of_ne hother] at htop
          exact (hok.2 (top_of_stack hstack)).2 other new howner htop

theorem callbackLaw (hreach : recorder.ReachableBy CallbackSafe cfg) : CallbackLaw cfg := by
  refine hreach.invariant ?_ fun state _ _ hprior hlaw hok hstep => ?_
  · rintro _ ⟨now, rfl⟩
    exact callbackLaw_initial now
  · exact callbackLaw_step (wellShaped hprior.reachable) (sound hprior.reachable) hlaw hok hstep

/-- A thread that holds the flow mutex below its top frame is in the error callback
of `OpenDev`, before the device is ready, or of the destructor. -/
theorem held_below (hshape : WellShaped cfg) (hsound : Sound cfg)
    (hstack : cfg.stack tid = frame :: rest) (hout : holdsFlow frame = false)
    (howner : cfg.shared.flowMutex = some tid) :
    cfg.shared.ready = false ∨ tid = .main ∧ .dtor .deleting ∈ rest := by
  obtain ⟨held, hheld, hholds⟩ := hshape.flow.exists_of_owner howner
  have hlaw := hsound.opening tid held hheld hholds
  rw [hstack] at hheld
  rcases List.mem_cons.mp hheld with rfl | hbelow
  · simp [flowView, hout] at hholds
  · obtain ⟨kind, hcalls⟩ := hshape.calls_of_mem_rest hstack hbelow
    cases held with
    | openDev point =>
        left
        cases point <;> simp_all [calls, openLaw]
    | dtor point =>
        right
        have hmain := eq_main (hshape.role_of_mem (hstack ▸ List.mem_cons_of_mem _ hbelow) rfl)
        cases point <;> simp_all [calls, flowView, holdsFlow]
    | stop point => cases point <;> simp_all [calls, flowView, holdsFlow]
    | _ => simp_all [calls, flowView, holdsFlow]

/-- No thread waits for the run mutex while it holds it. -/
theorem run_waiter (hshape : WellShaped cfg) (hlaw : CallbackLaw cfg)
    (htop : cfg.top tid = some frame) (hawaits : awaits frame = some .run) :
    cfg.shared.runMutex ≠ some tid := by
  obtain ⟨rest, hstack⟩ := List.head?_eq_some_iff.mp htop
  intro howner
  obtain ⟨held, hheld, hholds⟩ := hshape.run.exists_of_owner howner
  rw [hstack] at hheld
  cases frame with
  | fatal point =>
      cases point <;> simp [awaits] at hawaits
      exact hlaw.notOwner tid _ htop howner
  | wait point =>
      obtain rfl := hshape.rest_eq_nil hstack rfl
      cases point <;> simp_all [awaits, runView, holdsRun]
  | command point =>
      cases point <;> simp [awaits] at hawaits
      obtain rfl := hshape.rest_of_request hstack rfl
      simp only [List.mem_cons, List.not_mem_nil, or_false] at hheld
      rcases hheld with rfl | rfl <;> simp [runView, holdsRun] at hholds
  | stop point | openDev point | dtor point => cases point <;> simp [awaits] at hawaits
  | _ => simp [awaits] at hawaits

/-- A thread that asks for the flow mutex inside a critical section is in
`StopEncoding`. -/
theorem stop_of_held (hshape : WellShaped cfg) (htop : cfg.top tid = some frame)
    (hacquires : acquires frame = some .flow) {held : Frame} (hheld : held ∈ cfg.stack tid)
    (hholds : holdsRun held = true ∨ holdsFlow held = true) : frame = .stop .lock := by
  obtain ⟨rest, hstack⟩ := List.head?_eq_some_iff.mp htop
  rw [hstack] at hheld
  cases frame with
  | stop point => cases point <;> simp_all [acquires, awaits]
  | openDev point =>
      cases point <;> simp [acquires, awaits] at hacquires
      obtain rfl := hshape.rest_of_request hstack rfl
      simp only [List.mem_cons, List.not_mem_nil, or_false] at hheld
      rcases hheld with rfl | rfl <;> simp [holdsRun, holdsFlow] at hholds
  | fill point =>
      cases point <;> simp [acquires, awaits] at hacquires
      obtain rfl := hshape.rest_of_fill hstack rfl
      simp only [List.mem_cons, List.not_mem_nil, or_false] at hheld
      rcases hheld with rfl | rfl <;> simp [holdsRun, holdsFlow] at hholds
  | dtor point | buffer point =>
      obtain rfl := hshape.rest_eq_nil hstack rfl
      obtain rfl := List.mem_singleton.mp hheld
      cases point <;> simp_all [acquires, awaits, holdsRun, holdsFlow]
  | fatal point | wait point | command point =>
      cases point <;> simp [acquires, awaits] at hacquires
  | _ => simp [acquires, awaits] at hacquires

/-- While `StopEncoding` wants the flow mutex for `Fatal`, the destructor's control
message has not failed. -/
theorem not_suspended_of_stop (hlaw : CallbackLaw cfg) (htop : cfg.top tid = some (.stop .lock))
    (howner : cfg.shared.runMutex = some tid) : ¬ DeletingSuspended cfg := by
  intro hsuspended
  have hnot := hlaw.notHeading hsuspended tid _ howner htop
  simp [headsForFlow] at hnot

/-- No thread waits for the flow mutex while it holds it. -/
theorem flow_waiter (hshape : WellShaped cfg) (hsound : Sound cfg) (hlaw : CallbackLaw cfg)
    (htop : cfg.top tid = some frame) (hacquires : acquires frame = some .flow) :
    cfg.shared.flowMutex ≠ some tid := by
  intro howner
  obtain ⟨held, hheld, hholds⟩ := hshape.flow.exists_of_owner howner
  obtain rfl := stop_of_held hshape htop hacquires hheld (.inr hholds)
  obtain ⟨rest, hstack⟩ := List.head?_eq_some_iff.mp htop
  have hready := hsound.called tid (.stop .lock) (hstack ▸ List.mem_cons_self) rfl
  rcases held_below hshape hsound hstack rfl howner with hfalse | ⟨rfl, hdeleting⟩
  · simp [hready] at hfalse
  · rcases hshape.rest_of_stop hstack rfl with ⟨later, rfl⟩ | rfl | rfl
    · have hrun : cfg.shared.runMutex = some .main :=
        hshape.run.owner_of_mem (hstack ▸ List.mem_cons_of_mem _ List.mem_cons_self) rfl
      have hsuspended : DeletingSuspended cfg := by
        rw [DeletingSuspended, hstack]
        exact hdeleting
      exact not_suspended_of_stop hlaw htop hrun hsuspended
    · simp at hdeleting
    · simp at hdeleting

/-- The two nestings of the mutexes are never blocked at the same time. -/
theorem not_crossed (hshape : WellShaped cfg) (hsound : Sound cfg) (hlaw : CallbackLaw cfg)
    {first second : Tid} {waiter waiter' : Frame}
    (hfirst : cfg.top first = some waiter) (hrun : awaits waiter = some .run)
    (hflowOwner : cfg.shared.flowMutex = some first)
    (hsecond : cfg.top second = some waiter') (hflow : awaits waiter' = some .flow)
    (hrunOwner : cfg.shared.runMutex = some second) : False := by
  have hacquires : acquires waiter' = some .flow := by
    unfold acquires
    split <;> first | rfl | exact hflow
  obtain ⟨held, hheld, hholds⟩ := hshape.run.exists_of_owner hrunOwner
  obtain rfl := stop_of_held hshape hsecond hacquires hheld (.inl hholds)
  have hready := hsound.called second (.stop .lock) (List.mem_of_head? hsecond) rfl
  have hout : holdsFlow waiter = false := by
    unfold awaits at hrun
    split at hrun <;> simp_all [holdsFlow]
  obtain ⟨rest, hstack⟩ := List.head?_eq_some_iff.mp hfirst
  rcases held_below hshape hsound hstack hout hflowOwner with hfalse | ⟨rfl, hdeleting⟩
  · simp [hready] at hfalse
  · have hsuspended : DeletingSuspended cfg := by
      rw [DeletingSuspended, hstack]
      exact hdeleting
    exact not_suspended_of_stop hlaw hsecond hrunOwner hsuspended

theorem acquires_of_awaits {mutex : Mutex} (hawaits : awaits frame = some mutex) :
    acquires frame = some mutex := by
  unfold acquires
  split <;> simp_all [awaits]

theorem awaits_of_acquires_run (hacquires : acquires frame = some .run) :
    awaits frame = some .run := by
  unfold acquires at hacquires
  split at hacquires
  case h_4 => exact hacquires
  all_goals simp at hacquires

theorem not_held (hshape : WellShaped cfg) (hsound : Sound cfg) (hlaw : CallbackLaw cfg)
    {mutex : Mutex} (htop : cfg.top tid = some frame) (hacquires : acquires frame = some mutex) :
    cfg.shared.owner mutex ≠ some tid := by
  cases mutex with
  | run => exact run_waiter hshape hlaw htop (awaits_of_acquires_run hacquires)
  | flow => exact flow_waiter hshape hsound hlaw htop hacquires

/-- No threads wait in a circle. -/
theorem deadlockFree_of_callbackLaw (hshape : WellShaped cfg) (hsound : Sound cfg)
    (hlaw : CallbackLaw cfg) : (waitGraph cfg).DeadlockFree := by
  have hwaits : ∀ {tid mutex}, (waitGraph cfg).waitsFor tid = some mutex →
      ∃ frame, cfg.top tid = some frame ∧ awaits frame = some mutex :=
    Option.bind_eq_some_iff.mp
  refine WaitGraph.deadlockFree_of_not_crossed .run .flow (fun mutex => ?_)
    (fun tid mutex hwait => ?_) fun first second hfirst hflowOwner hsecond hrunOwner => ?_
  · cases mutex <;> simp
  · obtain ⟨frame, htop, hawaits⟩ := hwaits hwait
    exact not_held hshape hsound hlaw htop (acquires_of_awaits hawaits)
  · obtain ⟨waiter, htop, hrun⟩ := hwaits hfirst
    obtain ⟨waiter', htop', hflow⟩ := hwaits hsecond
    exact not_crossed hshape hsound hlaw htop hrun hflowOwner htop' hflow hrunOwner

/-- Without control messages that fail at the wrong moment, the recorder does not
deadlock. -/
theorem lockSafe_of_callbackSafe (hreach : recorder.ReachableBy CallbackSafe cfg) :
    LockSafe cfg := by
  have hshape := wellShaped hreach.reachable
  have hsound := sound hreach.reachable
  have hlaw := callbackLaw hreach
  exact ⟨fun tid frame mutex => not_held hshape hsound hlaw,
    deadlockFree_of_callbackLaw hshape hsound hlaw⟩

/-- A control message of an encoder thread may fail while a recording is running. -/
theorem lockSafe_in_callback :
    ∃ cfg, cfg.shared.streaming = true ∧
      cfg.top (.encoder 0) = some (.fatal (.lock usbErrorMsg)) ∧ LockSafe cfg := by
  have hrun : (recorder.run (initial 0) (startRecording.map (.thread .commands))).map
      (fun cfg => (cfg.shared.streaming, cfg.shared.runMutex, cfg.shared.usbHandle,
        cfg.shared.useErrorCb, cfg.stack (.encoder 0))) =
      some (true, none, true, true, [.driver]) := by
    rfl
  have hok : ∀ cfg, OnlyCommands cfg → ∀ choice ∈ startRecording,
      CallbackSafe cfg (.thread .commands choice) := by
    simp [startRecording, openDevice, startCapture, dispatch, goOn, CallbackSafe]
  obtain ⟨cfg, hreach, -, hvalue⟩ := exists_reachableBy_of_commands hok hrun
  simp only [Prod.mk.injEq] at hvalue
  obtain ⟨hstreaming, hfree, hhandle, hcallback, hstack⟩ := hvalue
  have hexec : exec (.encoder 0) .driver .usbError cfg.shared =
      some (cfg.shared, [.fatal (.lock usbErrorMsg), .driver]) :=
    exec_eq_some_iff.mpr (.inl ⟨rfl, rfl, hhandle, hcallback, rfl, rfl⟩)
  have hstep : machine.step cfg (.thread (.encoder 0) .usbError) =
      some ⟨cfg.shared, Function.update cfg.stack (.encoder 0)
        ([.fatal (.lock usbErrorMsg), .driver] ++ [])⟩ :=
    Machine.step_thread_iff.mpr ⟨.driver, [], _, _, hstack, hexec, rfl⟩
  have hsafe : CallbackSafe cfg (.thread (.encoder 0) .usbError) := by
    refine ⟨by simp [hfree], fun htop => ?_⟩
    simp [Config.top, hstack] at htop
  refine ⟨_, ?_, ?_, lockSafe_of_callbackSafe (.step hreach hsafe hstep)⟩
  · exact hstreaming
  · simp [Config.top]

/-- While a recording is running, a control message of an encoder thread fails, and so
does one of those with which the error callback stops the capture. -/
def failTwice : List (Action Tid Choice ℕ) :=
  startRecording.map (.thread .commands) ++
    (.usbError :: goOn 10 ++ [Choice.usbError]).map (.thread (.encoder 0))

/-- The encoder thread blocks in `Fatal` on the run mutex that it holds. -/
theorem not_lockSafe : ¬ ∀ cfg, recorder.Reachable cfg → LockSafe cfg := by
  intro hall
  have hrun : (recorder.run (initial 0) failTwice).map
      (fun cfg => (cfg.top (.encoder 0), cfg.shared.runMutex)) =
      some (some (.fatal (.lock usbErrorMsg)), some (.encoder 0)) := by
    rfl
  obtain ⟨cfg, hreach, hvalue⟩ := System.exists_reachable_of_run (reachableBy_initial 0) hrun
  obtain ⟨htop, howner⟩ := Prod.mk.inj hvalue
  exact (hall cfg hreach).notHeld _ _ .run htop rfl howner

end HauppaugeUSB.MythTV

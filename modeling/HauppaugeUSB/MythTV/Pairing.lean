/-
# Starts and stops of the capture

Ideally the capture of the device goes round in a circle: idle, started but not
yet announced in `m_streaming`, streaming, about to be stopped by the thread that
found `m_streaming` set, and about to be stopped with `m_streaming` cleared. In
this circle starts and stops alternate.

The flag is tested and set without a lock, so the recorder follows the circle only
as long as no two threads enter `StopEncoding` together, no capture starts between
the store of `StopEncoding` and its call of the device, and no capture starts
behind the back of the destructor. What is proved is that these are all the ways
to leave it.
-/

import HauppaugeUSB.MythTV.Invariants

namespace HauppaugeUSB.MythTV

open HauppaugeUSB.Concurrency HauppaugeUSB.Commands

variable {tid : Tid} {frame : Frame} {choice : Choice} {s s' : Shared} {frames rest : List Frame}
  {cfg : Recorder}

/-- Starts and stops alternate, beginning with a start: the device is stopped before. -/
def Alternate (captures : List CaptureEvent) : Prop :=
  (CaptureEvent.stopped :: captures).IsChain (· ≠ ·)

/-- The last start has not been followed by a stop. -/
def isRunning (captures : List CaptureEvent) : Bool := captures.getLast? = some .started

theorem Alternate.start {captures : List CaptureEvent} (halternate : Alternate captures)
    (hidle : isRunning captures = false) : Alternate (captures ++ [.started]) := by
  rw [Alternate, ← List.cons_append, List.isChain_append]
  refine ⟨halternate, List.isChain_singleton _, fun last hlast first hfirst => ?_⟩
  obtain rfl : .started = first := by simpa using hfirst
  rintro rfl
  cases captures with
  | nil => simp at hlast
  | cons head later => simp_all [isRunning]

theorem Alternate.stop {captures : List CaptureEvent} (halternate : Alternate captures)
    (hrunning : isRunning captures = true) : Alternate (captures ++ [.stopped]) := by
  rw [Alternate, ← List.cons_append, List.isChain_append]
  refine ⟨halternate, List.isChain_singleton _, fun last hlast first hfirst => ?_⟩
  obtain rfl : .stopped = first := by simpa using hfirst
  rintro rfl
  cases captures with
  | nil => simp [isRunning] at hrunning
  | cons head later => simp_all [isRunning]

@[simp]
theorem isRunning_start (captures : List CaptureEvent) :
    isRunning (captures ++ [.started]) = true := by
  simp [isRunning]

@[simp]
theorem isRunning_stop (captures : List CaptureEvent) :
    isRunning (captures ++ [.stopped]) = false := by
  simp [isRunning]

/-- The stations of a capture. -/
inductive Phase
  | idle
  /-- `startCapture` has succeeded, `m_streaming` is not set yet. -/
  | launched
  | streaming
  /-- A thread has found `m_streaming` set and is going to clear it. -/
  | stopping (tid : Tid)
  /-- It has cleared it and is going to call `stopCapture`. -/
  | calling (tid : Tid)
  deriving DecidableEq

/-- `m_streaming` at a station. -/
def Phase.isStreaming : Phase → Bool
  | .streaming | .stopping _ => true
  | _ => false

/-- In `StopEncoding` between the test of `m_streaming` and the store. -/
def isStopping : Frame → Bool
  | .stop .ready | .stop .lock | .stop .dev | .stop .unlock | .stop .clear => true
  | _ => false

/-- In `StopEncoding` between the store and the call of the device. -/
def isCalling : Frame → Bool
  | .stop .call => true
  | _ => false

/-- In `StartEncoding` between the success of `startCapture` and the store. -/
def isLaunched : Frame → Bool
  | .start .logPorts | .start .set => true
  | _ => false

/-- The recorder is at a station. -/
structure AtPhase (cfg : Recorder) (phase : Phase) : Prop where
  streaming : cfg.shared.streaming = phase.isStreaming
  stopping : ∀ tid, cfg.Inside (isStopping ·) tid ↔ phase = .stopping tid
  calling : ∀ tid, cfg.Inside (isCalling ·) tid ↔ phase = .calling tid
  launched : cfg.Inside (isLaunched ·) .commands ↔ phase = .launched
  alternate : Alternate cfg.shared.captures
  running : isRunning cfg.shared.captures = true ↔ phase ≠ .idle

/-- `~MythTV`, called when `Wait` has returned, is past its own test of `m_streaming`. -/
def Tested (cfg : Recorder) : Prop :=
  (∃ point, cfg.base .main = some (.dtor point)) ∧
    cfg.stack .main ≠ [.terminate, .dtor .joinCommands] ∧
    cfg.stack .main ≠ [.stop .test, .dtor .joinCommands]

/-- No thread finds `m_streaming` set while another is going to clear it; no
`startCapture` succeeds while another thread is going to call `stopCapture`, or once
`~MythTV` has tested `m_streaming`; and `~MythTV` does not find it clear while another
thread is going to announce a successful start or to call `stopCapture`. -/
def PairingSafe (cfg : Recorder) : Action Tid Choice ℕ → Prop
  | .thread tid choice =>
      (cfg.top tid = some (.stop .test) → cfg.shared.streaming = true →
        ∀ other, other ≠ tid → ¬ cfg.Inside (isStopping ·) other) ∧
      (cfg.top tid = some (.start .capture) → choice = .answer true →
        (∀ other, other ≠ tid → ¬ cfg.Inside (isCalling ·) other) ∧ ¬ Tested cfg) ∧
      (cfg.stack tid = [.stop .test, .dtor .joinCommands] → cfg.shared.streaming = false →
        ∀ other, other ≠ tid → ¬ cfg.Inside (isLaunched ·) other ∧ ¬ cfg.Inside (isCalling ·) other)
  | .env _ => True

/-- Starts and stops alternate, and nothing runs when `~MythTV` deletes the device. -/
structure Paired (cfg : Recorder) : Prop where
  alternate : Alternate cfg.shared.captures
  stopped : cfg.base .main = some (.dtor .delete) ∨ cfg.base .main = some (.dtor .deleting) →
    isRunning cfg.shared.captures = false

/-! ## The recorder follows the circle -/

/-- The invariant of runs that meet the condition: once `~MythTV` has tested
`m_streaming`, only it itself may still have something to stop. -/
structure OnCircle (cfg : Recorder) (phase : Phase) : Prop extends AtPhase cfg phase where
  tested : Tested cfg → phase = .idle ∨
    cfg.base .main = some (.dtor .joinCommands) ∧ (phase = .stopping .main ∨ phase = .calling .main)

/-- `~MythTV` gets past its test by executing it. -/
theorem tested_before (hshape : WellShaped cfg) (hstack : cfg.stack tid = frame :: rest)
    (hexec : exec tid frame choice cfg.shared = some (s', frames))
    (htested : Tested ⟨s', Function.update cfg.stack tid (frames ++ rest)⟩) :
    Tested cfg ∨ tid = .main ∧ cfg.stack tid = [.stop .test, .dtor .joinCommands] := by
  obtain ⟨⟨point, hbase⟩, hterminate, htest⟩ := htested
  by_cases hmain : tid = .main
  · subst hmain
    simp only [Function.update_self] at hterminate htest
    by_cases hown : cfg.stack .main = [.stop .test, .dtor .joinCommands]
    · exact .inr ⟨rfl, hown⟩
    · refine .inl ⟨?_, fun hcalled => ?_, hown⟩
      · rcases base_main_step s' frames hstack with hsame | ⟨-, rfl, hlast⟩
        · exact ⟨point, hsame ▸ hbase⟩
        · rw [hlast] at hbase
          rcases exec_eq_some_iff.mp hexec with ⟨-, -, -, -, -, rfl⟩ | ⟨-, hstep⟩
          · exact ⟨point, by simpa [Config.base, hstack] using hbase⟩
          · rcases hshape.main_singleton hstack with ⟨wait, rfl⟩ | ⟨point, rfl⟩
            · cases wait <;> simp only [advance, waitStep] at hstep <;> grind
            · exact ⟨point, by simp [Config.base, hstack]⟩
      · rw [hcalled] at hstack
        obtain ⟨rfl, rfl⟩ := List.cons.inj hstack
        simp only [exec_eq_some_iff, Frame.isHardware, advance, terminateStep] at hexec
        grind
  · have hsame : Config.base ⟨s', Function.update cfg.stack tid (frames ++ rest)⟩ .main =
        cfg.base .main := Machine.base_update_of_ne (Ne.symm hmain)
    simp only [Function.update_of_ne (Ne.symm hmain)] at hterminate htest
    exact .inl ⟨⟨point, hsame ▸ hbase⟩, hterminate, htest⟩

/-- While `main` is in `StopEncoding`, its bottom frame stays. -/
theorem base_of_stop (hshape : WellShaped cfg) (hstack : cfg.stack tid = frame :: rest)
    {region : Frame → Prop} (hregion : ∀ frame, region frame → frame.kind = .stop)
    (hinside : cfg.Inside region .main) :
    Config.base ⟨s', Function.update cfg.stack tid (frames ++ rest)⟩ .main = cfg.base .main := by
  rcases base_main_step s' frames hstack with hsame | ⟨rfl, rfl, -⟩
  · exact hsame
  · obtain ⟨inner, hmem, hinner⟩ := hinside
    obtain rfl : inner = frame := by simpa [hstack] using hmem
    have hbase := hshape.kind_of_singleton hstack
    simp [hregion inner hinner] at hbase

theorem kind_of_isStopping (hstopping : isStopping frame = true) : frame.kind = .stop := by
  cases frame <;> simp_all [isStopping, Frame.kind]

theorem kind_of_isCalling (hcalling : isCalling frame = true) : frame.kind = .stop := by
  cases frame <;> simp_all [isCalling, Frame.kind]

/-- A step that keeps the flag, the history and every thread's side of the three
regions keeps the station. -/
theorem OnCircle.stay {phase : Phase} (hshape : WellShaped cfg) (hat : OnCircle cfg phase)
    (hok : PairingSafe cfg (.thread tid choice)) (hstack : cfg.stack tid = frame :: rest)
    (hexec : exec tid frame choice cfg.shared = some (s', frames))
    (hstopping : (∃ new ∈ frames, isStopping new = true) ↔ isStopping frame = true)
    (hcalling : (∃ new ∈ frames, isCalling new = true) ↔ isCalling frame = true)
    (hlaunched : (∃ new ∈ frames, isLaunched new = true) ↔ isLaunched frame = true)
    (hstreaming : s'.streaming = cfg.shared.streaming)
    (hcaptures : s'.captures = cfg.shared.captures)
    (hown : frame = .stop .test → cfg.shared.streaming = false) :
    OnCircle ⟨s', Function.update cfg.stack tid (frames ++ rest)⟩ phase where
  streaming := hstreaming.trans hat.streaming
  stopping other := (Machine.inside_congr hstack hstopping other).trans (hat.stopping other)
  calling other := (Machine.inside_congr hstack hcalling other).trans (hat.calling other)
  launched := (Machine.inside_congr hstack hlaunched .commands).trans hat.launched
  alternate := hcaptures ▸ hat.alternate
  running := hcaptures ▸ hat.running
  tested htested := by
    rcases tested_before hshape hstack hexec htested with hbefore | ⟨rfl, htest⟩
    · rcases hat.tested hbefore with hidle | ⟨hbase, hstop | hcall⟩
      · exact .inl hidle
      · have hinside := (hat.stopping .main).mpr hstop
        refine .inr ⟨?_, .inl hstop⟩
        rw [base_of_stop hshape hstack (fun _ => kind_of_isStopping) hinside, hbase]
      · have hinside := (hat.calling .main).mpr hcall
        refine .inr ⟨?_, .inr hcall⟩
        rw [base_of_stop hshape hstack (fun _ => kind_of_isCalling) hinside, hbase]
    · -- The destructor's own test, which finds the flag clear.
      left
      obtain ⟨rfl, -⟩ := List.cons.inj (hstack.symm.trans htest)
      have hclear := hown rfl
      have halone := hok.2.2 htest hclear
      cases phase with
      | idle => rfl
      | launched => exact absurd (hat.launched.mpr rfl) (halone .commands (by simp)).1
      | calling other =>
          have hinside := (hat.calling other).mpr rfl
          refine absurd hinside (halone other ?_).2
          rintro rfl
          obtain ⟨inner, hmem, hinner⟩ := hinside
          rw [htest] at hmem
          simp only [List.mem_cons, List.not_mem_nil, or_false] at hmem
          rcases hmem with rfl | rfl <;> simp [isCalling] at hinner
      | streaming | stopping other =>
          have hset := hat.streaming
          simp [Phase.isStreaming, hclear] at hset

/-- A region whose frames call nothing is never left behind under others. -/
theorem inside_after {region : Frame → Prop} (hshape : WellShaped cfg)
    (hregion : ∀ frame kind, region frame → calls frame kind = false)
    (hstack : cfg.stack tid = frame :: rest) (other : Tid) :
    Config.Inside ⟨s', Function.update cfg.stack tid (frames ++ rest)⟩ region other ↔
      other = tid ∧ (∃ new ∈ frames, region new) ∨ other ≠ tid ∧ cfg.Inside region other := by
  have hrest : ¬ ∃ old ∈ rest, region old := by
    rintro ⟨old, hold, hinner⟩
    obtain ⟨kind, hcalls⟩ := hshape.calls_of_mem_rest hstack hold
    simp [hregion old kind hinner] at hcalls
  by_cases hother : other = tid
  · subst hother
    rw [Machine.inside_update_self]
    simp [hrest]
  · rw [Machine.inside_update_of_ne hother]
    simp [hother]

theorem calls_of_isStopping (kind : Kind) (hstopping : isStopping frame = true) :
    calls frame kind = false := by
  cases frame with
  | stop point => cases point <;> simp_all [isStopping, calls]
  | _ => simp [isStopping] at hstopping

theorem calls_of_isCalling (kind : Kind) (hcalling : isCalling frame = true) :
    calls frame kind = false := by
  cases frame with
  | stop point => cases point <;> simp_all [isCalling, calls]
  | _ => simp [isCalling] at hcalling

/-- Threads stay in a region that a step neither enters nor leaves. -/
theorem inside_kept {region : Frame → Prop} {station station' : Tid → Prop}
    (hat : ∀ other, cfg.Inside region other ↔ station other)
    (hstack : cfg.stack tid = frame :: rest)
    (hframes : (∃ new ∈ frames, region new) ↔ region frame)
    (hsame : ∀ other, station other ↔ station' other) (other : Tid) :
    Config.Inside ⟨s', Function.update cfg.stack tid (frames ++ rest)⟩ region other ↔
      station' other := by
  rw [Machine.inside_congr hstack hframes, hat other, hsame other]

/-- `startCapture` succeeds. -/
theorem OnCircle.launch {phase : Phase} (hshape : WellShaped cfg) (hsound : Sound cfg)
    (hat : OnCircle cfg phase) (hok : PairingSafe cfg (.thread tid (.answer true)))
    (hstack : cfg.stack tid = .start .capture :: rest)
    (hexec : exec tid (.start .capture) (.answer true) cfg.shared =
      some (s', [.start .logPorts])) :
    OnCircle ⟨s', Function.update cfg.stack tid ([.start .logPorts] ++ rest)⟩ .launched := by
  obtain rfl := eq_commands (hshape.top_role hstack rfl)
  obtain rfl := hshape.rest_of_request hstack rfl
  obtain ⟨hnotCalling, hnotTested⟩ := hok.2.1 (top_of_stack hstack) rfl
  have hclear := hsound.starting _ _ (hstack ▸ List.mem_cons_self) rfl
  obtain rfl : phase = .idle := by
    cases phase with
    | idle => rfl
    | launched =>
        obtain ⟨inner, hmem, hinner⟩ := hat.launched.mpr rfl
        rw [hstack] at hmem
        simp only [List.mem_cons, List.not_mem_nil, or_false] at hmem
        rcases hmem with rfl | rfl <;> simp [isLaunched] at hinner
    | calling other =>
        obtain ⟨inner, hmem, hinner⟩ := (hat.calling other).mpr rfl
        refine absurd ⟨inner, hmem, hinner⟩ (hnotCalling other ?_)
        rintro rfl
        rw [hstack] at hmem
        simp only [List.mem_cons, List.not_mem_nil, or_false] at hmem
        rcases hmem with rfl | rfl <;> simp [isCalling] at hinner
    | streaming | stopping other =>
        have hset := hat.streaming
        simp [Phase.isStreaming, hclear] at hset
  have hs' : s' = { cfg.shared with
      captures := cfg.shared.captures ++ [.started], live := true } := by
    simp only [exec_eq_some_iff, advance, startStep] at hexec
    grind
  have hidle : isRunning cfg.shared.captures = false := by simpa using hat.running
  constructor
  case tested =>
    intro htested
    rcases tested_before hshape hstack hexec htested with hbefore | ⟨hmain, -⟩
    · exact absurd hbefore hnotTested
    · simp at hmain
  subst hs'
  constructor
  · exact hclear
  · exact inside_kept hat.stopping hstack (by simp [isStopping]) (by simp)
  · exact inside_kept hat.calling hstack (by simp [isCalling]) (by simp)
  · rw [Machine.inside_update_self]
    simp [isLaunched]
  · exact hat.alternate.start hidle
  · simp

/-- `StartEncoding` sets `m_streaming`. -/
theorem OnCircle.announce {phase : Phase} (hshape : WellShaped cfg) (hat : OnCircle cfg phase)
    (hstack : cfg.stack tid = .start .set :: rest)
    (hexec : exec tid (.start .set) choice cfg.shared = some (s', [.start .reply])) :
    OnCircle ⟨s', Function.update cfg.stack tid ([.start .reply] ++ rest)⟩ .streaming := by
  obtain rfl := eq_commands (hshape.top_role hstack rfl)
  obtain rfl := hshape.rest_of_request hstack rfl
  obtain rfl : phase = .launched :=
    hat.launched.mp ⟨.start .set, hstack ▸ List.mem_cons_self, rfl⟩
  have hs' : s' = { cfg.shared with
      streaming := true, since := some cfg.shared.now, recording := cfg.shared.epoch } := by
    simp only [exec_eq_some_iff, Frame.isHardware, advance, startStep] at hexec
    grind
  constructor
  case tested =>
    intro htested
    rcases tested_before hshape hstack hexec htested with hbefore | ⟨hmain, -⟩
    · simpa using hat.tested hbefore
    · simp at hmain
  subst hs'
  constructor
  · rfl
  · exact inside_kept hat.stopping hstack (by simp [isStopping]) (by simp)
  · exact inside_kept hat.calling hstack (by simp [isCalling]) (by simp)
  · rw [Machine.inside_update_self]
    simp [isLaunched]
  · exact hat.alternate
  · simpa using hat.running

/-- `StopEncoding` finds `m_streaming` set. -/
theorem OnCircle.enter {phase : Phase} (hshape : WellShaped cfg) (hat : OnCircle cfg phase)
    (hok : PairingSafe cfg (.thread tid choice)) (hstack : cfg.stack tid = .stop .test :: rest)
    (hstreaming : cfg.shared.streaming = true)
    (hexec : exec tid (.stop .test) choice cfg.shared = some (s', [.stop .ready])) :
    OnCircle ⟨s', Function.update cfg.stack tid ([.stop .ready] ++ rest)⟩ (.stopping tid) := by
  have halone := hok.1 (top_of_stack hstack) hstreaming
  have hphase := hat.streaming
  obtain rfl : phase = .streaming := by
    cases phase with
    | streaming => rfl
    | stopping other =>
        have hinside := (hat.stopping other).mpr rfl
        refine absurd hinside (halone other ?_)
        rintro rfl
        obtain hstop | ⟨old, hold, hinner⟩ := (Config.inside_iff hstack).mp hinside
        · simp [isStopping] at hstop
        · obtain ⟨kind, hcalls⟩ := hshape.calls_of_mem_rest hstack hold
          simp [calls_of_isStopping kind hinner] at hcalls
    | idle | launched | calling other => simp [Phase.isStreaming, hstreaming] at hphase
  have hs' : s' = { cfg.shared with live := false } := by
    simp only [exec_eq_some_iff, Frame.isHardware, advance, stopStep, hstreaming] at hexec
    grind
  constructor
  case tested =>
    intro htested
    rcases tested_before hshape hstack hexec htested with hbefore | ⟨rfl, hown⟩
    · simpa using hat.tested hbefore
    · obtain ⟨-, rfl⟩ := List.cons.inj (hstack.symm.trans hown)
      exact .inr ⟨by simp [Config.base], .inl rfl⟩
  subst hs'
  constructor
  · exact hstreaming
  · intro other
    rw [inside_after hshape (fun _ => calls_of_isStopping) hstack other, hat.stopping other]
    simp only [List.mem_singleton, exists_eq_left, isStopping]
    grind
  · exact inside_kept hat.calling hstack (by simp [isCalling]) (by simp)
  · rw [Machine.inside_congr hstack (by simp [isLaunched]), hat.launched]
    simp
  · exact hat.alternate
  · simpa using hat.running

/-- `StopEncoding` finds that there is no device any more. -/
theorem OnCircle.giveUp {phase : Phase} (hshape : WellShaped cfg) (hsound : Sound cfg)
    (hat : OnCircle cfg phase) (hstack : cfg.stack tid = .stop .dev :: rest)
    (hdev : cfg.shared.dev = none)
    (hexec : exec tid (.stop .dev) choice cfg.shared = some (s', [.stop .noDev])) :
    OnCircle ⟨s', Function.update cfg.stack tid ([.stop .noDev] ++ rest)⟩ .streaming := by
  obtain rfl : phase = .stopping tid :=
    (hat.stopping tid).mp ⟨.stop .dev, hstack ▸ List.mem_cons_self, rfl⟩
  have hs' : s' = cfg.shared := by
    simp only [exec_eq_some_iff, Frame.isHardware, advance, stopStep, hdev] at hexec
    grind
  constructor
  case tested =>
    intro htested
    rcases tested_before hshape hstack hexec htested with hbefore | ⟨rfl, hown⟩
    · -- The device of a thread past the test of `m_ready` is gone in the destructor only.
      have hready := hsound.called tid _ (hstack ▸ List.mem_cons_self) rfl
      rcases hsound.device hready with hopened | hdeleting
      · simp [hdev] at hopened
      · rcases hat.tested hbefore with hidle | ⟨hbase, -⟩
        · simp at hidle
        · simp [hbase, isDeleting] at hdeleting
    · simp [hstack] at hown
  subst hs'
  constructor
  · exact hat.streaming
  · intro other
    rw [inside_after hshape (fun _ => calls_of_isStopping) hstack other, hat.stopping other]
    simp only [List.mem_singleton, exists_eq_left, isStopping]
    grind
  · exact inside_kept hat.calling hstack (by simp [isCalling]) (by simp)
  · rw [Machine.inside_congr hstack (by simp [isLaunched]), hat.launched]
    simp
  · exact hat.alternate
  · simpa using hat.running

/-- `StopEncoding` clears `m_streaming`. -/
theorem OnCircle.clear {phase : Phase} (hshape : WellShaped cfg) (hat : OnCircle cfg phase)
    (hstack : cfg.stack tid = .stop .clear :: rest)
    (hexec : exec tid (.stop .clear) choice cfg.shared = some (s', [.stop .call])) :
    OnCircle ⟨s', Function.update cfg.stack tid ([.stop .call] ++ rest)⟩ (.calling tid) := by
  have hinside : cfg.Inside (isStopping ·) tid :=
    ⟨.stop .clear, hstack ▸ List.mem_cons_self, rfl⟩
  obtain rfl : phase = .stopping tid := (hat.stopping tid).mp hinside
  have hs' : s' = { cfg.shared with streaming := false, since := none } := by
    simp only [exec_eq_some_iff, Frame.isHardware, advance, stopStep] at hexec
    grind
  constructor
  case tested =>
    intro htested
    rcases tested_before hshape hstack hexec htested with hbefore | ⟨rfl, hown⟩
    · rcases hat.tested hbefore with hidle | ⟨hbase, hstop | hcall⟩
      · simp at hidle
      · obtain rfl : tid = .main := by simpa using hstop
        refine .inr ⟨?_, .inr rfl⟩
        rw [base_of_stop hshape hstack (fun _ => kind_of_isStopping) hinside, hbase]
      · simp at hcall
    · simp [hstack] at hown
  subst hs'
  constructor
  · rfl
  · intro other
    rw [inside_after hshape (fun _ => calls_of_isStopping) hstack other, hat.stopping other]
    simp only [List.mem_singleton, exists_eq_left, isStopping]
    grind
  · intro other
    rw [inside_after hshape (fun _ => calls_of_isCalling) hstack other, hat.calling other]
    simp only [List.mem_singleton, exists_eq_left, isCalling]
    grind
  · rw [Machine.inside_congr hstack (by simp [isLaunched]), hat.launched]
    simp
  · exact hat.alternate
  · simpa using hat.running

/-- `stopCapture` is called. -/
theorem OnCircle.call {phase : Phase} (hshape : WellShaped cfg) (hat : OnCircle cfg phase)
    (hstack : cfg.stack tid = .stop .call :: rest)
    (hexec : exec tid (.stop .call) choice cfg.shared = some (s', [.stop .capture])) :
    OnCircle ⟨s', Function.update cfg.stack tid ([.stop .capture] ++ rest)⟩ .idle := by
  obtain rfl : phase = .calling tid :=
    (hat.calling tid).mp ⟨.stop .call, hstack ▸ List.mem_cons_self, rfl⟩
  have hs' : s' = { cfg.shared with captures := cfg.shared.captures ++ [.stopped] } := by
    simp only [exec_eq_some_iff, Frame.isHardware, advance, stopStep] at hexec
    grind
  have hrunning : isRunning cfg.shared.captures = true := hat.running.mpr (by simp)
  constructor
  case tested => exact fun _ => .inl rfl
  subst hs'
  constructor
  · exact hat.streaming
  · exact inside_kept hat.stopping hstack (by simp [isStopping]) (by simp)
  · intro other
    rw [inside_after hshape (fun _ => calls_of_isCalling) hstack other, hat.calling other]
    simp only [List.mem_singleton, exists_eq_left, isCalling]
    grind
  · rw [Machine.inside_congr hstack (by simp [isLaunched]), hat.launched]
    simp
  · exact hat.alternate.stop hrunning
  · simp

/-- Only points inside `StopEncoding` and `StartEncoding` belong to the regions. -/
theorem outside_regions (houtside : frame.isEntry = true ∨
      frame.routine ≠ .stop ∧ frame.routine ≠ .start) :
    isStopping frame = false ∧ isCalling frame = false ∧ isLaunched frame = false := by
  cases frame with
  | stop point | start point =>
      cases point <;>
        simp_all [Frame.isEntry, Frame.routine, isStopping, isCalling, isLaunched]
  | _ => simp [isStopping, isCalling, isLaunched]

/-- A step of any other function stays at the station. -/
theorem OnCircle.stay_of_routine {phase : Phase} (hshape : WellShaped cfg)
    (hat : OnCircle cfg phase) (hok : PairingSafe cfg (.thread tid choice))
    (hstack : cfg.stack tid = frame :: rest)
    (hexec : exec tid frame choice cfg.shared = some (s', frames))
    (hroutine : frame.routine ≠ .stop ∧ frame.routine ≠ .start) :
    OnCircle ⟨s', Function.update cfg.stack tid (frames ++ rest)⟩ phase := by
  have hframe := outside_regions (.inr hroutine)
  have hnew : ∀ new ∈ frames,
      isStopping new = false ∧ isCalling new = false ∧ isLaunched new = false := by
    intro new hmem
    rcases (exec_shape hexec).routine new hmem with hentry | hsame
    · exact outside_regions (.inl hentry)
    · exact outside_regions (.inr (hsame ▸ hroutine))
  have heffects := exec_effects hexec
  refine hat.stay hshape hok hstack hexec ?_ ?_ ?_ ?_ ?_ ?_
  · simp only [hframe.1, Bool.false_eq_true, iff_false]
    rintro ⟨new, hmem, hinner⟩
    simp [(hnew new hmem).1] at hinner
  · simp only [hframe.2.1, Bool.false_eq_true, iff_false]
    rintro ⟨new, hmem, hinner⟩
    simp [(hnew new hmem).2.1] at hinner
  · simp only [hframe.2.2, Bool.false_eq_true, iff_false]
    rintro ⟨new, hmem, hinner⟩
    simp [(hnew new hmem).2.2] at hinner
  · rcases heffects.streaming with ⟨hsame, -⟩ | ⟨rfl, -⟩ | ⟨rfl, -⟩
    · exact hsame
    · exact absurd rfl hroutine.1
    · exact absurd rfl hroutine.2
  · rcases heffects.captures with hsame | ⟨rfl, -⟩ | ⟨rfl, -⟩
    · exact hsame
    · exact absurd rfl hroutine.1
    · exact absurd rfl hroutine.2
  · rintro rfl
    exact absurd rfl hroutine.1

/-- Every step that meets the condition goes on along the circle. -/
theorem onCircle_step {phase : Phase} (hshape : WellShaped cfg) (hsound : Sound cfg)
    (hat : OnCircle cfg phase) (hok : PairingSafe cfg (.thread tid choice))
    (hstack : cfg.stack tid = frame :: rest)
    (hexec : exec tid frame choice cfg.shared = some (s', frames)) :
    ∃ phase', OnCircle ⟨s', Function.update cfg.stack tid (frames ++ rest)⟩ phase' := by
  have hstay := hat.stay hshape hok hstack hexec
  rcases exec_eq_some_iff.mp hexec with ⟨-, hhardware, -, -, rfl, rfl⟩ | ⟨-, hstep⟩
  · refine ⟨phase, hstay ?_ ?_ ?_ rfl rfl ?_⟩
    · simp [isStopping]
    · simp [isCalling]
    · simp [isLaunched]
    · rintro rfl
      simp [Frame.isHardware] at hhardware
  · cases frame with
    | stop point =>
        cases point with
        | test =>
            by_cases hstreaming : cfg.shared.streaming = true
            · simp only [advance, stopStep, hstreaming] at hstep
              cases hstep
              exact ⟨_, hat.enter hshape hok hstack hstreaming hexec⟩
            · simp only [advance, stopStep, hstreaming] at hstep
              cases hstep
              refine ⟨phase, hstay ?_ ?_ ?_ rfl rfl fun _ => by simpa using hstreaming⟩ <;>
                simp [isStopping, isCalling, isLaunched]
        | ready =>
            have hready := hsound.called tid _ (hstack ▸ List.mem_cons_self) rfl
            simp only [advance, stopStep, hready] at hstep
            cases hstep
            refine ⟨phase, hstay ?_ ?_ ?_ rfl rfl (by simp)⟩ <;>
              simp [isStopping, isCalling, isLaunched]
        | dev =>
            simp only [advance, stopStep] at hstep
            split at hstep
            case isTrue hdev =>
                cases hstep
                exact ⟨_, hat.giveUp hshape hsound hstack hdev hexec⟩
            case isFalse =>
                cases hstep
                refine ⟨phase, hstay ?_ ?_ ?_ rfl rfl (by simp)⟩ <;>
                  simp [isStopping, isCalling, isLaunched]
        | clear =>
            cases hstep
            exact ⟨_, hat.clear hshape hstack hexec⟩
        | call =>
            cases hstep
            exact ⟨_, hat.call hshape hstack hexec⟩
        | _ =>
            simp only [advance, stopStep] at hstep
            try split at hstep
            all_goals cases hstep
            all_goals refine ⟨phase, hstay ?_ ?_ ?_ rfl rfl (by simp)⟩ <;>
              simp [isStopping, isCalling, isLaunched]
    | start point =>
        cases point with
        | capture =>
            simp only [advance, startStep] at hstep
            split at hstep <;> cases hstep
            · exact ⟨_, hat.launch hshape hsound hok hstack hexec⟩
            · refine ⟨phase, hstay ?_ ?_ ?_ rfl rfl (by simp)⟩ <;>
                simp [isStopping, isCalling, isLaunched]
        | set =>
            cases hstep
            exact ⟨_, hat.announce hshape hstack hexec⟩
        | _ =>
            simp only [advance, startStep] at hstep
            try split at hstep
            all_goals cases hstep
            all_goals refine ⟨phase, hstay ?_ ?_ ?_ rfl rfl (by simp)⟩ <;>
              simp [isStopping, isCalling, isLaunched]
    | _ =>
        refine ⟨phase, hat.stay_of_routine hshape hok hstack hexec ?_⟩
        simp [Frame.routine]

theorem onCircle_initial (now : ℤ) : OnCircle (initial now) .idle where
  streaming := rfl
  stopping tid := by cases tid <;> simp [Config.Inside, initial, Tid.entry, isStopping]
  calling tid := by cases tid <;> simp [Config.Inside, initial, Tid.entry, isCalling]
  launched := by simp [Config.Inside, initial, Tid.entry, isLaunched]
  alternate := List.isChain_singleton _
  running := by simp [initial, Shared.initial, isRunning]
  tested := fun _ => .inl rfl

/-- The recorder is somewhere on the circle. -/
def Circling (cfg : Recorder) : Prop := ∃ phase, OnCircle cfg phase

theorem circling (hreach : recorder.ReachableBy PairingSafe cfg) : Circling cfg := by
  refine recorder_invariant hreach (fun now => ⟨.idle, onCircle_initial now⟩)
    (fun state elapsed hlaw => ?_) fun hprior hlaw hok hstack hexec => ?_
  · obtain ⟨phase, hat⟩ := hlaw
    exact ⟨phase, { hat with }⟩
  · obtain ⟨phase, hat⟩ := hlaw
    exact onCircle_step (wellShaped hprior) (sound hprior) hat hok hstack hexec

/-- A run that meets the condition pairs starts and stops. -/
theorem paired_of_pairingSafe (hreach : recorder.ReachableBy PairingSafe cfg) : Paired cfg := by
  obtain ⟨phase, hat⟩ := circling hreach
  refine ⟨hat.alternate, fun hdeleting => ?_⟩
  have htested : Tested cfg := by
    refine ⟨hdeleting.elim (fun h => ⟨_, h⟩) fun h => ⟨_, h⟩, ?_, ?_⟩ <;>
      (intro hstack; simp [Config.base, hstack] at hdeleting)
  rcases hat.tested htested with rfl | ⟨hbase, -⟩
  · simpa using hat.running
  · simp [hbase] at hdeleting

/-- While the other threads are where they began, they are in none of the regions. -/
theorem pairingSafe_of_onlyCommands (honly : OnlyCommands cfg) :
    PairingSafe cfg (.thread .commands choice) := by
  have hother : ∀ other, other ≠ .commands → ¬ cfg.Inside (isStopping ·) other ∧
      ¬ cfg.Inside (isLaunched ·) other ∧ ¬ cfg.Inside (isCalling ·) other := by
    intro other hne
    simp only [Config.Inside, honly other hne]
    cases other <;> simp [Tid.entry, isStopping, isLaunched, isCalling]
  refine ⟨fun _ _ other hne => (hother other hne).1, fun _ _ => ⟨?_, ?_⟩, ?_⟩
  · exact fun other hne => (hother other hne).2.2
  · rintro ⟨⟨point, hbase⟩, -⟩
    simp [Config.base, honly .main (by simp), Tid.entry] at hbase
  · exact fun _ _ other hne => (hother other hne).2

/-- One recording that `Commands` starts and stops while nothing else happens. -/
theorem paired_after_recording :
    ∃ cfg, cfg.shared.captures = [.started, .stopped] ∧ Paired cfg := by
  have hrun : (recorder.run (initial 0)
      ((startRecording ++ dispatch .stopStreaming ++ finishStop).map (.thread .commands))).map
      (fun cfg => cfg.shared.captures) = some [.started, .stopped] := by
    rfl
  obtain ⟨cfg, hreach, -, hvalue⟩ :=
    exists_reachableBy_of_commands (fun cfg honly _ _ => pairingSafe_of_onlyCommands honly) hrun
  exact ⟨cfg, hvalue, paired_of_pairingSafe hreach⟩

/-- `StopStreaming` is read and finds `m_streaming` set; a control message of an
encoder thread fails, and the error callback finds it set, too. Then both stop. -/
def stopTwice : List (Action Tid Choice ℕ) :=
  (startRecording ++ dispatch .stopStreaming).map (.thread .commands) ++
    (.usbError :: goOn 10).map (.thread (.encoder 0)) ++
    finishStop.map (.thread .commands)

theorem not_paired : ¬ ∀ cfg, recorder.Reachable cfg → Paired cfg := by
  intro hall
  have hrun : (recorder.run (initial 0) stopTwice).map (fun cfg => cfg.shared.captures) =
      some [.started, .stopped, .stopped] := by
    rfl
  obtain ⟨cfg, hreach, hvalue⟩ := System.exists_reachable_of_run (reachableBy_initial 0) hrun
  have halternate := (hall cfg hreach).alternate
  rw [hvalue] at halternate
  simp [Alternate] at halternate

end HauppaugeUSB.MythTV

/-
# Delivery

While the recorder streams and is not told to pause, `Buffer::Run` hands the blocks of the
queue to `write(1)`. It needs the flow mutex for that, and so do `Fill`, `OpenDev` and
`StopEncoding`. In a recorder that is streaming none of them keeps the mutex for more than two
statements, waits for anything else in between or calls the device, so the queue gets out in
every state that a run can reach, however its threads stand. The exception is a `Buffer::Run`
that has found no recording and is about to clear the queue.

When a recording has been stopped, the loop may still have a block in hand or be on its way to
one. It is the last one that is written before the next recording starts.
-/

import HauppaugeUSB.MythTV.Shutdown

namespace HauppaugeUSB.MythTV

open HauppaugeUSB.Concurrency HauppaugeUSB.Commands

variable {tid : Tid} {frame new : Frame} {choice : Choice} {s s' : Shared}
  {frames rest : List Frame} {cfg : Recorder}

/-- The points past a test that has found `m_run` false. -/
def isEnding : Frame → Bool
  | .dtor _ | .buffer .exit => true
  | _ => false

theorem ending_step (hexec : exec tid frame choice s = some (s', frames)) (hnew : new ∈ frames)
    (hending : isEnding new = true) : isEnding frame = true ∨ s.run = false := by
  rcases exec_eq_some_iff.mp hexec with ⟨-, -, -, -, -, rfl⟩ | ⟨hchoice, hstep⟩
  · rcases List.mem_pair.mp hnew with rfl | rfl
    · simp [isEnding] at hending
    · exact .inl hending
  rcases (exec_shape hexec).routine new hnew with hentry | hroutine
  · -- The destructor is entered from `Wait`.
    have henters : enters frame new = true :=
      ((exec_shape hexec).entered new hnew hentry).resolve_right fun hfails => hchoice hfails.1
    cases new with
    | dtor entry =>
        cases frame with
        | wait point =>
            cases point <;> simp [enters] at henters
            simp only [advance, waitStep] at hstep
            split at hstep <;> cases hstep
            · simp at hnew
            · exact .inr (by simpa using ‹¬ s.run = true›)
        | _ => simp [enters] at henters
    | _ => simp_all [isEnding, Frame.isEntry]
  · cases new <;> simp only [isEnding, Bool.false_eq_true] at hending <;>
      cases frame <;> simp only [Frame.routine, reduceCtorEq] at hroutine
    · exact .inl rfl
    · rename_i point
      cases point <;> simp only [advance, bufferStep] at hstep <;> (try split at hstep) <;>
        (try split at hstep) <;> cases hstep <;> simp_all [isEnding]

/-- A recorder that goes on has `main` in `Wait` and `Buffer` in its loop. -/
structure RunningLaw (cfg : Recorder) : Prop where
  frames : cfg.AllFrames fun _ frame s => isEnding frame = true → s.run = false
  buffer : cfg.stack .buffer = [] → cfg.shared.run = false

theorem runningLaw (hreach : recorder.Reachable cfg) : RunningLaw cfg := by
  refine recorder_invariant hreach (fun now => ⟨?_, fun hnil => by cases hnil⟩)
    (fun _ _ hlaw => ⟨hlaw.frames, hlaw.buffer⟩) ?_
  · intro tid frame hmem
    cases tid <;> simp_all [initial, Tid.entry, isEnding]
  intro cfg tid choice frame rest s' frames hprior hlaw _ hstack hexec
  have hrun := (verdictStep hexec).run
  have htop := hlaw.frames tid frame (hstack ▸ List.mem_cons_self)
  refine ⟨Machine.allFrames_of_exec hstack hlaw.frames (fun new hnew hending => hrun ?_)
    (fun _ _ hold hending => hrun (hold hending))
    fun _ _ _ _ hold hending => hrun (hold hending), fun hnil => hrun ?_⟩
  · exact (ending_step hexec hnew hending).elim htop id
  · by_cases htid : tid = .buffer
    case neg => exact hlaw.buffer (by simpa [Function.update_of_ne (Ne.symm htid)] using hnil)
    subst htid
    obtain ⟨rfl, rfl⟩ : frames = [] ∧ rest = [] := by simpa using hnil
    obtain ⟨point, rfl, -⟩ := (wellShaped hprior).buffer_stack (hstack ▸ List.mem_cons_self)
    have hstep := advance_of_exec rfl hexec
    cases point <;> simp only [advance, bufferStep] at hstep <;> (try split at hstep) <;>
      (try split at hstep) <;> cases hstep
    exact htop rfl

/-- The recorder passes blocks on. -/
structure Passing (s : Shared) : Prop where
  run : s.run = true
  streaming : s.streaming = true
  xon : s.xon = true

/-- The points at which a thread other than `Buffer` holds the flow mutex of a recorder that is
streaming, with the number of statements up to the release. -/
def Frame.untilRelease : Frame → ℕ
  | .fill (.push ..) | .openDev .test | .stop .dev => 2
  | .fill (.unlock _) | .openDev .unlock | .stop .noDev | .stop .unlock => 1
  | _ => 0

/-- Whoever holds the flow mutex of a recorder that is streaming lets go of it soon. -/
theorem untilRelease_of_owner (hreach : recorder.Reachable cfg) (hpassing : Passing cfg.shared)
    (howner : cfg.shared.flowMutex = some tid) (htid : tid ≠ .buffer) :
    ∃ frame rest, cfg.stack tid = frame :: rest ∧ 0 < frame.untilRelease := by
  have hshape := wellShaped hreach
  have hsound := sound hreach
  have hready := hsound.streaming hpassing.streaming
  obtain ⟨frame, hmem, hholds⟩ := hshape.flow.exists_of_owner howner
  have hleft : 0 < frame.untilRelease := by
    have hopen := hsound.opening tid frame hmem hholds
    have hgoes := (runningLaw hreach).frames tid frame hmem
    cases frame with
    | buffer point => exact absurd (eq_buffer (hshape.role_of_mem hmem rfl)) htid
    | dtor point => simp [isEnding, hpassing.run] at hgoes
    | openDev point =>
        cases point <;> simp_all [flowView, holdsFlow, openLaw, Frame.untilRelease]
    | stop point | fill point =>
        cases point <;> simp_all [flowView, holdsFlow, Frame.untilRelease]
    | _ => simp [flowView, holdsFlow] at hholds
  cases hstack : cfg.stack tid with
  | nil => simp [hstack] at hmem
  | cons top rest =>
      rcases List.mem_cons.mp (hstack ▸ hmem) with rfl | hrest
      · exact ⟨frame, rest, rfl, hleft⟩
      · -- None of these statements is a call.
        obtain ⟨kind, hcalls⟩ := hshape.calls_of_mem_rest hstack hrest
        cases frame with
        | openDev point | stop point | fill point =>
            cases point <;> simp [Frame.untilRelease, calls] at hleft hcalls
        | _ => simp [Frame.untilRelease] at hleft

/-- A statement on the way to the release of the flow mutex. -/
structure ReleaseStep (frame : Frame) (s s' : Shared) (frames : List Frame) : Prop where
  passing : Passing s → Passing s'
  popped : s'.popped = s.popped
  owner : s'.flowMutex = none ∨ s'.flowMutex = s.flowMutex ∧ ∃ next, frames = [next] ∧
    next.untilRelease < frame.untilRelease ∧ isPushing (some next) = false
  data : s'.data = s.data ∨
    isPushing (some frame) = true ∧ ∃ block, s'.data = s.data ++ [block]

theorem exists_releaseStep (tid : Tid) (hleft : 0 < frame.untilRelease)
    (hdev : frame = .openDev .test → s.dev ≠ none) :
    ∃ s' frames, exec tid frame .proceed s = some (s', frames) ∧
      ReleaseStep frame s s' frames := by
  have hproceed : Choice.proceed ≠ .usbError := by decide
  simp only [exec, if_neg hproceed]
  cases frame with
  | fill point =>
      cases point with
      | push call bytes =>
          by_cases hroom : s.data.length < maxQueue
          · exact ⟨_, _, if_pos hroom, fun h => ⟨h.run, h.streaming, h.xon⟩, rfl,
              .inr ⟨rfl, _, rfl, Nat.lt_succ_self 1, rfl⟩, .inr ⟨rfl, _, rfl⟩⟩
          · exact ⟨_, _, if_neg hroom, fun h => ⟨h.run, h.streaming, h.xon⟩, rfl,
              .inr ⟨rfl, _, rfl, Nat.lt_succ_self 1, rfl⟩, .inl rfl⟩
      | unlock call =>
          exact ⟨_, _, rfl, fun h => ⟨h.run, h.streaming, h.xon⟩, rfl, .inl rfl, .inl rfl⟩
      | _ => simp [Frame.untilRelease] at hleft
  | openDev point =>
      cases point with
      | test =>
          exact ⟨_, _, if_neg (hdev rfl), id, rfl, .inr ⟨rfl, _, rfl, by decide, rfl⟩, .inl rfl⟩
      | unlock =>
          exact ⟨_, _, rfl, fun h => ⟨h.run, h.streaming, h.xon⟩, rfl, .inl rfl, .inl rfl⟩
      | _ => simp [Frame.untilRelease] at hleft
  | stop point =>
      cases point with
      | dev =>
          by_cases hnone : s.dev = none
          · exact ⟨_, _, if_pos hnone, id, rfl, .inr ⟨rfl, _, rfl, by decide, rfl⟩, .inl rfl⟩
          · exact ⟨_, _, if_neg hnone, id, rfl, .inr ⟨rfl, _, rfl, by decide, rfl⟩, .inl rfl⟩
      | noDev | unlock =>
          exact ⟨_, _, rfl, fun h => ⟨h.run, h.streaming, h.xon⟩, rfl, .inl rfl, .inl rfl⟩
      | _ => simp [Frame.untilRelease] at hleft
  | _ => simp [Frame.untilRelease] at hleft

/-- The statements up to the next test of `m_run`, and those of a whole pass for each block that
is left; a pass that takes a block has seven. -/
def BufferPoint.passLeft : BufferPoint → ℕ
  | .unlock _ => 9
  | .write _ | .clearLock | .clearUnlock => 8
  | .loop => 7
  | .streaming => 6
  | .xon => 5
  | .lock => 4
  | .pop => 3
  | .clear | .exit => 0

/-- A statement of `Buffer::Run` that brings the queue nearer to its end. -/
structure PassStep (point new : BufferPoint) (s s' : Shared) : Prop where
  passing : Passing s'
  books : s'.popped ++ s'.data = s.popped ++ s.data
  owner : s'.flowMutex = s.flowMutex ∨ s'.flowMutex = none ∨ s'.flowMutex = some .buffer
  clear : new ≠ .clear
  nearer : 7 * s'.data.length + new.passLeft < 7 * s.data.length + point.passLeft

/-- A statement that leaves the queue alone. -/
theorem PassStep.moves {point new : BufferPoint} (hpassing : Passing s')
    (hdata : s'.data = s.data) (hpopped : s'.popped = s.popped)
    (howner : s'.flowMutex = s.flowMutex ∨ s'.flowMutex = none ∨ s'.flowMutex = some .buffer)
    (hclear : new ≠ .clear) (hnearer : point.passLeft = new.passLeft + 1) :
    PassStep point new s s' := by
  refine ⟨hpassing, by rw [hdata, hpopped], howner, hclear, ?_⟩
  rw [hdata, hnearer]
  exact Nat.lt_succ_self _

theorem exists_passStep {point : BufferPoint} (hpassing : Passing s) (hclear : point ≠ .clear)
    (hexit : point ≠ .exit) (hfree : point = .lock → s.flowMutex = none)
    (hleft : s.data ≠ [] ∨ handOf (.buffer point) ≠ []) :
    ∃ choice s' new, exec .buffer (.buffer point) choice s = some (s', [.buffer new]) ∧
      PassStep point new s s' := by
  have hproceed : Choice.proceed ≠ .usbError := by decide
  have htimeout : Choice.timeout ≠ .usbError := by decide
  have hgo {s' : Shared} {new : BufferPoint}
      (hstep : bufferStep .buffer .proceed s point = some (s', [.buffer new]))
      (hpass : PassStep point new s s') :
      ∃ choice s' new, exec .buffer (.buffer point) choice s = some (s', [.buffer new]) ∧
        PassStep point new s s' :=
    ⟨.proceed, s', new, by rwa [exec, if_neg hproceed], hpass⟩
  have hkeep : Passing { s with flowMutex := none } ∧
      Passing { s with flowMutex := some .buffer } :=
    ⟨⟨hpassing.run, hpassing.streaming, hpassing.xon⟩,
      hpassing.run, hpassing.streaming, hpassing.xon⟩
  cases point with
  | loop => exact hgo (if_pos hpassing.run) (.moves hpassing rfl rfl (.inl rfl) (by simp) rfl)
  | streaming =>
      exact hgo (if_pos hpassing.streaming) (.moves hpassing rfl rfl (.inl rfl) (by simp) rfl)
  | xon => exact hgo (if_pos hpassing.xon) (.moves hpassing rfl rfl (.inl rfl) (by simp) rfl)
  | lock =>
      have hne : Choice.proceed ≠ .timeout := by decide
      have hstep : bufferStep .buffer .proceed s .lock =
          some ({ s with flowMutex := some .buffer }, [.buffer .pop]) := by
        rw [bufferStep, if_neg hne, if_pos (hfree rfl)]
      exact hgo hstep (.moves hkeep.2 rfl rfl (.inr (.inr rfl)) (by simp) rfl)
  | pop =>
      obtain ⟨pkt, later, hdata⟩ : ∃ pkt later, s.data = pkt :: later :=
        List.exists_cons_of_ne_nil (hleft.resolve_right (by simp [handOf]))
      have hstep : bufferStep .buffer .proceed s .pop =
          some ({ s with data := later, popped := s.popped ++ [pkt] },
            [.buffer (.unlock pkt)]) := by
        simp only [bufferStep, hdata]
      refine hgo hstep ⟨⟨hpassing.run, hpassing.streaming, hpassing.xon⟩, ?_, .inl rfl, by simp, ?_⟩
      · simp [hdata]
      · simp only [BufferPoint.passLeft, hdata, List.length_cons]
        omega
  | unlock pkt => exact hgo rfl (.moves hkeep.1 rfl rfl (.inr (.inl rfl)) (by simp) rfl)
  | write pkt =>
      by_cases hempty : pkt.bytes = []
      · exact hgo (if_pos hempty) (.moves hpassing rfl rfl (.inl rfl) (by simp) rfl)
      · have hwritten : Passing { s with stdout := s.stdout ++ [⟨pkt, s.recording⟩] } :=
          ⟨hpassing.run, hpassing.streaming, hpassing.xon⟩
        exact hgo (if_neg hempty) (.moves hwritten rfl rfl (.inl rfl) (by simp) rfl)
  | clearLock =>
      refine ⟨.timeout, s, .loop, ?_, .moves hpassing rfl rfl (.inl rfl) (by simp) rfl⟩
      rw [exec, if_neg htimeout]
      rfl
  | clearUnlock => exact hgo rfl (.moves hkeep.1 rfl rfl (.inr (.inl rfl)) (by simp) rfl)
  | clear => exact absurd rfl hclear
  | exit => exact absurd rfl hexit

/-- The block that a `Fill` is about to add which has the flow mutex already. -/
def pushed (cfg : Recorder) : ℕ :=
  match cfg.shared.flowMutex with
  | some tid => (isPushing (cfg.top tid)).toNat
  | none => 0

/-- The statements of another thread up to its release of the flow mutex. -/
def ownerLeft (cfg : Recorder) : ℕ :=
  match cfg.shared.flowMutex with
  | some tid => if tid = .buffer then 0 else ((cfg.top tid).map Frame.untilRelease).getD 0
  | none => 0

/-- The statements up to the test of `m_run` after which the queue is empty. A `Fill` that has
the mutex may add a block and with it a pass. -/
def deliveryWork (cfg : Recorder) : ℕ :=
  8 * ownerLeft cfg + 7 * cfg.shared.data.length +
    match cfg.top .buffer with
    | some (.buffer point) => point.passLeft
    | _ => 0

/-- A statement of `Buffer::Run`, or of the thread that has the flow mutex, in which no control
message fails. -/
def Delivers (owner : Option Tid) : Action Tid Choice ℕ → Prop
  | .thread tid choice => choice ≠ .usbError ∧ (tid = .buffer ∨ owner = some tid)
  | .env _ => False

/-- A recorder on its way to an empty queue, with what is to be written. -/
structure Delivering (owner : Option Tid) (target : List Block) (bound : ℕ) (cfg : Recorder) :
    Prop where
  reach : recorder.Reachable cfg
  passing : Passing cfg.shared
  clear : cfg.top .buffer ≠ some (.buffer .clear)
  owner : ∀ tid, cfg.shared.flowMutex = some tid → tid = .buffer ∨ owner = some tid
  books : ∃ late, cfg.shared.popped ++ cfg.shared.data = target ++ late ∧
    late.length + pushed cfg ≤ bound

section Steps

variable {owner : Option Tid} {target : List Block} {bound : ℕ}

/-- Another thread that has the flow mutex brings its release nearer. -/
theorem Delivering.release (hdelivering : Delivering owner target bound cfg)
    (howner : cfg.shared.flowMutex = some tid) (htid : tid ≠ .buffer) :
    ∃ next, recorder.step cfg (.thread tid .proceed) = some next ∧
      Delivering owner target bound next ∧ deliveryWork next < deliveryWork cfg := by
  obtain ⟨hreach, hpassing, hclear, howners, late, hbooks, hbound⟩ := hdelivering
  obtain ⟨frame, rest, hstack, hleft⟩ := untilRelease_of_owner hreach hpassing howner htid
  have hdev : frame = .openDev .test → cfg.shared.dev ≠ none := by
    rintro rfl
    have hsound := sound hreach
    obtain rfl := eq_commands ((wellShaped hreach).top_role hstack rfl)
    have hdevice := hsound.device (hsound.streaming hpassing.streaming)
    rw [hsound.not_isDeleting hstack] at hdevice
    simp [hdevice.resolve_right nofun]
  obtain ⟨s', frames, hexec, hpasses, hpopped, hrelease, hdata⟩ :=
    exists_releaseStep tid hleft hdev
  let next : Recorder := ⟨s', Function.update cfg.stack tid (frames ++ rest)⟩
  have hstep : recorder.step cfg (.thread tid .proceed) = some next :=
    Machine.step_thread_iff.mpr ⟨frame, rest, s', frames, hstack, hexec, rfl⟩
  have htop : cfg.top tid = some frame := top_of_stack hstack
  have hbuffer : next.top .buffer = cfg.top .buffer := top_of_ne (Ne.symm htid)
  have hnext : pushed next = 0 ∧ ownerLeft next < ownerLeft cfg := by
    have hbefore : ownerLeft cfg = frame.untilRelease := by simp [ownerLeft, howner, htid, htop]
    rw [hbefore]
    rcases hrelease with hnone | ⟨hsame, later, rfl, hless, hnot⟩
    · simpa [pushed, ownerLeft, next, hnone] using hleft
    · have hlater : next.top tid = some later := by simp [next, Config.top]
      have hsome : next.shared.flowMutex = some tid := hsame.trans howner
      simpa [pushed, ownerLeft, hsome, hlater, hnot, htid] using hless
  refine ⟨next, hstep, ⟨hreach.step hstep, hpasses hpassing, hbuffer ▸ hclear, ?_, ?_⟩, ?_⟩
  · intro other hother
    rcases hrelease with hnone | ⟨hsame, -⟩
    · cases hnone.symm.trans hother
    · exact howners other (hsame ▸ hother)
  · rw [hnext.1]
    rcases hdata with hsame | ⟨hpushing, block, hadded⟩
    · exact ⟨late, by rw [show next.shared = s' from rfl, hpopped, hsame, hbooks], by omega⟩
    · have hone : pushed cfg = 1 := by simp [pushed, howner, htop, hpushing]
      refine ⟨late ++ [block], ?_, ?_⟩
      · rw [show next.shared = s' from rfl, hpopped, hadded, ← List.append_assoc, hbooks,
          List.append_assoc]
      · rw [List.length_append, List.length_singleton]
        omega
  · have hlength : next.shared.data.length ≤ cfg.shared.data.length + 1 := by
      rcases hdata with hsame | ⟨-, block, hadded⟩
      · simp [next, hsame]
      · simp [next, hadded]
    simp only [deliveryWork, hbuffer]
    omega

/-- `Buffer::Run` brings the end of the queue nearer. -/
theorem Delivering.pass (hdelivering : Delivering owner target bound cfg)
    (hfree : ∀ tid, cfg.shared.flowMutex = some tid → tid = .buffer)
    (hleft : ¬ (cfg.shared.data = [] ∧ inHand cfg = [])) :
    ∃ choice next, choice ≠ .usbError ∧ recorder.step cfg (.thread .buffer choice) = some next ∧
      Delivering owner target bound next ∧ deliveryWork next < deliveryWork cfg := by
  obtain ⟨hreach, hpassing, hclear, -, late, hbooks, hbound⟩ := hdelivering
  have hshape := wellShaped hreach
  have hrunning := runningLaw hreach
  obtain ⟨first, hfirst⟩ : ∃ first, first ∈ cfg.stack .buffer :=
    List.exists_mem_of_ne_nil _ fun hnil =>
      absurd (hrunning.buffer hnil) (by simp [hpassing.run])
  obtain ⟨point, rfl, hstack⟩ := hshape.buffer_stack hfirst
  have htop : cfg.top .buffer = some (.buffer point) := top_of_stack hstack
  have hexit : point ≠ .exit := by
    rintro rfl
    exact absurd (hrunning.frames .buffer _ hfirst rfl) (by simp [hpassing.run])
  have hlock : point = .lock → cfg.shared.flowMutex = none := by
    rintro rfl
    by_contra hheld
    obtain ⟨tid, htid⟩ := Option.ne_none_iff_exists'.mp hheld
    obtain rfl := hfree tid htid
    obtain ⟨held, hmem, hholds⟩ := hshape.flow.exists_of_owner htid
    obtain rfl : held = .buffer .lock := by simpa [hstack] using hmem
    simp [flowView, holdsFlow] at hholds
  have hleft' : cfg.shared.data ≠ [] ∨ handOf (.buffer point) ≠ [] := by
    rw [inHand_of_stack hstack] at hleft
    tauto
  obtain ⟨choice, s', new, hexec, hpass⟩ :=
    exists_passStep hpassing (fun h => hclear (h ▸ htop)) hexit hlock hleft'
  let next : Recorder := ⟨s', Function.update cfg.stack .buffer ([.buffer new] ++ [])⟩
  have hstep : recorder.step cfg (.thread .buffer choice) = some next :=
    Machine.step_thread_iff.mpr ⟨_, [], s', _, hstack, hexec, rfl⟩
  have hlater : next.top .buffer = some (.buffer new) := by simp [next, Config.top]
  have hchoice : choice ≠ .usbError := by
    rintro rfl
    simp [exec, controlFailure, Frame.isHardware] at hexec
  have howned (tid : Tid) (hsome : next.shared.flowMutex = some tid) : tid = .buffer := by
    rcases hpass.owner with hsame | hnone | hbuffer
    · exact hfree tid (hsame ▸ hsome)
    · cases hnone.symm.trans hsome
    · exact (Option.some.inj (hbuffer.symm.trans hsome)).symm
  have hquiet : pushed next = 0 ∧ ownerLeft next = 0 := by
    cases hmutex : next.shared.flowMutex with
    | none => simp [pushed, ownerLeft, hmutex]
    | some tid =>
        obtain rfl := howned tid hmutex
        simp [pushed, ownerLeft, hmutex, hlater, isPushing]
  refine ⟨choice, next, hchoice, hstep,
    ⟨hreach.step hstep, hpass.passing, ?_, ?_, late, ?_, ?_⟩, ?_⟩
  · simpa [hlater] using hpass.clear
  · exact fun tid hsome => .inl (howned tid hsome)
  · exact hpass.books.trans hbooks
  · omega
  · have hnearer := hpass.nearer
    have hdata : next.shared.data = s'.data := rfl
    simp only [deliveryWork, hquiet.2, hlater, htop, hdata]
    omega

end Steps

/-- The queue can be got out: some thirty statements and seven for each block, of `Buffer::Run`
and of the thread that has the flow mutex, hand everything to `write(1)` in the order of the
queue. A `Fill` that already has the mutex adds its block. -/
def GetsOut (cfg : Recorder) : Prop :=
  ∃ schedule last late, (∀ action ∈ schedule, Delivers cfg.shared.flowMutex action) ∧
    schedule.length ≤ 7 * cfg.shared.data.length + 25 ∧ recorder.run cfg schedule = some last ∧
    Passing last.shared ∧ last.shared.data = [] ∧ late.length ≤ pushed cfg ∧
    last.shared.stdout.map Written.block =
      cfg.shared.stdout.map Written.block ++ inHand cfg ++ cfg.shared.data ++ late

theorem deliveryWork_le (cfg : Recorder) :
    deliveryWork cfg ≤ 7 * cfg.shared.data.length + 25 := by
  have howner : ownerLeft cfg ≤ 2 := by
    unfold ownerLeft
    split
    · split
      · exact Nat.zero_le _
      · cases hcfg : cfg.top _ with
        | none => exact Nat.zero_le _
        | some frame => cases frame with
          | fill point | openDev point | stop point =>
              cases point <;> simp [Frame.untilRelease]
          | _ => simp [Frame.untilRelease]
    · exact Nat.zero_le _
  unfold deliveryWork
  split
  · rename_i point _
    have hpass : point.passLeft ≤ 9 := by cases point <;> simp [BufferPoint.passLeft]
    omega
  · omega

/-- In every state of a recorder that passes blocks on, the queue can be got out, unless
`Buffer::Run` is about to clear it. -/
theorem getsOut_of_passing (hreach : recorder.Reachable cfg) (hpassing : Passing cfg.shared)
    (hclear : cfg.top .buffer ≠ some (.buffer .clear)) : GetsOut cfg := by
  let Reached (state : Recorder) : Prop :=
    Delivering cfg.shared.flowMutex (cfg.shared.popped ++ cfg.shared.data) (pushed cfg) state
  have hstart : Reached cfg :=
    ⟨hreach, hpassing, hclear, fun _ => .inr, [], by simp, by simp⟩
  have hnearer (state : Recorder) (hstate : Reached state)
      (hleft : ¬ (state.shared.data = [] ∧ inHand state = [])) :
      ∃ action next, Delivers cfg.shared.flowMutex action ∧
        recorder.step state action = some next ∧ Reached next ∧
        deliveryWork next < deliveryWork state := by
    by_cases hother : ∃ tid, state.shared.flowMutex = some tid ∧ tid ≠ .buffer
    · obtain ⟨tid, howner, htid⟩ := hother
      obtain ⟨next, hstep, hnext, hless⟩ := hstate.release howner htid
      exact ⟨.thread tid .proceed, next, ⟨by decide, hstate.owner tid howner⟩, hstep, hnext, hless⟩
    · obtain ⟨choice, next, hchoice, hstep, hnext, hless⟩ := hstate.pass
        (fun tid howner => by_contra fun htid => hother ⟨tid, howner, htid⟩) hleft
      exact ⟨.thread .buffer choice, next, ⟨hchoice, .inl rfl⟩, hstep, hnext, hless⟩
  obtain ⟨schedule, last, hallowed, hlength, hrun, hlast, hdata, hhand⟩ :=
    System.exists_run_of_rank deliveryWork hnearer hstart
  obtain ⟨hreached, hpassed, -, -, late, hbooks, hbound⟩ := hlast
  refine ⟨schedule, last, late, hallowed, hlength.trans (deliveryWork_le cfg), hrun,
    hpassed, hdata, by omega, ?_⟩
  have hbefore := (queueLaw hreach).handed
  have hafter := (queueLaw hreached).handed
  rw [hhand, List.append_nil] at hafter
  rw [← hafter, ← hbefore, ← hbooks, hdata, List.append_nil]

/-- A block is queued, and another encoder thread has the flow mutex to add one. -/
theorem getsOut_while_filling :
    ∃ cfg : Recorder, cfg.shared.data.length = 1 ∧ pushed cfg = 1 ∧ GetsOut cfg := by
  have hrun : (recorder.run (initial 0)
      ((startRecording ++ dispatch .xon ++ goOn 2).map (.thread .commands) ++
        (.fill [71, 0] :: goOn 5).map (.thread (.encoder 0)) ++
        [.thread (.encoder 1) (.fill [71, 1]), .thread (.encoder 1) .proceed])).map
      (fun cfg => (cfg.shared.run, cfg.shared.streaming, cfg.shared.xon, cfg.top .buffer,
        cfg.shared.data.length, pushed cfg)) =
      some (true, true, true, some (.buffer .loop), 1, 1) := by rfl
  obtain ⟨cfg, hreach, hvalue⟩ := System.exists_reachable_of_run (reachableBy_initial 0) hrun
  simp only [Prod.mk.injEq] at hvalue
  obtain ⟨hrunning, hstreaming, hxon, htop, hlength, hpushed⟩ := hvalue
  exact ⟨cfg, hlength, hpushed,
    getsOut_of_passing hreach ⟨hrunning, hstreaming, hxon⟩ (by simp [htop])⟩

/-- How many blocks had been written when `m_streaming` was last reset. -/
def tailObserver : Observer Recorder (Action Tid Choice ℕ) ℕ where
  start := 0
  note written cfg _ next :=
    if cfg.shared.streaming && !next.shared.streaming then next.shared.stdout.length else written

/-- The recorder with a note of the end of its last recording. -/
@[reducible]
def tailRecorder : System (Recorder × ℕ) (Action Tid Choice ℕ) :=
  recorder.observed tailObserver

/-- While there is no recording, at most one block is written. -/
def StopsWriting (seen : Recorder × ℕ) : Prop :=
  seen.1.shared.streaming = false → seen.1.shared.stdout.length ≤ seen.2 + 1

/-- `Buffer::Run` has found `m_streaming` set and may come to write a block. -/
def isPastTest : Option Frame → Bool
  | some (.buffer .xon) | some (.buffer .lock) | some (.buffer .pop) => true
  | some (.buffer (.unlock _)) | some (.buffer (.write _)) => true
  | _ => false

/-- What is left to write of a recording that has been stopped. -/
def TailLaw (seen : Recorder × ℕ) : Prop :=
  seen.1.shared.streaming = false →
    seen.1.shared.stdout.length + (isPastTest (seen.1.top .buffer)).toNat ≤ seen.2 + 1

/-- A statement of `Buffer::Run` while there is no recording. -/
theorem tail_left {point : BufferPoint} (hstopped : s.streaming = false)
    (hstep : bufferStep tid choice s point = some (s', frames)) :
    s'.stdout.length + (isPastTest frames.head?).toNat ≤
      s.stdout.length + (isPastTest (some (.buffer point))).toNat := by
  cases point <;> simp only [bufferStep, hstopped, Bool.false_eq_true, if_false] at hstep <;>
    (try split at hstep) <;> (try split at hstep) <;> cases hstep <;> simp [isPastTest]

theorem tailLaw_step {written : ℕ} (hshape : WellShaped cfg) (hlaw : TailLaw (cfg, written))
    (hstack : cfg.stack tid = frame :: rest)
    (hexec : exec tid frame choice cfg.shared = some (s', frames)) :
    TailLaw (⟨s', Function.update cfg.stack tid (frames ++ rest)⟩,
      tailObserver.note written cfg (.thread tid choice)
        ⟨s', Function.update cfg.stack tid (frames ++ rest)⟩) := by
  intro hstopped
  have hoff : s'.streaming = false := hstopped
  simp only [tailObserver, hoff, Bool.not_false, Bool.and_true]
  cases hbefore : cfg.shared.streaming with
  | true =>
      -- The recording ends here.
      rw [if_pos rfl]
      exact Nat.add_le_add_left (Bool.toNat_le _) _
  | false =>
      rw [if_neg Bool.false_ne_true]
      have hleft := hlaw hbefore
      by_cases htid : tid = .buffer
      · subst htid
        obtain ⟨point, rfl, -⟩ := hshape.buffer_stack (hstack ▸ List.mem_cons_self)
        obtain rfl := hshape.rest_eq_nil hstack rfl
        have hnext := tail_left hbefore (advance_of_exec rfl hexec)
        have htop : Config.top ⟨s', Function.update cfg.stack .buffer (frames ++ [])⟩ .buffer =
            frames.head? := by simp [Config.top]
        simp only [top_of_stack hstack] at hleft
        simp only [htop]
        exact hnext.trans hleft
      · have hsame : s'.stdout = cfg.shared.stdout := by
          refine stdout_of_routine hexec fun hroutine => htid ?_
          cases frame <;> simp [Frame.routine] at hroutine
          exact eq_buffer (hshape.top_role hstack rfl)
        rw [top_of_ne (Ne.symm htid), hsame]
        exact hleft

/-- In every run, at most one block is written after a recording has been stopped and before
the next one starts. -/
theorem stopsWriting {seen : Recorder × ℕ} (hreach : tailRecorder.Reachable seen) :
    StopsWriting seen := by
  have hlaw : TailLaw seen := by
    refine System.ReachableBy.observed_invariant hreach ?_ ?_
    · rintro _ ⟨now, rfl⟩ -
      exact Nat.zero_le _
    · intro state written action next hprior hlaw _ hstep
      cases action with
      | env elapsed =>
          obtain rfl := Machine.step_env_iff.mp hstep
          have hnote : tailObserver.note written state (.env elapsed)
              ⟨machine.env elapsed state.shared, state.stack⟩ = written := by
            simp [tailObserver, machine]
          rw [hnote]
          exact hlaw
      | thread tid choice =>
          obtain ⟨frame, rest, s', frames, hstack, hexec, rfl⟩ := Machine.step_thread_iff.mp hstep
          exact tailLaw_step (wellShaped hprior) hlaw hstack hexec
  intro hstopped
  have hleft := hlaw hstopped
  omega

/-- `Buffer::Run` has a block in hand when the recording is stopped. -/
theorem stopsWriting_in_hand : ∃ seen : Recorder × ℕ, seen.1.shared.streaming = false ∧
    seen.2 = 0 ∧ seen.1.shared.stdout.length = 1 ∧ StopsWriting seen := by
  have hrun : (tailRecorder.run (initial 0, 0)
      ((startRecording ++ dispatch .xon ++ goOn 1).map (.thread .commands) ++
        (.fill [71, 0] :: goOn 5).map (.thread (.encoder 0)) ++
        (goOn 6).map (.thread .buffer) ++
        (dispatch .stopStreaming ++ goOn 5).map (.thread .commands) ++
        [.thread .buffer .proceed])).map
      (fun seen => (seen.1.shared.streaming, seen.2, seen.1.shared.stdout.length)) =
      some (false, 0, 1) := by rfl
  have hstart : tailRecorder.Reachable (initial 0, 0) := .start ⟨⟨0, rfl⟩, rfl⟩
  obtain ⟨seen, hreach, hvalue⟩ := System.exists_reachable_of_run hstart hrun
  simp only [Prod.mk.injEq] at hvalue
  exact ⟨seen, hvalue.1, hvalue.2.1, hvalue.2.2, stopsWriting hreach⟩

end HauppaugeUSB.MythTV

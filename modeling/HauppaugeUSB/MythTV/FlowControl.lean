/-
# Flow control

`XON` and `XOFF` are acknowledged first and take effect in `m_xon` after that.
`Buffer::Run` reads the flag before it looks into the queue and does not read it
again, so what it is about to pop when the flag is cleared still goes out, and as
long as the flag has not been cleared it may come round any number of times.

The observer keeps, for every acknowledged `XOFF`, how many blocks had been popped
and how many written by then, until `XON` sets the flag again.
-/

import HauppaugeUSB.Concurrency.Observer
import HauppaugeUSB.MythTV.Queue

namespace HauppaugeUSB.MythTV

open HauppaugeUSB.Concurrency HauppaugeUSB.Commands

variable {tid : Tid} {frame : Frame} {choice : Choice} {s s' : Shared} {frames rest : List Frame}
  {cfg : Recorder}

/-- How far `Buffer::Run` was when an `XOFF` was acknowledged. -/
structure Mark where
  /-- The number of blocks it had popped. -/
  popped : ℕ
  /-- The number of blocks it had written. -/
  written : ℕ
  deriving DecidableEq

/-- The `XOFF` requests that have been acknowledged since `m_xon` was last set. -/
def xoffObserver : Observer Recorder (Action Tid Choice ℕ) (List Mark) where
  start := []
  note marks cfg action _ :=
    match action with
    | .thread tid _ =>
        if cfg.top tid = some (.command (.xonReply false)) then
          marks ++ [⟨cfg.shared.popped.length, cfg.shared.stdout.length⟩]
        else if cfg.top tid = some (.command (.xonSet true)) then []
        else marks
    | .env _ => marks

/-- The recorder with its acknowledged `XOFF` requests. -/
@[reducible]
def flowRecorder : System (Recorder × List Mark) (Action Tid Choice ℕ) :=
  recorder.observed xoffObserver

/-- Noting the acknowledgements restricts no run of the recorder. -/
theorem exists_marks {cfg : Recorder} (hreach : recorder.Reachable cfg) :
    ∃ marks, flowRecorder.Reachable (cfg, marks) :=
  hreach.exists_observed

/-- The blocks written since an acknowledgement. -/
def Shared.writtenSince (s : Shared) (mark : Mark) : List Block :=
  (s.stdout.drop mark.written).map Written.block

/-- After an acknowledged `XOFF` at most one block is written, and this one had been
popped before the acknowledgement. -/
def Honoured (seen : Recorder × List Mark) : Prop :=
  ∀ mark ∈ seen.2, (seen.1.shared.writtenSince mark).length ≤ 1 ∧
    ∀ block ∈ seen.1.shared.writtenSince mark, block ∈ seen.1.shared.popped.take mark.popped

/-- `Buffer::Run` has found `m_xon` set and not looked into the queue yet. -/
def isTaking : Option Frame → Bool
  | some (.buffer .lock) | some (.buffer .pop) => true
  | _ => false

/-- Between the acknowledgement of an `XOFF` and its store, `Buffer::Run` pops no block,
and at the store it is not about to. -/
def XoffSafe (seen : Recorder × List Mark) : Action Tid Choice ℕ → Prop
  | .thread tid _ =>
      (seen.1.top .commands = some (.command (.xonSet false)) →
        seen.1.top tid = some (.buffer .pop) → seen.1.shared.data = []) ∧
      (seen.1.top tid = some (.command (.xonSet false)) → isTaking (seen.1.top .buffer) = false)
  | .env _ => True

/-- `m_xon` is written by `XON` and `XOFF` only. -/
theorem xon_step (hexec : exec tid frame choice s = some (s', frames)) :
    s'.xon = s.xon ∨ ∃ on, frame = .command (.xonSet on) ∧ s'.xon = on := by
  rcases exec_eq_some_iff.mp hexec with ⟨-, -, -, -, rfl, -⟩ | ⟨-, hstep⟩
  · exact .inl rfl
  by_cases hset : ∃ on, frame = .command (.xonSet on)
  · obtain ⟨on, rfl⟩ := hset
    cases hstep
    exact .inr ⟨on, rfl, rfl⟩
  · left
    cases frame with
    | terminate | driver =>
        simp only [advance, terminateStep, driverStep] at hstep
        try split at hstep
        all_goals cases hstep <;> rfl
    | _ point =>
        cases point <;> simp only [advance, fatalStep, stopStep, startStep, openStep, waitStep,
          dtorStep, commandStep, bufferStep, fillStep] at hstep
        all_goals try split at hstep
        all_goals try split at hstep
        all_goals first | (cases hstep; rfl) | simp_all

/-- Blocks are popped where `Buffer::Run` finds the queue not empty. -/
theorem popped_step (hexec : exec tid frame choice s = some (s', frames)) :
    s'.popped = s.popped ∨ frame = .buffer .pop ∧ s.data ≠ [] := by
  by_cases hpop : frame = .buffer .pop ∧ s.data ≠ []
  · exact .inr hpop
  left
  rcases (exec_effects hexec).queue with hsame | hroutine | hroutine
  · exact hsame.popped
  · cases frame with
    | buffer point =>
        have hstep : bufferStep tid choice s point = some (s', frames) := advance_of_exec rfl hexec
        cases point <;> simp only [bufferStep] at hstep
        all_goals try split at hstep
        all_goals try split at hstep
        all_goals first | (cases hstep; rfl) | simp_all
    | _ => simp [Frame.routine] at hroutine
  · cases frame with
    | fill point =>
        have hstep : fillStep tid choice s point = some (s', frames) := advance_of_exec rfl hexec
        cases point <;> simp only [fillStep] at hstep
        all_goals try split at hstep
        all_goals try split at hstep
        all_goals cases hstep
        all_goals rfl
    | _ => simp [Frame.routine] at hroutine

/-- While the flag is clear, `Buffer::Run` does not begin to take a block. -/
theorem isTaking_step {point : BufferPoint}
    (hstep : bufferStep tid choice s point = some (s', frames)) (hxon : s.xon = false)
    (hidle : isTaking (some (.buffer point)) = false) : isTaking frames.head? = false := by
  cases point <;> simp only [bufferStep] at hstep
  all_goals try split at hstep
  all_goals try split at hstep
  all_goals first | (cases hstep; rfl) | simp_all [isTaking]

/-- What holds after an acknowledged `XOFF` in runs that meet the condition. -/
structure XoffLaw (cfg : Recorder) (marks : List Mark) : Prop where
  /-- Nothing has been popped since, and at most one block was in hand. -/
  counted : ∀ mark ∈ marks,
    mark.popped = cfg.shared.popped.length ∧ mark.popped ≤ mark.written + 1
  /-- The flag is about to be cleared, or is clear and has been read. -/
  paused : marks ≠ [] → cfg.top .commands = some (.command (.xonSet false)) ∨
    cfg.shared.xon = false ∧ isTaking (cfg.top .buffer) = false

/-- `Buffer::Run` has at most one block in hand. -/
theorem inHand_length_le (hshape : WellShaped cfg) : (inHand cfg).length ≤ 1 := by
  have hhand : ∀ frame, (handOf frame).length ≤ 1 := by
    intro frame
    unfold handOf
    split
    · split <;> simp
    · split <;> simp
    · simp
  cases hstack : cfg.stack .buffer with
  | nil => simp [inHand, hstack]
  | cons frame rest =>
      have hmem : frame ∈ cfg.stack .buffer := hstack ▸ List.mem_cons_self
      obtain ⟨point, rfl, hsingle⟩ := hshape.buffer_stack hmem
      rw [inHand_of_stack hsingle]
      exact hhand _

/-- Nothing is popped in a step that meets the condition. -/
theorem popped_of_xoffSafe {marks : List Mark} (hlaw : XoffLaw cfg marks)
    (hshape : WellShaped cfg) (hok : XoffSafe (cfg, marks) (.thread tid choice))
    (hmarks : marks ≠ []) (hstack : cfg.stack tid = frame :: rest)
    (hexec : exec tid frame choice cfg.shared = some (s', frames)) :
    s'.popped = cfg.shared.popped := by
  rcases popped_step hexec with hsame | ⟨rfl, hqueued⟩
  · exact hsame
  · have htop := top_of_stack hstack
    rcases hlaw.paused hmarks with hstore | ⟨-, hidle⟩
    · exact absurd (hok.1 hstore htop) hqueued
    · obtain rfl := eq_buffer (hshape.top_role hstack rfl)
      simp [htop, isTaking] at hidle

/-- The pause lasts. -/
theorem paused_step {marks : List Mark} (hlaw : XoffLaw cfg marks) (hshape : WellShaped cfg)
    (hok : XoffSafe (cfg, marks) (.thread tid choice)) (hmarks : marks ≠ [])
    (hstack : cfg.stack tid = frame :: rest) (hresume : frame ≠ .command (.xonSet true))
    (hexec : exec tid frame choice cfg.shared = some (s', frames)) :
    let after : Recorder := ⟨s', Function.update cfg.stack tid (frames ++ rest)⟩
    after.top .commands = some (.command (.xonSet false)) ∨
      s'.xon = false ∧ isTaking (after.top .buffer) = false := by
  intro after
  have htop := top_of_stack hstack
  rcases hlaw.paused hmarks with hstore | ⟨hclear, hidle⟩
  · -- `Commands` has yet to clear the flag.
    by_cases htid : tid = .commands
    · subst htid
      obtain rfl : frame = .command (.xonSet false) := Option.some.inj (htop.symm.trans hstore)
      have hstep : commandStep .commands choice cfg.shared (.xonSet false) = some (s', frames) :=
        advance_of_exec rfl hexec
      cases hstep
      right
      refine ⟨rfl, ?_⟩
      rw [top_of_ne (by simp)]
      exact hok.2 htop
    · left
      rw [top_of_ne (Ne.symm htid)]
      exact hstore
  · -- The flag is clear: only `XON` sets it.
    right
    constructor
    · rcases xon_step hexec with hsame | ⟨on, rfl, hset⟩
      · exact hsame.trans hclear
      · cases on with
        | false => exact hset
        | true => exact absurd rfl hresume
    · by_cases htid : tid = .buffer
      · subst htid
        have hmem : frame ∈ cfg.stack .buffer := hstack ▸ List.mem_cons_self
        obtain ⟨point, rfl, hsingle⟩ := hshape.buffer_stack hmem
        obtain rfl : rest = [] := by simpa [hstack] using hsingle
        have hstep : bufferStep .buffer choice cfg.shared point = some (s', frames) :=
          advance_of_exec rfl hexec
        rw [htop] at hidle
        simpa [after, Config.top] using isTaking_step hstep hclear hidle
      · rw [top_of_ne (Ne.symm htid)]
        exact hidle

theorem xoffLaw_step {marks : List Mark} (hreach : recorder.Reachable cfg)
    (hlaw : XoffLaw cfg marks) (hok : XoffSafe (cfg, marks) (.thread tid choice))
    (hstack : cfg.stack tid = frame :: rest)
    (hexec : exec tid frame choice cfg.shared = some (s', frames)) :
    XoffLaw ⟨s', Function.update cfg.stack tid (frames ++ rest)⟩
      (xoffObserver.note marks cfg (.thread tid choice)
        ⟨s', Function.update cfg.stack tid (frames ++ rest)⟩) := by
  have hshape := wellShaped hreach
  simp only [xoffObserver, top_of_stack hstack, Option.some.injEq]
  by_cases hreply : frame = .command (.xonReply false)
  · -- An `XOFF` is acknowledged.
    rw [if_pos hreply]
    subst hreply
    have hstep : commandStep tid choice cfg.shared (.xonReply false) = some (s', frames) :=
      advance_of_exec rfl hexec
    obtain rfl := eq_commands (hshape.role_of_mem (hstack ▸ List.mem_cons_self) rfl)
    cases hstep
    refine ⟨fun mark hmem => ?_, fun _ => .inl (by simp [Config.top])⟩
    rcases List.mem_append.mp hmem with hold | hnew
    · exact hlaw.counted mark hold
    · obtain rfl := List.mem_singleton.mp hnew
      refine ⟨rfl, ?_⟩
      have hhanded := congrArg List.length (queueLaw hreach).handed
      have hhand := inHand_length_le hshape
      simp only [List.length_append, List.length_map] at hhanded
      show cfg.shared.popped.length ≤ cfg.shared.stdout.length + 1
      omega
  rw [if_neg hreply]
  by_cases hresume : frame = .command (.xonSet true)
  · rw [if_pos hresume]
    exact ⟨fun mark hmem => absurd hmem List.not_mem_nil, fun hne => absurd rfl hne⟩
  rw [if_neg hresume]
  refine ⟨fun mark hmem => ?_, fun hmarks => ?_⟩
  · have hsame := popped_of_xoffSafe hlaw hshape hok (List.ne_nil_of_mem hmem) hstack hexec
    rw [hsame]
    exact hlaw.counted mark hmem
  · exact paused_step hlaw hshape hok hmarks hstack hresume hexec

theorem xoffLaw {seen : Recorder × List Mark} (hreach : flowRecorder.ReachableBy XoffSafe seen) :
    XoffLaw seen.1 seen.2 := by
  refine hreach.observed_invariant (P := fun seen => XoffLaw seen.1 seen.2) ?_ ?_
  · exact fun state _ => ⟨fun mark hmem => absurd hmem List.not_mem_nil, fun hne => absurd rfl hne⟩
  · intro cfg marks action next hprior hlaw hok hstep
    cases action with
    | env elapsed =>
        obtain rfl := Machine.step_env_iff.mp hstep
        exact ⟨hlaw.counted, hlaw.paused⟩
    | thread tid choice =>
        obtain ⟨frame, rest, s', frames, hstack, hexec, rfl⟩ := Machine.step_thread_iff.mp hstep
        exact xoffLaw_step hprior hlaw hok hstack hexec

/-- In a run that meets the condition every `XOFF` is honoured. -/
theorem honoured_of_xoffSafe {seen : Recorder × List Mark}
    (hreach : flowRecorder.ReachableBy XoffSafe seen) : Honoured seen := by
  intro mark hmem
  obtain ⟨hpopped, hhand⟩ := (xoffLaw hreach).counted mark hmem
  have hhanded := (queueLaw hreach.reachable_fst).handed
  constructor
  · have hlength := congrArg List.length hhanded
    simp only [List.length_append, List.length_map] at hlength
    simp only [Shared.writtenSince, List.length_map, List.length_drop]
    omega
  · intro block hblock
    obtain ⟨written, hwritten, rfl⟩ := List.mem_map.mp hblock
    rw [hpopped, List.take_length, hhanded]
    exact List.mem_append_left _ (List.mem_map_of_mem (List.mem_of_mem_drop hwritten))

instance (seen : Recorder × List Mark) : ∀ action, Decidable (XoffSafe seen action)
  | .thread tid _ =>
      inferInstanceAs (Decidable (
        (seen.1.top .commands = some (.command (.xonSet false)) →
          seen.1.top tid = some (.buffer .pop) → seen.1.shared.data = []) ∧
        (seen.1.top tid = some (.command (.xonSet false)) → _)))
  | .env _ => .isTrue trivial

theorem reachableBy_observed {ok : Recorder × List Mark → Action Tid Choice ℕ → Prop} (now : ℤ) :
    flowRecorder.ReachableBy ok (initial now, []) :=
  .start ⟨⟨now, rfl⟩, rfl⟩

/-- A block is in hand when an `XOFF` is acknowledged, and is written after it. -/
def passLast : List (Action Tid Choice ℕ) :=
  (startRecording ++ dispatch .xon ++ goOn 1).map (.thread .commands) ++
    (.fill [71, 0] :: goOn 5).map (.thread (.encoder 0)) ++ (goOn 6).map (.thread .buffer) ++
    (dispatch .xoff ++ goOn 1).map (.thread .commands) ++ (goOn 1).map (.thread .buffer)

theorem honoured_after_last :
    ∃ seen : Recorder × List Mark, seen.2 = [⟨1, 0⟩] ∧
      (seen.1.shared.writtenSince ⟨1, 0⟩).map Block.bytes = [[71, 0]] ∧ Honoured seen := by
  have hrun : (flowRecorder.runBy XoffSafe (initial 0, []) passLast).map
      (fun seen => (seen.2, (seen.1.shared.writtenSince ⟨1, 0⟩).map Block.bytes)) =
      some ([⟨1, 0⟩], [[71, 0]]) := by
    rfl
  obtain ⟨seen, hreach, hvalue⟩ :=
    System.exists_reachableBy_of_runBy (reachableBy_observed 0) hrun
  simp only [Prod.mk.injEq] at hvalue
  exact ⟨seen, hvalue.1, hvalue.2, honoured_of_xoffSafe hreach⟩

/-- Two blocks are queued. `XOFF` is acknowledged, and before the flag is cleared
`Buffer::Run` comes round twice. -/
def passTwo : List (Action Tid Choice ℕ) :=
  (startRecording ++ dispatch .xon ++ goOn 1).map (.thread .commands) ++
    (.fill [71, 0] :: goOn 5 ++ .fill [71, 1] :: goOn 5).map (.thread (.encoder 0)) ++
    (dispatch .xoff).map (.thread .commands) ++ (goOn 14).map (.thread .buffer)

theorem not_honoured : ∃ seen, flowRecorder.Reachable seen ∧ ¬ Honoured seen := by
  have hrun : (flowRecorder.run (initial 0, []) passTwo).map
      (fun seen => (seen.2, (seen.1.shared.writtenSince ⟨0, 0⟩).length)) =
      some ([⟨0, 0⟩], 2) := by
    rfl
  obtain ⟨seen, hreach, hvalue⟩ :=
    System.exists_reachable_of_run (reachableBy_observed 0) hrun
  simp only [Prod.mk.injEq] at hvalue
  refine ⟨seen, hreach, fun hall => ?_⟩
  have hlength := (hall ⟨0, 0⟩ (by simp [hvalue.1])).1
  omega

end HauppaugeUSB.MythTV

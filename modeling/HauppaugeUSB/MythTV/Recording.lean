/-
# The data of a recording

The encoder delivers data from the moment `startCapture` succeeds until some time
after `stopCapture`, and `Buffer::Run` throws the queue away whenever it finds
`m_streaming` clear. Nothing ties the two together. Data of an earlier recording
stays in the queue when `Buffer::Run` does not look between a stop and the next
start, and the first data of a recording is lost when it looks between
`startCapture` and the store that follows.

`Block.epoch` counts the calls of `startCapture` before a block was accepted, and
`Shared.recording` is the number of the last one announced in `m_streaming`.
-/

import HauppaugeUSB.MythTV.Queue

namespace HauppaugeUSB.MythTV

open HauppaugeUSB.Concurrency HauppaugeUSB.Commands

variable {tid : Tid} {frame : Frame} {choice : Choice} {s s' : Shared} {frames rest : List Frame}
  {cfg : Recorder}

/-- A step outside `Buffer::Run` and `Buffer::Fill` leaves the blocks alone. -/
theorem blocks_of_routine (hshape : WellShaped cfg) (hstack : cfg.stack tid = frame :: rest)
    (hexec : exec tid frame choice cfg.shared = some (s', frames))
    (hbuffer : frame.routine ≠ .buffer) (hfill : frame.routine ≠ .fill) :
    SameQueue cfg.shared s' ∧
      inHand ⟨s', Function.update cfg.stack tid (frames ++ rest)⟩ = inHand cfg ∧
      Config.top ⟨s', Function.update cfg.stack tid (frames ++ rest)⟩ .buffer =
        cfg.top .buffer := by
  have hne : tid ≠ .buffer := by
    rintro rfl
    obtain ⟨point, rfl, -⟩ := hshape.buffer_stack (hstack ▸ List.mem_cons_self)
    exact hbuffer rfl
  refine ⟨?_, inHand_of_ne hne, top_of_ne (Ne.symm hne)⟩
  rcases (exec_effects hexec).queue with hsame | hbad | hbad
  · exact hsame
  · exact absurd hbad hbuffer
  · exact absurd hbad hfill

/-- `Fill` adds at most its own block. -/
theorem data_of_fill {point : FillPoint}
    (hstep : fillStep tid choice s point = some (s', frames)) :
    s'.data = s.data ∨ ∃ call bytes, point = .push call bytes ∧ s.data.length < maxQueue ∧
      s'.data = s.data ++ [s.block tid call bytes] := by
  cases point with
  | push call bytes =>
      simp only [fillStep] at hstep
      split at hstep
      case isTrue hroom =>
        cases hstep
        exact .inr ⟨call, bytes, rfl, hroom, rfl⟩
      case isFalse =>
        cases hstep
        exact .inl rfl
  | _ =>
      left
      simp only [fillStep] at hstep
      try split at hstep
      all_goals try split at hstep
      all_goals cases hstep
      all_goals rfl

theorem written_of_fill {point : FillPoint}
    (hstep : fillStep tid choice s point = some (s', frames)) :
    s'.stdout = s.stdout ∧ s'.discarded = s.discarded := by
  cases point <;> simp only [fillStep] at hstep <;> (try split at hstep) <;>
    (try split at hstep) <;> cases hstep <;> exact ⟨rfl, rfl⟩

/-- No block accepted before the `startCapture` of a recording is written into it. -/
def Isolated (s : Shared) : Prop := ∀ written ∈ s.stdout, written.recording ≤ written.block.epoch

/-- When `StartEncoding` sets `m_streaming`, no block accepted before its `startCapture`
is in the hands of `Buffer::Run`, nor in the queue, unless `Buffer::Run` is about to
clear it and has the flow mutex. -/
def IsolationSafe (cfg : Recorder) : Action Tid Choice ℕ → Prop
  | .thread tid _ =>
      cfg.top tid = some (.start .set) →
        (∀ block ∈ inHand cfg, cfg.shared.epoch ≤ block.epoch) ∧
        (cfg.top .buffer ≠ some (.buffer .clear) →
          ∀ block ∈ cfg.shared.data, cfg.shared.epoch ≤ block.epoch)
  | .env _ => True

/-- The invariant of runs that meet the condition. -/
structure IsolationLaw (cfg : Recorder) : Prop where
  isolated : Isolated cfg.shared
  begun : cfg.shared.recording ≤ cfg.shared.epoch
  inHand : ∀ block ∈ inHand cfg, cfg.shared.recording ≤ block.epoch
  queued : cfg.top .buffer ≠ some (.buffer .clear) →
    ∀ block ∈ cfg.shared.data, cfg.shared.recording ≤ block.epoch

/-- `StartEncoding` announces a recording; otherwise the number of the last one stays,
and new captures only get higher numbers. -/
theorem recording_step (hexec : exec tid frame choice s = some (s', frames)) :
    frame = .start .set ∧ s'.recording = s.epoch ∧ s'.epoch = s.epoch ∨
      s'.recording = s.recording ∧ s.epoch ≤ s'.epoch := by
  have heffects := exec_effects hexec
  rcases heffects.recording with hsame | ⟨rfl, hset⟩
  · rcases heffects.epoch with hepoch | ⟨-, hepoch⟩
    · exact .inr ⟨hsame, hepoch.ge⟩
    · exact .inr ⟨hsame, by omega⟩
  · rcases heffects.epoch with hepoch | ⟨hframe, -⟩
    · exact .inl ⟨rfl, hset, hepoch⟩
    · simp at hframe

theorem isolationLaw_other (hshape : WellShaped cfg) (hlaw : IsolationLaw cfg)
    (hok : IsolationSafe cfg (.thread tid choice)) (hstack : cfg.stack tid = frame :: rest)
    (hexec : exec tid frame choice cfg.shared = some (s', frames))
    (hbuffer : frame.routine ≠ .buffer) (hfill : frame.routine ≠ .fill) :
    IsolationLaw ⟨s', Function.update cfg.stack tid (frames ++ rest)⟩ := by
  obtain ⟨hsame, hhand, htop⟩ := blocks_of_routine hshape hstack hexec hbuffer hfill
  have hisolated : Isolated s' := by
    rw [Isolated, hsame.stdout]
    exact hlaw.isolated
  rcases recording_step hexec with ⟨rfl, hset, hepoch⟩ | ⟨hkept, hepoch⟩
  · obtain ⟨hguardHand, hguardData⟩ := hok (top_of_stack hstack)
    refine ⟨hisolated, by simp [hset, hepoch], ?_, ?_⟩
    · rw [hhand, hset]
      exact hguardHand
    · rw [htop, hset, hsame.data]
      exact hguardData
  · refine ⟨hisolated, ?_, ?_, ?_⟩
    · rw [hkept]
      exact hlaw.begun.trans hepoch
    · rw [hhand, hkept]
      exact hlaw.inHand
    · rw [htop, hkept, hsame.data]
      exact hlaw.queued

theorem isolationLaw_buffer {point : BufferPoint} (hshape : WellShaped cfg)
    (hlaw : IsolationLaw cfg) (hstack : cfg.stack tid = .buffer point :: rest)
    (hexec : exec tid (.buffer point) choice cfg.shared = some (s', frames)) :
    IsolationLaw ⟨s', Function.update cfg.stack tid (frames ++ rest)⟩ := by
  have hepoch : s'.epoch = cfg.shared.epoch := by simpa using (exec_effects hexec).epoch
  have hrecording : s'.recording = cfg.shared.recording := by
    simpa using (exec_effects hexec).recording
  have hstep : bufferStep tid choice cfg.shared point = some (s', frames) :=
    advance_of_exec rfl hexec
  obtain rfl := eq_buffer (hshape.top_role hstack rfl)
  obtain rfl := hshape.rest_eq_nil hstack rfl
  have hinHand := hlaw.inHand
  have hqueued := hlaw.queued
  rw [inHand_of_stack hstack] at hinHand
  rw [top_of_stack hstack] at hqueued
  have hbegun : s'.recording ≤ s'.epoch := by
    rw [hepoch, hrecording]
    exact hlaw.begun
  have hisolated := hlaw.isolated
  suffices hstay : Isolated s' ∧
      (∀ block ∈ frames.flatMap handOf, cfg.shared.recording ≤ block.epoch) ∧
      (frames.head? ≠ some (.buffer .clear) →
        ∀ block ∈ s'.data, cfg.shared.recording ≤ block.epoch) by
    refine ⟨hstay.1, hbegun, ?_, ?_⟩
    · rw [inHand_update, hrecording]
      exact hstay.2.1
    · simp only [Config.top, Function.update_self, List.append_nil, hrecording]
      exact hstay.2.2
  cases point with
  | pop =>
      have hdata := hqueued (by simp)
      simp only [bufferStep] at hstep
      split at hstep
      case h_1 =>
        cases hstep
        exact ⟨hisolated, by simp [handOf, Block.empty], fun _ => hdata⟩
      case h_2 pkt later hqueue =>
        cases hstep
        rw [hqueue] at hdata
        refine ⟨hisolated, fun block hmem => ?_, fun _ block hmem => ?_⟩
        · have hpkt : block = pkt := by
            by_cases hempty : pkt.bytes = [] <;> simp_all [handOf]
          exact hdata block (hpkt ▸ List.mem_cons_self)
        · exact hdata block (List.mem_cons_of_mem _ hmem)
  | unlock pkt =>
      cases hstep
      exact ⟨hisolated, by simpa [handOf] using hinHand, fun _ => hqueued (by simp)⟩
  | write pkt =>
      have hdata := hqueued (by simp)
      simp only [bufferStep] at hstep
      split at hstep
      case isTrue =>
        cases hstep
        exact ⟨hisolated, by simp [handOf], fun _ => hdata⟩
      case isFalse hfull =>
        cases hstep
        refine ⟨fun written hmem => ?_, by simp [handOf], fun _ => hdata⟩
        rcases List.mem_append.mp hmem with hold | hnew
        · exact hisolated written hold
        · obtain rfl := List.mem_singleton.mp hnew
          exact hinHand pkt (by simp [handOf, hfull])
  | clear =>
      cases hstep
      exact ⟨hisolated, by simp [handOf], fun _ block hmem => by simp at hmem⟩
  | _ =>
      have hdata := hqueued (by simp)
      simp only [bufferStep] at hstep
      try split at hstep
      all_goals try split at hstep
      all_goals cases hstep
      all_goals exact ⟨hisolated, by simp [handOf, Block.empty], fun _ => hdata⟩

theorem isolationLaw_fill {point : FillPoint} (hshape : WellShaped cfg) (hlaw : IsolationLaw cfg)
    (hstack : cfg.stack tid = .fill point :: rest)
    (hexec : exec tid (.fill point) choice cfg.shared = some (s', frames)) :
    IsolationLaw ⟨s', Function.update cfg.stack tid (frames ++ rest)⟩ := by
  have hepoch : s'.epoch = cfg.shared.epoch := by simpa using (exec_effects hexec).epoch
  have hrecording : s'.recording = cfg.shared.recording := by
    simpa using (exec_effects hexec).recording
  have hstep : fillStep tid choice cfg.shared point = some (s', frames) :=
    advance_of_exec rfl hexec
  have hne : tid ≠ .buffer := by
    rintro rfl
    simpa [Tid.role] using hshape.top_role hstack rfl
  refine ⟨?_, ?_, ?_, ?_⟩
  · rw [Isolated, (written_of_fill hstep).1]
    exact hlaw.isolated
  · rw [hepoch, hrecording]
    exact hlaw.begun
  · rw [inHand_of_ne hne, hrecording]
    exact hlaw.inHand
  · rw [top_of_ne (Ne.symm hne), hrecording]
    intro hclear block hmem
    rcases data_of_fill hstep with hsame | ⟨call, bytes, -, -, hpushed⟩
    · exact hlaw.queued hclear block (hsame ▸ hmem)
    · rw [hpushed, List.mem_append, List.mem_singleton] at hmem
      rcases hmem with hold | rfl
      · exact hlaw.queued hclear block hold
      · exact hlaw.begun

theorem isolationLaw_initial (now : ℤ) : IsolationLaw (initial now) where
  isolated written hmem := by simp [initial, Shared.initial] at hmem
  begun := Nat.le_refl 0
  inHand block hmem := by simp [inHand, initial, Tid.entry, handOf] at hmem
  queued _ block hmem := by simp [initial, Shared.initial] at hmem

theorem isolationLaw_step (hshape : WellShaped cfg) (hlaw : IsolationLaw cfg)
    (hok : IsolationSafe cfg (.thread tid choice)) (hstack : cfg.stack tid = frame :: rest)
    (hexec : exec tid frame choice cfg.shared = some (s', frames)) :
    IsolationLaw ⟨s', Function.update cfg.stack tid (frames ++ rest)⟩ := by
  cases frame with
  | buffer point => exact isolationLaw_buffer hshape hlaw hstack hexec
  | fill point => exact isolationLaw_fill hshape hlaw hstack hexec
  | _ =>
      exact isolationLaw_other hshape hlaw hok hstack hexec (by simp [Frame.routine])
        (by simp [Frame.routine])

/-- A run that meets the condition keeps recordings apart. -/
theorem isolated_of_isolationSafe (hreach : recorder.ReachableBy IsolationSafe cfg) :
    Isolated cfg.shared := by
  suffices hlaw : IsolationLaw cfg from hlaw.isolated
  refine recorder_invariant hreach isolationLaw_initial (fun state elapsed hlaw => ?_)
    fun hprior hlaw hok hstack hexec => ?_
  · exact ⟨hlaw.isolated, hlaw.begun, hlaw.inHand, hlaw.queued⟩
  · exact isolationLaw_step (wellShaped hprior) hlaw hok hstack hexec

instance (cfg : Recorder) : ∀ action, Decidable (IsolationSafe cfg action)
  | .thread tid _ => inferInstanceAs (Decidable (cfg.top tid = some (.start .set) → _ ∧ _))
  | .env _ => .isTrue trivial

/-- The condition can be met by a recording that writes a block. -/
theorem isolated_after_block :
    ∃ cfg : Recorder, cfg.shared.stdout.map (fun written => written.block.bytes) = [[71, 0]] ∧
      Isolated cfg.shared := by
  have hrun : (recorder.runBy IsolationSafe (initial 0) passBlock).map
      (fun cfg => cfg.shared.stdout.map fun written => written.block.bytes) =
      some [[71, 0]] := by
    rfl
  obtain ⟨cfg, hreach, hvalue⟩ :=
    System.exists_reachableBy_of_runBy (reachableBy_initial 0) hrun
  exact ⟨cfg, hvalue, isolated_of_isolationSafe hreach⟩

/-- A block of the first recording is still queued when the recording is stopped and
the next one started, and `Buffer::Run` then takes it. -/
def mixRecordings : List (Action Tid Choice ℕ) :=
  (startRecording ++ dispatch .xon ++ goOn 1).map (.thread .commands) ++
    (.fill [71, 0] :: goOn 5).map (.thread (.encoder 0)) ++
    (dispatch .stopStreaming ++ finishStop ++ .answer true :: goOn 1).map (.thread .commands) ++
    (startCapture ++ goOn 3).map (.thread .commands) ++
    (goOn 7).map (.thread .buffer)

theorem not_isolated : ∃ cfg, recorder.Reachable cfg ∧ ¬ Isolated cfg.shared := by
  have hrun : (recorder.run (initial 0) mixRecordings).map
      (fun cfg => cfg.shared.stdout.map fun written =>
        (written.recording, written.block.epoch)) = some [(2, 1)] := by
    rfl
  obtain ⟨cfg, hreach, hvalue⟩ := System.exists_reachable_of_run (reachableBy_initial 0) hrun
  refine ⟨cfg, hreach, fun hisolated => ?_⟩
  obtain ⟨written, hwritten, hview⟩ := List.mem_map.mp (hvalue ▸ List.mem_singleton_self (2, 1))
  have hle := hisolated written hwritten
  simp only [Prod.mk.injEq] at hview
  omega

/-- `Buffer::Run` has read `m_streaming == false` and has not cleared the queue yet. -/
def isClearing : Option Frame → Bool
  | some (.buffer .clearLock) | some (.buffer .clear) => true
  | _ => false

/-- `Fill` has the flow lock and is about to look for room in the queue. -/
def isPushing : Option Frame → Bool
  | some (.fill (.push _ _)) => true
  | _ => false

/-- A block accepted between the success of a `startCapture` that is answered
`OK:Started` and the next `StopEncoding` is not thrown away; it stays in the queue
until it is popped. -/
structure Kept (s : Shared) : Prop where
  notDiscarded : ∀ block ∈ s.discarded, block.live = true → block.epoch ∉ s.answered
  stays : ∀ block ∈ s.fills, block ∉ s.timedOut → block ∉ s.overrun →
    block.live = true → block.epoch ∈ s.answered → block ∈ s.data ∨ block ∈ s.popped

/-- `Buffer::Run` does not read `m_streaming == false` between the success of
`startCapture` and the store while a block of the capture is queued, `Fill` does not
accept one between that reading and the clearing, and `StopEncoding` does not reset
`m_streaming` while a block of the capture is queued. -/
def KeepSafe (cfg : Recorder) : Action Tid Choice ℕ → Prop
  | .thread tid _ =>
      (cfg.top tid = some (.buffer .streaming) → cfg.shared.streaming = false →
        cfg.shared.live = true → ∀ block ∈ cfg.shared.data, block.live = false) ∧
      (isPushing (cfg.top tid) = true → cfg.shared.live = true →
        isClearing (cfg.top .buffer) = false) ∧
      (cfg.top tid = some (.stop .clear) → ∀ block ∈ cfg.shared.data, block.live = false)
  | .env _ => True

/-- The invariant of runs that meet the condition. -/
structure KeepLaw (cfg : Recorder) : Prop where
  discarded : ∀ block ∈ cfg.shared.discarded, block.live = false
  clearing : isClearing (cfg.top .buffer) = true → ∀ block ∈ cfg.shared.data, block.live = false
  running : ∀ block ∈ cfg.shared.data, block.live = true →
    cfg.shared.live = true ∨ cfg.shared.streaming = true

/-- `Buffer::Run` only takes blocks from the queue, discards them in its clear branch
alone, and gets there after it has read `m_streaming == false`. -/
theorem clearing_of_buffer {point : BufferPoint}
    (hstep : bufferStep tid choice s point = some (s', frames)) :
    s'.data ⊆ s.data ∧
      (∀ block ∈ s'.discarded, block ∈ s.discarded ∨ point = .clear ∧ block ∈ s.data) ∧
      (isClearing frames.head? = true →
        point = .streaming ∧ s.streaming = false ∨ isClearing (some (.buffer point)) = true) := by
  cases point with
  | pop =>
      simp only [bufferStep] at hstep
      split at hstep
      case h_1 =>
        cases hstep
        exact ⟨List.Subset.refl _, fun block hmem => .inl hmem, by simp [isClearing]⟩
      case h_2 pkt later hqueue =>
        cases hstep
        refine ⟨?_, fun block hmem => .inl hmem, by simp [isClearing]⟩
        rw [hqueue]
        exact List.subset_cons_self pkt later
  | clear =>
      cases hstep
      refine ⟨List.nil_subset _, fun block hmem => ?_, by simp [isClearing]⟩
      rcases List.mem_append.mp hmem with hold | hqueued
      · exact .inl hold
      · exact .inr ⟨rfl, hqueued⟩
  | _ =>
      simp only [bufferStep] at hstep
      try split at hstep
      all_goals try split at hstep
      all_goals cases hstep
      all_goals refine ⟨List.Subset.refl _, fun block hmem => .inl hmem, ?_⟩
      all_goals simp_all [isClearing]

/-- A successful `startCapture` is followed by the store of `m_streaming`, which only
`StopEncoding` takes back. -/
theorem running_step (hexec : exec tid frame choice s = some (s', frames))
    (hrunning : s.live = true ∨ s.streaming = true) :
    s'.live = true ∨ s'.streaming = true ∨ frame = .stop .clear := by
  have heffects := exec_effects hexec
  rcases hrunning with hlive | hstreaming
  · rcases heffects.live with hsame | rfl | ⟨rfl, hstreaming, -⟩
    · exact .inl (hsame ▸ hlive)
    · left
      rcases exec_eq_some_iff.mp hexec with ⟨-, -, -, -, rfl, -⟩ | ⟨-, hstep⟩
      · exact hlive
      · simp only [advance, startStep] at hstep
        split at hstep <;> cases hstep
        · rfl
        · exact hlive
    · rcases heffects.streaming with ⟨hsame, -⟩ | ⟨hframe, -, -⟩ | ⟨-, htrue, -⟩
      · exact .inr (.inl (hsame ▸ hstreaming))
      · simp at hframe
      · exact .inr (.inl htrue)
  · rcases heffects.streaming with ⟨hsame, -⟩ | ⟨hframe, -, -⟩ | ⟨-, htrue, -⟩
    · exact .inr (.inl (hsame ▸ hstreaming))
    · exact .inr (.inr hframe)
    · exact .inr (.inl htrue)

theorem keepLaw_other (hshape : WellShaped cfg) (hlaw : KeepLaw cfg)
    (hok : KeepSafe cfg (.thread tid choice)) (hstack : cfg.stack tid = frame :: rest)
    (hexec : exec tid frame choice cfg.shared = some (s', frames))
    (hbuffer : frame.routine ≠ .buffer) (hfill : frame.routine ≠ .fill) :
    KeepLaw ⟨s', Function.update cfg.stack tid (frames ++ rest)⟩ := by
  obtain ⟨hsame, -, htop⟩ := blocks_of_routine hshape hstack hexec hbuffer hfill
  refine ⟨?_, ?_, ?_⟩
  · rw [hsame.discarded]
    exact hlaw.discarded
  · rw [htop, hsame.data]
    exact hlaw.clearing
  · rw [hsame.data]
    intro block hmem hlive
    rcases running_step hexec (hlaw.running block hmem hlive) with hrunning | hrunning | rfl
    · exact .inl hrunning
    · exact .inr hrunning
    · have hdead := hok.2.2 (top_of_stack hstack) block hmem
      simp [hdead] at hlive

theorem keepLaw_buffer {point : BufferPoint} (hshape : WellShaped cfg) (hlaw : KeepLaw cfg)
    (hok : KeepSafe cfg (.thread tid choice)) (hstack : cfg.stack tid = .buffer point :: rest)
    (hexec : exec tid (.buffer point) choice cfg.shared = some (s', frames)) :
    KeepLaw ⟨s', Function.update cfg.stack tid (frames ++ rest)⟩ := by
  obtain rfl := eq_buffer (hshape.top_role hstack rfl)
  obtain rfl := hshape.rest_eq_nil hstack rfl
  obtain ⟨hdata, hdiscarded, hclearing⟩ := clearing_of_buffer (advance_of_exec rfl hexec)
  have hlawClearing := hlaw.clearing
  rw [top_of_stack hstack] at hlawClearing
  refine ⟨fun block hmem => ?_, fun hnow block hmem => ?_, fun block hmem hlive => ?_⟩
  · rcases hdiscarded block hmem with hold | ⟨rfl, hqueued⟩
    · exact hlaw.discarded block hold
    · exact hlawClearing rfl block hqueued
  · simp only [Config.top, Function.update_self, List.append_nil] at hnow
    rcases hclearing hnow with ⟨rfl, hstopped⟩ | hbefore
    · -- A queued block of a capture would keep `live` set, since `m_streaming` is not.
      by_contra hlive
      rw [Bool.not_eq_false] at hlive
      rcases hlaw.running block (hdata hmem) hlive with hrunning | hstreaming
      · have hdead := hok.1 (top_of_stack hstack) hstopped hrunning block (hdata hmem)
        simp [hdead] at hlive
      · simp [hstopped] at hstreaming
    · exact hlawClearing hbefore block (hdata hmem)
  · have hran := hlaw.running block (hdata hmem) hlive
    rcases running_step hexec hran with hrunning | hrunning | hstop
    · exact .inl hrunning
    · exact .inr hrunning
    · simp at hstop

theorem keepLaw_fill {point : FillPoint} (hshape : WellShaped cfg) (hlaw : KeepLaw cfg)
    (hok : KeepSafe cfg (.thread tid choice)) (hstack : cfg.stack tid = .fill point :: rest)
    (hexec : exec tid (.fill point) choice cfg.shared = some (s', frames)) :
    KeepLaw ⟨s', Function.update cfg.stack tid (frames ++ rest)⟩ := by
  have hstep : fillStep tid choice cfg.shared point = some (s', frames) :=
    advance_of_exec rfl hexec
  have hne : tid ≠ .buffer := by
    rintro rfl
    simpa [Tid.role] using hshape.top_role hstack rfl
  have hlive : s'.live = cfg.shared.live := by simpa using (exec_effects hexec).live
  have hstreaming : s'.streaming = cfg.shared.streaming := by
    simpa using (exec_effects hexec).streaming.imp_left And.left
  refine ⟨?_, ?_, ?_⟩
  · rw [(written_of_fill hstep).2]
    exact hlaw.discarded
  · rw [top_of_ne (Ne.symm hne)]
    intro hclearing block hmem
    rcases data_of_fill hstep with hsame | ⟨call, bytes, rfl, -, hpushed⟩
    · exact hlaw.clearing hclearing block (hsame ▸ hmem)
    · rw [hpushed, List.mem_append, List.mem_singleton] at hmem
      rcases hmem with hold | rfl
      · exact hlaw.clearing hclearing block hold
      · by_contra hrunning
        rw [Shared.block, Bool.not_eq_false] at hrunning
        have hpushing : isPushing (cfg.top tid) = true := by rw [top_of_stack hstack, isPushing]
        have hclear := hok.2.1 hpushing hrunning
        simp [hclear] at hclearing
  · rw [hlive, hstreaming]
    intro block hmem hblock
    rcases data_of_fill hstep with hsame | ⟨call, bytes, -, -, hpushed⟩
    · exact hlaw.running block (hsame ▸ hmem) hblock
    · rw [hpushed, List.mem_append, List.mem_singleton] at hmem
      rcases hmem with hold | rfl
      · exact hlaw.running block hold hblock
      · exact .inl hblock

theorem keepLaw_initial (now : ℤ) : KeepLaw (initial now) where
  discarded block hmem := by simp [initial, Shared.initial] at hmem
  clearing _ block hmem := by simp [initial, Shared.initial] at hmem
  running block hmem := by simp [initial, Shared.initial] at hmem

theorem keepLaw_step (hshape : WellShaped cfg) (hlaw : KeepLaw cfg)
    (hok : KeepSafe cfg (.thread tid choice)) (hstack : cfg.stack tid = frame :: rest)
    (hexec : exec tid frame choice cfg.shared = some (s', frames)) :
    KeepLaw ⟨s', Function.update cfg.stack tid (frames ++ rest)⟩ := by
  cases frame with
  | buffer point => exact keepLaw_buffer hshape hlaw hok hstack hexec
  | fill point => exact keepLaw_fill hshape hlaw hok hstack hexec
  | _ =>
      exact keepLaw_other hshape hlaw hok hstack hexec (by simp [Frame.routine])
        (by simp [Frame.routine])

theorem keepLaw (hreach : recorder.ReachableBy KeepSafe cfg) : KeepLaw cfg := by
  refine recorder_invariant hreach keepLaw_initial (fun state elapsed hlaw => ?_)
    fun hprior hlaw hok hstack hexec => ?_
  · exact ⟨hlaw.discarded, hlaw.clearing, hlaw.running⟩
  · exact keepLaw_step (wellShaped hprior) hlaw hok hstack hexec

/-- A run that meets the condition keeps the data of its recordings. -/
theorem kept_of_keepSafe (hreach : recorder.ReachableBy KeepSafe cfg) : Kept cfg.shared := by
  have hlaw := keepLaw hreach
  refine ⟨fun block hmem hlive => ?_, fun block hmem htimeout hoverrun hlive _ => ?_⟩
  · simp [hlaw.discarded block hmem] at hlive
  · have haccount := (queueLaw hreach.reachable).books.ledger.account.subset hmem
    simp only [List.mem_append] at haccount
    rcases haccount with (((htimedOut | hrefused) | hqueued) | hdiscarded) | hpopped
    · exact absurd htimedOut htimeout
    · exact absurd hrefused hoverrun
    · exact .inl hqueued
    · simp [hlaw.discarded block hdiscarded] at hlive
    · exact .inr hpopped

instance (cfg : Recorder) : ∀ action, Decidable (KeepSafe cfg action)
  | .thread tid _ =>
      inferInstanceAs (Decidable (
        (cfg.top tid = some (.buffer .streaming) → cfg.shared.streaming = false →
          cfg.shared.live = true → _) ∧
        (isPushing (cfg.top tid) = true → cfg.shared.live = true → _) ∧
        (cfg.top tid = some (.stop .clear) → _)))
  | .env _ => .isTrue trivial

/-- The condition can be met by a recording whose data is written. -/
theorem kept_after_block :
    ∃ cfg : Recorder, cfg.shared.answered = [1] ∧
      cfg.shared.popped.map (fun block => (block.epoch, block.live)) = [(1, true)] ∧
      Kept cfg.shared := by
  have hrun : (recorder.runBy KeepSafe (initial 0) passBlock).map
      (fun cfg => (cfg.shared.answered,
        cfg.shared.popped.map fun block => (block.epoch, block.live))) =
      some ([1], [(1, true)]) := by
    rfl
  obtain ⟨cfg, hreach, hvalue⟩ :=
    System.exists_reachableBy_of_runBy (reachableBy_initial 0) hrun
  simp only [Prod.mk.injEq] at hvalue
  exact ⟨cfg, hvalue.1, hvalue.2, kept_of_keepSafe hreach⟩

/-- The encoder delivers a block as soon as `startCapture` has succeeded, and
`Buffer::Run` clears the queue before `StartEncoding` sets `m_streaming`. -/
def loseFirst : List (Action Tid Choice ℕ) :=
  (openDevice ++ startCapture).map (.thread .commands) ++
    (.fill [71, 0] :: goOn 5).map (.thread (.encoder 0)) ++ (goOn 4).map (.thread .buffer) ++
    (goOn 3).map (.thread .commands)

theorem not_kept : ∃ cfg, recorder.Reachable cfg ∧ ¬ Kept cfg.shared := by
  have hrun : (recorder.run (initial 0) loseFirst).map
      (fun cfg => (cfg.shared.answered,
        cfg.shared.discarded.map fun block => (block.epoch, block.live))) =
      some ([1], [(1, true)]) := by
    rfl
  obtain ⟨cfg, hreach, hvalue⟩ := System.exists_reachable_of_run (reachableBy_initial 0) hrun
  simp only [Prod.mk.injEq] at hvalue
  obtain ⟨hanswered, hdiscarded⟩ := hvalue
  refine ⟨cfg, hreach, fun hkept => ?_⟩
  obtain ⟨block, hblock, hview⟩ :=
    List.mem_map.mp (hdiscarded ▸ List.mem_singleton_self (1, true))
  simp only [Prod.mk.injEq] at hview
  have hlost := hkept.notDiscarded block hblock hview.2
  rw [hview.1, hanswered] at hlost
  exact hlost List.mem_cons_self

end HauppaugeUSB.MythTV

/-
# The packet queue

`Buffer::Fill` offers blocks to `m_data` from the threads of the encoder driver and
`Buffer::Run` takes them from it. Whatever happens in between, the books of the
queue are in order: every call with data is accounted for once, and what reaches
`write(1)` is what `Fill` was given, complete and in the order of the calls.
-/

import HauppaugeUSB.Concurrency.Ledger
import HauppaugeUSB.MythTV.Effects

namespace HauppaugeUSB.MythTV

open HauppaugeUSB.Concurrency HauppaugeUSB.Commands

variable {tid : Tid} {frame : Frame} {choice : Choice} {s s' : Shared} {frames rest : List Frame}
  {cfg : Recorder}

/-- The books of `m_data`. -/
def Shared.ledger (s : Shared) : Ledger Block where
  offered := s.fills
  withdrawn := s.timedOut
  refused := s.overrun
  queue := s.data
  cleared := s.discarded
  taken := s.popped

/-- The block that `Buffer::Run` has taken and not written yet. -/
def handOf : Frame → List Block
  | .buffer (.unlock pkt) | .buffer (.write pkt) => if pkt.bytes = [] then [] else [pkt]
  | _ => []

/-- The same for the `Buffer` thread as a whole. -/
def inHand (cfg : Recorder) : List Block := (cfg.stack .buffer).flatMap handOf

/-- A `Fill` call whose fate is not decided yet. -/
def isPending (call : ℕ) : Frame → Bool
  | .fill (.lock number _) | .fill (.push number _) => number = call
  | _ => false

/-- What keeps a block from being written in a statement, and why. -/
structure DropsFor (tid : Tid) (frame : Frame) (choice : Choice) (s s' : Shared)
    (frames : List Frame) : Prop where
  /-- `Fill` has not got the mutex in time. -/
  timedOut : s'.timedOut = s.timedOut ∨ ∃ call bytes, frame = .fill (.lock call bytes) ∧
    choice = .timeout ∧ s'.timedOut = s.timedOut ++ [s.block tid call bytes]
  /-- `Fill` has found the queue full. -/
  overrun : s'.overrun = s.overrun ∨ ∃ call bytes, frame = .fill (.push call bytes) ∧
    maxQueue ≤ s.data.length ∧ s'.overrun = s.overrun ++ [s.block tid call bytes]
  /-- `Run` clears the queue, having got the mutex for it when it had found no recording. -/
  discarded : s'.discarded = s.discarded ∨
    frame = .buffer .clear ∧ s'.discarded = s.discarded ++ s.data
  clears : .buffer .clear ∈ frames → frame = .buffer .clearLock ∧ s.flowMutex = none
  idles : .buffer .clearLock ∈ frames → frame = .buffer .streaming ∧ s.streaming = false

/-- The queue neither loses nor invents nor reorders anything. -/
structure QueueSafe (cfg : Recorder) : Prop where
  bounded : cfg.shared.data.length ≤ maxQueue
  /-- Every decided call timed out, was refused, is queued, was cleared or was popped. -/
  account : cfg.shared.fills.Perm (cfg.shared.timedOut ++ cfg.shared.overrun ++ cfg.shared.data ++
    cfg.shared.discarded ++ cfg.shared.popped)
  once : (cfg.shared.fills.map Block.call).Nodup
  /-- Every call with data is decided or still on its way. -/
  complete : ∀ call < cfg.shared.calls.length, call ∈ cfg.shared.fills.map Block.call ∨
    ∃ tid, cfg.Inside (isPending call ·) tid
  returned : ∀ call ∈ cfg.shared.returned, call ∈ cfg.shared.fills.map Block.call
  /-- Blocks hold what their call was given. -/
  bytes : ∀ block ∈ cfg.shared.fills,
    cfg.shared.calls[block.call]? = some (block.source, block.bytes)
  /-- Every popped block is written once, complete, unless it is about to be. -/
  handed : cfg.shared.popped = cfg.shared.stdout.map Written.block ++ inHand cfg
  ordered : (cfg.shared.stdout.map Written.block).Sublist cfg.shared.fills
  /-- The calls of one thread are decided in their order. -/
  sequence : cfg.shared.fills.Pairwise fun earlier later =>
    earlier.source = later.source → earlier.call < later.call
  /-- Nothing times out, is refused or is cleared for another reason. -/
  drops : ∀ {tid frame rest choice s' frames}, cfg.stack tid = frame :: rest →
    exec tid frame choice cfg.shared = some (s', frames) →
      DropsFor tid frame choice cfg.shared s' frames

/-- What a `Fill` call knows of the books. -/
def fillLaw (tid : Tid) : Frame → Shared → Prop
  | .fill (.lock call bytes), s | .fill (.push call bytes), s =>
      bytes ≠ [] ∧ s.calls[call]? = some (tid.index, bytes) ∧
        ∀ block ∈ s.fills, block.source = tid.index → block.call < call
  | .fill (.unlock call), s | .fill (.beat call), s | .fill (.store call _), s =>
      call ∈ s.fills.map Block.call
  | _, _ => True

/-- What the shared state says of the calls. -/
structure FillBooks (s : Shared) : Prop where
  ledger : s.ledger.Conserved maxQueue
  filled : ∀ block ∈ s.fills,
    block.bytes ≠ [] ∧ s.calls[block.call]? = some (block.source, block.bytes)
  sequence : s.fills.Pairwise fun earlier later =>
    earlier.source = later.source → earlier.call < later.call
  returned : ∀ call ∈ s.returned, call ∈ s.fills.map Block.call

/-- The invariant of the queue. -/
structure QueueLaw (cfg : Recorder) : Prop where
  books : FillBooks cfg.shared
  frames : cfg.AllFrames fillLaw
  complete : ∀ call < cfg.shared.calls.length, call ∈ cfg.shared.fills.map Block.call ∨
    ∃ tid, cfg.Inside (isPending call ·) tid
  handed : cfg.shared.popped = cfg.shared.stdout.map Written.block ++ inHand cfg

/-- A call is decided once: its number tells its thread, whose calls are in order. -/
theorem FillBooks.once (hbooks : FillBooks s) : (s.fills.map Block.call).Nodup := by
  rw [List.Nodup, List.pairwise_map]
  refine hbooks.sequence.imp_of_mem fun hearlier hlater horder hsame => ?_
  have hfirst := (hbooks.filled _ hearlier).2
  have hsecond := (hbooks.filled _ hlater).2
  rw [hsame, hsecond, Option.some.injEq, Prod.mk.injEq] at hfirst
  exact absurd (horder hfirst.1.symm) (by omega)

/-- Call numbers are below the number of calls. -/
theorem FillBooks.call_lt (hbooks : FillBooks s) {block : Block} (hmem : block ∈ s.fills) :
    block.call < s.calls.length :=
  (List.getElem?_eq_some_iff.mp (hbooks.filled block hmem).2).1

/-- The books after a decision: one more block is offered, by a call that was pending. -/
structure Decides (s s' : Shared) (block : Block) : Prop where
  ledger : s'.ledger = s.ledger.withdraw block ∨ s'.ledger = s.ledger.refuse block ∨
    s'.ledger = s.ledger.push block ∧ s.data.length < maxQueue
  calls : s'.calls = s.calls
  returned : s'.returned = s.returned

theorem Decides.fills {block : Block} (hdecides : Decides s s' block) :
    s'.fills = s.fills ++ [block] := by
  have hoffered : s'.ledger.offered = s.ledger.offered ++ [block] := by
    rcases hdecides.ledger with h | h | ⟨h, -⟩ <;> rw [h] <;> rfl
  exact hoffered

theorem FillBooks.decide {block : Block} (hbooks : FillBooks s) (hdecides : Decides s s' block)
    (hbytes : block.bytes ≠ [])
    (hcall : s.calls[block.call]? = some (block.source, block.bytes))
    (horder : ∀ old ∈ s.fills, old.source = block.source → old.call < block.call) :
    FillBooks s' where
  ledger := by
    rcases hdecides.ledger with h | h | ⟨h, hroom⟩ <;> rw [h]
    · exact hbooks.ledger.withdraw
    · exact hbooks.ledger.refuse
    · exact hbooks.ledger.push hroom
  filled old hold := by
    rw [hdecides.fills, List.mem_append, List.mem_singleton] at hold
    rw [hdecides.calls]
    rcases hold with hold | rfl
    · exact hbooks.filled old hold
    · exact ⟨hbytes, hcall⟩
  sequence := by
    rw [hdecides.fills, List.pairwise_append]
    refine ⟨hbooks.sequence, List.pairwise_singleton _ _, fun old hold new hnew => ?_⟩
    obtain rfl := List.mem_singleton.mp hnew
    exact horder old hold
  returned call hcall := by
    rw [hdecides.returned] at hcall
    rw [hdecides.fills, List.map_append, List.mem_append]
    exact .inl (hbooks.returned call hcall)

theorem fillLaw_of_calls (hcalls : ∀ (call : ℕ) entry, s.calls[call]? = some entry →
      s'.calls[call]? = some entry) (hfills : s'.fills = s.fills) :
    fillLaw tid frame s → fillLaw tid frame s' := by
  cases frame with
  | fill point =>
      cases point with
      | lock call bytes | push call bytes =>
          rintro ⟨hbytes, hcall, horder⟩
          exact ⟨hbytes, hcalls _ _ hcall, hfills ▸ horder⟩
      | unlock call | beat call | store call time =>
          intro hmem
          rw [fillLaw, hfills]
          exact hmem
  | _ => exact fun _ => trivial

/-- The `Buffer` thread has one frame, and others do not touch its block. -/
theorem inHand_of_ne (htid : tid ≠ .buffer) :
    inHand ⟨s', Function.update cfg.stack tid (frames ++ rest)⟩ = inHand cfg := by
  simp [inHand, Ne.symm htid]

theorem inHand_of_stack (hstack : cfg.stack .buffer = [frame]) : inHand cfg = handOf frame := by
  simp [inHand, hstack]

theorem inHand_update (stack : Tid → List Frame) (s' : Shared) (frames : List Frame) :
    inHand ⟨s', Function.update stack .buffer (frames ++ [])⟩ = frames.flatMap handOf := by
  simp [inHand]

/-- A step that neither decides a call nor makes one. -/
theorem QueueLaw.quiet (hlaw : QueueLaw cfg) (hstack : cfg.stack tid = frame :: rest)
    (hbooks : FillBooks s') (hfills : s'.fills = cfg.shared.fills)
    (hcalls : s'.calls = cfg.shared.calls) (hnew : ∀ new ∈ frames, fillLaw tid new s')
    (hpending : ∀ call, (∃ new ∈ frames, isPending call new = true) ↔
      isPending call frame = true)
    (hhanded : s'.popped = s'.stdout.map Written.block ++
      inHand ⟨s', Function.update cfg.stack tid (frames ++ rest)⟩) :
    QueueLaw ⟨s', Function.update cfg.stack tid (frames ++ rest)⟩ where
  books := hbooks
  frames := by
    have hstable : ∀ {tid frame}, fillLaw tid frame cfg.shared → fillLaw tid frame s' :=
      fillLaw_of_calls (fun call entry hcall => hcalls ▸ hcall) hfills
    exact Machine.allFrames_of_exec hstack hlaw.frames hnew (fun _ _ => hstable)
      fun _ _ _ _ => hstable
  complete call hcall := by
    simp only [hcalls] at hcall
    rw [hfills]
    refine (hlaw.complete call hcall).imp_right fun ⟨other, hinside⟩ => ⟨other, ?_⟩
    exact (Machine.inside_congr hstack (hpending call) other).mpr hinside
  handed := hhanded

/-- The books do not depend on anything else. -/
theorem FillBooks.congr (hbooks : FillBooks s) (hledger : s'.ledger = s.ledger)
    (hcalls : s'.calls = s.calls) (hreturned : s'.returned = s.returned) : FillBooks s' := by
  have hfills : s'.fills = s.fills := congrArg Ledger.offered hledger
  refine ⟨hledger ▸ hbooks.ledger, ?_, ?_, ?_⟩
  · rw [hfills, hcalls]
    exact hbooks.filled
  · rw [hfills]
    exact hbooks.sequence
  · rw [hreturned, hfills]
    exact hbooks.returned

theorem ledger_of_sameQueue (hsame : SameQueue s s') : s'.ledger = s.ledger := by
  simp only [Shared.ledger, hsame.data, hsame.fills, hsame.timedOut, hsame.overrun,
    hsame.discarded, hsame.popped]

/-- The functions that do not deal with packets. -/
theorem queueLaw_other (hshape : WellShaped cfg) (hlaw : QueueLaw cfg)
    (hstack : cfg.stack tid = frame :: rest)
    (hexec : exec tid frame choice cfg.shared = some (s', frames))
    (hbuffer : frame.routine ≠ .buffer) (hfill : frame.routine ≠ .fill)
    (hdriver : frame.routine ≠ .driver) :
    QueueLaw ⟨s', Function.update cfg.stack tid (frames ++ rest)⟩ := by
  have heffects := exec_effects hexec
  obtain ⟨hcalls, hreturned⟩ : s'.calls = cfg.shared.calls ∧ s'.returned = cfg.shared.returned := by
    rcases heffects.calls with hsame | hbad | hbad
    · exact hsame
    · exact absurd hbad hfill
    · exact absurd hbad hdriver
  obtain hsame : SameQueue cfg.shared s' := by
    rcases heffects.queue with hsame | hbad | hbad
    · exact hsame
    · exact absurd hbad hbuffer
    · exact absurd hbad hfill
  have hnotFill : ∀ new ∈ frames, new.routine ≠ .fill := by
    intro new hmem hroutine
    rcases (exec_shape hexec).routine new hmem with hentry | hkept
    · cases new with
      | fill point =>
          rcases (exec_shape hexec).entered _ hmem hentry with henters | ⟨rfl, rfl⟩
          · cases frame <;> cases point <;> simp_all [enters, Frame.routine]
          · rcases exec_eq_some_iff.mp hexec with ⟨-, -, -, -, -, rfl⟩ | ⟨hnot, -⟩
            · simp only [List.mem_cons, List.not_mem_nil, or_false] at hmem
              rcases hmem with hmem | hmem
              · simp at hmem
              · exact hfill (hmem ▸ hroutine)
            · exact absurd rfl hnot
      | _ => simp [Frame.routine] at hroutine
    · exact hfill (hkept ▸ hroutine)
  have hnotBuffer : tid ≠ .buffer := by
    rintro rfl
    obtain ⟨point, rfl, -⟩ := hshape.buffer_stack (hstack ▸ List.mem_cons_self)
    exact hbuffer rfl
  have hout : ∀ {frame : Frame} {call : ℕ}, frame.routine ≠ .fill →
      isPending call frame = false := by
    intro frame call hroutine
    cases frame <;> simp_all [isPending, Frame.routine]
  refine hlaw.quiet hstack (hlaw.books.congr (ledger_of_sameQueue hsame) hcalls hreturned)
    hsame.fills hcalls (fun new hmem => ?_) (fun call => ?_) ?_
  · have hroutine := hnotFill new hmem
    cases new <;> simp_all [fillLaw, Frame.routine]
  · rw [hout hfill]
    simp only [Bool.false_eq_true, iff_false]
    rintro ⟨new, hmem, hpending⟩
    simp [hout (hnotFill new hmem)] at hpending
  · rw [inHand_of_ne hnotBuffer, hsame.popped, hsame.stdout]
    exact hlaw.handed

/-! ## `Buffer::Run` -/

theorem queueLaw_buffer {point : BufferPoint} (hshape : WellShaped cfg) (hlaw : QueueLaw cfg)
    (hstack : cfg.stack tid = .buffer point :: rest)
    (hstep : bufferStep tid choice cfg.shared point = some (s', frames)) :
    QueueLaw ⟨s', Function.update cfg.stack tid (frames ++ rest)⟩ := by
  obtain rfl := eq_buffer (hshape.top_role hstack rfl)
  obtain rfl := hshape.rest_eq_nil hstack rfl
  have hhanded := hlaw.handed
  rw [inHand_of_stack hstack] at hhanded
  -- `Buffer::Run` makes no calls of `Fill`; what differs is the books and the block in hand.
  have hquiet : FillBooks s' → s'.fills = cfg.shared.fills → s'.calls = cfg.shared.calls →
      (∀ new ∈ frames, new.routine = .buffer) →
      s'.popped = s'.stdout.map Written.block ++ frames.flatMap handOf →
      QueueLaw ⟨s', Function.update cfg.stack .buffer (frames ++ [])⟩ := by
    intro hbooks hfills hcalls hroutine hhand
    refine hlaw.quiet hstack hbooks hfills hcalls (fun new hmem => ?_) (fun call => ?_) ?_
    · have hbuffer := hroutine new hmem
      cases new <;> simp_all [fillLaw, Frame.routine]
    · simp only [isPending, Bool.false_eq_true, iff_false]
      rintro ⟨new, hmem, hpending⟩
      have hbuffer := hroutine new hmem
      cases new <;> simp_all [Frame.routine]
    · rw [inHand_update]
      exact hhand
  have hbooks := hlaw.books
  cases point with
  | pop =>
      simp only [bufferStep] at hstep
      split at hstep
      case h_1 =>
        cases hstep
        exact hquiet hbooks rfl rfl (by simp [Frame.routine])
          (by simpa [handOf, Block.empty] using hhanded)
      case h_2 pkt later hdata =>
        cases hstep
        have hledger := hbooks.ledger.take hdata
        have hbytes := (hbooks.filled pkt (hledger.ordered.subset (by simp [Ledger.take]))).1
        refine hquiet ⟨hledger, hbooks.filled, hbooks.sequence, hbooks.returned⟩ rfl rfl
          (by simp [Frame.routine]) ?_
        simpa [handOf, hbytes] using hhanded
  | write pkt =>
      simp only [bufferStep] at hstep
      split at hstep
      case isTrue hempty =>
        cases hstep
        refine hquiet hbooks rfl rfl (by simp [Frame.routine]) ?_
        simpa [handOf, hempty] using hhanded
      case isFalse hfull =>
        cases hstep
        refine hquiet ⟨hbooks.ledger, hbooks.filled, hbooks.sequence, hbooks.returned⟩ rfl rfl
          (by simp [Frame.routine]) ?_
        simpa [handOf, hfull] using hhanded
  | clear =>
      cases hstep
      exact hquiet ⟨hbooks.ledger.clear, hbooks.filled, hbooks.sequence, hbooks.returned⟩ rfl rfl
        (by simp [Frame.routine]) (by simpa [handOf] using hhanded)
  | _ =>
      simp only [bufferStep] at hstep
      try split at hstep
      all_goals try split at hstep
      all_goals cases hstep
      all_goals refine hquiet (hbooks.congr rfl rfl rfl) rfl rfl (by simp [Frame.routine]) ?_
      all_goals simpa [handOf, Block.empty] using hhanded

/-! ## `Buffer::Fill` -/

/-- Other threads' calls are not affected by a decision. -/
theorem fillLaw_of_decides {other : Tid} {block : Block} (hdecides : Decides s s' block)
    (hhome : frame.home = none ∨ frame.home = some other.role)
    (hsource : other.role = .encoder → block.source ≠ other.index) :
    fillLaw other frame s → fillLaw other frame s' := by
  cases frame with
  | fill point =>
      have hencoder : other.role = .encoder := by simpa [Frame.home, eq_comm] using hhome
      cases point with
      | lock call bytes | push call bytes =>
          rintro ⟨hbytes, hcall, horder⟩
          refine ⟨hbytes, hdecides.calls ▸ hcall, fun old hold hsame => ?_⟩
          rw [hdecides.fills, List.mem_append, List.mem_singleton] at hold
          rcases hold with hold | rfl
          · exact horder old hold hsame
          · exact absurd hsame (hsource hencoder)
      | unlock call | beat call | store call time =>
          intro hmem
          rw [fillLaw, hdecides.fills, List.map_append, List.mem_append]
          exact .inl hmem
  | _ => exact fun _ => trivial

/-- The fate of a call is decided: its thread goes on to the end of `Fill`. -/
theorem QueueLaw.decide {point new : FillPoint} {call : ℕ} {bytes : List UInt8}
    (hshape : WellShaped cfg) (hlaw : QueueLaw cfg)
    (hstack : cfg.stack tid = .fill point :: rest)
    (hpoint : point = .lock call bytes ∨ point = .push call bytes)
    (hnew : new = .unlock call ∨ new = .beat call)
    (hdecides : Decides cfg.shared s' (cfg.shared.block tid call bytes))
    (hwritten : s'.popped = cfg.shared.popped ∧ s'.stdout = cfg.shared.stdout) :
    QueueLaw ⟨s', Function.update cfg.stack tid ([.fill new] ++ rest)⟩ := by
  have hrole : tid.role = .encoder := hshape.top_role hstack rfl
  obtain rfl := hshape.rest_of_fill hstack rfl
  obtain ⟨hbytes, hcall, horder⟩ : bytes ≠ [] ∧
      cfg.shared.calls[call]? = some (tid.index, bytes) ∧
        ∀ block ∈ cfg.shared.fills, block.source = tid.index → block.call < call := by
    have htop := hlaw.frames tid _ (hstack ▸ List.mem_cons_self)
    rcases hpoint with rfl | rfl <;> exact htop
  have hdecided : call ∈ s'.fills.map Block.call := by
    rw [hdecides.fills]
    simp [Shared.block]
  constructor
  · exact hlaw.books.decide hdecides hbytes hcall horder
  · refine Machine.allFrames_of_exec hstack hlaw.frames ?_ ?_ ?_
    · intro frame hmem
      obtain rfl := List.mem_singleton.mp hmem
      rcases hnew with rfl | rfl <;> exact hdecided
    · intro old hold _
      obtain rfl := List.mem_singleton.mp hold
      trivial
    · intro other hother old hold
      refine fillLaw_of_decides hdecides (hshape.home other old hold) fun hencoder hsame => ?_
      cases other <;> simp [Tid.role] at hencoder
      cases tid <;> simp [Tid.role] at hrole
      exact hother (by simpa [Shared.block, Tid.index, eq_comm] using hsame)
  · intro number hnumber
    rw [hdecides.calls] at hnumber
    by_cases hthis : number = call
    · exact .inl (hthis ▸ hdecided)
    · rcases hlaw.complete number hnumber with hold | ⟨other, hinside⟩
      · left
        rw [hdecides.fills, List.map_append, List.mem_append]
        exact .inl hold
      · refine .inr ⟨other, (Machine.inside_congr hstack ?_ other).mpr hinside⟩
        rcases hpoint with rfl | rfl <;> rcases hnew with rfl | rfl <;>
          simp [isPending, Ne.symm hthis]
  · rw [inHand_of_ne (by rintro rfl; simp [Tid.role] at hrole), hwritten.1, hwritten.2]
    exact hlaw.handed

theorem queueLaw_fill {point : FillPoint} (hshape : WellShaped cfg) (hlaw : QueueLaw cfg)
    (hstack : cfg.stack tid = .fill point :: rest)
    (hstep : fillStep tid choice cfg.shared point = some (s', frames)) :
    QueueLaw ⟨s', Function.update cfg.stack tid (frames ++ rest)⟩ := by
  have hhanded := hlaw.handed
  have hnotBuffer : tid ≠ .buffer := by
    rintro rfl
    simpa [Tid.role] using hshape.top_role hstack rfl
  have htop := hlaw.frames tid _ (hstack ▸ List.mem_cons_self)
  cases point with
  | lock call bytes =>
      simp only [fillStep] at hstep
      split at hstep
      · cases hstep
        exact hlaw.decide hshape hstack (.inl rfl) (.inr rfl) ⟨.inl rfl, rfl, rfl⟩ ⟨rfl, rfl⟩
      · split at hstep <;> cases hstep
        refine hlaw.quiet hstack (hlaw.books.congr rfl rfl rfl) rfl rfl ?_ ?_ ?_
        · intro new hnew
          obtain rfl := List.mem_singleton.mp hnew
          exact htop
        · simp [isPending]
        · rw [inHand_of_ne hnotBuffer]
          exact hhanded
  | push call bytes =>
      simp only [fillStep] at hstep
      split at hstep
      case isTrue hroom =>
        cases hstep
        exact hlaw.decide hshape hstack (.inr rfl) (.inl rfl) ⟨.inr (.inr ⟨rfl, hroom⟩), rfl, rfl⟩
          ⟨rfl, rfl⟩
      case isFalse =>
        cases hstep
        exact hlaw.decide hshape hstack (.inr rfl) (.inl rfl) ⟨.inr (.inl rfl), rfl, rfl⟩
          ⟨rfl, rfl⟩
  | unlock call | beat call =>
      cases hstep
      refine hlaw.quiet hstack (hlaw.books.congr rfl rfl rfl) rfl rfl ?_ ?_ ?_
      · intro new hnew
        obtain rfl := List.mem_singleton.mp hnew
        exact htop
      · simp [isPending]
      · rw [inHand_of_ne hnotBuffer]
        exact hhanded
  | store call time =>
      cases hstep
      have hbooks := hlaw.books
      refine hlaw.quiet hstack ⟨hbooks.ledger, hbooks.filled, hbooks.sequence, ?_⟩ rfl rfl ?_ ?_ ?_
      · intro number hnumber
        rcases List.mem_append.mp hnumber with hold | hthis
        · exact hbooks.returned number hold
        · obtain rfl := List.mem_singleton.mp hthis
          exact htop
      · simp
      · simp [isPending]
      · rw [inHand_of_ne hnotBuffer]
        exact hhanded

/-- The driver calls `Fill`. -/
theorem queueLaw_driver (hshape : WellShaped cfg) (hlaw : QueueLaw cfg)
    (hstack : cfg.stack tid = .driver :: rest)
    (hstep : driverStep tid choice cfg.shared = some (s', frames)) :
    QueueLaw ⟨s', Function.update cfg.stack tid (frames ++ rest)⟩ := by
  have hbooks := hlaw.books
  have hnotBuffer : tid ≠ .buffer := by
    rintro rfl
    simpa [Tid.role] using hshape.top_role hstack rfl
  obtain rfl := hshape.rest_eq_nil hstack rfl
  unfold driverStep at hstep
  split at hstep
  case h_1 =>
    cases hstep
    refine hlaw.quiet hstack hbooks rfl rfl ?_ ?_ ?_
    · simp [fillLaw]
    · simp
    · rw [inHand_of_ne hnotBuffer]
      exact hlaw.handed
  case h_2 bytes hbytes =>
    cases hstep
    have hgrow : ∀ (call : ℕ) entry, cfg.shared.calls[call]? = some entry →
        (cfg.shared.calls ++ [(tid.index, bytes)])[call]? = some entry := by
      intro call entry hcall
      rw [List.getElem?_append_left (List.getElem?_eq_some_iff.mp hcall).1, hcall]
    constructor
    · exact ⟨hbooks.ledger, fun block hmem => (hbooks.filled block hmem).imp_right (hgrow _ _),
        hbooks.sequence, hbooks.returned⟩
    · refine Machine.allFrames_of_exec hstack hlaw.frames (fun new hnew => ?_)
        (fun _ _ => fillLaw_of_calls hgrow rfl) fun _ _ _ _ => fillLaw_of_calls hgrow rfl
      simp only [List.mem_cons, List.not_mem_nil, or_false] at hnew
      rcases hnew with rfl | rfl
      · exact ⟨hbytes, List.getElem?_concat_length, fun block hmem _ => hbooks.call_lt hmem⟩
      · trivial
    · intro call hcall
      rw [List.length_append, List.length_singleton, Nat.lt_succ_iff_lt_or_eq] at hcall
      rcases hcall with hold | rfl
      · refine (hlaw.complete call hold).imp_right fun hpending => ?_
        obtain ⟨other, hinside⟩ := hpending
        have hother : other ≠ tid := by
          rintro rfl
          simp [Config.inside_iff hstack, isPending] at hinside
        exact ⟨other, (Machine.inside_update_of_ne hother).mpr hinside⟩
      · exact .inr ⟨tid, Machine.inside_update_self.mpr (.inl ⟨_, List.mem_cons_self, by
          simp [isPending]⟩)⟩
    · rw [inHand_of_ne hnotBuffer]
      exact hlaw.handed
  case h_3 => cases hstep

theorem queueLaw_step (hshape : WellShaped cfg) (hlaw : QueueLaw cfg)
    (hstack : cfg.stack tid = frame :: rest)
    (hexec : exec tid frame choice cfg.shared = some (s', frames)) :
    QueueLaw ⟨s', Function.update cfg.stack tid (frames ++ rest)⟩ := by
  cases frame with
  | buffer point => exact queueLaw_buffer hshape hlaw hstack (advance_of_exec rfl hexec)
  | fill point => exact queueLaw_fill hshape hlaw hstack (advance_of_exec rfl hexec)
  | driver =>
      rcases exec_eq_some_iff.mp hexec with ⟨-, -, -, -, rfl, rfl⟩ | ⟨-, hstep⟩
      · obtain rfl := hshape.rest_eq_nil hstack rfl
        refine hlaw.quiet hstack hlaw.books rfl rfl ?_ ?_ ?_
        · simp [fillLaw]
        · simp [isPending]
        · rw [inHand_of_ne]
          · exact hlaw.handed
          · rintro rfl
            simpa [Tid.role] using hshape.top_role hstack rfl
      · exact queueLaw_driver hshape hlaw hstack hstep
  | _ => exact queueLaw_other hshape hlaw hstack hexec (by simp [Frame.routine])
          (by simp [Frame.routine]) (by simp [Frame.routine])

/-- `Run` clears the queue where it has found no recording. -/
theorem clears_of_mem {point : BufferPoint} (hexec : exec tid frame choice s = some (s', frames))
    (hmem : .buffer point ∈ frames) :
    (point = .clear → frame = .buffer .clearLock ∧ s.flowMutex = none) ∧
      (point = .clearLock → frame = .buffer .streaming ∧ s.streaming = false) := by
  rcases exec_eq_some_iff.mp hexec with ⟨-, hhardware, -, -, -, rfl⟩ | ⟨-, hstep⟩
  · obtain rfl : .buffer point = frame := by simpa using hmem
    cases hhardware
  rcases (exec_shape hexec).routine _ hmem with hentry | hroutine
  · cases hentry
  · cases frame <;> simp only [Frame.routine, reduceCtorEq] at hroutine
    rename_i old
    cases old <;> simp only [advance, bufferStep] at hstep <;> (try split at hstep) <;>
      (try split at hstep) <;> cases hstep <;> simp_all

theorem drops_of_exec (hexec : exec tid frame choice s = some (s', frames)) :
    DropsFor tid frame choice s s' frames := by
  have hclears (hmem : .buffer .clear ∈ frames) := (clears_of_mem hexec hmem).1 rfl
  have hidles (hmem : .buffer .clearLock ∈ frames) := (clears_of_mem hexec hmem).2 rfl
  rcases (exec_effects hexec).queue with hsame | hbuffer | hfill
  · exact ⟨.inl hsame.timedOut, .inl hsame.overrun, .inl hsame.discarded, hclears, hidles⟩
  · cases frame <;> simp only [Frame.routine, reduceCtorEq] at hbuffer
    rename_i point
    have hstep : bufferStep tid choice s point = some (s', frames) := advance_of_exec rfl hexec
    have hdecided : s'.timedOut = s.timedOut ∧ s'.overrun = s.overrun := by
      cases point <;> simp only [bufferStep] at hstep <;> (try split at hstep) <;>
        (try split at hstep) <;> cases hstep <;> simp
    refine ⟨.inl hdecided.1, .inl hdecided.2, ?_, hclears, hidles⟩
    cases point <;> simp only [bufferStep] at hstep <;> (try split at hstep) <;>
      (try split at hstep) <;> cases hstep <;> simp
  · cases frame <;> simp only [Frame.routine, reduceCtorEq] at hfill
    rename_i point
    have hstep : fillStep tid choice s point = some (s', frames) := advance_of_exec rfl hexec
    have hdiscarded : s'.discarded = s.discarded := by
      cases point <;> simp only [fillStep] at hstep <;> (try split at hstep) <;>
        (try split at hstep) <;> cases hstep <;> simp
    refine ⟨?_, ?_, .inl hdiscarded, hclears, hidles⟩ <;>
      cases point <;> simp only [fillStep] at hstep <;> (try split at hstep) <;>
        (try split at hstep) <;> cases hstep <;> simp_all

theorem queueLaw_initial (now : ℤ) : QueueLaw (initial now) where
  books := ⟨.empty, by simp [initial, Shared.initial], .nil, by simp [initial, Shared.initial]⟩
  frames tid frame hmem := by cases tid <;> simp_all [initial, Tid.entry, fillLaw]
  complete call hcall := by simp [initial, Shared.initial] at hcall
  handed := by simp [initial, Shared.initial, inHand, Tid.entry, handOf]

theorem queueLaw (hreach : recorder.Reachable cfg) : QueueLaw cfg := by
  refine recorder_invariant hreach queueLaw_initial (fun state elapsed hlaw => ?_)
    fun hprior hlaw _ hstack hexec => ?_
  · refine ⟨hlaw.books.congr rfl rfl rfl, fun tid frame hmem => ?_, hlaw.complete, hlaw.handed⟩
    have hold := hlaw.frames tid frame hmem
    refine fillLaw_of_calls ?_ ?_ hold
    · exact fun _ _ h => h
    · rfl
  · exact queueLaw_step (wellShaped hprior) hlaw hstack hexec

/-- The queue is safe in every run. -/
theorem queueSafe (hreach : recorder.Reachable cfg) : QueueSafe cfg := by
  have hlaw := queueLaw hreach
  have hbooks := hlaw.books
  have hledger := hbooks.ledger
  refine ⟨hledger.bounded, hledger.account, hbooks.once, hlaw.complete, hbooks.returned,
    fun block hmem => (hbooks.filled block hmem).2, hlaw.handed, ?_, hbooks.sequence,
    fun _ hexec => drops_of_exec hexec⟩
  have hpopped : cfg.shared.popped.Sublist cfg.shared.fills :=
    (List.sublist_append_left _ _).trans hledger.ordered
  rw [hlaw.handed] at hpopped
  exact (List.sublist_append_left _ _).trans hpopped

/-- A recording with flow control on, and one block on its way through the queue. -/
def passBlock : List (Action Tid Choice ℕ) :=
  (startRecording ++ dispatch .xon ++ goOn 1).map (.thread .commands) ++
    (.fill [71, 0] :: goOn 5).map (.thread (.encoder 0)) ++ (goOn 7).map (.thread .buffer)

theorem queueSafe_after_block :
    ∃ cfg, cfg.shared.stdout.map (fun written => written.block.bytes) = [[71, 0]] ∧
      QueueSafe cfg := by
  have hrun : (recorder.run (initial 0) passBlock).map
      (fun cfg => cfg.shared.stdout.map fun written => written.block.bytes) =
      some [[71, 0]] := by
    rfl
  obtain ⟨cfg, hreach, hvalue⟩ := System.exists_reachable_of_run (reachableBy_initial 0) hrun
  exact ⟨cfg, hvalue, queueSafe hreach⟩

end HauppaugeUSB.MythTV

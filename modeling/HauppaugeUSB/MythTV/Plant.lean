/-
# What each statement does to the recorder

The members of the recorder, as they stand between two statements, say what a station would:
whether it runs, what has failed, whether it is ready and recording, and where the blocks are.
Most statements of the threads change nothing of this. Each of the others is the effect of one
operation of the station, and is where that operation takes place: the store in `StopEncoding`
is where a recording ends, and a block leaves the queue when it is popped. The store in
`StartEncoding` is left out here. It begins a recording for the line that asks for it.
-/

import HauppaugeUSB.MythTV.Invariants
import HauppaugeUSB.MythTV.Queue
import HauppaugeUSB.MythTV.Station

namespace HauppaugeUSB.MythTV

open HauppaugeUSB.Concurrency HauppaugeUSB.Commands

variable {tid : Tid} {frame : Frame} {choice : Choice} {s s' : Shared} {frames rest : List Frame}
  {cfg : Recorder} {plate : Nameplate} {hand : Option Block} {desk : Desk}

/-- The block that `Buffer::Run` has taken and not written yet. -/
def handed : Option Frame → Option Block
  | some (.buffer (.unlock pkt)) | some (.buffer (.write pkt)) =>
      if pkt.bytes = [] then none else some pkt
  | _ => none

/-- What the members of the recorder say. -/
def plantOf (s : Shared) (hand : Option Block) (desk : Desk) : Station Block where
  running := s.run
  failure := if s.fatal then some s.fatalMsg.toList else none
  ready := s.ready
  recording := s.streaming
  flowing := s.xon
  books := s.ledger
  hand
  passed := s.stdout.map Written.block
  desk

/-- The operation that a statement of a thread is the effect of. -/
def Frame.operation (tid : Tid) (choice : Choice) (s : Shared) :
    Frame → Option (Operation Block)
  | .fatal (.test msg) => if s.fatal then none else some (.fail msg.toList)
  | .terminate => if s.run then some .leave else none
  | .stop .clear => if s.streaming then some .finish else none
  | .openDev .ready => some .prepare
  | .command (.xonSet on) => some (.allow on)
  | .buffer .pop => if s.data = [] then none else some .take
  | .buffer (.write pkt) => if pkt.bytes = [] then none else some .pass
  | .buffer .clear => some .clear
  | .fill (.lock call bytes) =>
      if choice = .timeout then some (.drop (s.block tid call bytes)) else none
  | .fill (.push call bytes) => some (.offer (s.block tid call bytes))
  | _ => none

/-- An operation or none. -/
def Station.perform (plate : Nameplate) (s : Station Block)
    (operation : Option (Operation Block)) : Option (Station Block) :=
  operation.elim (some s) (s.step plate maxQueue)

section

attribute [local simp] Station.perform Frame.operation Station.step plantOf Shared.ledger
  Ledger.push Ledger.refuse Ledger.withdraw Ledger.clear Ledger.take

theorem fatalStep_plant {point : FatalPoint}
    (hstep : fatalStep tid s point = some (s', frames)) :
    (plantOf s hand desk).perform plate ((Frame.fatal point).operation tid choice s) =
      some (plantOf s' hand desk) := by
  cases point <;> simp only [fatalStep] at hstep <;> (try split at hstep) <;> cases hstep <;>
    simp_all

theorem terminateStep_plant (hstep : terminateStep s = some (s', frames)) :
    (plantOf s hand desk).perform plate (Frame.terminate.operation tid choice s) =
      some (plantOf s' hand desk) := by
  cases hstep
  cases hrun : s.run <;> simp [hrun]

theorem stopStep_plant {point : StopPoint}
    (hstep : stopStep tid choice s point = some (s', frames)) :
    (plantOf s hand desk).perform plate ((Frame.stop point).operation tid choice s) =
      some (plantOf s' hand desk) := by
  cases point <;> simp only [stopStep] at hstep <;> (try split at hstep) <;> cases hstep <;>
    simp
  cases s.streaming <;> simp

theorem startStep_plant {point : StartPoint} (hpoint : point ≠ .set)
    (hstep : startStep choice s point = some (s', frames)) :
    (plantOf s hand desk).perform plate ((Frame.start point).operation tid choice s) =
      some (plantOf s' hand desk) := by
  cases point <;> simp only [startStep] at hstep <;> (try split at hstep) <;> cases hstep <;>
    simp at hpoint ⊢

theorem openStep_plant {point : OpenPoint} (hready : point = .ready → s.ready = false)
    (hstep : openStep tid choice s point = some (s', frames)) :
    (plantOf s hand desk).perform plate ((Frame.openDev point).operation tid choice s) =
      some (plantOf s' hand desk) := by
  cases point <;> simp only [openStep] at hstep <;> (try split at hstep) <;>
    (try split at hstep) <;> cases hstep <;> simp_all

theorem waitStep_plant {point : WaitPoint} (hstep : waitStep tid s point = some (s', frames)) :
    (plantOf s hand desk).perform plate ((Frame.wait point).operation tid choice s) =
      some (plantOf s' hand desk) := by
  cases point <;> simp only [waitStep] at hstep <;> (try split at hstep) <;> cases hstep <;>
    simp

theorem dtorStep_plant {point : DtorPoint} (hstep : dtorStep tid s point = some (s', frames)) :
    (plantOf s hand desk).perform plate ((Frame.dtor point).operation tid choice s) =
      some (plantOf s' hand desk) := by
  cases point <;> simp only [dtorStep] at hstep <;> (try split at hstep) <;> cases hstep <;>
    simp

theorem commandStep_plant {point : CommandPoint}
    (hstep : commandStep tid choice s point = some (s', frames)) :
    (plantOf s hand desk).perform plate ((Frame.command point).operation tid choice s) =
      some (plantOf s' hand desk) := by
  cases point <;> simp only [commandStep] at hstep <;> (try split at hstep) <;>
    (try split at hstep) <;> cases hstep <;> simp

theorem fillStep_plant {point : FillPoint}
    (hstep : fillStep tid choice s point = some (s', frames)) :
    (plantOf s hand desk).perform plate ((Frame.fill point).operation tid choice s) =
      some (plantOf s' hand desk) := by
  cases point <;> simp only [fillStep] at hstep <;> (try split at hstep) <;>
    (try split at hstep) <;> cases hstep <;> simp_all

theorem driverStep_plant (hstep : driverStep tid choice s = some (s', frames)) :
    (plantOf s hand desk).perform plate (Frame.driver.operation tid choice s) =
      some (plantOf s' hand desk) := by
  unfold driverStep at hstep
  split at hstep <;> cases hstep <;> simp

theorem bufferStep_plant {point : BufferPoint} (hbytes : ∀ block ∈ s.data, block.bytes ≠ [])
    (hstep : bufferStep tid choice s point = some (s', frames)) :
    (plantOf s (handed (some (.buffer point))) desk).perform plate
        ((Frame.buffer point).operation tid choice s) =
      some (plantOf s' (handed frames.head?) desk) := by
  cases point <;> simp only [bufferStep] at hstep <;> (try split at hstep) <;>
    (try split at hstep) <;> cases hstep <;> simp_all [handed, Block.empty]

end

/-- No statement of the driver is an operation. -/
theorem operation_of_isHardware (hhardware : frame.isHardware = true) :
    frame.operation tid choice s = none := by
  cases frame with
  | stop point | start point | openDev point | dtor point =>
      cases point <;> simp_all [Frame.isHardware, Frame.operation]
  | _ => simp_all [Frame.isHardware, Frame.operation]

/-- Each statement is the effect of its operation on what the members say. -/
theorem plant_step (hreach : recorder.Reachable cfg) (hstack : cfg.stack tid = frame :: rest)
    (hexec : exec tid frame choice cfg.shared = some (s', frames)) (hset : frame ≠ .start .set) :
    (plantOf cfg.shared (handed (cfg.top .buffer)) desk).perform plate
        (frame.operation tid choice cfg.shared) =
      some (plantOf s' (handed (Config.top
        ⟨s', Function.update cfg.stack tid (frames ++ rest)⟩ .buffer)) desk) := by
  have hshape := wellShaped hreach
  by_cases htid : tid = .buffer
  · subst htid
    obtain ⟨point, rfl, -⟩ := hshape.buffer_stack (hstack ▸ List.mem_cons_self)
    obtain rfl := hshape.rest_eq_nil hstack rfl
    have hbooks := (queueLaw hreach).books
    have hbytes : ∀ block ∈ cfg.shared.data, block.bytes ≠ [] := fun block hmem =>
      (hbooks.filled block (hbooks.ledger.ordered.subset (List.mem_append_right _ hmem))).1
    have hafter : Config.top ⟨s', Function.update cfg.stack .buffer (frames ++ [])⟩ .buffer =
        frames.head? := by simp [Config.top]
    rw [top_of_stack hstack, hafter]
    exact bufferStep_plant hbytes (advance_of_exec rfl hexec)
  · rw [top_of_ne (Ne.symm htid)]
    rcases exec_eq_some_iff.mp hexec with ⟨-, hhardware, -, -, rfl, -⟩ | ⟨-, hstep⟩
    · rw [operation_of_isHardware hhardware]
      rfl
    cases frame with
    | fatal point => exact fatalStep_plant hstep
    | terminate => exact terminateStep_plant hstep
    | stop point => exact stopStep_plant hstep
    | start point => exact startStep_plant (by simpa using hset) hstep
    | openDev point =>
        refine openStep_plant (fun hready => ?_) hstep
        subst hready
        have hopening := (sound hreach).opening tid (.openDev .ready)
          (hstack ▸ List.mem_cons_self) rfl
        exact hopening.1
    | wait point => exact waitStep_plant hstep
    | dtor point => exact dtorStep_plant hstep
    | command point => exact commandStep_plant hstep
    | buffer point => exact absurd (eq_buffer (hshape.top_role hstack rfl)) htid
    | fill point => exact fillStep_plant hstep
    | driver => exact driverStep_plant hstep

end HauppaugeUSB.MythTV

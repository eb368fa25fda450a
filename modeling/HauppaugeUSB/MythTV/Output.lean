/-
# The output of the recorder

`Buffer::Run` takes blocks from the queue and hands them to `write(1)`, and counts the bytes
of every block it has handed over as written. What `write` has accepted of them it does not
look at. Here its loop is taken as a whole, with the replies of `write` and the statistics,
and it is determined for which replies the output is complete.

The steps of the thread are another model of the same loop; at the end they are shown to do the
same.
-/

import HauppaugeUSB.MythTV.Encoding

namespace HauppaugeUSB.MythTV

open HauppaugeUSB.Concurrency

/-- What `write(1)` replies to a number of bytes, short of a permanent error. -/
inductive WriteReply
  /-- It has accepted so many of them, or all. -/
  | count (n : ℕ)
  /-- `EINTR`. -/
  | interrupted
  /-- `EAGAIN`. -/
  | again
  deriving DecidableEq

/-- How many bytes are accepted. -/
def WriteReply.accepts (size : ℕ) : WriteReply → ℕ
  | .count n => min n size
  | .interrupted | .again => 0

/-- A `block_t`, the size of which is a `size_t`. -/
structure Packet where
  bytes : List UInt8
  fits : bytes.length < 2 ^ 64
  deriving DecidableEq

namespace Packet

/-- The `pkt` that is declared before the queue is looked at. -/
def empty : Packet := ⟨[], by decide⟩

/-- `pkt.size()`. -/
def size (pkt : Packet) : ℕ := pkt.bytes.length

end Packet

/-- What is found in one pass of the loop. -/
structure Pass where
  /-- Five minutes have passed since the last statistics. -/
  elapsed : Bool
  streaming : Bool
  xon : Bool
  /-- The lock of the queue is had in time. -/
  locked : Bool
  reply : WriteReply
  deriving DecidableEq

/-- The variables of `Buffer::Run` and the queue. -/
structure Output where
  wait : Bool
  isEmpty : Bool
  writeTotal : UInt64
  written : UInt64
  writeCnt : UInt64
  emptyCnt : UInt64
  data : List Packet
  /-- Every block that has been taken from the queue. -/
  popped : List Packet
  /-- What `stdout` had accepted when the last statistics were written. -/
  reported : List UInt8
  /-- What it has accepted since. -/
  recent : List UInt8
  deriving DecidableEq

namespace Output

/-- Before the loop. -/
def start : Output where
  wait := false
  isEmpty := false
  writeTotal := 0
  written := 0
  writeCnt := 0
  emptyCnt := 0
  data := []
  popped := []
  reported := []
  recent := []

/-- The bytes that `stdout` has accepted. -/
def stdout (out : Output) : List UInt8 := out.reported ++ out.recent

/-- Every five minutes, write out some statistics. -/
def statistics (elapsed : Bool) (out : Output) : Output :=
  if elapsed then
    { out with
      writeTotal := out.writeTotal + out.written
      written := 0
      writeCnt := 0
      emptyCnt := 0
      reported := out.reported ++ out.recent
      recent := [] }
  else out

/-- Take a block from the queue, which stays empty if there is none. -/
def pop (out : Output) : Packet × Output :=
  match out.data with
  | [] => (.empty, out)
  | pkt :: rest =>
      (pkt, { out with data := rest, isEmpty := rest.isEmpty, popped := out.popped ++ [pkt] })

/-- Hand a block to `write(1)`. -/
def write (pkt : Packet) (reply : WriteReply) (out : Output) : Output :=
  if pkt.bytes = [] then out
  else
    { out with
      written := out.written + UInt64.ofNat pkt.size
      writeCnt := out.writeCnt + 1
      recent := out.recent ++ pkt.bytes.take (reply.accepts pkt.size) }

/-- Wait before the next pass if the queue has been left empty. -/
def rest (out : Output) : Output :=
  if out.isEmpty then { out with wait := true, emptyCnt := out.emptyCnt + 1 } else out

/-- One pass of the loop. -/
def pass (out : Output) (found : Pass) : Output :=
  let out := ({ out with wait := false } : Output).statistics found.elapsed
  if found.streaming then
    if found.xon then
      let (pkt, out) := if found.locked then out.pop else (.empty, out)
      (out.write pkt found.reply).rest
    else { out with wait := true }
  else { out with data := if found.locked then [] else out.data, wait := true }

end Output

/-- What happens to the queue and the output. -/
inductive OutputStep
  /-- `Buffer::Fill` has pushed a block. -/
  | fill (pkt : Packet)
  | pass (found : Pass)
  deriving DecidableEq

/-- A step of the queue or the output. -/
def Output.step (out : Output) : OutputStep → Output
  | .fill pkt => { out with data := out.data ++ [pkt] }
  | .pass found => out.pass found

/-- The output after a sequence of steps. -/
def outputRun (steps : List OutputStep) : Output := steps.foldl Output.step .start

/-- The output is complete, up to the end of the last block, and the counters say how much it
is. -/
structure Output.Complete (out : Output) : Prop where
  pending : ∃ pending, out.stdout ++ pending = out.popped.flatMap Packet.bytes ∧
    pending <:+ out.popped.getLast?.elim [] Packet.bytes
  written : out.written = UInt64.ofNat out.recent.length
  total : out.writeTotal + out.written = UInt64.ofNat out.stdout.length

/-- The block that a pass takes from the queue. -/
def Output.pops (out : Output) (found : Pass) : Option Packet :=
  if found.streaming ∧ found.xon ∧ found.locked then out.data.head? else none

/-- At every point of a sequence the output is complete. -/
def CompleteThroughout (steps : List OutputStep) : Prop :=
  ∀ prior, prior <+: steps → (outputRun prior).Complete

/-- Every block of a sequence that is taken from the queue is accepted as a whole. -/
def AcceptsWhole (steps : List OutputStep) : Prop :=
  ∀ prior found, prior ++ [.pass found] <+: steps →
    ∀ pkt, (outputRun prior).pops found = some pkt → found.reply.accepts pkt.size = pkt.size

section Passes

variable {out : Output} {found : Pass} {pkt : Packet} {reply : WriteReply}

theorem WriteReply.accepts_le {size : ℕ} : reply.accepts size ≤ size := by
  cases reply with
  | count n => exact Nat.min_le_right n size
  | interrupted | again => exact Nat.zero_le _

/-- Everything that has been taken has been accepted. -/
structure Output.Exact (out : Output) : Prop where
  accepted : out.stdout = out.popped.flatMap Packet.bytes
  written : out.written = UInt64.ofNat out.recent.length
  total : out.writeTotal = UInt64.ofNat out.reported.length

theorem Output.Exact.complete (hexact : out.Exact) : out.Complete where
  pending := ⟨[], by rw [List.append_nil, hexact.accepted], List.nil_suffix⟩
  written := hexact.written
  total := by
    rw [hexact.total, hexact.written, Output.stdout, List.length_append, UInt64.ofNat_add]

theorem exact_start : Output.start.Exact := ⟨rfl, rfl, rfl⟩

theorem Output.Exact.statistics {elapsed : Bool} (hexact : out.Exact) :
    (out.statistics elapsed).Exact := by
  cases elapsed with
  | false => exact hexact
  | true =>
      refine ⟨?_, rfl, ?_⟩
      · simpa [Output.statistics, Output.stdout] using hexact.accepted
      · simp [Output.statistics, hexact.total, hexact.written, UInt64.ofNat_add]

/-- The same has been taken, accepted and counted. -/
structure SameBooks (out later : Output) : Prop where
  popped : later.popped = out.popped
  reported : later.reported = out.reported
  recent : later.recent = out.recent
  written : later.written = out.written
  writeTotal : later.writeTotal = out.writeTotal

theorem SameBooks.exact {later : Output} (hsame : SameBooks out later) (hexact : out.Exact) :
    later.Exact where
  accepted := by
    rw [Output.stdout, hsame.reported, hsame.recent, hsame.popped]
    exact hexact.accepted
  written := by rw [hsame.written, hsame.recent, hexact.written]
  total := by rw [hsame.writeTotal, hsame.reported, hexact.total]

theorem sameBooks_rest : SameBooks out out.rest := by
  unfold Output.rest
  split <;> exact ⟨rfl, rfl, rfl, rfl, rfl⟩

/-- The books after a block has been taken and handed over. -/
def Output.hand (pkt : Packet) (reply : WriteReply) (out : Output) : Output :=
  ({ out with popped := out.popped ++ [pkt] } : Output).write pkt reply

/-- The output when a pass has looked at the clock. -/
theorem sameBooks_clock {elapsed : Bool} :
    SameBooks (out.statistics elapsed)
      (({ out with wait := false } : Output).statistics elapsed) := by
  cases elapsed <;> exact ⟨rfl, rfl, rfl, rfl, rfl⟩

theorem statistics_data {elapsed : Bool} : (out.statistics elapsed).data = out.data := by
  cases elapsed <;> rfl

theorem SameBooks.trans {later last : Output} (hfirst : SameBooks out later)
    (hsecond : SameBooks later last) : SameBooks out last where
  popped := hsecond.popped.trans hfirst.popped
  reported := hsecond.reported.trans hfirst.reported
  recent := hsecond.recent.trans hfirst.recent
  written := hsecond.written.trans hfirst.written
  writeTotal := hsecond.writeTotal.trans hfirst.writeTotal

/-- A pass without a block. -/
theorem sameBooks_pass_of_none (hnone : out.pops found = none) :
    SameBooks (out.statistics found.elapsed) (out.pass found) := by
  refine sameBooks_clock.trans ?_
  unfold Output.pops at hnone
  unfold Output.pass
  by_cases hstreaming : found.streaming = true
  case neg =>
    rw [if_neg hstreaming]
    exact ⟨rfl, rfl, rfl, rfl, rfl⟩
  by_cases hxon : found.xon = true
  case neg =>
    rw [if_pos hstreaming, if_neg hxon]
    exact ⟨rfl, rfl, rfl, rfl, rfl⟩
  rw [if_pos hstreaming, if_pos hxon]
  by_cases hlocked : found.locked = true
  · -- the queue is empty
    rw [if_pos ⟨hstreaming, hxon, hlocked⟩, List.head?_eq_none_iff] at hnone
    simp only [if_pos hlocked, Output.pop, statistics_data, hnone]
    exact sameBooks_rest
  · simp only [if_neg hlocked]
    exact sameBooks_rest

/-- A pass with a block. -/
theorem sameBooks_pass_of_some (hsome : out.pops found = some pkt) :
    SameBooks ((out.statistics found.elapsed).hand pkt found.reply) (out.pass found) := by
  unfold Output.pops at hsome
  rw [Option.ite_none_right_eq_some] at hsome
  obtain ⟨⟨hstreaming, hxon, hlocked⟩, hhead⟩ := hsome
  obtain ⟨rest, hdata⟩ : ∃ rest, out.data = pkt :: rest := List.head?_eq_some_iff.mp hhead
  unfold Output.pass
  simp only [if_pos hstreaming, if_pos hxon, if_pos hlocked, Output.pop, statistics_data, hdata]
  refine SameBooks.trans ?_ sameBooks_rest
  unfold Output.hand Output.write
  cases found.elapsed <;> split <;> exact ⟨rfl, rfl, rfl, rfl, rfl⟩

/-- What has been handed over counts as a whole, and is accepted as far as it is. -/
theorem hand_recent : (out.hand pkt reply).recent =
    out.recent ++ pkt.bytes.take (reply.accepts pkt.size) := by
  unfold Output.hand Output.write
  split
  case isTrue hempty => simp [hempty]
  case isFalse => rfl

theorem hand_written : (out.hand pkt reply).written = out.written + UInt64.ofNat pkt.size := by
  unfold Output.hand Output.write
  split
  case isTrue hempty => simp [Packet.size, hempty]
  case isFalse => rfl

theorem hand_reported : (out.hand pkt reply).reported = out.reported := by
  unfold Output.hand Output.write
  split <;> rfl

theorem hand_writeTotal : (out.hand pkt reply).writeTotal = out.writeTotal := by
  unfold Output.hand Output.write
  split <;> rfl

theorem hand_popped : (out.hand pkt reply).popped = out.popped ++ [pkt] := by
  unfold Output.hand Output.write
  split <;> rfl

/-- A block that is accepted as a whole leaves the books exact. -/
theorem Output.Exact.hand (hexact : out.Exact) (hwhole : reply.accepts pkt.size = pkt.size) :
    (out.hand pkt reply).Exact := by
  have hrecent : (out.hand pkt reply).recent = out.recent ++ pkt.bytes := by
    rw [hand_recent, hwhole, Packet.size, List.take_length]
  refine ⟨?_, ?_, ?_⟩
  · have haccepted : out.reported ++ out.recent = out.popped.flatMap Packet.bytes :=
      hexact.accepted
    rw [Output.stdout, hand_reported, hrecent, hand_popped, ← List.append_assoc, haccepted,
      List.flatMap_append, List.flatMap_singleton]
  · rw [hand_written, hrecent, hexact.written, List.length_append, UInt64.ofNat_add, Packet.size]
  · rw [hand_writeTotal, hand_reported, hexact.total]

/-- One that is not shows in the counter. -/
theorem accepts_of_written (hexact : out.Exact)
    (hwritten : (out.hand pkt reply).written = UInt64.ofNat (out.hand pkt reply).recent.length) :
    reply.accepts pkt.size = pkt.size := by
  have hle : reply.accepts pkt.size ≤ pkt.bytes.length := WriteReply.accepts_le
  have hfits := pkt.fits
  rw [hand_written, hand_recent, hexact.written, List.length_append, List.length_take,
    UInt64.ofNat_add, Nat.min_eq_left hle] at hwritten
  have hsame : UInt64.ofNat pkt.size = UInt64.ofNat (reply.accepts pkt.size) :=
    (UInt64.add_right_inj _).mp hwritten
  have hsize : pkt.size < 2 ^ 64 := hfits
  have haccepts : reply.accepts pkt.size < 2 ^ 64 := Nat.lt_of_le_of_lt hle hfits
  have htoNat := congrArg UInt64.toNat hsame
  rwa [UInt64.toNat_ofNat_of_lt' hsize, UInt64.toNat_ofNat_of_lt' haccepts, eq_comm] at htoNat

/-- A pass keeps the books exact if it has a block accepted as a whole or has none. -/
theorem Output.Exact.pass (hexact : out.Exact)
    (hwhole : ∀ pkt, out.pops found = some pkt → found.reply.accepts pkt.size = pkt.size) :
    (out.pass found).Exact := by
  cases hpops : out.pops found with
  | none => exact (sameBooks_pass_of_none hpops).exact hexact.statistics
  | some pkt =>
      exact (sameBooks_pass_of_some hpops).exact (hexact.statistics.hand (hwhole pkt hpops))

/-- The output is complete after a pass only if that is so. -/
theorem accepts_of_complete (hexact : out.Exact) (hcomplete : (out.pass found).Complete)
    (hsome : out.pops found = some pkt) : found.reply.accepts pkt.size = pkt.size := by
  have hsame := sameBooks_pass_of_some hsome
  have hwritten := hcomplete.written
  rw [hsame.written, hsame.recent] at hwritten
  exact accepts_of_written hexact.statistics hwritten

end Passes

section Sequences

variable {steps prior : List OutputStep}

theorem outputRun_append_singleton {step : OutputStep} :
    outputRun (prior ++ [step]) = (outputRun prior).step step := by
  rw [outputRun, List.foldl_append]
  rfl

/-- The books are exact if in every pass a block that is taken is accepted as a whole, given
that they were exact before it. -/
theorem exact_of_taken
    (htaken : ∀ earlier found, earlier ++ [.pass found] <+: steps → (outputRun earlier).Exact →
      ∀ pkt, (outputRun earlier).pops found = some pkt → found.reply.accepts pkt.size = pkt.size)
    (hprior : prior <+: steps) : (outputRun prior).Exact := by
  induction prior using List.reverseRecOn with
  | nil => exact exact_start
  | append_singleton earlier step ih =>
      have hexact := ih ((List.prefix_append earlier [step]).trans hprior)
      rw [outputRun_append_singleton]
      cases step with
      | fill pkt => exact ⟨hexact.accepted, hexact.written, hexact.total⟩
      | pass found => exact hexact.pass (htaken earlier found hprior hexact)

end Sequences

/-- The output is complete at every point of a sequence if and only if every block is accepted
as a whole. -/
theorem completeThroughout_iff (steps : List OutputStep) :
    CompleteThroughout steps ↔ AcceptsWhole steps := by
  constructor
  · intro hcomplete
    have htaken : ∀ earlier found, earlier ++ [.pass found] <+: steps →
        (outputRun earlier).Exact → ∀ pkt, (outputRun earlier).pops found = some pkt →
          found.reply.accepts pkt.size = pkt.size := by
      intro earlier found hbegins hexact pkt hsome
      have hhere := hcomplete _ hbegins
      rw [outputRun_append_singleton] at hhere
      exact accepts_of_complete hexact hhere hsome
    intro earlier found hbegins
    have hprior := (List.prefix_append earlier [.pass found]).trans hbegins
    exact htaken earlier found hbegins (exact_of_taken htaken hprior)
  · intro haccepts prior hprior
    have hexact : (outputRun prior).Exact :=
      exact_of_taken (fun earlier found hbegins _ => haccepts earlier found hbegins) hprior
    exact hexact.complete

/-- A block of four bytes, of which the first one is accepted. -/
def shortWrite : List OutputStep :=
  [.fill ⟨[0x47, 0x1f, 0xff, 0x10], by decide⟩, .pass ⟨false, true, true, true, .count 1⟩]

theorem shortWrite_incomplete : ¬ CompleteThroughout shortWrite := fun hcomplete =>
  absurd (hcomplete shortWrite List.prefix_rfl).written (by decide)

section Threads

variable {out : Output} {found : Pass} {tid : Tid} {s : Shared} {rest : List Frame}

/-- The same blocks are queued, taken and handed over. -/
structure Output.Agrees (out : Output) (s : Shared) : Prop where
  data : out.data.map Packet.bytes = s.data.map Block.bytes
  popped : out.popped.map Packet.bytes = s.popped.map Block.bytes
  handed : (out.popped.map Packet.bytes).filter (· ≠ []) =
    s.stdout.map fun written => written.block.bytes

theorem Output.Agrees.statistics (elapsed : Bool) (hagrees : out.Agrees s) :
    (({ out with wait := false } : Output).statistics elapsed).Agrees s := by
  cases elapsed <;> exact ⟨hagrees.data, hagrees.popped, hagrees.handed⟩

theorem agrees_rest (hagrees : out.Agrees s) : out.rest.Agrees s := by
  unfold Output.rest
  split <;> exact ⟨hagrees.data, hagrees.popped, hagrees.handed⟩

/-- The block that has been taken is handed over. -/
theorem alone_write (reply : WriteReply) (out : Output) (tid : Tid) (s : Shared)
    (rest : List Frame) {pkt : Packet} {block : Block} (hbytes : pkt.bytes = block.bytes)
    (hdata : out.data.map Packet.bytes = s.data.map Block.bytes)
    (hpopped : out.popped.map Packet.bytes = s.popped.map Block.bytes)
    (hhanded : (out.popped.map Packet.bytes).filter (· ≠ []) =
      (s.stdout.map fun written => written.block.bytes) ++ [block.bytes].filter (· ≠ [])) :
    ∃ later, machine.Alone tid s (.buffer (.write block) :: rest) later (.buffer .loop :: rest) ∧
      (out.write pkt reply).Agrees later := by
  have hproceed : Choice.proceed ≠ .usbError := by decide
  unfold Output.write
  by_cases hempty : block.bytes = []
  · refine ⟨s, alone_advance hproceed (if_pos hempty) .stay, ?_⟩
    rw [if_pos (hbytes.trans hempty)]
    exact ⟨hdata, hpopped, by simpa [hempty] using hhanded⟩
  · refine ⟨_, alone_advance hproceed (if_neg hempty) .stay, ?_⟩
    rw [if_neg (hbytes ▸ hempty)]
    exact ⟨hdata, hpopped, by simpa [hempty] using hhanded⟩

/-- The queue is looked at, and a block that is there is taken and handed over. -/
theorem alone_pop (reply : WriteReply) (tid : Tid) (rest : List Frame)
    (hagrees : out.Agrees s) (hmutex : s.flowMutex = none) :
    ∃ later, machine.Alone tid s (.buffer .lock :: rest) later (.buffer .loop :: rest) ∧
      (out.pop.2.write out.pop.1 reply).Agrees later := by
  have hproceed : Choice.proceed ≠ .usbError := by decide
  have hne : Choice.proceed ≠ .timeout := by decide
  have hlock : advance tid (.buffer .lock) .proceed s =
      some ({ s with flowMutex := some tid }, [.buffer .pop]) := by
    show bufferStep tid .proceed s .lock = _
    rw [bufferStep, if_neg hne, if_pos hmutex]
  obtain ⟨hdata, hpopped, hhanded⟩ := hagrees
  unfold Output.pop
  cases hqueue : s.data with
  | nil =>
      have hnone : out.data = [] := by simpa [hqueue] using hdata
      have hpop : advance tid (.buffer .pop) .proceed { s with flowMutex := some tid } =
          some ({ s with flowMutex := some tid }, [.buffer (.unlock .empty)]) := by
        show bufferStep tid .proceed { s with flowMutex := some tid } .pop = _
        simp only [bufferStep, hqueue]
      have hempty : Packet.empty.bytes = Block.empty.bytes := rfl
      obtain ⟨later, hwrite, hlater⟩ := alone_write reply out tid { s with flowMutex := none } rest
        hempty hdata hpopped (by simpa [Block.empty] using hhanded)
      refine ⟨later, alone_advance hproceed hlock <| alone_advance hproceed hpop <|
        alone_advance hproceed rfl hwrite, ?_⟩
      rwa [hnone]
  | cons block blocks =>
      obtain ⟨pkt, pkts, hpkts, hbytes, hmore⟩ := List.map_eq_cons_iff.mp (hdata.trans
        (congrArg (List.map Block.bytes) hqueue))
      have hpop : advance tid (.buffer .pop) .proceed { s with flowMutex := some tid } =
          some ({ s with flowMutex := some tid, data := blocks, popped := s.popped ++ [block] },
            [.buffer (.unlock block)]) := by
        show bufferStep tid .proceed { s with flowMutex := some tid } .pop = _
        simp only [bufferStep, hqueue]
      obtain ⟨later, hwrite, hlater⟩ := alone_write reply
        { out with data := pkts, isEmpty := pkts.isEmpty, popped := out.popped ++ [pkt] } tid
        { s with flowMutex := none, data := blocks, popped := s.popped ++ [block] } rest
        hbytes hmore (by simp [hpopped, hbytes])
        (by rw [List.map_append, List.filter_append, hhanded, ← hbytes]; rfl)
      refine ⟨later, alone_advance hproceed hlock <| alone_advance hproceed hpop <|
        alone_advance hproceed rfl hwrite, ?_⟩
      rwa [hpkts]

/-- A thread that is not disturbed in a pass of its loop does what is said of the pass. -/
theorem alone_pass (tid : Tid) (rest : List Frame) (hagrees : out.Agrees s) (hrun : s.run = true)
    (hstreaming : found.streaming = s.streaming) (hxon : found.xon = s.xon)
    (hmutex : s.flowMutex = none) :
    ∃ later, machine.Alone tid s (.buffer .loop :: rest) later (.buffer .loop :: rest) ∧
      (out.pass found).Agrees later := by
  have hproceed : Choice.proceed ≠ .usbError := by decide
  have htimeout : Choice.timeout ≠ .usbError := by decide
  have hne : Choice.proceed ≠ .timeout := by decide
  have hclear : advance tid (.buffer .clearLock) .proceed s =
      some ({ s with flowMutex := some tid }, [.buffer .clear]) := by
    show bufferStep tid .proceed s .clearLock = _
    rw [bufferStep, if_neg hne, if_pos hmutex]
  have hclock := hagrees.statistics found.elapsed
  have hloop (later : Shared) (hlater : machine.Alone tid s (.buffer .streaming :: rest) later
      (.buffer .loop :: rest)) :
      machine.Alone tid s (.buffer .loop :: rest) later (.buffer .loop :: rest) :=
    alone_advance hproceed (if_pos hrun) hlater
  unfold Output.pass
  by_cases hon : s.streaming = true
  case neg =>
    have hoff : ¬ found.streaming = true := by rwa [hstreaming]
    rw [if_neg hoff]
    cases hlocked : found.locked with
    | false =>
        refine ⟨s, hloop _ <| alone_advance hproceed (if_neg hon) <|
          alone_advance htimeout rfl .stay, ?_⟩
        exact ⟨hclock.data, hclock.popped, hclock.handed⟩
    | true =>
        refine ⟨_, hloop _ <| alone_advance hproceed (if_neg hon) <|
          alone_advance hproceed hclear <|
          alone_advance hproceed rfl <| alone_advance hproceed rfl .stay, ?_⟩
        exact ⟨rfl, hclock.popped, hclock.handed⟩
  rw [if_pos (hstreaming.trans hon)]
  by_cases hopen : s.xon = true
  case neg =>
    have hclosed : ¬ found.xon = true := by rwa [hxon]
    rw [if_neg hclosed]
    refine ⟨s, hloop _ <| alone_advance hproceed (if_pos hon) <|
      alone_advance hproceed (if_neg hopen) .stay, ?_⟩
    exact ⟨hclock.data, hclock.popped, hclock.handed⟩
  rw [if_pos (hxon.trans hopen)]
  have henter (later : Shared) (hlater : machine.Alone tid s (.buffer .lock :: rest) later
      (.buffer .loop :: rest)) :
      machine.Alone tid s (.buffer .loop :: rest) later (.buffer .loop :: rest) :=
    hloop later <| alone_advance hproceed (if_pos hon) <|
      alone_advance hproceed (if_pos hopen) hlater
  cases hlocked : found.locked with
  | false =>
      have hwrite : machine.Alone tid s (.buffer (.write .empty) :: rest) s
          (.buffer .loop :: rest) := alone_advance hproceed rfl .stay
      exact ⟨s, henter s (alone_advance htimeout rfl hwrite), agrees_rest hclock⟩
  | true =>
      obtain ⟨later, hpop, hlater⟩ := alone_pop found.reply tid rest hclock hmutex
      exact ⟨later, henter later hpop, agrees_rest hlater⟩

/-- What a pass does, the recorder can do in its runs. -/
theorem exists_reachable_of_pass {cfg : Recorder} (hreach : recorder.Reachable cfg)
    (hagrees : out.Agrees cfg.shared) (hrun : cfg.shared.run = true)
    (hstreaming : found.streaming = cfg.shared.streaming) (hxon : found.xon = cfg.shared.xon)
    (hmutex : cfg.shared.flowMutex = none) (hstack : cfg.stack .buffer = .buffer .loop :: rest) :
    ∃ later, recorder.Reachable ⟨later, cfg.stack⟩ ∧ (out.pass found).Agrees later := by
  obtain ⟨later, halone, hlater⟩ := alone_pass .buffer rest hagrees hrun hstreaming
    hxon hmutex
  have hreach' := halone.reachable hreach rfl hstack
  rw [← hstack, Function.update_eq_self] at hreach'
  exact ⟨later, hreach', hlater⟩

end Threads

end HauppaugeUSB.MythTV

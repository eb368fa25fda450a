/-
# The state of the MythTV recorder

`class MythTV` and its members `Buffer` and `Commands` run in several threads:
the main thread in `Wait` and then in the destructor, the `Commands` thread, the
`Buffer` thread, and the threads of the encoder driver, which deliver data
through `Buffer::Fill` and report failing USB transfers through `USBError`.

A thread is a stack of frames, one family of program points for each function of
the source. A frame is the point before a statement that reads or writes shared
state, takes or releases a mutex, or calls the hardware; statements in between
are part of the step before them. Waits on condition variables have time limits
and may wake at any time, so they and the notifications appear as points that a
thread may leave at any moment.

The shared state has the members of the three classes under the names of the
source, without the prefix, and then histories: what the threads have done so
far, which no statement reads.
-/

import HauppaugeUSB.Concurrency.Threads
import HauppaugeUSB.Commands.Request
import Mathlib.Data.Int.Notation

namespace HauppaugeUSB.MythTV

open HauppaugeUSB.Concurrency HauppaugeUSB.Commands

/-- The threads that execute recorder code. -/
inductive Tid
  | main
  | commands
  | buffer
  /-- A thread of the encoder driver or of libusb. -/
  | encoder (index : ℕ)
  deriving DecidableEq

/-- The two mutexes that are acquired without a time limit. -/
inductive Mutex
  | run
  | flow
  deriving DecidableEq

/-- The life of a `HauppaugeDev`: constructed, opened by a successful `Open`, and
in or past its destructor. -/
inductive DevPhase
  | fresh
  | opened
  | deleted
  deriving DecidableEq

/-- The `HauppaugeDev` that `m_dev` points to, with its `m_err`. -/
structure Dev where
  phase : DevPhase
  err : Bool
  deriving DecidableEq

/-- A `block_t`, together with the `Fill` call it comes from and, for a block that
reached the queue, which recording the encoder was making at that time. -/
structure Block where
  /-- The number of the `Fill` call. -/
  call : ℕ
  /-- The encoder thread that made the call. -/
  source : ℕ
  /-- The bytes of the block. -/
  bytes : List UInt8
  /-- How many times `startCapture` had been called. -/
  epoch : ℕ
  /-- The last of these calls had succeeded and nothing had stopped it yet. -/
  live : Bool
  deriving DecidableEq

/-- The empty `pkt` that `Buffer::Run` declares before it looks at the queue. -/
def Block.empty : Block := ⟨0, 0, [], 0, false⟩

/-- A block handed to `write(1)`, and the recording it was written into: the
number of the last `startCapture` whose `StartEncoding` had set `m_streaming`. -/
structure Written where
  block : Block
  recording : ℕ
  deriving DecidableEq

/-- What happened to the capture of the device. -/
inductive CaptureEvent
  /-- `startCapture` returned true. -/
  | started
  /-- `stopCapture` was called. -/
  | stopped
  deriving DecidableEq

/-- `MythTV::Fatal`. -/
inductive FatalPoint
  | lock (msg : String)
  | test (msg : String)
  | unlock
  deriving DecidableEq

/-- `MythTV::StopEncoding`, with `HauppaugeDev::StopEncoding` from `capture` to
`logPorts`. -/
inductive StopPoint
  | test
  | ready
  | lock
  | dev
  | noDev
  | unlock
  | clear
  | call
  | capture
  | logPorts
  | error
  deriving DecidableEq

/-- `MythTV::StartEncoding`, with `HauppaugeDev::StartEncoding` from `input` to
`logPorts`, and the reply that `process_command` sends after it. -/
inductive StartPoint
  | test
  | ready
  | call
  | input
  | capture
  | logPorts
  | error
  | set
  | reply
  deriving DecidableEq

/-- `MythTV::OpenDev`. -/
inductive OpenPoint
  | lock
  | test
  | check
  | checkError
  | usb
  | usbFailed
  | dev
  | failed
  | delete
  | close
  | ready
  /-- The return of a failed attempt. -/
  | giveUp
  | unlock
  deriving DecidableEq

/-- `MythTV::Wait`. -/
inductive WaitPoint
  | lock
  | sleep
  | relock
  | test
  | streaming
  | clock
  | heart (limit : ℤ)
  deriving DecidableEq

/-- `MythTV::~MythTV` after its call of `Terminate`. -/
inductive DtorPoint
  | joinCommands
  | joinBuffer
  | lock
  | delete
  | deleting
  | clear
  | unlock
  deriving DecidableEq

/-- `Commands::Run` and the branches of `process_command` that touch shared state
themselves. -/
inductive CommandPoint
  | loop
  | poll
  | replyLock
  | replyUnlock
  | xonReply (on : Bool)
  | xonSet (on : Bool)
  | exit
  deriving DecidableEq

/-- `Buffer::Run`. -/
inductive BufferPoint
  | loop
  | streaming
  | xon
  | lock
  | pop
  | unlock (pkt : Block)
  | write (pkt : Block)
  | clearLock
  | clear
  | clearUnlock
  | exit
  deriving DecidableEq

/-- `Buffer::Fill`, called with a number of its own. -/
inductive FillPoint
  | lock (call : ℕ) (bytes : List UInt8)
  | push (call : ℕ) (bytes : List UInt8)
  | unlock (call : ℕ)
  /-- The clock is read. -/
  | beat (call : ℕ)
  /-- What it has said is stored in `m_heartbeat`. -/
  | store (call : ℕ) (time : ℤ)
  deriving DecidableEq

/-- A program point of some thread. -/
inductive Frame
  | fatal (point : FatalPoint)
  /-- `MythTV::Terminate`. -/
  | terminate
  | stop (point : StopPoint)
  | start (point : StartPoint)
  | openDev (point : OpenPoint)
  | wait (point : WaitPoint)
  | dtor (point : DtorPoint)
  | command (point : CommandPoint)
  | buffer (point : BufferPoint)
  | fill (point : FillPoint)
  /-- Driver code of an encoder thread. -/
  | driver
  deriving DecidableEq

/-- The frames in which a thread is inside the driver and may issue control
messages through `USBWrapper_t::controlMessage`. -/
def Frame.isHardware : Frame → Bool
  | .stop .capture | .stop .logPorts => true
  | .start .input | .start .capture | .start .logPorts => true
  | .openDev .dev | .openDev .delete => true
  | .dtor .deleting => true
  | .driver => true
  | _ => false

/-- The members of `MythTV`, `Buffer` and `USBWrapper_t` that threads share, the
clock, and histories. -/
structure Shared where
  /-- `m_run`. -/
  run : Bool
  /-- `m_fatal`. -/
  fatal : Bool
  fatalMsg : String
  streaming : Bool
  xon : Bool
  ready : Bool
  /-- `m_dev`, with `none` for `nullptr`. -/
  dev : Option Dev
  /-- The owner of `m_run_mutex`. -/
  runMutex : Option Tid
  /-- The owner of `m_flow_mutex`. -/
  flowMutex : Option Tid
  /-- `m_usbio.m_handle` is not null. -/
  usbHandle : Bool
  /-- `m_usbio.m_use_error_cb`. -/
  useErrorCb : Bool
  /-- `Buffer::m_data`. -/
  data : List Block
  /-- `Buffer::m_heartbeat`, in nanoseconds. -/
  heartbeat : ℤ
  /-- `system_clock::now()`. -/
  now : ℤ
  /-- `Commands::Run` has returned. -/
  commandsExited : Bool
  /-- `Buffer::Run` has returned. -/
  bufferExited : Bool
  /-- Starts and stops of the capture, in order. -/
  captures : List CaptureEvent
  /-- How many times `startCapture` has been called. -/
  epoch : ℕ
  /-- The last `startCapture` succeeded and no `StopEncoding` has since found
  `m_streaming` set. -/
  live : Bool
  /-- The number of the last `startCapture` whose `StartEncoding` set `m_streaming`. -/
  recording : ℕ
  /-- The `startCapture` calls whose request was answered `OK:Started`. -/
  answered : List ℕ
  /-- When the recorder was constructed. -/
  built : ℤ
  /-- When `m_streaming` was last set, if it still is. -/
  since : Option ℤ
  /-- The `Fill` calls with data, by number: the encoder thread and the bytes. -/
  calls : List (ℕ × List UInt8)
  /-- The `Fill` calls, in the order in which they got the flow lock or gave up. -/
  fills : List Block
  /-- The calls that gave up waiting for the flow lock. -/
  timedOut : List Block
  /-- The calls that found the queue full. -/
  overrun : List Block
  /-- The blocks that the clear branch of `Buffer::Run` threw away. -/
  discarded : List Block
  /-- The blocks that `Buffer::Run` took from the queue. -/
  popped : List Block
  /-- The blocks handed to `write(1)`, in order. -/
  stdout : List Written
  /-- The calls of `Fill` that have returned. -/
  returned : List ℕ
  /-- When they returned. -/
  completions : List ℤ

/-- A running recorder. -/
abbrev Recorder := Config Tid Frame Shared

/-- The recorder's shared state at the end of `MythTV`'s constructor. -/
def Shared.initial (now : ℤ) : Shared where
  run := true
  fatal := false
  fatalMsg := ""
  streaming := false
  xon := false
  ready := false
  dev := none
  runMutex := none
  flowMutex := none
  usbHandle := false
  useErrorCb := false
  data := []
  heartbeat := now
  now := now
  commandsExited := false
  bufferExited := false
  captures := []
  epoch := 0
  live := false
  recording := 0
  answered := []
  built := now
  since := none
  calls := []
  fills := []
  timedOut := []
  overrun := []
  discarded := []
  popped := []
  stdout := []
  returned := []
  completions := []

/-- Where each thread begins. -/
def Tid.entry : Tid → List Frame
  | .main => [.wait .lock]
  | .commands => [.command .loop]
  | .buffer => [.buffer .loop]
  | .encoder _ => [.driver]

/-- The recorder after construction at some time. -/
def initial (now : ℤ) : Recorder := ⟨.initial now, Tid.entry⟩

end HauppaugeUSB.MythTV

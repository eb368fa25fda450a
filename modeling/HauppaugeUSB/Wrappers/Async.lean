/-
# Asynchronous transfers

`USBWrapper_t::bulkReadAsync` hands a transfer to libusb and leaves a context with the
caller, who waits on it until `async_callback` has run. The context knows of its
transfer by `finished` alone: `init` resets it before the transfer exists, and from
then on every way out of `bulkReadAsync` has either to leave a transfer behind or to
set it again. The way out through a failed allocation does neither.

Two threads use a context: the caller, who also destroys it, and the libusb thread. A
point of a thread is one before a statement that reads or writes the context, takes or
releases its mutex, or calls libusb.
-/

import HauppaugeUSB.Concurrency.System
import Mathlib.Data.Nat.Notation
import Mathlib.Data.Int.Notation

namespace HauppaugeUSB.Wrappers

open HauppaugeUSB.Concurrency

/-- `USBWRAP_SUCCESS`. -/
def usbWrapSuccess : ℤ := 0

/-- `USBWRAP_ERROR_NO_DEVICE`. -/
def usbWrapErrorNoDevice : ℤ := -4

/-- `USBWRAP_ERROR_NO_MEM`. -/
def usbWrapErrorNoMem : ℤ := -11

/-- `USBWRAP_PENDING`. -/
def usbWrapPending : ℤ := -101

/-- `libusb_transfer_status`. -/
inductive TransferStatus
  | completed
  | error
  | timedOut
  | cancelled
  | stall
  | noDevice
  | overflow
  /-- Any other value. -/
  | other
  deriving DecidableEq

/-- `retMsg`: the same as in libusb 1.0. -/
def retMsg (result : ℤ) : ℤ := result

/-- `retTrSt`. -/
def retTrSt : TransferStatus → ℤ
  | .completed => usbWrapSuccess
  | .error => -1
  | .timedOut => -7
  | .cancelled => -10
  | .stall => -9
  | .noDevice => usbWrapErrorNoDevice
  | .overflow => -8
  | .other => -99

/-- The two threads. -/
inductive Party
  | caller
  | libusb
  deriving DecidableEq

/-- `USBWrapperAsyncCtx_t::set`. -/
inductive SetPoint
  | lock
  | store
  | signal
  | unlock
  deriving DecidableEq

/-- `USBWrapperAsyncCtx_t::wait`, which takes the mutex again after a sleep. -/
inductive WaitPoint
  | lock
  | test
  | sleep
  | relock
  | unlock
  deriving DecidableEq

/-- Where the caller is: between its calls, in `bulkReadAsync` from `init` to `done`, in
`wait` on its own account or in the destructor, in `getState`, or past the destructor. -/
inductive CallerPoint
  | idle
  | init
  | pending
  | handle
  | alloc
  | submit
  | set (point : SetPoint) (result : ℤ)
  | done (result : ℤ)
  | wait (point : WaitPoint) (destroys : Bool)
  | stateLock
  | stateUnlock
  | destroyed
  deriving DecidableEq

/-- Where the libusb thread is: handling events, or in `async_callback`. -/
inductive LibusbPoint
  | events
  | set (point : SetPoint) (status : TransferStatus) (length : ℕ)
  deriving DecidableEq

/-- A context, its two threads, and the transfers that refer to it. -/
structure AsyncCtx where
  finished : Bool
  result : ℤ
  /-- Not set by the constructor. -/
  size : Option ℕ
  /-- The owner of `m_mutex`. -/
  mutex : Option Party
  /-- The caller sleeps on `m_cond` and has not been woken. -/
  sleeping : Bool
  /-- How many transfers are submitted whose callback has not begun. -/
  submitted : ℕ
  caller : CallerPoint
  libusb : LibusbPoint
  /-- What the last `bulkReadAsync` returned. -/
  returned : Option ℤ
  /-- The caller has yet to learn that its transfer is complete. -/
  owed : Bool
  deriving DecidableEq

/-- A context as its constructor leaves it. -/
def AsyncCtx.initial : AsyncCtx where
  finished := true
  result := usbWrapPending
  size := none
  mutex := none
  sleeping := false
  submitted := 0
  caller := .idle
  libusb := .events
  returned := none
  owed := false

/-- What the caller does next, and how libusb answers it. -/
inductive CallerChoice
  | proceed
  | bulkReadAsync
  | wait
  | getState
  | destroy
  /-- `m_handle` is not null. -/
  | handle (opened : Bool)
  /-- `libusb_alloc_transfer` does not return null. -/
  | allocated (ok : Bool)
  /-- The result of `libusb_submit_transfer`. -/
  | submitted (result : ℤ)
  /-- A wake-up without a signal. -/
  | spurious
  deriving DecidableEq

/-- What the libusb thread does next. -/
inductive LibusbChoice
  | proceed
  /-- A transfer is complete. -/
  | complete (status : TransferStatus) (length : ℕ)
  deriving DecidableEq

/-- A step of one thread. -/
inductive AsyncAction
  | caller (choice : CallerChoice)
  | libusb (choice : LibusbChoice)
  deriving DecidableEq

/-- `USBWrapperAsyncCtx_t::set`: the context after a point, and the next point unless
the function returns. -/
def setStep (party : Party) (s : AsyncCtx) (result : ℤ) (size : ℕ) :
    SetPoint → Option (AsyncCtx × Option SetPoint)
  | .lock => if s.mutex = none then some ({ s with mutex := some party }, some .store) else none
  | .store =>
      some ({ s with finished := true, result := result, size := some size }, some .signal)
  | .signal => some ({ s with sleeping := false }, some .unlock)
  | .unlock => some ({ s with mutex := none }, none)

/-- `USBWrapperAsyncCtx_t::wait`, and the return of the function that called it. -/
def waitStep (s : AsyncCtx) (choice : CallerChoice) (destroys : Bool) :
    WaitPoint → Option AsyncCtx
  | .lock =>
      if s.mutex = none then
        some { s with mutex := some .caller, caller := .wait .test destroys }
      else none
  | .test =>
      if s.finished then some { s with caller := .wait .unlock destroys }
      else some { s with mutex := none, sleeping := true, caller := .wait .sleep destroys }
  | .sleep =>
      if s.sleeping = false then some { s with caller := .wait .relock destroys }
      else if choice = .spurious then
        some { s with sleeping := false, caller := .wait .relock destroys }
      else none
  | .relock =>
      if s.mutex = none then
        some { s with mutex := some .caller, caller := .wait .test destroys }
      else none
  | .unlock =>
      some { s with
        mutex := none
        owed := false
        caller := if destroys then .destroyed else .idle }

/-- The caller. It uses a context for another transfer only when it knows that the last
one is complete. -/
def callerStep (s : AsyncCtx) (choice : CallerChoice) : Option AsyncCtx :=
  match s.caller with
  | .idle =>
      match choice with
      | .bulkReadAsync =>
          if s.owed then none else some { s with returned := none, caller := .init }
      | .wait => some { s with caller := .wait .lock false }
      | .destroy => some { s with caller := .wait .lock true }
      | .getState => some { s with caller := .stateLock }
      | _ => none
  | .init => some { s with finished := false, caller := .pending }
  | .pending => some { s with result := usbWrapPending, caller := .handle }
  | .handle =>
      match choice with
      | .handle true => some { s with caller := .alloc }
      | .handle false => some { s with caller := .set .lock usbWrapErrorNoDevice }
      | _ => none
  | .alloc =>
      match choice with
      | .allocated true => some { s with caller := .submit }
      | .allocated false => some { s with caller := .done usbWrapErrorNoMem }
      | _ => none
  | .submit =>
      match choice with
      | .submitted result =>
          if result = 0 then
            some { s with submitted := s.submitted + 1, caller := .done usbWrapSuccess }
          else some { s with caller := .set .lock (retMsg result) }
      | _ => none
  | .set point result =>
      (setStep .caller s result 0 point).map fun (s', next) =>
        { s' with caller := next.elim (.done result) fun point => .set point result }
  | .done result =>
      some { s with
        returned := some result
        owed := result = usbWrapSuccess
        caller := .idle }
  | .wait point destroys => waitStep s choice destroys point
  | .stateLock =>
      if s.mutex = none then some { s with mutex := some .caller, caller := .stateUnlock }
      else none
  | .stateUnlock =>
      some { s with
        mutex := none
        owed := if s.result = usbWrapPending then s.owed else false
        caller := .idle }
  | .destroyed => none

/-- The libusb thread: it takes up a submitted transfer and runs `async_callback`. -/
def libusbStep (s : AsyncCtx) (choice : LibusbChoice) : Option AsyncCtx :=
  match s.libusb with
  | .events =>
      match choice with
      | .complete status length =>
          if 0 < s.submitted then
            some { s with submitted := s.submitted - 1, libusb := .set .lock status length }
          else none
      | .proceed => none
  | .set point status length =>
      (setStep .libusb s (retTrSt status) length point).map fun (s', next) =>
        { s' with libusb := next.elim .events fun point => .set point status length }

/-- A context as a transition system. -/
@[reducible]
def asyncCtx : System AsyncCtx AsyncAction where
  IsStart s := s = .initial
  step s
    | .caller choice => callerStep s choice
    | .libusb choice => libusbStep s choice

/-- The caller is in the body of `bulkReadAsync`. -/
def inBody : CallerPoint → Bool
  | .init | .pending | .handle | .alloc | .submit | .set .. | .done _ => true
  | _ => false

/-- The callback has not stored the result yet. -/
def isBefore : LibusbPoint → Bool
  | .set .lock .. | .set .store .. => true
  | _ => false

/-- The callback has stored the result and not returned yet. -/
def isAfter : LibusbPoint → Bool
  | .set .signal .. | .set .unlock .. => true
  | _ => false

namespace AsyncCtx

/-- How many submitted transfers refer to the context whose callback has not run yet. -/
def inFlight (s : AsyncCtx) : ℕ := s.submitted + (isBefore s.libusb).toNat

/-- The same for those whose callback has not returned yet. -/
def active (s : AsyncCtx) : ℕ := s.inFlight + (isAfter s.libusb).toNat

/-- The caller is in `wait` and cannot go on. -/
def blocked (s : AsyncCtx) : Prop :=
  ∃ destroys, s.caller = .wait .sleep destroys ∧ s.sleeping = true ∨
    (s.caller = .wait .lock destroys ∨ s.caller = .wait .relock destroys) ∧ s.mutex ≠ none

end AsyncCtx

/-- The protocol of a context and its transfers. -/
structure Completes (s : AsyncCtx) : Prop where
  flight : inBody s.caller = false → (s.finished = false ↔ s.inFlight = 1)
  alone : s.active ≤ 1
  /-- `wait` blocks only while there is a transfer to wait for. -/
  blocks : s.blocked → 0 < s.active
  /-- It returns when there is none, to its caller or to the destructor. -/
  returns : ((∃ destroys, s.caller = .wait .unlock destroys) ∨ s.caller = .destroyed) →
    s.active = 0
  /-- A transfer that could not be submitted is finished with the code that was returned. -/
  failed : inBody s.caller = false → ∀ code, s.returned = some code → code ≠ usbWrapSuccess →
    s.finished = true ∧ s.result = code

/-- `libusb_alloc_transfer` does not return null. -/
def AllocSafe (s : AsyncCtx) : AsyncAction → Prop
  | .caller choice => s.caller = .alloc → choice ≠ .allocated false
  | .libusb _ => True

/-- The points at which the caller holds the mutex. -/
def callerHolds : CallerPoint → Bool
  | .set .store _ | .set .signal _ | .set .unlock _ => true
  | .wait .test _ | .wait .unlock _ | .stateUnlock => true
  | _ => false

/-- The points at which the libusb thread holds the mutex. -/
def libusbHolds : LibusbPoint → Bool
  | .set .store .. | .set .signal .. | .set .unlock .. => true
  | _ => false

namespace AsyncCtx

/-- There is no transfer. -/
def Quiet (s : AsyncCtx) : Prop := s.submitted = 0 ∧ s.libusb = .events

/-- There is one transfer, and the context is busy. -/
def Busy (s : AsyncCtx) : Prop :=
  s.finished = false ∧ s.result = usbWrapPending ∧
    (s.submitted = 1 ∧ s.libusb = .events ∨ s.submitted = 0 ∧ isBefore s.libusb = true)

/-- There is none any more, but its callback may not have returned. -/
def Idle (s : AsyncCtx) : Prop :=
  s.finished = true ∧ s.submitted = 0 ∧ (s.libusb = .events ∨ isAfter s.libusb = true)

end AsyncCtx

/-- What holds at the points of the caller. -/
def callerLaw (s : AsyncCtx) : CallerPoint → Prop
  | .init => s.Quiet ∧ s.finished = true
  | .pending => s.Quiet ∧ s.finished = false
  | .handle | .alloc | .submit =>
      s.Quiet ∧ s.finished = false ∧ s.result = usbWrapPending
  | .set .lock code | .set .store code =>
      s.Quiet ∧ s.finished = false ∧ code ≠ usbWrapSuccess
  | .set .signal code | .set .unlock code =>
      s.Quiet ∧ s.finished = true ∧ s.result = code ∧ code ≠ usbWrapSuccess
  | .done code =>
      code = usbWrapSuccess ∧ (s.Busy ∨ s.Idle) ∨
        code ≠ usbWrapSuccess ∧ s.Quiet ∧ s.finished = true ∧ s.result = code
  | .wait .unlock _ | .destroyed => s.Quiet ∧ s.finished = true
  | .wait .sleep _ =>
      (s.Busy ∨ s.Idle) ∧ (s.sleeping = true → s.finished = true →
        ∃ status length, s.libusb = .set .signal status length)
  | _ => s.Busy ∨ s.Idle

/-- The invariant of runs in which no allocation fails. -/
structure AsyncLaw (s : AsyncCtx) : Prop where
  callerMutex : s.mutex = some .caller ↔ callerHolds s.caller = true
  libusbMutex : s.mutex = some .libusb ↔ libusbHolds s.libusb = true
  sleeping : s.sleeping = true → ∃ destroys, s.caller = .wait .sleep destroys
  caller : callerLaw s s.caller
  /-- The caller may use the context again only when it is free. -/
  owed : inBody s.caller = false → s.owed = false → s.Quiet ∧ s.finished = true
  failed : inBody s.caller = false → ∀ code, s.returned = some code → code ≠ usbWrapSuccess →
    s.Quiet ∧ s.finished = true ∧ s.result = code

section LibusbPoint

variable {point : LibusbPoint}

theorem isAfter_eq_false (hbefore : isBefore point = true) : isAfter point = false := by
  cases point with
  | events => rfl
  | set point status length =>
      cases point with
      | lock | store => rfl
      | signal | unlock => cases hbefore

/-- Once it has stored the result, the callback has the mutex until it returns. -/
theorem libusbHolds_of_isAfter (hafter : isAfter point = true) : libusbHolds point = true := by
  cases point with
  | events => cases hafter
  | set point status length =>
      cases point with
      | lock | store => cases hafter
      | signal | unlock => rfl

/-- Only a callback has the mutex. -/
theorem isBefore_or_isAfter (hholds : libusbHolds point = true) :
    isBefore point = true ∨ isAfter point = true := by
  cases point with
  | events => cases hholds
  | set point status length =>
      cases point with
      | lock | store => exact .inl rfl
      | signal | unlock => exact .inr rfl

end LibusbPoint

theorem asyncLaw_initial : AsyncLaw .initial := by
  constructor <;> simp [AsyncCtx.initial, callerHolds, libusbHolds, callerLaw, AsyncCtx.Quiet,
    AsyncCtx.Busy, AsyncCtx.Idle, inBody]

/-! ## Steps of the libusb thread -/

/-- The points of the caller at which its transfer may be under way. -/
def mayWait : CallerPoint → Bool
  | .idle | .stateLock | .stateUnlock => true
  | .done code => code = usbWrapSuccess
  | .wait point _ => point ≠ .unlock
  | _ => false

/-- What is left of `callerLaw` at these points. -/
structure Waits (s : AsyncCtx) : Prop where
  point : mayWait s.caller = true
  flight : s.Busy ∨ s.Idle
  woken : s.sleeping = true → s.finished = true →
    ∃ status length, s.libusb = .set .signal status length

/-- While libusb has a transfer the caller can only be waiting for it. -/
theorem AsyncLaw.waits {s : AsyncCtx} (hlaw : AsyncLaw s) (hflight : ¬ s.Quiet) : Waits s := by
  have hcaller := hlaw.caller
  have hwoken : s.sleeping = true → s.finished = true →
      ∃ status length, s.libusb = .set .signal status length := by
    intro hsleeping hfinished
    obtain ⟨destroys, hpoint⟩ := hlaw.sleeping hsleeping
    rw [hpoint] at hcaller
    exact hcaller.2 hsleeping hfinished
  cases hpoint : s.caller <;> rw [hpoint] at hcaller
  case set point code => cases point <;> exact absurd hcaller.1 hflight
  case done code =>
    obtain ⟨hcode, hbusy⟩ | ⟨-, hquiet, -⟩ := hcaller
    · exact ⟨by rw [hpoint, hcode]; rfl, hbusy, hwoken⟩
    · exact absurd hquiet hflight
  case wait point destroys =>
    cases point
    case unlock => exact absurd hcaller.1 hflight
    case sleep => exact ⟨by rw [hpoint]; rfl, hcaller.1, hwoken⟩
    all_goals exact ⟨by rw [hpoint]; rfl, hcaller, hwoken⟩
  case idle | stateLock | stateUnlock => exact ⟨by rw [hpoint]; rfl, hcaller, hwoken⟩
  case destroyed => exact absurd hcaller.1 hflight
  all_goals exact absurd hcaller.1 hflight

theorem Waits.callerLaw {s : AsyncCtx} (hwaits : Waits s) : callerLaw s s.caller := by
  obtain ⟨hmay, hflight, hwoken⟩ := hwaits
  cases hpoint : s.caller <;> rw [hpoint] at hmay
  case done code => exact .inl ⟨of_decide_eq_true hmay, hflight⟩
  case wait point destroys =>
    cases point
    case unlock => simp [mayWait] at hmay
    case sleep => exact ⟨hflight, hwoken⟩
    all_goals exact hflight
  case idle | stateLock | stateUnlock => exact hflight
  all_goals simp [mayWait] at hmay

/-- Until the callback stores the result, the context is busy and nothing else is
submitted. -/
theorem Waits.of_isBefore {s : AsyncCtx} (hwaits : Waits s) (hbefore : isBefore s.libusb = true) :
    s.finished = false ∧ s.result = usbWrapPending ∧ s.submitted = 0 := by
  obtain ⟨hfinished, hresult, ⟨-, hevents⟩ | ⟨hnone, -⟩⟩ | ⟨-, -, hafter⟩ := hwaits.flight
  · simp [hevents, isBefore] at hbefore
  · exact ⟨hfinished, hresult, hnone⟩
  · obtain hevents | hafter := hafter
    · simp [hevents, isBefore] at hbefore
    · simp [isAfter_eq_false hbefore] at hafter

/-- From then on it is finished. -/
theorem Waits.of_isAfter {s : AsyncCtx} (hwaits : Waits s) (hafter : isAfter s.libusb = true) :
    s.finished = true ∧ s.submitted = 0 := by
  obtain ⟨-, -, ⟨-, hevents⟩ | ⟨-, hbefore⟩⟩ | ⟨hfinished, hnone, -⟩ := hwaits.flight
  · simp [hevents, isAfter] at hafter
  · simp [isAfter_eq_false hbefore] at hafter
  · exact ⟨hfinished, hnone⟩

/-- What a step of the libusb thread leaves as it was. -/
theorem AsyncLaw.of_waits {s s' : AsyncCtx} (hlaw : AsyncLaw s) (hflight : ¬ s.Quiet)
    (hcaller : s'.caller = s.caller) (howed : s'.owed = s.owed)
    (hreturned : s'.returned = s.returned)
    (hmutex : s'.mutex = some .caller ↔ s.mutex = some .caller)
    (hholds : s'.mutex = some .libusb ↔ libusbHolds s'.libusb = true)
    (hsleeping : s'.sleeping = true → s.sleeping = true) (hwaits : Waits s') : AsyncLaw s' where
  callerMutex := by rw [hmutex, hcaller]; exact hlaw.callerMutex
  libusbMutex := hholds
  sleeping hsleeps := by rw [hcaller]; exact hlaw.sleeping (hsleeping hsleeps)
  caller := hwaits.callerLaw
  owed hbody howes := by
    rw [hcaller] at hbody
    rw [howed] at howes
    exact absurd (hlaw.owed hbody howes).1 hflight
  failed hbody code hcode hfailed := by
    rw [hcaller] at hbody
    rw [hreturned] at hcode
    exact absurd (hlaw.failed hbody code hcode hfailed).1 hflight

theorem asyncLaw_libusb {s s' : AsyncCtx} {choice : LibusbChoice} (hlaw : AsyncLaw s)
    (hstep : libusbStep s choice = some s') : AsyncLaw s' := by
  unfold libusbStep at hstep
  split at hstep
  case h_1 hevents =>
    -- a submitted transfer is taken up: the only one there is
    cases choice with
    | proceed => simp at hstep
    | complete status length =>
        simp only [Option.ite_none_right_eq_some, Option.some.injEq] at hstep
        obtain ⟨hsubmitted, rfl⟩ := hstep
        have hflight : ¬ s.Quiet := fun hquiet => by simp [hquiet.1] at hsubmitted
        have hmutex := hlaw.libusbMutex
        rw [hevents] at hmutex
        obtain ⟨hmay, hbusy | hidle, -⟩ := hlaw.waits hflight
        · obtain ⟨hfinished, hresult, ⟨hone, -⟩ | ⟨hnone, -⟩⟩ := hbusy
          · refine hlaw.of_waits hflight rfl rfl rfl Iff.rfl hmutex id ⟨hmay, .inl ?_, ?_⟩
            · exact ⟨hfinished, hresult, .inr ⟨by simp [hone], rfl⟩⟩
            · simp [hfinished]
          · simp [hnone] at hsubmitted
        · simp [hidle.2.1] at hsubmitted
  case h_2 point status length hset =>
    have hflight : ¬ s.Quiet := fun hquiet => by simp [hquiet.2] at hset
    have hwaits := hlaw.waits hflight
    have hmutex := hlaw.libusbMutex
    rw [hset] at hmutex
    cases point with
    | lock =>
        simp only [setStep, Option.map_eq_some_iff, Option.ite_none_right_eq_some,
          Option.some.injEq] at hstep
        obtain ⟨_, ⟨hfree, rfl⟩, rfl⟩ := hstep
        obtain ⟨hfinished, hresult, hnone⟩ := hwaits.of_isBefore (by rw [hset]; rfl)
        refine hlaw.of_waits hflight rfl rfl rfl (by simp [hfree]) (by simp [libusbHolds]) id ?_
        exact ⟨hwaits.point, .inl ⟨hfinished, hresult, .inr ⟨hnone, rfl⟩⟩, by simp [hfinished]⟩
    | store =>
        simp only [setStep, Option.map_some, Option.some.injEq] at hstep
        subst hstep
        obtain ⟨-, -, hnone⟩ := hwaits.of_isBefore (by rw [hset]; rfl)
        refine hlaw.of_waits hflight rfl rfl rfl Iff.rfl (by simpa [libusbHolds] using hmutex) id ?_
        exact ⟨hwaits.point, .inr ⟨rfl, hnone, .inr rfl⟩, fun _ _ => ⟨_, _, rfl⟩⟩
    | signal =>
        simp only [setStep, Option.map_some, Option.some.injEq] at hstep
        subst hstep
        obtain ⟨hfinished, hnone⟩ := hwaits.of_isAfter (by rw [hset]; rfl)
        refine hlaw.of_waits hflight rfl rfl rfl Iff.rfl (by simpa [libusbHolds] using hmutex)
          (by simp) ?_
        exact ⟨hwaits.point, .inr ⟨hfinished, hnone, .inr rfl⟩, by simp⟩
    | unlock =>
        simp only [setStep, Option.map_some, Option.some.injEq] at hstep
        subst hstep
        obtain ⟨hfinished, hnone⟩ := hwaits.of_isAfter (by rw [hset]; rfl)
        have howned : s.mutex = some .libusb := by simpa [libusbHolds] using hmutex
        refine hlaw.of_waits hflight rfl rfl rfl (by simp [howned]) (by simp [libusbHolds]) id ?_
        refine ⟨hwaits.point, .inr ⟨hfinished, hnone, .inl rfl⟩, fun hsleeping _ => ?_⟩
        -- the caller was woken before
        obtain ⟨_, _, hsignal⟩ := hwaits.woken hsleeping hfinished
        simp [hset] at hsignal

/-! ## Steps of the caller -/

/-- Only a caller in `wait` sleeps. -/
theorem AsyncLaw.awake {s : AsyncCtx} (hlaw : AsyncLaw s)
    (hpoint : ∀ destroys, s.caller ≠ .wait .sleep destroys) : s.sleeping = false := by
  cases hsleeping : s.sleeping
  · rfl
  · obtain ⟨destroys, hsleep⟩ := hlaw.sleeping hsleeping
    exact absurd hsleep (hpoint destroys)

/-- The libusb thread is outside its section while another thread has the mutex or none. -/
theorem AsyncLaw.libusb_outside {s : AsyncCtx} (hlaw : AsyncLaw s)
    (hmutex : s.mutex ≠ some .libusb) : libusbHolds s.libusb = false := by
  cases hholds : libusbHolds s.libusb
  · rfl
  · exact absurd (hlaw.libusbMutex.mpr hholds) hmutex

/-- A transfer whose callback holds no mutex and has stored its result is over. -/
theorem AsyncLaw.quiet_of_idle {s : AsyncCtx} (hlaw : AsyncLaw s) (hidle : s.Idle)
    (hmutex : s.mutex ≠ some .libusb) : s.Quiet ∧ s.finished = true := by
  obtain ⟨hfinished, hnone, hevents | hafter⟩ := hidle
  · exact ⟨⟨hnone, hevents⟩, hfinished⟩
  · have hholds := hlaw.libusb_outside hmutex
    simp [libusbHolds_of_isAfter hafter] at hholds

/-- Steps within `bulkReadAsync`. -/
theorem AsyncLaw.of_inBody {s' : AsyncCtx} (hsleeping : s'.sleeping = false)
    (hbody : inBody s'.caller = true)
    (hcallerMutex : s'.mutex = some .caller ↔ callerHolds s'.caller = true)
    (hlibusbMutex : s'.mutex = some .libusb ↔ libusbHolds s'.libusb = true)
    (hcaller : callerLaw s' s'.caller) : AsyncLaw s' where
  callerMutex := hcallerMutex
  libusbMutex := hlibusbMutex
  sleeping hsleeps := by simp [hsleeping] at hsleeps
  caller := hcaller
  owed houtside := by simp [hbody] at houtside
  failed houtside := by simp [hbody] at houtside

/-- Steps outside it, which leave the transfer alone. -/
theorem AsyncLaw.move {s : AsyncCtx} (hlaw : AsyncLaw s) (houtside : inBody s.caller = false)
    {mutex : Option Party} {sleeping owed : Bool} {caller : CallerPoint}
    (hcallerMutex : mutex = some .caller ↔ callerHolds caller = true)
    (hlibusbMutex : mutex = some .libusb ↔ libusbHolds s.libusb = true)
    (hsleeping : sleeping = true → ∃ destroys, caller = .wait .sleep destroys)
    (howed : owed = false → s.owed = false ∨ s.Quiet ∧ s.finished = true)
    (hcaller : callerLaw { s with mutex, sleeping, owed, caller } caller) :
    AsyncLaw { s with mutex, sleeping, owed, caller } where
  callerMutex := hcallerMutex
  libusbMutex := hlibusbMutex
  sleeping := hsleeping
  caller := hcaller
  owed _ hfree := (howed hfree).elim (hlaw.owed houtside) id
  failed _ := hlaw.failed houtside

/-- `USBWrapperAsyncCtx_t::set` in the caller. -/
theorem asyncLaw_callerSet {s s' : AsyncCtx} {choice : CallerChoice} {point : SetPoint} {code : ℤ}
    (hlaw : AsyncLaw s) (hpoint : s.caller = .set point code)
    (hstep : callerStep s choice = some s') : AsyncLaw s' := by
  have hawake := hlaw.awake (by simp [hpoint])
  have hhere := hlaw.caller
  have hmine := hlaw.callerMutex
  have htheirs := hlaw.libusbMutex
  rw [hpoint] at hhere hmine
  simp only [callerStep, hpoint] at hstep
  cases point with
  | lock =>
      simp only [setStep, Option.map_eq_some_iff, Option.ite_none_right_eq_some,
        Option.some.injEq] at hstep
      obtain ⟨_, ⟨hfree, rfl⟩, rfl⟩ := hstep
      have houtside := hlaw.libusb_outside (by simp [hfree])
      exact .of_inBody hawake rfl (by simp [callerHolds]) (by simp [houtside]) hhere
  | store =>
      simp only [setStep, Option.map_some, Option.some.injEq] at hstep
      subst hstep
      exact .of_inBody hawake rfl (by simpa [callerHolds] using hmine) htheirs
        ⟨hhere.1, rfl, rfl, hhere.2.2⟩
  | signal =>
      simp only [setStep, Option.map_some, Option.some.injEq] at hstep
      subst hstep
      exact .of_inBody rfl rfl (by simpa [callerHolds] using hmine) htheirs hhere
  | unlock =>
      simp only [setStep, Option.map_some, Option.some.injEq] at hstep
      subst hstep
      obtain ⟨hquiet, hfinished, hresult, hcode⟩ := hhere
      have hmutex : s.mutex = some .caller := by simpa [callerHolds] using hmine
      have houtside := hlaw.libusb_outside (by simp [hmutex])
      exact .of_inBody hawake rfl (by simp [callerHolds]) (by simp [houtside])
        (.inr ⟨hcode, hquiet, hfinished, hresult⟩)

/-- `USBWrapperAsyncCtx_t::wait`. -/
theorem asyncLaw_wait {s s' : AsyncCtx} {choice : CallerChoice} {point : WaitPoint}
    {destroys : Bool} (hlaw : AsyncLaw s) (hpoint : s.caller = .wait point destroys)
    (hstep : waitStep s choice destroys point = some s') : AsyncLaw s' := by
  have houtside : inBody s.caller = false := by rw [hpoint]; rfl
  have hhere := hlaw.caller
  have hmine := hlaw.callerMutex
  have htheirs := hlaw.libusbMutex
  rw [hpoint] at hhere hmine
  cases point with
  | lock | relock =>
      simp only [waitStep, Option.ite_none_right_eq_some, Option.some.injEq] at hstep
      obtain ⟨hfree, rfl⟩ := hstep
      have hawake := hlaw.awake (by simp [hpoint])
      have hlibusb := hlaw.libusb_outside (by simp [hfree])
      exact hlaw.move houtside (by simp [callerHolds]) (by simp [hlibusb]) (by simp [hawake])
        .inl hhere
  | test =>
      have hawake := hlaw.awake (by simp [hpoint])
      have hmutex : s.mutex = some .caller := by simpa [callerHolds] using hmine
      simp only [waitStep] at hstep
      split at hstep
      case isTrue hfinished =>
        cases hstep
        have hidle : s.Idle := by
          rcases hhere with hbusy | hidle
          · simp [hbusy.1] at hfinished
          · exact hidle
        exact hlaw.move houtside (by simp [hmutex, callerHolds]) htheirs (by simp [hawake]) .inl
          (hlaw.quiet_of_idle hidle (by simp [hmutex]))
      case isFalse hbusy =>
        cases hstep
        have hlibusb := hlaw.libusb_outside (by simp [hmutex])
        exact hlaw.move houtside (by simp [callerHolds]) (by simp [hlibusb])
          (fun _ => ⟨destroys, rfl⟩) .inl ⟨hhere, fun _ hfinished => absurd hfinished hbusy⟩
  | sleep =>
      simp only [waitStep] at hstep
      split at hstep
      case isTrue hwoken =>
        cases hstep
        exact hlaw.move houtside (by simpa [callerHolds] using hmine) htheirs (by simp [hwoken])
          .inl hhere.1
      case isFalse =>
        simp only [Option.ite_none_right_eq_some, Option.some.injEq] at hstep
        obtain ⟨-, rfl⟩ := hstep
        exact hlaw.move houtside (by simpa [callerHolds] using hmine) htheirs (by simp) .inl
          hhere.1
  | unlock =>
      simp only [waitStep, Option.some.injEq] at hstep
      subst hstep
      have hawake := hlaw.awake (by simp [hpoint])
      have hmutex : s.mutex = some .caller := by simpa [callerHolds] using hmine
      have hlibusb := hlaw.libusb_outside (by simp [hmutex])
      refine hlaw.move houtside ?_ (by simp [hlibusb]) (by simp [hawake]) (fun _ => .inr hhere) ?_
      · cases destroys <;> simp [callerHolds]
      · cases destroys
        · exact .inr ⟨hhere.2, hhere.1.1, .inl hhere.1.2⟩
        · exact hhere

/-- The body of `bulkReadAsync` up to its return. -/
theorem asyncLaw_body {s s' : AsyncCtx} {choice : CallerChoice} (hlaw : AsyncLaw s)
    (hok : AllocSafe s (.caller choice)) (hmine : callerHolds s.caller = false)
    (hbody : inBody s.caller = true) (hdone : ∀ code, s.caller ≠ .done code)
    (hset : ∀ point code, s.caller ≠ .set point code)
    (hstep : callerStep s choice = some s') : AsyncLaw s' := by
  have hawake : s.sleeping = false :=
    hlaw.awake fun destroys hsleep => by simp [hsleep, inBody] at hbody
  have hhere := hlaw.caller
  have hnotmine : ¬ s.mutex = some .caller := by simp [hlaw.callerMutex, hmine]
  have htheirs := hlaw.libusbMutex
  cases hpoint : s.caller <;> rw [hpoint] at hhere hbody
  case set point code => exact absurd hpoint (hset point code)
  case done code => exact absurd hpoint (hdone code)
  case init =>
    simp only [callerStep, hpoint, Option.some.injEq] at hstep
    subst hstep
    exact .of_inBody hawake rfl (by simp [hnotmine, callerHolds]) htheirs ⟨hhere.1, rfl⟩
  case pending =>
    simp only [callerStep, hpoint, Option.some.injEq] at hstep
    subst hstep
    exact .of_inBody hawake rfl (by simp [hnotmine, callerHolds]) htheirs ⟨hhere.1, hhere.2, rfl⟩
  case handle =>
    simp only [callerStep, hpoint] at hstep
    split at hstep <;> cases hstep
    · exact .of_inBody hawake rfl (by simp [hnotmine, callerHolds]) htheirs hhere
    · exact .of_inBody hawake rfl (by simp [hnotmine, callerHolds]) htheirs
        ⟨hhere.1, hhere.2.1, by decide⟩
  case alloc =>
    simp only [callerStep, hpoint] at hstep
    split at hstep <;> cases hstep
    · exact .of_inBody hawake rfl (by simp [hnotmine, callerHolds]) htheirs hhere
    · exact absurd rfl (hok hpoint)
  case submit =>
    obtain ⟨hquiet, hfinished, hresult⟩ := hhere
    simp only [callerStep, hpoint] at hstep
    split at hstep
    case h_1 result =>
      split at hstep <;> cases hstep
      · exact .of_inBody hawake rfl (by simp [hnotmine, callerHolds]) htheirs
          (.inl ⟨rfl, .inl ⟨hfinished, hresult, .inl ⟨by simp [hquiet.1], hquiet.2⟩⟩⟩)
      · exact .of_inBody hawake rfl (by simp [hnotmine, callerHolds]) htheirs
          ⟨hquiet, hfinished, by assumption⟩
    case h_2 => cases hstep
  all_goals simp [inBody] at hbody

/-- The return of `bulkReadAsync`. -/
theorem asyncLaw_done {s s' : AsyncCtx} {choice : CallerChoice} {code : ℤ} (hlaw : AsyncLaw s)
    (hpoint : s.caller = .done code) (hstep : callerStep s choice = some s') : AsyncLaw s' := by
  have hawake := hlaw.awake (by simp [hpoint])
  have hhere := hlaw.caller
  have hmine := hlaw.callerMutex
  rw [hpoint] at hhere hmine
  simp only [callerStep, hpoint, Option.some.injEq] at hstep
  subst hstep
  refine ⟨by simpa [callerHolds] using hmine, hlaw.libusbMutex, by simp [hawake], ?_, ?_, ?_⟩
  · obtain ⟨-, hbusy⟩ | ⟨-, hquiet, hfinished, -⟩ := hhere
    · exact hbusy
    · exact .inr ⟨hfinished, hquiet.1, .inl hquiet.2⟩
  · intro _ howed
    obtain ⟨hcode, -⟩ | ⟨-, hquiet, hfinished, -⟩ := hhere
    · simp [hcode] at howed
    · exact ⟨hquiet, hfinished⟩
  · intro _ code' hreturned hfailed
    cases hreturned
    obtain ⟨hcode, -⟩ | ⟨-, hquiet, hfinished, hresult⟩ := hhere
    · exact absurd hcode hfailed
    · exact ⟨hquiet, hfinished, hresult⟩

/-- `USBWrapperAsyncCtx_t::getState`. -/
theorem asyncLaw_getState {s s' : AsyncCtx} {choice : CallerChoice} (hlaw : AsyncLaw s)
    (hpoint : s.caller = .stateLock ∨ s.caller = .stateUnlock)
    (hstep : callerStep s choice = some s') : AsyncLaw s' := by
  have hhere := hlaw.caller
  have hmine := hlaw.callerMutex
  obtain hpoint | hpoint := hpoint <;> rw [hpoint] at hhere hmine <;>
    have houtside : inBody s.caller = false := by rw [hpoint]; rfl
  · have hawake := hlaw.awake (by simp [hpoint])
    simp only [callerStep, hpoint, Option.ite_none_right_eq_some, Option.some.injEq] at hstep
    obtain ⟨hfree, rfl⟩ := hstep
    have hlibusb := hlaw.libusb_outside (by simp [hfree])
    exact hlaw.move houtside (by simp [callerHolds]) (by simp [hlibusb]) (by simp [hawake]) .inl
      hhere
  · have hawake := hlaw.awake (by simp [hpoint])
    have hmutex : s.mutex = some .caller := by simpa [callerHolds] using hmine
    have hlibusb := hlaw.libusb_outside (by simp [hmutex])
    simp only [callerStep, hpoint, Option.some.injEq] at hstep
    subst hstep
    refine hlaw.move houtside (by simp [callerHolds]) (by simp [hlibusb]) (by simp [hawake]) ?_
      hhere
    -- a result that is not the pending one is that of a complete transfer
    intro howed
    split at howed
    · exact .inl howed
    · rcases hhere with hbusy | hidle
      · exact absurd hbusy.2.1 (by assumption)
      · exact .inr (hlaw.quiet_of_idle hidle (by simp [hmutex]))

theorem asyncLaw_caller {s s' : AsyncCtx} {choice : CallerChoice} (hlaw : AsyncLaw s)
    (hok : AllocSafe s (.caller choice)) (hstep : callerStep s choice = some s') :
    AsyncLaw s' := by
  cases hpoint : s.caller with
  | idle =>
      have houtside : inBody s.caller = false := by rw [hpoint]; rfl
      have hawake := hlaw.awake (by simp [hpoint])
      have hhere := hlaw.caller
      have hmine := hlaw.callerMutex
      rw [hpoint] at hhere hmine
      simp only [callerStep, hpoint] at hstep
      split at hstep
      case h_1 =>
        simp only [Option.ite_none_left_eq_some, Option.some.injEq] at hstep
        obtain ⟨howed, rfl⟩ := hstep
        exact .of_inBody hawake rfl (by simpa [callerHolds] using hmine) hlaw.libusbMutex
          (hlaw.owed houtside (by simpa using howed))
      case h_5 => cases hstep
      all_goals
        cases hstep
        exact hlaw.move houtside (by simpa [callerHolds] using hmine) hlaw.libusbMutex
          (by simp [hawake]) .inl hhere
  | init | pending | handle | alloc | submit =>
      exact asyncLaw_body hlaw hok (by rw [hpoint]; rfl) (by rw [hpoint]; rfl) (by simp [hpoint])
        (by simp [hpoint]) hstep
  | set point code => exact asyncLaw_callerSet hlaw hpoint hstep
  | done code => exact asyncLaw_done hlaw hpoint hstep
  | wait point destroys =>
      simp only [callerStep, hpoint] at hstep
      exact asyncLaw_wait hlaw hpoint hstep
  | stateLock => exact asyncLaw_getState hlaw (.inl hpoint) hstep
  | stateUnlock => exact asyncLaw_getState hlaw (.inr hpoint) hstep
  | destroyed => simp [callerStep, hpoint] at hstep

theorem asyncLaw_of_allocSafe {s : AsyncCtx} (hreach : asyncCtx.ReachableBy AllocSafe s) :
    AsyncLaw s := by
  refine hreach.invariant (fun state hstart => ?_) fun state action next _ hlaw hok hstep => ?_
  · rw [hstart]
    exact asyncLaw_initial
  · cases action with
    | caller choice => exact asyncLaw_caller hlaw hok hstep
    | libusb choice => exact asyncLaw_libusb hlaw hstep

namespace AsyncCtx

variable {s : AsyncCtx}

theorem Quiet.active_eq (hquiet : s.Quiet) : s.active = 0 := by
  simp [active, inFlight, hquiet.1, hquiet.2, isBefore, isAfter]

theorem Busy.inFlight_eq (hbusy : s.Busy) : s.inFlight = 1 := by
  obtain ⟨-, -, ⟨hone, hevents⟩ | ⟨hnone, hbefore⟩⟩ := hbusy
  · simp [inFlight, hone, hevents, isBefore]
  · simp [inFlight, hnone, hbefore]

theorem Idle.inFlight_eq (hidle : s.Idle) : s.inFlight = 0 := by
  obtain ⟨-, hnone, hevents | hafter⟩ := hidle
  · simp [inFlight, hnone, hevents, isBefore]
  · have hbefore : isBefore s.libusb = false := by
      cases hpoint : isBefore s.libusb
      · rfl
      · simp [isAfter_eq_false hpoint] at hafter
    simp [inFlight, hnone, hbefore]

/-- The callback is at one point. -/
theorem active_le (hone : s.submitted + (isBefore s.libusb).toNat ≤ 1)
    (hnone : isAfter s.libusb = true → s.submitted = 0) : s.active ≤ 1 := by
  cases hafter : isAfter s.libusb
  · simpa [active, inFlight, hafter] using hone
  · cases hbefore : isBefore s.libusb
    · simp [active, inFlight, hbefore, hafter, hnone hafter]
    · simp [isAfter_eq_false hbefore] at hafter

theorem active_le_one (hflight : s.Busy ∨ s.Idle) : s.active ≤ 1 := by
  rcases hflight with hbusy | hidle
  · refine active_le (Nat.le_of_eq hbusy.inFlight_eq) fun hafter => ?_
    obtain ⟨-, -, ⟨-, hevents⟩ | ⟨hnone, -⟩⟩ := hbusy
    · simp [hevents, isAfter] at hafter
    · exact hnone
  · exact active_le (Nat.le_succ_of_le (Nat.le_of_eq hidle.inFlight_eq)) fun _ => hidle.2.1

end AsyncCtx

/-- Outside `bulkReadAsync` there is one transfer or none, and the context knows. -/
theorem AsyncLaw.flight {s : AsyncCtx} (hlaw : AsyncLaw s) (houtside : inBody s.caller = false) :
    s.Busy ∨ s.Idle := by
  have hhere := hlaw.caller
  cases hpoint : s.caller <;> rw [hpoint] at hhere houtside
  case wait point destroys =>
    cases point
    case unlock => exact .inr ⟨hhere.2, hhere.1.1, .inl hhere.1.2⟩
    case sleep => exact hhere.1
    all_goals exact hhere
  case idle | stateLock | stateUnlock => exact hhere
  case destroyed => exact .inr ⟨hhere.2, hhere.1.1, .inl hhere.1.2⟩
  all_goals simp [inBody] at houtside

/-- Whoever has to wait waits for a transfer. -/
theorem AsyncLaw.active_pos {s : AsyncCtx} (hlaw : AsyncLaw s) (hblocked : s.blocked) :
    0 < s.active := by
  obtain ⟨destroys, ⟨hsleep, hsleeping⟩ | ⟨hlock, hmutex⟩⟩ := hblocked
  · have hhere := hlaw.caller
    rw [hsleep] at hhere
    obtain ⟨hbusy | hidle, hwoken⟩ := hhere
    · simp [AsyncCtx.active, hbusy.inFlight_eq, Nat.add_comm 1]
    · obtain ⟨status, length, hsignal⟩ := hwoken hsleeping hidle.1
      simp [AsyncCtx.active, hsignal, isAfter]
  · have hmine : ¬ s.mutex = some .caller := by
      rw [hlaw.callerMutex]
      rcases hlock with hlock | hlock <;> simp [hlock, callerHolds]
    have htheirs : libusbHolds s.libusb = true := by
      rw [← hlaw.libusbMutex]
      cases howner : s.mutex with
      | none => exact absurd howner hmutex
      | some party => cases party with
        | caller => exact absurd howner hmine
        | libusb => rfl
    rcases isBefore_or_isAfter htheirs with hbefore | hafter
    · simp [AsyncCtx.active, AsyncCtx.inFlight, hbefore, isAfter_eq_false hbefore]
    · simp [AsyncCtx.active, hafter]

/-- A context and its transfers keep to the protocol as long as they can be allocated. -/
theorem completes_of_allocSafe {s : AsyncCtx} (hreach : asyncCtx.ReachableBy AllocSafe s) :
    Completes s := by
  have hlaw := asyncLaw_of_allocSafe hreach
  have hhere := hlaw.caller
  refine ⟨fun houtside => ?_, ?_, hlaw.active_pos, ?_, fun houtside code hreturned hfailed => ?_⟩
  · rcases hlaw.flight houtside with hbusy | hidle
    · simp [hbusy.1, hbusy.inFlight_eq]
    · simp [hidle.1, hidle.inFlight_eq]
  · by_cases hquiet : s.Quiet
    · simp [hquiet.active_eq]
    · exact AsyncCtx.active_le_one (hlaw.waits hquiet).flight
  · rintro (⟨destroys, hpoint⟩ | hpoint) <;> rw [hpoint] at hhere
    · exact hhere.1.active_eq
    · exact hhere.1.active_eq
  · exact (hlaw.failed houtside code hreturned hfailed).2

instance (s : AsyncCtx) : ∀ action, Decidable (AllocSafe s action)
  | .caller choice => inferInstanceAs (Decidable (s.caller = .alloc → choice ≠ .allocated false))
  | .libusb _ => .isTrue trivial

/-- A transfer that times out while the caller waits for it, one that cannot be submitted,
and the destructor. -/
def twoTransfers : List AsyncAction :=
  let begin := [.caller .bulkReadAsync, .caller .proceed, .caller .proceed, .caller (.handle true),
    .caller (.allocated true)]
  let callback := [.libusb (.complete .timedOut 0), .libusb .proceed, .libusb .proceed,
    .libusb .proceed, .libusb .proceed]
  begin ++ [.caller (.submitted 0), .caller .proceed, .caller .wait, .caller .proceed,
    .caller .proceed] ++ callback ++ List.replicate 4 (.caller .proceed) ++
  begin ++ [.caller (.submitted (-4))] ++ List.replicate 5 (.caller .proceed) ++
  [.caller .destroy] ++ List.replicate 3 (.caller .proceed)

theorem completes_twoTransfers :
    ∃ s : AsyncCtx, (s.caller, s.result, s.returned) = (.destroyed, -4, some (-4)) ∧
      Completes s := by
  have hrun : (asyncCtx.runBy AllocSafe .initial twoTransfers).map
      (fun s => (s.caller, s.result, s.returned)) =
      some (.destroyed, -4, some (-4)) := by
    decide
  obtain ⟨s, hreach, hvalue⟩ := System.exists_reachableBy_of_runBy (.start rfl) hrun
  exact ⟨s, hvalue, completes_of_allocSafe hreach⟩

/-- The way out of `bulkReadAsync` that does not set the context. -/
def outOfMemory : List AsyncAction :=
  [.caller .bulkReadAsync, .caller .proceed, .caller .proceed, .caller (.handle true),
    .caller (.allocated false), .caller .proceed]

theorem not_completes : ∃ s, asyncCtx.Reachable s ∧ ¬ Completes s := by
  have hrun : (asyncCtx.run .initial outOfMemory).map
      (fun s => (s.caller, s.finished, s.returned)) =
      some (.idle, false, some usbWrapErrorNoMem) := by
    decide
  obtain ⟨s, hreach, hvalue⟩ := System.exists_reachable_of_run (.start rfl) hrun
  simp only [Prod.mk.injEq] at hvalue
  obtain ⟨hidle, hfinished, hreturned⟩ := hvalue
  refine ⟨s, hreach, fun hcompletes => ?_⟩
  have hfailed := hcompletes.failed (by simp [hidle, inBody]) _ hreturned (by decide)
  simp [hfinished] at hfailed

end HauppaugeUSB.Wrappers

/-
# The mutex of the wrapper layer

`wrapMutexInit` makes a recursive mutex, and `wrapMutexLock` waits for it with
`pthread_mutex_timedlock`, which takes the time at which to give up on the clock
that counts from the epoch. `wrapMutexLock` passes the ten seconds it means to
wait. It therefore gives up at once whenever it has to wait at all, and drivers
enter the sections that the mutex is to protect without it.
-/

import HauppaugeUSB.Concurrency.TimedMutex

namespace HauppaugeUSB.Wrappers

open HauppaugeUSB.Concurrency

/-- `struct timespec`. -/
structure Timespec where
  tv_sec : ℤ
  tv_nsec : ℤ
  deriving DecidableEq

def Timespec.nanoseconds (time : Timespec) : ℤ := time.tv_sec * 1000000000 + time.tv_nsec

/-- `WRAPOS_OK`. -/
def wrapOsOk : ℤ := 0

/-- `WRAPOS_ERROR`. -/
def wrapOsError : ℤ := -1

/-- `ETIMEDOUT`. -/
def eTimedOut : ℤ := 110

/-- The time that `wrapMutexLock` hands to `pthread_mutex_timedlock`. -/
def wrapMutexWait : Timespec := { tv_sec := 10, tv_nsec := 0 }

/-- What `wrapMutexLock` makes of the result of `pthread_mutex_timedlock`. -/
def wrapMutexLock (timedlock : ℤ) : ℤ := if timedlock = 0 then wrapOsOk else wrapOsError

/-- What `pthread_mutex_timedlock` returns. -/
def timedlockResult (acquired : Bool) : ℤ := if acquired then 0 else eTimedOut

variable {Tid : Type*}

/-- What a call of `wrapMutexLock` returned. -/
def lockResult (call : LockReturn Tid) : ℤ := wrapMutexLock (timedlockResult call.acquired)

@[simp]
theorem lockResult_eq_ok {call : LockReturn Tid} :
    lockResult call = wrapOsOk ↔ call.acquired = true := by
  cases hacquired : call.acquired <;>
    simp [lockResult, hacquired, timedlockResult, wrapMutexLock, eTimedOut, wrapOsOk, wrapOsError]

@[simp]
theorem lockResult_eq_error {call : LockReturn Tid} :
    lockResult call = wrapOsError ↔ call.acquired = false := by
  cases hacquired : call.acquired <;>
    simp [lockResult, hacquired, timedlockResult, wrapMutexLock, eTimedOut, wrapOsOk, wrapOsError]

variable [DecidableEq Tid]

/-- A mutex made by `wrapMutexInit` and its users, who lock it with `wrapMutexLock`. -/
@[reducible]
def wrapMutex : System (TimedMutex Tid) (MutexAction Tid) :=
  TimedMutex.system fun _ => wrapMutexWait.nanoseconds

/-- The ten seconds after which `wrapMutexLock` is to give up. -/
def lockTimeout : ℤ := 10 * 1000000000

/-- Refusals come after the timeout only, and where every owner releases the mutex before
it, all calls succeed and the mutex excludes. -/
structure MutexSafe (m : TimedMutex Tid) : Prop where
  patient : ∀ call ∈ m.returns, lockResult call = wrapOsError →
    lockTimeout ≤ call.returned - call.called ∧ call.heldSince ≤ call.called
  granted : m.Prompt lockTimeout → ∀ call ∈ m.returns, lockResult call = wrapOsOk
  exclusive : m.Prompt lockTimeout → m.Exclusive

/-- A call that gives up was made no later than the epoch, when the mutex was already with
the thread that still has it. -/
def RefusedAtEpoch (m : TimedMutex Tid) : MutexAction Tid → Prop
  | .giveUp tid => ∀ called ∈ m.waiting tid, called ≤ 0 ∧ m.since ≤ called
  | _ => True

omit [DecidableEq Tid] in
/-- The wait for a call made at the epoch is as long as it is meant to be. -/
theorem givesUpLate_of_refusedAtEpoch {m : TimedMutex Tid} {action : MutexAction Tid}
    (hok : RefusedAtEpoch m action) :
    TimedMutex.GivesUpLate lockTimeout (fun _ => wrapMutexWait.nanoseconds) m action := by
  cases action with
  | giveUp tid =>
      intro called hwaiting
      obtain ⟨hepoch, hkept⟩ := hok called hwaiting
      refine ⟨?_, hkept⟩
      simp only [wrapMutexWait, Timespec.nanoseconds, lockTimeout]
      omega
  | _ => trivial

/-- The mutex is safe as long as no call gives up that was made after the epoch. -/
theorem mutexSafe_of_refusedAtEpoch {m : TimedMutex Tid}
    (hreach : wrapMutex.ReachableBy RefusedAtEpoch m) : MutexSafe m := by
  have hlate := hreach.mono fun _ _ => givesUpLate_of_refusedAtEpoch
  obtain ⟨hpatient, hgranted⟩ := TimedMutex.patient_of_givesUpLate hlate
  refine ⟨fun call hmem hrefused => ?_, fun hprompt call hmem => ?_, fun hprompt => ?_⟩
  · exact hpatient call hmem (lockResult_eq_error.mp hrefused)
  · exact lockResult_eq_ok.mpr (hgranted hprompt call hmem)
  · exact TimedMutex.exclusive_of_granted hreach.reachable (hgranted hprompt)

instance (m : TimedMutex Tid) : ∀ action, Decidable (RefusedAtEpoch m action)
  | .giveUp tid =>
      inferInstanceAs (Decidable (∀ called ∈ m.waiting tid, called ≤ 0 ∧ m.since ≤ called))
  | .elapse _ | .call _ | .acquire _ | .unlock _ => .isTrue trivial

/-- At the epoch a thread takes the mutex and keeps it, and a second one waits for it. -/
def waitAtEpoch : List (MutexAction ℕ) :=
  [.call 0, .acquire 0, .call 1, .elapse 10000000000, .giveUp 1]

theorem mutexSafe_at_epoch :
    ∃ m : TimedMutex ℕ, m.returns.map (fun call => (lockResult call, call.returned)) =
      [(wrapOsOk, 0), (wrapOsError, 10000000000)] ∧ MutexSafe m := by
  have hrun : (wrapMutex.runBy RefusedAtEpoch (TimedMutex.initial 0) waitAtEpoch).map
      (fun m => m.returns.map fun call => (lockResult call, call.returned)) =
      some [(wrapOsOk, 0), (wrapOsError, 10000000000)] := by
    decide
  have hstart : wrapMutex.ReachableBy RefusedAtEpoch (TimedMutex.initial 0 : TimedMutex ℕ) :=
    .start ⟨0, rfl⟩
  obtain ⟨m, hreach, hvalue⟩ := System.exists_reachableBy_of_runBy hstart hrun
  exact ⟨m, hvalue, mutexSafe_of_refusedAtEpoch hreach⟩

/-- A thread takes the mutex in January 2018, and a second one asks for it. -/
def waitToday : List (MutexAction ℕ) := [.call 0, .acquire 0, .call 1, .giveUp 1]

theorem not_mutexSafe : ∃ m : TimedMutex ℕ, wrapMutex.Reachable m ∧ ¬ MutexSafe m := by
  have hrun : (wrapMutex.run (TimedMutex.initial 1515000000000000000) waitToday).map
      (fun m => (m.tenures, m.now, m.since, m.sections 0, m.sections 1)) =
      some ([], 1515000000000000000, 1515000000000000000, [true], [false]) := by
    rfl
  have hstart : wrapMutex.Reachable (TimedMutex.initial 1515000000000000000 : TimedMutex ℕ) :=
    .start ⟨1515000000000000000, rfl⟩
  obtain ⟨m, hreach, hvalue⟩ := System.exists_reachable_of_run hstart hrun
  simp only [Prod.mk.injEq] at hvalue
  obtain ⟨htenures, hnow, hsince, hfirst, hsecond⟩ := hvalue
  refine ⟨m, hreach, fun hsafe => ?_⟩
  have hprompt : m.Prompt lockTimeout :=
    ⟨by simp [htenures], fun _ => by simp [hnow, hsince, lockTimeout]⟩
  have hsame := hsafe.exclusive hprompt 0 1 (by simp [hfirst]) (by simp [hsecond])
  simp at hsame

end HauppaugeUSB.Wrappers

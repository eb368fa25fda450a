/-
# Monitors whose signals count

In a `Monitor` a wait may end at any time, and a signal does nothing. That is enough for
what is never to happen, but not for what is not to fail: a thread that waits for ever while
it could go on has lost its wake-up. Here some places of the code signal the condition
variable: the thread there ends the wait of one of those that wait, if there is any. A wait
may still end by itself, and with an error.

The threads are finitely many, and what they are doing is weighed: the weights of all of
them add up, and a step changes the weight of the thread that takes it.
-/

import HauppaugeUSB.Concurrency.Monitor
import HauppaugeUSB.Concurrency.System
import Mathlib.Algebra.BigOperators.Group.Finset.Piecewise
import Mathlib.Algebra.Order.BigOperators.Group.Finset
import Mathlib.Data.Fintype.Basic

namespace HauppaugeUSB.Concurrency

/-- What may happen next, where signals count. -/
inductive SignalAction (Tid Place : Type*)
  | plain (action : MonitorAction Tid Place)
  | signal (tid : Tid) (woken : Option Tid)

/-- The thread is at a place that signals, with the mutex. -/
def MonitorThread.isSignalling {Place : Type*} (signals : Place → Bool) :
    MonitorThread Place → Bool
  | .inside place => signals place
  | .outside | .entering _ | .waiting _ => false

def MonitorThread.isWaiting {Place : Type*} : MonitorThread Place → Bool
  | .waiting _ => true
  | .outside | .entering _ | .inside _ => false

theorem MonitorThread.isWaiting_iff {Place : Type*} {thread : MonitorThread Place} :
    thread.isWaiting = true ↔ ∃ place, thread = .waiting place := by
  cases thread <;> simp [isWaiting]

/-- The steps by which calls that are going on go on: no call is made, no wait ends by itself,
and the clock is not set. -/
def SignalAction.Continues {Tid Place : Type*} : SignalAction Tid Place → Prop
  | .plain (.enter _) | .plain (.run _) | .signal _ _ => True
  | .plain (.setClock _) | .plain (.call _ _) | .plain (.wake _ _) => False

namespace Monitor

variable {Tid Shared Place : Type*}

/-- Where a move takes the thread that makes it. -/
def moved : MonitorMove Shared Place → MonitorThread Place
  | .go _ place => .inside place
  | .wait place => .waiting place
  | .leave _ => .outside

/-- What a move makes of the data. -/
def written (shared : Shared) : MonitorMove Shared Place → Shared
  | .go shared' _ | .leave shared' => shared'
  | .wait _ => shared

/-- Nobody is inside, nor about to enter. -/
def AtRest (m : Monitor Tid Shared Place) : Prop :=
  ∀ tid, m.threads tid = .outside ∨ (m.threads tid).isWaiting = true

section

variable [DecidableEq Tid] {m : Monitor Tid Shared Place} {tid : Tid}

@[simp]
theorem move_threads (move : MonitorMove Shared Place) :
    (m.move tid move).threads = (m.setThread tid (moved move)).threads := by
  cases move <;> rfl

@[simp]
theorem move_shared (move : MonitorMove Shared Place) :
    (m.move tid move).shared = written m.shared move := by
  cases move <;> rfl

end

variable [Fintype Tid] [DecidableEq Tid] (program : MonitorProgram Shared Place)
  (signals : Place → Bool) (m : Monitor Tid Shared Place)

/-- One step: a thread at a place that signals wakes one that waits, if there is any, and
then moves on. -/
def signalStep : SignalAction Tid Place → Option (Monitor Tid Shared Place)
  | .plain (.run tid) =>
      if (m.threads tid).isSignalling signals then none else m.step program (.run tid)
  | .plain action => m.step program action
  | .signal tid woken =>
      if (m.threads tid).isSignalling signals then
        match woken with
        | none =>
            if ∃ other, (m.threads other).isWaiting then none else m.step program (.run tid)
        | some other =>
            (m.step program (.wake other 0)).bind fun woken => woken.step program (.run tid)
      else none

/-- The monitor as a transition system. -/
@[reducible]
def signalSystem (IsStart : Shared → Prop) :
    System (Monitor Tid Shared Place) (SignalAction Tid Place) where
  IsStart m := ∃ now shared, IsStart shared ∧ m = initial now shared
  step m action := m.signalStep program signals action

variable {program signals m}

/-- The kinds of steps, as steps of a monitor whose signals do not count. -/
inductive SignalKind (program : MonitorProgram Shared Place) (signals : Place → Bool)
    (m : Monitor Tid Shared Place) : SignalAction Tid Place → Monitor Tid Shared Place → Prop
  | plain {action : MonitorAction Tid Place} {m' : Monitor Tid Shared Place}
      (hquiet : ∀ tid, action = .run tid → (m.threads tid).isSignalling signals = false)
      (hstep : m.step program action = some m') : SignalKind program signals m (.plain action) m'
  | unheard {tid : Tid} {m' : Monitor Tid Shared Place}
      (hsignals : (m.threads tid).isSignalling signals = true)
      (hnobody : ∀ other, (m.threads other).isWaiting = false)
      (hstep : m.step program (.run tid) = some m') :
      SignalKind program signals m (.signal tid none) m'
  | woken {tid other : Tid} {woken m' : Monitor Tid Shared Place}
      (hsignals : (m.threads tid).isSignalling signals = true)
      (hwake : m.step program (.wake other 0) = some woken)
      (hstep : woken.step program (.run tid) = some m') :
      SignalKind program signals m (.signal tid (some other)) m'

theorem signalKind_of_step {m' : Monitor Tid Shared Place} {action : SignalAction Tid Place}
    (hstep : m.signalStep program signals action = some m') :
    SignalKind program signals m action m' := by
  cases action with
  | plain action =>
      cases action with
      | run tid =>
          simp only [signalStep] at hstep
          split at hstep
          case isTrue => cases hstep
          case isFalse hquiet =>
            refine .plain (fun tid' hrun => ?_) hstep
            cases hrun
            exact Bool.eq_false_iff.mpr hquiet
      | _ => exact .plain (fun _ hrun => nomatch hrun) hstep
  | signal tid woken =>
      simp only [signalStep] at hstep
      split at hstep
      case isFalse => cases hstep
      case isTrue hsignals =>
        cases woken with
        | none =>
            simp only at hstep
            split at hstep
            case isTrue => cases hstep
            case isFalse hnobody =>
              exact .unheard hsignals (fun other => Bool.eq_false_iff.mpr fun hwaits =>
                hnobody ⟨other, hwaits⟩) hstep
        | some other =>
            obtain ⟨woken, hwake, hrun⟩ := Option.bind_eq_some_iff.mp hstep
            exact .woken hsignals hwake hrun

omit [Fintype Tid] in
/-- A wait begins where the code has it. -/
theorem waits_of_reachable {IsStart : Shared → Prop} {P : Place → Prop}
    (hwait : ∀ now shared place next, program.run now shared place = .wait next → P next)
    (hreach : (system program IsStart).Reachable m) {tid : Tid} {place : Place}
    (hwaits : m.threads tid = .waiting place) : P place := by
  refine hreach.invariant (P := fun m => ∀ tid place, m.threads tid = .waiting place → P place)
    ?_ (fun m action m' _ ih hstep tid place hwaits => ?_) tid place hwaits
  · rintro _ ⟨now, shared, -, rfl⟩ tid place hwaits
    cases hwaits
  have hmoves (mover : Tid) (thread : MonitorThread Place)
      (hthread : ∀ place, thread = .waiting place → P place)
      (hwaits : (m.setThread mover thread).threads tid = .waiting place) : P place := by
    by_cases hsame : tid = mover
    · subst hsame
      rw [setThread_threads_self] at hwaits
      exact hthread place hwaits
    · rw [setThread_threads_of_ne mover thread hsame] at hwaits
      exact ih tid place hwaits
  cases stepKind_of_step hstep with
  | setClock time => exact ih tid place hwaits
  | call => exact hmoves _ _ (by simp) hwaits
  | enter => exact hmoves _ _ (by simp) hwaits
  | wake => exact hmoves _ _ (by simp) hwaits
  | @run mover here hinside =>
      rw [move_threads] at hwaits
      refine hmoves _ _ (fun place hthread => ?_) hwaits
      cases hmove : program.run m.now m.shared here with
      | wait next =>
          rw [hmove, moved, MonitorThread.waiting.injEq] at hthread
          exact hthread ▸ hwait _ _ _ _ hmove
      | _ =>
          rw [hmove] at hthread
          cases hthread

/-- A run with signals is a run. -/
theorem reachable_of_signals {IsStart : Shared → Prop}
    (hreach : (signalSystem program signals IsStart).Reachable m) :
    (system program IsStart).Reachable m := by
  have hnext {m m' : Monitor Tid Shared Place} (action : MonitorAction Tid Place)
      (hreach : (system program IsStart).Reachable m) (hstep : m.step program action = some m') :
      (system program IsStart).Reachable m' := System.Reachable.step hreach hstep
  induction hreach with
  | start hstart => exact .start hstart
  | step _ _ hstep ih =>
      cases signalKind_of_step hstep with
      | plain _ hstep => exact hnext _ ih hstep
      | unheard _ _ hstep => exact hnext _ ih hstep
      | woken _ hwake hstep => exact hnext _ (hnext _ ih hwake) hstep

/-- A thread inside can go on, where a signal can end every wait. -/
theorem exists_signalStep {tid : Tid} {place : Place} (hinside : m.threads tid = .inside place)
    (hwake : ∀ other here, m.threads other = .waiting here →
      ∃ next, program.wake m.now here 0 = some next) :
    ∃ action next, SignalAction.Continues action ∧
      m.signalStep program signals action = some next := by
  cases hsignals : signals place with
  | false =>
      refine ⟨.plain (.run tid), m.move tid (program.run m.now m.shared place), trivial, ?_⟩
      simp [signalStep, step, hinside, MonitorThread.isSignalling, hsignals]
  | true =>
      by_cases hwaits : ∃ other, (m.threads other).isWaiting = true
      · obtain ⟨other, hother⟩ := hwaits
        obtain ⟨here, hthread⟩ := MonitorThread.isWaiting_iff.mp hother
        obtain ⟨next, hnext⟩ := hwake other here hthread
        have hne : tid ≠ other := by
          rintro rfl
          rw [hinside] at hthread
          cases hthread
        refine ⟨.signal tid (some other), (m.setThread other (.entering next)).move tid
          (program.run m.now m.shared place), trivial, ?_⟩
        have hstays : (m.setThread other (.entering next)).threads tid = .inside place := by
          rw [setThread_threads_of_ne other _ hne, hinside]
        have hwoken : m.step program (.wake other 0) =
            some (m.setThread other (.entering next)) := by
          simp [step, hthread, hnext]
        rw [signalStep, hinside, MonitorThread.isSignalling, if_pos hsignals, hwoken,
          Option.bind_some, step, hstays]
        rfl
      · refine ⟨.signal tid none, m.move tid (program.run m.now m.shared place), trivial, ?_⟩
        simp [signalStep, step, hinside, MonitorThread.isSignalling, hsignals, hwaits]

/-- The weights of what the threads are doing, added up. -/
def total (weight : MonitorThread Place → ℕ) (m : Monitor Tid Shared Place) : ℕ :=
  ∑ tid, weight (m.threads tid)

/-- A thread's old weight is exchanged for its new one. -/
theorem total_setThread (weight : MonitorThread Place → ℕ) (tid : Tid)
    (thread : MonitorThread Place) :
    (m.setThread tid thread).total weight + weight (m.threads tid) =
      m.total weight + weight thread := by
  have hafter : (m.setThread tid thread).total weight =
      weight thread + ∑ other ∈ Finset.univ.erase tid, weight (m.threads other) := by
    rw [total, ← Finset.add_sum_erase _ _ (Finset.mem_univ tid), setThread_threads_self]
    refine congrArg _ (Finset.sum_congr rfl fun other hother => ?_)
    rw [setThread_threads_of_ne tid thread (Finset.ne_of_mem_erase hother)]
  have hbefore : m.total weight =
      weight (m.threads tid) + ∑ other ∈ Finset.univ.erase tid, weight (m.threads other) :=
    (Finset.add_sum_erase _ _ (Finset.mem_univ tid)).symm
  omega

theorem total_move (weight : MonitorThread Place → ℕ) (tid : Tid)
    (move : MonitorMove Shared Place) :
    (m.move tid move).total weight + weight (m.threads tid) =
      m.total weight + weight (moved move) := by
  have hsame : (m.move tid move).total weight = (m.setThread tid (moved move)).total weight := by
    rw [total, move_threads, total]
  rw [hsame, total_setThread]

omit [DecidableEq Tid] in
theorem total_eq_zero {weight : MonitorThread Place → ℕ}
    (hweight : ∀ tid, weight (m.threads tid) = 0) : m.total weight = 0 :=
  Finset.sum_eq_zero fun tid _ => hweight tid

end Monitor

end HauppaugeUSB.Concurrency

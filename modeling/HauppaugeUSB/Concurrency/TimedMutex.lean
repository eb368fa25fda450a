/-
# A recursive mutex with timed acquisition

Any number of threads lock and unlock one recursive mutex. An acquisition has a
deadline, an absolute time that the caller computes from the time of its call: it
succeeds when the mutex is free or the caller's own, and it may give up when
another thread owns the mutex and the deadline has passed. A caller that was
refused goes on all the same, and its unlock finds that it does not own the mutex.

The clock is part of the state and only moves forward. Histories record what every
call returned, and how long each owner kept the mutex.
-/

import HauppaugeUSB.Concurrency.System
import Mathlib.Data.Int.Notation
import Mathlib.Logic.Function.Basic
import Mathlib.Tactic.Linarith

namespace HauppaugeUSB.Concurrency

/-- A lock call that has returned. -/
structure LockReturn (Tid : Type*) where
  tid : Tid
  called : ℤ
  returned : ℤ
  acquired : Bool
  /-- Since when the mutex had been with its owner of that time. -/
  heldSince : ℤ
  deriving DecidableEq

/-- The mutex, its users, and what has happened. -/
structure TimedMutex (Tid : Type*) where
  now : ℤ
  owner : Option Tid
  /-- How often the owner has locked it. -/
  depth : ℕ
  /-- When the owner got it. -/
  since : ℤ
  /-- How long earlier owners had it. -/
  tenures : List ℤ
  /-- When a thread made the lock call that it is in. -/
  waiting : Tid → Option ℤ
  /-- The results of the lock calls that a thread has not matched by an unlock. -/
  sections : Tid → List Bool
  returns : List (LockReturn Tid)

/-- What may happen next. -/
inductive MutexAction (Tid : Type*)
  | elapse (time : ℕ)
  | call (tid : Tid)
  | acquire (tid : Tid)
  | giveUp (tid : Tid)
  | unlock (tid : Tid)

namespace TimedMutex

variable {Tid : Type*}

/-- A mutex that nobody has used. -/
def initial (now : ℤ) : TimedMutex Tid :=
  ⟨now, none, 0, now, [], fun _ => none, fun _ => [], []⟩

variable [DecidableEq Tid]

/-- The call of a thread returns. -/
def leave (m : TimedMutex Tid) (tid : Tid) (called : ℤ) (acquired : Bool) : TimedMutex Tid :=
  { m with
    waiting := Function.update m.waiting tid none
    sections := Function.update m.sections tid (acquired :: m.sections tid)
    returns := m.returns ++ [⟨tid, called, m.now, acquired, m.since⟩] }

/-- The owner locks the mutex once more, or a thread becomes its owner. -/
def lock (m : TimedMutex Tid) (tid : Tid) : TimedMutex Tid :=
  if m.owner = some tid then { m with depth := m.depth + 1 }
  else { m with owner := some tid, depth := 1, since := m.now }

/-- The owner unlocks the mutex, and releases it with the last unlock. -/
def release (m : TimedMutex Tid) : TimedMutex Tid :=
  if 1 < m.depth then { m with depth := m.depth - 1 }
  else { m with owner := none, depth := 0, tenures := m.tenures ++ [m.now - m.since] }

/-- One step, when an acquisition called at a time has a certain deadline. -/
def step (deadline : ℤ → ℤ) (m : TimedMutex Tid) : MutexAction Tid → Option (TimedMutex Tid)
  | .elapse time => some { m with now := m.now + time }
  | .call tid =>
      if m.waiting tid = none then
        some { m with waiting := Function.update m.waiting tid (some m.now) }
      else none
  | .acquire tid =>
      match m.waiting tid with
      | none => none
      | some called =>
          if m.owner = none ∨ m.owner = some tid then some ((m.lock tid).leave tid called true)
          else none
  | .giveUp tid =>
      match m.waiting tid with
      | none => none
      | some called =>
          if m.owner ≠ none ∧ m.owner ≠ some tid ∧ deadline called ≤ m.now then
            some (m.leave tid called false)
          else none
  | .unlock tid =>
      match m.waiting tid, m.sections tid with
      | none, _ :: later =>
          let left := { m with sections := Function.update m.sections tid later }
          if m.owner = some tid then some left.release else some left
      | _, _ => none

/-- The mutex as a transition system. -/
@[reducible]
def system (deadline : ℤ → ℤ) : System (TimedMutex Tid) (MutexAction Tid) where
  IsStart m := ∃ now, m = initial now
  step m action := m.step deadline action

/-- A call is refused only after it has waited for the whole timeout, while the mutex
stayed with one other thread. -/
def Patient (timeout : ℤ) (m : TimedMutex Tid) : Prop :=
  ∀ call ∈ m.returns, call.acquired = false →
    timeout ≤ call.returned - call.called ∧ call.heldSince ≤ call.called

/-- Every owner releases the mutex before the timeout. -/
def Prompt (timeout : ℤ) (m : TimedMutex Tid) : Prop :=
  (∀ tenure ∈ m.tenures, tenure < timeout) ∧ (m.owner ≠ none → m.now - m.since < timeout)

/-- Every call has been granted. -/
def Granted (m : TimedMutex Tid) : Prop := ∀ call ∈ m.returns, call.acquired = true

/-- No two threads are between their lock and their unlock. -/
def Exclusive (m : TimedMutex Tid) : Prop :=
  ∀ first second, m.sections first ≠ [] → m.sections second ≠ [] → first = second

/-- A call that gives up was promised the whole timeout, and since it was made the mutex
has not changed hands. -/
def GivesUpLate (timeout : ℤ) (deadline : ℤ → ℤ) (m : TimedMutex Tid) : MutexAction Tid → Prop
  | .giveUp tid =>
      ∀ called ∈ m.waiting tid, timeout ≤ deadline called - called ∧ m.since ≤ called
  | _ => True

variable {deadline : ℤ → ℤ} {timeout : ℤ} {m m' : TimedMutex Tid} {tid : Tid} {called : ℤ}

@[simp]
theorem leave_owner (acquired : Bool) : (m.leave tid called acquired).owner = m.owner := rfl

@[simp]
theorem leave_depth (acquired : Bool) : (m.leave tid called acquired).depth = m.depth := rfl

@[simp]
theorem leave_sections (acquired : Bool) : (m.leave tid called acquired).sections =
    Function.update m.sections tid (acquired :: m.sections tid) := rfl

@[simp]
theorem leave_returns (acquired : Bool) : (m.leave tid called acquired).returns =
    m.returns ++ [⟨tid, called, m.now, acquired, m.since⟩] := rfl

@[simp]
theorem lock_returns : (m.lock tid).returns = m.returns := by
  unfold lock
  split <;> rfl

@[simp]
theorem lock_sections : (m.lock tid).sections = m.sections := by
  unfold lock
  split <;> rfl

omit [DecidableEq Tid] in
@[simp]
theorem release_returns : m.release.returns = m.returns := by
  unfold release
  split <;> rfl

omit [DecidableEq Tid] in
@[simp]
theorem release_sections : m.release.sections = m.sections := by
  unfold release
  split <;> rfl

/-- What a step can do. -/
theorem step_cases {action : MutexAction Tid} (hstep : m.step deadline action = some m') :
    (∃ time : ℕ, m' = { m with now := m.now + time }) ∨
    (∃ tid, m' = { m with waiting := Function.update m.waiting tid (some m.now) }) ∨
    (∃ tid called, (m.owner = none ∨ m.owner = some tid) ∧
      m' = (m.lock tid).leave tid called true) ∨
    (∃ tid called, action = .giveUp tid ∧ m.waiting tid = some called ∧ m.owner ≠ none ∧
      deadline called ≤ m.now ∧ m' = m.leave tid called false) ∨
    (∃ tid first later, m.sections tid = first :: later ∧
      let left := { m with sections := Function.update m.sections tid later }
      (m.owner = some tid ∧ m' = left.release ∨ m.owner ≠ some tid ∧ m' = left)) := by
  cases action with
  | elapse time =>
      cases hstep
      exact .inl ⟨time, rfl⟩
  | call tid =>
      simp only [step] at hstep
      split at hstep <;> cases hstep
      exact .inr (.inl ⟨tid, rfl⟩)
  | acquire tid =>
      simp only [step] at hstep
      split at hstep
      · cases hstep
      split at hstep <;> cases hstep
      rename_i called _ hfree
      exact .inr (.inr (.inl ⟨tid, called, hfree, rfl⟩))
  | giveUp tid =>
      simp only [step] at hstep
      split at hstep
      · cases hstep
      split at hstep <;> cases hstep
      rename_i called hwaiting hlate
      exact .inr (.inr (.inr (.inl ⟨tid, called, rfl, hwaiting, hlate.1, hlate.2.2, rfl⟩)))
  | unlock tid =>
      simp only [step] at hstep
      split at hstep
      case h_1 first later _ hsections =>
        refine .inr (.inr (.inr (.inr ⟨tid, first, later, hsections, ?_⟩)))
        split at hstep <;> cases hstep
        · exact .inl ⟨‹_›, rfl⟩
        · exact .inr ⟨‹_›, rfl⟩
      case h_2 => cases hstep

/-- As long as every call is granted, a thread has as many sections open as it has locked
the mutex. -/
def Counted (m : TimedMutex Tid) : Prop :=
  Granted m → ∀ tid, (m.sections tid).length = if m.owner = some tid then m.depth else 0

/-- The history of calls only grows. -/
theorem granted_of_step {action : MutexAction Tid} (hstep : m.step deadline action = some m')
    (hgranted : Granted m') : Granted m := by
  rcases step_cases hstep with ⟨time, rfl⟩ | ⟨tid, rfl⟩ | ⟨tid, called, -, rfl⟩ |
    ⟨tid, called, -, -, -, -, rfl⟩ | ⟨tid, first, later, -, ⟨-, rfl⟩ | ⟨-, rfl⟩⟩
  case inr.inr.inl =>
    exact fun call hmem => hgranted call (by simp [hmem])
  case inr.inr.inr.inl =>
    exact fun call hmem => hgranted call (by simp [hmem])
  case inr.inr.inr.inr.inl =>
    exact fun call hmem => hgranted call (by simpa using hmem)
  all_goals exact hgranted

theorem counted_step {action : MutexAction Tid} (hcounted : Counted m)
    (hstep : m.step deadline action = some m') : Counted m' := by
  intro hgranted other
  have hbefore := hcounted (granted_of_step hstep hgranted)
  rcases step_cases hstep with ⟨time, rfl⟩ | ⟨tid, rfl⟩ | ⟨tid, called, hfree, rfl⟩ |
    ⟨tid, called, -, -, -, -, rfl⟩ | ⟨tid, first, later, hsections, ⟨howner, rfl⟩ | ⟨howner, rfl⟩⟩
  · exact hbefore other
  · exact hbefore other
  · -- The mutex is free or the caller's own.
    have hhere := hbefore tid
    have hother := hbefore other
    by_cases hsame : other = tid
    · subst hsame
      by_cases hown : m.owner = some other
      · rw [if_pos hown] at hhere
        simp [lock, hown, hhere]
      · rw [if_neg hown] at hhere
        simp [lock, hown, hhere]
    · by_cases hown : m.owner = some tid
      · have hne : m.owner ≠ some other := by simp [hown, Ne.symm hsame]
        rw [if_neg hne] at hother
        simp [lock, hown, hsame, Ne.symm hsame, hother]
      · have hne : m.owner ≠ some other := by simp [hfree.resolve_right hown]
        rw [if_neg hne] at hother
        simp [lock, hown, hsame, Ne.symm hsame, hother]
  · -- A refused call would not be granted.
    have hrefused := hgranted ⟨tid, called, m.now, false, m.since⟩ (by simp)
    simp at hrefused
  · -- The owner unlocks.
    have hhere := hbefore tid
    have hother := hbefore other
    rw [if_pos howner, hsections, List.length_cons] at hhere
    by_cases hdepth : 1 < m.depth
    · by_cases hsame : other = tid
      · subst hsame
        simp [release, hdepth, howner]
        omega
      · rw [howner, if_neg (by simp [Ne.symm hsame])] at hother
        simp [release, hdepth, howner, hsame, Ne.symm hsame, hother]
    · by_cases hsame : other = tid
      · subst hsame
        have hempty : later = [] := List.length_eq_zero_iff.mp (by omega)
        simp [release, hdepth, hempty]
      · rw [howner, if_neg (by simp [Ne.symm hsame])] at hother
        simp [release, hdepth, hsame, hother]
  · -- Only the owner has sections open.
    have hhere := hbefore tid
    rw [if_neg howner, hsections] at hhere
    simp at hhere

theorem counted_of_reachable (hreach : (system deadline).Reachable m) : Counted m := by
  refine hreach.invariant ?_ fun _ _ _ _ hcounted hstep => counted_step hcounted hstep
  rintro _ ⟨now, rfl⟩ - tid
  simp [initial]

/-- Where every call is granted, the mutex excludes. -/
theorem exclusive_of_granted (hreach : (system deadline).Reachable m) (hgranted : Granted m) :
    Exclusive m := by
  intro first second hfirst hsecond
  have howner : ∀ tid, m.sections tid ≠ [] → m.owner = some tid := by
    intro tid hopen
    by_contra hnot
    have hcount := counted_of_reachable hreach hgranted tid
    rw [if_neg hnot, List.length_eq_zero_iff] at hcount
    exact hopen hcount
  exact Option.some.inj ((howner first hfirst).symm.trans (howner second hsecond))

/-- An owner that was late stays on record. -/
theorem prompt_of_step {action : MutexAction Tid} (hstep : m.step deadline action = some m')
    (hprompt : Prompt timeout m') : Prompt timeout m := by
  obtain ⟨htenures, hnow⟩ := hprompt
  rcases step_cases hstep with ⟨time, rfl⟩ | ⟨tid, rfl⟩ | ⟨tid, called, hfree, rfl⟩ |
    ⟨tid, called, -, -, -, -, rfl⟩ | ⟨tid, first, later, -, ⟨howner, rfl⟩ | ⟨-, rfl⟩⟩
  · refine ⟨htenures, fun howner => ?_⟩
    have hlater := hnow howner
    simp only at hlater
    omega
  · exact ⟨htenures, hnow⟩
  · by_cases hown : m.owner = some tid
    · simp only [lock, if_pos hown] at htenures hnow
      exact ⟨htenures, hnow⟩
    · simp only [lock, if_neg hown] at htenures
      exact ⟨htenures, fun howner => absurd (hfree.resolve_right hown) howner⟩
  · exact ⟨htenures, hnow⟩
  · by_cases hdepth : 1 < m.depth
    · simp only [release, if_pos hdepth] at htenures hnow
      exact ⟨htenures, hnow⟩
    · simp only [release, if_neg hdepth] at htenures
      refine ⟨fun tenure hmem => htenures tenure (List.mem_append_left _ hmem), fun _ => ?_⟩
      exact htenures _ (List.mem_append_right _ (List.mem_singleton.mpr rfl))
  · exact ⟨htenures, hnow⟩

/-- In a run whose refusals come late every refusal is patient, and with prompt owners
there is none. -/
theorem patient_of_givesUpLate
    (hreach : (system deadline).ReachableBy (GivesUpLate timeout deadline) m) :
    Patient timeout m ∧ (Prompt timeout m → Granted m) := by
  refine hreach.invariant (P := fun m => Patient timeout m ∧ (Prompt timeout m → Granted m)) ?_
    fun m action m' hprior hlaw hok hstep => ?_
  · rintro _ ⟨now, rfl⟩
    simp [Patient, Granted, initial]
  obtain ⟨hpatient, hgranted⟩ := hlaw
  have hpast := fun hprompt => hgranted (prompt_of_step hstep hprompt)
  rcases step_cases hstep with ⟨time, rfl⟩ | ⟨tid, rfl⟩ | ⟨tid, called, -, rfl⟩ |
    ⟨tid, called, rfl, hwaiting, howner, hlate, rfl⟩ | ⟨tid, first, later, -, ⟨-, rfl⟩ | ⟨-, rfl⟩⟩
  · exact ⟨hpatient, hpast⟩
  · exact ⟨hpatient, hpast⟩
  · constructor
    · intro call hmem hrefused
      rcases List.mem_append.mp hmem with hold | hnew
      · exact hpatient call (by simpa using hold) hrefused
      · simp [List.mem_singleton.mp hnew] at hrefused
    · intro hprompt call hmem
      rcases List.mem_append.mp hmem with hold | hnew
      · exact hpast hprompt call (by simpa using hold)
      · simp [List.mem_singleton.mp hnew]
  · -- The refusal: the owner has kept the mutex since before the call.
    obtain ⟨hpromised, hkept⟩ := hok called hwaiting
    constructor
    · intro call hmem hrefused
      rcases List.mem_append.mp hmem with hold | hnew
      · exact hpatient call hold hrefused
      · obtain rfl := List.mem_singleton.mp hnew
        exact ⟨by simp only; omega, hkept⟩
    · intro hprompt
      have hshort : m.now - m.since < timeout := hprompt.2 howner
      omega
  · refine ⟨?_, fun hprompt => ?_⟩
    · simpa [Patient] using hpatient
    · simpa [Granted] using hpast hprompt
  · exact ⟨hpatient, hpast⟩

end TimedMutex

end HauppaugeUSB.Concurrency

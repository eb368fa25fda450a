/-
# Monitors with a clock

A monitor is shared data behind one mutex, with a condition variable to wait at.
A thread enters by locking the mutex, works on the data, and leaves by unlocking
it. Inside it may wait: it then gives up the mutex, and some time later it comes
back with a result and must lock the mutex again. When it comes back is left to
the environment, so a signal needs no step of its own, and a thread may come back
without one. The clock belongs to the environment as well and may be set.

A proof of a monitor gives an assertion on the data for the time when nobody is
inside, one for every place inside, and one on a thread's own variables while it
is waiting or about to enter. An `Outline` says what has to be checked of the
program, step by step, and `Outline.sound` draws the conclusion for every run and
any number of threads.
-/

import HauppaugeUSB.Concurrency.System
import Mathlib.Data.Int.Notation
import Mathlib.Logic.Function.Basic

namespace HauppaugeUSB.Concurrency

/-- What a thread inside a monitor does next. -/
inductive MonitorMove (Shared Place : Type*)
  | go (shared : Shared) (place : Place)
  | wait (place : Place)
  | leave (shared : Shared)

/-- The code that threads run in a monitor. -/
structure MonitorProgram (Shared Place : Type*) where
  /-- The places at which a call begins, before it has locked the mutex. -/
  IsEntry : Place → Bool
  /-- One step inside. -/
  run : ℤ → Shared → Place → MonitorMove Shared Place
  /-- Where a wait goes on when it returns with a result at a time, if it may. -/
  wake : ℤ → Place → ℤ → Option Place

/-- Where a thread is. -/
inductive MonitorThread (Place : Type*)
  | outside
  | entering (place : Place)
  | inside (place : Place)
  | waiting (place : Place)

/-- The place at which a thread is in the code. -/
def MonitorThread.place {Place : Type*} : MonitorThread Place → Option Place
  | .outside => none
  | .entering place | .inside place | .waiting place => some place

/-- The place at which a thread is that has yet to lock the mutex. -/
def MonitorThread.outer {Place : Type*} : MonitorThread Place → Option Place
  | .entering place | .waiting place => some place
  | .outside | .inside _ => none

/-- The monitor and its threads. -/
structure Monitor (Tid Shared Place : Type*) where
  now : ℤ
  shared : Shared
  owner : Option Tid
  threads : Tid → MonitorThread Place

/-- What may happen next. -/
inductive MonitorAction (Tid Place : Type*)
  | setClock (time : ℤ)
  | call (tid : Tid) (place : Place)
  | enter (tid : Tid)
  | run (tid : Tid)
  | wake (tid : Tid) (result : ℤ)

namespace Monitor

variable {Tid Shared Place : Type*}

/-- A monitor that nobody has used. -/
def initial (now : ℤ) (shared : Shared) : Monitor Tid Shared Place :=
  ⟨now, shared, none, fun _ => .outside⟩

variable [DecidableEq Tid] (program : MonitorProgram Shared Place)
  (m : Monitor Tid Shared Place) (tid : Tid)

/-- A thread moves on. -/
def setThread (thread : MonitorThread Place) : Monitor Tid Shared Place :=
  { m with threads := Function.update m.threads tid thread }

/-- The thread inside makes a move. -/
def move : MonitorMove Shared Place → Monitor Tid Shared Place
  | .go shared place => { m.setThread tid (.inside place) with shared := shared }
  | .wait place => { m.setThread tid (.waiting place) with owner := none }
  | .leave shared => { m.setThread tid .outside with owner := none, shared := shared }

/-- One step. -/
def step : MonitorAction Tid Place → Option (Monitor Tid Shared Place)
  | .setClock time => some { m with now := time }
  | .call tid place =>
      match m.threads tid with
      | .outside => if program.IsEntry place then some (m.setThread tid (.entering place)) else none
      | _ => none
  | .enter tid =>
      match m.threads tid, m.owner with
      | .entering place, none => some { m.setThread tid (.inside place) with owner := some tid }
      | _, _ => none
  | .run tid =>
      match m.threads tid with
      | .inside place => some (m.move tid (program.run m.now m.shared place))
      | _ => none
  | .wake tid result =>
      match m.threads tid with
      | .waiting place =>
          (program.wake m.now place result).map fun next => m.setThread tid (.entering next)
      | _ => none

/-- The monitor as a transition system, its data in one of certain states at first. -/
@[reducible]
def system (IsStart : Shared → Prop) : System (Monitor Tid Shared Place) (MonitorAction Tid Place)
    where
  IsStart m := ∃ now shared, IsStart shared ∧ m = initial now shared
  step m action := m.step program action

/-- A condition on the steps that threads take inside. -/
def Meets (ok : ℤ → Shared → Place → Prop) (m : Monitor Tid Shared Place) :
    MonitorAction Tid Place → Prop
  | .run tid => ∀ place, m.threads tid = .inside place → ok m.now m.shared place
  | _ => True

instance (ok : ℤ → Shared → Place → Prop) [∀ now shared place, Decidable (ok now shared place)]
    (m : Monitor Tid Shared Place) : ∀ action, Decidable (Meets ok m action)
  | .run tid =>
      match hthread : m.threads tid with
      | .inside place => decidable_of_iff (ok m.now m.shared place) (by simp [Meets, hthread])
      | .outside | .entering _ | .waiting _ => .isTrue (by simp [Meets, hthread])
  | .setClock _ | .call _ _ | .enter _ | .wake _ _ => .isTrue trivial

variable {program m}

@[simp]
theorem setThread_threads_self (thread : MonitorThread Place) :
    (m.setThread tid thread).threads tid = thread :=
  Function.update_self ..

@[simp]
theorem setThread_threads_of_ne (thread : MonitorThread Place) {other : Tid} (hne : other ≠ tid) :
    (m.setThread tid thread).threads other = m.threads other :=
  Function.update_of_ne hne ..

/-- The kinds of steps, with what each of them needs. -/
inductive StepKind (program : MonitorProgram Shared Place) (m : Monitor Tid Shared Place) :
    MonitorAction Tid Place → Monitor Tid Shared Place → Prop
  | setClock (time : ℤ) : StepKind program m (.setClock time) { m with now := time }
  | call {tid : Tid} {place : Place} (hout : m.threads tid = .outside)
      (hentry : program.IsEntry place = true) :
      StepKind program m (.call tid place) (m.setThread tid (.entering place))
  | enter {tid : Tid} {place : Place} (hthread : m.threads tid = .entering place)
      (hfree : m.owner = none) :
      StepKind program m (.enter tid) { m.setThread tid (.inside place) with owner := some tid }
  | run {tid : Tid} {place : Place} (hthread : m.threads tid = .inside place) :
      StepKind program m (.run tid) (m.move tid (program.run m.now m.shared place))
  | wake {tid : Tid} {place next : Place} {result : ℤ} (hthread : m.threads tid = .waiting place)
      (hwake : program.wake m.now place result = some next) :
      StepKind program m (.wake tid result) (m.setThread tid (.entering next))

theorem stepKind_of_step {m' : Monitor Tid Shared Place} {action : MonitorAction Tid Place}
    (hstep : m.step program action = some m') : StepKind program m action m' := by
  cases action with
  | setClock time =>
      cases hstep
      exact .setClock time
  | call tid place =>
      simp only [step] at hstep
      split at hstep
      case h_1 hout =>
        split at hstep <;> cases hstep
        exact .call hout ‹_›
      case h_2 => cases hstep
  | enter tid =>
      simp only [step] at hstep
      split at hstep
      case h_1 place hthread hfree =>
        cases hstep
        exact .enter hthread hfree
      case h_2 => cases hstep
  | run tid =>
      simp only [step] at hstep
      split at hstep
      case h_1 place hthread =>
        cases hstep
        exact .run hthread
      case h_2 => cases hstep
  | wake tid result =>
      simp only [step] at hstep
      split at hstep
      case h_1 place hthread =>
        obtain ⟨next, hwake, rfl⟩ := Option.map_eq_some_iff.mp hstep
        exact .wake hthread hwake
      case h_2 => cases hstep

/-- The assertions of a proof, and that the program keeps them. -/
structure Outline (program : MonitorProgram Shared Place) (IsStart : Shared → Prop)
    (ok : ℤ → Shared → Place → Prop) where
  /-- Of the data, when nobody is inside. -/
  free : Shared → Prop
  /-- Of the data, while a thread is inside at a place. -/
  held : Place → Shared → Prop
  /-- Of a thread's own variables, while it waits or is about to enter. -/
  outer : Place → Prop
  start : ∀ shared, IsStart shared → free shared
  entry : ∀ place, program.IsEntry place = true → outer place
  enter : ∀ place shared, outer place → free shared → held place shared
  go : ∀ now shared place shared' place', held place shared → ok now shared place →
    program.run now shared place = .go shared' place' → held place' shared'
  wait : ∀ now shared place place', held place shared →
    program.run now shared place = .wait place' → outer place' ∧ free shared
  leave : ∀ now shared place shared', held place shared →
    program.run now shared place = .leave shared' → free shared'
  wake : ∀ now place result place', outer place →
    program.wake now place result = some place' → outer place'

namespace Outline

variable {IsStart : Shared → Prop} {ok : ℤ → Shared → Place → Prop}
  (outline : Outline program IsStart ok)

/-- The assertions hold, and the owner of the mutex is the one thread inside. -/
structure Holds (m : Monitor Tid Shared Place) : Prop where
  exclusive : ∀ tid, m.owner = some tid ↔ ∃ place, m.threads tid = .inside place
  free : m.owner = none → outline.free m.shared
  held : ∀ tid place, m.threads tid = .inside place → outline.held place m.shared
  outer : ∀ tid place, (m.threads tid).outer = some place → outline.outer place

variable {outline}

omit [DecidableEq Tid] in
theorem holds_initial {now : ℤ} {shared : Shared} (hstart : IsStart shared) :
    outline.Holds (initial now shared : Monitor Tid Shared Place) where
  exclusive tid := by simp [initial]
  free _ := outline.start shared hstart
  held _ _ hinside := nomatch hinside
  outer _ _ houter := nomatch houter

/-- The threads outside the mutex after one thread has moved on. -/
theorem outer_setThread (thread : MonitorThread Place) (hholds : outline.Holds m)
    (houter : ∀ place, thread.outer = some place → outline.outer place) (other : Tid)
    (place : Place) (hplace : ((m.setThread tid thread).threads other).outer = some place) :
    outline.outer place := by
  by_cases hsame : other = tid
  · subst hsame
    rw [setThread_threads_self] at hplace
    exact houter place hplace
  · rw [setThread_threads_of_ne tid thread hsame] at hplace
    exact hholds.outer other place hplace

/-- A thread moves on outside the mutex. -/
theorem holds_setThread (thread : MonitorThread Place) (hholds : outline.Holds m)
    (hbefore : ∀ place, m.threads tid ≠ .inside place) (hafter : ∀ place, thread ≠ .inside place)
    (houter : ∀ place, thread.outer = some place → outline.outer place) :
    outline.Holds (m.setThread tid thread) where
  exclusive other := by
    refine (hholds.exclusive other).trans ?_
    by_cases hsame : other = tid
    · subst hsame
      simp [hbefore, hafter]
    · simp [hsame]
  free := hholds.free
  held other place hinside := by
    by_cases hsame : other = tid
    · subst hsame
      rw [setThread_threads_self] at hinside
      exact absurd hinside (hafter place)
    · rw [setThread_threads_of_ne tid thread hsame] at hinside
      exact hholds.held other place hinside
  outer := outer_setThread tid thread hholds houter

/-- A thread gets the mutex. -/
theorem holds_enter {place : Place} (hholds : outline.Holds m) (hfree : m.owner = none)
    (hthread : m.threads tid = .entering place) :
    outline.Holds { m.setThread tid (.inside place) with owner := some tid } := by
  have houter : outline.outer place := hholds.outer tid place (by rw [hthread]; rfl)
  have hnobody : ∀ other place, m.threads other ≠ .inside place := by
    intro other place hinside
    have howner := (hholds.exclusive other).mpr ⟨place, hinside⟩
    rw [hfree] at howner
    cases howner
  constructor
  case exclusive =>
    intro other
    by_cases hsame : other = tid
    · subst hsame
      simp
    · simp [hsame, Ne.symm hsame, hnobody]
  case free => exact fun hnone => nomatch hnone
  case held =>
    intro other place' hinside
    by_cases hsame : other = tid
    · subst hsame
      simp only [setThread_threads_self, MonitorThread.inside.injEq] at hinside
      exact hinside ▸ outline.enter place m.shared houter (hholds.free hfree)
    · simp only [setThread_threads_of_ne tid _ hsame] at hinside
      exact absurd hinside (hnobody other place')
  case outer => exact outer_setThread tid _ hholds fun _ houter => nomatch houter

omit [DecidableEq Tid] in
/-- The thread inside is the only one. -/
theorem Holds.only {place : Place} (hholds : outline.Holds m)
    (hthread : m.threads tid = .inside place) {other : Tid} (hne : other ≠ tid) (place' : Place) :
    m.threads other ≠ .inside place' := by
  intro hother
  have hfirst := (hholds.exclusive tid).mpr ⟨place, hthread⟩
  have hsecond := (hholds.exclusive other).mpr ⟨place', hother⟩
  exact hne (Option.some.inj (hsecond.symm.trans hfirst))

/-- The thread inside gives up the mutex. -/
theorem holds_exit {place : Place} {thread : MonitorThread Place} {shared : Shared}
    (hholds : outline.Holds m) (hthread : m.threads tid = .inside place)
    (hafter : ∀ place, thread ≠ .inside place)
    (houter : ∀ place, thread.outer = some place → outline.outer place)
    (hfree : outline.free shared) :
    outline.Holds { m.setThread tid thread with owner := none, shared := shared } := by
  have hnobody : ∀ other place, (m.setThread tid thread).threads other ≠ .inside place := by
    intro other place'
    by_cases hsame : other = tid
    · subst hsame
      simpa using hafter place'
    · simpa [hsame] using hholds.only tid hthread hsame place'
  constructor
  case exclusive => simp [hnobody]
  case free => exact fun _ => hfree
  case held => exact fun other place' hinside => absurd hinside (hnobody other place')
  case outer => exact outer_setThread tid thread hholds houter

/-- The thread inside goes on. -/
theorem holds_go {place place' : Place} {shared : Shared} (hholds : outline.Holds m)
    (hthread : m.threads tid = .inside place) (hheld : outline.held place' shared) :
    outline.Holds { m.setThread tid (.inside place') with shared := shared } := by
  have howner := (hholds.exclusive tid).mpr ⟨place, hthread⟩
  constructor
  case exclusive =>
    intro other
    refine (hholds.exclusive other).trans ?_
    by_cases hsame : other = tid
    · subst hsame
      simp [hthread]
    · simp [hsame]
  case free => exact fun hnone => nomatch howner.symm.trans hnone
  case held =>
    intro other place'' hinside
    by_cases hsame : other = tid
    · subst hsame
      simp only [setThread_threads_self, MonitorThread.inside.injEq] at hinside
      exact hinside ▸ hheld
    · simp only [setThread_threads_of_ne tid _ hsame] at hinside
      exact absurd hinside (hholds.only tid hthread hsame place'')
  case outer => exact outer_setThread tid _ hholds fun _ houter => nomatch houter

/-- One step keeps the assertions, if it meets the condition. -/
theorem holds_step {m' : Monitor Tid Shared Place} {action : MonitorAction Tid Place}
    (hholds : outline.Holds m) (hok : Meets ok m action)
    (hstep : m.step program action = some m') : outline.Holds m' := by
  cases stepKind_of_step hstep with
  | setClock time => exact ⟨hholds.exclusive, hholds.free, hholds.held, hholds.outer⟩
  | call hout hentry =>
      refine holds_setThread _ _ hholds (by simp [hout]) (by simp) fun _ houter => ?_
      cases houter
      exact outline.entry _ hentry
  | enter hthread hfree => exact holds_enter _ hholds hfree hthread
  | @run tid place hthread =>
      have hheld := hholds.held tid place hthread
      cases hmove : program.run m.now m.shared place with
      | go shared place' =>
          exact holds_go _ hholds hthread (outline.go _ _ _ _ _ hheld (hok place hthread) hmove)
      | wait place' =>
          obtain ⟨hwaiting, hfree⟩ := outline.wait _ _ _ _ hheld hmove
          refine holds_exit _ hholds hthread (by simp) (fun _ houter => ?_) hfree
          cases houter
          exact hwaiting
      | leave shared =>
          refine holds_exit _ hholds hthread (by simp) (fun _ houter => nomatch houter) ?_
          exact outline.leave _ _ _ _ hheld hmove
  | @wake tid place next result hthread hwake =>
      have hwaiting : outline.outer place := hholds.outer tid place (by rw [hthread]; rfl)
      refine holds_setThread _ _ hholds (by simp [hthread]) (by simp) fun _ houter => ?_
      cases houter
      exact outline.wake _ _ _ _ hwaiting hwake

variable (outline) in
/-- What an outline asserts holds in every state that a run reaches. -/
theorem sound (hreach : (system program IsStart).ReachableBy (Meets ok) m) : outline.Holds m := by
  refine hreach.invariant ?_ fun _ _ _ _ hholds hok hstep => holds_step hholds hok hstep
  rintro _ ⟨now, shared, hstart, rfl⟩
  exact holds_initial hstart

end Outline

end Monitor

end HauppaugeUSB.Concurrency

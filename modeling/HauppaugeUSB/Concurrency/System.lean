/-
# Guarded runs of a transition system

A program is given by its start states and a partial step function. What is
proved of it is proved of the states its runs reach, and many laws hold only of
runs that avoid certain steps. `ReachableBy` therefore carries a guard on steps:
a condition on the state before a step and on the step taken. `Reachable` is the
unguarded case, so every invariant of all runs is at hand inside a guarded run.

Runs given as a list of actions are executable; a concrete schedule is checked
by evaluation and turned into reachability by `exists_reachable_of_run`, and where
the guard is decidable `exists_reachableBy_of_runBy` checks it on the way.

Where no state but the wanted ones is without an action that leads to a state of lower rank,
a wanted state is never out of reach: going down is a schedule for it, and the rank bounds how
long the schedule is. The rule asks for one good action in each state and says nothing of the
others, so the schedule is one of many; what every run does is a matter of invariants.
Where every allowed action goes down, the rank bounds every schedule.
-/

import Mathlib.Data.Nat.Notation
import Mathlib.Tactic.TypeStar

namespace HauppaugeUSB.Concurrency

/-- A transition system: its start states and a partial step function. -/
structure System (State Action : Type*) where
  /-- The states in which a run may begin. -/
  IsStart : State → Prop
  /-- The state after an action, or `none` where the action is not enabled. -/
  step : State → Action → Option State

namespace System

variable {State Action : Type*} {S : System State Action}
  {ok ok' : State → Action → Prop} {P Q : State → Prop}

variable (S) in
/-- The states reached by runs each of whose steps meets the guard `ok`. -/
inductive ReachableBy (ok : State → Action → Prop) : State → Prop
  | start {state : State} : S.IsStart state → ReachableBy ok state
  | step {state next : State} {action : Action} :
      ReachableBy ok state → ok state action → S.step state action = some next →
      ReachableBy ok next

variable (S) in
/-- The states reached by any run. -/
def Reachable : State → Prop := S.ReachableBy fun _ _ => True

/-- Weakening the guard only adds runs. -/
theorem ReachableBy.mono (himp : ∀ state action, ok state action → ok' state action)
    {state : State} (hreach : S.ReachableBy ok state) : S.ReachableBy ok' state := by
  induction hreach with
  | start hstart => exact .start hstart
  | step _ hok hstep ih => exact .step ih (himp _ _ hok) hstep

/-- A guarded run is a run. -/
theorem ReachableBy.reachable {state : State} (hreach : S.ReachableBy ok state) :
    S.Reachable state :=
  hreach.mono fun _ _ _ => trivial

/-- The induction rule for invariants of guarded runs. The step premise may use
that the state before the step is reachable, which is how invariants of all runs
enter the proof of an invariant of the guarded ones. -/
theorem ReachableBy.invariant {state : State} (hreach : S.ReachableBy ok state)
    (hstart : ∀ state, S.IsStart state → P state)
    (hstep : ∀ state action next, S.ReachableBy ok state → P state → ok state action →
      S.step state action = some next → P next) : P state := by
  induction hreach with
  | start h => exact hstart _ h
  | step hprior hok hnext ih => exact hstep _ _ _ hprior ih hok hnext

/-- The same rule for all runs. -/
theorem Reachable.invariant {state : State} (hreach : S.Reachable state)
    (hstart : ∀ state, S.IsStart state → P state)
    (hstep : ∀ state action next, S.Reachable state → P state →
      S.step state action = some next → P next) : P state :=
  ReachableBy.invariant hreach hstart fun state action next hprior hP _ hnext =>
    hstep state action next hprior hP hnext

/-- A step of a run leads to a reachable state. -/
theorem Reachable.step {state next : State} {action : Action} (hreach : S.Reachable state)
    (hstep : S.step state action = some next) : S.Reachable next :=
  ReachableBy.step hreach trivial hstep

variable (S) in
/-- Run a list of actions, failing at the first one that is not enabled. -/
def run : State → List Action → Option State
  | state, [] => some state
  | state, action :: rest => (S.step state action).bind fun next => run next rest

theorem run_append_singleton {schedule : List Action} {action : Action} {state : State} :
    S.run state (schedule ++ [action]) =
      (S.run state schedule).bind fun next => S.step next action := by
  induction schedule generalizing state with
  | nil => simp [run]
  | cons first rest ih => simp [run, ih, Option.bind_assoc]

/-- A schedule is a guarded run if its actions meet the guard in every state with
a property that the schedule starts in and keeps. -/
theorem reachableBy_of_run {schedule : List Action} {state last : State}
    (hreach : S.ReachableBy ok state) (hstart : P state)
    (hkeep : ∀ state next, ∀ action ∈ schedule, P state → S.step state action = some next → P next)
    (hok : ∀ state, ∀ action ∈ schedule, P state → ok state action)
    (hrun : S.run state schedule = some last) : S.ReachableBy ok last ∧ P last := by
  induction schedule generalizing state with
  | nil =>
      rw [run, Option.some.injEq] at hrun
      exact hrun ▸ ⟨hreach, hstart⟩
  | cons action rest ih =>
      rw [run, Option.bind_eq_some_iff] at hrun
      obtain ⟨next, hstep, hrest⟩ := hrun
      have hhere := hok state action List.mem_cons_self hstart
      have hnext := hkeep state next action List.mem_cons_self hstart hstep
      refine ih (.step hreach hhere hstep) hnext (fun state next later hlater => ?_)
        (fun state later hlater => ?_) hrest
      · exact hkeep state next later (List.mem_cons_of_mem _ hlater)
      · exact hok state later (List.mem_cons_of_mem _ hlater)

/-- The state that a schedule reaches, with what `view` computes of it, when every
action meets the guard everywhere. -/
theorem exists_reachableBy_of_run {View : Type*} {view : State → View} {value : View}
    {schedule : List Action} {state : State} (hreach : S.ReachableBy ok state)
    (hok : ∀ state, ∀ action ∈ schedule, ok state action)
    (hrun : (S.run state schedule).map view = some value) :
    ∃ last, S.ReachableBy ok last ∧ view last = value := by
  obtain ⟨last, hlast, hvalue⟩ := Option.map_eq_some_iff.mp hrun
  have htrivial : ∀ state : State, (fun _ => True) state := fun _ => trivial
  have hreached := reachableBy_of_run hreach (htrivial state) (fun _ _ _ _ _ _ => trivial)
    (fun state action hmem _ => hok state action hmem) hlast
  exact ⟨last, hreached.1, hvalue⟩

/-- Every schedule that can be executed is a run. -/
theorem exists_reachable_of_run {View : Type*} {view : State → View} {value : View}
    {schedule : List Action} {state : State} (hreach : S.Reachable state)
    (hrun : (S.run state schedule).map view = some value) :
    ∃ last, S.Reachable last ∧ view last = value :=
  exists_reachableBy_of_run hreach (fun _ _ _ => trivial) hrun

variable (S) in
/-- Run a list of actions, failing also at the first one that does not meet the guard. -/
def runBy (ok : State → Action → Prop) [∀ state action, Decidable (ok state action)] :
    State → List Action → Option State
  | state, [] => some state
  | state, action :: rest =>
      if ok state action then (S.step state action).bind fun next => runBy ok next rest
      else none

/-- A schedule whose guards have been checked on the way is a guarded run. -/
theorem exists_reachableBy_of_runBy {View : Type*} {view : State → View} {value : View}
    [∀ state action, Decidable (ok state action)] {schedule : List Action} {state : State}
    (hreach : S.ReachableBy ok state)
    (hrun : (S.runBy ok state schedule).map view = some value) :
    ∃ last, S.ReachableBy ok last ∧ view last = value := by
  induction schedule generalizing state with
  | nil =>
      rw [runBy, Option.map_some, Option.some.injEq] at hrun
      exact ⟨state, hreach, hrun⟩
  | cons action rest ih =>
      rw [runBy] at hrun
      split at hrun
      case isTrue hok =>
        obtain ⟨last, hlast, hvalue⟩ := Option.map_eq_some_iff.mp hrun
        obtain ⟨next, hstep, hrest⟩ := Option.bind_eq_some_iff.mp hlast
        refine ih (.step hreach hok hstep) ?_
        rw [hrest, Option.map_some, hvalue]
      case isFalse => simp at hrun

section Rank

variable {allowed : Action → Prop}

/-- The ranking rule: states with a property `P` either are wanted or have an allowed action
that keeps the property and lowers the rank. -/
theorem exists_run_of_rank (rank : State → ℕ)
    (hnearer : ∀ state, P state → ¬ Q state → ∃ action next, allowed action ∧
      S.step state action = some next ∧ P next ∧ rank next < rank state)
    {state : State} (hstate : P state) :
    ∃ schedule last, (∀ action ∈ schedule, allowed action) ∧ schedule.length ≤ rank state ∧
      S.run state schedule = some last ∧ P last ∧ Q last := by
  induction hrank : rank state using Nat.strongRecOn generalizing state with
  | ind bound ih =>
      subst hrank
      by_cases hwanted : Q state
      · exact ⟨[], state, by simp, Nat.zero_le _, rfl, hstate, hwanted⟩
      obtain ⟨action, next, hallowed, hstep, hnext, hlower⟩ := hnearer state hstate hwanted
      obtain ⟨schedule, last, hall, hlength, hrun, hlast⟩ := ih _ hlower hnext rfl
      refine ⟨action :: schedule, last, ?_, ?_, ?_, hlast⟩
      · simpa using ⟨hallowed, hall⟩
      · rw [List.length_cons]
        omega
      · rw [run, hstep, Option.bind_some, hrun]

/-- Where every allowed action lowers the rank, a schedule of them is no longer than what it
goes down. -/
theorem length_add_rank_le (rank : State → ℕ)
    (hlower : ∀ state action next, P state → allowed action → S.step state action = some next →
      P next ∧ rank next < rank state)
    {schedule : List Action} {state last : State} (hstate : P state)
    (hall : ∀ action ∈ schedule, allowed action) (hrun : S.run state schedule = some last) :
    schedule.length + rank last ≤ rank state ∧ P last := by
  induction schedule generalizing state with
  | nil =>
      rw [run, Option.some.injEq] at hrun
      subst hrun
      exact ⟨by simp, hstate⟩
  | cons action rest ih =>
      obtain ⟨next, hstep, hrest⟩ := Option.bind_eq_some_iff.mp hrun
      obtain ⟨hnext, hless⟩ :=
        hlower state action next hstate (hall action List.mem_cons_self) hstep
      obtain ⟨hlength, hlast⟩ :=
        ih hnext (fun later hlater => hall later (List.mem_cons_of_mem action hlater)) hrest
      refine ⟨?_, hlast⟩
      rw [List.length_cons]
      omega

end Rank

end System

end HauppaugeUSB.Concurrency

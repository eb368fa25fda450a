/-
# Observed runs and simulations

Some laws speak of what has happened and not of the state alone: how much was
written since a certain reply, which answer a call gave. An observer keeps such a
memory beside the state of a system. It reads every step and changes none, so the
observed system has the runs of the system it observes, each with its memory.

What has happened may itself be a run, of a simpler system whose steps are whole
operations, each of which takes effect at one moment. A program is simulated by it
if every step of the program is matched by operations, mostly by one or none, that
lead from what the state before looks like to what the state after looks like. Then
what holds of all runs of the simple system holds of the program as it looks.
-/

import HauppaugeUSB.Concurrency.System

namespace HauppaugeUSB.Concurrency

/-- A memory that follows the steps of a system. -/
structure Observer (State Action Memory : Type*) where
  /-- What is remembered before the first step. -/
  start : Memory
  /-- What is remembered after a step from one state to another. -/
  note : Memory → State → Action → State → Memory

namespace System

variable {State Action Memory : Type*}

/-- The system with its observer's memory. -/
def observed (S : System State Action) (O : Observer State Action Memory) :
    System (State × Memory) Action where
  IsStart seen := S.IsStart seen.1 ∧ seen.2 = O.start
  step seen action :=
    (S.step seen.1 action).map fun next => (next, O.note seen.2 seen.1 action next)

variable {S : System State Action} {O : Observer State Action Memory}
  {ok : State → Action → Prop} {okSeen : State × Memory → Action → Prop}
  {P : State × Memory → Prop}

/-- An observed step is a step, noted. -/
theorem observed_step_iff {seen seen' : State × Memory} {action : Action} :
    (S.observed O).step seen action = some seen' ↔
      S.step seen.1 action = some seen'.1 ∧ seen'.2 = O.note seen.2 seen.1 action seen'.1 := by
  simp only [observed, Option.map_eq_some_iff]
  constructor
  · rintro ⟨next, hstep, rfl⟩
    exact ⟨hstep, rfl⟩
  · rintro ⟨hstep, hnote⟩
    exact ⟨seen'.1, hstep, by rw [← hnote]⟩

/-- Forgetting the memory leaves a run of the system. -/
theorem ReachableBy.unobserved {seen : State × Memory}
    (hok : ∀ seen action, okSeen seen action → ok seen.1 action)
    (hreach : (S.observed O).ReachableBy okSeen seen) : S.ReachableBy ok seen.1 := by
  induction hreach with
  | start hstart => exact .start hstart.1
  | step _ hhere hstep ih => exact .step ih (hok _ _ hhere) (observed_step_iff.mp hstep).1

/-- An observed run is a run. -/
theorem ReachableBy.reachable_fst {seen : State × Memory}
    (hreach : (S.observed O).ReachableBy okSeen seen) : S.Reachable seen.1 :=
  hreach.unobserved fun _ _ _ => trivial

/-- Every run is observed. -/
theorem ReachableBy.exists_observed {state : State} (hreach : S.ReachableBy ok state) :
    ∃ memory, (S.observed O).ReachableBy (fun seen action => ok seen.1 action) (state, memory) := by
  induction hreach with
  | start hstart => exact ⟨O.start, .start ⟨hstart, rfl⟩⟩
  | @step state next action _ hok hstep ih =>
      obtain ⟨memory, hseen⟩ := ih
      have hnoted : (S.observed O).step (state, memory) action =
          some (next, O.note memory state action next) := observed_step_iff.mpr ⟨hstep, rfl⟩
      exact ⟨O.note memory state action next, .step hseen hok hnoted⟩

/-- The induction rule for laws of states and memories. -/
theorem ReachableBy.observed_invariant {seen : State × Memory}
    (hreach : (S.observed O).ReachableBy okSeen seen)
    (hstart : ∀ state, S.IsStart state → P (state, O.start))
    (hstep : ∀ state memory action next, S.Reachable state → P (state, memory) →
      okSeen (state, memory) action → S.step state action = some next →
      P (next, O.note memory state action next)) : P seen := by
  refine hreach.invariant ?_ fun before action after hprior hlaw hok hnext => ?_
  · rintro ⟨state, memory⟩ ⟨hstate, rfl⟩
    exact hstart state hstate
  · obtain ⟨hbase, hnote⟩ := observed_step_iff.mp hnext
    have hafter := hstep before.1 before.2 action after.1 hprior.reachable_fst hlaw hok hbase
    rwa [← hnote] at hafter

end System

section

variable {State Action Abstract Operation : Type*}

namespace System

variable {A : System Abstract Operation} {state : Abstract} {operation : Operation}

/-- Running one list of operations after another. -/
theorem run_append (first rest : List Operation) :
    A.run state (first ++ rest) = (A.run state first).bind fun next => A.run next rest := by
  induction first generalizing state with
  | nil => rfl
  | cons operation first ih =>
      rw [List.cons_append, run, run, Option.bind_assoc]
      exact congrArg _ (funext fun next => ih)

theorem run_singleton : A.run state [operation] = A.step state operation := by
  simp [run]

end System

/-- A system is simulated by another one: its states look like states of the other, and its
steps are matched by operations of it. -/
structure Simulation (S : System State Action) (A : System Abstract Operation) where
  /-- What a state looks like. -/
  view : State → Abstract
  /-- The operations that match a step. -/
  operations : State → Action → State → List Operation
  start : ∀ state, S.IsStart state → A.IsStart (view state)
  step : ∀ state action next, S.Reachable state → S.step state action = some next →
    A.run (view state) (operations state action next) = some (view next)

namespace Simulation

variable {S : System State Action} {A : System Abstract Operation}

/-- The operations of a run so far. -/
def observer (sim : Simulation S A) : Observer State Action (List Operation) where
  start := []
  note operations state action next := operations ++ sim.operations state action next

variable (sim : Simulation S A)

/-- The operations of a run are a run of the simple system, which ends in what the state that is
reached looks like. -/
theorem exists_run {seen : State × List Operation}
    (hreach : (S.observed sim.observer).Reachable seen) :
    ∃ first, A.IsStart first ∧ A.run first seen.2 = some (sim.view seen.1) := by
  refine hreach.observed_invariant (P := fun seen =>
    ∃ first, A.IsStart first ∧ A.run first seen.2 = some (sim.view seen.1)) ?_ ?_
  · exact fun state hstart => ⟨sim.view state, sim.start state hstart, rfl⟩
  · rintro state operations action next hprior ⟨first, hfirst, hrun⟩ - hstep
    refine ⟨first, hfirst, ?_⟩
    rw [observer, System.run_append, hrun]
    exact sim.step state action next hprior hstep

end Simulation

end

end HauppaugeUSB.Concurrency

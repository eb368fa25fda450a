/-
# Programs that give up

A program works on a state and gives a value, or gives up on the way. What it has done to
the state by then stays done. `Meets` says what holds after a program that is started in
a state with a property: one thing where it gives a value, another where it gives up. Its
rules follow the program, so that a long one is verified stage by stage.

Its loops are bounded retries. A loop `for (idx = 0; idx < limit; ++idx)` that leaves by
`break` at the first index it accepts has succeeded if `idx` is below the limit
afterwards, and has run out of tries if it is at the limit.
-/

import Mathlib.Data.Nat.Notation
import Mathlib.Tactic.TypeStar

namespace HauppaugeUSB.Control

universe u v

/-- A program: from a state, its value unless it gives up, and the state it leaves. -/
def Stage (State : Type u) (Value : Type v) : Type (max u v) := State → Option Value × State

namespace Stage

variable {State : Type u} {Value Value' : Type v} {state : State}

instance : Monad (Stage State) where
  pure value := fun state => (some value, state)
  bind stage next := fun state =>
    match stage state with
    | (some value, later) => next value later
    | (none, later) => (none, later)

/-- Give up. -/
def fail : Stage State Value := fun state => (none, state)

/-- Work on the state. -/
def update (f : State → State) : Stage State PUnit := fun state => (some .unit, f state)

/-- Look at the state. -/
def read {State : Type v} : Stage State State := fun state => (some state, state)

/-- A program has not given up. -/
def returnsTrue (stage : Stage State Value) (state : State) : Bool := (stage state).1.isSome

/-- From a state with the property `P` a program leads to `Q` with its value, or gives up
in `E`. -/
def Meets (P : State → Prop) (stage : Stage State Value) (Q : Value → State → Prop)
    (E : State → Prop) : Prop :=
  ∀ state, P state →
    match stage state with
    | (some value, later) => Q value later
    | (none, later) => E later

variable {P P' : State → Prop} {Q : Value → State → Prop} {Q' : Value' → State → Prop}
  {E E' : State → Prop} {stage : Stage State Value} {next : Value → Stage State Value'}

theorem Meets.some {value : Value} {later : State} (hmeets : Meets P stage Q E)
    (hstate : P state) (hrun : stage state = (some value, later)) : Q value later := by
  have hpost := hmeets state hstate
  rwa [hrun] at hpost

theorem Meets.none {later : State} (hmeets : Meets P stage Q E) (hstate : P state)
    (hrun : stage state = (none, later)) : E later := by
  have hpost := hmeets state hstate
  rwa [hrun] at hpost

/-- What holds after a program that has given up. -/
theorem Meets.failed (hmeets : Meets P stage Q E) (hstate : P state)
    (hfailed : stage.returnsTrue state = false) : E (stage state).2 := by
  cases hrun : stage state with
  | mk value later =>
      cases value with
      | none => exact hmeets.none hstate hrun
      | some value => simp [returnsTrue, hrun] at hfailed

/-- What holds after one that has not. -/
theorem Meets.succeeded (hmeets : Meets P stage Q E) (hstate : P state)
    (htrue : stage.returnsTrue state = true) : ∃ value, Q value (stage state).2 := by
  obtain ⟨value, hvalue⟩ := Option.isSome_iff_exists.mp htrue
  exact ⟨value, hmeets.some hstate (Prod.ext hvalue rfl)⟩

/-- What holds after a program whether or not it gives up. -/
theorem Meets.leaves (hmeets : Meets P stage (fun _ => E) E) (hstate : P state) :
    E (stage state).2 := by
  cases hrun : stage state with
  | mk value later =>
      cases value with
      | none => exact hmeets.none hstate hrun
      | some value => exact hmeets.some hstate hrun

/-- A program may be started in less and promise less. -/
theorem Meets.weaken {R : Value → State → Prop} (hmeets : Meets P stage Q E)
    (hpre : ∀ state, P' state → P state) (hpost : ∀ value state, Q value state → R value state)
    (hfail : ∀ state, E state → E' state) : Meets P' stage R E' := by
  intro state hstate
  have hhere := hmeets state (hpre state hstate)
  split <;> rename_i hrun <;> rw [hrun] at hhere
  · exact hpost _ _ hhere
  · exact hfail _ hhere

theorem Meets.pure {value : Value} (hpost : ∀ state, P state → Q value state) :
    Meets P (pure value) Q E :=
  hpost

theorem Meets.fail (hfail : ∀ state, P state → E state) : Meets P fail Q E := hfail

theorem Meets.update {R : PUnit → State → Prop} {f : State → State}
    (hpost : ∀ state, P state → R .unit (f state)) : Meets P (update f) R E :=
  hpost

theorem Meets.read {State : Type v} {P : State → Prop} {R : State → State → Prop}
    {E : State → Prop} (hpost : ∀ state, P state → R state state) : Meets P read R E :=
  hpost

/-- One program after another. -/
theorem Meets.bind (hstage : Meets P stage Q E)
    (hnext : ∀ value, Meets (Q value) (next value) Q' E) : Meets P (stage >>= next) Q' E := by
  intro state hstate
  have hfirst := hstage state hstate
  show match (match stage state with
    | (.some value, later) => next value later
    | (.none, later) => (.none, later)) with
    | (.some value, later) => Q' value later
    | (.none, later) => E later
  cases hrun : stage state with
  | mk value later =>
      rw [hrun] at hfirst
      cases value with
      | none => exact hfirst
      | some value => exact hnext value later hfirst

/-- The last of what is done before giving up. -/
theorem Meets.update_fail {f : State → State} (hfail : ∀ state, P state → E (f state)) :
    Meets P (Stage.update f >>= fun _ => Stage.fail) Q E :=
  hfail

/-- A fact that does not change is at hand from where it has been found out. -/
theorem Meets.of_and {fact : Prop} (hmeets : fact → Meets P stage Q E) :
    Meets (fun state => P state ∧ fact) stage Q E :=
  fun state hstate => hmeets hstate.2 state hstate.1

/-- A case distinction. -/
theorem Meets.ite {condition : Prop} [Decidable condition] {other : Stage State Value}
    (htrue : condition → Meets P stage Q E) (hfalse : ¬ condition → Meets P other Q E) :
    Meets P (if condition then stage else other) Q E := by
  split
  case isTrue h => exact htrue h
  case isFalse h => exact hfalse h

end Stage

section Traces

variable {State : Type u} {Event : Type v} {trace : State → List Event} {before state later : State}
  {events : List Event} {R R' : List Event → Prop} {E : State → Prop}

/-- The trace has grown by events with a property. -/
def Extends (trace : State → List Event) (before : State) (R : List Event → Prop)
    (state : State) : Prop :=
  ∃ events, trace state = trace before ++ events ∧ R events

namespace Extends

theorem refl (hR : R []) : Extends trace state R state := ⟨[], by simp, hR⟩

theorem imp (hstate : Extends trace before R state) (himp : ∀ events, R events → R' events) :
    Extends trace before R' state := by
  obtain ⟨events, htrace, hR⟩ := hstate
  exact ⟨events, htrace, himp events hR⟩

/-- It grows by further events. -/
theorem append (hstate : Extends trace before R state)
    (htrace : trace later = trace state ++ events)
    (hevents : ∀ earlier, R earlier → R' (earlier ++ events)) :
    Extends trace before R' later := by
  obtain ⟨earlier, hearlier, hR⟩ := hstate
  exact ⟨earlier ++ events, by rw [htrace, hearlier, List.append_assoc], hevents earlier hR⟩

/-- A program that makes a trace grow. -/
theorem meets_update {f : State → State} (htrace : ∀ state, trace (f state) = trace state ++ events)
    (hevents : ∀ earlier, R earlier → R' (earlier ++ events)) :
    Stage.Meets (Extends trace before R) (.update f) (fun _ => Extends trace before R') E :=
  .update fun state hstate => hstate.append (htrace state) hevents

end Extends

end Traces

section

/-- The index of such a loop when it ends, with `left` tries left at `idx`. -/
def stopsFrom (accepts : ℕ → Bool) : ℕ → ℕ → ℕ
  | 0, idx => idx
  | left + 1, idx => if accepts idx then idx else stopsFrom accepts left (idx + 1)

/-- The index of such a loop when it ends. -/
def stopsAt (accepts : ℕ → Bool) (limit : ℕ) : ℕ := stopsFrom accepts limit 0

variable {accepts : ℕ → Bool} {limit left idx : ℕ}

theorem accepts_stopsFrom (hstops : stopsFrom accepts left idx ≠ idx + left) :
    accepts (stopsFrom accepts left idx) = true := by
  induction left generalizing idx with
  | zero => exact absurd rfl hstops
  | succ left ih =>
      rw [stopsFrom] at hstops ⊢
      split at hstops
      case isTrue haccepts => rwa [if_pos haccepts]
      case isFalse haccepts =>
        rw [if_neg haccepts]
        apply ih
        omega

/-- A loop that has not run out of tries has stopped at an index it accepts. -/
theorem accepts_stopsAt (hstops : stopsAt accepts limit ≠ limit) :
    accepts (stopsAt accepts limit) = true := by
  apply accepts_stopsFrom
  rwa [Nat.zero_add]

/-- What such a loop has asked: every index up to the one it stopped at. -/
def asked {Event : Type*} (ask : ℕ → Event) (accepts : ℕ → Bool) (limit : ℕ) : List Event :=
  (List.range (min (stopsAt accepts limit + 1) limit)).map ask

theorem stopsFrom_le : stopsFrom accepts left idx ≤ idx + left := by
  induction left generalizing idx with
  | zero => exact Nat.le_refl _
  | succ left ih =>
      rw [stopsFrom]
      split
      case isTrue => omega
      case isFalse =>
        have hrest : stopsFrom accepts left (idx + 1) ≤ idx + 1 + left := ih
        omega

/-- The last thing that is asked in a loop that has not run out of tries. -/
theorem ask_mem_asked {Event : Type*} (ask : ℕ → Event) (hstops : stopsAt accepts limit ≠ limit) :
    ask (stopsAt accepts limit) ∈ asked ask accepts limit := by
  have hle : stopsAt accepts limit ≤ 0 + limit := stopsFrom_le
  refine List.mem_map_of_mem (List.mem_range.mpr ?_)
  omega

/-- A loop that may be entered asks something last. -/
theorem exists_asked_eq {Event : Type*} (ask : ℕ → Event) (accepts : ℕ → Bool)
    (hlimit : 0 < limit) :
    ∃ earlier idx, asked ask accepts limit = earlier ++ [ask idx] := by
  obtain ⟨count, hcount⟩ : ∃ count, min (stopsAt accepts limit + 1) limit = count + 1 :=
    ⟨min (stopsAt accepts limit + 1) limit - 1, by omega⟩
  exact ⟨_, count, by rw [asked, hcount, List.range_succ, List.map_append, List.map_singleton]⟩

/-- What holds of everything that may be asked. -/
theorem forall_mem_asked {Event : Type*} {P : Event → Prop} {ask : ℕ → Event}
    (hask : ∀ idx, P (ask idx)) : ∀ event ∈ asked ask accepts limit, P event := by
  intro event hevent
  obtain ⟨idx, -, rfl⟩ := List.mem_map.mp hevent
  exact hask idx

end

end HauppaugeUSB.Control

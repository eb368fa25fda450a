/-
# Lifetimes

Objects are created and deleted, and while they exist they refer to something that they
share. A history says when an object is created or deleted and when what they share is
released. The law is that nothing is left at a release: every object that has been
created by then has been deleted, and none of them twice.

Who keeps track of which objects exist has an account of the history: each object has
been created as often as it has been deleted, and once more if it exists. A release is
then in order exactly when the account is empty.
-/

import HauppaugeUSB.Streams.Search
import Mathlib.Data.List.Count

namespace HauppaugeUSB.Streams

/-- What happens to the objects, and to what they share. -/
inductive LifeEvent (Object : Type*)
  | create (object : Object)
  | delete (object : Object)
  | release
  deriving DecidableEq

variable {Object : Type*} [DecidableEq Object] {life events : List (LifeEvent Object)}
  {event : LifeEvent Object} {present : Object → Bool}

/-- Every object that has been created has been deleted, as often as it was created. -/
def AllDeleted (life : List (LifeEvent Object)) : Prop :=
  ∀ object, life.count (.create object) = life.count (.delete object)

/-- Nothing is left at a release. -/
def TornDown (life : List (LifeEvent Object)) : Prop :=
  ∀ prior event, prior ++ [event] <+: life → event = .release → AllDeleted prior

theorem tornDown_nil : TornDown ([] : List (LifeEvent Object)) := by
  intro prior event hbegins
  simp at hbegins

theorem tornDown_append_singleton :
    TornDown (life ++ [event]) ↔ TornDown life ∧ (event = .release → AllDeleted life) :=
  forall_points_append_singleton

/-- What has been left at a release has been left. -/
theorem TornDown.of_append (htorn : TornDown (life ++ events)) : TornDown life :=
  fun prior event hbegins => htorn prior event (hbegins.trans (List.prefix_append life events))

/-- Between releases anything may happen. -/
theorem tornDown_append (hevents : .release ∉ events) :
    TornDown (life ++ events) ↔ TornDown life := by
  induction events using List.reverseRecOn with
  | nil => rw [List.append_nil]
  | append_singleton earlier last ih =>
      rw [List.mem_append, List.mem_singleton, not_or] at hevents
      rw [← List.append_assoc, tornDown_append_singleton, ih hevents.1]
      exact and_iff_left fun hlast => absurd hlast.symm hevents.2

/-- Each object has been created once more than it has been deleted if it exists, and as
often otherwise. -/
def Accounts (life : List (LifeEvent Object)) (present : Object → Bool) : Prop :=
  ∀ object, life.count (.create object) =
    life.count (.delete object) + if present object then 1 else 0

theorem accounts_nil : Accounts ([] : List (LifeEvent Object)) fun _ => false := fun _ => rfl

/-- A release is in order if and only if no object exists. -/
theorem Accounts.allDeleted_iff (haccounts : Accounts life present) :
    AllDeleted life ↔ ∀ object, present object = false := by
  refine forall_congr' fun object => ?_
  rw [haccounts object]
  cases present object <;> simp

/-- Objects that did not exist are created, each of them once. -/
theorem Accounts.create {created : List Object} (haccounts : Accounts life fun _ => false)
    (honce : created.Nodup) :
    Accounts (life ++ created.map .create) fun object => decide (object ∈ created) := by
  intro object
  have hbefore := haccounts object
  have hcreated : (created.map LifeEvent.create).count (.create object) = created.count object :=
    List.count_map_of_injective _ _ (fun _ _ h => LifeEvent.create.inj h) _
  have hdeleted : (created.map LifeEvent.create).count (.delete object) = 0 :=
    List.count_eq_zero.mpr (by simp)
  rw [List.count_append, List.count_append, hcreated, hdeleted, hbefore, honce.count]
  simp

/-- All objects that exist are deleted, each of them once. -/
theorem Accounts.delete {deleted : List Object} (haccounts : Accounts life present)
    (honce : deleted.Nodup) (hall : ∀ object, object ∈ deleted ↔ present object = true) :
    Accounts (life ++ deleted.map .delete) fun _ => false := by
  intro object
  have hbefore := haccounts object
  have hcreated : (deleted.map LifeEvent.delete).count (.create object) = 0 :=
    List.count_eq_zero.mpr (by simp)
  have hdeleted : (deleted.map LifeEvent.delete).count (.delete object) = deleted.count object :=
    List.count_map_of_injective _ _ (fun _ _ h => LifeEvent.delete.inj h) _
  rw [List.count_append, List.count_append, hcreated, hdeleted, hbefore, honce.count]
  by_cases hmem : object ∈ deleted
  · simp [(hall object).mp hmem, hmem]
  · have hnone : present object = false := by simpa [hall object] using hmem
    simp [hnone, hmem]

theorem Accounts.release (haccounts : Accounts life present) :
    Accounts (life ++ [.release]) present := by
  intro object
  simpa [List.count_append] using haccounts object

end HauppaugeUSB.Streams

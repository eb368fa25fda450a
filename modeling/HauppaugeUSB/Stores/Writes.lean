/-
# First and last writes

A store maps keys to values. It is loaded as a whole and written key by key, and there
are two ways to write: `assign` replaces what the key has, `insertNew` keeps it. The law
of a store is that a key has its latest write; `assign` obeys it always. What is
determined here is when `insertNew` does: as long as no write meets a key that has
another value.

A setting that is switched on when it is asked for and never off again is a latch. It is
as it was last asked to be exactly as long as nobody who does not want it comes after
somebody who did.
-/

import HauppaugeUSB.Streams.Search
import Mathlib.Data.List.Infix

namespace HauppaugeUSB.Stores

variable {Key Value : Type*} {store : Key → Option Value} {key other : Key} {value : Value}

section Writes

variable [DecidableEq Key]

/-- Write a key, whatever it has. -/
def assign (store : Key → Option Value) (key : Key) (value : Value) : Key → Option Value :=
  fun other => if other = key then some value else store other

/-- Write a key that has no value. -/
def insertNew (store : Key → Option Value) (key : Key) (value : Value) : Key → Option Value :=
  if (store key).isSome then store else assign store key value

@[simp]
theorem assign_self : assign store key value key = some value := if_pos rfl

@[simp]
theorem assign_of_ne (hother : other ≠ key) : assign store key value other = store other :=
  if_neg hother

theorem insertNew_of_none (hnone : store key = none) :
    insertNew store key value = assign store key value := by
  simp [insertNew, hnone]

theorem insertNew_of_some {old : Value} (hold : store key = some old) :
    insertNew store key value = store := by
  simp [insertNew, hold]

theorem insertNew_of_ne (hother : other ≠ key) : insertNew store key value other = store other := by
  cases hold : store key with
  | none => rw [insertNew_of_none hold, assign_of_ne hother]
  | some old => rw [insertNew_of_some hold]

/-- A write that may keep what is there does as it is told only where nothing else is
there. -/
theorem insertNew_eq_assign_iff :
    insertNew store key value = assign store key value ↔
      store key = none ∨ store key = some value := by
  cases hold : store key with
  | none => simp [insertNew_of_none hold]
  | some old =>
      rw [insertNew_of_some hold]
      constructor
      · intro hsame
        right
        calc some old = store key := hold.symm
          _ = assign store key value key := by rw [← hsame]
          _ = some value := assign_self
      · intro hvalue
        funext other
        by_cases hother : other = key
        · rw [hother, assign_self, hold]
          simpa using hvalue
        · rw [assign_of_ne hother]

end Writes

/-- An access to a store. -/
inductive Access (Key Value : Type*)
  /-- The store is replaced, or the attempt fails. -/
  | load (contents : Option (Key → Option Value))
  | write (key : Key) (value : Value)
  | read (key : Key)

/-- A way to write a key. -/
abbrev Put (Key Value : Type*) := (Key → Option Value) → Key → Value → Key → Option Value

/-- The store after an access. -/
def accessed (put : Put Key Value) (store : Key → Option Value) :
    Access Key Value → Key → Option Value
  | .load contents => contents.getD store
  | .write key value => put store key value
  | .read _ => store

/-- The store after a run. -/
def stored (put : Put Key Value) (start : Key → Option Value) (run : List (Access Key Value)) :
    Key → Option Value :=
  run.foldl (accessed put) start

variable {put put' : Put Key Value} {start : Key → Option Value} {run : List (Access Key Value)}

@[simp]
theorem stored_append_singleton {access : Access Key Value} :
    stored put start (run ++ [access]) = accessed put (stored put start run) access := by
  simp [stored]

variable [DecidableEq Key]

/-- The latest value of a key, where the latest access comes first: that of its latest
write since the latest load, or else the one that was loaded. -/
def latest (start : Key → Option Value) : List (Access Key Value) → Key → Option Value
  | [], key => start key
  | .load (some contents) :: _, key => contents key
  | .load none :: earlier, key => latest start earlier key
  | .write written value :: earlier, key =>
      if key = written then some value else latest start earlier key
  | .read _ :: earlier, key => latest start earlier key

/-- Assignment obeys the law. -/
theorem stored_assign_eq_latest : stored assign start run = latest start run.reverse := by
  induction run using List.reverseRecOn with
  | nil => rfl
  | append_singleton earlier access ih =>
      rw [stored_append_singleton, ih, List.reverse_append]
      cases access with
      | load contents => cases contents <;> rfl
      | write written value => rfl
      | read key => rfl

/-- An access does not write over another value. -/
def KeepsValue (store : Key → Option Value) : Access Key Value → Prop
  | .write key value => store key = none ∨ store key = some value
  | _ => True

omit [DecidableEq Key] in
/-- Two runs agree at every point exactly when every single access does. -/
theorem stored_agree_iff :
    (∀ prior, prior <+: run → stored put start prior = stored put' start prior) ↔
      ∀ prior access, prior ++ [access] <+: run →
        accessed put (stored put' start prior) access =
          accessed put' (stored put' start prior) access := by
  constructor
  · intro hagree prior access hbegins
    have hprior := hagree prior ((List.prefix_append _ _).trans hbegins)
    have hnext := hagree _ hbegins
    rwa [stored_append_singleton, stored_append_singleton, hprior] at hnext
  · intro hsteps prior
    induction prior using List.reverseRecOn with
    | nil => intro _; rfl
    | append_singleton earlier access ih =>
        intro hbegins
        have hearlier := ih ((List.prefix_append _ _).trans hbegins)
        rw [stored_append_singleton, stored_append_singleton, hearlier]
        exact hsteps earlier access hbegins

theorem accessed_insertNew_eq_iff {access : Access Key Value} :
    accessed insertNew store access = accessed assign store access ↔ KeepsValue store access := by
  cases access with
  | load contents => simp [accessed, KeepsValue]
  | write key value => exact insertNew_eq_assign_iff
  | read key => simp [accessed, KeepsValue]

/-- A store whose writes keep what is there obeys the law at every point of a run exactly
when no access of the run writes over another value. -/
theorem stored_insertNew_eq_latest_iff :
    (∀ prior, prior <+: run → stored insertNew start prior = latest start prior.reverse) ↔
      ∀ prior access, prior ++ [access] <+: run →
        KeepsValue (latest start prior.reverse) access := by
  simp only [← stored_assign_eq_latest, ← accessed_insertNew_eq_iff]
  exact stored_agree_iff

/-- The access replaces the store. -/
def Access.loads : Access Key Value → Bool
  | .load (some _) => true
  | _ => false

/-- What the access writes to a key. -/
def Access.writes (key : Key) : Access Key Value → Option Value
  | .write written value => if written = key then some value else none
  | _ => none

/-- Where writes keep what is there, a key has its first write as long as nothing is loaded. -/
theorem stored_insertNew_eq_first (hrun : ∀ access ∈ run, access.loads = false) :
    stored insertNew start run key = (start key).or (run.findSome? (Access.writes key)) := by
  induction run using List.reverseRecOn with
  | nil => simp [stored]
  | append_singleton earlier access ih =>
      have hearlier := ih fun other hother => hrun other (List.mem_append_left _ hother)
      have haccess := hrun access (List.mem_append_right _ (List.mem_singleton_self _))
      rw [stored_append_singleton, List.findSome?_append, ← Option.or_assoc, ← hearlier]
      cases access with
      | load contents =>
          cases contents with
          | none => simp [accessed, Access.writes]
          | some contents => cases haccess
      | read other => simp [accessed, Access.writes]
      | write written value =>
          by_cases hsame : written = key
          · subst hsame
            cases hold : stored insertNew start earlier written with
            | none => simp [accessed, Access.writes, hold, insertNew_of_none]
            | some old => simp [accessed, hold, insertNew_of_some hold]
          · have hother : accessed insertNew (stored insertNew start earlier) (.write written value)
                key = stored insertNew start earlier key := insertNew_of_ne (Ne.symm hsame)
            rw [hother]
            simp [Access.writes, hsame]

section Latches

open HauppaugeUSB.Streams

variable {flags : List Bool}

/-- Whether a latch is on after a list of requests. -/
def latched (flags : List Bool) : Bool := flags.any id

@[simp]
theorem latched_nil : latched [] = false := rfl

@[simp]
theorem latched_append_singleton {flag : Bool} :
    latched (flags ++ [flag]) = (latched flags || flag) := by
  simp [latched]

/-- A latch is as it was asked to be at every point exactly when no request to have it off
comes after one to have it on. -/
theorem latched_follows_iff :
    (∀ prior flag, prior ++ [flag] <+: flags → latched (prior ++ [flag]) = flag) ↔
      flags.Pairwise fun earlier later => earlier = true → later = true := by
  induction flags using List.reverseRecOn with
  | nil => simp
  | append_singleton earlier flag ih =>
      rw [forall_points_append_singleton, ih, List.pairwise_append, latched_append_singleton]
      have hlast : (latched earlier || flag) = flag ↔
          ∀ one ∈ earlier, one = true → flag = true := by
        cases flag <;> simp [latched]
      simp [hlast]

end Latches

end HauppaugeUSB.Stores

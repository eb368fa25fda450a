/-
# Who frees a transfer

`USBWrapper_t::bulkReadAsync` allocates a transfer and hands it to libusb with the flag
`LIBUSB_TRANSFER_FREE_TRANSFER`, on which libusb frees it after its callback. Submitting a
transfer hands it over. Where that fails, the flag has no effect and the transfer is still
the caller's, who returns without it.

Any number of callers may be in `bulkReadAsync` at the same time. Transfers are numbered in
the order of their allocation.
-/

import HauppaugeUSB.Concurrency.System
import HauppaugeUSB.Concurrency.Tokens
import Mathlib.Data.Int.Notation

namespace HauppaugeUSB.Wrappers

open HauppaugeUSB.Concurrency

/-- Where a caller is: not in `bulkReadAsync`, or before one of its calls. -/
inductive ReadPoint
  | outside
  | handle
  | alloc
  | fill (transfer : ℕ)
  | submit (transfer : ℕ)
  deriving DecidableEq

/-- The transfer that a caller has in its hands. -/
def ReadPoint.transfer : ReadPoint → Option ℕ
  | .fill transfer | .submit transfer => some transfer
  | _ => none

/-- The callers and the transfers. -/
structure TransferPool (Caller : Type*) where
  point : Caller → ReadPoint
  /-- How many transfers have been allocated. -/
  allocated : ℕ
  flagged : ℕ → Bool
  /-- Submitted and not completed. -/
  inFlight : List ℕ
  /-- Those of them whose callback has returned. -/
  called : List ℕ
  freed : List ℕ

/-- What happens next, and how libusb answers a caller. -/
inductive PoolAction (Caller : Type*)
  | bulkReadAsync (caller : Caller)
  /-- `m_handle` is not null. -/
  | handle (caller : Caller) (opened : Bool)
  /-- `libusb_alloc_transfer` does not return null. -/
  | allocated (caller : Caller) (ok : Bool)
  | filled (caller : Caller)
  /-- The result of `libusb_submit_transfer`. -/
  | submitted (caller : Caller) (result : ℤ)
  /-- `async_callback`. -/
  | callback (transfer : ℕ)
  | completed (transfer : ℕ)

namespace TransferPool

variable {Caller : Type*} [DecidableEq Caller]

/-- A caller goes to a point. -/
def goto (pool : TransferPool Caller) (caller : Caller) (point : ReadPoint) :
    TransferPool Caller :=
  { pool with point := Function.update pool.point caller point }

/-- `LIBUSB_TRANSFER_FREE_TRANSFER` is set. -/
def flag (pool : TransferPool Caller) (transfer : ℕ) : TransferPool Caller :=
  { pool with flagged := Function.update pool.flagged transfer true }

/-- libusb completes a transfer, and frees it if it has the flag. -/
def complete (pool : TransferPool Caller) (transfer : ℕ) : TransferPool Caller :=
  { pool with
    inFlight := pool.inFlight.erase transfer
    called := pool.called.erase transfer
    freed := if pool.flagged transfer then pool.freed ++ [transfer] else pool.freed }

/-- `bulkReadAsync`, call by call, and libusb. -/
def step (pool : TransferPool Caller) : PoolAction Caller → Option (TransferPool Caller)
  | .bulkReadAsync caller =>
      if pool.point caller = .outside then some (pool.goto caller .handle) else none
  | .handle caller opened =>
      if pool.point caller = .handle then
        some (pool.goto caller (if opened then .alloc else .outside))
      else none
  | .allocated caller ok =>
      if pool.point caller = .alloc then
        if ok then
          some { pool.goto caller (.fill pool.allocated) with allocated := pool.allocated + 1 }
        else some (pool.goto caller .outside)
      else none
  | .filled caller =>
      match pool.point caller with
      | .fill transfer => some ((pool.flag transfer).goto caller (.submit transfer))
      | _ => none
  | .submitted caller result =>
      match pool.point caller with
      | .submit transfer =>
          if result = 0 then
            some { pool.goto caller .outside with inFlight := pool.inFlight ++ [transfer] }
          else some (pool.goto caller .outside)
      | _ => none
  | .callback transfer =>
      if transfer ∈ pool.inFlight ∧ transfer ∉ pool.called then
        some { pool with called := transfer :: pool.called }
      else none
  | .completed transfer =>
      if transfer ∈ pool.called then some (pool.complete transfer) else none

end TransferPool

/-- The callers and libusb as a transition system. Memory may contain anything where a flag
is to be. -/
@[reducible]
def transferPool (Caller : Type*) [DecidableEq Caller] :
    System (TransferPool Caller) (PoolAction Caller) where
  IsStart pool := (∀ caller, pool.point caller = .outside) ∧ pool.allocated = 0 ∧
    pool.inFlight = [] ∧ pool.called = [] ∧ pool.freed = []
  step := TransferPool.step

/-- Outside the calls, every transfer has been freed, once, or is submitted and not completed. -/
def TransfersOwned {Caller : Type*} (pool : TransferPool Caller) : Prop :=
  (∀ caller, pool.point caller = .outside) →
    (List.range pool.allocated).Perm (pool.freed ++ pool.inFlight)

/-- `libusb_submit_transfer` does not fail. -/
def SubmitSafe {Caller : Type*} (_ : TransferPool Caller) : PoolAction Caller → Prop
  | .submitted _ result => result = 0
  | _ => True

section Pool

variable {Caller : Type*} {pool later : TransferPool Caller} {caller : Caller} {transfer : ℕ}

/-- The transfers that callers have in their hands. -/
def TransferPool.held (pool : TransferPool Caller) (caller : Caller) : Option ℕ :=
  (pool.point caller).transfer

/-- Every transfer has been freed, is submitted and not completed, or is with one caller. What
is submitted has the flag. -/
structure PoolLaw (pool : TransferPool Caller) : Prop where
  placed : Placed pool.allocated pool.held (pool.freed ++ pool.inFlight)
  submitFlagged : ∀ caller transfer, pool.point caller = .submit transfer →
    pool.flagged transfer = true
  flightFlagged : ∀ transfer ∈ pool.inFlight, pool.flagged transfer = true
  calledOnce : pool.called.Nodup
  calledInFlight : ∀ transfer ∈ pool.called, transfer ∈ pool.inFlight

theorem flag_flagged_self : (pool.flag transfer).flagged transfer = true :=
  Function.update_self _ _ _

theorem flagged_flag {another : ℕ} (hflagged : pool.flagged another = true) :
    (pool.flag transfer).flagged another = true := by
  by_cases hsame : another = transfer
  · rw [hsame]
    exact flag_flagged_self
  · exact (Function.update_of_ne hsame _ _).trans hflagged

namespace PoolLaw

/-- A flag is set, and the others stay. -/
theorem flag (hlaw : PoolLaw pool) : PoolLaw (pool.flag transfer) where
  placed := hlaw.placed
  submitFlagged other another hsubmit := flagged_flag (hlaw.submitFlagged other another hsubmit)
  flightFlagged another hflight := flagged_flag (hlaw.flightFlagged another hflight)
  calledOnce := hlaw.calledOnce
  calledInFlight := hlaw.calledInFlight

/-- The callback of one returns. -/
theorem callback (hlaw : PoolLaw pool) (hflight : transfer ∈ pool.inFlight)
    (hnew : transfer ∉ pool.called) : PoolLaw { pool with called := transfer :: pool.called } where
  placed := hlaw.placed
  submitFlagged := hlaw.submitFlagged
  flightFlagged := hlaw.flightFlagged
  calledOnce := List.nodup_cons.mpr ⟨hnew, hlaw.calledOnce⟩
  calledInFlight another hcalled := by
    rcases List.mem_cons.mp hcalled with rfl | hbefore
    · exact hflight
    · exact hlaw.calledInFlight another hbefore

/-- One is completed, and freed because it has the flag. -/
theorem complete (hlaw : PoolLaw pool) (hcalled : transfer ∈ pool.called) :
    PoolLaw (pool.complete transfer) := by
  have hflight := hlaw.calledInFlight transfer hcalled
  have hflagged := hlaw.flightFlagged transfer hflight
  refine ⟨?_, hlaw.submitFlagged, ?_, hlaw.calledOnce.erase transfer, ?_⟩
  · refine hlaw.placed.perm ?_
    rw [TransferPool.complete, if_pos hflagged, List.append_assoc, List.singleton_append]
    exact (List.perm_cons_erase hflight).append_left pool.freed
  · exact fun another hanother => hlaw.flightFlagged another (List.mem_of_mem_erase hanother)
  · intro another hanother
    obtain ⟨hne, hbefore⟩ := hlaw.calledOnce.mem_erase_iff.mp hanother
    exact (List.mem_erase_of_ne hne).mpr (hlaw.calledInFlight another hbefore)

end PoolLaw

variable [DecidableEq Caller]

@[simp]
theorem goto_point_self {point : ReadPoint} : (pool.goto caller point).point caller = point :=
  Function.update_self _ _ _

@[simp]
theorem goto_point_of_ne {point : ReadPoint} {other : Caller} (hother : other ≠ caller) :
    (pool.goto caller point).point other = pool.point other :=
  Function.update_of_ne hother _ _

theorem held_goto {point : ReadPoint} :
    (pool.goto caller point).held = Function.update pool.held caller point.transfer := by
  funext other
  by_cases hother : other = caller
  · subst hother
    simp [TransferPool.held]
  · simp [TransferPool.held, hother]

namespace PoolLaw

/-- Whoever is about to submit a transfer has set its flag. -/
theorem submitFlagged_goto {point : ReadPoint} (hlaw : PoolLaw pool)
    (hpoint : ∀ transfer, point = .submit transfer → pool.flagged transfer = true)
    {other : Caller} (hsubmit : (pool.goto caller point).point other = .submit transfer) :
    pool.flagged transfer = true := by
  by_cases hother : other = caller
  · subst hother
    rw [goto_point_self] at hsubmit
    exact hpoint transfer hsubmit
  · rw [goto_point_of_ne hother] at hsubmit
    exact hlaw.submitFlagged other transfer hsubmit

/-- A caller goes on, with a transfer or without one as before. -/
theorem goto {point : ReadPoint} (hlaw : PoolLaw pool)
    (hsame : point.transfer = (pool.point caller).transfer)
    (hpoint : ∀ transfer, point = .submit transfer → pool.flagged transfer = true) :
    PoolLaw (pool.goto caller point) where
  placed := by
    have hheld : (pool.goto caller point).held = pool.held := by
      rw [held_goto, hsame]
      exact Function.update_eq_self caller pool.held
    rw [hheld]
    exact hlaw.placed
  submitFlagged _ _ := hlaw.submitFlagged_goto hpoint
  flightFlagged := hlaw.flightFlagged
  calledOnce := hlaw.calledOnce
  calledInFlight := hlaw.calledInFlight

/-- A transfer is allocated. -/
theorem allocate (hlaw : PoolLaw pool) (hpoint : pool.point caller = .alloc) :
    PoolLaw { pool.goto caller (.fill pool.allocated) with allocated := pool.allocated + 1 } where
  placed := by
    have hfree : pool.held caller = none := by
      rw [TransferPool.held, hpoint]
      rfl
    have hplaced := hlaw.placed.issue hfree
    have hheld : (pool.goto caller (.fill pool.allocated)).held = _ := held_goto
    exact hheld.symm ▸ hplaced
  submitFlagged _ _ := hlaw.submitFlagged_goto fun _ hsubmit => by cases hsubmit
  flightFlagged := hlaw.flightFlagged
  calledOnce := hlaw.calledOnce
  calledInFlight := hlaw.calledInFlight

/-- One is submitted. -/
theorem submit (hlaw : PoolLaw pool) (hpoint : pool.point caller = .submit transfer) :
    PoolLaw { pool.goto caller .outside with inFlight := pool.inFlight ++ [transfer] } where
  placed := by
    have hholds : pool.held caller = some transfer := by
      rw [TransferPool.held, hpoint]
      rfl
    have hplaced := hlaw.placed.putDown hholds
    rw [List.append_assoc] at hplaced
    have hheld : (pool.goto caller .outside).held = _ := held_goto
    exact hheld.symm ▸ hplaced
  submitFlagged _ _ := hlaw.submitFlagged_goto fun _ hsubmit => by cases hsubmit
  flightFlagged another hflight := by
    rcases List.mem_append.mp hflight with hbefore | hlast
    · exact hlaw.flightFlagged another hbefore
    · exact List.mem_singleton.mp hlast ▸ hlaw.submitFlagged caller transfer hpoint
  calledOnce := hlaw.calledOnce
  calledInFlight another hcalled := List.mem_append_left _ (hlaw.calledInFlight another hcalled)

end PoolLaw

theorem poolLaw_step {action : PoolAction Caller} (hlaw : PoolLaw pool)
    (hsafe : SubmitSafe pool action) (hstep : pool.step action = some later) :
    PoolLaw later := by
  cases action with
  | bulkReadAsync caller =>
      simp only [TransferPool.step, Option.ite_none_right_eq_some, Option.some.injEq] at hstep
      obtain ⟨hpoint, rfl⟩ := hstep
      exact hlaw.goto (by rw [hpoint]; rfl) (fun _ hsubmit => by cases hsubmit)
  | handle caller opened =>
      simp only [TransferPool.step, Option.ite_none_right_eq_some, Option.some.injEq] at hstep
      obtain ⟨hpoint, rfl⟩ := hstep
      cases opened with
      | false => exact hlaw.goto (by rw [hpoint]; rfl) (fun _ hsubmit => by cases hsubmit)
      | true => exact hlaw.goto (by rw [hpoint]; rfl) (fun _ hsubmit => by cases hsubmit)
  | allocated caller ok =>
      simp only [TransferPool.step, Option.ite_none_right_eq_some] at hstep
      obtain ⟨hpoint, hnext⟩ := hstep
      cases ok with
      | false =>
          cases hnext
          exact hlaw.goto (by rw [hpoint]; rfl) (fun _ hsubmit => by cases hsubmit)
      | true =>
          cases hnext
          exact hlaw.allocate hpoint
  | filled caller =>
      rw [TransferPool.step] at hstep
      split at hstep
      case h_1 transfer hpoint =>
        cases hstep
        refine hlaw.flag.goto ?_ fun another hsubmit => ?_
        · exact (congrArg ReadPoint.transfer hpoint).symm
        · cases hsubmit
          exact flag_flagged_self
      case h_2 => cases hstep
  | submitted caller result =>
      rw [TransferPool.step] at hstep
      split at hstep
      case h_1 transfer hpoint =>
        have hzero : result = 0 := hsafe
        rw [if_pos hzero] at hstep
        cases hstep
        exact hlaw.submit hpoint
      case h_2 => cases hstep
  | callback transfer =>
      simp only [TransferPool.step, Option.ite_none_right_eq_some, Option.some.injEq] at hstep
      obtain ⟨⟨hflight, hnew⟩, rfl⟩ := hstep
      exact hlaw.callback hflight hnew
  | completed transfer =>
      simp only [TransferPool.step, Option.ite_none_right_eq_some, Option.some.injEq] at hstep
      obtain ⟨hcalled, rfl⟩ := hstep
      exact hlaw.complete hcalled

theorem poolLaw (hreach : (transferPool Caller).ReachableBy SubmitSafe pool) : PoolLaw pool := by
  refine hreach.invariant ?_ fun _ _ _ _ hlaw hsafe hstep => poolLaw_step hlaw hsafe hstep
  rintro pool ⟨houtside, hallocated, hflight, hcalled, hfreed⟩
  have hheld (caller : Caller) : pool.held caller = none := by
    rw [TransferPool.held, houtside]
    rfl
  refine ⟨?_, fun caller transfer hsubmit => ?_, ?_, ?_, ?_⟩
  · rw [hallocated, hfreed, hflight]
    exact .start hheld
  · rw [houtside] at hsubmit
    cases hsubmit
  · simp [hflight]
  · simp [hcalled]
  · simp [hcalled]

/-- In every run in which no submission fails, the transfers are owned. -/
theorem transfersOwned (hreach : (transferPool Caller).ReachableBy SubmitSafe pool) :
    TransfersOwned pool := fun houtside =>
  (poolLaw hreach).placed.range_perm fun caller => by
    rw [TransferPool.held, houtside]
    rfl

end Pool

/-- No caller has called. -/
def TransferPool.initial : TransferPool Unit where
  point _ := .outside
  allocated := 0
  flagged _ := false
  inFlight := []
  called := []
  freed := []

theorem initial_isStart : (transferPool Unit).IsStart .initial :=
  ⟨fun _ => rfl, rfl, rfl, rfl, rfl⟩

/-- A transfer is submitted, completed and freed. -/
theorem transfersOwned_completed :
    ∃ pool, (transferPool Unit).ReachableBy SubmitSafe pool ∧ pool.freed = [0] ∧
      TransfersOwned pool := by
  have hrun : ((transferPool Unit).run .initial
      [.bulkReadAsync (), .handle () true, .allocated () true, .filled (), .submitted () 0,
        .callback 0, .completed 0]).map TransferPool.freed = some [0] := by decide
  have hstart : (transferPool Unit).ReachableBy SubmitSafe .initial := .start initial_isStart
  obtain ⟨pool, hreach, hfreed⟩ :=
    System.exists_reachableBy_of_run hstart (by simp [SubmitSafe]) hrun
  exact ⟨pool, hreach, hfreed, transfersOwned hreach⟩

/-- A transfer cannot be submitted: it is neither freed nor in flight. -/
theorem unsubmitted_transfer_leaked :
    ∃ pool, (transferPool Unit).Reachable pool ∧ ¬ TransfersOwned pool := by
  have hrun : ((transferPool Unit).run .initial
      [.bulkReadAsync (), .handle () true, .allocated () true, .filled (),
        .submitted () (-1)]).map
        (fun pool => (pool.point (), pool.allocated, pool.freed, pool.inFlight)) =
      some (.outside, 1, [], []) := by decide
  obtain ⟨pool, hreach, hview⟩ := System.exists_reachable_of_run (.start initial_isStart) hrun
  refine ⟨pool, hreach, fun howned => ?_⟩
  simp only [Prod.mk.injEq] at hview
  obtain ⟨hpoint, hallocated, hfreed, hflight⟩ := hview
  have hperm := (howned fun _ => hpoint).length_eq
  simp [hallocated, hfreed, hflight] at hperm

end HauppaugeUSB.Wrappers

/-
# The threads of the wrapper layer

`wrapThreadStart` allocates a `wrapThreadInfo_t`, stores a function and its argument there
and creates a thread, which reads both and calls the one with the other. `wrapThreadStop`
cancels the thread, joins it and frees what was allocated for it. So a thread reads memory
that another one frees, and all depends on the order of the calls and of the thread's steps.

Any number of `wrapThread_t` are in use, each of them by one call at a time, and the threads
that make the calls are not cancelled in them. Every `wrapThreadInfo_t` stands for the thread
that it is to describe; they are numbered in the order of their allocation.
-/

import HauppaugeUSB.Concurrency.System
import HauppaugeUSB.Concurrency.Tokens
import Mathlib.Data.Int.Notation

namespace HauppaugeUSB.Wrappers

open HauppaugeUSB.Concurrency

/-- Where the call is that uses a `wrapThread_t`. -/
inductive ThreadPoint (Work : Type*)
  | idle
  /-- `wrapThreadStart`. -/
  | alloc (work : Work)
  | fill (info : ℕ) (work : Work)
  | create (info : ℕ)
  | store (info : ℕ)
  /-- `wrapThreadStop`. -/
  | load
  | cancel (info : ℕ)
  | join (info : ℕ)
  | free (info : ℕ)
  | clear

/-- Where a thread is: it has not been created, is about to read its function and argument in
`_wrapThreadFunc`, runs, has ended, or has been joined. -/
inductive WorkerPoint (Work : Type*)
  | absent
  | reading
  | running (work : Option Work)
  | ended
  | joined

/-- What can be done with a thread's handle. -/
inductive WorkerPhase
  | fresh
  | joinable
  | gone
  deriving DecidableEq

def WorkerPoint.phase {Work : Type*} : WorkerPoint Work → WorkerPhase
  | .absent => .fresh
  | .reading | .running _ | .ended => .joinable
  | .joined => .gone

/-- All `wrapThread_t` and all threads. -/
structure ThreadTable (Var Work : Type*) where
  point : Var → ThreadPoint Work
  /-- `*thread`. -/
  value : Var → Option ℕ
  /-- How many `wrapThreadInfo_t` have been allocated. -/
  allocated : ℕ
  /-- `function` and `pData`, where they have been stored and not freed. -/
  info : ℕ → Option Work
  worker : ℕ → WorkerPoint Work
  cancelled : ℕ → Bool
  freed : List ℕ
  /-- Those that no variable and no call knows any more. -/
  lost : List ℕ
  /-- What the call was given that allocated them. -/
  given : ℕ → Option Work

/-- What happens next, and how the system answers a call. -/
inductive ThreadAction (Var Work : Type*)
  | wrapThreadStart (var : Var) (work : Work)
  /-- `wrapHeapAlloc` does not return null. -/
  | allocated (var : Var) (ok : Bool)
  | filled (var : Var)
  /-- The result of `pthread_create`. -/
  | created (var : Var) (err : ℤ)
  | stored (var : Var)
  | wrapThreadStop (var : Var)
  | loaded (var : Var)
  | cancelled (var : Var)
  | joined (var : Var)
  | freed (var : Var)
  | cleared (var : Var)
  /-- A thread reads its function and argument. -/
  | reads (info : ℕ)
  /-- A thread's function returns, or the thread is cancelled. -/
  | ends (info : ℕ)

namespace ThreadTable

variable {Var Work : Type*} [DecidableEq Var]

/-- The call that uses a variable goes to a point. -/
def goto (t : ThreadTable Var Work) (var : Var) (point : ThreadPoint Work) :
    ThreadTable Var Work :=
  { t with point := Function.update t.point var point }

def setWorker (t : ThreadTable Var Work) (info : ℕ) (worker : WorkerPoint Work) :
    ThreadTable Var Work :=
  { t with worker := Function.update t.worker info worker }

/-- `wrapThreadStart`, `wrapThreadStop` and `_wrapThreadFunc`, call by call. -/
def step (t : ThreadTable Var Work) : ThreadAction Var Work → Option (ThreadTable Var Work)
  | .wrapThreadStart var work =>
      match t.point var with
      | .idle => some (t.goto var (.alloc work))
      | _ => none
  | .allocated var ok =>
      match t.point var with
      | .alloc work =>
          if ok then
            some { t.goto var (.fill t.allocated work) with
              allocated := t.allocated + 1
              given := Function.update t.given t.allocated (some work) }
          else some (t.goto var .idle)
      | _ => none
  | .filled var =>
      match t.point var with
      | .fill info work =>
          some { t.goto var (.create info) with info := Function.update t.info info (some work) }
      | _ => none
  | .created var err =>
      match t.point var with
      | .create info =>
          if err = 0 then some ((t.goto var (.store info)).setWorker info .reading)
          else some { t.goto var .idle with lost := t.lost ++ [info] }
      | _ => none
  | .stored var =>
      match t.point var with
      | .store info =>
          some { t.goto var .idle with
            value := Function.update t.value var (some info)
            lost := t.lost ++ (t.value var).toList }
      | _ => none
  | .wrapThreadStop var =>
      match t.point var with
      | .idle => some (t.goto var .load)
      | _ => none
  | .loaded var =>
      match t.point var with
      | .load =>
          match t.value var with
          | none => some (t.goto var .idle)
          | some info => some (t.goto var (.cancel info))
      | _ => none
  | .cancelled var =>
      match t.point var with
      | .cancel info =>
          some { t.goto var (.join info) with
            cancelled := Function.update t.cancelled info true }
      | _ => none
  | .joined var =>
      match t.point var with
      | .join info =>
          match t.worker info with
          | .ended => some ((t.goto var (.free info)).setWorker info .joined)
          | _ => none
      | _ => none
  | .freed var =>
      match t.point var with
      | .free info =>
          some { t.goto var .clear with
            freed := t.freed ++ [info]
            info := Function.update t.info info none }
      | _ => none
  | .cleared var =>
      match t.point var with
      | .clear => some { t.goto var .idle with value := Function.update t.value var none }
      | _ => none
  | .reads info =>
      match t.worker info with
      | .reading => some (t.setWorker info (.running (t.info info)))
      | _ => none
  | .ends info =>
      match t.worker info with
      | .running _ => some (t.setWorker info .ended)
      | .reading => if t.cancelled info then some (t.setWorker info .ended) else none
      | _ => none

end ThreadTable

/-- No thread has been started yet. -/
@[reducible]
def wrapThreads (Var Work : Type*) [DecidableEq Var] :
    System (ThreadTable Var Work) (ThreadAction Var Work) where
  IsStart t := (∀ var, t.point var = .idle) ∧ (∀ var, t.value var = none) ∧ t.allocated = 0 ∧
    (∀ info, t.worker info = .absent) ∧ t.freed = [] ∧ t.lost = []
  step := ThreadTable.step

/-- A call that uses the handle of a thread. -/
def ThreadPoint.handle {Work : Type*} : ThreadPoint Work → Option ℕ
  | .cancel info | .join info => some info
  | _ => none

/-- Nobody is in a call. -/
def ThreadTable.Quiet {Var Work : Type*} (t : ThreadTable Var Work) : Prop :=
  ∀ var, t.point var = .idle

/-- Threads run what they were started with and read it before it is freed; handles are used
while they are good; and what was allocated is freed once, if it is not lost. -/
structure ThreadsSafe {Var Work : Type*} (t : ThreadTable Var Work) : Prop where
  reads : ∀ info, t.worker info = .reading → info ∉ t.freed
  runs : ∀ info work, t.worker info = .running work → work = t.given info ∧ work.isSome = true
  handles : ∀ var info, (t.point var).handle = some info →
    (t.worker info).phase = .joinable ∧ info ∉ t.freed
  freedOnce : t.freed.Nodup
  freedGone : ∀ info ∈ t.freed, t.worker info = .joined
  lostStays : ∀ info ∈ t.lost, t.worker info ≠ .joined
  account : t.Quiet → Placed t.allocated t.value (t.freed ++ t.lost)

section Threads

variable {Var Work : Type*} {t later : ThreadTable Var Work} {var : Var} {info : ℕ}

/-- What a call of `wrapThreadStart` has in its hands. -/
def ThreadPoint.hand : ThreadPoint Work → Option ℕ
  | .fill info _ | .create info | .store info => some info
  | _ => none

/-- What a variable refers to, if it has not been freed. -/
def ThreadPoint.kept (value : Option ℕ) : ThreadPoint Work → Option ℕ
  | .clear => none
  | _ => value

/-- Calls and variables, with what they know. -/
def ThreadTable.held (t : ThreadTable Var Work) : Var ⊕ Var → Option ℕ
  | .inl var => (t.point var).hand
  | .inr var => (t.point var).kept (t.value var)

/-- What a call and its variable know of threads. -/
def ThreadTable.Knows (t : ThreadTable Var Work) (var : Var) : ThreadPoint Work → Prop
  | .fill info work => (t.worker info).phase = .fresh ∧ t.given info = some work
  | .create info =>
      (t.worker info).phase = .fresh ∧ t.info info = t.given info ∧ (t.given info).isSome = true
  | .store info => (t.worker info).phase = .joinable
  | .cancel info | .join info => t.value var = some info
  | .free info => t.value var = some info ∧ (t.worker info).phase = .gone
  | .idle | .alloc _ | .load | .clear => True

/-- A thread is joined just before it is freed. -/
def ThreadPoint.isFree : ThreadPoint Work → Bool
  | .free _ => true
  | _ => false

/-- A call and its variable are in order. -/
structure ThreadTable.InOrder (t : ThreadTable Var Work) (var : Var) : Prop where
  knows : t.Knows var (t.point var)
  kept : ∀ info, (t.point var).kept (t.value var) = some info → (t.point var).isFree = false →
    (t.worker info).phase = .joinable

/-- What a thread reads, or has read, is what the call was given that started it. -/
def ThreadTable.Reads (t : ThreadTable Var Work) (info : ℕ) : WorkerPoint Work → Prop
  | .reading => t.info info = t.given info ∧ (t.given info).isSome = true
  | .running work => work = t.given info ∧ work.isSome = true
  | .absent | .ended | .joined => True

/-- Everything that has been allocated is freed, lost, or known to one call or variable. -/
structure ThreadLaw (t : ThreadTable Var Work) : Prop where
  placed : Placed t.allocated t.held (t.freed ++ t.lost)
  inOrder : ∀ var, t.InOrder var
  reads : ∀ info, t.Reads info (t.worker info)
  freed : ∀ info ∈ t.freed, (t.worker info).phase = .gone
  lost : ∀ info ∈ t.lost, (t.worker info).phase ≠ .gone
  fresh : ∀ info, t.allocated ≤ info → (t.worker info).phase = .fresh

/-- Where a call knows a thread, it is in its hands or its variable's. -/
theorem knows_congr {point : ThreadPoint Work} (hknows : t.Knows var point)
    (hvalue : later.value var = t.value var)
    (hsame : ∀ info, point.hand = some info ∨ point.kept (t.value var) = some info →
      (later.worker info).phase = (t.worker info).phase ∧ later.info info = t.info info ∧
        later.given info = t.given info) : later.Knows var point := by
  cases point with
  | fill info work | create info =>
      obtain ⟨hphase, hinfo, hgiven⟩ := hsame info (.inl rfl)
      simpa [ThreadTable.Knows, hphase, hinfo, hgiven] using hknows
  | store info =>
      obtain ⟨hphase, -, -⟩ := hsame info (.inl rfl)
      simpa [ThreadTable.Knows, hphase] using hknows
  | cancel info | join info => exact hvalue.trans hknows
  | free info =>
      obtain ⟨hphase, -, -⟩ := hsame info (.inr hknows.1)
      exact ⟨hvalue.trans hknows.1, hphase.trans hknows.2⟩
  | idle | alloc _ | load | clear => trivial

theorem reads_congr (hreads : t.Reads info (t.worker info))
    (hworker : later.worker info = t.worker info) (hinfo : later.info info = t.info info)
    (hgiven : later.given info = t.given info) : later.Reads info (later.worker info) := by
  rw [hworker]
  cases hpoint : t.worker info with
  | reading =>
      rw [hpoint] at hreads
      exact ⟨hinfo.trans (hreads.1.trans hgiven.symm), hgiven.symm ▸ hreads.2⟩
  | running work =>
      rw [hpoint] at hreads
      exact ⟨hreads.1.trans hgiven.symm, hreads.2⟩
  | absent | ended | joined => trivial

/-- A thread that cannot be joined reads nothing. -/
theorem reads_of_phase (hphase : (t.worker info).phase ≠ .joinable) :
    t.Reads info (t.worker info) := by
  cases hpoint : t.worker info with
  | absent | joined | ended => trivial
  | reading | running work => exact absurd (by rw [hpoint]; rfl) hphase

/-- What stays in order while other calls go on. -/
theorem inOrder_congr (horder : t.InOrder var) (hpoint : later.point var = t.point var)
    (hvalue : later.value var = t.value var)
    (hsame : ∀ info, t.held (.inl var) = some info ∨ t.held (.inr var) = some info →
      (later.worker info).phase = (t.worker info).phase ∧ later.info info = t.info info ∧
        later.given info = t.given info) : later.InOrder var where
  knows := by
    rw [hpoint]
    exact knows_congr horder.knows hvalue hsame
  kept info hkept hfree := by
    rw [hpoint, hvalue] at hkept
    rw [hpoint] at hfree
    rw [(hsame info (.inr hkept)).1]
    exact horder.kept info hkept hfree

@[simp]
theorem setWorker_worker_self {worker : WorkerPoint Work} :
    (t.setWorker info worker).worker info = worker :=
  Function.update_self _ _ _

@[simp]
theorem setWorker_worker_of_ne {worker : WorkerPoint Work} {other : ℕ} (hother : other ≠ info) :
    (t.setWorker info worker).worker other = t.worker other :=
  Function.update_of_ne hother _ _

/-- A thread goes on, and can be joined as before. -/
theorem ThreadLaw.setWorker {worker : WorkerPoint Work} (hlaw : ThreadLaw t)
    (hphase : worker.phase = (t.worker info).phase) (hreads : t.Reads info worker) :
    ThreadLaw (t.setWorker info worker) := by
  have hsame (other : ℕ) :
      ((t.setWorker info worker).worker other).phase = (t.worker other).phase := by
    by_cases hother : other = info
    · subst hother
      rw [setWorker_worker_self, hphase]
    · rw [setWorker_worker_of_ne hother]
  refine ⟨hlaw.placed, fun var => ?_, fun other => ?_, ?_, ?_, ?_⟩
  · exact inOrder_congr (hlaw.inOrder var) rfl rfl fun other _ => ⟨hsame other, rfl, rfl⟩
  · by_cases hother : other = info
    · subst hother
      rw [setWorker_worker_self]
      exact hreads
    · rw [setWorker_worker_of_ne hother]
      exact hlaw.reads other
  · exact fun other hfreed => (hsame other).trans (hlaw.freed other hfreed)
  · exact fun other hlost => (hsame other).symm ▸ hlaw.lost other hlost
  · exact fun other hfresh => (hsame other).trans (hlaw.fresh other hfresh)

/-- A call goes on, and changes nothing but what it and its variable know, and what is new. -/
structure Advance (t later : ThreadTable Var Work) (var : Var) : Prop where
  points : ∀ other, other ≠ var → later.point other = t.point other
  values : ∀ other, other ≠ var → later.value other = t.value other
  others : ∀ info < t.allocated, t.held (.inl var) ≠ some info → t.held (.inr var) ≠ some info →
    later.worker info = t.worker info ∧ later.info info = t.info info ∧
      later.given info = t.given info
  placed : Placed later.allocated later.held (later.freed ++ later.lost)
  here : later.InOrder var
  reads : ∀ info, t.held (.inl var) = some info ∨ t.held (.inr var) = some info ∨
    t.allocated ≤ info → later.Reads info (later.worker info)
  freed : ∀ info ∈ later.freed, info ∈ t.freed ∨ (later.worker info).phase = .gone
  lost : ∀ info ∈ later.lost, info ∈ t.lost ∨ (later.worker info).phase ≠ .gone
  fresh : ∀ info, later.allocated ≤ info → (later.worker info).phase = .fresh

theorem ThreadLaw.advance (hlaw : ThreadLaw t) (var : Var) (hadvance : Advance t later var) :
    ThreadLaw later := by
  have hresting {info : ℕ} (hrests : info ∈ t.freed ++ t.lost) :
      later.worker info = t.worker info :=
    (hadvance.others info (hlaw.placed.older info hrests)
      (fun hholds => hlaw.placed.apart _ _ hholds hrests)
      (fun hholds => hlaw.placed.apart _ _ hholds hrests)).1
  refine ⟨hadvance.placed, fun other => ?_, fun info => ?_, fun info hfreed => ?_,
    fun info hlost => ?_, hadvance.fresh⟩
  · by_cases hother : other = var
    · exact hother ▸ hadvance.here
    · refine inOrder_congr (hlaw.inOrder other) (hadvance.points other hother)
        (hadvance.values other hother) fun info hknown => ?_
      -- what another call knows, this one does not
      have hnot (holder : Var ⊕ Var) (hholder : holder = .inl var ∨ holder = .inr var) :
          t.held holder ≠ some info := by
        intro hholds
        rcases hknown with hhand | hkept
        · have hwho := hlaw.placed.unique _ _ _ hhand hholds
          rcases hholder with rfl | rfl
          · exact hother (Sum.inl.inj hwho)
          · cases hwho
        · have hwho := hlaw.placed.unique _ _ _ hkept hholds
          rcases hholder with rfl | rfl
          · cases hwho
          · exact hother (Sum.inr.inj hwho)
      have hold : info < t.allocated :=
        hknown.elim (hlaw.placed.heldOlder _ _) (hlaw.placed.heldOlder _ _)
      obtain ⟨hworker, hinfo, hgiven⟩ :=
        hadvance.others info hold (hnot _ (.inl rfl)) (hnot _ (.inr rfl))
      exact ⟨by rw [hworker], hinfo, hgiven⟩
  · by_cases hmine : t.held (.inl var) = some info ∨ t.held (.inr var) = some info ∨
        t.allocated ≤ info
    · exact hadvance.reads info hmine
    · simp only [not_or, Nat.not_le] at hmine
      obtain ⟨hworker, hinfo, hgiven⟩ := hadvance.others info hmine.2.2 hmine.1 hmine.2.1
      exact reads_congr (hlaw.reads info) hworker hinfo hgiven
  · rcases hadvance.freed info hfreed with hbefore | hgone
    · rw [hresting (List.mem_append_left _ hbefore)]
      exact hlaw.freed info hbefore
    · exact hgone
  · rcases hadvance.lost info hlost with hbefore | hnot
    · rw [hresting (List.mem_append_right _ hbefore)]
      exact hlaw.lost info hbefore
    · exact hnot

variable [DecidableEq Var] {point : ThreadPoint Work}

@[simp]
theorem point_goto_self : (t.goto var point).point var = point :=
  Function.update_self _ _ _

@[simp]
theorem point_goto_of_ne {other : Var} (hother : other ≠ var) :
    (t.goto var point).point other = t.point other :=
  Function.update_of_ne hother _ _

@[simp]
theorem worker_goto : (t.goto var point).worker = t.worker := rfl

/-- What is known after one call has gone on. -/
theorem known_eq {value : Option ℕ}
    (hpoint : later.point = Function.update t.point var point)
    (hvalue : later.value = Function.update t.value var value) :
    later.held =
      Function.update (Function.update t.held (.inl var) point.hand) (.inr var)
        (point.kept value) := by
  funext holder
  cases holder with
  | inl other =>
      rw [Function.update_of_ne (by simp), ThreadTable.held, hpoint]
      by_cases hother : other = var
      · subst hother
        simp
      · simp [hother, ThreadTable.held]
  | inr other =>
      rw [ThreadTable.held, hpoint, hvalue]
      by_cases hother : other = var
      · subst hother
        simp
      · simp [hother, ThreadTable.held]

theorem known_assign {value : Option ℕ} :
    ({ t.goto var point with value := Function.update t.value var value } :
      ThreadTable Var Work).held =
        Function.update (Function.update t.held (.inl var) point.hand) (.inr var)
          (point.kept value) :=
  known_eq rfl rfl

theorem known_goto :
    (t.goto var point).held =
      Function.update (Function.update t.held (.inl var) point.hand) (.inr var)
        (point.kept (t.value var)) :=
  known_eq rfl (Function.update_eq_self _ _).symm

theorem known_goto_hand (hkept : point.kept (t.value var) = (t.point var).kept (t.value var)) :
    (t.goto var point).held = Function.update t.held (.inl var) point.hand := by
  rw [known_goto, hkept]
  refine Function.update_eq_self_iff.mpr ?_
  rw [Function.update_of_ne (by simp)]
  rfl

theorem known_goto_kept (hhand : point.hand = (t.point var).hand) :
    (t.goto var point).held = Function.update t.held (.inr var) (point.kept (t.value var)) := by
  have hsame : Function.update t.held (.inl var) point.hand = t.held :=
    Function.update_eq_self_iff.mpr hhand
  rw [known_goto, hsame]

/-- A call goes on, and nothing is known that was not. -/
theorem known_goto_same (hhand : point.hand = (t.point var).hand)
    (hkept : point.kept (t.value var) = (t.point var).kept (t.value var)) :
    (t.goto var point).held = t.held :=
  (known_goto_hand hkept).trans (Function.update_eq_self_iff.mpr hhand)

namespace ThreadLaw

/-- A call goes on and changes nothing. -/
theorem goto {old : ThreadPoint Work} (hlaw : ThreadLaw t) (hpoint : t.point var = old)
    (hhand : point.hand = old.hand) (hkept : point.kept (t.value var) = old.kept (t.value var))
    (hfree : old.isFree = false) (hknows : t.Knows var point) :
    ThreadLaw (t.goto var point) where
  placed := by
    subst hpoint
    rw [known_goto_same hhand hkept]
    exact hlaw.placed
  inOrder other := by
    subst hpoint
    by_cases hother : other = var
    · subst hother
      refine ⟨by rw [point_goto_self]; exact hknows, fun info hinfo _ => ?_⟩
      rw [point_goto_self] at hinfo
      exact (hlaw.inOrder other).kept info (hkept.symm.trans hinfo) hfree
    · exact inOrder_congr (hlaw.inOrder other) (point_goto_of_ne hother) rfl fun _ _ =>
        ⟨rfl, rfl, rfl⟩
  reads := hlaw.reads
  freed := hlaw.freed
  lost := hlaw.lost
  fresh := hlaw.fresh

omit [DecidableEq Var] in
/-- What is in a call's hands, it knows alone. -/
theorem hand_ne_kept (hlaw : ThreadLaw t) (hhand : (t.point var).hand = some info) {other : ℕ}
    (hkept : (t.point var).kept (t.value var) = some other) : other ≠ info := by
  rintro rfl
  cases hlaw.placed.unique (.inl var) (.inr var) other hhand hkept

/-- A `wrapThreadInfo_t` is allocated. -/
theorem allocate {work : Work} (hlaw : ThreadLaw t) (hpoint : t.point var = .alloc work) :
    ThreadLaw { t.goto var (.fill t.allocated work) with
      allocated := t.allocated + 1
      given := Function.update t.given t.allocated (some work) } := by
  have hnew := hlaw.fresh t.allocated (Nat.le_refl _)
  refine hlaw.advance var ⟨fun _ => point_goto_of_ne, fun _ _ => rfl,
    fun info hold _ _ => ⟨rfl, rfl, Function.update_of_ne hold.ne _ _⟩, ?_, ⟨?_, ?_⟩,
    fun info _ => ?_, fun _ => .inl, fun _ => .inl,
    fun info hfresh => hlaw.fresh info (Nat.le_of_succ_le hfresh)⟩
  · have hfree : t.held (.inl var) = none := by rw [ThreadTable.held, hpoint]; rfl
    have hheld : (t.goto var (.fill t.allocated work)).held =
        Function.update t.held (.inl var) (some t.allocated) :=
      known_goto_hand (by rw [hpoint]; rfl)
    exact hheld.symm ▸ hlaw.placed.issue hfree
  · simp only [point_goto_self]
    exact ⟨hnew, Function.update_self _ _ _⟩
  · intro info hkept _
    simp only [point_goto_self] at hkept
    exact (hlaw.inOrder var).kept info (by rw [hpoint]; exact hkept) (by rw [hpoint]; rfl)
  · rcases Nat.lt_or_ge info t.allocated with hold | hfresh
    · exact reads_congr (hlaw.reads info) rfl rfl (Function.update_of_ne hold.ne _ _)
    · exact reads_of_phase (by rw [worker_goto, hlaw.fresh info hfresh]; decide)

/-- The function and its argument are stored. -/
theorem fill {work : Work} (hlaw : ThreadLaw t) (hpoint : t.point var = .fill info work) :
    ThreadLaw { t.goto var (.create info) with
      info := Function.update t.info info (some work) } := by
  have hhand : t.held (.inl var) = some info := by rw [ThreadTable.held, hpoint]; rfl
  have hknows := (hlaw.inOrder var).knows
  rw [hpoint] at hknows
  obtain ⟨hfresh, hgiven⟩ := hknows
  have hheld : (t.goto var (.create info)).held = t.held :=
    known_goto_same (by rw [hpoint]; rfl) (by rw [hpoint]; rfl)
  refine hlaw.advance var ⟨fun _ => point_goto_of_ne, fun _ _ => rfl,
    fun other _ hother _ => ?_, hheld.symm ▸ hlaw.placed, ⟨?_, ?_⟩, fun other _ => ?_,
    fun _ => .inl, fun _ => .inl, hlaw.fresh⟩
  · have hne : other ≠ info := fun hsame => hother (hsame ▸ hhand)
    exact ⟨rfl, Function.update_of_ne hne _ _, rfl⟩
  · simp only [point_goto_self]
    exact ⟨hfresh, (Function.update_self _ _ _).trans hgiven.symm, Option.isSome_of_eq_some hgiven⟩
  · intro other hkept _
    simp only [point_goto_self] at hkept
    exact (hlaw.inOrder var).kept other (by rw [hpoint]; exact hkept) (by rw [hpoint]; rfl)
  · by_cases hsame : other = info
    · subst hsame
      exact reads_of_phase (by rw [worker_goto, hfresh]; decide)
    · exact reads_congr (hlaw.reads other) rfl (Function.update_of_ne hsame _ _) rfl

/-- A thread is created. -/
theorem create (hlaw : ThreadLaw t) (hpoint : t.point var = .create info) :
    ThreadLaw ((t.goto var (.store info)).setWorker info .reading) := by
  have hhand : t.held (.inl var) = some info := by rw [ThreadTable.held, hpoint]; rfl
  have hknows := (hlaw.inOrder var).knows
  rw [hpoint] at hknows
  obtain ⟨hfresh, hinfo, hgiven⟩ := hknows
  have hold : info < t.allocated := hlaw.placed.heldOlder _ _ hhand
  have hheld : (t.goto var (.store info)).held = t.held :=
    known_goto_same (by rw [hpoint]; rfl) (by rw [hpoint]; rfl)
  refine hlaw.advance var ⟨fun _ => point_goto_of_ne, fun _ _ => rfl,
    fun other _ hother _ => ?_, hheld.symm ▸ hlaw.placed, ⟨?_, ?_⟩, fun other _ => ?_,
    fun _ => .inl, fun _ => .inl, fun other hnew => ?_⟩
  · have hne : other ≠ info := fun hsame => hother (hsame ▸ hhand)
    exact ⟨setWorker_worker_of_ne hne, rfl, rfl⟩
  · simp only [ThreadTable.setWorker, point_goto_self, ThreadTable.Knows, Function.update_self]
    rfl
  · intro other hkept _
    simp only [ThreadTable.setWorker, point_goto_self] at hkept
    have hbefore : (t.point var).kept (t.value var) = some other := by rw [hpoint]; exact hkept
    rw [setWorker_worker_of_ne (hlaw.hand_ne_kept hhand hbefore)]
    exact (hlaw.inOrder var).kept other hbefore (by rw [hpoint]; rfl)
  · by_cases hsame : other = info
    · subst hsame
      rw [setWorker_worker_self]
      exact ⟨hinfo, hgiven⟩
    · exact reads_congr (hlaw.reads other) (setWorker_worker_of_ne hsame) rfl rfl
  · have hne : other ≠ info := fun hsame => Nat.not_lt.mpr hnew (hsame ▸ hold)
    rw [setWorker_worker_of_ne hne]
    exact hlaw.fresh other hnew

/-- A thread cannot be created. -/
theorem lose (hlaw : ThreadLaw t) (hpoint : t.point var = .create info) :
    ThreadLaw { t.goto var .idle with lost := t.lost ++ [info] } := by
  have hhand : t.held (.inl var) = some info := by rw [ThreadTable.held, hpoint]; rfl
  have hknows := (hlaw.inOrder var).knows
  rw [hpoint] at hknows
  have hheld : (t.goto var .idle).held = Function.update t.held (.inl var) none :=
    known_goto_hand (by rw [hpoint]; rfl)
  have hplaced := hlaw.placed.putDown hhand
  rw [List.append_assoc] at hplaced
  refine hlaw.advance var ⟨fun _ => point_goto_of_ne, fun _ _ => rfl,
    fun _ _ _ _ => ⟨rfl, rfl, rfl⟩, hheld.symm ▸ hplaced, ⟨?_, ?_⟩, fun other _ => hlaw.reads other,
    fun _ => .inl, fun other hlost => ?_, hlaw.fresh⟩
  · simp only [point_goto_self]
    trivial
  · intro other hkept _
    simp only [point_goto_self] at hkept
    exact (hlaw.inOrder var).kept other (by rw [hpoint]; exact hkept) (by rw [hpoint]; rfl)
  · rcases List.mem_append.mp hlost with hbefore | hlast
    · exact .inl hbefore
    · obtain rfl := List.mem_singleton.mp hlast
      exact .inr (by rw [worker_goto, hknows.1]; decide)

/-- A variable gets its thread, and forgets the one it had. -/
theorem store (hlaw : ThreadLaw t) (hpoint : t.point var = .store info) :
    ThreadLaw { t.goto var .idle with
      value := Function.update t.value var (some info)
      lost := t.lost ++ (t.value var).toList } := by
  have hhand : t.held (.inl var) = some info := by rw [ThreadTable.held, hpoint]; rfl
  have hkept : t.held (.inr var) = t.value var := by rw [ThreadTable.held, hpoint]; rfl
  have hknows := (hlaw.inOrder var).knows
  rw [hpoint] at hknows
  have hheld : ({ t.goto var .idle with value := Function.update t.value var (some info) } :
      ThreadTable Var Work).held =
        Function.update (Function.update t.held (.inl var) none) (.inr var) (some info) :=
    known_assign
  have hplaced : Placed t.allocated
      (Function.update (Function.update t.held (.inl var) none) (.inr var) (some info))
      (t.freed ++ (t.lost ++ (t.value var).toList)) := by
    cases hvalue : t.value var with
    | none =>
        rw [Option.toList_none, List.append_nil]
        exact hlaw.placed.pass hhand (hkept.trans hvalue)
    | some old =>
        have hforgotten := hlaw.placed.putDown (hkept.trans hvalue)
        rw [List.append_assoc] at hforgotten
        have hstill : Function.update t.held (.inr var) none (.inl var) = some info := by
          rw [Function.update_of_ne (by simp), hhand]
        have hpassed := hforgotten.pass hstill (Function.update_self _ _ _)
        rw [Function.update_comm (by simp), Function.update_idem] at hpassed
        rw [Function.update_comm (by simp)]
        exact hpassed
  refine hlaw.advance var ⟨fun _ => point_goto_of_ne, fun _ => (Function.update_of_ne · _ _),
    fun _ _ _ _ => ⟨rfl, rfl, rfl⟩, hheld.symm ▸ hplaced, ⟨?_, ?_⟩, fun other _ => hlaw.reads other,
    fun _ => .inl, fun other hlost => ?_, hlaw.fresh⟩
  · simp only [point_goto_self]
    trivial
  · intro other hvalue _
    simp only [point_goto_self, ThreadPoint.kept, Function.update_self, Option.some.injEq] at hvalue
    subst hvalue
    exact hknows
  · rcases List.mem_append.mp hlost with hbefore | hlast
    · exact .inl hbefore
    · refine .inr ?_
      have hforgotten : t.held (.inr var) = some other := hkept.trans (Option.mem_toList.mp hlast)
      have hjoinable := (hlaw.inOrder var).kept other hforgotten (by rw [hpoint]; rfl)
      rw [worker_goto, hjoinable]
      decide

/-- A thread is joined. -/
theorem join (hlaw : ThreadLaw t) (hpoint : t.point var = .join info)
    (hended : t.worker info = .ended) :
    ThreadLaw ((t.goto var (.free info)).setWorker info .joined) := by
  have hvalue : t.value var = some info := by
    have hknows := (hlaw.inOrder var).knows
    rwa [hpoint] at hknows
  have hkept : t.held (.inr var) = some info := by rw [ThreadTable.held, hpoint]; exact hvalue
  have hold : info < t.allocated := hlaw.placed.heldOlder _ _ hkept
  have hheld : (t.goto var (.free info)).held = t.held :=
    known_goto_same (by rw [hpoint]; rfl) (by rw [hpoint]; rfl)
  refine hlaw.advance var ⟨fun _ => point_goto_of_ne, fun _ _ => rfl,
    fun other _ _ hother => ?_, hheld.symm ▸ hlaw.placed, ⟨?_, ?_⟩, fun other _ => ?_,
    fun _ => .inl, fun _ => .inl, fun other hnew => ?_⟩
  · have hne : other ≠ info := fun hsame => hother (hsame ▸ hkept)
    exact ⟨setWorker_worker_of_ne hne, rfl, rfl⟩
  · simp only [ThreadTable.setWorker, point_goto_self]
    exact ⟨hvalue, by simp only [Function.update_self]; rfl⟩
  · intro other _ hfree
    simp only [ThreadTable.setWorker, point_goto_self] at hfree
    cases hfree
  · by_cases hsame : other = info
    · subst hsame
      rw [setWorker_worker_self]
      trivial
    · exact reads_congr (hlaw.reads other) (setWorker_worker_of_ne hsame) rfl rfl
  · have hne : other ≠ info := fun hsame => Nat.not_lt.mpr hnew (hsame ▸ hold)
    rw [setWorker_worker_of_ne hne]
    exact hlaw.fresh other hnew

/-- What was allocated for a thread is freed. -/
theorem free (hlaw : ThreadLaw t) (hpoint : t.point var = .free info) :
    ThreadLaw { t.goto var .clear with
      freed := t.freed ++ [info]
      info := Function.update t.info info none } := by
  have hknows := (hlaw.inOrder var).knows
  rw [hpoint] at hknows
  obtain ⟨hvalue, hgone⟩ := hknows
  have hkept : t.held (.inr var) = some info := by rw [ThreadTable.held, hpoint]; exact hvalue
  have hheld : (t.goto var .clear).held = Function.update t.held (.inr var) none :=
    known_goto_kept (by rw [hpoint]; rfl)
  have hplaced : Placed t.allocated (Function.update t.held (.inr var) none)
      (t.freed ++ [info] ++ t.lost) := by
    refine (hlaw.placed.putDown hkept).perm ?_
    rw [List.append_assoc, List.append_assoc]
    exact List.perm_append_comm.append_left t.freed
  refine hlaw.advance var ⟨fun _ => point_goto_of_ne, fun _ _ => rfl,
    fun other _ _ hother => ?_, hheld.symm ▸ hplaced, ⟨?_, ?_⟩, fun other _ => ?_,
    fun other hfreed => ?_, fun _ => .inl, hlaw.fresh⟩
  · have hne : other ≠ info := fun hsame => hother (hsame ▸ hkept)
    exact ⟨rfl, Function.update_of_ne hne _ _, rfl⟩
  · simp only [point_goto_self]
    trivial
  · intro other hnone _
    simp only [point_goto_self] at hnone
    cases hnone
  · by_cases hsame : other = info
    · subst hsame
      exact reads_of_phase (by rw [worker_goto, hgone]; decide)
    · exact reads_congr (hlaw.reads other) rfl (Function.update_of_ne hsame _ _) rfl
  · rcases List.mem_append.mp hfreed with hbefore | hlast
    · exact .inl hbefore
    · obtain rfl := List.mem_singleton.mp hlast
      exact .inr hgone

/-- A variable is null again. -/
theorem clear (hlaw : ThreadLaw t) (hpoint : t.point var = .clear) :
    ThreadLaw { t.goto var .idle with value := Function.update t.value var none } := by
  have hheld : ({ t.goto var .idle with value := Function.update t.value var none } :
      ThreadTable Var Work).held = t.held := by
    have hhand : t.held (.inl var) = none := by rw [ThreadTable.held, hpoint]; rfl
    have hkept : t.held (.inr var) = none := by rw [ThreadTable.held, hpoint]; rfl
    have hsame : Function.update t.held (.inl var) none = t.held :=
      Function.update_eq_self_iff.mpr hhand.symm
    rw [known_assign]
    exact (congrArg (Function.update · _ _) hsame).trans
      (Function.update_eq_self_iff.mpr hkept.symm)
  refine hlaw.advance var ⟨fun _ => point_goto_of_ne, fun _ => (Function.update_of_ne · _ _),
    fun _ _ _ _ => ⟨rfl, rfl, rfl⟩, hheld.symm ▸ hlaw.placed, ⟨?_, ?_⟩,
    fun other _ => hlaw.reads other, fun _ => .inl, fun _ => .inl, hlaw.fresh⟩
  · simp only [point_goto_self]
    trivial
  · intro other hnone _
    simp only [point_goto_self, ThreadPoint.kept, Function.update_self] at hnone
    cases hnone

end ThreadLaw

theorem threadLaw_step {action : ThreadAction Var Work} (hlaw : ThreadLaw t)
    (hstep : t.step action = some later) : ThreadLaw later := by
  cases action with
  | wrapThreadStart var work =>
      simp only [ThreadTable.step] at hstep
      split at hstep
      case h_1 hpoint =>
        cases hstep
        exact hlaw.goto hpoint rfl rfl rfl trivial
      case h_2 => cases hstep
  | allocated var ok =>
      simp only [ThreadTable.step] at hstep
      split at hstep
      case h_1 work hpoint =>
        split at hstep <;> cases hstep
        · exact hlaw.allocate hpoint
        · exact hlaw.goto hpoint rfl rfl rfl trivial
      case h_2 => cases hstep
  | filled var =>
      simp only [ThreadTable.step] at hstep
      split at hstep <;> cases hstep
      exact hlaw.fill ‹_›
  | created var err =>
      simp only [ThreadTable.step] at hstep
      split at hstep
      case h_1 info hpoint =>
        split at hstep <;> cases hstep
        · exact hlaw.create hpoint
        · exact hlaw.lose hpoint
      case h_2 => cases hstep
  | stored var =>
      simp only [ThreadTable.step] at hstep
      split at hstep <;> cases hstep
      exact hlaw.store ‹_›
  | wrapThreadStop var =>
      simp only [ThreadTable.step] at hstep
      split at hstep
      case h_1 hpoint =>
        cases hstep
        exact hlaw.goto hpoint rfl rfl rfl trivial
      case h_2 => cases hstep
  | loaded var =>
      simp only [ThreadTable.step] at hstep
      split at hstep
      case h_1 hpoint =>
        split at hstep
        case h_1 =>
          cases hstep
          exact hlaw.goto hpoint rfl rfl rfl trivial
        case h_2 info hvalue =>
          cases hstep
          exact hlaw.goto hpoint rfl rfl rfl hvalue
      case h_2 => cases hstep
  | cancelled var =>
      simp only [ThreadTable.step] at hstep
      split at hstep
      case h_1 info hpoint =>
        cases hstep
        have hknows := (hlaw.inOrder var).knows
        rw [hpoint] at hknows
        have hjoin : ThreadLaw (t.goto var (.join info)) :=
          hlaw.goto hpoint rfl rfl rfl hknows
        exact ⟨hjoin.placed, fun other => ⟨(hjoin.inOrder other).knows, (hjoin.inOrder other).kept⟩,
          hjoin.reads, hjoin.freed, hjoin.lost, hjoin.fresh⟩
      case h_2 => cases hstep
  | joined var =>
      simp only [ThreadTable.step] at hstep
      split at hstep
      case h_1 info hpoint =>
        split at hstep <;> cases hstep
        exact hlaw.join hpoint ‹_›
      case h_2 => cases hstep
  | freed var =>
      simp only [ThreadTable.step] at hstep
      split at hstep <;> cases hstep
      exact hlaw.free ‹_›
  | cleared var =>
      simp only [ThreadTable.step] at hstep
      split at hstep <;> cases hstep
      exact hlaw.clear ‹_›
  | reads info =>
      simp only [ThreadTable.step] at hstep
      split at hstep
      case h_1 hworker =>
        cases hstep
        have hreads := hlaw.reads info
        rw [hworker] at hreads
        exact hlaw.setWorker (by rw [hworker]; rfl) ⟨hreads.1, hreads.1 ▸ hreads.2⟩
      case h_2 => cases hstep
  | ends info =>
      simp only [ThreadTable.step] at hstep
      split at hstep
      case h_1 work hworker =>
        cases hstep
        exact hlaw.setWorker (by rw [hworker]; rfl) trivial
      case h_2 hworker =>
        split at hstep <;> cases hstep
        exact hlaw.setWorker (by rw [hworker]; rfl) trivial
      case h_3 => cases hstep

theorem threadLaw (hreach : (wrapThreads Var Work).Reachable t) : ThreadLaw t := by
  refine hreach.invariant ?_ fun _ _ _ _ hlaw hstep => threadLaw_step hlaw hstep
  rintro t ⟨hidle, hnull, hallocated, habsent, hfreed, hlost⟩
  have hheld (holder : Var ⊕ Var) : t.held holder = none := by
    cases holder with
    | inl var => rw [ThreadTable.held, hidle]; rfl
    | inr var => rw [ThreadTable.held, hidle]; exact hnull var
  refine ⟨?_, fun var => ⟨?_, fun info hkept => ?_⟩, fun info => ?_, ?_, ?_, fun info _ => ?_⟩
  · rw [hallocated, hfreed, hlost]
    exact .start hheld
  · rw [hidle]
    trivial
  · cases (hheld (.inr var)).symm.trans hkept
  · rw [habsent]
    trivial
  · simp [hfreed]
  · simp [hlost]
  · rw [habsent]
    rfl

/-- The threads are safe in every run. -/
theorem threadsSafe (hreach : (wrapThreads Var Work).Reachable t) : ThreadsSafe t := by
  have hlaw := threadLaw hreach
  have hgone {info : ℕ} (hphase : (t.worker info).phase = .gone) : t.worker info = .joined := by
    cases hworker : t.worker info with
    | joined => rfl
    | _ =>
        rw [hworker] at hphase
        cases hphase
  constructor
  case reads =>
    intro info hreading hfreed
    have hphase := hlaw.freed info hfreed
    rw [hreading] at hphase
    cases hphase
  case runs =>
    intro info work hrunning
    have hreads := hlaw.reads info
    rwa [hrunning] at hreads
  case handles =>
    intro var info hhandle
    have hjoinable : (t.worker info).phase = .joinable := by
      obtain ⟨hknows, hkept⟩ := hlaw.inOrder var
      cases hpoint : t.point var with
      | cancel here | join here =>
          rw [hpoint] at hhandle hknows hkept
          cases hhandle
          exact hkept info hknows rfl
      | _ =>
          rw [hpoint] at hhandle
          cases hhandle
    refine ⟨hjoinable, fun hfreed => ?_⟩
    rw [hlaw.freed info hfreed] at hjoinable
    cases hjoinable
  case freedOnce => exact (List.nodup_append.mp hlaw.placed.once).1
  case freedGone => exact fun info hfreed => hgone (hlaw.freed info hfreed)
  case lostStays =>
    intro info hlost hjoined
    exact hlaw.lost info hlost (by rw [hjoined]; rfl)
  case account =>
    intro hquiet
    have hvalues : t.value = fun var => t.held (.inr var) := by
      funext var
      rw [ThreadTable.held, hquiet var]
      rfl
    rw [hvalues]
    refine hlaw.placed.among (fun _ _ hsame => Sum.inr.inj hsame) fun holder info hholds => ?_
    cases holder with
    | inl var =>
        rw [ThreadTable.held, hquiet var] at hholds
        cases hholds
    | inr var => exact ⟨var, rfl⟩

end Threads

/-- No call has been made. -/
def ThreadTable.initial : ThreadTable Unit ℕ where
  point _ := .idle
  value _ := none
  allocated := 0
  info _ := none
  worker _ := .absent
  cancelled _ := false
  freed := []
  lost := []
  given _ := none

/-- A thread is started over another, and stopped while it runs. -/
def startOverAndStop : List (ThreadAction Unit ℕ) :=
  [.wrapThreadStart () 7, .allocated () true, .filled (), .created () 0, .stored (),
    .wrapThreadStart () 8, .allocated () true, .filled (), .created () 0, .reads 1, .stored (),
    .wrapThreadStop (), .loaded (), .cancelled (), .ends 1, .joined (), .freed (), .cleared ()]

theorem threadsSafe_startOverAndStop :
    ∃ t, (t.freed, t.lost) = ([1], [0]) ∧ ThreadsSafe (t : ThreadTable Unit ℕ) := by
  have hrun : ((wrapThreads Unit ℕ).run .initial startOverAndStop).map
      (fun t => (t.freed, t.lost)) = some ([1], [0]) := by
    decide
  have hstart : (wrapThreads Unit ℕ).Reachable .initial :=
    .start ⟨fun _ => rfl, fun _ => rfl, rfl, fun _ => rfl, rfl, rfl⟩
  obtain ⟨t, hreach, hvalue⟩ := System.exists_reachable_of_run hstart hrun
  exact ⟨t, hvalue, threadsSafe hreach⟩

end HauppaugeUSB.Wrappers

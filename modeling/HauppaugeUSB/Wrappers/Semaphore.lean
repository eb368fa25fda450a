/-
# The counting semaphore of the wrapper layer

`wrapSemCreate`, `wrapSemGive` and `wrapSemTake` build a semaphore from a counter, a
mutex and a condition variable. A take that finds nothing waits, for ever or until
a deadline that it computes from the time of day and the milliseconds it is given.

The functions are the code of a monitor: its data is the counter, and the mutex is
locked by the first statement of a call and unlocked by the last. Each wait may
return at any time, with or without a signal; with `ETIMEDOUT` it returns only when
it has a deadline and the clock has reached it. The counter wraps around as an
`unsigned int` does, and the deadline is computed in `int`s that must not overflow.
-/

import HauppaugeUSB.Concurrency.Monitor
import HauppaugeUSB.Wrappers.Mutex
import Mathlib.Tactic.Set

namespace HauppaugeUSB.Wrappers

open HauppaugeUSB.Concurrency

/-- `struct timeval`, with the microseconds of a time of day. -/
structure Timeval where
  tv_sec : ℤ
  tv_usec : ℤ
  normal : 0 ≤ tv_usec ∧ tv_usec < 1000000
  deriving DecidableEq

def Timeval.nanoseconds (time : Timeval) : ℤ := time.tv_sec * 1000000000 + time.tv_usec * 1000

/-- `gettimeofday`, on a clock that counts nanoseconds. -/
def gettimeofday (now : ℤ) : Timeval :=
  ⟨now / 1000000000, now % 1000000000 / 1000, by omega⟩

/-- The result of an operation on `int`s, unless it overflows. -/
def int32 (value : ℤ) : Option ℤ :=
  if -2147483648 ≤ value ∧ value < 2147483648 then some value else none

/-- The deadline that `wrapSemTake` computes. Only seconds of the time of day, a
`time_t`, are not held to 32 bits. -/
def takeDeadline (tv : Timeval) (ms : Int32) : Option Timespec := do
  let usec ← int32 (tv.tv_usec * 1000)
  let rest ← int32 (ms.toInt.tmod 1000)
  let restNsec ← int32 (rest * 1000000)
  let nsec ← int32 (usec + restNsec)
  let seconds ← int32 (ms.toInt.tdiv 1000)
  let carry ← int32 (nsec.tdiv 1000000000)
  let nsecLeft ← int32 (nsec.tmod 1000000000)
  return { tv_sec := tv.tv_sec + seconds + carry, tv_nsec := nsecLeft }

/-- `WRAPOS_TIMEOUT`. -/
def wrapOsTimeout : ℤ := -2

/-- When a take asked for the time of day, what it was told, and the deadline it computed. -/
structure SemDeadline where
  called : ℤ
  tv : Timeval
  ts : Timespec
  deriving DecidableEq

/-- The variables of `wrapSemTake`, and when its wait timed out. -/
structure SemTake where
  ms : Int32
  deadline : Option SemDeadline
  r : ℤ
  expired : Option ℤ
  deriving DecidableEq

/-- A take that has not waited. -/
def SemTake.fresh (ms : Int32) : SemTake := ⟨ms, none, 0, none⟩

/-- A take that has its result, and the counter as it found it in the end. -/
structure TakeReturn where
  take : SemTake
  lastCnt : ℕ
  ret : ℤ
  deriving DecidableEq

/-- `wrapSemInfo_t`, and what calls have returned so far. -/
structure SemInfo where
  cnt : ℕ
  gives : ℕ
  takes : List TakeReturn

/-- How many takes have returned `WRAPOS_OK`. -/
def SemInfo.oks (sem : SemInfo) : ℕ := sem.takes.countP fun call => call.ret = wrapOsOk

/-- `wrapSemCreate`. -/
def wrapSemCreate (cnt : ℕ) : SemInfo := ⟨cnt, 0, []⟩

/-- The places in `wrapSemGive` and `wrapSemTake`. -/
inductive SemPoint
  | giveCount
  | giveSignal
  | giveUnlock
  | takeTest (ms : Int32)
  | takeClock (ms : Int32)
  | takeLoop (take : SemTake)
  | takeCheck (take : SemTake)
  | takeUnlock (call : TakeReturn)
  /-- An `int` has overflowed. -/
  | undefined
  deriving DecidableEq

def SemPoint.isEntry : SemPoint → Bool
  | .giveCount | .takeTest _ => true
  | _ => false

/-- What a thread does while it has the mutex. -/
def semRun (now : ℤ) (sem : SemInfo) : SemPoint → MonitorMove SemInfo SemPoint
  | .giveCount => .go { sem with cnt := (sem.cnt + 1) % 2 ^ 32 } .giveSignal
  | .giveSignal => .go sem .giveUnlock
  | .giveUnlock => .leave { sem with gives := sem.gives + 1 }
  | .takeTest ms =>
      if sem.cnt = 0 then
        if ms.toInt < 0 then .go sem (.takeLoop (.fresh ms)) else .go sem (.takeClock ms)
      else .go sem (.takeCheck (.fresh ms))
  | .takeClock ms =>
      let tv := gettimeofday now
      match takeDeadline tv ms with
      | some ts => .go sem (.takeLoop { SemTake.fresh ms with deadline := some ⟨now, tv, ts⟩ })
      | none => .go sem .undefined
  | .takeLoop take => if sem.cnt = 0 then .wait (.takeLoop take) else .go sem (.takeCheck take)
  | .takeCheck take =>
      if sem.cnt = 0 then
        let ret := if take.r = eTimedOut then wrapOsTimeout else wrapOsError
        .go sem (.takeUnlock ⟨take, sem.cnt, ret⟩)
      else
        .go { sem with cnt := (sem.cnt + 2 ^ 32 - 1) % 2 ^ 32 }
          (.takeUnlock ⟨take, sem.cnt, wrapOsOk⟩)
  | .takeUnlock call => .leave { sem with takes := sem.takes ++ [call] }
  | .undefined => .go sem .undefined

/-- The result of `pthread_cond_wait` or, when there is a deadline, `pthread_cond_timedwait`:
the loop goes round with zero and ends with any other. -/
def semWake (now : ℤ) : SemPoint → ℤ → Option SemPoint
  | .takeLoop take, r =>
      if r = 0 then some (.takeLoop take)
      else if r = eTimedOut then
        match take.deadline with
        | some deadline =>
            if deadline.ts.nanoseconds ≤ now then
              some (.takeCheck { take with r := r, expired := some now })
            else none
        | none => none
      else some (.takeCheck { take with r := r })
  | _, _ => none

/-- The semaphore's code. -/
def semProgram : MonitorProgram SemInfo SemPoint := ⟨SemPoint.isEntry, semRun, semWake⟩

variable {Tid : Type*} [DecidableEq Tid]

/-- A semaphore made with a certain count, and any number of threads that use it. -/
@[reducible]
def semaphore (cnt : ℕ) : System (Monitor Tid SemInfo SemPoint) (MonitorAction Tid SemPoint) :=
  Monitor.system semProgram fun sem => sem = wrapSemCreate cnt

/-- The deadline is the time of day and the milliseconds, in the form that a `timespec` has. -/
structure SemDeadline.Exact (deadline : SemDeadline) (ms : Int32) : Prop where
  read : deadline.tv = gettimeofday deadline.called
  instant : deadline.ts.nanoseconds = deadline.tv.nanoseconds + ms.toInt * 1000000
  normal : 0 ≤ deadline.ts.tv_nsec ∧ deadline.ts.tv_nsec < 1000000000

theorem int32_eq_some {value : ℤ} (hlow : -2147483648 ≤ value) (hhigh : value < 2147483648) :
    int32 value = some value :=
  if_pos ⟨hlow, hhigh⟩

/-- No `int` overflows on the way to a deadline. -/
theorem takeDeadline_eq_some (tv : Timeval) {ms : Int32} (hms : 0 ≤ ms.toInt) :
    takeDeadline tv ms = some
      { tv_sec := tv.tv_sec + ms.toInt / 1000 +
          (tv.tv_usec * 1000 + ms.toInt % 1000 * 1000000) / 1000000000
        tv_nsec := (tv.tv_usec * 1000 + ms.toInt % 1000 * 1000000) % 1000000000 } := by
  obtain ⟨sec, usec, hnormal⟩ := tv
  have hrange := ms.toInt_lt
  set nsec := usec * 1000 + ms.toInt % 1000 * 1000000 with hnsec
  have husec : int32 (usec * 1000) = some (usec * 1000) := int32_eq_some (by omega) (by omega)
  have hrest : int32 (ms.toInt.tmod 1000) = some (ms.toInt % 1000) := by
    rw [Int.tmod_eq_emod_of_nonneg hms]
    exact int32_eq_some (by omega) (by omega)
  have hrestNsec : int32 (ms.toInt % 1000 * 1000000) = some (ms.toInt % 1000 * 1000000) :=
    int32_eq_some (by omega) (by omega)
  have hsum : int32 (usec * 1000 + ms.toInt % 1000 * 1000000) = some nsec :=
    int32_eq_some (by omega) (by omega)
  have hseconds : int32 (ms.toInt.tdiv 1000) = some (ms.toInt / 1000) := by
    rw [Int.tdiv_eq_ediv_of_nonneg hms]
    exact int32_eq_some (by omega) (by omega)
  have hcarry : int32 (nsec.tdiv 1000000000) = some (nsec / 1000000000) := by
    rw [Int.tdiv_eq_ediv_of_nonneg (by omega)]
    exact int32_eq_some (by omega) (by omega)
  have hleft : int32 (nsec.tmod 1000000000) = some (nsec % 1000000000) := by
    rw [Int.tmod_eq_emod_of_nonneg (by omega)]
    exact int32_eq_some (by omega) (by omega)
  simp only [takeDeadline, husec, hrest, hrestNsec, hsum, hseconds, hcarry, hleft,
    Option.bind_eq_bind, Option.bind_some]
  rfl

theorem exact_of_takeDeadline {now : ℤ} {ms : Int32} {ts : Timespec} (hms : 0 ≤ ms.toInt)
    (hts : takeDeadline (gettimeofday now) ms = some ts) :
    SemDeadline.Exact ⟨now, gettimeofday now, ts⟩ ms := by
  rw [takeDeadline_eq_some _ hms, Option.some.injEq] at hts
  subst hts
  constructor
  case read => rfl
  case instant =>
    simp only [Timespec.nanoseconds, Timeval.nanoseconds]
    omega
  case normal => exact ⟨Int.emod_nonneg _ (by decide), Int.emod_lt_of_pos _ (by decide)⟩

/-- The take found nothing in the end, and by then the clock had reached the time of its
call and the milliseconds it was given. -/
def TakeReturn.TimedOut (call : TakeReturn) : Prop :=
  0 ≤ call.take.ms.toInt ∧ call.lastCnt = 0 ∧
    ∃ deadline ∈ call.take.deadline, ∃ reached ∈ call.take.expired,
      deadline.Exact call.take.ms ∧
        deadline.tv.nanoseconds + call.take.ms.toInt * 1000000 ≤ reached

/-- What a call that has the mutex has done to the counter, but has not returned yet. -/
def SemPoint.effect : SemPoint → ℤ
  | .giveSignal | .giveUnlock => 1
  | .takeUnlock call => if call.ret = wrapOsOk then -1 else 0
  | _ => 0

/-- The effect of the call that has the mutex. -/
def pendingEffect (m : Monitor Tid SemInfo SemPoint) : ℤ :=
  match m.owner with
  | none => 0
  | some tid => ((m.threads tid).place.map SemPoint.effect).getD 0

/-- The semaphore counts, its deadlines are exact, and its takes give up late. -/
structure SemaphoreCorrect (initial : ℕ) (m : Monitor Tid SemInfo SemPoint) : Prop where
  count : (m.shared.cnt : ℤ) =
    initial + m.shared.gives - m.shared.oks + pendingEffect m
  nonnegative : m.shared.oks ≤ initial + m.shared.gives
  timeouts : ∀ call ∈ m.shared.takes, call.ret = wrapOsTimeout → call.TimedOut
  deadlines : ∀ tid take, (m.threads tid).place = some (.takeLoop take) →
    ∀ deadline ∈ take.deadline, 0 ≤ take.ms.toInt ∧ deadline.Exact take.ms
  defined : ∀ tid, (m.threads tid).place ≠ some .undefined

/-- The counter stays below the bound of its type. -/
def StaysBelow (_now : ℤ) (sem : SemInfo) (point : SemPoint) : Prop :=
  point = .giveCount → sem.cnt + 1 < 2 ^ 32

/-- The counter and the history agree, up to the effect of a call that has not returned. -/
structure SemInfo.Balanced (initial : ℕ) (effect : ℤ) (sem : SemInfo) : Prop where
  range : sem.cnt < 2 ^ 32
  count : (sem.cnt : ℤ) = initial + sem.gives - sem.oks + effect
  given : effect ≤ sem.cnt
  timeouts : ∀ call ∈ sem.takes, call.ret = wrapOsTimeout → call.TimedOut

/-- A take has a deadline only for milliseconds that are not negative, and has been timed
out by it only. -/
structure SemTake.Sound (take : SemTake) : Prop where
  exact : ∀ deadline ∈ take.deadline, 0 ≤ take.ms.toInt ∧ deadline.Exact take.ms
  expired : take.r = eTimedOut →
    ∃ deadline ∈ take.deadline, ∃ reached ∈ take.expired, deadline.ts.nanoseconds ≤ reached

/-- What a call knows of its own variables. -/
def SemPoint.Sound : SemPoint → Prop
  | .giveCount | .giveSignal | .giveUnlock | .takeTest _ => True
  | .takeClock ms => 0 ≤ ms.toInt
  | .takeLoop take | .takeCheck take => take.Sound
  | .takeUnlock call => call.ret = wrapOsTimeout → call.TimedOut
  | .undefined => False

theorem sound_fresh (ms : Int32) : (SemTake.fresh ms).Sound where
  exact _ hdeadline := nomatch hdeadline
  expired hr := by simp [SemTake.fresh, eTimedOut] at hr

theorem sound_deadline {now : ℤ} {ms : Int32} {ts : Timespec} (hms : 0 ≤ ms.toInt)
    (hts : takeDeadline (gettimeofday now) ms = some ts) :
    SemTake.Sound { SemTake.fresh ms with deadline := some ⟨now, gettimeofday now, ts⟩ } where
  exact deadline hdeadline := by
    cases hdeadline
    exact ⟨hms, exact_of_takeDeadline hms hts⟩
  expired hr := by simp [SemTake.fresh, eTimedOut] at hr

theorem timedOut_of_sound {take : SemTake} (hsound : take.Sound) (hr : take.r = eTimedOut)
    (ret : ℤ) : TakeReturn.TimedOut ⟨take, 0, ret⟩ := by
  obtain ⟨deadline, hdeadline, reached, hreached, hlate⟩ := hsound.expired hr
  obtain ⟨hms, hexact⟩ := hsound.exact deadline hdeadline
  refine ⟨hms, rfl, deadline, hdeadline, reached, hreached, hexact, ?_⟩
  rw [← hexact.instant]
  exact hlate

theorem oks_append (sem : SemInfo) (call : TakeReturn) :
    SemInfo.oks { sem with takes := sem.takes ++ [call] } =
      sem.oks + if call.ret = wrapOsOk then 1 else 0 := by
  simp [SemInfo.oks, List.countP_append, List.countP_cons]

/-- A unit is given. -/
theorem balanced_giveCount {initial : ℕ} {sem : SemInfo} (hbalanced : sem.Balanced initial 0)
    (hbelow : sem.cnt + 1 < 2 ^ 32) :
    SemInfo.Balanced initial 1 { sem with cnt := (sem.cnt + 1) % 2 ^ 32 } := by
  have hcount := hbalanced.count
  have hcnt : (sem.cnt + 1) % 2 ^ 32 = sem.cnt + 1 := Nat.mod_eq_of_lt hbelow
  rw [hcnt]
  refine ⟨hbelow, ?_, ?_, hbalanced.timeouts⟩
  · simp only [SemInfo.oks] at hcount ⊢
    push_cast
    omega
  · push_cast
    omega

/-- A unit is taken. -/
theorem balanced_take {initial : ℕ} {sem : SemInfo} (hbalanced : sem.Balanced initial 0)
    (hsome : sem.cnt ≠ 0) :
    SemInfo.Balanced initial (-1) { sem with cnt := (sem.cnt + 2 ^ 32 - 1) % 2 ^ 32 } := by
  have hcount := hbalanced.count
  have hrange := hbalanced.range
  have hcnt : (sem.cnt + 2 ^ 32 - 1) % 2 ^ 32 = sem.cnt - 1 := by omega
  rw [hcnt]
  refine ⟨by simp only; omega, ?_, by simp only; omega, hbalanced.timeouts⟩
  simp only [SemInfo.oks] at hcount ⊢
  omega

theorem semRun_go {initial : ℕ} {now : ℤ} {sem sem' : SemInfo} {point point' : SemPoint}
    (hsound : point.Sound) (hbalanced : sem.Balanced initial point.effect)
    (hbelow : StaysBelow now sem point) (hrun : semRun now sem point = .go sem' point') :
    point'.Sound ∧ sem'.Balanced initial point'.effect := by
  cases point with
  | giveCount =>
      cases hrun
      exact ⟨trivial, balanced_giveCount hbalanced (hbelow rfl)⟩
  | giveSignal =>
      cases hrun
      exact ⟨trivial, hbalanced⟩
  | takeTest ms =>
      simp only [semRun] at hrun
      split at hrun
      · split at hrun <;> cases hrun
        · exact ⟨sound_fresh ms, hbalanced⟩
        · exact ⟨Int.not_lt.mp ‹_›, hbalanced⟩
      · cases hrun
        exact ⟨sound_fresh ms, hbalanced⟩
  | takeClock ms =>
      simp only [semRun, takeDeadline_eq_some _ hsound] at hrun
      cases hrun
      exact ⟨sound_deadline hsound (takeDeadline_eq_some _ hsound), hbalanced⟩
  | takeLoop take =>
      simp only [semRun] at hrun
      split at hrun <;> cases hrun
      exact ⟨hsound, hbalanced⟩
  | takeCheck take =>
      simp only [semRun] at hrun
      split at hrun
      case isTrue hzero =>
        cases hrun
        constructor
        · intro hret
          rw [hzero]
          by_cases hr : take.r = eTimedOut
          · exact timedOut_of_sound hsound hr _
          · simp [hr, wrapOsError, wrapOsTimeout] at hret
        · have heffect : SemPoint.effect (.takeUnlock
              ⟨take, sem.cnt, if take.r = eTimedOut then wrapOsTimeout else wrapOsError⟩) = 0 := by
            by_cases hr : take.r = eTimedOut <;>
              simp [SemPoint.effect, hr, wrapOsOk, wrapOsTimeout, wrapOsError]
          rw [heffect]
          exact hbalanced
      case isFalse hsome =>
        rw [MonitorMove.go.injEq] at hrun
        obtain ⟨rfl, rfl⟩ := hrun
        constructor
        · intro hret
          simp [wrapOsOk, wrapOsTimeout] at hret
        · have heffect : SemPoint.effect (.takeUnlock ⟨take, sem.cnt, wrapOsOk⟩) = -1 := by
            simp [SemPoint.effect]
          rw [heffect]
          exact balanced_take hbalanced hsome
  | giveUnlock => cases hrun
  | takeUnlock call => cases hrun
  | undefined => exact hsound.elim

/-- Only the loop waits. -/
theorem semRun_eq_wait {now : ℤ} {sem : SemInfo} {point point' : SemPoint}
    (hrun : semRun now sem point = .wait point') :
    ∃ take, point = .takeLoop take ∧ point' = .takeLoop take := by
  cases point with
  | takeLoop take =>
      simp only [semRun] at hrun
      split at hrun <;> cases hrun
      exact ⟨take, rfl, rfl⟩
  | _ =>
      simp only [semRun] at hrun
      grind

/-- A call leaves from its last place. -/
theorem semRun_eq_leave {now : ℤ} {sem sem' : SemInfo} {point : SemPoint}
    (hrun : semRun now sem point = .leave sem') :
    (point = .giveUnlock ∧ sem' = { sem with gives := sem.gives + 1 }) ∨
      ∃ call, point = .takeUnlock call ∧ sem' = { sem with takes := sem.takes ++ [call] } := by
  cases point with
  | giveUnlock =>
      cases hrun
      exact .inl ⟨rfl, rfl⟩
  | takeUnlock call =>
      cases hrun
      exact .inr ⟨call, rfl, rfl⟩
  | _ =>
      simp only [semRun] at hrun
      grind

theorem semRun_wait {initial : ℕ} {now : ℤ} {sem : SemInfo} {point point' : SemPoint}
    (hsound : point.Sound) (hbalanced : sem.Balanced initial point.effect)
    (hrun : semRun now sem point = .wait point') :
    (point'.Sound ∧ point'.effect = 0) ∧ sem.Balanced initial 0 := by
  obtain ⟨take, rfl, rfl⟩ := semRun_eq_wait hrun
  exact ⟨⟨hsound, rfl⟩, hbalanced⟩

theorem semRun_leave {initial : ℕ} {now : ℤ} {sem sem' : SemInfo} {point : SemPoint}
    (hsound : point.Sound) (hbalanced : sem.Balanced initial point.effect)
    (hrun : semRun now sem point = .leave sem') : sem'.Balanced initial 0 := by
  have hcount := hbalanced.count
  rcases semRun_eq_leave hrun with ⟨rfl, rfl⟩ | ⟨call, rfl, rfl⟩
  · refine ⟨hbalanced.range, ?_, Int.natCast_nonneg _, hbalanced.timeouts⟩
    simp only [SemPoint.effect, SemInfo.oks] at hcount ⊢
    push_cast
    omega
  · refine ⟨hbalanced.range, ?_, Int.natCast_nonneg _, fun other hmem => ?_⟩
    · rw [oks_append]
      simp only [SemPoint.effect] at hcount
      by_cases hret : call.ret = wrapOsOk
      · rw [if_pos hret] at hcount
        simp only [if_pos hret]
        push_cast
        omega
      · rw [if_neg hret] at hcount
        simpa [if_neg hret] using hcount
    · rcases List.mem_append.mp hmem with hold | hnew
      · exact hbalanced.timeouts other hold
      · obtain rfl := List.mem_singleton.mp hnew
        exact hsound

theorem semWake_sound {now r : ℤ} {point point' : SemPoint} (hsound : point.Sound)
    (hwake : semWake now point r = some point') : point'.Sound ∧ point'.effect = 0 := by
  cases point with
  | takeLoop take =>
      simp only [semWake] at hwake
      split at hwake
      case isTrue =>
        cases hwake
        exact ⟨hsound, rfl⟩
      case isFalse =>
        split at hwake
        case isTrue hr =>
          split at hwake
          case h_1 deadline hdeadline =>
            split at hwake <;> cases hwake
            exact ⟨⟨hsound.exact, fun _ => ⟨deadline, hdeadline, now, rfl, ‹_›⟩⟩, rfl⟩
          case h_2 => cases hwake
        case isFalse hr =>
          cases hwake
          exact ⟨⟨hsound.exact, fun hr' => absurd hr' hr⟩, rfl⟩
  | _ => cases hwake

/-- The proof of the semaphore, place by place. -/
def semOutline (initial : ℕ) (hinitial : initial < 2 ^ 32) :
    Monitor.Outline semProgram (fun sem => sem = wrapSemCreate initial) StaysBelow where
  free sem := sem.Balanced initial 0
  held point sem := point.Sound ∧ sem.Balanced initial point.effect
  outer point := point.Sound ∧ point.effect = 0
  start sem hsem := by
    subst hsem
    exact ⟨hinitial, by simp [wrapSemCreate, SemInfo.oks], Int.natCast_nonneg _,
      fun _ hmem => nomatch hmem⟩
  entry point hentry := by
    cases point with
    | giveCount | takeTest _ => exact ⟨trivial, rfl⟩
    | _ => cases hentry
  enter point sem hready hbalanced := ⟨hready.1, hready.2.symm ▸ hbalanced⟩
  go _ _ _ _ _ hheld := semRun_go hheld.1 hheld.2
  wait _ _ _ _ hheld := semRun_wait hheld.1 hheld.2
  leave _ _ _ _ hheld := semRun_leave hheld.1 hheld.2
  wake _ _ _ _ hready := semWake_sound hready.1

section Holds

variable {initial : ℕ} {hinitial : initial < 2 ^ 32} {m : Monitor Tid SemInfo SemPoint}

omit [DecidableEq Tid] in
/-- The counter and the history agree, up to the effect of the call that has the mutex. -/
theorem balanced_of_holds (hholds : (semOutline initial hinitial).Holds m) :
    m.shared.Balanced initial (pendingEffect m) := by
  cases howner : m.owner with
  | none =>
      simp only [pendingEffect, howner]
      exact hholds.free howner
  | some tid =>
      obtain ⟨point, hinside⟩ := (hholds.exclusive tid).mp howner
      have hheld := hholds.held tid point hinside
      simpa [pendingEffect, howner, hinside, MonitorThread.place] using hheld.2

omit [DecidableEq Tid] in
theorem sound_of_holds (hholds : (semOutline initial hinitial).Holds m) {tid : Tid}
    {point : SemPoint} (hplace : (m.threads tid).place = some point) : point.Sound := by
  cases hthread : m.threads tid with
  | outside => simp [hthread, MonitorThread.place] at hplace
  | inside place =>
      rw [hthread, MonitorThread.place, Option.some.injEq] at hplace
      exact hplace ▸ (hholds.held tid place hthread).1
  | entering place =>
      rw [hthread, MonitorThread.place, Option.some.injEq] at hplace
      exact hplace ▸ (hholds.outer tid place (by rw [hthread]; rfl)).1
  | waiting place =>
      rw [hthread, MonitorThread.place, Option.some.injEq] at hplace
      exact hplace ▸ (hholds.outer tid place (by rw [hthread]; rfl)).1

end Holds

/-- The semaphore is correct in every run that keeps its counter within its type. -/
theorem semaphoreCorrect {initial : ℕ} (hinitial : initial < 2 ^ 32)
    {m : Monitor Tid SemInfo SemPoint}
    (hreach : (semaphore initial).ReachableBy (Monitor.Meets StaysBelow) m) :
    SemaphoreCorrect initial m := by
  have hholds := (semOutline initial hinitial).sound hreach
  have hbalanced := balanced_of_holds hholds
  constructor
  case count => exact hbalanced.count
  case nonnegative =>
    have hcount := hbalanced.count
    have hgiven := hbalanced.given
    omega
  case timeouts => exact hbalanced.timeouts
  case deadlines =>
    intro tid take hplace deadline hdeadline
    have hsound : take.Sound := sound_of_holds hholds hplace
    exact hsound.exact deadline hdeadline
  case defined =>
    intro tid hplace
    exact sound_of_holds hholds hplace

instance (now : ℤ) (sem : SemInfo) (point : SemPoint) : Decidable (StaysBelow now sem point) :=
  inferInstanceAs (Decidable (point = .giveCount → sem.cnt + 1 < 2 ^ 32))

/-- One thread takes with a timeout of a second and a half and gives up, then one gives
and the first takes again. -/
def takeGiveTake : List (MonitorAction ℕ SemPoint) :=
  [.call 0 (.takeTest 1500), .enter 0, .run 0, .run 0, .run 0, .wake 0 0, .enter 0, .run 0,
    .setClock 1515000002400000000, .wake 0 eTimedOut, .enter 0, .run 0, .run 0,
    .call 1 .giveCount, .enter 1, .run 1, .run 1, .run 1,
    .call 0 (.takeTest (-1)), .enter 0, .run 0, .run 0, .run 0]

theorem semaphoreCorrect_takeGiveTake :
    ∃ m : Monitor ℕ SemInfo SemPoint,
      (m.shared.cnt, m.shared.gives, m.shared.takes.map TakeReturn.ret) =
        (0, 1, [wrapOsTimeout, wrapOsOk]) ∧ SemaphoreCorrect 0 m := by
  have hrun : ((semaphore 0).runBy (Monitor.Meets StaysBelow)
      (Monitor.initial 1515000000900000000 (wrapSemCreate 0)) takeGiveTake).map
        (fun m => (m.shared.cnt, m.shared.gives, m.shared.takes.map TakeReturn.ret)) =
      some (0, 1, [wrapOsTimeout, wrapOsOk]) := by
    decide +kernel
  have hstart : (semaphore 0).ReachableBy (Monitor.Meets StaysBelow)
      (Monitor.initial 1515000000900000000 (wrapSemCreate 0) : Monitor ℕ SemInfo SemPoint) :=
    .start ⟨1515000000900000000, wrapSemCreate 0, rfl, rfl⟩
  obtain ⟨m, hreach, hvalue⟩ := System.exists_reachableBy_of_runBy hstart hrun
  exact ⟨m, hvalue, semaphoreCorrect (by decide) hreach⟩

end HauppaugeUSB.Wrappers

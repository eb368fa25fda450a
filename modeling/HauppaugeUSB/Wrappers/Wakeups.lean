/-
# The wake-ups of the semaphore

`wrapSemGive` signals one of the takes that wait, after it has counted, and releases the
mutex. The take that it wakes must still get the mutex, and another may come first and take
the unit; or its wait ends by itself just then. None of this loses a wake-up: as long as a
take waits, there is for every unit a thread on its way that will look at the counter, or
the give that is about to wake one. So the calls come to rest, and when they have, nobody
waits while there is a unit.
-/

import HauppaugeUSB.Concurrency.Signals
import HauppaugeUSB.Wrappers.Semaphore

namespace HauppaugeUSB.Wrappers

open HauppaugeUSB.Concurrency

/-- `wrapSemGive` signals when it has counted. -/
def semSignals : SemPoint → Bool
  | .giveSignal => true
  | _ => false

variable {Tid : Type*} [Fintype Tid] [DecidableEq Tid]

/-- A semaphore made with a certain count, and any finite number of threads that use it. -/
@[reducible]
def signalledSemaphore (cnt : ℕ) :
    System (Monitor Tid SemInfo SemPoint) (SignalAction Tid SemPoint) :=
  Monitor.signalSystem semProgram semSignals fun sem => sem = wrapSemCreate cnt

/-- How many looks at the counter are sure to follow, by a take that has waited or by one that
is about to be woken. -/
def SemPoint.looks : SemPoint → ℕ
  | .giveSignal | .takeLoop _ | .takeCheck _ => 1
  | _ => 0

/-- A take that waits does not look before it is woken. -/
def looks : MonitorThread SemPoint → ℕ
  | .entering point | .inside point => point.looks
  | .outside | .waiting _ => 0

/-- How many steps a call takes at most until it waits or returns, with those of the take
that it wakes. -/
def SemPoint.left : SemPoint → ℕ
  | .undefined => 0
  | .giveUnlock | .takeUnlock _ => 1
  | .takeCheck _ => 2
  | .takeLoop _ => 3
  | .takeClock _ => 4
  | .takeTest _ => 5
  | .giveSignal => 6
  | .giveCount => 7

/-- A call that is about to enter has a step more. -/
def left : MonitorThread SemPoint → ℕ
  | .entering point => point.left + 1
  | .inside point => point.left
  | .outside | .waiting _ => 0

/-- No wake-up is lost: for each unit somebody is on the way while a take waits, calls that are
going on come to rest unless a wait ends by itself, and then nobody waits while there is a
unit. -/
structure LosesNoWakeup (initial : ℕ) (m : Monitor Tid SemInfo SemPoint) : Prop where
  onTheWay : ∀ tid, (m.threads tid).isWaiting = true → m.shared.cnt ≤ m.total looks
  bounded : ∀ schedule last, (∀ action ∈ schedule, action.Continues) →
    (signalledSemaphore initial).run m schedule = some last → schedule.length ≤ m.total left
  continues : m.AtRest ∨ ∃ action next, action.Continues ∧
    (signalledSemaphore initial).step m action = some next
  settled : m.AtRest → m.shared.cnt = 0 ∨ ∀ tid, m.threads tid = .outside

open Monitor

/-- A take has no deadline to compute for a time that is negative. -/
def SemPoint.Timed : SemPoint → Prop
  | .takeClock ms => 0 ≤ ms.toInt
  | .undefined => False
  | _ => True

theorem semRun_timed {now : ℤ} {sem sem' : SemInfo} {point point' : SemPoint}
    (htimed : point.Timed) (hrun : semRun now sem point = .go sem' point') : point'.Timed := by
  cases point with
  | takeTest ms =>
      simp only [semRun] at hrun
      split at hrun
      · split at hrun <;> cases hrun
        · trivial
        · exact Int.not_lt.mp ‹_›
      · cases hrun
        trivial
  | takeClock ms =>
      simp only [semRun, takeDeadline_eq_some _ htimed] at hrun
      cases hrun
      trivial
  | takeLoop take =>
      simp only [semRun] at hrun
      split at hrun <;> cases hrun
      trivial
  | takeCheck take =>
      simp only [semRun] at hrun
      split at hrun <;> rw [MonitorMove.go.injEq] at hrun <;> exact hrun.2 ▸ trivial
  | giveCount | giveSignal =>
      rw [semRun, MonitorMove.go.injEq] at hrun
      exact hrun.2 ▸ trivial
  | giveUnlock | takeUnlock _ => cases hrun
  | undefined => exact htimed.elim

/-- Unless nothing is left, whoever takes a step still has the looks that its unit needs. -/
theorem looks_semRun {now : ℤ} {sem : SemInfo} {point : SemPoint}
    (hquiet : semSignals point = false) :
    (written sem (semRun now sem point)).cnt = 0 ∨
      (moved (semRun now sem point)).isWaiting = false ∧
        (written sem (semRun now sem point)).cnt + point.looks ≤
          sem.cnt + looks (moved (semRun now sem point)) := by
  cases point with
  | giveCount =>
      refine .inr ⟨rfl, ?_⟩
      simp only [semRun, written, moved, looks, SemPoint.looks]
      omega
  | giveSignal => cases hquiet
  | giveUnlock | takeUnlock _ | undefined => exact .inr ⟨rfl, Nat.le_refl _⟩
  | takeTest ms =>
      by_cases hzero : sem.cnt = 0
      · left
        by_cases hms : ms.toInt < 0 <;> simp [semRun, hzero, hms, written]
      · right
        simp [semRun, hzero, written, moved, MonitorThread.isWaiting, SemPoint.looks]
  | takeClock ms =>
      right
      cases hdeadline : takeDeadline (gettimeofday now) ms <;>
        simp [semRun, hdeadline, written, moved, MonitorThread.isWaiting, SemPoint.looks]
  | takeLoop take =>
      by_cases hzero : sem.cnt = 0
      · left
        simp [semRun, hzero, written]
      · right
        simp [semRun, hzero, written, moved, MonitorThread.isWaiting, looks, SemPoint.looks]
  | takeCheck take =>
      by_cases hzero : sem.cnt = 0
      · left
        simp [semRun, hzero, written]
      · right
        simp only [semRun, hzero, if_false, written, moved, MonitorThread.isWaiting, looks,
          SemPoint.looks, true_and]
        omega

/-- A step uses up what is left. -/
theorem left_semRun (now : ℤ) (sem : SemInfo) {point : SemPoint} (htimed : point.Timed)
    (hquiet : semSignals point = false) :
    left (moved (semRun now sem point)) < left (.inside point) := by
  cases point with
  | giveSignal => cases hquiet
  | giveCount | giveUnlock | takeUnlock _ => simp [semRun, moved, left, SemPoint.left]
  | undefined => exact htimed.elim
  | takeTest ms =>
      by_cases hzero : sem.cnt = 0 <;> by_cases hms : ms.toInt < 0 <;>
        simp [semRun, hzero, hms, moved, left, SemPoint.left]
  | takeClock ms => simp [semRun, takeDeadline_eq_some _ htimed, moved, left, SemPoint.left]
  | takeLoop take | takeCheck take =>
      by_cases hzero : sem.cnt = 0 <;> simp [semRun, hzero, moved, left, SemPoint.left]

/-- Nobody computes a deadline from a negative time, whatever the counter is. -/
def timedOutline (initial : ℕ) :
    Monitor.Outline semProgram (fun sem => sem = wrapSemCreate initial) (fun _ _ _ => True) where
  free _ := True
  held point _ := point.Timed
  outer point := point.Timed
  start _ _ := trivial
  entry point hentry := by
    cases point with
    | giveCount | takeTest _ => trivial
    | _ => cases hentry
  enter _ _ htimed _ := htimed
  go _ _ _ _ _ htimed _ := semRun_timed htimed
  wait _ _ _ _ _ hrun := by
    obtain ⟨take, -, rfl⟩ := semRun_eq_wait hrun
    exact ⟨trivial, trivial⟩
  leave _ _ _ _ _ _ := trivial
  wake _ point r point' _ hwake := by
    cases point with
    | takeLoop take =>
        simp only [semProgram, semWake] at hwake
        split at hwake
        · cases hwake
          trivial
        · split at hwake
          · split at hwake
            · split at hwake <;> cases hwake
              trivial
            · cases hwake
          · cases hwake
            trivial
    | _ => cases hwake

section Invariants

variable {initial : ℕ} {m m' : Monitor Tid SemInfo SemPoint}

theorem holds_timedOutline (hreach : (signalledSemaphore initial).Reachable m) :
    (timedOutline initial).Holds m := by
  refine (timedOutline initial).sound ((reachable_of_signals hreach).mono fun m action _ => ?_)
  cases action with
  | run tid => exact fun _ _ => trivial
  | _ => trivial

/-- Only takes wait, in their loops. -/
theorem waits_in_loop (hreach : (signalledSemaphore initial).Reachable m) {tid : Tid}
    (hwaits : (m.threads tid).isWaiting = true) :
    ∃ take, m.threads tid = .waiting (.takeLoop take) := by
  have hloop (now : ℤ) (sem : SemInfo) (point next : SemPoint)
      (hrun : semRun now sem point = .wait next) : ∃ take, next = .takeLoop take :=
    (semRun_eq_wait hrun).imp fun _ => And.right
  obtain ⟨point, hpoint⟩ := MonitorThread.isWaiting_iff.mp hwaits
  obtain ⟨take, rfl⟩ := waits_of_reachable hloop (reachable_of_signals hreach) hpoint
  exact ⟨take, hpoint⟩

end Invariants

section Looks

variable {m m' : Monitor Tid SemInfo SemPoint} {tid : Tid}

/-- As long as a take waits, there are as many looks to come as there are units. -/
def Covered (m : Monitor Tid SemInfo SemPoint) : Prop :=
  (∃ tid, (m.threads tid).isWaiting = true) → m.shared.cnt ≤ m.total looks

omit [Fintype Tid] in
theorem waits_of_setThread {thread : MonitorThread SemPoint} (hthread : thread.isWaiting = false)
    (hwaits : ∃ other, ((m.setThread tid thread).threads other).isWaiting = true) :
    ∃ other, (m.threads other).isWaiting = true := by
  obtain ⟨other, hother⟩ := hwaits
  by_cases hsame : other = tid
  · subst hsame
    rw [setThread_threads_self, hthread] at hother
    cases hother
  · rw [setThread_threads_of_ne tid thread hsame] at hother
    exact ⟨other, hother⟩

/-- A thread moves on outside the mutex. -/
theorem covered_setThread {thread : MonitorThread SemPoint} (hcovered : Covered m)
    (hthread : thread.isWaiting = false) (hlooks : looks (m.threads tid) ≤ looks thread) :
    Covered (m.setThread tid thread) := by
  intro hwaits
  have hbefore := hcovered (waits_of_setThread hthread hwaits)
  have htotal := total_setThread (m := m) looks tid thread
  show m.shared.cnt ≤ _
  omega

/-- A thread takes a step inside that does not signal. -/
theorem covered_run {point : SemPoint} (hcovered : Covered m)
    (hinside : m.threads tid = .inside point) (hquiet : semSignals point = false) :
    Covered (m.move tid (semRun m.now m.shared point)) := by
  intro hwaits
  have htotal := total_move (m := m) looks tid (semRun m.now m.shared point)
  have hpoint : looks (.inside point) = point.looks := rfl
  rw [hinside, hpoint] at htotal
  rw [move_shared]
  rcases looks_semRun hquiet with hzero | ⟨hmoved, hcount⟩
  · rw [hzero]
    exact Nat.zero_le _
  · rw [move_threads] at hwaits
    have hbefore := hcovered (waits_of_setThread hmoved hwaits)
    omega

omit [Fintype Tid] [DecidableEq Tid] in
theorem inside_giveSignal (hsignals : (m.threads tid).isSignalling semSignals = true) :
    m.threads tid = .inside .giveSignal := by
  cases hthread : m.threads tid with
  | inside point =>
      rw [hthread, MonitorThread.isSignalling] at hsignals
      cases point with
      | giveSignal => rfl
      | _ => cases hsignals
  | _ =>
      rw [hthread] at hsignals
      cases hsignals

omit [Fintype Tid] in
theorem step_giveSignal (hinside : m.threads tid = .inside .giveSignal)
    (hstep : m.step semProgram (.run tid) = some m') :
    m' = m.setThread tid (.inside .giveUnlock) := by
  rw [Monitor.step, hinside, Option.some.injEq] at hstep
  exact hstep.symm

/-- A take that is woken looks at the counter again. -/
theorem step_wake {initial : ℕ} (hreach : (signalledSemaphore initial).Reachable m)
    (hstep : m.step semProgram (.wake tid 0) = some m') :
    ∃ take, m.threads tid = .waiting (.takeLoop take) ∧
      m' = m.setThread tid (.entering (.takeLoop take)) := by
  cases stepKind_of_step hstep with
  | wake hthread hwake =>
      obtain ⟨take, htake⟩ := waits_in_loop hreach (MonitorThread.isWaiting_iff.mpr ⟨_, hthread⟩)
      rw [htake, MonitorThread.waiting.injEq] at hthread
      subst hthread
      cases hwake
      exact ⟨take, htake, rfl⟩

/-- The give goes on after it has woken a take. -/
theorem step_after_wake {other : Tid} {take : SemTake}
    (hinside : m.threads tid = .inside .giveSignal)
    (hthread : m.threads other = .waiting (.takeLoop take))
    (hstep : (m.setThread other (.entering (.takeLoop take))).step semProgram (.run tid) =
      some m') :
    m'.shared.cnt = m.shared.cnt ∧
      ∀ weight, m'.total weight + weight (.inside .giveSignal) +
          weight (.waiting (.takeLoop take)) =
        m.total weight + weight (.inside .giveUnlock) + weight (.entering (.takeLoop take)) := by
  have hne : tid ≠ other := by
    rintro rfl
    rw [hinside] at hthread
    cases hthread
  have hstays : (m.setThread other (.entering (.takeLoop take))).threads tid =
      .inside .giveSignal := by rw [setThread_threads_of_ne other _ hne, hinside]
  obtain rfl := step_giveSignal hstays hstep
  refine ⟨rfl, fun weight => ?_⟩
  have hwoken := total_setThread (m := m) weight other (.entering (.takeLoop take))
  have hgone := total_setThread (m := m.setThread other (.entering (.takeLoop take))) weight tid
    (.inside .giveUnlock)
  rw [hthread] at hwoken
  rw [hstays] at hgone
  omega

/-- A step leaves the units covered. -/
theorem covered_step {initial : ℕ} {action : SignalAction Tid SemPoint}
    (hreach : (signalledSemaphore initial).Reachable m) (hcovered : Covered m)
    (hstep : (signalledSemaphore initial).step m action = some m') : Covered m' := by
  cases signalKind_of_step hstep with
  | plain hquiet hstep =>
      cases stepKind_of_step hstep with
      | setClock time => exact hcovered
      | call hout hentry => exact covered_setThread hcovered rfl (by rw [hout]; exact Nat.zero_le _)
      | @enter tid point hthread hfree =>
          have hentered : Covered (m.setThread tid (.inside point)) :=
            covered_setThread hcovered rfl (by rw [hthread]; exact Nat.le_refl _)
          exact hentered
      | run hinside =>
          have hhere := hquiet _ rfl
          rw [hinside] at hhere
          exact covered_run hcovered hinside hhere
      | wake hthread hwake =>
          exact covered_setThread hcovered rfl (by rw [hthread]; exact Nat.zero_le _)
  | unheard hsignals hnobody hstep =>
      obtain rfl := step_giveSignal (inside_giveSignal hsignals) hstep
      intro hwaits
      obtain ⟨other, hother⟩ := waits_of_setThread rfl hwaits
      rw [hnobody other] at hother
      cases hother
  | @woken tid other woken _ hsignals hwake hstep =>
      have hinside := inside_giveSignal hsignals
      obtain ⟨take, hthread, rfl⟩ := step_wake hreach hwake
      obtain ⟨hcnt, htotal⟩ := step_after_wake hinside hthread hstep
      -- the look that the give owed is now the take's own
      intro _
      have hunits := hcovered ⟨other, by rw [hthread]; rfl⟩
      have hlooks := htotal looks
      simp only [looks, SemPoint.looks] at hlooks
      rw [hcnt]
      omega

/-- A call that goes on uses up what is left. -/
theorem left_step {initial : ℕ} {action : SignalAction Tid SemPoint}
    (hreach : (signalledSemaphore initial).Reachable m) (hcontinues : action.Continues)
    (hstep : (signalledSemaphore initial).step m action = some m') :
    m'.total left < m.total left := by
  have hholds := holds_timedOutline hreach
  cases signalKind_of_step hstep with
  | plain hquiet hstep =>
      cases stepKind_of_step hstep with
      | setClock | call | wake => exact hcontinues.elim
      | @enter tid point hthread hfree =>
          have htotal := total_setThread (m := m) left tid (.inside point)
          rw [hthread] at htotal
          show (m.setThread tid (.inside point)).total left < _
          simp only [left] at htotal
          omega
      | @run tid point hinside =>
          have htotal := total_move (m := m) left tid (semRun m.now m.shared point)
          have hhere := hquiet _ rfl
          rw [hinside] at hhere htotal
          have hless := left_semRun m.now m.shared (hholds.held tid point hinside) hhere
          show (m.move tid (semRun m.now m.shared point)).total left < _
          omega
  | @unheard tid _ hsignals hnobody hstep =>
      have hinside := inside_giveSignal hsignals
      obtain rfl := step_giveSignal hinside hstep
      have htotal := total_setThread (m := m) left tid (.inside .giveUnlock)
      rw [hinside] at htotal
      simp only [left, SemPoint.left] at htotal
      omega
  | @woken tid other woken _ hsignals hwake hstep =>
      have hinside := inside_giveSignal hsignals
      obtain ⟨take, hthread, rfl⟩ := step_wake hreach hwake
      have htotal := (step_after_wake hinside hthread hstep).2 left
      simp only [left, SemPoint.left] at htotal
      omega

end Looks

section Wakeups

variable {initial : ℕ} {m : Monitor Tid SemInfo SemPoint}

theorem covered_of_reachable (hreach : (signalledSemaphore initial).Reachable m) : Covered m := by
  refine hreach.invariant ?_ fun _ _ _ hprior ih hstep => covered_step hprior ih hstep
  rintro _ ⟨now, sem, -, rfl⟩ ⟨tid, hwaits⟩
  cases hwaits

/-- Calls that are not at rest can go on. -/
theorem atRest_or_continues (hreach : (signalledSemaphore initial).Reachable m) :
    m.AtRest ∨ ∃ action next, SignalAction.Continues action ∧
      (signalledSemaphore initial).step m action = some next := by
  by_cases hinside : ∃ tid point, m.threads tid = .inside point
  · obtain ⟨tid, point, hinside⟩ := hinside
    refine .inr (exists_signalStep hinside fun other point hthread => ?_)
    obtain ⟨take, htake⟩ := waits_in_loop hreach (MonitorThread.isWaiting_iff.mpr ⟨point, hthread⟩)
    rw [hthread, MonitorThread.waiting.injEq] at htake
    exact ⟨.takeLoop take, by rw [htake]; rfl⟩
  have hfree : m.owner = none := by
    rw [Option.eq_none_iff_forall_ne_some]
    intro tid howner
    exact hinside ⟨tid, ((holds_timedOutline hreach).exclusive tid).mp howner⟩
  by_cases hentering : ∃ tid point, m.threads tid = .entering point
  · obtain ⟨tid, point, hentering⟩ := hentering
    refine .inr ⟨.plain (.enter tid), { m.setThread tid (.inside point) with owner := some tid },
      trivial, ?_⟩
    show m.step semProgram (.enter tid) = _
    rw [Monitor.step, hentering, hfree]
  · refine .inl fun tid => ?_
    cases hthread : m.threads tid with
    | outside => exact .inl rfl
    | waiting point => exact .inr rfl
    | inside point => exact absurd ⟨tid, point, hthread⟩ hinside
    | entering point => exact absurd ⟨tid, point, hthread⟩ hentering

omit [DecidableEq Tid] in
theorem settled_of_covered (hcovered : Covered m) (hrest : m.AtRest) :
    m.shared.cnt = 0 ∨ ∀ tid, m.threads tid = .outside := by
  by_cases hwaits : ∃ tid, (m.threads tid).isWaiting = true
  · left
    have hnone : m.total looks = 0 := total_eq_zero fun tid => by
      cases hthread : m.threads tid with
      | outside | waiting _ => rfl
      | _ =>
          have hhere := hrest tid
          simp [hthread, MonitorThread.isWaiting] at hhere
    exact Nat.le_zero.mp (hnone ▸ hcovered hwaits)
  · exact .inr fun tid => (hrest tid).resolve_right fun hhere => hwaits ⟨tid, hhere⟩

/-- The semaphore loses no wake-up in any run. -/
theorem losesNoWakeup (hreach : (signalledSemaphore initial).Reachable m) :
    LosesNoWakeup initial m where
  onTheWay tid hwaits := covered_of_reachable hreach ⟨tid, hwaits⟩
  bounded schedule last hall hrun := by
    have hlower := System.length_add_rank_le (S := signalledSemaphore initial)
      (P := (signalledSemaphore initial).Reachable) (Monitor.total left)
      (fun _ _ _ hprior hcontinues hstep =>
        ⟨System.Reachable.step hprior hstep, left_step hprior hcontinues hstep⟩) hreach hall hrun
    omega
  continues := atRest_or_continues hreach
  settled := settled_of_covered (covered_of_reachable hreach)

end Wakeups

/-- A take waits, and a give has counted but not signalled yet. -/
def takeThenGive : List (SignalAction (Fin 2) SemPoint) :=
  [.plain (.call 0 (.takeTest (-1))), .plain (.enter 0), .plain (.run 0), .plain (.run 0),
    .plain (.call 1 .giveCount), .plain (.enter 1), .plain (.run 1)]

theorem losesNoWakeup_takeThenGive :
    ∃ m : Monitor (Fin 2) SemInfo SemPoint,
      (m.shared.cnt, (m.threads 0).isWaiting) = (1, true) ∧ LosesNoWakeup 0 m := by
  have hrun : ((signalledSemaphore 0).run
      (Monitor.initial 1515000000000000000 (wrapSemCreate 0)) takeThenGive).map
        (fun m => (m.shared.cnt, (m.threads 0).isWaiting)) = some (1, true) := by
    decide +kernel
  have hstart : (signalledSemaphore 0).Reachable
      (Monitor.initial 1515000000000000000 (wrapSemCreate 0) :
        Monitor (Fin 2) SemInfo SemPoint) :=
    .start ⟨1515000000000000000, wrapSemCreate 0, rfl, rfl⟩
  obtain ⟨m, hreach, hvalue⟩ := System.exists_reachable_of_run hstart hrun
  exact ⟨m, hvalue, losesNoWakeup hreach⟩

end HauppaugeUSB.Wrappers

/-
# The wedge check

Every two and a half seconds `Wait` looks whether the encoder is wedged: while
`m_streaming` is set, the heartbeat of `Buffer::Fill` must not be more than sixty
seconds old. The constructor and `Fill` alone write the heartbeat. A recording that
starts after a minute without data is therefore taken for wedged at the first check.

The clock is read before the heartbeat, and `m_streaming` before both; the other
threads go on in between. `Fill` on its side reads the clock first and stores what
it has read, and may be overtaken on the way.
-/

import HauppaugeUSB.MythTV.Invariants
import Mathlib.Data.Option.Basic

namespace HauppaugeUSB.MythTV

open HauppaugeUSB.Concurrency HauppaugeUSB.Commands

variable {tid : Tid} {frame : Frame} {choice : Choice} {s s' : Shared} {frames rest : List Frame}
  {cfg next : Recorder} {limit : ℤ}

/-- Streaming has been on since before the last sixty seconds, and no `Fill` with data
has completed in them. -/
structure Silent (s : Shared) : Prop where
  streaming : ∃ start ∈ s.since, start < s.now - wedgeLimit
  fills : ∀ time ∈ s.completions, time < s.now - wedgeLimit

/-- The time that `Wait` is about to compare the heartbeat with, once it has found
`m_streaming` set. -/
def heartLimit (now : ℤ) : Option Frame → Option ℤ
  | some (.wait .clock) => some (now - wedgeLimit)
  | some (.wait (.heart limit)) => some limit
  | _ => none

/-- The time that a `Fill` is about to store. -/
def storeTime : Option Frame → Option ℤ
  | some (.fill (.store _ time)) => some time
  | _ => none

/-- What there has to be a heartbeat for at a time: a recording that was begun not more than
sixty seconds before, a `Fill` that has returned not more than sixty seconds before, or a
recording that was stopped since `Wait` has found it. -/
def Expected (cfg : Recorder) (now : ℤ) : Prop :=
  (∃ start ∈ cfg.shared.since, now - wedgeLimit ≤ start) ∨
  (cfg.shared.since ≠ none ∧ ∃ time ∈ cfg.shared.completions, now - wedgeLimit ≤ time) ∨
  (cfg.shared.since = none ∧ cfg.top .main = some (.wait .clock))

/-- No gap between two heartbeats is taken for a silent encoder. A recording begins at most
sixty seconds after the heartbeat; from then on no more than sixty seconds go by without one,
as long as one is expected; a `Fill` stores the time that it has read before it is sixty seconds
old; and a recording is not stopped while `Wait` is about to find the heartbeat too old. -/
def WedgeSafe (cfg : Recorder) : Action Tid Choice ℕ → Prop
  | .thread tid _ =>
      (cfg.top tid = some (.start .set) →
        cfg.shared.now - wedgeLimit ≤ cfg.shared.heartbeat) ∧
      (∀ time ∈ storeTime (cfg.top tid),
        cfg.shared.since ≠ none ∨ heartLimit cfg.shared.now (cfg.top .main) ≠ none →
          cfg.shared.now - wedgeLimit ≤ time) ∧
      (cfg.top tid = some (.stop .clear) →
        ∀ limit ∈ heartLimit cfg.shared.now (cfg.top .main), limit ≤ cfg.shared.heartbeat)
  | .env elapsed =>
      Expected cfg (cfg.shared.now + elapsed) →
        cfg.shared.now + elapsed - wedgeLimit ≤ cfg.shared.heartbeat

theorem heartLimit_eq_some {now : ℤ} {top : Option Frame} (hlimit : limit ∈ heartLimit now top) :
    top = some (.wait .clock) ∧ limit = now - wedgeLimit ∨ top = some (.wait (.heart limit)) := by
  unfold heartLimit at hlimit
  split at hlimit <;> simp_all

/-- `Wait` gets to its test by finding `m_streaming` set. -/
theorem heartLimit_step (hshape : WellShaped cfg) (hstack : cfg.stack tid = frame :: rest)
    (hexec : exec tid frame choice cfg.shared = some (s', frames)) (hlimit : limit ∈ heartLimit
      s'.now (Config.top ⟨s', Function.update cfg.stack tid (frames ++ rest)⟩ .main)) :
    limit ∈ heartLimit cfg.shared.now (cfg.top .main) ∧ frame ≠ .wait .streaming ∨
      frame = .wait .streaming ∧ cfg.shared.streaming = true ∧ s' = cfg.shared ∧
        limit = cfg.shared.now - wedgeLimit := by
  by_cases hmain : tid = .main
  · subst hmain
    obtain ⟨point, htop⟩ : ∃ point,
        Config.top ⟨s', Function.update cfg.stack .main (frames ++ rest)⟩ .main =
          some (.wait point) :=
      (heartLimit_eq_some hlimit).elim (fun h => ⟨_, h.1⟩) fun h => ⟨_, h⟩
    rcases top_after htop with hhead | ⟨-, hrest⟩
    · rw [htop] at hlimit
      have hmem := List.mem_of_head? hhead
      rcases (exec_shape hexec).routine _ hmem with hentry | hroutine
      · cases point <;> simp [Frame.isEntry] at hentry hlimit
      · cases frame <;> simp [Frame.routine] at hroutine
        rename_i old
        have hstep : waitStep .main cfg.shared old = some (s', frames) :=
          advance_of_exec rfl hexec
        rw [top_of_stack hstack]
        cases old <;> simp only [waitStep] at hstep <;> (try split at hstep) <;>
          cases hstep <;> cases hhead <;> simp_all [heartLimit]
    · obtain ⟨kind, hcalls⟩ := hshape.calls_of_mem_rest hstack (List.mem_of_head? hrest)
      cases point <;> simp_all [calls, heartLimit]
  · left
    rw [top_of_ne (Ne.symm hmain), (exec_effects hexec).now] at hlimit
    refine ⟨hlimit, ?_⟩
    rintro rfl
    exact hmain (eq_main (hshape.top_role hstack rfl))

/-- It is never less than sixty seconds before the clock. -/
def LimitLaw (cfg : Recorder) : Prop :=
  ∀ limit ∈ heartLimit cfg.shared.now (cfg.top .main), limit ≤ cfg.shared.now - wedgeLimit

theorem limitLaw (hreach : recorder.Reachable cfg) : LimitLaw cfg := by
  refine recorder_invariant hreach (fun now limit hlimit => ?_)
    (fun state elapsed hlaw limit hlimit => ?_) fun hprior hlaw _ hstack hexec limit hlimit => ?_
  · simp [initial, Config.top, Tid.entry, heartLimit] at hlimit
  · rcases heartLimit_eq_some hlimit with ⟨-, rfl⟩ | htop
    · exact Int.le_refl _
    · have hbefore := hlaw limit (by rw [show state.top .main = _ from htop]; rfl)
      have helapsed := Int.natCast_nonneg elapsed
      simp only
      omega
  · rw [(exec_effects hexec).now]
    rcases heartLimit_step (wellShaped hprior) hstack hexec hlimit with ⟨hbefore, -⟩ |
      ⟨-, -, -, rfl⟩
    · exact hlaw limit hbefore
    · exact Int.le_refl _

/-- Where a heartbeat is expected, it is not too old. -/
structure WedgeLaw (cfg : Recorder) : Prop where
  begun : ∀ start ∈ cfg.shared.since, cfg.shared.now - wedgeLimit ≤ start →
    cfg.shared.now - wedgeLimit ≤ cfg.shared.heartbeat
  filled : cfg.shared.since ≠ none → ∀ time ∈ cfg.shared.completions,
    cfg.shared.now - wedgeLimit ≤ time → cfg.shared.now - wedgeLimit ≤ cfg.shared.heartbeat
  stopped : cfg.shared.since = none →
    ∀ limit ∈ heartLimit cfg.shared.now (cfg.top .main), limit ≤ cfg.shared.heartbeat

/-- A `Fill` stores a time that is young enough. -/
theorem wedgeLaw_store {call : ℕ} {time : ℤ} (hshape : WellShaped cfg) (hlimits : LimitLaw cfg)
    (hok : WedgeSafe cfg (.thread tid choice))
    (hstack : cfg.stack tid = .fill (.store call time) :: rest)
    (hexec : exec tid (.fill (.store call time)) choice cfg.shared = some (s', frames)) :
    WedgeLaw ⟨s', Function.update cfg.stack tid (frames ++ rest)⟩ := by
  have hyoung := hok.2.1 time (by rw [top_of_stack hstack]; rfl)
  have hstop (hnone : s'.since = none) : ∀ limit ∈ heartLimit s'.now
      (Config.top ⟨s', Function.update cfg.stack tid (frames ++ rest)⟩ .main), limit ≤ time := by
    intro limit hlimit
    obtain ⟨hbefore, -⟩ | ⟨hwait, -⟩ := heartLimit_step hshape hstack hexec hlimit
    · have hlast := hyoung (.inr (Option.ne_none_iff_exists'.mpr ⟨limit, hbefore⟩))
      exact Int.le_trans (hlimits limit hbefore) hlast
    · cases hwait
  cases advance_of_exec rfl hexec
  exact ⟨fun start hstart _ => hyoung (.inl (Option.ne_none_iff_exists'.mpr ⟨start, hstart⟩)),
    fun hsome _ _ _ => hyoung (.inl hsome), hstop⟩

theorem wedgeLaw_step (hshape : WellShaped cfg) (hsound : Sound cfg) (hlimits : LimitLaw cfg)
    (hlaw : WedgeLaw cfg) (hok : WedgeSafe cfg (.thread tid choice))
    (hstack : cfg.stack tid = frame :: rest)
    (hexec : exec tid frame choice cfg.shared = some (s', frames)) :
    WedgeLaw ⟨s', Function.update cfg.stack tid (frames ++ rest)⟩ := by
  have heffects := exec_effects hexec
  rcases heffects.heart with ⟨hbeat, hcompletions⟩ | ⟨call, time, rfl, -⟩
  case inr => exact wedgeLaw_store hshape hlimits hok hstack hexec
  have hnow := heffects.now
  rcases heffects.streaming with ⟨-, hsince⟩ | ⟨rfl, -, hsince⟩ | ⟨rfl, -, hsince⟩
  · constructor <;> simp only [hnow, hbeat, hcompletions, hsince]
    · exact hlaw.begun
    · exact hlaw.filled
    · intro hnone limit hlimit
      rw [← hnow] at hlimit
      rcases heartLimit_step hshape hstack hexec hlimit with ⟨hbefore, -⟩ | ⟨-, hstreaming, -⟩
      · exact hlaw.stopped hnone limit hbefore
      · -- `Wait` has found `m_streaming` set just now.
        rw [hsound.since, hnone] at hstreaming
        cases hstreaming
  · refine ⟨fun start hstart => ?_, fun hsome => absurd hsince hsome, fun _ limit hlimit => ?_⟩
    · simp [hsince] at hstart
    · obtain ⟨hbefore, -⟩ | ⟨hwait, -⟩ := heartLimit_step hshape hstack hexec hlimit
      · simp only [hbeat]
        exact hok.2.2 (top_of_stack hstack) limit hbefore
      · cases hwait
  · have hyoung := hok.1 (top_of_stack hstack)
    constructor <;> simp only [hnow, hbeat, hsince]
    · exact fun _ _ _ => hyoung
    · exact fun _ _ _ _ => hyoung
    · exact fun hnone => (by cases hnone)

/-- Where no heartbeat is expected, time may pass. -/
theorem wedgeLaw_env {elapsed : ℕ} (hlaw : WedgeLaw cfg) (hok : WedgeSafe cfg (.env elapsed)) :
    WedgeLaw ⟨{ cfg.shared with now := cfg.shared.now + elapsed }, cfg.stack⟩ := by
  refine ⟨fun start hstart hyoung => hok (.inl ⟨start, hstart, hyoung⟩),
    fun hsome time htime hyoung => hok (.inr (.inl ⟨hsome, time, htime, hyoung⟩)),
    fun hnone limit hlimit => ?_⟩
  rcases heartLimit_eq_some hlimit with ⟨hclock, rfl⟩ | hheart
  · exact hok (.inr (.inr ⟨hnone, hclock⟩))
  · exact hlaw.stopped hnone limit (by rw [show cfg.top .main = _ from hheart]; rfl)

theorem wedgeLaw (hreach : recorder.ReachableBy WedgeSafe cfg) : WedgeLaw cfg := by
  refine hreach.invariant ?_ fun state action next hprior hlaw hok hstep => ?_
  · rintro _ ⟨now, rfl⟩
    refine ⟨fun start hstart => (by cases hstart), fun hsome => absurd rfl hsome,
      fun _ limit hlimit => ?_⟩
    simp [initial, Config.top, Tid.entry, heartLimit] at hlimit
  · cases action with
    | env elapsed =>
        obtain rfl := Machine.step_env_iff.mp hstep
        exact wedgeLaw_env hlaw hok
    | thread tid choice =>
        obtain ⟨frame, rest, s', frames, hstack, hexec, rfl⟩ := Machine.step_thread_iff.mp hstep
        exact wedgeLaw_step (wellShaped hprior.reachable) (sound hprior.reachable)
          (limitLaw hprior.reachable) hlaw hok hstack hexec

/-- `Wait` raises the error at its test of the heartbeat, which is too old. -/
theorem heart_of_raise (hshape : WellShaped cfg)
    (hstep : recorder.step cfg (.thread .main choice) = some next)
    (hraise : next.top .main = some (.fatal (.lock wedgedMsg))) :
    ∃ limit, cfg.top .main = some (.wait (.heart limit)) ∧ cfg.shared.heartbeat < limit := by
  obtain ⟨frame, rest, s', frames, hstack, hexec, rfl⟩ := Machine.step_thread_iff.mp hstep
  rcases top_after hraise with hhead | ⟨-, hrest⟩
  · rcases exec_eq_some_iff.mp hexec with ⟨-, -, -, -, -, rfl⟩ | ⟨hchoice, hadvance⟩
    · simp [usbErrorMsg, wedgedMsg] at hhead
    · rcases entered_of_head hexec hhead rfl with henters | ⟨-, -, husb, -⟩
      · cases frame with
        | wait point =>
            rw [top_of_stack hstack]
            cases point <;> simp [enters] at henters
            rename_i limit
            refine ⟨limit, rfl, ?_⟩
            by_contra hfresh
            simp only [advance, waitStep, if_neg hfresh] at hadvance
            cases hadvance
            simp at hhead
        | openDev point => simpa [Tid.role] using hshape.top_role hstack rfl
        | command point => simpa [Tid.role] using hshape.top_role hstack rfl
        | _ => simp [enters] at henters
      · exact absurd husb hchoice
  · obtain ⟨kind, hcalls⟩ := hshape.calls_of_mem_rest hstack (List.mem_of_head? hrest)
    simp [calls] at hcalls

instance (cfg : Recorder) (now : ℤ) : Decidable (Expected cfg now) :=
  inferInstanceAs (Decidable (_ ∨ (_ ∧ _) ∨ _))

instance (cfg : Recorder) : ∀ action, Decidable (WedgeSafe cfg action)
  | .thread tid _ =>
      inferInstanceAs (Decidable (
        (cfg.top tid = some (.start .set) →
          cfg.shared.now - wedgeLimit ≤ cfg.shared.heartbeat) ∧
        (∀ time ∈ storeTime (cfg.top tid), _ ∨ _ → _) ∧
        (cfg.top tid = some (.stop .clear) →
          ∀ limit ∈ heartLimit cfg.shared.now (cfg.top .main), _)))
  | .env elapsed =>
      inferInstanceAs (Decidable (Expected cfg (cfg.shared.now + elapsed) → _))

/-- Just over sixty seconds. -/
def overAMinute : ℕ := 60000000001

/-- `Wait` makes a turn of its loop, up to its test of the heartbeat. -/
def checkHeart : List (Action Tid Choice ℕ) := (goOn 6).map (.thread .main)

/-- The recorder has been idle for a minute when it starts a recording, and `Wait`
comes round before the first data. -/
def wedgeAtStart : List (Action Tid Choice ℕ) :=
  .env overAMinute :: startRecording.map (.thread .commands) ++ checkHeart

end HauppaugeUSB.MythTV

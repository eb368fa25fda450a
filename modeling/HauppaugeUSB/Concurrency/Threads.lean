/-
# Threads with call stacks over a shared state

Each thread is a stack of frames. A frame is a program point: the top frame is
the next one to execute, the frames under it are the callers it returns to. One
step executes the top frame of one thread, which may change the shared state and
replaces the frame by the frames of what it continues with; the environment may
change the shared state in between.

A program supplies `exec` for single frames only. The library lifts facts about
single executed frames to whole configurations: laws of every frame on every
stack (`AllFrames`), the call graph that neighbouring frames respect (`Nested`),
the accounting of a mutex, which identifies its owner with the thread whose stack
stands inside the region that the mutex guards (`MutexView.Balanced`), and the
monitor rule for what holds inside such a region (`MutexView.allFrames_step`).

Two threads race for a variable when each stands before a statement that accesses it and one of
the statements writes it. What a statement accesses may depend on the shared state, as the
branch of an `if` does. A variable whose every access stands inside the critical section of one
mutex has no races; the others need arguments of their own about which threads can be where.
-/

import HauppaugeUSB.Concurrency.System
import Mathlib.Data.Nat.Notation
import Mathlib.Data.List.Chain
import Mathlib.Logic.Function.Basic

namespace HauppaugeUSB.Concurrency

/-- What executing single frames does, and what the environment may do. -/
structure Machine (Tid Frame Choice Env Shared : Type*) where
  /-- Execute a frame under an outcome chosen by the environment: the new shared
  state and the frames that replace the executed one. -/
  exec : Tid → Frame → Choice → Shared → Option (Shared × List Frame)
  /-- A change of the shared state that no thread makes. -/
  env : Env → Shared → Shared

/-- The shared state and every thread's stack, top frame first. -/
structure Config (Tid Frame Shared : Type*) where
  shared : Shared
  stack : Tid → List Frame

/-- One scheduled step. -/
inductive Action (Tid Choice Env : Type*)
  | thread (tid : Tid) (choice : Choice)
  | env (event : Env)

variable {Tid Frame Choice Env Shared : Type*}

namespace Config

variable (cfg : Config Tid Frame Shared)

/-- The frame a thread executes next. -/
def top (tid : Tid) : Option Frame := (cfg.stack tid).head?

/-- The frame at the bottom of a thread's stack. -/
def base (tid : Tid) : Option Frame := (cfg.stack tid).getLast?

/-- Some frame of the thread, running or suspended, satisfies `region`. -/
def Inside (region : Frame → Prop) (tid : Tid) : Prop := ∃ frame ∈ cfg.stack tid, region frame

/-- A thread is inside a region if its top frame is or a suspended one is. -/
theorem inside_iff {cfg : Config Tid Frame Shared} {region : Frame → Prop} {tid : Tid}
    {frame : Frame} {rest : List Frame} (hstack : cfg.stack tid = frame :: rest) :
    cfg.Inside region tid ↔ region frame ∨ ∃ old ∈ rest, region old := by
  simp [Inside, hstack]

/-- Every frame on every stack satisfies a law that may read the shared state. -/
def AllFrames (law : Tid → Frame → Shared → Prop) : Prop :=
  ∀ tid, ∀ frame ∈ cfg.stack tid, law tid frame cfg.shared

end Config

/-- Which frame may stand directly above which, as the point of a callee above
the point it returns to, and which frame may be a thread's last. -/
structure CallGraph (Tid Frame : Type*) where
  returnsTo : Frame → Frame → Bool
  root : Tid → Frame → Bool

namespace CallGraph

variable (C : CallGraph Tid Frame)

/-- A stack along which the call graph is respected, down to its root. -/
def Nested (tid : Tid) : List Frame → Prop
  | [] => True
  | [frame] => C.root tid frame = true
  | frame :: below :: rest => C.returnsTo frame below = true ∧ Nested tid (below :: rest)

variable {C} {tid : Tid}

@[simp]
theorem nested_nil : C.Nested tid [] := trivial

@[simp]
theorem nested_singleton {frame : Frame} :
    C.Nested tid [frame] ↔ C.root tid frame = true := Iff.rfl

@[simp]
theorem nested_cons_cons {frame below : Frame} {rest : List Frame} :
    C.Nested tid (frame :: below :: rest) ↔
      C.returnsTo frame below = true ∧ C.Nested tid (below :: rest) := Iff.rfl

theorem Nested.tail {frame : Frame} {rest : List Frame} (hnested : C.Nested tid (frame :: rest)) :
    C.Nested tid rest := by
  cases rest with
  | nil => trivial
  | cons below rest => exact hnested.2

/-- Under every frame lies one it returns to, unless it is the thread's root. -/
theorem Nested.exists_below {stack : List Frame} (hnested : C.Nested tid stack) {frame : Frame}
    (hmem : frame ∈ stack) :
    C.root tid frame = true ∨ ∃ below ∈ stack, C.returnsTo frame below = true := by
  induction stack with
  | nil => simp at hmem
  | cons head rest ih =>
      rcases List.mem_cons.mp hmem with rfl | hrest
      · cases rest with
        | nil => exact .inl hnested
        | cons below rest => exact .inr ⟨below, by simp, hnested.1⟩
      · exact (ih hnested.tail hrest).imp_right fun ⟨below, hbelow, hreturns⟩ =>
          ⟨below, List.mem_cons_of_mem _ hbelow, hreturns⟩

/-- Over every suspended frame lies one that returns to it. -/
theorem Nested.exists_above {head : Frame} {rest : List Frame}
    (hnested : C.Nested tid (head :: rest)) {frame : Frame} (hmem : frame ∈ rest) :
    ∃ above ∈ head :: rest, C.returnsTo above frame = true := by
  induction rest generalizing head with
  | nil => simp at hmem
  | cons below rest ih =>
      rcases List.mem_cons.mp hmem with rfl | hrest
      · exact ⟨head, by simp, hnested.1⟩
      · obtain ⟨above, habove, hreturns⟩ := ih hnested.tail hrest
        exact ⟨above, List.mem_cons_of_mem _ habove, hreturns⟩

/-- The bottom frame is a root. -/
theorem Nested.root_of_getLast? {stack : List Frame} (hnested : C.Nested tid stack) {last : Frame}
    (hlast : stack.getLast? = some last) : C.root tid last = true := by
  induction stack with
  | nil => simp at hlast
  | cons head rest ih =>
      cases rest with
      | nil =>
          obtain rfl : head = last := by simpa using hlast
          exact hnested
      | cons below rest => exact ih hnested.2 (by simpa using hlast)

/-- A frame that returns nowhere lies at the bottom. -/
theorem Nested.getLast?_eq {stack : List Frame} (hnested : C.Nested tid stack) {frame : Frame}
    (hmem : frame ∈ stack) (hno : ∀ below, C.returnsTo frame below = false) :
    stack.getLast? = some frame := by
  induction stack with
  | nil => simp at hmem
  | cons head rest ih =>
      cases rest with
      | nil =>
          obtain rfl : frame = head := by simpa using hmem
          rfl
      | cons below rest =>
          rcases List.mem_cons.mp hmem with rfl | hrest
          · exact absurd hnested.1 (by simp [hno])
          · simpa using ih hnested.2 hrest

/-- Replacing the top frame keeps the nesting when the new frames are nested
themselves and the lowest of them returns wherever the old one did. -/
theorem Nested.replace {frame : Frame} {rest frames : List Frame}
    (hnested : C.Nested tid (frame :: rest))
    (hlast : ∀ last, frames.getLast? = some last →
      (C.root tid frame = true → C.root tid last = true) ∧
      ∀ below, C.returnsTo frame below = true → C.returnsTo last below = true)
    (hframes : frames.IsChain fun above below => C.returnsTo above below = true) :
    C.Nested tid (frames ++ rest) := by
  induction frames with
  | nil => exact hnested.tail
  | cons new later ih =>
      cases later with
      | nil =>
          obtain ⟨hroot, hreturns⟩ := hlast new rfl
          cases rest with
          | nil => exact hroot hnested
          | cons below rest => exact ⟨hreturns below hnested.1, hnested.2⟩
      | cons next later =>
          obtain ⟨hreturns, hchain⟩ := List.isChain_cons_cons.mp hframes
          exact ⟨hreturns, ih (fun last hfinal => hlast last (by simpa using hfinal)) hchain⟩

end CallGraph

namespace Machine

variable [DecidableEq Tid] (M : Machine Tid Frame Choice Env Shared)

/-- Execute the top frame of a thread, or let the environment move. -/
def step (cfg : Config Tid Frame Shared) :
    Action Tid Choice Env → Option (Config Tid Frame Shared)
  | .thread tid choice =>
      match cfg.stack tid with
      | [] => none
      | frame :: rest =>
          (M.exec tid frame choice cfg.shared).map fun out =>
            ⟨out.1, Function.update cfg.stack tid (out.2 ++ rest)⟩
  | .env event => some ⟨M.env event cfg.shared, cfg.stack⟩

/-- A machine started in the given configurations. -/
@[reducible]
def system (IsStart : Config Tid Frame Shared → Prop) :
    System (Config Tid Frame Shared) (Action Tid Choice Env) where
  IsStart := IsStart
  step := M.step

variable {M} {cfg cfg' : Config Tid Frame Shared}

/-- A thread's step executes its top frame and leaves the other stacks alone. -/
theorem step_thread_iff {tid : Tid} {choice : Choice} :
    M.step cfg (.thread tid choice) = some cfg' ↔
      ∃ frame rest shared' frames, cfg.stack tid = frame :: rest ∧
        M.exec tid frame choice cfg.shared = some (shared', frames) ∧
        cfg' = ⟨shared', Function.update cfg.stack tid (frames ++ rest)⟩ := by
  constructor
  · intro hstep
    cases hstack : cfg.stack tid with
    | nil => simp [step, hstack] at hstep
    | cons frame rest =>
        simp only [step, hstack, Option.map_eq_some_iff] at hstep
        obtain ⟨⟨shared', frames⟩, hexec, rfl⟩ := hstep
        exact ⟨frame, rest, shared', frames, rfl, hexec, rfl⟩
  · rintro ⟨frame, rest, shared', frames, hstack, hexec, rfl⟩
    simp [step, hstack, hexec]

/-- The environment's step changes the shared state only. -/
theorem step_env_iff {event : Env} :
    M.step cfg (.env event) = some cfg' ↔ cfg' = ⟨M.env event cfg.shared, cfg.stack⟩ := by
  rw [step, Option.some.injEq, eq_comm]

/-- Where a frame lies after a thread's step: new or still suspended on the stack
of the thread that moved, or untouched on another. -/
theorem mem_update_stack {stack : Tid → List Frame} {tid other : Tid} {frames rest : List Frame}
    {frame : Frame} :
    frame ∈ Function.update stack tid (frames ++ rest) other ↔
      (other = tid ∧ (frame ∈ frames ∨ frame ∈ rest)) ∨ (other ≠ tid ∧ frame ∈ stack other) := by
  by_cases hother : other = tid
  · subst hother
    simp [Function.update_self, List.mem_append]
  · simp [hother]

/-- A step of one thread leaves the others' bottom frames alone. -/
theorem base_update_of_ne {stack : Tid → List Frame} {shared' : Shared} {tid other : Tid}
    {frames rest : List Frame} (hother : other ≠ tid) :
    Config.base ⟨shared', Function.update stack tid (frames ++ rest)⟩ other =
      (stack other).getLast? := by
  simp [Config.base, hother]

/-- A call keeps the bottom frame, and so does every step of a called function. -/
theorem base_update_of_ne_nil {shared' : Shared} {tid : Tid} {frame : Frame}
    {frames rest : List Frame} (hstack : cfg.stack tid = frame :: rest) (hrest : rest ≠ []) :
    Config.base ⟨shared', Function.update cfg.stack tid (frames ++ rest)⟩ tid =
      cfg.base tid := by
  simp [Config.base, hstack, List.getLast?_append, List.getLast?_cons,
    List.getLast?_eq_some_getLast hrest]

/-- When a thread has one frame, the step decides what the new bottom is. -/
theorem base_update_singleton {stack : Tid → List Frame} {shared' : Shared} {tid : Tid}
    {frames : List Frame} :
    Config.base ⟨shared', Function.update stack tid (frames ++ [])⟩ tid = frames.getLast? := by
  simp [Config.base]

/-- After a step the thread is inside a region if one of the new frames is or a
suspended one still is. -/
theorem inside_update_self {region : Frame → Prop} {stack : Tid → List Frame} {shared' : Shared}
    {tid : Tid} {frames rest : List Frame} :
    Config.Inside ⟨shared', Function.update stack tid (frames ++ rest)⟩ region tid ↔
      (∃ new ∈ frames, region new) ∨ ∃ old ∈ rest, region old := by
  simp [Config.Inside, or_and_right, exists_or]

/-- The other threads stay inside or outside. -/
theorem inside_update_of_ne {region : Frame → Prop} {shared' : Shared} {tid other : Tid}
    {frames rest : List Frame} (hother : other ≠ tid) :
    Config.Inside ⟨shared', Function.update cfg.stack tid (frames ++ rest)⟩ region other ↔
      cfg.Inside region other := by
  simp [Config.Inside, hother]

/-- A step that neither enters nor leaves a region moves nobody across its border. -/
theorem inside_congr {region : Frame → Prop} {shared' : Shared} {tid : Tid} {frame : Frame}
    {frames rest : List Frame} (hstack : cfg.stack tid = frame :: rest)
    (hsame : (∃ new ∈ frames, region new) ↔ region frame) (other : Tid) :
    Config.Inside ⟨shared', Function.update cfg.stack tid (frames ++ rest)⟩ region other ↔
      cfg.Inside region other := by
  by_cases hother : other = tid
  · subst hother
    rw [inside_update_self, Config.inside_iff hstack, hsame]
  · exact inside_update_of_ne hother

/-- A law of every frame is kept by a step when it holds of the new frames and
when no frame that stays loses it through the change of the shared state. -/
theorem allFrames_of_exec {law : Tid → Frame → Shared → Prop} {tid : Tid} {frame : Frame}
    {rest frames : List Frame} {shared' : Shared} (hstack : cfg.stack tid = frame :: rest)
    (hlaw : cfg.AllFrames law) (hnew : ∀ new ∈ frames, law tid new shared')
    (hrest : ∀ old ∈ rest, law tid old cfg.shared → law tid old shared')
    (hothers : ∀ other, other ≠ tid → ∀ old ∈ cfg.stack other,
      law other old cfg.shared → law other old shared') :
    Config.AllFrames ⟨shared', Function.update cfg.stack tid (frames ++ rest)⟩ law := by
  intro other old hold
  rcases mem_update_stack.mp hold with ⟨rfl, hnewer | hstays⟩ | ⟨hother, hold⟩
  · exact hnew old hnewer
  · exact hrest old hstays (hlaw other old (hstack ▸ List.mem_cons_of_mem _ hstays))
  · exact hothers other hother old hold (hlaw other old hold)

/-- The call graph is respected on every stack if every executed frame respects
it. -/
theorem nested_step {C : CallGraph Tid Frame}
    (hexec : ∀ {tid frame choice shared shared' frames},
      M.exec tid frame choice shared = some (shared', frames) →
      (∀ last, frames.getLast? = some last →
        (C.root tid frame = true → C.root tid last = true) ∧
        ∀ below, C.returnsTo frame below = true → C.returnsTo last below = true) ∧
      frames.IsChain fun above below => C.returnsTo above below = true)
    {action : Action Tid Choice Env} (hnested : ∀ tid, C.Nested tid (cfg.stack tid))
    (hstep : M.step cfg action = some cfg') (tid : Tid) : C.Nested tid (cfg'.stack tid) := by
  cases action with
  | env event =>
      obtain rfl := step_env_iff.mp hstep
      exact hnested tid
  | thread mover choice =>
      obtain ⟨frame, rest, shared', frames, hstack, hframe, rfl⟩ := step_thread_iff.mp hstep
      change C.Nested tid (Function.update cfg.stack mover (frames ++ rest) tid)
      by_cases hmover : tid = mover
      · subst hmover
        obtain ⟨hlast, hchain⟩ := hexec hframe
        rw [Function.update_self]
        exact (hstack ▸ hnested tid).replace hlast hchain
      · rw [Function.update_of_ne hmover]
        exact hnested tid

variable (M) in
/-- A thread goes from some shared state and stack to others while no one else moves. -/
inductive Alone (tid : Tid) : Shared → List Frame → Shared → List Frame → Prop
  | stay {s : Shared} {stack : List Frame} : Alone tid s stack s stack
  | step {s s' later : Shared} {frame : Frame} {rest frames stack : List Frame} {choice : Choice} :
      M.exec tid frame choice s = some (s', frames) →
      Alone tid s' (frames ++ rest) later stack → Alone tid s (frame :: rest) later stack

/-- In a run a thread may go on by itself. -/
theorem Alone.reachable {IsStart : Config Tid Frame Shared → Prop} {tid : Tid} {s later : Shared}
    {before after : List Frame} (halone : M.Alone tid s before later after)
    (hreach : (M.system IsStart).Reachable cfg) (hshared : cfg.shared = s)
    (hstack : cfg.stack tid = before) :
    (M.system IsStart).Reachable ⟨later, Function.update cfg.stack tid after⟩ := by
  induction halone generalizing cfg with
  | stay =>
      subst hshared hstack
      rwa [Function.update_eq_self]
  | step hexec _ ih =>
      subst hshared
      have hstep : (M.system IsStart).step cfg (.thread tid _) = some _ :=
        step_thread_iff.mpr ⟨_, _, _, _, hstack, hexec, rfl⟩
      have hnext := System.Reachable.step hreach hstep
      simpa using ih hnext rfl (Function.update_self ..)

end Machine

/-- A mutex as the program sees it: its owner in the shared state, and the frames
that stand between its acquisition and its release. -/
structure MutexView (Tid Frame Shared : Type*) where
  owner : Shared → Option Tid
  holds : Frame → Bool

namespace MutexView

variable [DecidableEq Tid] (V : MutexView Tid Frame Shared)
  {M : Machine Tid Frame Choice Env Shared} {cfg cfg' : Config Tid Frame Shared}

/-- One if the thread owns the mutex, zero otherwise. -/
def owned (shared : Shared) (tid : Tid) : ℕ := if V.owner shared = some tid then 1 else 0

/-- A thread owns the mutex exactly when one of its frames stands in the guarded
region, and then exactly one does. -/
def Balanced (cfg : Config Tid Frame Shared) : Prop :=
  ∀ tid, (cfg.stack tid).countP V.holds = V.owned cfg.shared tid

/-- What a program has to show of each frame: acquisition and release move the
frame in and out of the guarded region, and nobody touches another's mutex. -/
structure Accounted (M : Machine Tid Frame Choice Env Shared) : Prop where
  exec : ∀ {tid frame choice shared shared' frames},
    M.exec tid frame choice shared = some (shared', frames) →
    (V.holds frame = true → V.owner shared = some tid) →
    frames.countP V.holds + V.owned shared tid =
      (if V.holds frame then 1 else 0) + V.owned shared' tid
  others : ∀ {tid frame choice shared shared' frames},
    M.exec tid frame choice shared = some (shared', frames) →
    (V.holds frame = true → V.owner shared = some tid) →
    ∀ other, other ≠ tid → (V.owner shared' = some other ↔ V.owner shared = some other)
  env : ∀ event shared, V.owner (M.env event shared) = V.owner shared

variable {V}

/-- The frame a thread executes next stands in the region only if the thread
owns the mutex. -/
theorem Balanced.owner_of_mem (hbal : V.Balanced cfg) {tid : Tid} {frame : Frame}
    (hmem : frame ∈ cfg.stack tid) (hholds : V.holds frame = true) :
    V.owner cfg.shared = some tid := by
  have hpos : 0 < (cfg.stack tid).countP V.holds := List.countP_pos_iff.mpr ⟨frame, hmem, hholds⟩
  by_contra hnot
  simp [hbal tid, owned, hnot] at hpos

/-- The owner of the mutex has a frame in the guarded region. -/
theorem Balanced.exists_of_owner (hbal : V.Balanced cfg) {tid : Tid}
    (howner : V.owner cfg.shared = some tid) :
    ∃ frame ∈ cfg.stack tid, V.holds frame = true := by
  have hone : 0 < (cfg.stack tid).countP V.holds := by simp [hbal tid, owned, howner]
  exact List.countP_pos_iff.mp hone

/-- Only one thread is inside the guarded region. -/
theorem Balanced.unique (hbal : V.Balanced cfg) {first second : Tid} {frame frame' : Frame}
    (hfirst : frame ∈ cfg.stack first) (hholds : V.holds frame = true)
    (hsecond : frame' ∈ cfg.stack second) (hholds' : V.holds frame' = true) :
    first = second := by
  have hown := (hbal.owner_of_mem hfirst hholds).symm.trans (hbal.owner_of_mem hsecond hholds')
  exact Option.some.inj hown

/-- Under a frame of the guarded region there is no other one. -/
theorem Balanced.not_holds_of_mem_rest (hbal : V.Balanced cfg) {tid : Tid} {frame : Frame}
    {rest : List Frame} (hstack : cfg.stack tid = frame :: rest)
    (hholds : V.holds frame = true) {below : Frame} (hbelow : below ∈ rest) :
    ¬ V.holds below = true := by
  intro hholds'
  have htotal := hbal tid
  rw [hstack, List.countP_cons_of_pos hholds] at htotal
  have hpos : 0 < rest.countP V.holds := List.countP_pos_iff.mpr ⟨below, hbelow, hholds'⟩
  have hle : V.owned cfg.shared tid ≤ 1 := by unfold owned; split <;> omega
  omega

/-- The accounting of a mutex is kept by every step. -/
theorem Accounted.balanced_step (hacc : V.Accounted M) {action : Action Tid Choice Env}
    (hbal : V.Balanced cfg) (hstep : M.step cfg action = some cfg') : V.Balanced cfg' := by
  cases action with
  | env event =>
      obtain rfl := Machine.step_env_iff.mp hstep
      intro tid
      rw [hbal tid, owned, owned, hacc.env]
  | thread tid choice =>
      obtain ⟨frame, rest, shared', frames, hstack, hexec, rfl⟩ :=
        Machine.step_thread_iff.mp hstep
      have hhere : V.holds frame = true → V.owner cfg.shared = some tid :=
        hbal.owner_of_mem (hstack ▸ List.mem_cons_self)
      intro other
      by_cases hother : other = tid
      · subst hother
        have hcount := hacc.exec hexec hhere
        have hbefore := hbal other
        rw [hstack, List.countP_cons] at hbefore
        simp only [Function.update_self, List.countP_append]
        omega
      · have hsame := hacc.others hexec hhere other hother
        simp only [Function.update_of_ne hother, hbal other, owned, hsame]

/-- What holds of the frames inside the guarded region after a step: it holds of those that
the step puts there, and of the others unless the step is one from inside, which finds no
other frame in the region. -/
theorem forall_region_step {P : Frame → Prop} {tid : Tid} {frame : Frame}
    {rest frames : List Frame} (hbal : V.Balanced cfg) (hstack : cfg.stack tid = frame :: rest)
    (hnew : ∀ new ∈ frames, V.holds new = true → P new)
    (hkept : ¬ V.holds frame = true → ∀ other, ∀ old ∈ cfg.stack other, V.holds old = true → P old)
    (other : Tid) :
    ∀ old ∈ Function.update cfg.stack tid (frames ++ rest) other, V.holds old = true → P old := by
  intro old hold hholds
  rcases Machine.mem_update_stack.mp hold with ⟨rfl, hnewer | hrest⟩ | ⟨hother, hold⟩
  · exact hnew old hnewer hholds
  · have hmem : old ∈ cfg.stack other := hstack ▸ List.mem_cons_of_mem _ hrest
    refine hkept (fun hhere => ?_) other old hmem hholds
    exact hbal.not_holds_of_mem_rest hstack hhere hrest hholds
  · refine hkept (fun hhere => ?_) other old hold hholds
    exact hother (hbal.unique hold hholds (hstack ▸ List.mem_cons_self) hhere)

/-- The monitor rule. A law of the frames inside the guarded region is kept by a
step if the frames it puts there satisfy it and if no step from outside the
region can break it: a step from inside finds no other frame in the region. -/
theorem allFrames_step {law : Frame → Shared → Prop} {tid : Tid} {frame : Frame}
    {rest frames : List Frame} {shared' : Shared} (hbal : V.Balanced cfg)
    (hstack : cfg.stack tid = frame :: rest)
    (hlaw : cfg.AllFrames fun _ old shared => V.holds old = true → law old shared)
    (hnew : ∀ new ∈ frames, V.holds new = true → law new shared')
    (hstable : ¬ V.holds frame = true →
      ∀ old, law old cfg.shared → law old shared') :
    Config.AllFrames ⟨shared', Function.update cfg.stack tid (frames ++ rest)⟩
      fun _ old shared => V.holds old = true → law old shared :=
  fun other => forall_region_step hbal hstack hnew (fun hout other old hold hholds =>
    hstable hout old (hlaw other old hold hholds)) other

end MutexView

section Races

/-- What a statement does to a variable. -/
inductive Access
  | reads
  | writes
  deriving DecidableEq

variable {Variable : Type*} {accesses : Frame → Shared → Variable → Option Access}
  {cfg : Config Tid Frame Shared} {var : Variable} {writer other : Tid}

/-- A thread is about to write a variable and another one is about to access it. -/
structure Race (accesses : Frame → Shared → Variable → Option Access)
    (cfg : Config Tid Frame Shared) (var : Variable) (writer other : Tid) : Prop where
  distinct : writer ≠ other
  writes : ∃ frame, cfg.top writer = some frame ∧ accesses frame cfg.shared var = some .writes
  accesses : ∃ frame, cfg.top other = some frame ∧ accesses frame cfg.shared var ≠ none

theorem Config.mem_of_top {tid : Tid} {frame : Frame} (htop : cfg.top tid = some frame) :
    frame ∈ cfg.stack tid :=
  List.mem_of_head? htop

/-- A variable that is accessed under a mutex only has no races. -/
theorem MutexView.Balanced.not_race [DecidableEq Tid] {V : MutexView Tid Frame Shared}
    (hbal : V.Balanced cfg)
    (hguarded : ∀ frame, accesses frame cfg.shared var ≠ none → V.holds frame = true) :
    ¬ Race accesses cfg var writer other := by
  rintro ⟨hdistinct, ⟨frame, hfirst, hwrites⟩, ⟨frame', hsecond, haccesses⟩⟩
  have hholds := hguarded frame (by simp [hwrites])
  have hholds' := hguarded frame' haccesses
  exact hdistinct (hbal.unique (cfg.mem_of_top hfirst) hholds (cfg.mem_of_top hsecond) hholds')

end Races

end HauppaugeUSB.Concurrency

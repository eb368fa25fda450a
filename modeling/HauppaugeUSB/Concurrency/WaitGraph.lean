/-
# Wait-for graphs

Threads block on locks and locks have owners; a thread waits for another when it
is blocked on a lock the other owns. A deadlock is a cycle of this relation, a
thread blocked on a lock it owns itself being the shortest one.

The classical criterion is a lock order: if a thread only ever blocks on locks
ranked above those it owns, ranks grow along every chain of waits and no chain
closes. The order may depend on the state, which is what a program needs whose
threads nest two locks in both orders (`deadlockFree_of_not_crossed`).

Without deadlocks and with finitely many locks, somebody at the end of every chain
of waits can go on (`exists_unblocked`).
-/

import Mathlib.Data.Fintype.Card
import Mathlib.Data.Nat.Notation
import Mathlib.Logic.Relation
import Mathlib.Tactic.TypeStar

namespace HauppaugeUSB.Concurrency

/-- Which lock each thread is blocked on, if any, and who owns each lock. -/
structure WaitGraph (Thread Lock : Type*) where
  /-- The lock a thread is blocked on. -/
  waitsFor : Thread → Option Lock
  /-- The thread that owns a lock. -/
  owner : Lock → Option Thread

namespace WaitGraph

variable {Thread Lock : Type*} (G : WaitGraph Thread Lock)

/-- `first` is blocked on a lock that `second` owns. -/
def Waits (first second : Thread) : Prop :=
  ∃ lock, G.waitsFor first = some lock ∧ G.owner lock = some second

/-- No thread waits for itself and no chain of waits leads back to its start. -/
def DeadlockFree : Prop :=
  ∀ thread, ¬ G.Waits thread thread ∧ ¬ Relation.TransGen G.Waits thread thread

variable {G}

/-- Along a chain of waits between two blocked threads the rank of the awaited
lock grows. -/
theorem rank_lt_of_transGen {rank : Lock → ℕ}
    (hrank : ∀ thread lock held, G.waitsFor thread = some lock →
      G.owner held = some thread → rank held < rank lock)
    {first last : Thread} (hchain : Relation.TransGen G.Waits first last)
    {lock lock' : Lock} (hfirst : G.waitsFor first = some lock)
    (hlast : G.waitsFor last = some lock') : rank lock < rank lock' := by
  induction hchain generalizing lock' with
  | single hwait =>
      obtain ⟨awaited, hawaited, howner⟩ := hwait
      obtain rfl : awaited = lock := Option.some.inj (hawaited.symm.trans hfirst)
      exact hrank _ _ _ hlast howner
  | tail _ hwait ih =>
      obtain ⟨awaited, hawaited, howner⟩ := hwait
      exact Nat.lt_trans (ih hawaited) (hrank _ _ _ hlast howner)

/-- The lock-order criterion. -/
theorem deadlockFree_of_rank (rank : Lock → ℕ)
    (hrank : ∀ thread lock held, G.waitsFor thread = some lock →
      G.owner held = some thread → rank held < rank lock) : G.DeadlockFree := by
  have hcycle : ∀ thread, ¬ Relation.TransGen G.Waits thread thread := by
    intro thread hchain
    obtain ⟨next, ⟨lock, hlock, -⟩, -⟩ := Relation.TransGen.head'_iff.mp hchain
    exact Nat.lt_irrefl _ (rank_lt_of_transGen hrank hchain hlock hlock)
  intro thread
  exact ⟨fun hself => hcycle thread (.single hself), hcycle thread⟩

/-- The criterion for two locks that are nested in both orders: no thread waits for
the lock it owns, and at no time are both nestings blocked. The order of the two
locks is then chosen by the nesting that is blocked. -/
theorem deadlockFree_of_not_crossed (first second : Lock)
    (hlocks : ∀ lock, lock = first ∨ lock = second)
    (hself : ∀ thread lock, G.waitsFor thread = some lock → G.owner lock ≠ some thread)
    (hcrossed : ∀ thread thread', G.waitsFor thread = some first → G.owner second = some thread →
      G.waitsFor thread' = some second → G.owner first = some thread' → False) :
    G.DeadlockFree := by
  classical
  by_cases hblocked : ∃ thread, G.waitsFor thread = some first ∧ G.owner second = some thread
  · obtain ⟨blocked, hwaits, howns⟩ := hblocked
    refine deadlockFree_of_rank (fun lock => if lock = first then 1 else 0) ?_
    intro thread lock held hlock hheld
    by_cases hlast : lock = first
    · subst hlast
      have hother : held ≠ lock := fun hsame => hself thread lock hlock (hsame ▸ hheld)
      simp [hother]
    · have hwanted := (hlocks lock).resolve_left hlast
      rcases hlocks held with rfl | rfl
      · exact (hcrossed blocked thread hwaits howns (hwanted ▸ hlock) hheld).elim
      · exact (hself thread lock hlock (hwanted ▸ hheld)).elim
  · refine deadlockFree_of_rank (fun lock => if lock = first then 0 else 1) ?_
    intro thread lock held hlock hheld
    by_cases hlow : held = first
    · subst hlow
      have hother : lock ≠ held := fun hsame => hself thread lock hlock (hsame ▸ hheld)
      simp [hother]
    · have howned := (hlocks held).resolve_left hlow
      rcases hlocks lock with rfl | rfl
      · exact (hblocked ⟨thread, hlock, howned ▸ hheld⟩).elim
      · exact (hself thread lock hlock (howned ▸ hheld)).elim

variable (G) in
/-- The owner of the first lock is blocked on the second. -/
def Follows (lock next : Lock) : Prop :=
  ∃ thread, G.owner lock = some thread ∧ G.waitsFor thread = some next

/-- A chain of locks is a chain of waits between their owners. -/
theorem transGen_waits_of_follows {lock last : Lock} {first : Thread} {final : Thread}
    (hchain : Relation.TransGen G.Follows lock last) (hfirst : G.owner lock = some first)
    (hfinal : G.owner last = some final) : Relation.TransGen G.Waits first final := by
  induction hchain generalizing final with
  | single hfollows =>
      obtain ⟨thread, howner, hwaits⟩ := hfollows
      obtain rfl : first = thread := Option.some.inj (hfirst.symm.trans howner)
      exact .single ⟨_, hwaits, hfinal⟩
  | tail _ hfollows ih =>
      obtain ⟨thread, howner, hwaits⟩ := hfollows
      exact .tail (ih howner) ⟨_, hwaits, hfinal⟩

/-- Where nobody is deadlocked and there are finitely many locks, every chain of waits ends at
a thread that waits for nobody. -/
theorem exists_unblocked [Finite Lock] (hfree : G.DeadlockFree) (thread : Thread) :
    ∃ last, Relation.ReflTransGen G.Waits thread last ∧ ∀ other, ¬ G.Waits last other := by
  let Later : Lock → Lock → Prop := fun next lock => Relation.TransGen G.Follows lock next
  have htrans : IsTrans Lock Later := ⟨fun _ _ _ hnext hlock => hlock.trans hnext⟩
  have hirrefl : Std.Irrefl Later := by
    refine ⟨fun lock hcycle => ?_⟩
    obtain ⟨next, ⟨owner, howner, -⟩, -⟩ := Relation.TransGen.head'_iff.mp hcycle
    exact (hfree owner).2 (transGen_waits_of_follows hcycle howner howner)
  have hends : WellFounded Later := Finite.wellFounded_of_trans_of_irrefl Later
  have howners : ∀ lock owner, G.owner lock = some owner →
      ∃ last, Relation.ReflTransGen G.Waits owner last ∧ ∀ other, ¬ G.Waits last other := by
    intro lock
    induction lock using hends.induction with
    | h lock ih =>
        intro owner howner
        by_cases hblocked : ∃ other, G.Waits owner other
        · obtain ⟨other, next, hwaits, hother⟩ := hblocked
          obtain ⟨last, hchain, hlast⟩ := ih next (.single ⟨owner, howner, hwaits⟩) other hother
          exact ⟨last, hchain.head ⟨next, hwaits, hother⟩, hlast⟩
        · exact ⟨owner, .refl, not_exists.mp hblocked⟩
  by_cases hblocked : ∃ other, G.Waits thread other
  · obtain ⟨other, lock, hwaits, hother⟩ := hblocked
    obtain ⟨last, hchain, hlast⟩ := howners lock other hother
    exact ⟨last, hchain.head ⟨lock, hwaits, hother⟩, hlast⟩
  · exact ⟨thread, .refl, not_exists.mp hblocked⟩
end WaitGraph

end HauppaugeUSB.Concurrency

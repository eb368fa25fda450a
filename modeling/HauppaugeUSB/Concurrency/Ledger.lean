/-
# A bounded queue and its ledger

Producers offer items to a bounded first-in first-out queue. An offer may be
withdrawn before it reaches the queue, refused because the queue is full, or
queued; what is queued is taken by the consumer or cleared away. The ledger
keeps a list for each of these fates and the list of all offers.

Each operation keeps the books: the queue stays within its capacity, every offer
is in exactly one of the lists, and the items taken come in the order of the
offers.
-/

import Mathlib.Data.List.Perm.Basic
import Mathlib.Tactic.TypeStar

namespace HauppaugeUSB.Concurrency

/-- A queue and what became of all offers to it. -/
structure Ledger (Item : Type*) where
  /-- All offers, in the order in which their fate was decided. -/
  offered : List Item
  withdrawn : List Item
  refused : List Item
  queue : List Item
  cleared : List Item
  taken : List Item

namespace Ledger

variable {Item : Type*} (L : Ledger Item) (item : Item)

/-- An offer is withdrawn. -/
def withdraw : Ledger Item :=
  { L with offered := L.offered ++ [item], withdrawn := L.withdrawn ++ [item] }

/-- An offer is refused. -/
def refuse : Ledger Item :=
  { L with offered := L.offered ++ [item], refused := L.refused ++ [item] }

/-- An offer is queued. -/
def push : Ledger Item :=
  { L with offered := L.offered ++ [item], queue := L.queue ++ [item] }

/-- The consumer takes an item and leaves the rest of the queue. -/
def take (rest : List Item) : Ledger Item :=
  { L with queue := rest, taken := L.taken ++ [item] }

/-- The queue is emptied. -/
def clear : Ledger Item :=
  { L with queue := [], cleared := L.cleared ++ L.queue }

/-- The books are in order. -/
structure Conserved (L : Ledger Item) (capacity : ℕ) : Prop where
  bounded : L.queue.length ≤ capacity
  account : L.offered.Perm (L.withdrawn ++ L.refused ++ L.queue ++ L.cleared ++ L.taken)
  ordered : (L.taken ++ L.queue).Sublist L.offered

variable {L item} {capacity : ℕ} {rest : List Item}

/-- The account, item by item. -/
theorem account_iff [DecidableEq Item] :
    L.offered.Perm (L.withdrawn ++ L.refused ++ L.queue ++ L.cleared ++ L.taken) ↔
      ∀ item, L.offered.count item = L.withdrawn.count item + L.refused.count item +
        L.queue.count item + L.cleared.count item + L.taken.count item := by
  simp only [List.perm_iff_count, List.count_append]

namespace Conserved

theorem empty : Conserved (⟨[], [], [], [], [], []⟩ : Ledger Item) capacity where
  bounded := Nat.zero_le _
  account := .refl _
  ordered := .refl _

theorem withdraw (h : L.Conserved capacity) : (L.withdraw item).Conserved capacity where
  bounded := h.bounded
  account := by
    classical
    refine account_iff.mpr fun other => ?_
    have hcount := account_iff.mp h.account other
    simp only [Ledger.withdraw, List.count_append]
    omega
  ordered := h.ordered.trans (List.sublist_append_left _ _)

theorem refuse (h : L.Conserved capacity) : (L.refuse item).Conserved capacity where
  bounded := h.bounded
  account := by
    classical
    refine account_iff.mpr fun other => ?_
    have hcount := account_iff.mp h.account other
    simp only [Ledger.refuse, List.count_append]
    omega
  ordered := h.ordered.trans (List.sublist_append_left _ _)

theorem push (h : L.Conserved capacity) (hroom : L.queue.length < capacity) :
    (L.push item).Conserved capacity where
  bounded := by
    rw [Ledger.push, List.length_append]
    exact hroom
  account := by
    classical
    refine account_iff.mpr fun other => ?_
    have hcount := account_iff.mp h.account other
    simp only [Ledger.push, List.count_append]
    omega
  ordered := by
    rw [Ledger.push, ← List.append_assoc]
    exact h.ordered.append (.refl _)

theorem take (h : L.Conserved capacity) (hqueue : L.queue = item :: rest) :
    (L.take item rest).Conserved capacity where
  bounded := by
    have hbounded := h.bounded
    rw [hqueue, List.length_cons] at hbounded
    exact Nat.le_of_succ_le hbounded
  account := by
    classical
    refine account_iff.mpr fun other => ?_
    have hcount := account_iff.mp h.account other
    have hsplit : item :: rest = [item] ++ rest := rfl
    simp only [Ledger.take, hqueue, hsplit, List.count_append] at hcount ⊢
    omega
  ordered := by
    have hordered := h.ordered
    rw [hqueue] at hordered
    simpa [Ledger.take] using hordered

theorem clear (h : L.Conserved capacity) : L.clear.Conserved capacity where
  bounded := Nat.zero_le _
  account := by
    classical
    refine account_iff.mpr fun other => ?_
    have hcount := account_iff.mp h.account other
    simp only [Ledger.clear, List.count_append, List.count_nil]
    omega
  ordered := by
    rw [Ledger.clear, List.append_nil]
    exact (List.sublist_append_left _ _).trans h.ordered

end Conserved

end Ledger

end HauppaugeUSB.Concurrency

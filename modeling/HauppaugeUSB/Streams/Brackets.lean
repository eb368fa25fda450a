/-
# Openings and closings

Some events of a history open something, others close it. It is left open if an opening
has no closing after it; what happens besides does not matter. Where events open and close
things that have keys, a history is balanced by those that are held: they are the ones left
open, and nothing has been closed twice.
-/

import Mathlib.Data.List.Infix
import Mathlib.Data.List.Nodup

namespace HauppaugeUSB.Streams

variable {Event : Type*} {opens closes : Event → Prop} {history later : List Event}
  {event : Event}

/-- An opening is not followed by a closing. -/
def LeftOpen (opens closes : Event → Prop) (history : List Event) : Prop :=
  ∃ before opening after, history = before ++ opening :: after ∧ opens opening ∧
    ∀ next ∈ after, ¬ closes next

theorem not_leftOpen_nil : ¬ LeftOpen opens closes [] := by
  rintro ⟨before, opening, after, heq, -⟩
  simp at heq

theorem leftOpen_append_singleton :
    LeftOpen opens closes (history ++ [event]) ↔
      opens event ∨ (¬ closes event ∧ LeftOpen opens closes history) := by
  constructor
  · rintro ⟨before, opening, after, heq, hopens, hafter⟩
    rcases List.eq_nil_or_concat after with rfl | ⟨earlier, last, rfl⟩
    · obtain ⟨-, hlast⟩ := List.append_inj' heq rfl
      obtain rfl := List.singleton_inj.mp hlast
      exact .inl hopens
    · have hsplit : history ++ [event] = (before ++ opening :: earlier) ++ [last] := by
        rw [heq, List.append_assoc, List.cons_append, List.concat_eq_append]
      obtain ⟨hhistory, hlast⟩ := List.append_inj' hsplit rfl
      obtain rfl := List.singleton_inj.mp hlast
      refine .inr ⟨hafter event (by simp), before, opening, earlier, hhistory, hopens, ?_⟩
      exact fun next hnext => hafter next (by simp [hnext])
  · rintro (hopens | ⟨hkeeps, before, opening, after, rfl, hopens, hafter⟩)
    · exact ⟨history, event, [], rfl, hopens, fun next hnext => by simp at hnext⟩
    · refine ⟨before, opening, after ++ [event], by simp, hopens, fun next hnext => ?_⟩
      rcases List.mem_append.mp hnext with hafter' | hlast
      · exact hafter next hafter'
      · exact (List.mem_singleton.mp hlast) ▸ hkeeps

/-- Events that neither open nor close change nothing. -/
theorem leftOpen_append (hopens : ∀ event ∈ later, ¬ opens event)
    (hcloses : ∀ event ∈ later, ¬ closes event) :
    LeftOpen opens closes (history ++ later) ↔ LeftOpen opens closes history := by
  induction later using List.reverseRecOn with
  | nil => rw [List.append_nil]
  | append_singleton earlier last ih =>
      have hlast : last ∈ earlier ++ [last] := by simp
      rw [← List.append_assoc, leftOpen_append_singleton]
      rw [ih (fun event hevent => hopens event (List.mem_append_left _ hevent))
        fun event hevent => hcloses event (List.mem_append_left _ hevent)]
      simp [hopens last hlast, hcloses last hlast]

section Keys

variable {Key : Type*} {opened closed : Event → Option Key} {held held' : Key → Prop} {key : Key}

/-- Those that are held are those left open, and each is closed at most once. -/
structure Balanced (opened closed : Event → Option Key) (held : Key → Prop)
    (history : List Event) : Prop where
  outstanding : ∀ key,
    LeftOpen (fun event => opened event = some key) (fun event => closed event = some key) history ↔
      held key
  closedOnce : (history.filterMap closed).Nodup
  /-- What has been closed is not held again. -/
  settled : ∀ key ∈ history.filterMap closed, ¬ held key

theorem balanced_nil : Balanced opened closed (fun _ => False) [] where
  outstanding _ := iff_of_false not_leftOpen_nil not_false
  closedOnce := List.nodup_nil
  settled _ hclosed := by simp at hclosed

namespace Balanced

/-- An event that opens and closes nothing. -/
theorem other (hbalanced : Balanced opened closed held history) (hopened : opened event = none)
    (hclosed : closed event = none) : Balanced opened closed held (history ++ [event]) where
  outstanding key := by
    rw [leftOpen_append_singleton, ← hbalanced.outstanding key]
    simp [hopened, hclosed]
  closedOnce := by simpa [hclosed] using hbalanced.closedOnce
  settled := by simpa [hclosed] using hbalanced.settled

theorem others (hbalanced : Balanced opened closed held history)
    (hlater : ∀ event ∈ later, opened event = none ∧ closed event = none) :
    Balanced opened closed held (history ++ later) := by
  induction later generalizing history with
  | nil => rwa [List.append_nil]
  | cons event rest ih =>
      obtain ⟨hopened, hclosed⟩ := hlater event List.mem_cons_self
      rw [← List.singleton_append, ← List.append_assoc]
      exact ih (hbalanced.other hopened hclosed) fun next hnext =>
        hlater next (List.mem_cons_of_mem _ hnext)

/-- An event that opens something that has not been closed before. -/
theorem opening (hbalanced : Balanced opened closed held history)
    (hopened : opened event = some key)
    (hclosed : closed event = none) (hnew : key ∉ history.filterMap closed)
    (hheld : ∀ other, held' other ↔ other = key ∨ held other) :
    Balanced opened closed held' (history ++ [event]) where
  outstanding other := by
    rw [leftOpen_append_singleton, hbalanced.outstanding other, hheld]
    simp [hopened, hclosed, eq_comm]
  closedOnce := by simpa [hclosed] using hbalanced.closedOnce
  settled other hother := by
    rw [List.filterMap_append, List.filterMap_cons_none hclosed, List.filterMap_nil,
      List.append_nil] at hother
    rw [hheld]
    rintro (rfl | hbefore)
    · exact hnew hother
    · exact hbalanced.settled other hother hbefore

/-- An event that closes something that is held. -/
theorem closing (hbalanced : Balanced opened closed held history) (hopened : opened event = none)
    (hclosed : closed event = some key) (hhere : held key)
    (hheld : ∀ other, held' other ↔ other ≠ key ∧ held other) :
    Balanced opened closed held' (history ++ [event]) where
  outstanding other := by
    rw [leftOpen_append_singleton, hbalanced.outstanding other, hheld]
    simp [hopened, hclosed, eq_comm]
  closedOnce := by
    have hnew : key ∉ history.filterMap closed := fun hbefore =>
      hbalanced.settled key hbefore hhere
    rw [List.filterMap_append, List.filterMap_cons_some hclosed, List.filterMap_nil,
      ← List.concat_eq_append]
    exact hbalanced.closedOnce.concat hnew
  settled other hother := by
    rw [List.filterMap_append, List.filterMap_cons_some hclosed, List.filterMap_nil,
      List.mem_append, List.mem_singleton] at hother
    rw [hheld]
    rintro ⟨hne, hbefore⟩
    rcases hother with hclosed | rfl
    · exact hbalanced.settled other hclosed hbefore
    · exact hne rfl

/-- One that opens something, and one that closes it again. -/
theorem bracket {opening closing : Event} (hbalanced : Balanced opened closed held history)
    (hopening : opened opening = some key) (hstays : closed opening = none)
    (hcloses : closed closing = some key) (hclosing : opened closing = none)
    (hnew : key ∉ history.filterMap closed) (hfree : ¬ held key) :
    Balanced opened closed held (history ++ [opening] ++ [closing]) := by
  have hopened : Balanced opened closed (fun other => other = key ∨ held other)
      (history ++ [opening]) := hbalanced.opening hopening hstays hnew fun _ => Iff.rfl
  refine hopened.closing hclosing hcloses (.inl rfl) fun other => ?_
  constructor
  · intro hheld
    exact ⟨fun heq => hfree (heq ▸ hheld), .inr hheld⟩
  · rintro ⟨hne, heq | hheld⟩
    · exact absurd heq hne
    · exact hheld

end Balanced

end Keys

end HauppaugeUSB.Streams

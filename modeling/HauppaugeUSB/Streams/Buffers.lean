/-
# Buffers of terminated texts

A text is stored in a buffer with a terminator behind it, and what the buffer held beyond
that stays. Whoever compares a number of symbols with the buffer therefore sees the text,
the terminator, and then what is left of earlier texts.
-/

import Mathlib.Data.List.TakeWhile

namespace HauppaugeUSB.Streams

variable {Symbol : Type*} {terminator : Symbol} {stored wanted : List Symbol}
  {buffer : ℕ → Symbol} {size : ℕ}

/-- The buffer after a text has been stored in it. -/
def place (terminator : Symbol) (stored : List Symbol) (buffer : ℕ → Symbol) : ℕ → Symbol :=
  fun i => if h : i < stored.length then stored[i] else if i = stored.length then terminator
    else buffer i

/-- The buffer begins with the symbols of a text. -/
def Shows (buffer : ℕ → Symbol) (wanted : List Symbol) : Prop :=
  ∀ i (h : i < wanted.length), buffer i = wanted[i]

instance [DecidableEq Symbol] : Decidable (Shows buffer wanted) := Nat.decidableBallLT _ _

/-- The text in a buffer of some size. -/
def contents [DecidableEq Symbol] (terminator : Symbol) (size : ℕ) (buffer : ℕ → Symbol) :
    List Symbol :=
  ((List.range size).map buffer).takeWhile (· ≠ terminator)

theorem place_of_lt {i : ℕ} (h : i < stored.length) :
    place terminator stored buffer i = stored[i] :=
  dif_pos h

theorem place_length : place terminator stored buffer stored.length = terminator := by
  simp [place]

/-- A stored text is shown. -/
theorem shows_place_self : Shows (place terminator stored buffer) stored :=
  fun _ h => place_of_lt h

/-- A text without the terminator is shown exactly if it begins the stored one. -/
theorem shows_place_iff (hwanted : terminator ∉ wanted) :
    Shows (place terminator stored buffer) wanted ↔ wanted <+: stored := by
  rw [List.prefix_iff_getElem]
  constructor
  · intro hshows
    have hlength : wanted.length ≤ stored.length := by
      by_contra hlonger
      -- the terminator would have to be in the text
      have hlast := hshows stored.length (by omega)
      rw [place_length] at hlast
      exact hwanted (hlast ▸ List.getElem_mem _)
    refine ⟨hlength, fun i h => ?_⟩
    rw [← hshows i h, place_of_lt (by omega)]
  · rintro ⟨hlength, hsame⟩ i h
    rw [place_of_lt (by omega), hsame i h]

/-- A stored text is read back up to its first terminator. -/
theorem contents_place [DecidableEq Symbol] (hsize : stored.length < size) :
    contents terminator size (place terminator stored buffer) =
      stored.takeWhile (· ≠ terminator) := by
  have hbegins : stored ++ [terminator] <+:
      (List.range size).map (place terminator stored buffer) := by
    rw [List.prefix_iff_getElem]
    refine ⟨by simpa using Nat.succ_le_of_lt hsize, fun i h => ?_⟩
    rw [List.getElem_map, List.getElem_range]
    by_cases hlast : i < stored.length
    · rw [place_of_lt hlast, List.getElem_append_left hlast]
    · have hi : i = stored.length := by
        rw [List.length_append, List.length_singleton] at h
        omega
      subst hi
      simp [place_length]
  obtain ⟨rest, hrest⟩ := hbegins
  rw [contents, ← hrest, List.append_assoc, List.takeWhile_append]
  split
  case isTrue hwhole =>
    rw [(List.takeWhile_prefix _).eq_of_length hwhole]
    simp
  case isFalse => rfl

/-- One without the terminator is read back as it is. -/
theorem contents_place_of_notMem [DecidableEq Symbol] (hstored : terminator ∉ stored)
    (hsize : stored.length < size) :
    contents terminator size (place terminator stored buffer) = stored := by
  rw [contents_place hsize, List.takeWhile_eq_self_iff]
  intro symbol hsymbol
  simp only [ne_eq, decide_not, Bool.not_eq_true', decide_eq_false_iff_not]
  exact fun heq => hstored (heq ▸ hsymbol)

end HauppaugeUSB.Streams

/-
# Recording for some time

In the standalone mode a `--duration` ends the recording: once a second, `main` reads the
clock and prints how far it is, until at least the duration has passed. It then stops the
encoder, as it does after a signal without a duration. The loop ends because each of its
turns sleeps for a second, and what it prints can be read back.
-/

import HauppaugeUSB.Main.Teardown
import HauppaugeUSB.Streams.Records
import Mathlib.Data.Nat.Find

namespace HauppaugeUSB.Main

open HauppaugeUSB.Commands HauppaugeUSB.Control HauppaugeUSB.Device HauppaugeUSB.Streams
  HauppaugeUSB.Wrappers

/-! ## `PrintPosition` -/

/-- A number at a width, with the fill character `0`. -/
def padded (width number : ℕ) : Text :=
  let digits := Nat.toDigits 10 number
  List.replicate (width - digits.length) '0' ++ digits

/-- Hours, minutes and seconds. -/
def clockText (t : ℕ) : Text :=
  let h := t / 3600
  let t := t - 3600 * h
  let m := t / 60
  let s := t - 60 * m
  padded 3 h ++ text ":" ++ padded 2 m ++ text ":" ++ padded 2 s

/-- What `PrintPosition` prints before the carriage return. -/
def positionText (elapsed duration : ℕ) : Text :=
  clockText elapsed ++ text " of " ++ clockText duration

/-- `PrintPosition`. -/
def printPosition (elapsed duration : ℕ) : Text :=
  positionText elapsed duration ++ text "\r"

/-- Nanoseconds. -/
def second : ℕ := 1000000000

/-- What `steady_clock::now` returns for `start`, and in each turn of the loop. It does not go
back, and between two turns is a `sleep_for` of a second. -/
structure SteadyClock where
  start : ℕ
  now : ℕ → ℕ
  start_le : start ≤ now 0
  sleeps : ∀ turn, now turn + second ≤ now (turn + 1)

/-- `elapsed` in a turn. -/
def SteadyClock.elapsed (clock : SteadyClock) (turn : ℕ) : ℕ :=
  (clock.now turn - clock.start) / second

/-- The loop from a turn on: what it has printed at its end. -/
def positionLoop (clock : SteadyClock) (duration : ℕ) : ℕ → ℕ → Text → Option Text
  | 0, _, _ => none
  | fuel + 1, turn, printed =>
      let printed := printed ++ printPosition (clock.elapsed turn) duration
      if clock.elapsed turn < duration then positionLoop clock duration fuel (turn + 1) printed
      else some printed

/-- A recording: the device after it, and what has been printed. -/
structure Recording where
  dev : HauppaugeDev
  printed : Text

/-- `dev.StartEncoding`, the loop if there is a duration and `evtWait` otherwise, and
`dev.StopEncoding`. -/
def encodeFor (replies : StandaloneReplies) (clock : SteadyClock) (duration : ℤ) (fuel : ℕ)
    (dev : HauppaugeDev) : Option Recording :=
  let started := (Device.startEncoding replies.start dev).2
  let stopped := (Device.stopEncoding replies.stop started).2
  if (Device.startEncoding replies.start).returnsTrue dev then
    if 0 < duration then
      (positionLoop clock duration.toNat fuel 0 []).map fun printed =>
        ⟨stopped, printed ++ text "\n\n"⟩
    else some ⟨stopped, []⟩
  else some ⟨started, []⟩

/-- The seconds that a clock shows. -/
def readClock (shown : Text) : ℕ :=
  (shown.splitOn ':').foldl (fun t part => 60 * t + digitsValue part) 0

/-- The two clocks of a position. -/
def readPosition (shown : Text) : Option (ℕ × ℕ) :=
  match shown.splitOn ' ' with
  | [elapsed, _, duration] => some (readClock elapsed, readClock duration)
  | _ => none

/-- A recording takes so many turns: after the last one, and only then, the duration is over. -/
structure KeepsTime (clock : SteadyClock) (duration turns : ℕ) : Prop where
  positive : 0 < turns
  bounded : turns ≤ duration + 1
  enough : clock.start + duration * second ≤ clock.now (turns - 1)
  needed : ∀ turn, turn + 1 < turns → clock.now turn < clock.start + duration * second

/-- What has been printed is a growing sequence of positions. -/
structure ShowsTime (clock : SteadyClock) (duration turns : ℕ) (printed : Text) : Prop where
  positions : (records '\r' printed).map readPosition =
    (List.range turns).map fun turn => some (clock.elapsed turn, duration)
  grows : ∀ turn, clock.elapsed turn < clock.elapsed (turn + 1)

theorem digitsValue_padded (width number : ℕ) : digitsValue (padded width number) = number := by
  show Nat.ofDigitChars 10 (List.replicate _ '0' ++ Nat.toDigits 10 number) 0 = number
  rw [Nat.ofDigitChars_append, Nat.ofDigitChars_replicate_zero, Nat.mul_zero,
    Nat.ofDigitChars_ten_toDigits]

theorem isDigit_of_mem_padded {width number : ℕ} {c : Char} (hc : c ∈ padded width number) :
    c.isDigit = true := by
  rcases List.mem_append.mp hc with hzero | hdigit
  · obtain ⟨-, rfl⟩ := List.mem_replicate.mp hzero
    rfl
  · exact Nat.isDigit_of_mem_toDigits (by decide) (by decide) hdigit

theorem notMem_padded {width number : ℕ} {c : Char} (hc : c.isDigit = false) :
    c ∉ padded width number := fun hmem =>
  Bool.false_ne_true (hc.symm.trans (isDigit_of_mem_padded hmem))

theorem notMem_clockText {t : ℕ} {c : Char} (hc : c.isDigit = false) (hcolon : c ≠ ':') :
    c ∉ clockText t := by
  simp [clockText, text, notMem_padded hc, hcolon]

/-- A clock shows what it was given. -/
theorem readClock_clockText (t : ℕ) : readClock (clockText t) = t := by
  have hcolon (width number : ℕ) : ':' ∉ padded width number := notMem_padded rfl
  have hparts (h m s : ℕ) : (padded 3 h ++ text ":" ++ padded 2 m ++ text ":" ++ padded 2 s).splitOn
      ':' = [padded 3 h, padded 2 m, padded 2 s] := by
    have hsplit : padded 3 h ++ text ":" ++ padded 2 m ++ text ":" ++ padded 2 s =
        padded 3 h ++ ':' :: (padded 2 m ++ ':' :: padded 2 s) := by simp [text]
    rw [hsplit, List.splitOn_append_cons_self_of_not_mem (hcolon _ _),
      List.splitOn_append_cons_self_of_not_mem (hcolon _ _), List.splitOn_eq_singleton (hcolon _ _)]
  simp only [readClock, clockText, hparts, List.foldl_cons, List.foldl_nil, digitsValue_padded]
  omega

/-- So do the two clocks of a position. -/
theorem readPosition_positionText (elapsed duration : ℕ) :
    readPosition (positionText elapsed duration) = some (elapsed, duration) := by
  have hspace (t : ℕ) : ' ' ∉ clockText t := notMem_clockText rfl (by decide)
  have hsplit : positionText elapsed duration =
      clockText elapsed ++ ' ' :: (text "of" ++ ' ' :: clockText duration) := by
    simp [positionText, text]
  have hparts : (positionText elapsed duration).splitOn ' ' =
      [clockText elapsed, text "of", clockText duration] := by
    rw [hsplit, List.splitOn_append_cons_self_of_not_mem (hspace _),
      List.splitOn_append_cons_self_of_not_mem (by decide), List.splitOn_eq_singleton (hspace _)]
  rw [readPosition, hparts]
  simp only [readClock_clockText]

theorem notMem_positionText (elapsed duration : ℕ) : '\r' ∉ positionText elapsed duration := by
  have hclock (t : ℕ) : '\r' ∉ clockText t := notMem_clockText rfl (by decide)
  simp [positionText, text, hclock]

section Loop

variable {clock : SteadyClock} {duration turns : ℕ}

/-- Each turn takes a second. -/
theorem SteadyClock.le_now (clock : SteadyClock) (turn : ℕ) :
    clock.start + turn * second ≤ clock.now turn := by
  induction turn with
  | zero => simpa using clock.start_le
  | succ turn ih =>
      have hsleeps := clock.sleeps turn
      rw [Nat.succ_mul]
      omega

theorem SteadyClock.le_elapsed_iff {turn seconds : ℕ} :
    seconds ≤ clock.elapsed turn ↔ clock.start + seconds * second ≤ clock.now turn := by
  have hlater : clock.start ≤ clock.now turn :=
    Nat.le_trans (Nat.le_add_right _ _) (clock.le_now turn)
  rw [SteadyClock.elapsed, Nat.le_div_iff_mul_le (by decide)]
  omega

theorem SteadyClock.elapsed_lt (clock : SteadyClock) (turn : ℕ) :
    clock.elapsed turn < clock.elapsed (turn + 1) := by
  have hhere : clock.start + clock.elapsed turn * second ≤ clock.now turn :=
    le_elapsed_iff.mp (Nat.le_refl _)
  have hsleeps := clock.sleeps turn
  refine Nat.lt_of_succ_le (le_elapsed_iff.mpr ?_)
  rw [Nat.succ_mul]
  omega

/-- The duration is over after some turn. -/
theorem exists_keepsTime (clock : SteadyClock) (duration : ℕ) :
    ∃ turns, KeepsTime clock duration turns := by
  have hover : ∃ turn, clock.start + duration * second ≤ clock.now turn :=
    ⟨duration, clock.le_now duration⟩
  refine ⟨Nat.find hover + 1, Nat.succ_pos _, ?_, ?_, fun turn hturn => ?_⟩
  · exact Nat.succ_le_succ (Nat.find_min' hover (clock.le_now duration))
  · rw [Nat.add_sub_cancel]
    exact Nat.find_spec hover
  · exact Nat.not_le.mp (Nat.find_min hover (Nat.lt_of_succ_lt_succ hturn))

/-- The positions of some turns. -/
def positionsFrom (clock : SteadyClock) (duration turn count : ℕ) : List Text :=
  (List.range' turn count).map fun turn => positionText (clock.elapsed turn) duration

/-- The loop prints a position in each turn until the last. -/
theorem positionLoop_eq (hturns : KeepsTime clock duration turns) {fuel turn : ℕ} {printed : Text}
    (hturn : turn < turns) (hfuel : turns ≤ turn + fuel) :
    positionLoop clock duration fuel turn printed =
      some (printed ++ written '\r' (positionsFrom clock duration turn (turns - turn))) := by
  induction fuel generalizing turn printed with
  | zero => omega
  | succ fuel ih =>
      obtain ⟨left, hleft⟩ : ∃ left, turns - turn = left + 1 := ⟨turns - turn - 1, by omega⟩
      have hshown : printed ++ printPosition (clock.elapsed turn) duration ++
          written '\r' (positionsFrom clock duration (turn + 1) left) =
            printed ++ written '\r' (positionsFrom clock duration turn (turns - turn)) := by
        simp [hleft, written, positionsFrom, List.range'_succ, printPosition, text]
      rw [positionLoop]
      split
      case isTrue hless =>
        -- the last turn is still to come
        have hmore : turn + 1 < turns := by
          have hnot : ¬ clock.start + duration * second ≤ clock.now turn := fun hover =>
            Nat.not_le.mpr hless (SteadyClock.le_elapsed_iff.mpr hover)
          by_contra hlast
          have hthis : turns - 1 = turn := by omega
          exact hnot (hthis ▸ hturns.enough)
        have hrest : turns - (turn + 1) = left := by omega
        rw [ih hmore (by omega), hrest, hshown]
      case isFalse hover =>
        have hreached := SteadyClock.le_elapsed_iff.mp (Nat.not_lt.mp hover)
        have hlast : left = 0 := by
          by_contra hleft'
          exact Nat.not_lt.mpr hreached (hturns.needed turn (by omega))
        subst hlast
        rw [← hshown]
        simp [positionsFrom, written]

theorem showsTime {turns : ℕ} :
    ShowsTime clock duration turns
      (written '\r' (positionsFrom clock duration 0 turns) ++ text "\n\n") where
  positions := by
    have hlines : ∀ line ∈ positionsFrom clock duration 0 turns, '\r' ∉ line := by
      intro line hline
      obtain ⟨turn, -, rfl⟩ := List.mem_map.mp hline
      exact notMem_positionText _ _
    rw [records_written_append hlines, records_eq_nil (by decide), List.append_nil, positionsFrom,
      List.map_map, ← List.range_eq_range']
    exact List.map_congr_left fun turn _ => readPosition_positionText _ _
  grows := clock.elapsed_lt

end Loop

/-- A recording with a duration ends by itself, once the duration is over and not a turn later;
it does to the device what a recording without one does, and its positions can be read. -/
theorem recordsFor {replies : StandaloneReplies} {dev : HauppaugeDev} (clock : SteadyClock)
    {duration : ℕ} (hduration : 0 < duration)
    (hstarts : (Device.startEncoding replies.start).returnsTrue dev = true) :
    ∃ turns printed, KeepsTime clock duration turns ∧ ShowsTime clock duration turns printed ∧
      ∀ fuel, turns ≤ fuel →
        encodeFor replies clock duration fuel dev = some ⟨encode replies dev, printed⟩ := by
  obtain ⟨turns, hturns⟩ := exists_keepsTime clock duration
  refine ⟨turns, _, hturns, showsTime, fun fuel hfuel => ?_⟩
  have hpositive : (0 : ℤ) < duration := Int.natCast_pos.mpr hduration
  rw [encodeFor, encode]
  simp only [hstarts, hpositive, if_true, Int.toNat_natCast,
    positionLoop_eq hturns hturns.positive (Nat.le_trans hfuel (Nat.le_add_left _ _))]
  simp

/-- A clock whose turns take a second and nothing more. -/
def ticking : SteadyClock where
  start := 0
  now turn := turn * second
  start_le := Nat.zero_le _
  sleeps turn := (Nat.succ_mul turn second).ge

theorem recordsFor_three :
    ∃ turns printed, KeepsTime ticking 3 turns ∧ ShowsTime ticking 3 turns printed ∧
      ∀ fuel, turns ≤ fuel →
        encodeFor brokenEncoder ticking 3 fuel (HauppaugeDev.new .default Registry.empty) =
          some ⟨encode brokenEncoder (HauppaugeDev.new .default Registry.empty), printed⟩ :=
  recordsFor ticking (by decide) (by decide)

end HauppaugeUSB.Main

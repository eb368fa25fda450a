/-
# Records of a stream

A stream of symbols carries records, each of them ended by a terminator. The
complete records of a stream are what stands before its terminators; what stands
after the last one is not a record yet. Reading a stream bit by bit therefore means
to write it as records already delivered, followed by a rest, and the lemmas here
say what the records of such a stream are.
-/

import Mathlib.Data.List.Basic

namespace HauppaugeUSB.Streams

variable {Symbol : Type*} {terminator : Symbol}
  {stream rest record : List Symbol} {items : List (List Symbol)}

/-- Records as a stream. -/
def written (terminator : Symbol) (items : List (List Symbol)) : List Symbol :=
  items.flatMap fun item => item ++ [terminator]

theorem written_append_singleton :
    written terminator (items ++ [record]) =
      written terminator items ++ record ++ [terminator] := by
  simp [written]

variable [DecidableEq Symbol]

/-- The first record of a stream, if it is complete, and what comes after it. -/
def cut (terminator : Symbol) : List Symbol → Option (List Symbol × List Symbol)
  | [] => none
  | symbol :: rest =>
      if symbol = terminator then some ([], rest)
      else (cut terminator rest).map fun found => (symbol :: found.1, found.2)

theorem cut_eq_none_iff : cut terminator stream = none ↔ terminator ∉ stream := by
  induction stream with
  | nil => simp [cut]
  | cons symbol rest ih =>
      rw [cut]
      split
      case isTrue hsymbol => simp [hsymbol]
      case isFalse hsymbol => simp [ih, Ne.symm hsymbol]

/-- A stream is cut at its first terminator. -/
theorem of_cut_eq_some (hcut : cut terminator stream = some (record, rest)) :
    stream = record ++ terminator :: rest ∧ terminator ∉ record := by
  induction stream generalizing record with
  | nil => simp [cut] at hcut
  | cons symbol later ih =>
      rw [cut] at hcut
      split at hcut
      case isTrue hsymbol =>
        obtain ⟨rfl, rfl⟩ := Prod.mk.inj (Option.some.inj hcut)
        exact ⟨by rw [hsymbol, List.nil_append], List.not_mem_nil⟩
      case isFalse hsymbol =>
        obtain ⟨⟨found, after⟩, hlater, heq⟩ := Option.map_eq_some_iff.mp hcut
        obtain ⟨rfl, rfl⟩ := Prod.mk.inj heq
        obtain ⟨rfl, hfound⟩ := ih hlater
        refine ⟨by rw [List.cons_append], ?_⟩
        rw [List.mem_cons, not_or]
        exact ⟨Ne.symm hsymbol, hfound⟩

/-- And there it is cut. -/
theorem cut_append_cons (hrecord : terminator ∉ record) :
    cut terminator (record ++ terminator :: rest) = some (record, rest) := by
  induction record with
  | nil => simp [cut]
  | cons symbol later ih =>
      rw [List.mem_cons, not_or] at hrecord
      rw [List.cons_append, cut, if_neg (Ne.symm hrecord.1), ih hrecord.2]
      rfl

/-- Where a stream can be cut is what `takeWhile` and `dropWhile` find. -/
theorem takeWhile_of_cut (hcut : cut terminator stream = some (record, rest)) :
    stream.takeWhile (· ≠ terminator) = record ∧
      stream.dropWhile (· ≠ terminator) = terminator :: rest := by
  obtain ⟨rfl, hrecord⟩ := of_cut_eq_some hcut
  have hkept : ∀ symbol ∈ record, decide (symbol ≠ terminator) = true := by
    intro symbol hsymbol
    simp only [ne_eq, decide_not, Bool.not_eq_true', decide_eq_false_iff_not]
    exact fun heq => hrecord (heq ▸ hsymbol)
  rw [List.takeWhile_append_of_pos hkept, List.dropWhile_append_of_pos hkept]
  simp

/-- The pieces of a stream that cannot be cut. -/
theorem splitOn_of_cut_none (hcut : cut terminator stream = none) :
    stream.splitOn terminator = [stream] :=
  List.splitOn_eq_singleton (cut_eq_none_iff.mp hcut)

/-- The pieces of one that can. -/
theorem splitOn_of_cut (hcut : cut terminator stream = some (record, rest)) :
    stream.splitOn terminator = record :: rest.splitOn terminator := by
  obtain ⟨rfl, hrecord⟩ := of_cut_eq_some hcut
  exact List.splitOn_append_cons_self_of_not_mem hrecord rest

/-- The complete records of a stream. -/
def records (terminator : Symbol) (stream : List Symbol) : List (List Symbol) :=
  (stream.splitOn terminator).dropLast

theorem records_eq_nil (hnone : terminator ∉ stream) : records terminator stream = [] := by
  rw [records, List.splitOn_eq_singleton hnone]
  rfl

theorem records_append_cons (hrecord : terminator ∉ record) :
    records terminator (record ++ terminator :: rest) = record :: records terminator rest := by
  rw [records, List.splitOn_append_cons_self_of_not_mem hrecord,
    List.dropLast_cons_of_ne_nil (List.splitOn_ne_nil terminator rest)]
  rfl

/-- The pieces of written records are these and an empty one. -/
theorem splitOn_written (hitems : ∀ item ∈ items, terminator ∉ item) :
    (written terminator items).splitOn terminator = items ++ [[]] := by
  induction items with
  | nil =>
      show List.splitOn terminator [] = [] ++ [[]]
      rw [List.splitOn_nil, List.nil_append]
  | cons item later ih =>
      have hlater := ih fun other hother => hitems other (List.mem_cons_of_mem _ hother)
      have hfirst : written terminator (item :: later) =
          item ++ terminator :: written terminator later := by simp [written]
      rw [hfirst, List.splitOn_append_cons_self_of_not_mem (hitems item List.mem_cons_self), hlater,
        List.cons_append]

/-- Records that have been written are there before those of the rest. -/
theorem records_written_append (hitems : ∀ item ∈ items, terminator ∉ item) :
    records terminator (written terminator items ++ rest) = items ++ records terminator rest := by
  induction items with
  | nil => simp [written]
  | cons item later ih =>
      have hitem := hitems item List.mem_cons_self
      have hlater := ih fun other hother => hitems other (List.mem_cons_of_mem _ hother)
      calc records terminator (written terminator (item :: later) ++ rest)
          = records terminator (item ++ terminator :: (written terminator later ++ rest)) := by
            simp [written]
        _ = item :: records terminator (written terminator later ++ rest) :=
            records_append_cons hitem
        _ = item :: later ++ records terminator rest := by rw [hlater, List.cons_append]

end HauppaugeUSB.Streams

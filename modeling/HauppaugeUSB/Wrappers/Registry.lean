/-
# The registry

The encoder driver reads its settings from a registry, which on Linux is one map from
names to double words. A file loader fills it, and the recorder writes to it when it
opens the device and for each recording. All of them write with `std::map::insert`,
which keeps a value that is there, and report success. The registry is therefore a
store whose first writes win, and it returns what was written last only where nothing
else had been written or loaded before.
-/

import HauppaugeUSB.Commands.Request
import HauppaugeUSB.Stores.Writes

namespace HauppaugeUSB.Wrappers

open HauppaugeUSB.Commands HauppaugeUSB.Stores

/-- `DWORD`. -/
abbrev Dword := UInt32

/-- `STATUS_SUCCESS`. -/
def statusSuccess : ℤ := 0

/-- `STATUS_UNSUCCESSFUL`. -/
def statusUnsuccessful : ℤ := -1

/-- `g_reg`. -/
abbrev Registry := Text → Option Dword

/-- `g_reg` at the start of the program. -/
def Registry.empty : Registry := fun _ => none

/-- `hcwGetRegistryDWORD`: what it returns, and what is at the pointer afterwards. The
pointer may be null. -/
def hcwGetRegistryDword (registry : Registry) (name : Text) (out : Option Dword) :
    Bool × Option Dword :=
  match registry name with
  | none => (false, out)
  | some value => (true, out.map fun _ => value)

/-- `RegistryAccess::readDword`. -/
def readDword (registry : Registry) (name : Text) (out : Option Dword) : ℤ × Option Dword :=
  let read := hcwGetRegistryDword registry name out
  (if read.1 then statusSuccess else statusUnsuccessful, read.2)

/-- `RegistryAccess::writeDword`. -/
def writeDword (registry : Registry) (name : Text) (value : Dword) : ℤ × Registry :=
  (statusSuccess, insertNew registry name value)

/-- `strtoul` in base ten: zero where there is no number, the largest value where it is
too large. -/
def strtoul (input : Text) : ℕ :=
  match input.dropWhile isSpace with
  | '-' :: rest =>
      if maxULong < digitsValue (leadingDigits rest) then maxULong
      else (2 ^ 64 - digitsValue (leadingDigits rest)) % 2 ^ 64
  | '+' :: rest => min (digitsValue (leadingDigits rest)) maxULong
  | rest => min (digitsValue (leadingDigits rest)) maxULong

/-- What `std::string::c_str` shows of a string. -/
def cStr (string : Text) : Text := string.takeWhile (· ≠ '\x00')

/-- `memchr` on the bytes of a buffer from an index on. -/
def memchr (buf : Text) (start : ℕ) (c : Char) : ℕ → Option ℕ
  | 0 => none
  | len + 1 => if buf[start]? = some c then some start else memchr buf (start + 1) c len

/-- The `std::string` of a part of a buffer. -/
def substring (buf : Text) (start len : ℕ) : Text := (buf.drop start).take len

/-- Where the loop of `wrapRegistryLoad` is: `p` and `l`. -/
structure Cursor where
  p : ℕ
  l : ℕ
  deriving DecidableEq

/-- The line at a cursor: how long it is, and the cursor behind it. -/
def nextLine (buf : Text) (cursor : Cursor) : ℕ × Cursor :=
  match memchr buf cursor.p '\n' cursor.l with
  | none => (cursor.l, ⟨cursor.p + cursor.l, 0⟩)
  | some found => (found - cursor.p, ⟨found + 1, cursor.l - (found - cursor.p + 1)⟩)

/-- What a line of length `nl` at `n` does to the registry. -/
def loadLine (buf : Text) (n nl : ℕ) (registry : Registry) : Registry :=
  match memchr buf n '=' nl with
  | none => registry
  | some found =>
      let v := found + 1
      let vl := nl - (v - n)
      insertNew registry (substring buf n (v - n - 1))
        (UInt32.ofNat (strtoul (cStr (substring buf v vl))))

theorem nextLine_lt {buf : Text} {cursor : Cursor} (hmore : (nextLine buf cursor).2.l ≠ 0) :
    (nextLine buf cursor).2.l < cursor.l := by
  unfold nextLine at hmore ⊢
  split at hmore
  case h_1 => exact absurd rfl hmore
  case h_2 found hfound => simp only [ne_eq] at hmore ⊢; omega

/-- The loop of `wrapRegistryLoad`. -/
def loadLines (buf : Text) (cursor : Cursor) (registry : Registry) : Registry :=
  let loaded := loadLine buf cursor.p (nextLine buf cursor).1 registry
  if (nextLine buf cursor).2.l ≠ 0 then loadLines buf (nextLine buf cursor).2 loaded
  else loaded
termination_by cursor.l
decreasing_by exact nextLine_lt ‹_›

/-- `wrapRegistryLoad`, given the bytes that `wrapFileLoad` reads, if it can. -/
def wrapRegistryLoad (registry : Registry) : Option Text → Bool × Registry
  | none => (false, registry)
  | some buf => (true, loadLines buf ⟨0, buf.length⟩ Registry.empty)

/-- An operation on the registry. -/
inductive RegistryOp
  | wrapRegistryLoad (file : Option Text)
  | writeDword (name : Text) (value : Dword)
  | readDword (name : Text)

/-- The registry after an operation. -/
def registryStep (registry : Registry) : RegistryOp → Registry
  | .wrapRegistryLoad file => (wrapRegistryLoad registry file).2
  | .writeDword name value => (writeDword registry name value).2
  | .readDword _ => registry

/-- The registry after a run of the program. -/
def registryAfter (run : List RegistryOp) : Registry := run.foldl registryStep Registry.empty

/-- What a successful load of a file leaves for each name. -/
def loadedValues (file : Text) : Registry := (wrapRegistryLoad Registry.empty (some file)).2

/-- The value that a name is to have, where the latest operation comes first: the value of
its most recent `writeDword` since the last successful load, or else the one loaded. -/
def dueBefore : List RegistryOp → Registry
  | [], _ => none
  | .wrapRegistryLoad (some file) :: _, name => loadedValues file name
  | .wrapRegistryLoad none :: earlier, name => dueBefore earlier name
  | .writeDword written value :: earlier, name =>
      if name = written then some value else dueBefore earlier name
  | .readDword _ :: earlier, name => dueBefore earlier name

/-- The value that a name is to have after a run. -/
def due (run : List RegistryOp) : Registry := dueBefore run.reverse

/-- Reading what was written, at the end of a run. -/
structure ReadsBack (run : List RegistryOp) : Prop where
  found : ∀ name value out, due run name = some value →
    readDword (registryAfter run) name out = (statusSuccess, out.map fun _ => value)
  missing : ∀ name out, due run name = none →
    readDword (registryAfter run) name out = (statusUnsuccessful, out)
  others : ∀ name value other out, other ≠ name →
    readDword (writeDword (registryAfter run) name value).2 other out =
      readDword (registryAfter run) other out
  failedLoad : wrapRegistryLoad (registryAfter run) none = (false, registryAfter run)

/-- An operation as an access to a store. -/
def RegistryOp.access : RegistryOp → Access Text Dword
  | .wrapRegistryLoad file => .load (file.map loadedValues)
  | .writeDword name value => .write name value
  | .readDword name => .read name

/-- The registry is a store whose writes keep what is there. -/
theorem registryAfter_eq_stored {run : List RegistryOp} :
    registryAfter run = stored insertNew Registry.empty (run.map RegistryOp.access) := by
  induction run using List.reverseRecOn with
  | nil => rfl
  | append_singleton earlier op ih =>
      rw [List.map_append, List.map_singleton, stored_append_singleton, ← ih]
      rw [registryAfter, List.foldl_append]
      cases op with
      | wrapRegistryLoad file => cases file <;> rfl
      | writeDword name value => rfl
      | readDword name => rfl

theorem dueBefore_eq_latest {run : List RegistryOp} :
    dueBefore run = latest Registry.empty (run.map RegistryOp.access) := by
  induction run with
  | nil => rfl
  | cons op earlier ih =>
      funext name
      cases op with
      | wrapRegistryLoad file =>
          cases file with
          | none => exact congrFun ih name
          | some file => rfl
      | writeDword written value =>
          simp only [dueBefore, List.map_cons, RegistryOp.access, latest, ih]
      | readDword read => exact congrFun ih name

theorem due_eq_latest {run : List RegistryOp} :
    due run = latest Registry.empty (run.map RegistryOp.access).reverse := by
  rw [due, dueBefore_eq_latest, List.map_reverse]

theorem readDword_of_none {registry : Registry} {name : Text} {out : Option Dword}
    (hnone : registry name = none) : readDword registry name out = (statusUnsuccessful, out) := by
  simp [readDword, hcwGetRegistryDword, hnone]

theorem readDword_of_some {registry : Registry} {name : Text} {out : Option Dword}
    {value : Dword} (hvalue : registry name = some value) :
    readDword registry name out = (statusSuccess, out.map fun _ => value) := by
  simp [readDword, hcwGetRegistryDword, hvalue]

/-- What a name has can be told from a read. -/
theorem of_readDword_some {registry : Registry} {name : Text} {value : Dword}
    (hread : readDword registry name (some (value + 1)) = (statusSuccess, some value)) :
    registry name = some value := by
  cases hfound : registry name with
  | none => simp [readDword_of_none hfound, statusSuccess, statusUnsuccessful] at hread
  | some found => simpa [readDword_of_some hfound] using hread

/-- Every name has what it is to have exactly when all reads return it. -/
theorem readsBack_iff {run : List RegistryOp} : ReadsBack run ↔ registryAfter run = due run := by
  constructor
  · intro hreads
    funext name
    cases hdue : due run name with
    | some value => exact of_readDword_some (hreads.found name value _ hdue)
    | none =>
        cases hfound : registryAfter run name with
        | none => rfl
        | some found =>
            have hmissing := hreads.missing name none hdue
            simp [readDword_of_some hfound, statusSuccess, statusUnsuccessful] at hmissing
  · intro hsame
    refine ⟨fun name value out hdue => ?_, fun name out hdue => ?_,
      fun name value other out hother => ?_, rfl⟩
    · exact readDword_of_some (by rw [hsame, hdue])
    · exact readDword_of_none (by rw [hsame, hdue])
    · have hsame : (writeDword (registryAfter run) name value).2 other = registryAfter run other :=
        insertNew_of_ne hother
      cases hold : registryAfter run other with
      | none => rw [readDword_of_none (hsame.trans hold), readDword_of_none hold]
      | some old => rw [readDword_of_some (hsame.trans hold), readDword_of_some hold]

/-- No write of the run is of a name that is to have another value. -/
def WritesOnce (run : List RegistryOp) : Prop :=
  ∀ prior name value, prior ++ [.writeDword name value] <+: run →
    due prior name = none ∨ due prior name = some value

/-- The accesses of a run write over no other value exactly when its operations do not. -/
theorem keepsValue_iff_writesOnce {run : List RegistryOp} :
    (∀ prior access, prior ++ [access] <+: run.map RegistryOp.access →
      KeepsValue (latest Registry.empty prior.reverse) access) ↔ WritesOnce run := by
  constructor
  · intro hkeeps prior name value hbegins
    rw [due_eq_latest]
    apply hkeeps (prior.map RegistryOp.access) (.write name value)
    simpa [RegistryOp.access] using hbegins.map RegistryOp.access
  · intro honce prior access hbegins
    obtain ⟨earlier, hearlier, hmap⟩ := List.prefix_map_iff.mp hbegins
    obtain ⟨before, last, rfl, rfl, hlast⟩ := List.append_eq_map_iff.mp hmap
    obtain ⟨op, rfl, rfl⟩ := List.map_eq_singleton_iff.mp hlast
    cases op with
    | wrapRegistryLoad file => trivial
    | readDword name => trivial
    | writeDword name value =>
        show latest _ _ name = none ∨ latest _ _ name = some value
        rw [← due_eq_latest]
        exact honce before name value hearlier

/-- In every run all that is written reads back exactly when no name is written over with another
value. -/
theorem readsBack_iff_writesOnce {run : List RegistryOp} :
    (∀ prior, prior <+: run → ReadsBack prior) ↔ WritesOnce run := by
  rw [← keepsValue_iff_writesOnce, ← stored_insertNew_eq_latest_iff]
  simp only [readsBack_iff, registryAfter_eq_stored, due_eq_latest]
  constructor
  · intro hall prior hbegins
    obtain ⟨earlier, hearlier, rfl⟩ := List.prefix_map_iff.mp hbegins
    exact hall earlier hearlier
  · intro hall prior hbegins
    exact hall _ (hbegins.map RegistryOp.access)

/-- The second write of a name is lost. -/
def writeTwice : List RegistryOp :=
  [.writeDword (text "VideoCodingMode") 1, .writeDword (text "VideoCodingMode") 2]

theorem not_readsBack : ¬ ReadsBack writeTwice := by
  intro hreads
  have hread := hreads.found (text "VideoCodingMode") 2 (some 0) (by decide)
  exact absurd hread (by decide)

end HauppaugeUSB.Wrappers

/-
# The registry file

`wrapRegistryLoad` goes through the bytes of a file with a cursor and a remaining length,
line by line, and looks for the first `=` of each line. The cursor is kept with what it
reads here, so that it can be said that nothing outside the bytes is read, and what the
registry is afterwards is compared with what the lines define.
-/

import HauppaugeUSB.Streams.Records
import HauppaugeUSB.Wrappers.Registry
import Mathlib.Data.List.Chain
import Mathlib.Data.List.TakeWhile

namespace HauppaugeUSB.Wrappers

open HauppaugeUSB.Commands HauppaugeUSB.Stores HauppaugeUSB.Streams

/-- The cursors at the beginning of the lines that the loop goes through. -/
def lineCursors (buf : Text) (cursor : Cursor) : List Cursor :=
  if (nextLine buf cursor).2.l ≠ 0 then cursor :: lineCursors buf (nextLine buf cursor).2
  else [cursor]
termination_by cursor.l
decreasing_by exact nextLine_lt ‹_›

/-- Bytes of the buffer that are read together. -/
structure Range where
  start : ℕ
  len : ℕ
  deriving DecidableEq

/-- What is read for a line: by `memchr` for its end and for its `=`, and by the
constructors of the two strings. -/
def lineReads (buf : Text) (cursor : Cursor) : List Range :=
  let nl := (nextLine buf cursor).1
  [⟨cursor.p, cursor.l⟩, ⟨cursor.p, nl⟩] ++
    match memchr buf cursor.p '=' nl with
    | none => []
    | some found =>
        let v := found + 1
        [⟨cursor.p, v - cursor.p - 1⟩, ⟨v, nl - (v - cursor.p)⟩]

/-- What a line defines: its first definition of a key is kept. -/
def defineLine (registry : Registry) (line : Text) : Registry :=
  if '=' ∈ line then
    insertNew registry (line.takeWhile (· ≠ '='))
      (UInt32.ofNat (strtoul (cStr (line.dropWhile (· ≠ '=')).tail)))
  else registry

/-- What a file defines. -/
def definedBy (buf : Text) : Registry := (buf.splitOn '\n').foldl defineLine Registry.empty

/-- A file is read line by line, within its bytes, and defines what its lines define. -/
structure ParsesFile (buf : Text) : Prop where
  /-- The loop loads the lines at these cursors and no others. -/
  visits : ∀ registry, loadLines buf ⟨0, buf.length⟩ registry =
    (lineCursors buf ⟨0, buf.length⟩).foldl
      (fun registry here => loadLine buf here.p (nextLine buf here).1 registry) registry
  atEnd : ∀ cursor ∈ lineCursors buf ⟨0, buf.length⟩,
    cursor.p + cursor.l = buf.length ∧
      (nextLine buf cursor).2.p + (nextLine buf cursor).2.l = buf.length
  decreases : (lineCursors buf ⟨0, buf.length⟩).IsChain fun cursor next => next.l < cursor.l
  inside : ∀ cursor ∈ lineCursors buf ⟨0, buf.length⟩, ∀ range ∈ lineReads buf cursor,
    range.start + range.len ≤ buf.length
  registry : ∀ before, wrapRegistryLoad before (some buf) = (true, definedBy buf)

section Search

variable {buf : Text} {start len : ℕ} {c : Char}

theorem substring_succ (hlt : start < buf.length) :
    substring buf start (len + 1) = buf[start] :: substring buf (start + 1) len := by
  rw [substring, List.drop_eq_getElem_cons hlt, List.take_succ_cons, substring]

/-- `memchr` finds where the part is cut. -/
theorem memchr_eq (hfits : start + len ≤ buf.length) :
    memchr buf start c len =
      (cut c (substring buf start len)).map fun found => start + found.1.length := by
  induction len generalizing start with
  | zero => simp [memchr, substring, cut]
  | succ len ih =>
      have hlt : start < buf.length := by omega
      rw [memchr, substring_succ hlt, cut]
      simp only [List.getElem?_eq_getElem hlt, Option.some.injEq]
      by_cases hhere : buf[start] = c
      · rw [if_pos hhere, if_pos hhere]
        rfl
      · rw [if_neg hhere, if_neg hhere, ih (by omega), Option.map_map]
        congr 1
        funext found
        simp only [Function.comp_apply, List.length_cons]
        omega

theorem substring_rest : substring buf start (buf.length - start) = buf.drop start := by
  rw [substring, List.take_of_length_le (by simp)]

/-- What a part begins with. -/
theorem substring_of_append {before after : Text}
    (hpart : substring buf start len = before ++ after) :
    substring buf start before.length = before := by
  have hbegins : before <+: buf.drop start :=
    calc before <+: before ++ after := List.prefix_append _ _
      _ = (buf.drop start).take len := hpart.symm
      _ <+: buf.drop start := List.take_prefix _ _
  exact (List.prefix_iff_eq_take.mp hbegins).symm

/-- What it ends with. -/
theorem substring_add (taken : ℕ) :
    substring buf (start + taken) (len - taken) = (substring buf start len).drop taken := by
  rw [substring, substring, List.drop_take, List.drop_drop]

end Search

section Lines

variable {buf : Text} {cursor : Cursor} {registry : Registry}

/-- The bytes that a cursor has not passed. -/
theorem substring_of_atEnd (hend : cursor.p + cursor.l = buf.length) :
    substring buf cursor.p cursor.l = buf.drop cursor.p := by
  rw [← substring_rest, ← hend, Nat.add_sub_cancel_left]

/-- The last line, which has no line end. -/
theorem nextLine_of_cut_none (hend : cursor.p + cursor.l = buf.length)
    (hcut : cut '\n' (buf.drop cursor.p) = none) :
    nextLine buf cursor = (cursor.l, ⟨buf.length, 0⟩) := by
  rw [nextLine, memchr_eq (Nat.le_of_eq hend), substring_of_atEnd hend, hcut, ← hend]
  rfl

/-- A line before a line end. -/
theorem nextLine_of_cut {line rest : Text} (hend : cursor.p + cursor.l = buf.length)
    (hcut : cut '\n' (buf.drop cursor.p) = some (line, rest)) :
    nextLine buf cursor = (line.length, ⟨cursor.p + line.length + 1, rest.length⟩) := by
  have hlength : cursor.l = line.length + 1 + rest.length := by
    have hsplit := congrArg List.length (of_cut_eq_some hcut).1
    simp only [List.length_drop, List.length_append, List.length_cons] at hsplit
    omega
  rw [nextLine, memchr_eq (Nat.le_of_eq hend), substring_of_atEnd hend, hcut]
  simp only [Option.map_some, Nat.add_sub_cancel_left, hlength]

/-- What is left after it. -/
theorem drop_of_cut {line rest : Text} (hcut : cut '\n' (buf.drop cursor.p) = some (line, rest)) :
    buf.drop (cursor.p + line.length + 1) = rest := by
  rw [Nat.add_assoc, ← List.drop_drop, (of_cut_eq_some hcut).1, List.drop_append]
  simp

/-- A line does not go beyond the remaining length, and the cursor after it ends with the
buffer as well. -/
theorem nextLine_inside (hend : cursor.p + cursor.l = buf.length) :
    (nextLine buf cursor).1 ≤ cursor.l ∧
      (nextLine buf cursor).2.p + (nextLine buf cursor).2.l = buf.length := by
  cases hcut : cut '\n' (buf.drop cursor.p) with
  | none =>
      rw [nextLine_of_cut_none hend hcut]
      exact ⟨Nat.le_refl _, Nat.add_zero _⟩
  | some found =>
      have hsplit := congrArg List.length (of_cut_eq_some hcut).1
      simp only [List.length_drop, List.length_append, List.length_cons] at hsplit
      rw [nextLine_of_cut hend hcut]
      dsimp only
      omega

/-- A line that is loaded is defined. -/
theorem loadLine_eq {n nl : ℕ} (hfits : n + nl ≤ buf.length) :
    loadLine buf n nl registry = defineLine registry (substring buf n nl) := by
  rw [loadLine, memchr_eq hfits, defineLine]
  cases hcut : cut '=' (substring buf n nl) with
  | none => exact (if_neg (cut_eq_none_iff.mp hcut)).symm
  | some found =>
      obtain ⟨key, value⟩ := found
      have hsplit := (of_cut_eq_some hcut).1
      obtain ⟨hkey, hvalue⟩ := takeWhile_of_cut hcut
      have hmem : '=' ∈ substring buf n nl := by simp [hsplit]
      have hname : substring buf n (n + key.length + 1 - n - 1) = key := by
        have hlength : n + key.length + 1 - n - 1 = key.length := by omega
        rw [hlength]
        exact substring_of_append hsplit
      have hnumber : substring buf (n + key.length + 1) (nl - (n + key.length + 1 - n)) =
          value := by
        have hlength : n + key.length + 1 - n = key.length + 1 := by omega
        rw [hlength, Nat.add_assoc, substring_add, hsplit, List.drop_append]
        simp
      simp only [Option.map_some, hname, hnumber, if_pos hmem, hkey, hvalue, List.tail_cons]

theorem defineLine_nil : defineLine registry [] = registry := if_neg List.not_mem_nil

/-- The line at a cursor is what the rest is cut into. -/
theorem loadLine_of_cut {line rest : Text} (hend : cursor.p + cursor.l = buf.length)
    (hcut : cut '\n' (buf.drop cursor.p) = some (line, rest)) :
    loadLine buf cursor.p (nextLine buf cursor).1 registry = defineLine registry line := by
  have hfits : cursor.p + (nextLine buf cursor).1 ≤ buf.length := by
    have hle := (nextLine_inside hend).1
    omega
  have hsplit : substring buf cursor.p cursor.l = line ++ '\n' :: rest := by
    rw [substring_of_atEnd hend, (of_cut_eq_some hcut).1]
  rw [loadLine_eq hfits, nextLine_of_cut hend hcut, substring_of_append hsplit]

theorem loadLine_of_cut_none (hend : cursor.p + cursor.l = buf.length)
    (hcut : cut '\n' (buf.drop cursor.p) = none) :
    loadLine buf cursor.p (nextLine buf cursor).1 registry =
      defineLine registry (buf.drop cursor.p) := by
  rw [nextLine_of_cut_none hend hcut, loadLine_eq (Nat.le_of_eq hend), substring_of_atEnd hend]

/-- The loop defines what the remaining lines define. -/
theorem loadLines_eq (hend : cursor.p + cursor.l = buf.length) :
    loadLines buf cursor registry =
      ((buf.drop cursor.p).splitOn '\n').foldl defineLine registry := by
  fun_induction loadLines buf cursor registry with
  | case1 cursor registry loaded hmore ih =>
      cases hcut : cut '\n' (buf.drop cursor.p) with
      | none => simp [nextLine_of_cut_none hend hcut] at hmore
      | some found =>
          obtain ⟨line, rest⟩ := found
          have hnext : buf.drop (nextLine buf cursor).2.p = rest := by
            rw [nextLine_of_cut hend hcut]
            exact drop_of_cut hcut
          rw [ih (nextLine_inside hend).2, hnext, splitOn_of_cut hcut, List.foldl_cons]
          rw [← loadLine_of_cut hend hcut]
  | case2 cursor registry loaded hlast =>
      cases hcut : cut '\n' (buf.drop cursor.p) with
      | none =>
          rw [splitOn_of_cut_none hcut, List.foldl_cons, List.foldl_nil]
          exact loadLine_of_cut_none hend hcut
      | some found =>
          obtain ⟨line, rest⟩ := found
          -- a line end at the end of the file, with an empty piece behind it
          obtain rfl : rest = [] := by simpa [nextLine_of_cut hend hcut] using hlast
          rw [splitOn_of_cut hcut, List.splitOn_nil]
          simp only [List.foldl_cons, List.foldl_nil, defineLine_nil]
          exact loadLine_of_cut hend hcut

end Lines

section Loop

variable {buf : Text} {cursor : Cursor} {registry : Registry}

/-- The cursors are those at which the loop loads a line. -/
theorem loadLines_eq_foldl :
    loadLines buf cursor registry = (lineCursors buf cursor).foldl
      (fun registry here => loadLine buf here.p (nextLine buf here).1 registry) registry := by
  fun_induction loadLines buf cursor registry with
  | case1 cursor registry loaded hmore ih => rw [lineCursors, if_pos hmore, List.foldl_cons, ih]
  | case2 cursor registry loaded hlast =>
      rw [lineCursors, if_neg hlast, List.foldl_cons, List.foldl_nil]

theorem atEnd_of_mem (hend : cursor.p + cursor.l = buf.length) :
    ∀ here ∈ lineCursors buf cursor, here.p + here.l = buf.length := by
  fun_induction lineCursors buf cursor with
  | case1 cursor hmore ih =>
      intro here hhere
      rcases List.mem_cons.mp hhere with rfl | hlater
      · exact hend
      · exact ih (nextLine_inside hend).2 here hlater
  | case2 cursor hlast =>
      intro here hhere
      rwa [List.mem_singleton.mp hhere]

theorem head_lineCursors : (lineCursors buf cursor).head? = some cursor := by
  rw [lineCursors]
  split <;> rfl

theorem isChain_lineCursors :
    (lineCursors buf cursor).IsChain fun here next => next.l < here.l := by
  fun_induction lineCursors buf cursor with
  | case1 cursor hmore ih =>
      rw [List.isChain_cons]
      refine ⟨fun next hnext => ?_, ih⟩
      rw [head_lineCursors, Option.mem_some_iff] at hnext
      exact hnext ▸ nextLine_lt hmore
  | case2 cursor hlast => exact .singleton _

/-- What is read for a line is within what remains. -/
theorem inside_of_mem_lineReads (hend : cursor.p + cursor.l = buf.length) :
    ∀ range ∈ lineReads buf cursor, range.start + range.len ≤ buf.length := by
  have hle : cursor.p + (nextLine buf cursor).1 ≤ buf.length := by
    have hline := (nextLine_inside hend).1
    omega
  intro range hrange
  rw [lineReads, memchr_eq hle] at hrange
  cases hcut : cut '=' (substring buf cursor.p (nextLine buf cursor).1) with
  | none =>
      simp only [hcut, Option.map_none, List.append_nil, List.mem_cons, List.not_mem_nil,
        or_false] at hrange
      rcases hrange with rfl | rfl
      · exact Nat.le_of_eq hend
      · exact hle
  | some found =>
      have hsplit := congrArg List.length (of_cut_eq_some hcut).1
      simp only [substring, List.length_take, List.length_drop, List.length_append,
        List.length_cons] at hsplit
      simp only [hcut, Option.map_some, List.cons_append, List.nil_append, List.mem_cons,
        List.not_mem_nil, or_false] at hrange
      rcases hrange with rfl | rfl | rfl | rfl <;> dsimp only <;> omega

end Loop

/-- Every file is parsed so. -/
theorem parsesFile (buf : Text) : ParsesFile buf where
  visits _ := loadLines_eq_foldl
  atEnd cursor hcursor := by
    have hend : cursor.p + cursor.l = buf.length := atEnd_of_mem (Nat.zero_add _) cursor hcursor
    exact ⟨hend, (nextLine_inside hend).2⟩
  decreases := isChain_lineCursors
  inside cursor hcursor := inside_of_mem_lineReads (atEnd_of_mem (Nat.zero_add _) cursor hcursor)
  registry before := by
    rw [wrapRegistryLoad, loadLines_eq (Nat.zero_add _), List.drop_zero, definedBy]

/-- A key that is defined twice keeps its first value, and a number ends at a NUL. -/
example : definedBy (text "VBRMin=7\x007\nProfile\n\nVBRMin=8") (text "VBRMin") = some 7 := by
  decide

/-! ## Settings written as a file -/

/-- A line of a settings file. -/
def settingLine (setting : Text × ℕ) : Text := setting.1 ++ '=' :: Nat.toDigits 10 setting.2

/-- A settings file. -/
def settingsFile (settings : List (Text × ℕ)) : Text := written '\n' (settings.map settingLine)

/-- The names of the settings can be written. -/
def WritableNames (settings : List (Text × ℕ)) : Prop :=
  ∀ setting ∈ settings, '=' ∉ setting.1 ∧ '\n' ∉ setting.1

instance (settings : List (Text × ℕ)) : Decidable (WritableNames settings) :=
  inferInstanceAs (Decidable (∀ setting ∈ settings, _ ∧ _))

/-- The first number that a name is set to, as far as a double word holds it. -/
def firstSetting (settings : List (Text × ℕ)) (name : Text) : Option Dword :=
  settings.findSome? fun setting =>
    if setting.1 = name then some (UInt32.ofNat (min setting.2 maxULong)) else none

/-- A successful load. -/
def RegistryOp.loads : RegistryOp → Bool
  | .wrapRegistryLoad (some _) => true
  | _ => false

/-- What an operation writes to a name. -/
def RegistryOp.writes (name : Text) : RegistryOp → Option Dword
  | .writeDword written value => if written = name then some value else none
  | _ => none

section Settings

variable {settings : List (Text × ℕ)} {registry : Registry} {name : Text}

/-- A number is read back as long as it fits. -/
theorem strtoul_toDigits (number : ℕ) :
    strtoul (cStr (Nat.toDigits 10 number)) = min number maxULong := by
  have hdigits : ∀ c ∈ Nat.toDigits 10 number, c.isDigit = true := fun c hc =>
    Nat.isDigit_of_mem_toDigits (by decide) (by decide) hc
  have hcstr : cStr (Nat.toDigits 10 number) = Nat.toDigits 10 number := by
    rw [cStr, List.takeWhile_eq_self_iff]
    intro c hc
    have hdigit := hdigits c hc
    simp only [ne_eq, decide_not, Bool.not_eq_true', decide_eq_false_iff_not]
    rintro rfl
    exact absurd hdigit (by decide)
  have hvalue : digitsValue (leadingDigits (Nat.toDigits 10 number)) = number := by
    rw [leadingDigits, List.takeWhile_eq_self_iff.mpr hdigits]
    exact Nat.ofDigitChars_ten_toDigits
  rw [hcstr]
  cases hlist : Nat.toDigits 10 number with
  | nil => exact absurd hlist Nat.toDigits_ne_nil
  | cons first rest =>
      have hfirst : first.isDigit = true := hdigits first (by simp [hlist])
      have hspace : isSpace first = false := by
        cases hspace : isSpace first with
        | false => rfl
        | true =>
            simp only [isSpace, Bool.or_eq_true, decide_eq_true_eq] at hspace
            rcases hspace with ((((rfl | rfl) | rfl) | rfl) | rfl) | rfl <;>
              exact absurd hfirst (by decide)
      have hminus : first ≠ '-' := by
        rintro rfl
        exact absurd hfirst (by decide)
      have hplus : first ≠ '+' := by
        rintro rfl
        exact absurd hfirst (by decide)
      rw [hlist] at hvalue
      rw [strtoul, List.dropWhile_cons_of_neg (by simp [hspace])]
      split
      case h_1 heq => exact absurd (List.cons.inj heq).1 hminus
      case h_2 heq => exact absurd (List.cons.inj heq).1 hplus
      case h_3 => rw [hvalue]

/-- A line defines its setting. -/
theorem defineLine_settingLine {setting : Text × ℕ} (hname : '=' ∉ setting.1) :
    defineLine registry (settingLine setting) =
      insertNew registry setting.1 (UInt32.ofNat (min setting.2 maxULong)) := by
  have hcut : cut '=' (settingLine setting) = some (setting.1, Nat.toDigits 10 setting.2) :=
    cut_append_cons hname
  obtain ⟨hkey, hvalue⟩ := takeWhile_of_cut hcut
  have hmem : '=' ∈ settingLine setting := by simp [settingLine]
  rw [defineLine, if_pos hmem, hkey, hvalue, List.tail_cons, strtoul_toDigits]

/-- A file defines the first setting of each name. -/
theorem definedBy_settingsFile (hnames : WritableNames settings) :
    definedBy (settingsFile settings) name = firstSetting settings name := by
  have hlines : ∀ line ∈ settings.map settingLine, '\n' ∉ line := by
    intro line hline
    obtain ⟨setting, hsetting, rfl⟩ := List.mem_map.mp hline
    have hdigits : '\n' ∉ Nat.toDigits 10 setting.2 := fun hmem =>
      absurd (Nat.isDigit_of_mem_toDigits (by decide) (by decide) hmem) (by decide)
    simp [settingLine, (hnames setting hsetting).2, hdigits]
  have hwrites : (settings.map settingLine).foldl defineLine Registry.empty =
      stored insertNew Registry.empty (settings.map fun setting =>
        .write setting.1 (UInt32.ofNat (min setting.2 maxULong))) := by
    rw [stored, List.foldl_map, List.foldl_map]
    refine List.foldl_ext _ _ _ fun registry setting hsetting => ?_
    exact defineLine_settingLine (hnames setting hsetting).1
  have hnone : ∀ access ∈ settings.map fun setting =>
      Access.write setting.1 (UInt32.ofNat (min setting.2 maxULong)), access.loads = false := by
    intro access haccess
    obtain ⟨setting, -, rfl⟩ := List.mem_map.mp haccess
    rfl
  rw [definedBy, settingsFile, splitOn_written hlines, List.foldl_append, List.foldl_cons,
    List.foldl_nil, defineLine_nil, hwrites, stored_insertNew_eq_first hnone, List.findSome?_map]
  simp [Registry.empty, firstSetting, Function.comp_def, Access.writes]

/-- A name has its first value as long as no file is loaded. -/
theorem foldl_registryStep_eq_first {ops : List RegistryOp}
    (hops : ∀ op ∈ ops, op.loads = false) :
    ops.foldl registryStep registry name =
      (registry name).or (ops.findSome? (RegistryOp.writes name)) := by
  have haccesses : ∀ access ∈ ops.map RegistryOp.access, access.loads = false := by
    intro access haccess
    obtain ⟨op, hop, rfl⟩ := List.mem_map.mp haccess
    have hload := hops op hop
    cases op with
    | wrapRegistryLoad file =>
        cases file with
        | none => rfl
        | some file => cases hload
    | _ => rfl
  have hstep : registryStep = fun registry op => accessed insertNew registry op.access := by
    funext registry op
    cases op with
    | wrapRegistryLoad file => cases file <;> rfl
    | _ => rfl
  have hwrites : RegistryOp.writes name = Access.writes name ∘ RegistryOp.access := by
    funext op
    cases op <;> rfl
  rw [hstep, ← List.foldl_map, hwrites, ← List.findSome?_map]
  exact stored_insertNew_eq_first haccesses

/-- After a settings file has been loaded, a name has the first number that the file sets it to,
and another name the first value that is written to it, as long as no other file is loaded. -/
theorem registryAfter_settingsFile (hnames : WritableNames settings) {ops : List RegistryOp}
    (hops : ∀ op ∈ ops, op.loads = false) (before : List RegistryOp) :
    registryAfter (before ++ .wrapRegistryLoad (some (settingsFile settings)) :: ops) name =
      (firstSetting settings name).or (ops.findSome? (RegistryOp.writes name)) := by
  have hloaded : loadedValues (settingsFile settings) = definedBy (settingsFile settings) := by
    rw [loadedValues, wrapRegistryLoad, loadLines_eq (Nat.zero_add _), List.drop_zero, definedBy]
  rw [registryAfter, List.foldl_append, List.foldl_cons]
  show ops.foldl registryStep (loadedValues (settingsFile settings)) name = _
  rw [foldl_registryStep_eq_first hops, hloaded, definedBy_settingsFile hnames]

/-- The numbers of a settings file stay, whatever is written later. -/
theorem registryAfter_profile :
    registryAfter ([.writeDword (text "Profile") 1] ++
      .wrapRegistryLoad (some (settingsFile [(text "Profile", 3), (text "VBRMin", 7),
        (text "Profile", 4)])) ::
      [.writeDword (text "Profile") 5, .writeDword (text "VBRMax") 6]) (text "Profile") =
        (firstSetting [(text "Profile", 3), (text "VBRMin", 7), (text "Profile", 4)]
          (text "Profile")).or
            ([.writeDword (text "Profile") 5, .writeDword (text "VBRMax") 6].findSome?
              (RegistryOp.writes (text "Profile"))) :=
  registryAfter_settingsFile (by decide) (by decide) _

end Settings

end HauppaugeUSB.Wrappers

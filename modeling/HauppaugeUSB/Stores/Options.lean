/-
# Options from several sources

A program describes its options, and sources give some of them: a command line, a
configuration file. An option may have a value for when it is not given, and one for
when it is given without a value. The values of an option have a type of their own, so
a source holds no value that its option could not have, and no option that its
description does not know: what is not of this form makes a parser throw.

A map of variables stores the sources one after the other. The first one that gives an
option decides its value, and a default stands back behind every source. A source whose
parser throws is not stored.
-/

import Mathlib.Data.Nat.Notation
import Mathlib.Tactic.TypeStar

namespace HauppaugeUSB.Stores

/-- How an option may be given. -/
structure OptionSpec (Value : Type*) where
  /-- The value if it is not given. -/
  default : Option Value
  /-- The value if it is given without one. -/
  implicit : Option Value

namespace OptionSpec

variable {Value : Type*}

/-- An option that is given with a value or not at all. -/
def plain : OptionSpec Value := ⟨none, none⟩

def defaultValue (value : Value) : OptionSpec Value := ⟨some value, none⟩

def implicitValue (value : Value) : OptionSpec Value := ⟨none, some value⟩

/-- An option that takes no value. -/
def flag : OptionSpec Unit := implicitValue ()

end OptionSpec

/-- The options that a source may give. -/
abbrev Description {Name : Type*} (Value : Name → Type*) := ∀ name, Option (OptionSpec (Value name))

/-- An option as it is written. -/
inductive Written (Value : Type*)
  | bare
  | valued (value : Value)

section Maps

variable {Name : Type*} {Value : Name → Type*}

/-- The options of two descriptions. -/
def Description.add (first second : Description Value) : Description Value :=
  fun name => (first name).or (second name)

/-- The default of an option. -/
def Description.default (description : Description Value) (name : Name) : Option (Value name) :=
  (description name).bind (·.default)

/-- The value of an option that is given without one. -/
def Description.implicit (description : Description Value) (name : Name) : Option (Value name) :=
  (description name).bind (·.implicit)

/-- What a parser makes of a source that it accepts. -/
structure Source (description : Description Value) where
  given : ∀ name, Option (Written (Value name))
  known : ∀ name, (given name).isSome → (description name).isSome
  complete : ∀ name, given name = some .bare → (description.implicit name).isSome

variable {description : Description Value}

/-- The value of an option that is given. -/
def Source.value (source : Source description) (name : Name) : Option (Value name) :=
  (source.given name).bind fun
    | .bare => description.implicit name
    | .valued value => some value

/-- A source that gives nothing. -/
def Source.nothing : Source description where
  given _ := none
  known _ hgiven := nomatch hgiven
  complete _ hgiven := nomatch hgiven

/-- A variable: its value, and whether that is a default. -/
structure Variable (Value : Type*) where
  value : Value
  defaulted : Bool

/-- Variables by the names of their options. -/
abbrev VariablesMap (Value : Name → Type*) := ∀ name, Option (Variable (Value name))

namespace VariablesMap

/-- A map before anything is stored. -/
def empty : VariablesMap Value := fun _ => none

/-- Whether there is a variable for the option. -/
def count (vm : VariablesMap Value) (name : Name) : ℕ := if (vm name).isSome then 1 else 0

/-- The value of the option's variable. -/
def value (vm : VariablesMap Value) (name : Name) : Option (Value name) := (vm name).map (·.value)

/-- The value that a source has given, if any has. -/
def explicit (vm : VariablesMap Value) (name : Name) : Option (Value name) :=
  (vm name).bind fun entry => if entry.defaulted then none else some entry.value

/-- Store a source. -/
def store (vm : VariablesMap Value) (source : Source description) : VariablesMap Value :=
  fun name =>
    match (vm.explicit name).or (source.value name) with
    | some value => some ⟨value, false⟩
    | none => (vm name).or ((description.default name).map fun value => ⟨value, true⟩)

/-- Store a source unless its parser has thrown. -/
def storeParsed (vm : VariablesMap Value) : Option (Source description) → VariablesMap Value
  | some source => vm.store source
  | none => vm

variable {vm : VariablesMap Value} {source : Source description} {name : Name}

@[simp]
theorem count_ne_zero_iff : vm.count name ≠ 0 ↔ (vm.value name).isSome := by
  cases hentry : vm name <;> simp [count, value, hentry]

@[simp]
theorem explicit_empty : (empty : VariablesMap Value).explicit name = none := rfl

theorem store_of_given {value : Value name}
    (hgiven : (vm.explicit name).or (source.value name) = some value) :
    vm.store source name = some ⟨value, false⟩ := by
  simp only [store, hgiven]

theorem store_of_not_given (hgiven : (vm.explicit name).or (source.value name) = none) :
    vm.store source name =
      (vm name).or ((description.default name).map fun value => ⟨value, true⟩) := by
  simp only [store, hgiven]

/-- The first source that gives an option decides. -/
theorem explicit_store :
    (vm.store source).explicit name = (vm.explicit name).or (source.value name) := by
  cases hgiven : (vm.explicit name).or (source.value name) with
  | some value => simp [explicit, store_of_given hgiven]
  | none =>
      have hexplicit := (Option.or_eq_none_iff.mp hgiven).1
      rw [explicit, store_of_not_given hgiven]
      cases hentry : vm name with
      | some entry => simpa [explicit, hentry] using hexplicit
      | none => cases hdefault : description.default name <;> simp

/-- An option with a default is there once its source is stored. -/
theorem isSome_value_store_of_default
    (hdefault : (description.default name).isSome) :
    ((vm.store source).value name).isSome := by
  rw [value, Option.isSome_map]
  cases hgiven : (vm.explicit name).or (source.value name) with
  | some value => simp [store_of_given hgiven]
  | none => simp [store_of_not_given hgiven, hdefault]

/-- A variable stays. -/
theorem isSome_value_store (hvalue : (vm.value name).isSome) :
    ((vm.store source).value name).isSome := by
  rw [value, Option.isSome_map] at hvalue ⊢
  cases hgiven : (vm.explicit name).or (source.value name) with
  | some value => simp [store_of_given hgiven]
  | none => simp [store_of_not_given hgiven, hvalue]

theorem isSome_value_storeParsed {parsed : Option (Source description)}
    (hvalue : (vm.value name).isSome) : ((vm.storeParsed parsed).value name).isSome := by
  cases parsed with
  | some source => exact isSome_value_store hvalue
  | none => exact hvalue

/-- Every variable of the option has been given. -/
def Plain (vm : VariablesMap Value) (name : Name) : Prop :=
  ∀ entry ∈ vm name, entry.defaulted = false

theorem plain_empty : (empty : VariablesMap Value).Plain name := fun _ hentry => nomatch hentry

theorem Plain.value_eq (hplain : vm.Plain name) : vm.value name = vm.explicit name := by
  cases hentry : vm name with
  | none => simp [value, explicit, hentry]
  | some entry => simp [value, explicit, hentry, hplain entry hentry]

/-- An option without a default is there only if it is given. -/
theorem Plain.store (hplain : vm.Plain name)
    (hdefault : description.default name = none) : (vm.store source).Plain name := by
  intro entry hentry
  cases hgiven : (vm.explicit name).or (source.value name) with
  | some value =>
      rw [store_of_given hgiven] at hentry
      cases hentry
      rfl
  | none =>
      rw [store_of_not_given hgiven, hdefault, Option.map_none, Option.or_none] at hentry
      exact hplain entry hentry

theorem Plain.storeParsed {parsed : Option (Source description)} (hplain : vm.Plain name)
    (hdefault : description.default name = none) :
    (vm.storeParsed parsed).Plain name := by
  cases parsed with
  | some source => exact hplain.store hdefault
  | none => exact hplain

theorem explicit_storeParsed {parsed : Option (Source description)} :
    (vm.storeParsed parsed).explicit name =
      (vm.explicit name).or (parsed.bind fun source => source.value name) := by
  cases parsed with
  | some source => exact explicit_store
  | none => simp [storeParsed]

/-- The value of an option after a source: one that has been given, or else a default, the
earlier one first. -/
theorem value_store :
    (vm.store source).value name =
      ((vm.explicit name).or (source.value name)).or
        ((vm.value name).or (description.default name)) := by
  cases hgiven : (vm.explicit name).or (source.value name) with
  | some given => simp [value, store_of_given hgiven]
  | none =>
      rw [value, store_of_not_given hgiven, Option.none_or]
      cases hentry : vm name with
      | some entry => simp [value, hentry]
      | none => cases hdefault : description.default name <;> simp [value, hentry]

end VariablesMap

end Maps

end HauppaugeUSB.Stores

/-
# Points of a list

A point of a list is one of its items together with the items before it. A search goes
through the points and stops at the first one it accepts, where what it accepts may
depend on the items before. Either it accepts none, or there is a first one.
-/

import Mathlib.Data.List.Forall2
import Mathlib.Data.List.Infix

namespace HauppaugeUSB.Streams

variable {Item : Type*} {P : List Item → Item → Prop} {items : List Item} {item : Item}

/-- What holds at every point of a longer list. -/
theorem forall_points_append_singleton :
    (∀ prior point, prior ++ [point] <+: items ++ [item] → P prior point) ↔
      (∀ prior point, prior ++ [point] <+: items → P prior point) ∧ P items item := by
  constructor
  · intro hall
    refine ⟨fun prior point hbegins => ?_, hall items item (List.prefix_refl _)⟩
    exact hall prior point (hbegins.trans (List.prefix_append _ _))
  · rintro ⟨hall, hlast⟩ prior point hbegins
    rcases List.prefix_concat_iff.mp hbegins with heq | hbegins
    · obtain ⟨rfl, hpoint⟩ := List.append_inj' heq rfl
      obtain rfl := List.singleton_inj.mp hpoint
      exact hlast
    · exact hall prior point hbegins

/-- No point of a list is accepted. -/
def NoneAccepted (P : List Item → Item → Prop) (items : List Item) : Prop :=
  ∀ prior point, prior ++ [point] <+: items → ¬ P prior point

/-- A point is the first one that is accepted. -/
structure FirstAccepted (P : List Item → Item → Prop) (items prior : List Item) (point : Item) :
    Prop where
  here : prior ++ [point] <+: items
  accepted : P prior point
  first : NoneAccepted P prior

theorem noneAccepted_append_singleton :
    NoneAccepted P (items ++ [item]) ↔ NoneAccepted P items ∧ ¬ P items item :=
  forall_points_append_singleton

/-- Either no point is accepted, or there is a first one. -/
theorem noneAccepted_or_exists_first (P : List Item → Item → Prop) (items : List Item) :
    NoneAccepted P items ∨ ∃ prior point, FirstAccepted P items prior point := by
  induction items using List.reverseRecOn with
  | nil => exact .inl fun prior point hbegins => by simp at hbegins
  | append_singleton items last ih =>
      rcases ih with hnone | ⟨prior, point, hhere, haccepted, hfirst⟩
      · by_cases hlast : P items last
        · exact .inr ⟨items, last, List.prefix_refl _, hlast, hnone⟩
        · exact .inl (noneAccepted_append_singleton.mpr ⟨hnone, hlast⟩)
      · exact .inr ⟨prior, point, hhere.trans (List.prefix_append _ _), haccepted, hfirst⟩

section Images

variable {Image : Type*} {R : Item → Image → Prop} {f : Item → Option Image}

/-- The items that have an image, and the images. -/
theorem forall₂_filter_filterMap (himage : ∀ item ∈ items, ∀ image, f item = some image →
    R item image) :
    List.Forall₂ R (items.filter fun item => (f item).isSome) (items.filterMap f) := by
  induction items with
  | nil => exact .nil
  | cons item rest ih =>
      have hrest := ih fun other hother => himage other (List.mem_cons_of_mem _ hother)
      cases hitem : f item with
      | none => simpa [hitem] using hrest
      | some image => simpa [hitem] using ⟨himage item List.mem_cons_self image hitem, hrest⟩

/-- Items that correspond to the images are those that have one, if each of them has. -/
theorem eq_filter_of_forall₂ {chosen : List Item} (hchosen : chosen.Sublist items)
    (hrel : List.Forall₂ R chosen (items.filterMap f))
    (hsome : ∀ item image, R item image → (f item).isSome = true) :
    chosen = items.filter fun item => (f item).isSome := by
  have hall : ∀ item ∈ chosen, (f item).isSome = true :=
    ((List.forall₂_and_left _ _).mp
      (hrel.imp fun item image hrelated => ⟨hsome item image hrelated, hrelated⟩)).1
  have hkept := List.filter_eq_self.mpr hall
  have hsublist := hchosen.filter fun item => (f item).isSome
  rw [hkept] at hsublist
  refine hsublist.eq_of_length ?_
  rw [hrel.length_eq, List.length_filterMap_eq_countP, List.countP_eq_length_filter]

end Images

end HauppaugeUSB.Streams

/-
# Numbered tokens

Tokens are issued one after another, each to a holder, who may put it down later. A token
that has been put down rests, and is not taken up again. At any time a token that has been
issued either rests or has one holder; where nobody holds one, all of them rest.
-/

import Mathlib.Data.List.Nodup
import Mathlib.Data.List.Range
import Mathlib.Data.Nat.Notation
import Mathlib.Logic.Function.Basic

namespace HauppaugeUSB.Concurrency

/-- Of the tokens issued so far, each rests or has one holder. -/
structure Placed {Holder : Type*} (issued : ℕ) (held : Holder → Option ℕ) (resting : List ℕ) :
    Prop where
  once : resting.Nodup
  older : ∀ token ∈ resting, token < issued
  heldOlder : ∀ holder token, held holder = some token → token < issued
  apart : ∀ holder token, held holder = some token → token ∉ resting
  unique : ∀ holder other token, held holder = some token → held other = some token →
    holder = other
  total : ∀ token < issued, token ∈ resting ∨ ∃ holder, held holder = some token

namespace Placed

variable {Holder : Type*} {issued token : ℕ} {held : Holder → Option ℕ} {resting later : List ℕ}
  {holder : Holder}

theorem start (hheld : ∀ holder, held holder = none) : Placed 0 held [] where
  once := List.nodup_nil
  older _ hrests := by cases hrests
  heldOlder holder token hholds := by simp [hheld holder] at hholds
  apart _ _ _ := List.not_mem_nil
  unique holder _ token hholds := by simp [hheld holder] at hholds
  total _ hlt := by cases hlt

/-- The order in which tokens rest does not matter. -/
theorem perm (hplaced : Placed issued held resting) (hperm : resting.Perm later) :
    Placed issued held later where
  once := hperm.nodup_iff.mp hplaced.once
  older token hrests := hplaced.older token (hperm.mem_iff.mpr hrests)
  heldOlder := hplaced.heldOlder
  apart holder token hholds hrests := hplaced.apart holder token hholds (hperm.mem_iff.mpr hrests)
  unique := hplaced.unique
  total token hlt := (hplaced.total token hlt).imp_left hperm.mem_iff.mp

/-- Where nobody holds a token, all of them rest. -/
theorem range_perm (hplaced : Placed issued held resting) (hheld : ∀ holder, held holder = none) :
    (List.range issued).Perm resting := by
  refine (List.perm_ext_iff_of_nodup List.nodup_range hplaced.once).mpr fun token => ?_
  rw [List.mem_range]
  refine ⟨fun hlt => ?_, hplaced.older token⟩
  rcases hplaced.total token hlt with hrests | ⟨holder, hholds⟩
  · exact hrests
  · simp [hheld holder] at hholds

/-- Holders with empty hands may be left out. -/
theorem among {Other : Type*} {who : Other → Holder} (hplaced : Placed issued held resting)
    (hwho : Function.Injective who)
    (hothers : ∀ holder token, held holder = some token → ∃ other, who other = holder) :
    Placed issued (fun other => held (who other)) resting where
  once := hplaced.once
  older := hplaced.older
  heldOlder other := hplaced.heldOlder (who other)
  apart other := hplaced.apart (who other)
  unique first second token hfirst hsecond :=
    hwho (hplaced.unique (who first) (who second) token hfirst hsecond)
  total token hlt := by
    rcases hplaced.total token hlt with hrests | ⟨holder, hholds⟩
    · exact .inl hrests
    · obtain ⟨other, rfl⟩ := hothers holder token hholds
      exact .inr ⟨other, hholds⟩

variable [DecidableEq Holder]

/-- A token is issued. -/
theorem issue (hplaced : Placed issued held resting) (hfree : held holder = none) :
    Placed (issued + 1) (Function.update held holder (some issued)) resting where
  once := hplaced.once
  older token hrests := Nat.lt_succ_of_lt (hplaced.older token hrests)
  heldOlder other token hholds := by
    by_cases hother : other = holder
    · subst hother
      rw [Function.update_self, Option.some.injEq] at hholds
      omega
    · rw [Function.update_of_ne hother] at hholds
      exact Nat.lt_succ_of_lt (hplaced.heldOlder other token hholds)
  apart other token hholds hrests := by
    by_cases hother : other = holder
    · subst hother
      rw [Function.update_self, Option.some.injEq] at hholds
      have hlt := hplaced.older token hrests
      omega
    · rw [Function.update_of_ne hother] at hholds
      exact hplaced.apart other token hholds hrests
  unique first second token hfirst hsecond := by
    by_cases heq : first = holder <;> by_cases heq' : second = holder
    · exact heq.trans heq'.symm
    · subst heq
      rw [Function.update_self, Option.some.injEq] at hfirst
      rw [Function.update_of_ne heq'] at hsecond
      have hlt := hplaced.heldOlder second token hsecond
      omega
    · subst heq'
      rw [Function.update_self, Option.some.injEq] at hsecond
      rw [Function.update_of_ne heq] at hfirst
      have hlt := hplaced.heldOlder first token hfirst
      omega
    · rw [Function.update_of_ne heq] at hfirst
      rw [Function.update_of_ne heq'] at hsecond
      exact hplaced.unique first second token hfirst hsecond
  total token hlt := by
    by_cases hnew : token = issued
    · exact .inr ⟨holder, by rw [Function.update_self, hnew]⟩
    · rcases hplaced.total token (by omega) with hrests | ⟨other, hholds⟩
      · exact .inl hrests
      · have hother : other ≠ holder := by
          rintro rfl
          simp [hfree] at hholds
        exact .inr ⟨other, by rw [Function.update_of_ne hother, hholds]⟩

/-- A token is put down. -/
theorem putDown (hplaced : Placed issued held resting) (hholds : held holder = some token) :
    Placed issued (Function.update held holder none) (resting ++ [token]) := by
  have hkept (other : Holder) (token' : ℕ)
      (hheld : Function.update held holder none other = some token') :
      other ≠ holder ∧ held other = some token' := by
    by_cases hother : other = holder
    · simp [hother] at hheld
    · exact ⟨hother, by rwa [Function.update_of_ne hother] at hheld⟩
  refine ⟨?_, ?_, ?_, ?_, ?_, ?_⟩
  · rw [← List.concat_eq_append]
    exact hplaced.once.concat (hplaced.apart holder token hholds)
  · intro other hrests
    rcases List.mem_append.mp hrests with hbefore | hlast
    · exact hplaced.older other hbefore
    · exact List.mem_singleton.mp hlast ▸ hplaced.heldOlder holder token hholds
  · exact fun other token' hheld => hplaced.heldOlder other token' (hkept other token' hheld).2
  · intro other token' hheld hrests
    obtain ⟨hother, hbefore⟩ := hkept other token' hheld
    rcases List.mem_append.mp hrests with hrested | hlast
    · exact hplaced.apart other token' hbefore hrested
    · obtain rfl := List.mem_singleton.mp hlast
      exact hother (hplaced.unique other holder token' hbefore hholds)
  · intro first second token' hfirst hsecond
    exact hplaced.unique first second token' (hkept _ _ hfirst).2 (hkept _ _ hsecond).2
  · intro token' hlt
    rcases hplaced.total token' hlt with hrests | ⟨other, hheld⟩
    · exact .inl (List.mem_append_left _ hrests)
    · by_cases hother : other = holder
      · subst hother
        rw [hholds, Option.some.injEq] at hheld
        exact .inl (by simp [hheld])
      · exact .inr ⟨other, by rw [Function.update_of_ne hother, hheld]⟩

/-- A token is passed on. -/
theorem pass {other : Holder} (hplaced : Placed issued held resting)
    (hholds : held holder = some token) (hfree : held other = none) :
    Placed issued (Function.update (Function.update held holder none) other (some token))
      resting := by
  have hdistinct : other ≠ holder := by
    rintro rfl
    simp [hfree] at hholds
  have hkept (third : Holder) (token' : ℕ)
      (hheld : Function.update (Function.update held holder none) other (some token) third =
        some token') :
      third = other ∧ token' = token ∨ third ≠ holder ∧ held third = some token' := by
    by_cases hother : third = other
    · subst hother
      rw [Function.update_self, Option.some.injEq] at hheld
      exact .inl ⟨rfl, hheld.symm⟩
    · rw [Function.update_of_ne hother] at hheld
      by_cases hholder : third = holder
      · simp [hholder] at hheld
      · exact .inr ⟨hholder, by rwa [Function.update_of_ne hholder] at hheld⟩
  refine ⟨hplaced.once, hplaced.older, ?_, ?_, ?_, ?_⟩
  · intro third token' hheld
    rcases hkept third token' hheld with ⟨-, rfl⟩ | ⟨-, hbefore⟩
    · exact hplaced.heldOlder holder token' hholds
    · exact hplaced.heldOlder third token' hbefore
  · intro third token' hheld
    rcases hkept third token' hheld with ⟨-, rfl⟩ | ⟨-, hbefore⟩
    · exact hplaced.apart holder token' hholds
    · exact hplaced.apart third token' hbefore
  · intro first second token' hfirst hsecond
    rcases hkept first token' hfirst with ⟨hfirst', rfl⟩ | ⟨hne, hbefore⟩ <;>
      rcases hkept second token' hsecond with ⟨hsecond', hsame⟩ | ⟨hne', hbefore'⟩
    · exact hfirst'.trans hsecond'.symm
    · exact absurd (hplaced.unique second holder _ hbefore' hholds) hne'
    · exact absurd (hplaced.unique first holder _ hbefore (hsame ▸ hholds)) hne
    · exact hplaced.unique first second token' hbefore hbefore'
  · intro token' hlt
    rcases hplaced.total token' hlt with hrests | ⟨third, hheld⟩
    · exact .inl hrests
    · by_cases hholder : third = holder
      · subst hholder
        rw [hholds, Option.some.injEq] at hheld
        exact .inr ⟨other, by rw [Function.update_self, hheld]⟩
      · have hother : third ≠ other := by
          rintro rfl
          simp [hfree] at hheld
        exact .inr ⟨third, by
          rw [Function.update_of_ne hother, Function.update_of_ne hholder, hheld]⟩

end Placed

end HauppaugeUSB.Concurrency

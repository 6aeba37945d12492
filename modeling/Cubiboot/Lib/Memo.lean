import Mathlib.Logic.Function.Basic

/-
  A table of places that each remember one value under one key, read by key.

  `holds i = some k` says that place `i` may be read for key `k`, `content i` is
  what stands there, and `latest k` the value last given under `k`. The table
  is `Faithful` if no key is held twice and what is held is the latest. Three
  rules cover a table that replaces places as it goes:

    1. `Faithful.drop` — a place may always be given up.
    2. `Faithful.overwrite` — a place that holds nothing may be written.
    3. `Faithful.fill` — a place written for a key nobody holds may be opened
       for that key.
-/

set_option autoImplicit false

namespace Memo

variable {ι κ β : Type*}

structure Faithful (holds : ι → Option κ) (content : ι → β) (latest : κ → Option β) : Prop where
  unique : ∀ {i j k}, holds i = some k → holds j = some k → i = j
  latest : ∀ {i k}, holds i = some k → latest k = some (content i)

variable [DecidableEq ι] {holds : ι → Option κ} {content : ι → β} {latest : κ → Option β}

theorem Faithful.drop (h : Faithful holds content latest) (i : ι) :
    Faithful (Function.update holds i none) content latest := by
  have hback : ∀ {j k}, Function.update holds i none j = some k → holds j = some k := by
    intro j k hj
    by_cases hji : j = i
    · rw [hji, Function.update_self] at hj
      cases hj
    · rwa [Function.update_of_ne hji] at hj
  exact ⟨fun hi hj => h.unique (hback hi) (hback hj), fun hi => h.latest (hback hi)⟩

omit [DecidableEq ι] in
theorem Faithful.overwrite (h : Faithful holds content latest) {i : ι} (hi : holds i = none)
    {content' : ι → β} (hother : ∀ j, j ≠ i → content' j = content j) :
    Faithful holds content' latest := by
  refine ⟨h.unique, fun {j k} hj => ?_⟩
  have hne : j ≠ i := by
    intro he
    rw [he, hi] at hj
    cases hj
  rw [hother j hne]
  exact h.latest hj

theorem Faithful.fill [DecidableEq κ] (h : Faithful holds content latest) {k : κ}
    (hk : ∀ j, holds j ≠ some k) (i : ι) :
    Faithful (Function.update holds i (some k)) content (Function.update latest k (some (content i))) := by
  constructor
  · intro j j' m hj hj'
    by_cases hji : j = i <;> by_cases hji' : j' = i
    · rw [hji, hji']
    · rw [hji, Function.update_self] at hj
      rw [Function.update_of_ne hji', ← hj] at hj'
      exact absurd hj' (hk j')
    · rw [hji', Function.update_self] at hj'
      rw [Function.update_of_ne hji, ← hj'] at hj
      exact absurd hj (hk j)
    · rw [Function.update_of_ne hji] at hj
      rw [Function.update_of_ne hji'] at hj'
      exact h.unique hj hj'
  · intro j m hj
    by_cases hji : j = i
    · rw [hji, Function.update_self] at hj
      cases hj
      rw [hji, Function.update_self]
    · rw [Function.update_of_ne hji] at hj
      have hne : m ≠ k := fun he => hk j (he ▸ hj)
      rw [Function.update_of_ne hne]
      exact h.latest hj

end Memo

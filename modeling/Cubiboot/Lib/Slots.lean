import Mathlib.Logic.Function.Basic
import Mathlib.Data.List.Basic
import Mathlib.Data.Bool.Count
import Mathlib.Data.List.Perm.Subperm
import Mathlib.Data.List.Nodup

/-
  A fixed row of slots, each in use or free, and who owns them.

  `takeFirst` claims the first free slot, `release` gives one back. `Owns` says
  that a family of owners holds slots in use, no two the same. The rules: a
  slot can be taken exactly when one is free (`takeFirst_isSome`), taking and
  releasing keep ownership (`owns_take`, `owns_release`), and how each moves
  the count of free slots. `Covers` says the converse, that every slot in use has
  an owner; then there are no more slots in use than owners (`usedCount_le`).
-/

set_option autoImplicit false

namespace Slots

variable {ι : Type*}

/-- `true` is in use. The first free slot is taken. -/
def takeFirst : List Bool → Option (Nat × List Bool)
  | [] => none
  | false :: s => some (0, true :: s)
  | true :: s => (takeFirst s).map fun (i, s') => (i + 1, true :: s')

def release (s : List Bool) (i : Nat) : List Bool := s.set i false

def freeCount (s : List Bool) : Nat := s.count false

def usedCount (s : List Bool) : Nat := s.count true

theorem takeFirst_isSome (s : List Bool) : (takeFirst s).isSome = true ↔ 0 < freeCount s := by
  induction s with
  | nil => simp [takeFirst, freeCount]
  | cons b s ih =>
    cases b with
    | false => simp [takeFirst, freeCount]
    | true => simpa [takeFirst, freeCount] using ih

/-- The slot taken was free, and is the one slot that changes. -/
theorem takeFirst_spec {s s' : List Bool} {i : Nat} (h : takeFirst s = some (i, s')) :
    s[i]? = some false ∧ s' = s.set i true := by
  induction s generalizing i s' with
  | nil => simp [takeFirst] at h
  | cons b s ih =>
    cases b with
    | false =>
      obtain ⟨rfl, rfl⟩ : 0 = i ∧ true :: s = s' := by simpa [takeFirst] using h
      exact ⟨rfl, rfl⟩
    | true =>
      simp only [takeFirst, Option.map_eq_some_iff, Prod.exists, Prod.mk.injEq] at h
      obtain ⟨j, t, ht, rfl, rfl⟩ := h
      obtain ⟨h1, rfl⟩ := ih ht
      exact ⟨by simpa using h1, by simp⟩

theorem freeCount_take {s s' : List Bool} {i : Nat} (h : takeFirst s = some (i, s')) :
    freeCount s' + 1 = freeCount s := by
  induction s generalizing i s' with
  | nil => simp [takeFirst] at h
  | cons b s ih =>
    cases b with
    | false =>
      obtain ⟨rfl, rfl⟩ : 0 = i ∧ true :: s = s' := by simpa [takeFirst] using h
      simp [freeCount]
    | true =>
      simp only [takeFirst, Option.map_eq_some_iff, Prod.exists, Prod.mk.injEq] at h
      obtain ⟨j, t, ht, rfl, rfl⟩ := h
      simpa [freeCount] using ih ht

/-- Fewer in use than slots: one is free. -/
theorem freeCount_pos {s : List Bool} (h : usedCount s < s.length) : 0 < freeCount s := by
  have hsum := List.count_not_add_count s true
  simp only [Bool.not_true] at hsum
  rw [usedCount] at h
  rw [freeCount]
  omega

theorem length_take {s s' : List Bool} {i : Nat} (h : takeFirst s = some (i, s')) : s'.length = s.length := by
  rw [(takeFirst_spec h).2, List.length_set]

/-! ## Owners -/

/-- Every owner's slot is in use, and no two own the same. -/
structure Owns (s : List Bool) (own : ι → Option Nat) : Prop where
  used : ∀ {i k}, own i = some k → s[k]? = some true
  inj : ∀ {i j k}, own i = some k → own j = some k → i = j

variable [DecidableEq ι] {s s' : List Bool} {own : ι → Option Nat}

/-- An owner without a slot takes one. -/
theorem owns_take (h : Owns s own) {i : ι} {k : Nat} (ht : takeFirst s = some (k, s')) :
    Owns s' (Function.update own i (some k)) := by
  obtain ⟨hfree, rfl⟩ := takeFirst_spec ht
  -- the slot taken belonged to nobody
  have hnot : ∀ j, own j ≠ some k := by
    intro j hj
    have := h.used hj
    rw [hfree] at this
    cases this
  have hk : k < s.length := (List.getElem?_eq_some_iff.mp hfree).1
  constructor
  · intro j m hj
    by_cases hji : j = i
    · rw [hji, Function.update_self] at hj
      cases hj
      simp [hk]
    · rw [Function.update_of_ne hji] at hj
      have hne : k ≠ m := fun he => hnot j (he ▸ hj)
      rw [List.getElem?_set_ne hne]
      exact h.used hj
  · intro j j' m hj hj'
    by_cases hji : j = i <;> by_cases hji' : j' = i
    · rw [hji, hji']
    · rw [hji, Function.update_self] at hj
      rw [Function.update_of_ne hji', ← hj] at hj'
      exact absurd hj' (hnot j')
    · rw [hji', Function.update_self] at hj'
      rw [Function.update_of_ne hji, ← hj'] at hj
      exact absurd hj (hnot j)
    · rw [Function.update_of_ne hji] at hj
      rw [Function.update_of_ne hji'] at hj'
      exact h.inj hj hj'

/-- An owner gives its slot back. -/
theorem owns_release (h : Owns s own) {i : ι} {k : Nat} (hi : own i = some k) :
    Owns (release s k) (Function.update own i none) := by
  constructor
  · intro j m hj
    by_cases hji : j = i
    · rw [hji, Function.update_self] at hj
      cases hj
    · rw [Function.update_of_ne hji] at hj
      have hne : k ≠ m := fun he => hji (h.inj hj (he ▸ hi))
      rw [release, List.getElem?_set_ne hne]
      exact h.used hj
  · intro j j' m hj hj'
    by_cases hji : j = i
    · rw [hji, Function.update_self] at hj
      cases hj
    · by_cases hji' : j' = i
      · rw [hji', Function.update_self] at hj'
        cases hj'
      · rw [Function.update_of_ne hji] at hj
        rw [Function.update_of_ne hji'] at hj'
        exact h.inj hj hj'

/-! ## Nothing in use without an owner -/

def Covers (s : List Bool) (own : ι → Option Nat) : Prop := ∀ k, s[k]? = some true → ∃ i, own i = some k

/-- An owner that had nothing takes a slot: no slot loses its owner. -/
theorem covers_take (h : Covers s own) {i : ι} (hi : own i = none) {k : Nat}
    (ht : takeFirst s = some (k, s')) : Covers s' (Function.update own i (some k)) := by
  obtain ⟨-, rfl⟩ := takeFirst_spec ht
  intro m hm
  by_cases hmk : k = m
  · exact ⟨i, by rw [hmk, Function.update_self]⟩
  · rw [List.getElem?_set_ne hmk] at hm
    obtain ⟨j, hj⟩ := h m hm
    have hji : j ≠ i := by
      rintro rfl
      rw [hi] at hj
      cases hj
    exact ⟨j, by rw [Function.update_of_ne hji, hj]⟩

theorem covers_release (h : Covers s own) {i : ι} {k : Nat} (hi : own i = some k) :
    Covers (release s k) (Function.update own i none) := by
  intro m hm
  have hmk : k ≠ m := by
    rintro rfl
    rw [release, List.getElem?_set_self'] at hm
    cases hs : s[k]? with
    | none => rw [hs] at hm; cases hm
    | some b => rw [hs] at hm; cases hm
  rw [release, List.getElem?_set_ne hmk] at hm
  obtain ⟨j, hj⟩ := h m hm
  have hji : j ≠ i := by
    rintro rfl
    rw [hi] at hj
    exact hmk (Option.some.inj hj)
  exact ⟨j, by rw [Function.update_of_ne hji, hj]⟩

omit [DecidableEq ι] in
/-- With all owners among `is`, at most so many slots are in use. -/
theorem usedCount_le (h : Covers s own) {is : List ι} (hall : ∀ i k, own i = some k → i ∈ is) :
    usedCount s ≤ is.length := by
  have hcount : ∀ s : List Bool, usedCount s =
      ((List.range s.length).filter fun k => s[k]? = some true).length := by
    intro s
    induction s with
    | nil => rfl
    | cons b s ih =>
      rw [List.length_cons, List.range_succ_eq_map, List.filter_cons, List.filter_map]
      rw [usedCount] at ih ⊢
      cases b <;> simpa [Function.comp_def] using ih
  calc usedCount s
      = ((List.range s.length).filter fun k => s[k]? = some true).length := hcount s
    _ ≤ (is.filterMap own).length := by
        apply List.Subperm.length_le
        apply List.subperm_of_subset (List.nodup_range.filter _)
        intro k hk
        have hused : s[k]? = some true := by simpa using (List.mem_filter.mp hk).2
        obtain ⟨i, hi⟩ := h k hused
        exact List.mem_filterMap.mpr ⟨i, hall i k hi, hi⟩
    _ ≤ is.length := List.length_filterMap_le own is

omit [DecidableEq ι] in
theorem covers_congr {own' : ι → Option Nat} (h : Covers s own) (he : ∀ i, own' i = own i) :
    Covers s own' := by
  obtain rfl : own' = own := funext he
  exact h

omit [DecidableEq ι] in
theorem owns_congr {own' : ι → Option Nat} (h : Owns s own) (he : ∀ i, own' i = own i) : Owns s own' := by
  obtain rfl : own' = own := funext he
  exact h

end Slots

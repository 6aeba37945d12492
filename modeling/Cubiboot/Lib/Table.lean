import Mathlib.Data.List.Basic
import Mathlib.Tactic.Common

/-
  Looking something up in a table that may end too early.

  `compare f xs s` compares a string with what a table holds from some place on, item by
  item and by what `f` makes of them, and stops at the first difference. `search test n i`
  looks at `n` places from `i` on and stops at the first hit. Both are nothing where they
  would look past the end: `compare` of the table, `search` where `test` is nothing.

  The rules: when a comparison says yes (`compare_eq_true`) and when it runs off the end
  (`compare_eq_none`); when a search does (`search_isSome`), and what it finds if it does not
  (`search_eq_hit`, `search_eq_miss`). `looks` counts the places a search looks at.
-/

set_option autoImplicit false

namespace Table

/-! ## Strings -/

section
variable {α β : Type*} [DecidableEq β] (f : α → β)

def compare : List α → List α → Option Bool
  | _, [] => some true
  | [], _ :: _ => none
  | x :: xs, c :: s => if f x = f c then compare xs s else some false

variable {f}

theorem compare_eq_true (xs s : List α) :
    compare f xs s = some true ↔ s.length ≤ xs.length ∧ (xs.take s.length).map f = s.map f := by
  induction s generalizing xs with
  | nil => simp [compare]
  | cons c s ih =>
    cases xs with
    | nil => simp [compare]
    | cons x xs =>
      rw [compare]
      split
      · rename_i hx
        simp [ih, hx]
      · rename_i hx
        simp [hx]

/-- The table ends, and up to there it is what the string begins with. -/
theorem compare_eq_none (xs s : List α) :
    compare f xs s = none ↔ xs.length < s.length ∧ xs.map f <+: s.map f := by
  induction s generalizing xs with
  | nil => simp [compare]
  | cons c s ih =>
    cases xs with
    | nil => simp [compare]
    | cons x xs =>
      rw [compare]
      split
      · rename_i hx
        simp [ih, hx, List.cons_prefix_cons]
      · rename_i hx
        simp [hx, List.cons_prefix_cons]

end

/-! ## Places -/

section
variable {ρ : Type*} (test : Nat → Option (Option ρ))

/-- `test k` is what is found at place `k`, if anything, and nothing if it cannot be looked at. -/
def search : Nat → Nat → Option (Option ρ)
  | 0, _ => some none
  | n + 1, i =>
    match test i with
    | none => none
    | some (some r) => some (some r)
    | some none => search n (i + 1)

def looks : Nat → Nat → Nat
  | 0, _ => 0
  | n + 1, i =>
    match test i with
    | some none => looks n (i + 1) + 1
    | _ => 1

/-- Nothing is found before place `k`. -/
def MissesTo (i k : Nat) : Prop := ∀ j, i ≤ j → j < k → test j = some none

variable {test} {n i k : Nat} {r : ρ}

theorem missesTo_self : MissesTo test i i := fun _ h h' => absurd h (Nat.not_le_of_lt h')

theorem missesTo_cons (h : test i = some none) : MissesTo test i k ↔ MissesTo test (i + 1) k := by
  constructor
  · exact fun hm j hj hk => hm j (Nat.le_of_succ_le hj) hk
  · intro hm j hj hk
    obtain rfl | hlt := Nat.eq_or_lt_of_le hj
    · exact h
    · exact hm j hlt hk

theorem MissesTo.first (h : MissesTo test i k) (hne : test i ≠ some none) : k ≤ i :=
  Nat.le_of_not_lt fun hlt => hne (h i (Nat.le_refl i) hlt)

theorem search_eq_hit : search test n i = some (some r) ↔
    ∃ k, i ≤ k ∧ k < i + n ∧ MissesTo test i k ∧ test k = some (some r) := by
  induction n generalizing i with
  | zero =>
    simp only [search, Option.some.injEq, reduceCtorEq, false_iff, not_exists]
    omega
  | succ n ih =>
    rw [search]
    cases ht : test i with
    | none =>
      constructor
      · exact fun h => by cases h
      · intro ⟨k, hik, _, hm, hk⟩
        have hki := hm.first (by rw [ht]; exact fun h => by cases h)
        rw [Nat.le_antisymm hki hik, ht] at hk
        cases hk
    | some found =>
      cases found with
      | some r' =>
        constructor
        · intro h
          exact ⟨i, Nat.le_refl i, by omega, missesTo_self, ht.trans h⟩
        · intro ⟨k, hik, _, hm, hk⟩
          have hki := hm.first (by rw [ht]; exact fun h => by cases h)
          rw [Nat.le_antisymm hki hik, ht] at hk
          exact hk
      | none =>
        simp only [ih]
        constructor
        · intro ⟨k, hik, hlt, hm, hk⟩
          exact ⟨k, by omega, by omega, (missesTo_cons ht).mpr hm, hk⟩
        · intro ⟨k, hik, hlt, hm, hk⟩
          have hne : k ≠ i := fun heq => by
            rw [heq, ht] at hk
            cases hk
          exact ⟨k, by omega, by omega, (missesTo_cons ht).mp hm, hk⟩

theorem search_eq_miss : search test n i = some none ↔ MissesTo test i (i + n) := by
  induction n generalizing i with
  | zero => exact iff_of_true rfl missesTo_self
  | succ n ih =>
    rw [search]
    cases ht : test i with
    | none =>
      refine iff_of_false (fun h => by cases h) fun hm => ?_
      have hki := hm.first (by rw [ht]; exact fun h => by cases h)
      omega
    | some found =>
      cases found with
      | some r =>
        refine iff_of_false (fun h => by cases h) fun hm => ?_
        have hki := hm.first (by rw [ht]; exact fun h => by cases h)
        omega
      | none => rw [ih, missesTo_cons ht, Nat.add_assoc, Nat.add_comm 1]

/-- A search comes to its end exactly if every place it comes to can be looked at. -/
theorem search_isSome : (search test n i).isSome = true ↔
    ∀ k, i ≤ k → k < i + n → MissesTo test i k → (test k).isSome = true := by
  induction n generalizing i with
  | zero => exact iff_of_true rfl fun k hik hlt => by omega
  | succ n ih =>
    rw [search]
    cases ht : test i with
    | none =>
      refine iff_of_false (fun h => by cases h) fun hall => ?_
      have hi := hall i (Nat.le_refl i) (by omega) missesTo_self
      rw [ht] at hi
      cases hi
    | some found =>
      cases found with
      | some r =>
        refine iff_of_true rfl fun k hik _ hm => ?_
        have hki := hm.first (by rw [ht]; exact fun h => by cases h)
        rw [Nat.le_antisymm hki hik, ht]
        rfl
      | none =>
        simp only [ih]
        constructor
        · intro hall k hik hlt hm
          obtain rfl | hlt' := Nat.eq_or_lt_of_le hik
          · rw [ht]
            rfl
          · exact hall k hlt' (by omega) ((missesTo_cons ht).mp hm)
        · exact fun hall k hik hlt hm => hall k (by omega) (by omega) ((missesTo_cons ht).mpr hm)

/-- Every place looked at but the last is a miss. -/
theorem looks_misses (h : k < i + looks test n i) (hk : i ≤ k) : MissesTo test i k := by
  induction n generalizing i with
  | zero => simp only [looks] at h; omega
  | succ n ih =>
    simp only [looks] at h
    split at h
    · rename_i ht
      obtain rfl | hlt := Nat.eq_or_lt_of_le hk
      · exact missesTo_self
      · exact (missesTo_cons ht).mpr (ih (by omega) hlt)
    · obtain rfl : k = i := by omega
      exact missesTo_self

theorem looks_le : looks test n i ≤ n := by
  induction n generalizing i with
  | zero => exact Nat.le_refl 0
  | succ n ih =>
    rw [looks]
    split
    · exact Nat.succ_le_succ ih
    · omega

end

end Table

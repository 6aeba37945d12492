import Mathlib.Data.List.TakeWhile
import Mathlib.Tactic.Common

/-
  Cutting lists: at the first or the last of a separator, and a tail that a test recognises.

  `trim P k l` is `l` without its last `k` elements where `P l`, a test that only lists longer
  than `k` pass.

  What is proved:
    1. `takeWhile_first`, `dropWhile_first` — a list searched for a separator that is there.
    2. `exists_last`, `takeWhile_last`, `dropWhile_last` — the same from its end.
    3. `trim_take_iff` — when shortening to `n` may come before trimming.
-/

set_option autoImplicit false

namespace Trim

variable {α : Type*}

/-! ## At a separator -/

theorem reverse_at (a b : List α) (c : α) : (a ++ c :: b).reverse = b.reverse ++ c :: a.reverse := by
  simp

theorem exists_last {c : α} {l : List α} (h : c ∈ l) : ∃ a b, l = a ++ c :: b ∧ c ∉ b := by
  obtain ⟨as, bs, hrev, has⟩ := List.eq_append_cons_of_mem (List.mem_reverse.mpr h)
  refine ⟨bs.reverse, as.reverse, ?_, fun hmem => has (List.mem_reverse.mp hmem)⟩
  calc l = l.reverse.reverse := (List.reverse_reverse l).symm
    _ = (as ++ c :: bs).reverse := by rw [hrev]
    _ = bs.reverse ++ c :: as.reverse := reverse_at as bs c

section
variable [DecidableEq α] {c : α} {a b : List α}

theorem ne_of_not_mem (h : c ∉ a) : ∀ x ∈ a, decide (x ≠ c) = true := by
  intro x hx
  apply decide_eq_true
  intro heq
  exact h (heq ▸ hx)

theorem takeWhile_none (h : c ∉ a) : a.takeWhile (· ≠ c) = a := List.takeWhile_eq_self_iff.mpr (ne_of_not_mem h)

theorem takeWhile_first (ha : c ∉ a) (b : List α) : (a ++ c :: b).takeWhile (· ≠ c) = a := by
  rw [List.takeWhile_append_of_pos (ne_of_not_mem ha), List.takeWhile_cons_of_neg (by simp), List.append_nil]

theorem dropWhile_first (ha : c ∉ a) (b : List α) : (a ++ c :: b).dropWhile (· ≠ c) = c :: b := by
  rw [List.dropWhile_append_of_pos (ne_of_not_mem ha), List.dropWhile_cons_of_neg (by simp)]

theorem takeWhile_last (a : List α) (hb : c ∉ b) : (a ++ c :: b).reverse.takeWhile (· ≠ c) = b.reverse := by
  rw [reverse_at]
  exact takeWhile_first (fun h => hb (List.mem_reverse.mp h)) a.reverse

theorem dropWhile_last (a : List α) (hb : c ∉ b) :
    (a ++ c :: b).reverse.dropWhile (· ≠ c) = c :: a.reverse := by
  rw [reverse_at]
  exact dropWhile_first (fun h => hb (List.mem_reverse.mp h)) a.reverse

end

/-! ## A tail that is recognised -/

section
variable (P : List α → Bool) (k : Nat)

def trim (l : List α) : List α := if P l then l.take (l.length - k) else l

variable {P k}

theorem trim_of_pos {l : List α} (h : P l = true) : trim P k l = l.take (l.length - k) := if_pos h

theorem trim_of_neg {l : List α} (h : ¬ P l = true) : trim P k l = l := if_neg h

/-- Shortened first, a list is trimmed the same if it is not shortened at all, or if what is
    left of it is not trimmed and what would be is gone already. -/
theorem trim_take_iff (hk : 0 < k) (hP : ∀ l, P l = true → k < l.length) (n : Nat) (l : List α) :
    trim P k (l.take n) = (trim P k l).take n ↔
      l.length ≤ n ∨ (¬ P (l.take n) = true ∧ (P l = true → n + k ≤ l.length)) := by
  by_cases hshort : l.length ≤ n
  · have hle : (trim P k l).length ≤ n := by
      by_cases hl : P l = true
      · rw [trim_of_pos hl, List.length_take]
        omega
      · rw [trim_of_neg hl]
        exact hshort
    rw [List.take_of_length_le hshort, List.take_of_length_le hle]
    exact iff_of_true rfl (Or.inl hshort)
  · have hlen : (l.take n).length = n := by
      rw [List.length_take]
      omega
    rw [or_iff_right hshort]
    by_cases hcut : P (l.take n) = true
    · refine iff_of_false (fun heq => ?_) fun h => h.1 hcut
      have hn := hP _ hcut
      have hlengths := congrArg List.length heq
      rw [trim_of_pos hcut, hlen, List.length_take, hlen, List.length_take] at hlengths
      by_cases hl : P l = true
      · have hlong := hP l hl
        rw [trim_of_pos hl, List.length_take] at hlengths
        omega
      · rw [trim_of_neg hl] at hlengths
        omega
    · rw [trim_of_neg hcut, and_iff_right hcut]
      by_cases hl : P l = true
      · rw [trim_of_pos hl, List.take_take, forall_prop_of_true hl]
        constructor
        · intro heq
          have hlong := hP l hl
          have hlengths := congrArg List.length heq
          rw [List.length_take, List.length_take] at hlengths
          omega
        · intro hle
          rw [Nat.min_eq_left (by omega)]
      · rw [trim_of_neg hl]
        exact iff_of_true rfl fun h => absurd h hl

end

end Trim

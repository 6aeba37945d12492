import Mathlib.Tactic.TypeStar

/-
  A machine that is polled until it answers.

  A poll either says that the machine is still working or answers; either way the
  machine goes on to its next state. `upTo poll working n s` polls up to `n` times
  and stops at the first answer. `Works poll working k s t` says that `k` polls in
  `s` all find it working and leave it in `t`.

  The rules:
    1. `Works.trans`, `Works.one` — stretches of work, put together.
    2. `Works.upTo` — polling passes over such a stretch.
    3. `upTo_of_answer` — and ends with the poll that answers.
-/

set_option autoImplicit false

namespace Polling

variable {σ ρ : Type*} [DecidableEq ρ]

/-- Up to `n` polls: the last one's word, and the state after it. -/
def upTo (poll : σ → ρ × σ) (working : ρ) : Nat → σ → ρ × σ
  | 0, s => (working, s)
  | n + 1, s => if (poll s).1 = working then upTo poll working n (poll s).2 else poll s

def Works (poll : σ → ρ × σ) (working : ρ) : Nat → σ → σ → Prop
  | 0, s, t => s = t
  | k + 1, s, t => (poll s).1 = working ∧ Works poll working k (poll s).2 t

section
variable {poll : σ → ρ × σ} {working : ρ} {s t u : σ}

omit [DecidableEq ρ] in
theorem Works.one (h : poll s = (working, t)) : Works poll working 1 s t := by
  rw [Works, Works, h]
  exact ⟨rfl, rfl⟩

omit [DecidableEq ρ] in
theorem Works.trans {k l : Nat} (h : Works poll working k s t) (h' : Works poll working l t u) :
    Works poll working (k + l) s u := by
  induction k generalizing s with
  | zero =>
    obtain rfl : s = t := h
    rwa [Nat.zero_add]
  | succ k ih =>
    rw [Nat.succ_add]
    exact ⟨h.1, ih h.2⟩

theorem Works.upTo {k : Nat} (h : Works poll working k s t) (n : Nat) :
    Polling.upTo poll working (k + n) s = Polling.upTo poll working n t := by
  induction k generalizing s with
  | zero =>
    obtain rfl : s = t := h
    rw [Nat.zero_add]
  | succ k ih =>
    rw [Nat.succ_add, Polling.upTo, if_pos h.1]
    exact ih h.2

theorem upTo_of_answer (h : (poll s).1 ≠ working) (n : Nat) : Polling.upTo poll working (n + 1) s = poll s :=
  if_neg h

/-- Work, and then an answer, in as many polls or more. -/
theorem Works.answered {k n : Nat} (h : Works poll working k s t) (ha : (poll t).1 ≠ working) (hn : k < n) :
    Polling.upTo poll working n s = poll t := by
  obtain ⟨m, rfl⟩ : ∃ m, n = k + (m + 1) := ⟨n - k - 1, by omega⟩
  rw [h.upTo, upTo_of_answer ha]

end

end Polling

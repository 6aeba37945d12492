import Mathlib.Order.Monotone.Basic
import Mathlib.Tactic.Common

/-
  Text whose characters are one or two symbols long.

  `lead a` says that `a` begins a character of two; the last symbol of a text is a character
  of its own whatever it is. `pos l n` is where the text `l` is after `n` characters, so its
  values are the boundaries of the text.

  The rules:
    1. `pos_lt_succ`, `pos_le_length`, `pos_of_length_le` — the boundaries go up to the end
       of the text and stay there.
    2. `exists_around` — every position lies in one character.
    3. `exists_pos_succ` — behind a symbol that is no lead there is a boundary.
    4. `pos_append` — what is behind a text does not move the boundaries inside it.
-/

set_option autoImplicit false

namespace Chars

variable {α : Type*} (lead : α → Bool)

/-- How many symbols the first character has. -/
def width : List α → Nat
  | [] => 0
  | [_] => 1
  | a :: _ :: _ => if lead a then 2 else 1

/-- Where the text is after so many characters. -/
def pos (l : List α) : Nat → Nat
  | 0 => 0
  | n + 1 => pos l n + width lead (l.drop (pos l n))

section
variable {l : List α} {n : Nat}

@[simp] theorem pos_zero : pos lead l 0 = 0 := rfl

theorem pos_succ : pos lead l (n + 1) = pos lead l n + width lead (l.drop (pos lead l n)) := rfl

theorem width_le_two : ∀ l : List α, width lead l ≤ 2
  | [] => Nat.zero_le 2
  | [_] => Nat.le_succ 1
  | a :: _ :: _ => by
    rw [width]
    split <;> decide

theorem width_pos : ∀ {l : List α}, l ≠ [] → 0 < width lead l
  | [], h => absurd rfl h
  | [_], _ => Nat.one_pos
  | a :: _ :: _, _ => by
    rw [width]
    split <;> decide

theorem width_le_length : ∀ l : List α, width lead l ≤ l.length
  | [] => Nat.le_refl 0
  | [_] => Nat.le_refl 1
  | a :: b :: l => by
    rw [width, List.length_cons, List.length_cons]
    split <;> omega

theorem width_of_not_lead {a : α} (h : lead a = false) (l : List α) : width lead (a :: l) = 1 := by
  cases l with
  | nil => rfl
  | cons b l => rw [width, h]; rfl

/-- What is behind the first two symbols does not matter. -/
theorem width_append {l : List α} (h : 2 ≤ l.length) (r : List α) : width lead (l ++ r) = width lead l := by
  match l, h with
  | a :: b :: l, _ => rfl

theorem pos_le_length (l : List α) : ∀ n, pos lead l n ≤ l.length
  | 0 => Nat.zero_le _
  | n + 1 => by
    have hle := pos_le_length l n
    have hwidth := width_le_length lead (l.drop (pos lead l n))
    rw [List.length_drop] at hwidth
    rw [pos_succ]
    omega

theorem pos_le_succ : pos lead l n ≤ pos lead l (n + 1) := Nat.le_add_right _ _

theorem pos_lt_succ (h : pos lead l n < l.length) : pos lead l n < pos lead l (n + 1) := by
  have hne : l.drop (pos lead l n) ≠ [] := by
    rw [ne_eq, List.drop_eq_nil_iff]
    omega
  have hpos := width_pos lead hne
  rw [pos_succ]
  omega

theorem pos_mono : Monotone (pos lead l) := monotone_nat_of_le_succ fun _ => pos_le_succ lead

/-- The end of the text is reached, and not left. -/
theorem pos_of_length_le (h : l.length ≤ n) : pos lead l n = l.length := by
  have hreach : ∀ n, n ≤ pos lead l n ∨ pos lead l n = l.length := by
    intro n
    induction n with
    | zero => exact .inl (Nat.le_refl 0)
    | succ n ih =>
      have hle := pos_le_length lead l (n + 1)
      have hup : pos lead l n ≤ pos lead l (n + 1) := pos_le_succ lead
      obtain hlt | hend := Nat.lt_or_eq_of_le (pos_le_length lead l n)
      · have hnext := pos_lt_succ lead hlt
        omega
      · omega
  have hle := pos_le_length lead l n
  obtain hfar | hend := hreach n <;> omega

/-- A position in the text lies in one of its characters. -/
theorem exists_around {k : Nat} (h : k < l.length) : ∃ n, pos lead l n ≤ k ∧ k < pos lead l (n + 1) := by
  have hbelow : ∀ m, k < pos lead l m → ∃ n, pos lead l n ≤ k ∧ k < pos lead l (n + 1) := by
    intro m
    induction m with
    | zero => exact fun hk => absurd hk (Nat.not_lt_zero k)
    | succ m ih =>
      intro hk
      by_cases hm : k < pos lead l m
      · exact ih hm
      · exact ⟨m, Nat.not_lt.mp hm, hk⟩
  exact hbelow l.length (by rwa [pos_of_length_le lead (Nat.le_refl _)])

/-- Behind a symbol that is no lead. -/
theorem exists_pos_succ {k : Nat} (h : k < l.length) (hlead : lead l[k] = false) :
    ∃ n, pos lead l n ≤ k ∧ pos lead l (n + 1) = k + 1 := by
  obtain ⟨n, hle, hlt⟩ := exists_around lead h
  have htwo := width_le_two lead (l.drop (pos lead l n))
  refine ⟨n, hle, ?_⟩
  obtain heq | hbefore := Nat.eq_or_lt_of_le hle
  · -- the character begins with it
    rw [pos_succ, heq, List.drop_eq_getElem_cons h, width_of_not_lead lead hlead]
  · rw [pos_succ] at hlt ⊢
    omega

/-- The boundaries inside a text are where they are in the text alone. -/
theorem pos_append (r : List α) : ∀ n, pos lead l n < l.length → pos lead (l ++ r) n = pos lead l n
  | 0, _ => rfl
  | n + 1, h => by
    have hbefore : pos lead l n < l.length := (pos_le_succ lead).trans_lt h
    rw [pos_succ] at h
    have hrest : 2 ≤ (l.drop (pos lead l n)).length ∨ (l.drop (pos lead l n)).length = 1 := by
      rw [List.length_drop]
      omega
    rw [pos_succ, pos_succ, pos_append r n hbefore, List.drop_append_of_le_length hbefore.le]
    obtain htwo | hone := hrest
    · rw [width_append lead htwo]
    · -- a character that ends before the text does is not its last symbol
      have hpos := width_pos lead (List.ne_nil_of_length_pos (by omega : 0 < (l.drop (pos lead l n)).length))
      rw [List.length_drop] at hone
      omega

end

end Chars

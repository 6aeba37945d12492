import Mathlib.Data.List.Basic
import Mathlib.Tactic.Common

/-
  Counted loops over an array, with every access checked.

  `sweep body n s xs` is `for (i = 0; i < n; i++)` over the array `xs`: `body` is given the
  index, an accumulator and the element, and may change both. `scan p n xs` is the loop that
  stops at the first element with `p`. Both are nothing where an index is not in the array.

  The rules: a sweep is what `along` makes of the first `n` elements, the others kept
  (`sweep_eq`), if there are that many, and nothing if there are not (`sweep_none`); one
  that keeps no accumulator maps them (`sweep_mapIdx`, `sweep_map`), one that changes none
  leaves the array (`sweep_read`); and a scan inside the array says whether one of the
  elements has the property (`scan_eq`).
-/

set_option autoImplicit false

namespace Sweep

variable {α σ : Type*}

def sweepFrom (body : Nat → σ → α → σ × α) : Nat → Nat → σ → List α → Option (σ × List α)
  | 0, _, s, xs => some (s, xs)
  | n + 1, i, s, xs =>
    match xs[i]? with
    | none => none
    | some x => sweepFrom body n (i + 1) (body i s x).1 (xs.set i (body i s x).2)

def sweep (body : Nat → σ → α → σ × α) (n : Nat) (s : σ) (xs : List α) : Option (σ × List α) :=
  sweepFrom body n 0 s xs

def scanFrom (p : α → Bool) : Nat → Nat → List α → Option Bool
  | 0, _, _ => some false
  | n + 1, i, xs =>
    match xs[i]? with
    | none => none
    | some x => if p x then some true else scanFrom p n (i + 1) xs

def scan (p : α → Bool) (n : Nat) (xs : List α) : Option Bool := scanFrom p n 0 xs

/-- The body over a list, its first element at index `i`. -/
def along (body : Nat → σ → α → σ × α) : Nat → σ → List α → σ × List α
  | _, s, [] => (s, [])
  | i, s, x :: xs =>
    ((along body (i + 1) (body i s x).1 xs).1, (body i s x).2 :: (along body (i + 1) (body i s x).1 xs).2)

variable {body : Nat → σ → α → σ × α} {p : α → Bool} {n : Nat} {s : σ} {xs : List α}

@[simp] theorem along_length (i : Nat) : (along body i s xs).2.length = xs.length := by
  induction xs generalizing i s with
  | nil => rfl
  | cons x xs ih => simp only [along, List.length_cons, ih]

/-- A body that keeps no accumulator. -/
theorem along_mapIdx (f : Nat → α → α) (i : Nat) :
    along (fun j (t : σ) x => (t, f j x)) i s xs = (s, xs.mapIdx fun j x => f (i + j) x) := by
  induction xs generalizing i with
  | nil => rfl
  | cons x xs ih =>
    simp only [along, List.mapIdx_cons, ih, Nat.add_zero]
    have hshift : (fun j y => f (i + 1 + j) y) = fun j y => f (i + (j + 1)) y := by
      funext j y
      rw [Nat.add_assoc, Nat.add_comm 1]
    rw [hshift]

theorem along_map (f : α → α) (i : Nat) :
    along (fun _ (t : σ) x => (t, f x)) i s xs = (s, xs.map f) := by
  induction xs generalizing i with
  | nil => rfl
  | cons x xs ih => simp only [along, List.map_cons, ih]

/-- A body that changes no element. -/
theorem along_read (f : Nat → σ → α → σ) (i : Nat) :
    (along (fun j t x => (f j t x, x)) i s xs).2 = xs := by
  induction xs generalizing i s with
  | nil => rfl
  | cons x xs ih => simp only [along, ih]

theorem sweepFrom_eq (pre rest : List α) (h : n ≤ rest.length) :
    sweepFrom body n pre.length s (pre ++ rest) =
      some ((along body pre.length s (rest.take n)).1,
        pre ++ ((along body pre.length s (rest.take n)).2 ++ rest.drop n)) := by
  induction n generalizing pre rest s with
  | zero => simp only [sweepFrom, List.take_zero, List.drop_zero, along, List.nil_append]
  | succ n ih =>
    cases rest with
    | nil => exact absurd h (Nat.not_succ_le_zero n)
    | cons x rest =>
      have hget : (pre ++ x :: rest)[pre.length]? = some x := by simp
      have hset (y : α) : (pre ++ x :: rest).set pre.length y = (pre ++ [y]) ++ rest := by simp
      have hlen (y : α) : pre.length + 1 = (pre ++ [y]).length := by simp
      have hrest : n ≤ rest.length := Nat.le_of_succ_le_succ h
      simp only [sweepFrom, hget, hset, List.take_succ_cons, List.drop_succ_cons, along]
      rw [hlen (body pre.length s x).2, ih _ rest hrest]
      simp only [List.append_assoc, List.cons_append, List.nil_append]

theorem sweepFrom_none (i : Nat) (h : xs.length < i + n) : n = 0 ∨ sweepFrom body n i s xs = none := by
  induction n generalizing i s xs with
  | zero => exact .inl rfl
  | succ n ih =>
    refine .inr ?_
    rw [sweepFrom]
    split
    · rfl
    · rename_i x hx
      have hi : i < xs.length := (List.getElem?_eq_some_iff.mp hx).1
      have hset : (xs.set i (body i s x).2).length < i + 1 + n := by
        rw [List.length_set]
        omega
      obtain hn | hnone := ih (s := (body i s x).1) (i + 1) hset
      · omega
      · exact hnone

theorem sweep_eq (h : n ≤ xs.length) :
    sweep body n s xs =
      some ((along body 0 s (xs.take n)).1, (along body 0 s (xs.take n)).2 ++ xs.drop n) :=
  sweepFrom_eq [] xs h

theorem sweep_none (h : xs.length < n) : sweep body n s xs = none :=
  (sweepFrom_none 0 (by omega)).resolve_left (by omega)

/-- A loop that keeps no accumulator changes the first `n` elements, each by itself. -/
theorem sweep_mapIdx (f : Nat → α → α) (h : n ≤ xs.length) :
    sweep (fun j (t : σ) x => (t, f j x)) n s xs =
      some (s, xs.mapIdx fun j x => if j < n then f j x else x) := by
  rw [sweep_eq h, along_mapIdx]
  simp only [Nat.zero_add]
  refine congrArg (fun ys => some (s, ys)) (List.ext_getElem? fun j => ?_)
  have hlen : ((xs.take n).mapIdx f).length = n := by
    rw [List.length_mapIdx, List.length_take, Nat.min_eq_left h]
  rw [List.getElem?_append, hlen]
  by_cases hj : j < n
  · simp only [hj, if_true, List.getElem?_mapIdx, List.getElem?_take]
  · simp only [hj, if_false, List.getElem?_mapIdx, List.getElem?_drop,
      Nat.add_sub_cancel' (Nat.le_of_not_lt hj), Option.map_id']

theorem sweep_map (f : α → α) (h : n ≤ xs.length) :
    sweep (fun _ (t : σ) x => (t, f x)) n s xs = some (s, (xs.take n).map f ++ xs.drop n) := by
  rw [sweep_eq h, along_map]

theorem sweep_read (f : Nat → σ → α → σ) (h : n ≤ xs.length) :
    ∃ t, sweep (fun j t x => (f j t x, x)) n s xs = some (t, xs) := by
  refine ⟨(along (fun j t x => (f j t x, x)) 0 s (xs.take n)).1, ?_⟩
  rw [sweep_eq h, along_read, List.take_append_drop]

theorem scanFrom_eq (i : Nat) (h : i + n ≤ xs.length) :
    scanFrom p n i xs = some (((xs.drop i).take n).any p) := by
  induction n generalizing i with
  | zero => simp only [scanFrom, List.take_zero, List.any_nil]
  | succ n ih =>
    have hi : i < xs.length := by omega
    rw [scanFrom, List.getElem?_eq_getElem hi, List.drop_eq_getElem_cons hi]
    simp only [List.take_succ_cons, List.any_cons]
    cases hp : p xs[i] with
    | true => rfl
    | false => simpa using ih (i + 1) (by omega)

theorem scan_eq (h : n ≤ xs.length) : scan p n xs = some ((xs.take n).any p) := by
  rw [scan, scanFrom_eq 0 (by omega), List.drop_zero]

end Sweep

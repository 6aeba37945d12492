import Mathlib.Data.List.Basic
import Mathlib.Data.List.Nodup
import Mathlib.Data.List.Range
import Mathlib.Logic.Function.Basic

/-
  Items with a key, sorted into lanes, dealt out lane by lane in turn, and numbered.

  `group key xs` is a list of lanes, one for each key, in the order in which the keys
  first appear, each with its items in order. `roundRobin lanes` takes the first item of
  every lane, then the second of those that have one, and so on; without a lane there is
  nothing to take the longest of, and it is `none`. `number key start xs` gives each item
  the number of those with its key that come before it, from `start` on.

  The rules:
    1. `lane_group` — the lane of a key is the items of that key.
    2. `roundRobin_group_filter` — dealing the lanes out again changes the order of items
       of different keys only; `roundRobin_group_none` says when there is nothing to deal.
    3. `number_snd`, `number_filter` — numbering keeps the items, and numbers those of one
       key one after the other; `tally_eq` counts them.
-/

set_option autoImplicit false

namespace Lanes

variable {α κ : Type*} [DecidableEq κ] (key : α → κ)

/-! ## Lanes -/

/-- The item at the end of its lane, or in a lane of its own behind the others. -/
def push : List (κ × List α) → α → List (κ × List α)
  | [], x => [(key x, [x])]
  | (k, l) :: lanes, x => if k = key x then (k, l ++ [x]) :: lanes else (k, l) :: push lanes x

def group (xs : List α) : List (κ × List α) := xs.foldl (push key) []

def lane (k : κ) : List (κ × List α) → List α
  | [] => []
  | (k', l) :: lanes => if k' = k then l else lane k lanes

/-- No two lanes of one key, and every item in the lane of its key. -/
structure Sorted (lanes : List (κ × List α)) : Prop where
  nodup : (lanes.map Prod.fst).Nodup
  own : ∀ e ∈ lanes, ∀ x ∈ e.2, key x = e.1

variable {key}

theorem lane_push (k : κ) (x : α) : ∀ lanes : List (κ × List α),
    lane k (push key lanes x) = lane k lanes ++ if key x = k then [x] else []
  | [] => by
    rw [push, lane, lane, lane, List.nil_append]
  | (k', l) :: lanes => by
    rw [push, lane]
    by_cases hx : k' = key x
    · rw [if_pos hx, lane]
      by_cases hk : k' = k
      · rw [if_pos hk, if_pos hk, if_pos (hx.symm.trans hk)]
      · rw [if_neg hk, if_neg hk, if_neg fun h => hk (hx.trans h), List.append_nil]
    · rw [if_neg hx, lane]
      by_cases hk : k' = k
      · rw [if_pos hk, if_pos hk, if_neg fun h => hx (hk.trans h.symm), List.append_nil]
      · rw [if_neg hk, if_neg hk, lane_push k x lanes]

theorem push_keys (x : α) : ∀ lanes : List (κ × List α), (push key lanes x).map Prod.fst =
    if key x ∈ lanes.map Prod.fst then lanes.map Prod.fst else lanes.map Prod.fst ++ [key x]
  | [] => rfl
  | (k, l) :: lanes => by
    rw [push]
    by_cases hx : k = key x
    · rw [if_pos hx, if_pos (by simp [hx])]
      rfl
    · rw [if_neg hx, List.map_cons, List.map_cons, push_keys x lanes]
      by_cases hmem : key x ∈ lanes.map Prod.fst
      · rw [if_pos hmem, if_pos (List.mem_cons_of_mem k hmem)]
      · rw [if_neg hmem, if_neg (by simpa [Ne.symm hx] using hmem)]
        rfl

theorem push_mem (x : α) : ∀ {lanes : List (κ × List α)} {e : κ × List α}, e ∈ push key lanes x →
    e ∈ lanes ∨ e.1 = key x ∧ ∀ y ∈ e.2, y = x ∨ ∃ l, (e.1, l) ∈ lanes ∧ y ∈ l
  | [], e, h => by
    obtain rfl := List.mem_singleton.mp h
    exact .inr ⟨rfl, fun y hy => .inl (List.mem_singleton.mp hy)⟩
  | (k, l) :: lanes, e, h => by
    rw [push] at h
    split at h
    next hx =>
      rcases List.mem_cons.mp h with rfl | h
      · refine .inr ⟨hx, fun y hy => ?_⟩
        rcases List.mem_append.mp hy with hy | hy
        · exact .inr ⟨l, List.mem_cons_self, hy⟩
        · exact .inl (List.mem_singleton.mp hy)
      · exact .inl (List.mem_cons_of_mem _ h)
    next hx =>
      rcases List.mem_cons.mp h with rfl | h
      · exact .inl List.mem_cons_self
      · rcases push_mem x h with h | ⟨hkey, hitems⟩
        · exact .inl (List.mem_cons_of_mem _ h)
        · refine .inr ⟨hkey, fun y hy => (hitems y hy).imp id ?_⟩
          rintro ⟨l', hl', hy'⟩
          exact ⟨l', List.mem_cons_of_mem _ hl', hy'⟩

theorem Sorted.push {lanes : List (κ × List α)} (h : Sorted key lanes) (x : α) : Sorted key (push key lanes x) where
  nodup := by
    rw [push_keys]
    split
    · exact h.nodup
    next hx =>
      refine List.nodup_append.mpr ⟨h.nodup, List.nodup_singleton _, ?_⟩
      rintro k hk _ hk' rfl
      exact hx (List.mem_singleton.mp hk' ▸ hk)
  own := by
    intro e he y hy
    rcases push_mem x he with he | ⟨hkey, hitems⟩
    · exact h.own e he y hy
    · rcases hitems y hy with rfl | ⟨l, hl, hyl⟩
      · exact hkey.symm
      · exact h.own _ hl y hyl

theorem sorted_group (xs : List α) : Sorted key (group key xs) := by
  have hfold : ∀ (xs : List α) (lanes : List (κ × List α)), Sorted key lanes →
      Sorted key (xs.foldl (Lanes.push key) lanes) := by
    intro xs
    induction xs with
    | nil => exact fun lanes h => h
    | cons x xs ih => exact fun lanes h => ih _ (h.push x)
  exact hfold xs [] ⟨List.nodup_nil, fun e he => absurd he List.not_mem_nil⟩

theorem lane_group (k : κ) (xs : List α) : lane k (group key xs) = xs.filter fun x => key x = k := by
  have hfold : ∀ (xs : List α) (lanes : List (κ × List α)),
      lane k (xs.foldl (push key) lanes) = lane k lanes ++ xs.filter fun x => key x = k := by
    intro xs
    induction xs with
    | nil => exact fun lanes => (List.append_nil _).symm
    | cons x xs ih =>
      intro lanes
      rw [List.foldl_cons, ih, lane_push, List.append_assoc, List.filter_cons]
      by_cases hx : key x = k <;> simp [hx]
  exact hfold xs []

/-! ## Round robin -/

/-- The items at place `i` of the lanes that are long enough. -/
def column (i : Nat) (lanes : List (List α)) : List α := lanes.filterMap fun l => l[i]?

def roundRobin (lanes : List (List α)) : Option (List α) :=
  (lanes.map List.length).max?.map fun n => (List.range n).flatMap fun i => column i lanes

theorem filter_own {p : κ} {k : κ} {l : List α} (h : ∀ x ∈ l, key x = p) :
    l.filter (fun x => key x = k) = if p = k then l else [] := by
  by_cases hk : p = k
  · rw [if_pos hk, List.filter_eq_self.mpr]
    exact fun x hx => decide_eq_true ((h x hx).trans hk)
  · rw [if_neg hk, List.filter_eq_nil_iff.mpr]
    exact fun x hx hxk => hk ((h x hx).symm.trans (of_decide_eq_true hxk))

theorem lane_of_not_mem {k : κ} : ∀ {lanes : List (κ × List α)}, k ∉ lanes.map Prod.fst → lane k lanes = []
  | [], _ => rfl
  | (k', l) :: lanes, h => by
    rw [List.map_cons, List.mem_cons, not_or] at h
    rw [lane, if_neg (Ne.symm h.1), lane_of_not_mem h.2]

/-- In a column there is at most one item of a key. -/
theorem column_filter (k : κ) (i : Nat) : ∀ {lanes : List (κ × List α)}, Sorted key lanes →
    (column i (lanes.map Prod.snd)).filter (fun x => key x = k) = ((lane k lanes)[i]?).toList
  | [], _ => rfl
  | (k', l) :: lanes, h => by
    have hrest : Sorted key lanes :=
      ⟨(List.nodup_cons.mp h.nodup).2, fun e he => h.own e (List.mem_cons_of_mem _ he)⟩
    have hhead : ∀ x ∈ (l[i]?).toList, key x = k' := fun x hx =>
      h.own (k', l) List.mem_cons_self x (List.mem_of_getElem? (Option.mem_toList.mp hx))
    have hcolumn : column i (((k', l) :: lanes).map Prod.snd) = (l[i]?).toList ++ column i (lanes.map Prod.snd) := by
      rw [column, List.map_cons, List.filterMap_cons]
      cases l[i]? <;> rfl
    rw [hcolumn, List.filter_append, filter_own hhead, column_filter k i hrest, lane]
    by_cases hk : k' = k
    · subst hk
      rw [if_pos rfl, if_pos rfl, lane_of_not_mem (List.nodup_cons.mp h.nodup).1]
      exact List.append_nil _
    · rw [if_neg hk, if_neg hk, List.nil_append]

theorem range_flatMap_getElem? : ∀ {n : Nat} {l : List α}, l.length ≤ n →
    ((List.range n).flatMap fun i => (l[i]?).toList) = l
  | 0, l, h => by
    rw [List.length_eq_zero_iff.mp (Nat.le_zero.mp h)]
    rfl
  | n + 1, [], _ => List.flatMap_eq_nil_iff.mpr fun _ _ => rfl
  | n + 1, x :: l, h => by
    rw [List.range_succ_eq_map, List.flatMap_cons, List.flatMap_map]
    calc [x] ++ (List.range n).flatMap (fun i => (l[i]?).toList) = [x] ++ l := by
          rw [range_flatMap_getElem? (Nat.le_of_succ_le_succ h)]
      _ = x :: l := rfl

theorem lane_mem {k : κ} : ∀ {lanes : List (κ × List α)}, lane k lanes ≠ [] → lane k lanes ∈ lanes.map Prod.snd
  | [], h => absurd rfl h
  | (k', l) :: lanes, h => by
    rw [lane] at h ⊢
    split
    · exact List.mem_cons_self
    next hk =>
      rw [if_neg hk] at h
      exact List.mem_cons_of_mem _ (lane_mem h)

theorem Sorted.roundRobin_filter {lanes : List (κ × List α)} (h : Sorted key lanes) {ys : List α}
    (hys : roundRobin (lanes.map Prod.snd) = some ys) (k : κ) :
    ys.filter (fun y => key y = k) = lane k lanes := by
  obtain ⟨n, hmax, rfl⟩ := Option.map_eq_some_iff.mp hys
  have hlong : (lane k lanes).length ≤ n := by
    by_cases hl : lane k lanes = []
    · rw [hl]
      exact Nat.zero_le n
    · exact (List.max?_eq_some_iff.mp hmax).2 _ (List.mem_map_of_mem (lane_mem hl))
  rw [List.filter_flatMap]
  calc (List.range n).flatMap (fun i => (column i (lanes.map Prod.snd)).filter fun x => key x = k)
      = (List.range n).flatMap fun i => ((lane k lanes)[i]?).toList := by
        congr 1
        exact funext fun i => column_filter k i h
    _ = lane k lanes := range_flatMap_getElem? hlong

theorem roundRobin_group_filter {xs ys : List α} (h : roundRobin ((group key xs).map Prod.snd) = some ys) (k : κ) :
    ys.filter (fun y => key y = k) = xs.filter fun x => key x = k := by
  rw [(sorted_group xs).roundRobin_filter h, lane_group]

theorem roundRobin_group_none {xs : List α} : roundRobin ((group key xs).map Prod.snd) = none ↔ xs = [] := by
  have hgroup : group key xs = [] ↔ xs = [] := by
    constructor
    · intro h
      rcases xs with _ | ⟨x, xs⟩
      · rfl
      · have hlane : lane (key x) (group key (x :: xs)) = _ := lane_group (key x) (x :: xs)
        rw [h, lane, List.filter_cons_of_pos (by simp)] at hlane
        cases hlane
    · rintro rfl
      rfl
  rw [roundRobin, Option.map_eq_none_iff, List.max?_eq_none_iff, List.map_eq_nil_iff, List.map_eq_nil_iff, hgroup]

/-! ## Counting and numbering -/

section
variable (key)

def tally (xs : List α) : κ → Nat := xs.foldl (fun c x => Function.update c (key x) (c (key x) + 1)) fun _ => 0

def number : (κ → Nat) → List α → List (Nat × α)
  | _, [] => []
  | idx, x :: xs => (idx (key x), x) :: number (Function.update idx (key x) (idx (key x) + 1)) xs

end

theorem tally_eq (xs : List α) (k : κ) : tally key xs k = (xs.filter fun x => key x = k).length := by
  have hfold : ∀ (xs : List α) (c : κ → Nat),
      xs.foldl (fun c x => Function.update c (key x) (c (key x) + 1)) c k =
        c k + (xs.filter fun x => key x = k).length := by
    intro xs
    induction xs with
    | nil => exact fun c => rfl
    | cons x xs ih =>
      intro c
      rw [List.foldl_cons, ih]
      rw [List.filter_cons]
      by_cases hx : key x = k
      · rw [if_pos (decide_eq_true hx), ← hx, Function.update_self, List.length_cons]
        omega
      · rw [if_neg (by simpa using hx), Function.update_of_ne (Ne.symm hx)]
  rw [tally, hfold, Nat.zero_add]

theorem number_snd : ∀ (xs : List α) (idx : κ → Nat), (number key idx xs).map Prod.snd = xs
  | [], _ => rfl
  | x :: xs, idx => by
    rw [number, List.map_cons, number_snd xs]

theorem number_filter (k : κ) : ∀ (xs : List α) (idx : κ → Nat),
    ((number key idx xs).filter fun e => key e.2 = k).map Prod.fst =
      List.range' (idx k) (xs.filter fun x => key x = k).length
  | [], _ => rfl
  | x :: xs, idx => by
    rw [number, List.filter_cons, List.filter_cons]
    by_cases hx : key x = k
    · rw [if_pos (decide_eq_true hx), if_pos (decide_eq_true hx), List.map_cons, number_filter k xs,
        List.length_cons, List.range'_succ, ← hx, Function.update_self]
    · rw [if_neg (by simpa using hx), if_neg (by simpa using hx), number_filter k xs,
        Function.update_of_ne (Ne.symm hx)]

end Lanes

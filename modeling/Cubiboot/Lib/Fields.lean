import Mathlib.Data.List.TakeWhile

/-
  The fields of a text: what stands between separators, empty ones left out.

  A reader that takes them one after another skips the separators in front of a
  field and then takes it up to the next separator (`next`). What it comes to,
  from first to last, are the text's fields:

    1. `fields_eq_next` — one step of the reader.
    2. `fields_skip`, `fields_take` — the two halves of it, for a reader that
       skips the separators behind a field and not in front of it.

  A reader that sees the beginning of a text only sees the fields that end there
  (`whole`), and perhaps the beginning of one more (`cut`):

    3. `fields_of_take` — those are the fields of the beginning.
    4. `whole_prefix` — who sees more of the text sees the same fields first.
-/

set_option autoImplicit false

namespace Fields

variable {α : Type*} (sep : α → Bool)

def fields (l : List α) : List (List α) := (l.splitOnP sep).filter fun f => !f.isEmpty

/-- The first field and what is left behind it. -/
def next (l : List α) : Option (List α × List α) :=
  match l.dropWhile sep with
  | [] => none
  | a :: rest => some ((a :: rest).takeWhile fun x => !sep x, (a :: rest).dropWhile fun x => !sep x)

variable {sep}

theorem fields_nil : fields sep [] = [] := by
  rw [fields, List.splitOnP_nil]
  rfl

theorem fields_cons_sep {a : α} (h : sep a = true) (l : List α) : fields sep (a :: l) = fields sep l := by
  rw [fields, List.splitOnP_cons_eq_if_modifyHead, if_pos h]
  rfl

/-- Separators in front change nothing. -/
theorem fields_skip (l : List α) : fields sep (l.dropWhile sep) = fields sep l := by
  induction l with
  | nil => rfl
  | cons a l ih =>
    rw [List.dropWhile_cons]
    split
    · rename_i h
      rw [ih, fields_cons_sep h]
    · rfl

theorem fields_append {f : List α} (hne : f ≠ []) (hf : ∀ x ∈ f, sep x = false) {a : α} (ha : sep a = true)
    (l : List α) : fields sep (f ++ a :: l) = f :: fields sep l := by
  obtain ⟨b, f, rfl⟩ := List.exists_cons_of_ne_nil hne
  rw [fields, List.splitOnP_append_cons_of_forall_mem hf a ha]
  rfl

theorem takeWhile_noSep (l : List α) : ∀ x ∈ l.takeWhile (fun x => !sep x), sep x = false := by
  intro x hx
  have hnot := List.mem_takeWhile_imp hx
  rwa [Bool.not_eq_true'] at hnot

/-- What is skipped ends in front of something else. -/
theorem dropWhile_head {p : α → Bool} {l rest : List α} {a : α} (h : l.dropWhile p = a :: rest) : p a = false := by
  have hhead := List.head?_dropWhile_not p l
  rw [h] at hhead
  exact hhead

theorem sep_of_dropWhile {l rest : List α} {a : α} (h : (l.dropWhile fun x => !sep x) = a :: rest) : sep a = true := by
  have hhead := dropWhile_head h
  rwa [Bool.not_eq_false'] at hhead

/-- A field, or nothing. -/
def single (f : List α) : List (List α) := if f.isEmpty then [] else [f]

theorem fields_single {f : List α} (hf : ∀ x ∈ f, sep x = false) : fields sep f = single f := by
  rw [fields, List.splitOnP_eq_singleton hf]
  cases f <;> rfl

theorem fields_split {f : List α} (hf : ∀ x ∈ f, sep x = false) {a : α} (ha : sep a = true) (l : List α) :
    fields sep (f ++ a :: l) = single f ++ fields sep l := by
  cases f with
  | nil => exact fields_cons_sep ha l
  | cons b f => exact fields_append (List.cons_ne_nil b f) hf ha l

/-- The first field, if there is one in front of the first separator, and those behind it. -/
theorem fields_eq_single (l : List α) :
    fields sep l = single (l.takeWhile fun x => !sep x) ++ fields sep (l.dropWhile fun x => !sep x) := by
  have hsplit := List.takeWhile_append_dropWhile (p := fun x => !sep x) (l := l)
  cases hrest : l.dropWhile fun x => !sep x with
  | nil =>
    rw [hrest, List.append_nil] at hsplit
    have hall : ∀ x ∈ l.takeWhile (fun x => !sep x), sep x = false := takeWhile_noSep l
    rw [hsplit] at hall ⊢
    rw [fields_nil, List.append_nil, fields_single hall]
  | cons a rest =>
    have ha : sep a = true := sep_of_dropWhile hrest
    calc fields sep l
        = fields sep (l.takeWhile (fun x => !sep x) ++ a :: rest) := by rw [← hrest, hsplit]
      _ = single (l.takeWhile fun x => !sep x) ++ fields sep rest := fields_split (takeWhile_noSep l) ha rest
      _ = single (l.takeWhile fun x => !sep x) ++ fields sep (a :: rest) := by rw [fields_cons_sep ha]

/-- A field in front is the first; the rest are behind it. -/
theorem fields_take {a : α} (ha : sep a = false) (l : List α) :
    fields sep (a :: l) =
      ((a :: l).takeWhile fun x => !sep x) :: fields sep ((a :: l).dropWhile fun x => !sep x) := by
  have hfirst : single ((a :: l).takeWhile fun x => !sep x) = [(a :: l).takeWhile fun x => !sep x] := by
    rw [List.takeWhile_cons, ha]
    rfl
  rw [fields_eq_single, hfirst, List.singleton_append]

theorem fields_eq_next (l : List α) :
    fields sep l =
      match next sep l with
      | none => []
      | some (f, rest) => f :: fields sep rest := by
  rw [← fields_skip, next]
  cases h : l.dropWhile sep with
  | nil => exact fields_nil
  | cons a rest =>
    have ha : sep a = false := dropWhile_head h
    exact fields_take ha rest

theorem next_shorter {l f rest : List α} (h : next sep l = some (f, rest)) : rest.length < l.length := by
  have hdrop := (List.dropWhile_suffix sep (l := l)).length_le
  rw [next] at h
  cases hl : l.dropWhile sep with
  | nil =>
    rw [hl] at h
    cases h
  | cons a tail =>
    have ha : sep a = false := dropWhile_head hl
    rw [hl] at h hdrop
    have hrest : rest = (a :: tail).dropWhile fun x => !sep x := (congrArg Prod.snd (Option.some.inj h)).symm
    have hle := (List.dropWhile_suffix (fun x => !sep x) (l := tail)).length_le
    rw [hrest, List.dropWhile_cons, ha]
    simp only [Bool.not_false, if_true]
    rw [List.length_cons] at hdrop
    omega

/-! ## The fields of a beginning -/

/-- The pieces with where they begin, the first at `k`, with a separator behind each. -/
def placed : Nat → List (List α) → List (Nat × List α)
  | _, [] => []
  | k, f :: fs => (k, f) :: placed (k + f.length + 1) fs

/-- The pieces that are fields and end by position `n`. -/
def wholeFrom (k n : Nat) (fs : List (List α)) : List (List α) :=
  ((placed k fs).filter fun f => !f.2.isEmpty && decide (f.1 + f.2.length ≤ n)).map Prod.snd

variable (sep) in
/-- The fields that end by position `n`. -/
def whole (n : Nat) (l : List α) : List (List α) := wholeFrom 0 n (l.splitOnP sep)

variable (sep) in
/-- What the first `n` have of a field that goes on behind them. -/
def cut (n : Nat) (l : List α) : List α :=
  match l[n]? with
  | some a => if sep a then [] else ((l.take n).reverse.takeWhile fun x => !sep x).reverse
  | none => []

theorem wholeFrom_late {k n : Nat} (h : n < k) (fs : List (List α)) : wholeFrom k n fs = [] := by
  induction fs generalizing k with
  | nil => rfl
  | cons f fs ih =>
    have hnot : ¬ k + f.length ≤ n := by omega
    have hrest := ih (k := k + f.length + 1) (by omega)
    rw [wholeFrom] at hrest
    rw [wholeFrom, placed, List.filter_cons_of_neg (by simp [hnot]), hrest]

theorem wholeFrom_cons (k n : Nat) (f : List α) (fs : List (List α)) : wholeFrom k n (f :: fs) =
    if k + f.length ≤ n then single f ++ wholeFrom (k + f.length + 1) n fs else [] := by
  by_cases hend : k + f.length ≤ n
  · rw [if_pos hend, single, wholeFrom, placed]
    cases f with
    | nil => rfl
    | cons a f =>
      rw [List.filter_cons_of_pos (by simpa using hend)]
      rfl
  · have hlate := wholeFrom_late (k := k + f.length + 1) (n := n) (by omega) fs
    rw [wholeFrom] at hlate
    rw [if_neg hend, wholeFrom, placed, List.filter_cons_of_neg (by simp [hend]), hlate]

theorem wholeFrom_prefix {n m : Nat} (h : n ≤ m) (fs : List (List α)) (k : Nat) :
    wholeFrom k n fs <+: wholeFrom k m fs := by
  induction fs generalizing k with
  | nil => exact List.prefix_refl _
  | cons f fs ih =>
    rw [wholeFrom_cons, wholeFrom_cons]
    by_cases hend : k + f.length ≤ n
    · have hend' : k + f.length ≤ m := by omega
      rw [if_pos hend, if_pos hend']
      exact (List.prefix_append_right_inj _).mpr (ih _)
    · rw [if_neg hend]
      exact List.nil_prefix

theorem whole_prefix {n m : Nat} (h : n ≤ m) (l : List α) : whole sep n l <+: whole sep m l :=
  wholeFrom_prefix h _ 0

/-- The run at the end of a text that has a separator in it. -/
theorem takeWhile_reverse_append {a : α} (ha : sep a = true) (f l : List α) :
    (f ++ a :: l).reverse.takeWhile (fun x => !sep x) = l.reverse.takeWhile fun x => !sep x := by
  have hstop : ([a] ++ f.reverse).takeWhile (fun x => !sep x) = [] := by
    rw [List.singleton_append, List.takeWhile_cons, ha]
    rfl
  rw [List.reverse_append, List.reverse_cons, List.append_assoc, List.takeWhile_append, hstop, List.append_nil]
  split
  · rename_i hall
    exact ((List.takeWhile_prefix _).eq_of_length hall).symm
  · rfl

theorem takeWhile_reverse_noSep {f : List α} (hf : ∀ x ∈ f, sep x = false) :
    (f.reverse.takeWhile fun x => !sep x).reverse = f := by
  have hall : ∀ x ∈ f.reverse, (!sep x) = true := fun x hx => by rw [hf x (List.mem_reverse.mp hx)]; rfl
  rw [List.takeWhile_eq_self_iff.mpr hall, List.reverse_reverse]

theorem cut_of_end {n : Nat} {l : List α} (h : l.length ≤ n) : cut sep n l = [] := by
  rw [cut, List.getElem?_eq_none h]

theorem cut_field {n : Nat} {f l : List α} (hf : ∀ x ∈ f, sep x = false) (h : n < f.length) :
    cut sep n (f ++ l) = f.take n := by
  have hget : (f ++ l)[n]? = some f[n] := by
    rw [List.getElem?_append_left h, List.getElem?_eq_getElem h]
  have htake : ∀ x ∈ f.take n, sep x = false := fun x hx => hf x (List.mem_of_mem_take hx)
  simp only [cut, hget, hf f[n] (List.getElem_mem h), Bool.false_eq_true, if_false,
    List.take_append_of_le_length (Nat.le_of_lt h), takeWhile_reverse_noSep htake]

theorem cut_at_sep {f l : List α} {a : α} (ha : sep a = true) : cut sep f.length (f ++ a :: l) = [] := by
  have hget : (f ++ a :: l)[f.length]? = some a := by
    rw [List.getElem?_append_right (Nat.le_refl _), Nat.sub_self]
    rfl
  simp only [cut, hget, ha, if_true]

theorem take_behind (f l : List α) (a : α) (n : Nat) :
    (f ++ a :: l).take (f.length + 1 + n) = f ++ a :: l.take n := by
  rw [List.take_append, List.take_of_length_le (by omega), show f.length + 1 + n - f.length = n + 1 by omega,
    List.take_succ_cons]

theorem cut_behind {f l : List α} {a : α} (ha : sep a = true) (n : Nat) :
    cut sep (f.length + 1 + n) (f ++ a :: l) = cut sep n l := by
  have hsub : f.length + 1 + n - f.length = n + 1 := by omega
  have hget : (f ++ a :: l)[f.length + 1 + n]? = l[n]? := by
    rw [List.getElem?_append_right (by omega), hsub, List.getElem?_cons_succ]
  simp only [cut, hget, take_behind, takeWhile_reverse_append ha]

/-- Where the first field goes on behind the first `n`. -/
theorem fields_of_take_first {k n : Nat} {f l : List α} {fs : List (List α)} (hf : ∀ x ∈ f, sep x = false)
    (h : n < f.length) :
    fields sep ((f ++ l).take n) = wholeFrom k (k + n) (f :: fs) ++ single (cut sep n (f ++ l)) := by
  have hlate : ¬ k + f.length ≤ k + n := by omega
  have htake : ∀ x ∈ f.take n, sep x = false := fun x hx => hf x (List.mem_of_mem_take hx)
  rw [wholeFrom_cons, if_neg hlate, List.nil_append, cut_field hf h, List.take_append_of_le_length (Nat.le_of_lt h),
    fields_single htake]

/-- The fields of the first `n`: those that end there, and the beginning of the one that does
not. Read from field to field; `k` is where the next one begins. -/
theorem fields_of_take_from (m : Nat) : ∀ (l : List α) (k n : Nat), l.length = m →
    fields sep (l.take n) = wholeFrom k (k + n) (l.splitOnP sep) ++ single (cut sep n l) := by
  induction m using Nat.strongRecOn with
  | _ m ih =>
    intro l k n hl
    have hsplit := List.takeWhile_append_dropWhile (p := fun x => !sep x) (l := l)
    have hf : ∀ x ∈ l.takeWhile (fun x => !sep x), sep x = false := takeWhile_noSep l
    generalize l.takeWhile (fun x => !sep x) = f at hsplit hf
    cases hrest : l.dropWhile fun x => !sep x with
    | nil =>
      obtain rfl : f = l := by rw [← hsplit, hrest, List.append_nil]
      rw [List.splitOnP_eq_singleton hf]
      by_cases hend : f.length ≤ n
      · have hlast : ∀ j, wholeFrom j (k + n) ([] : List (List α)) ++ single [] = [] := fun _ => rfl
        rw [List.take_of_length_le hend, fields_single hf, cut_of_end hend, wholeFrom_cons, if_pos (by omega),
          List.append_assoc, hlast, List.append_nil]
      · have hfirst : fields sep ((f ++ []).take n) = wholeFrom k (k + n) [f] ++ _ :=
          fields_of_take_first hf (Nat.lt_of_not_le hend)
        rwa [List.append_nil] at hfirst
    | cons a rest =>
      have ha : sep a = true := sep_of_dropWhile hrest
      obtain rfl : l = f ++ a :: rest := by rw [← hsplit, hrest]
      rw [List.splitOnP_append_cons_of_forall_mem hf a ha]
      obtain hlt | rfl | hgt := Nat.lt_trichotomy n f.length
      · exact fields_of_take_first hf hlt
      · rw [List.take_left, fields_single hf, cut_at_sep ha, wholeFrom_cons, if_pos (Nat.le_refl _),
          wholeFrom_late (Nat.lt_succ_self _), List.append_nil]
        exact (List.append_nil _).symm
      · obtain ⟨d, rfl⟩ : ∃ d, n = f.length + 1 + d := ⟨n - f.length - 1, by omega⟩
        have hshort : rest.length < m := by
          rw [← hl, List.length_append, List.length_cons]
          omega
        have hnext := ih rest.length hshort rest (k + f.length + 1) d rfl
        rw [take_behind, fields_split hf ha, hnext, cut_behind ha, wholeFrom_cons, if_pos (by omega), List.append_assoc,
          show k + (f.length + 1 + d) = k + f.length + 1 + d by omega]

/-- The same, from the first field on. -/
theorem fields_of_take (n : Nat) (l : List α) :
    fields sep (l.take n) = whole sep n l ++ single (cut sep n l) := by
  have h : fields sep (l.take n) = _ := fields_of_take_from l.length l 0 n rfl
  rwa [Nat.zero_add] at h

/-- A text whose end is seen. -/
theorem whole_of_length_le {n : Nat} {l : List α} (h : l.length ≤ n) : whole sep n l = fields sep l := by
  have hall : fields sep (l.take n) = _ := fields_of_take n l
  rw [List.take_of_length_le h, cut_of_end h] at hall
  exact (hall.trans (List.append_nil _)).symm

end Fields

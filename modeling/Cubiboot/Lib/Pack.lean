import Mathlib.Algebra.Ring.Nat
import Mathlib.Data.List.Basic

/-
  Numbers as bytes, and slices of lists.

  `le k n` are the `k` lowest bytes of `n`, least significant first, and `be k n` the
  same turned round; `fromLe` and `fromBe` read bytes back. `slice xs i j` is what
  stands from `i` up to `j`. `assignSlice xs i j ys` puts `ys` in place of a slice whose
  ends are integers: a negative one counts from the back, and what is out of the list
  is drawn to its nearer end.

  The rules:
    1. `fromLe_le`, `fromBe_be` — a number that fits is read back.
    2. `fromLe_lt` — what so many bytes can make.
    3. `assignSlice_nil` — nothing put in place of nothing changes nothing.
    4. `length_assignSlice`, `getElem?_assignSlice` — as much put in place of a slice
       inside the list changes that slice alone.
    5. `chunks_flatten` — pieces of one size, put together and cut again.
-/

set_option autoImplicit false

namespace Pack

/-! ## Byte order -/

def le : Nat → Nat → List UInt8
  | 0, _ => []
  | k + 1, n => UInt8.ofNat n :: le k (n / 256)

def fromLe : List UInt8 → Nat
  | [] => 0
  | b :: bs => b.toNat + 256 * fromLe bs

def be (k n : Nat) : List UInt8 := (le k n).reverse

def fromBe (bs : List UInt8) : Nat := fromLe bs.reverse

@[simp] theorem length_le : ∀ k n : Nat, (le k n).length = k
  | 0, _ => rfl
  | k + 1, n => congrArg (· + 1) (length_le k (n / 256))

@[simp] theorem length_be (k n : Nat) : (be k n).length = k := by
  rw [be, List.length_reverse, length_le]

theorem fromLe_le : ∀ {k n : Nat}, n < 256 ^ k → fromLe (le k n) = n
  | 0, n, h => by
    rw [Nat.pow_zero] at h
    exact (Nat.lt_one_iff.mp h).symm
  | k + 1, n, h => by
    have hdiv : n / 256 < 256 ^ k := Nat.div_lt_of_lt_mul (by rwa [Nat.mul_comm, ← Nat.pow_succ])
    calc fromLe (le (k + 1) n) = (UInt8.ofNat n).toNat + 256 * fromLe (le k (n / 256)) := rfl
      _ = n % 256 + 256 * (n / 256) := by rw [UInt8.toNat_ofNat', fromLe_le hdiv]
      _ = n := Nat.mod_add_div n 256

theorem fromBe_be {k n : Nat} (h : n < 256 ^ k) : fromBe (be k n) = n := by
  rw [fromBe, be, List.reverse_reverse, fromLe_le h]

theorem fromLe_lt : ∀ bs : List UInt8, fromLe bs < 256 ^ bs.length
  | [] => Nat.one_pos
  | b :: bs => by
    have hb := b.toNat_lt
    have hbs := fromLe_lt bs
    rw [fromLe, List.length_cons, Nat.pow_succ]
    omega

/-! ## Slices -/

section
variable {α : Type*}

def slice (xs : List α) (i j : Nat) : List α := (xs.take j).drop i

theorem getElem?_slice (xs : List α) (i j k : Nat) :
    (slice xs i j)[k]? = if i + k < j then xs[i + k]? else none := by
  rw [slice, List.getElem?_drop, List.getElem?_take]

theorem length_slice {xs : List α} {i n : Nat} (h : i + n ≤ xs.length) : (slice xs i (i + n)).length = n := by
  rw [slice, List.length_drop, List.length_take, Nat.min_eq_left h, Nat.add_sub_cancel_left]

/-- Where an end of a slice falls in a list of `len`. -/
def sliceIndex (len : Nat) (i : Int) : Nat := if i < 0 then (i + len).toNat else min i.toNat len

def assignSlice (xs : List α) (i j : Int) (ys : List α) : List α :=
  let start := sliceIndex xs.length i
  let stop := max start (sliceIndex xs.length j)
  xs.take start ++ ys ++ xs.drop stop

theorem assignSlice_nil (xs : List α) (i : Int) : assignSlice xs i i [] = xs := by
  rw [assignSlice, Nat.max_self, List.append_nil, List.take_append_drop]

theorem assignSlice_inside {xs ys : List α} {i : Nat} (h : i + ys.length ≤ xs.length) :
    assignSlice xs i (i + ys.length : Nat) ys = xs.take i ++ ys ++ xs.drop (i + ys.length) := by
  have hindex : ∀ k : Nat, k ≤ xs.length → sliceIndex xs.length k = k := by
    intro k hk
    rw [sliceIndex, if_neg (Int.not_lt.mpr (Int.natCast_nonneg k)), Int.toNat_natCast, Nat.min_eq_left hk]
  rw [assignSlice, hindex i (by omega), hindex _ h, Nat.max_eq_right (Nat.le_add_right i _)]

theorem length_assignSlice {xs ys : List α} {i : Nat} (h : i + ys.length ≤ xs.length) :
    (assignSlice xs i (i + ys.length : Nat) ys).length = xs.length := by
  rw [assignSlice_inside h, List.length_append, List.length_append, List.length_take, List.length_drop]
  omega

theorem getElem?_assignSlice {xs ys : List α} {i : Nat} (h : i + ys.length ≤ xs.length) (k : Nat) :
    (assignSlice xs i (i + ys.length : Nat) ys)[k]? =
      if i ≤ k ∧ k < i + ys.length then ys[k - i]? else xs[k]? := by
  have htake : (xs.take i).length = i := List.length_take_of_le (by omega)
  rw [assignSlice_inside h, List.append_assoc, List.getElem?_append, htake]
  by_cases hlo : k < i
  · rw [if_pos hlo, if_neg (by omega), List.getElem?_take_of_lt hlo]
  · rw [if_neg hlo, List.getElem?_append]
    by_cases hhi : k < i + ys.length
    · rw [if_pos (by omega), if_pos (by omega)]
    · rw [if_neg (by omega), if_neg (by omega), List.getElem?_drop]
      congr 1
      omega

/-! ## Pieces of one size -/

/-- The full pieces of `n` items. -/
def chunks (n : Nat) (xs : List α) : List (List α) :=
  (List.range (xs.length / n)).map fun k => slice xs (n * k) (n * k + n)

theorem slice_append {b : List α} (xs : List α) {n : Nat} (hb : b.length = n) (i j : Nat) :
    slice (b ++ xs) (n + i) (n + j) = slice xs i j := by
  rw [slice, slice, ← hb, List.take_length_add_append, List.drop_length_add_append]

theorem slice_head {b : List α} (xs : List α) {n : Nat} (hb : b.length = n) : slice (b ++ xs) 0 n = b := by
  rw [slice, List.take_left' hb, List.drop_zero]

theorem chunks_append {n : Nat} (hn : 0 < n) {b : List α} (hb : b.length = n) (xs : List α) :
    chunks n (b ++ xs) = b :: chunks n xs := by
  have hcount : (b ++ xs).length / n = xs.length / n + 1 := by
    rw [List.length_append, hb, Nat.add_comm, Nat.add_div_right _ hn]
  have hlater : ∀ k, slice (b ++ xs) (n * (k + 1)) (n * (k + 1) + n) = slice xs (n * k) (n * k + n) := by
    intro k
    calc slice (b ++ xs) (n * (k + 1)) (n * (k + 1) + n)
        = slice (b ++ xs) (n + n * k) (n + (n * k + n)) := by
          rw [Nat.mul_succ, Nat.add_comm (n * k) n, Nat.add_assoc, Nat.add_comm n (n * k)]
      _ = slice xs (n * k) (n * k + n) := slice_append xs hb _ _
  rw [chunks, hcount, List.range_succ_eq_map, List.map_cons, List.map_map, chunks]
  congr 1
  · rw [Nat.mul_zero, Nat.zero_add]
    exact slice_head xs hb
  · exact List.map_congr_left fun k _ => hlater k

theorem chunks_flatten {n : Nat} (hn : 0 < n) : ∀ {bs : List (List α)}, (∀ b ∈ bs, b.length = n) →
    chunks n bs.flatten = bs
  | [], _ => by
    rw [List.flatten_nil, chunks, List.length_nil, Nat.zero_div]
    rfl
  | b :: bs, h => by
    rw [List.flatten_cons, chunks_append hn (h b List.mem_cons_self),
      chunks_flatten hn fun c hc => h c (List.mem_cons_of_mem b hc)]

end

end Pack

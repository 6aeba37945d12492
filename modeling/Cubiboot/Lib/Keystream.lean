import Mathlib.Data.List.Basic
import Mathlib.Logic.Function.Iterate

/-
  Loops with a condition, and data that is masked by a generator of key bytes.

  `whileDo cond body fuel s` is the loop from `s`, cut off after `fuel` passes.
  `pass next` is the body of a loop that lets a generator go on: now and then the
  generator hands over a key byte, which is put on the data by exclusive or, and the
  index moves on.

  The rules:
    1. `whileDo_sim` — two loops whose bodies keep a relation end in related states.
    2. `whileDo_iterate` — as long as the condition holds, a loop is its body
       iterated; `whileDo_over` — what is over stays as it is.
    3. `scan_eq` — a generator that hands over every `n`th time masks the data with
       one key byte after the other, in `n` passes a byte; no fewer end it.
    4. `mask_mask`, `mask_drop` — masking twice, and from a place on.
-/

set_option autoImplicit false

namespace Keystream

/-! ## Loops -/

section
variable {σ τ : Type*}

def whileDo (cond : σ → Bool) (body : σ → σ) : Nat → σ → σ
  | 0, s => s
  | fuel + 1, s => if cond s then whileDo cond body fuel (body s) else s

variable {cond : σ → Bool} {body : σ → σ}

theorem whileDo_over {s : σ} (h : cond s = false) (fuel : Nat) : whileDo cond body fuel s = s := by
  cases fuel with
  | zero => rfl
  | succ fuel => rw [whileDo, h, if_neg Bool.false_ne_true]

/-- The condition holds before each of the first `n` passes. -/
theorem whileDo_iterate : ∀ (n : Nat) {s : σ}, (∀ k < n, cond (body^[k] s) = true) → ∀ fuel,
    whileDo cond body (n + fuel) s = whileDo cond body fuel (body^[n] s)
  | 0, s, _, fuel => by rw [Nat.zero_add, Function.iterate_zero, id]
  | n + 1, s, h, fuel => by
    have hs : cond s = true := h 0 (Nat.succ_pos n)
    have hrest : ∀ k < n, cond (body^[k] (body s)) = true := fun k hk => h (k + 1) (Nat.succ_lt_succ hk)
    rw [Nat.succ_add, whileDo, if_pos hs, whileDo_iterate n hrest, Function.iterate_succ_apply]

theorem whileDo_sim {cond' : τ → Bool} {body' : τ → τ} {R : σ → τ → Prop}
    (hcond : ∀ s t, R s t → cond s = cond' t) (hbody : ∀ s t, R s t → cond s = true → R (body s) (body' t)) :
    ∀ (fuel : Nat) (s : σ) (t : τ), R s t → R (whileDo cond body fuel s) (whileDo cond' body' fuel t)
  | 0, _, _, h => h
  | fuel + 1, s, t, h => by
    rw [whileDo, whileDo, ← hcond s t h]
    cases hs : cond s with
    | false => exact h
    | true => exact whileDo_sim hcond hbody fuel (body s) (body' t) (hbody s t h hs)

end

/-! ## Masks -/

def mask (key : Nat → UInt8) (data : List UInt8) : List UInt8 := data.mapIdx fun i b => b ^^^ key i

section
variable (key : Nat → UInt8)

@[simp] theorem length_mask (data : List UInt8) : (mask key data).length = data.length :=
  List.length_mapIdx

theorem getElem?_mask (data : List UInt8) (i : Nat) : (mask key data)[i]? = data[i]?.map (· ^^^ key i) :=
  List.getElem?_mapIdx

theorem mask_mask (data : List UInt8) : mask key (mask key data) = data := by
  apply List.ext_getElem?
  intro i
  rw [getElem?_mask, getElem?_mask]
  cases data[i]? with
  | none => rfl
  | some b =>
    show some (b ^^^ key i ^^^ key i) = some b
    rw [UInt8.xor_assoc, UInt8.xor_self, UInt8.xor_zero]

/-- From the `n`th byte on, it is the mask of the later keys. -/
theorem mask_drop (n : Nat) (data : List UInt8) :
    (mask key data).drop n = mask (fun i => key (n + i)) (data.drop n) := by
  apply List.ext_getElem?
  intro i
  rw [List.getElem?_drop, getElem?_mask, getElem?_mask, List.getElem?_drop]

/-- The first `m` bytes masked, the others as they are. -/
def maskTo (m : Nat) (data : List UInt8) : List UInt8 := mask key (data.take m) ++ data.drop m

theorem maskTo_length (data : List UInt8) : maskTo key data.length data = mask key data := by
  rw [maskTo, List.take_length, List.drop_length, List.append_nil]

theorem getElem?_maskTo (m : Nat) (data : List UInt8) (i : Nat) :
    (maskTo key m data)[i]? = if i < m then data[i]?.map (· ^^^ key i) else data[i]? := by
  rw [maskTo, List.getElem?_append, length_mask, List.length_take, getElem?_mask, List.getElem?_drop]
  by_cases him : i < m
  · by_cases hil : i < data.length
    · rw [if_pos (by omega), if_pos him, List.getElem?_take_of_lt him]
    · rw [if_neg (by omega), if_pos him, List.getElem?_eq_none (by omega), List.getElem?_eq_none (by omega)]
      rfl
  · rw [if_neg (by omega), if_neg him]
    by_cases hml : m ≤ data.length
    · rw [Nat.min_eq_left hml, Nat.add_sub_cancel' (by omega)]
    · rw [List.getElem?_eq_none (by omega), List.getElem?_eq_none (by omega)]

theorem maskTo_succ (m : Nat) (data : List UInt8) :
    maskTo key (m + 1) data = (maskTo key m data).modify m (· ^^^ key m) := by
  apply List.ext_getElem?
  intro i
  rw [List.getElem?_modify, getElem?_maskTo, getElem?_maskTo]
  rcases Nat.lt_trichotomy i m with h | rfl | h
  · rw [if_pos (by omega), if_pos h]
    simp [Nat.ne_of_gt h]
  · rw [if_pos (by omega), if_neg (Nat.lt_irrefl i)]
    simp
  · rw [if_neg (by omega), if_neg (by omega)]
    simp [Nat.ne_of_lt h]

end

/-! ## Generators -/

section
variable {ρ : Type*}

/-- The generator, the index of the byte that is next, and the data. -/
structure Scan (ρ : Type*) where
  regs : ρ
  it : Nat
  data : List UInt8

variable (next : ρ → ρ × Option UInt8)

def pass (s : Scan ρ) : Scan ρ :=
  match next s.regs with
  | (r, none) => { s with regs := r }
  | (r, some k) => { regs := r, it := s.it + 1, data := s.data.modify s.it (· ^^^ k) }

/-- The generator after so many passes. -/
def after (r : ρ) (k : Nat) : ρ := (fun r => (next r).1)^[k] r

/-- From `r` on, a byte is handed over every `n`th time. -/
def Paced (n : Nat) (r : ρ) : Prop := ∀ k, ((next (after next r k)).2).isSome = decide ((k + 1) % n = 0)

def keyAt (n : Nat) (r : ρ) (i : Nat) : UInt8 := ((next (after next r (n * i + (n - 1)))).2).getD 0

variable {next} {n : Nat} {r : ρ}

theorem after_succ (k : Nat) : after next r (k + 1) = (next (after next r k)).1 :=
  Function.iterate_succ_apply' _ _ _

/-- Handed over or not, as the number of the pass says. -/
theorem Paced.handed (h : Paced next n r) (k : Nat) : (next (after next r k)).2 =
    if (k + 1) % n = 0 then some (keyAt next n r (k / n)) else none := by
  have hk := h k
  split
  next hn =>
    rw [decide_eq_true hn] at hk
    obtain ⟨b, hb⟩ := Option.isSome_iff_exists.mp hk
    have hn0 : 0 < n := by
      rcases Nat.eq_zero_or_pos n with rfl | h0
      · rw [Nat.mod_zero] at hn
        exact absurd hn (Nat.succ_ne_zero k)
      · exact h0
    have hlast : n * (k / n) + (n - 1) = k := by
      have hd := Nat.div_add_mod k n
      have hm := Nat.mod_lt k hn0
      have hs : (k % n + 1) % n = 0 := by rwa [Nat.mod_add_mod]
      have : k % n = n - 1 := by
        by_contra hne
        rw [Nat.mod_eq_of_lt (by omega)] at hs
        exact absurd hs (Nat.succ_ne_zero _)
      omega
    rw [keyAt, hlast, hb, Option.getD_some]
  next hn =>
    rw [decide_eq_false hn] at hk
    exact Option.not_isSome_iff_eq_none.mp (by rw [hk]; exact Bool.false_ne_true)

theorem iterate_pass (h : Paced next n r) (data : List UInt8) (k : Nat) :
    (pass next)^[k] ⟨r, 0, data⟩ = ⟨after next r k, k / n, maskTo (keyAt next n r) (k / n) data⟩ := by
  induction k with
  | zero => rw [Nat.zero_div]; rfl
  | succ k ih =>
    have hnext : next (after next r k) = (after next r (k + 1),
        if (k + 1) % n = 0 then some (keyAt next n r (k / n)) else none) :=
      Prod.ext (after_succ k).symm (h.handed k)
    rw [Function.iterate_succ_apply', ih, pass, hnext, Nat.succ_div]
    by_cases hn : (k + 1) % n = 0
    · rw [if_pos hn, if_pos (Nat.dvd_of_mod_eq_zero hn), maskTo_succ]
    · rw [if_neg hn, if_neg fun hd => hn (Nat.mod_eq_zero_of_dvd hd)]
      rfl

/-- The loop up to a size, over when it has made `n` passes for each byte. -/
theorem scan_eq (h : Paced next n r) (hn : 0 < n) (data : List UInt8) (size fuel : Nat) :
    whileDo (fun s => decide (s.it < size)) (pass next) (n * size + fuel) ⟨r, 0, data⟩ =
      ⟨after next r (n * size), size, maskTo (keyAt next n r) size data⟩ := by
  have hpasses : (pass next)^[n * size] ⟨r, 0, data⟩ =
      ⟨after next r (n * size), size, maskTo (keyAt next n r) size data⟩ := by
    rw [iterate_pass h, Nat.mul_div_cancel_left size hn]
  rw [whileDo_iterate, hpasses]
  · apply whileDo_over
    exact decide_eq_false (Nat.lt_irrefl size)
  · intro k hk
    rw [iterate_pass h]
    exact decide_eq_true (Nat.div_lt_of_lt_mul hk)

end

end Keystream

import Cubiboot.Lib.Keystream
import Mathlib.Data.Nat.Bitwise

/-
  The BS2 scrambler, three times: `scramble` of `make_picoboot_uf2.py` and of
  `iplscramble.py`, which are the same text, over Python's integers, and `Descrambler`
  of `descrambler.c`, over the C types.

  Each pass of the loop shifts the registers `t`, `u` and `v` and puts one bit into
  `acc`; every eighth pass XORs `acc` into the byte at `it`. A `bytearray`'s bytes are
  `UInt8`, and so are C's; the integers of the C loop (`t0` and so on) are 0 or 1.

  What is proved:
    1. `toNat_shift` — a pass of the C registers is a pass of Python's.
    2. `scramble_eq` — `8 * len(data)` passes end the loop, and what it has done is to
       mask the data with the key bytes `bs2Key`, whatever the data is.
    3. `descrambler_eq` — the C loop does the same to the first `size` bytes, and ends there.

  Correspondence (Python ↔ Lean):
    `scramble`, of either script              ↔ `Picoboot.scramble`, `Iplscramble.scramble`
    its loop, a pass of it                    ↔ `scrambleLoop`, `scrambleBody`, `scrambleShift`
  Correspondence (C ↔ Lean):
    `Descrambler`, its loop, a pass of it     ↔ `descrambler`, `descramblerLoop`, `descramblerBody`,
                                                `descramblerShift`
-/

set_option autoImplicit false

namespace Cubiboot

/-! ## Python -/

structure ScrambleRegs where
  acc : Nat
  nacc : Nat
  t : Nat
  u : Nat
  v : Nat
  x : Nat
  deriving DecidableEq

def scrambleStart : ScrambleRegs where
  acc := 0
  nacc := 0
  t := 0x2953
  u := 0xD9C2
  v := 0x3FF1
  x := 1

/-- The loop's body, up to `if nacc == 8`. -/
def scrambleShift (r : ScrambleRegs) : ScrambleRegs :=
  let t0 := r.t &&& 1
  let t1 := (r.t >>> 1) &&& 1
  let u0 := r.u &&& 1
  let u1 := (r.u >>> 1) &&& 1
  let v0 := r.v &&& 1
  let x := r.x ^^^ (t1 ^^^ v0)
  let x := x ^^^ (u0 ||| u1)
  let x := x ^^^ ((t0 ^^^ u1 ^^^ v0) &&& (t0 ^^^ u0))
  let v := if t0 = u0 then (if v0 ≠ 0 then (r.v >>> 1) ^^^ 0xB3D0 else r.v >>> 1) else r.v
  let u := if t0 = 0 then (if u0 ≠ 0 then (r.u >>> 1) ^^^ 0xFB10 else r.u >>> 1) else r.u
  let t := if t0 ≠ 0 then (r.t >>> 1) ^^^ 0xA740 else r.t >>> 1
  { acc := (r.acc * 2 + x) % 256, nacc := (r.nacc + 1) % 256, t, u, v, x }

/-- The body of `while it < len(data)`. -/
def scrambleBody (s : Keystream.Scan ScrambleRegs) : Keystream.Scan ScrambleRegs :=
  let r := scrambleShift s.regs
  if r.nacc = 8 then
    { regs := { r with nacc := 0 }, it := s.it + 1
      data := s.data.modify s.it fun b => UInt8.ofNat (b.toNat ^^^ r.acc) }
  else { s with regs := r }

/-- The loop, given eight passes for each byte. -/
def scrambleLoop (data : List UInt8) : Keystream.Scan ScrambleRegs :=
  Keystream.whileDo (fun s => decide (s.it < s.data.length)) scrambleBody (8 * data.length)
    ⟨scrambleStart, 0, data⟩

namespace Picoboot

def scramble (data : List UInt8) : List UInt8 := (scrambleLoop data).data

end Picoboot

namespace Iplscramble

def scramble (data : List UInt8) : List UInt8 := (scrambleLoop data).data

end Iplscramble

/-! ## C -/

structure DescramblerRegs where
  acc : UInt8
  nacc : UInt8
  t : UInt16
  u : UInt16
  v : UInt16
  x : UInt8
  deriving DecidableEq

def descramblerStart : DescramblerRegs where
  acc := 0
  nacc := 0
  t := 0x2953
  u := 0xd9c2
  v := 0x3ff1
  x := 1

/-- The loop's body, up to `if (nacc == 8)`; `int`s are natural numbers here, and what
is stored in an `unsigned char` is cut to it. -/
def descramblerShift (r : DescramblerRegs) : DescramblerRegs :=
  let t0 := (r.t &&& 1).toNat
  let t1 := ((r.t >>> 1) &&& 1).toNat
  let u0 := (r.u &&& 1).toNat
  let u1 := ((r.u >>> 1) &&& 1).toNat
  let v0 := (r.v &&& 1).toNat
  let x := UInt8.ofNat (r.x.toNat ^^^ (t1 ^^^ v0))
  let x := UInt8.ofNat (x.toNat ^^^ (u0 ||| u1))
  let x := UInt8.ofNat (x.toNat ^^^ ((t0 ^^^ u1 ^^^ v0) &&& (t0 ^^^ u0)))
  let v := if t0 = u0 then (if v0 ≠ 0 then (r.v >>> 1) ^^^ 0xb3d0 else r.v >>> 1) else r.v
  let u := if t0 = 0 then (if u0 ≠ 0 then (r.u >>> 1) ^^^ 0xfb10 else r.u >>> 1) else r.u
  let t := if t0 ≠ 0 then (r.t >>> 1) ^^^ 0xa740 else r.t >>> 1
  { acc := UInt8.ofNat (2 * r.acc.toNat + x.toNat), nacc := r.nacc + 1, t, u, v, x }

structure DescramblerLoop where
  regs : DescramblerRegs
  it : UInt32
  data : List UInt8

/-- The body of `for (it = 0; it < size; )`. -/
def descramblerBody (s : DescramblerLoop) : DescramblerLoop :=
  let r := descramblerShift s.regs
  if r.nacc = 8 then
    { regs := { r with nacc := 0 }, it := s.it + 1, data := s.data.modify s.it.toNat (· ^^^ r.acc) }
  else { s with regs := r }

/-- The loop, given eight passes for each byte. -/
def descramblerLoop (data : List UInt8) (size : UInt32) : DescramblerLoop :=
  Keystream.whileDo (fun s => decide (s.it < size)) descramblerBody (8 * size.toNat) ⟨descramblerStart, 0, data⟩

/-- What `Descrambler(data, size)` leaves in the buffer. -/
def descrambler (data : List UInt8) (size : UInt32) : List UInt8 := (descramblerLoop data size).data

/-! ## The key bytes -/

/-- A pass of the registers, and the byte that is XORed in if it is an eighth one. -/
def scrambleNext (r : ScrambleRegs) : ScrambleRegs × Option UInt8 :=
  let r := scrambleShift r
  if r.nacc = 8 then ({ r with nacc := 0 }, some (UInt8.ofNat r.acc)) else (r, none)

def bs2Key (i : Nat) : UInt8 := Keystream.keyAt scrambleNext 8 scrambleStart i

theorem ofNat_xor (b : UInt8) (n : Nat) : UInt8.ofNat (b.toNat ^^^ n) = b ^^^ UInt8.ofNat n := by
  apply UInt8.toNat_inj.mp
  rw [UInt8.toNat_ofNat', UInt8.toNat_xor, UInt8.toNat_ofNat', Nat.xor_mod_two_pow, Nat.mod_eq_of_lt b.toNat_lt]

theorem scrambleBody_eq (s : Keystream.Scan ScrambleRegs) : scrambleBody s = Keystream.pass scrambleNext s := by
  have hxor : ∀ n, (fun b : UInt8 => UInt8.ofNat (b.toNat ^^^ n)) = (· ^^^ UInt8.ofNat n) :=
    fun n => funext fun b => ofNat_xor b n
  rw [scrambleBody, Keystream.pass, scrambleNext]
  by_cases h : (scrambleShift s.regs).nacc = 8
  · rw [if_pos h, if_pos h, hxor]
  · rw [if_neg h, if_neg h]

theorem scrambleNext_nacc (r : ScrambleRegs) (h : r.nacc < 8) :
    (scrambleNext r).1.nacc = (r.nacc + 1) % 8 ∧
      ((scrambleNext r).2).isSome = decide ((r.nacc + 1) % 8 = 0) := by
  have hshift : (scrambleShift r).nacc = r.nacc + 1 := Nat.mod_eq_of_lt (by omega)
  rw [scrambleNext]
  by_cases h8 : r.nacc + 1 = 8
  · rw [if_pos (hshift.trans h8), h8]
    exact ⟨rfl, rfl⟩
  · rw [if_neg (by rwa [hshift]), Nat.mod_eq_of_lt (by omega)]
    exact ⟨hshift, (decide_eq_false (Nat.succ_ne_zero _)).symm⟩

/-- The first pass finds `nacc` 0, and so every eighth one completes a byte. -/
theorem scrambleNext_paced : Keystream.Paced scrambleNext 8 scrambleStart := by
  have hnacc : ∀ k, (Keystream.after scrambleNext scrambleStart k).nacc = k % 8 := by
    intro k
    induction k with
    | zero => rfl
    | succ k ih =>
      rw [Keystream.after_succ, (scrambleNext_nacc _ (by rw [ih]; omega)).1, ih, Nat.mod_add_mod]
  intro k
  rw [(scrambleNext_nacc _ (by rw [hnacc]; omega)).2, hnacc, Nat.mod_add_mod]

/-! ## The three loops -/

/-- The loop has ended by then: the index has reached the length. -/
theorem scrambleLoop_eq (data : List UInt8) : scrambleLoop data =
    ⟨Keystream.after scrambleNext scrambleStart (8 * data.length), data.length, Keystream.mask bs2Key data⟩ := by
  let R (s t : Keystream.Scan ScrambleRegs) : Prop := s = t ∧ s.data.length = data.length
  have hsim : R (scrambleLoop data) (Keystream.whileDo (fun s => decide (s.it < data.length))
      (Keystream.pass scrambleNext) (8 * data.length) ⟨scrambleStart, 0, data⟩) := by
    apply Keystream.whileDo_sim
    · rintro s t ⟨rfl, hlen⟩
      rw [hlen]
    · rintro s t ⟨rfl, hlen⟩ -
      refine ⟨scrambleBody_eq s, ?_⟩
      rw [scrambleBody]
      split
      · rw [List.length_modify, hlen]
      · exact hlen
    · exact ⟨rfl, rfl⟩
  calc scrambleLoop data = _ := hsim.1
    _ = _ := Keystream.scan_eq scrambleNext_paced (by decide) data data.length 0
    _ = _ := by rw [Keystream.maskTo_length]; rfl

theorem scramble_eq (data : List UInt8) : Picoboot.scramble data = Keystream.mask bs2Key data := by
  rw [Picoboot.scramble, scrambleLoop_eq]

def DescramblerRegs.toNat (r : DescramblerRegs) : ScrambleRegs :=
  ⟨r.acc.toNat, r.nacc.toNat, r.t.toNat, r.u.toNat, r.v.toNat, r.x.toNat⟩

theorem and_one_lt (n : Nat) : n &&& 1 < 2 ^ 1 := Nat.and_lt_two_pow n (by decide)

/-- An `unsigned char` takes all of what a bit makes of it. -/
theorem toNat_xor_bit (x : UInt8) {b : Nat} (hb : b < 2 ^ 1) :
    (UInt8.ofNat (x.toNat ^^^ b)).toNat = x.toNat ^^^ b := by
  rw [UInt8.toNat_ofNat']
  apply Nat.mod_eq_of_lt
  exact Nat.xor_lt_two_pow x.toNat_lt (hb.trans (by decide))

theorem toNat_shift (r : DescramblerRegs) : (descramblerShift r).toNat = scrambleShift r.toNat := by
  have hand : ∀ n : UInt16, (n &&& 1).toNat = n.toNat &&& 1 := fun n => UInt16.toNat_and n 1
  have hshr : ∀ n : UInt16, (n >>> 1).toNat = n.toNat >>> 1 := fun n => UInt16.toNat_shiftRight n 1
  have hxor : ∀ m n : UInt16, (m ^^^ n).toNat = m.toNat ^^^ n.toNat := UInt16.toNat_xor
  have hif : ∀ (c : Prop) [Decidable c] (m n : UInt16),
      (if c then m else n).toNat = if c then m.toNat else n.toNat := fun c _ m n => apply_ite UInt16.toNat c m n
  have hx1 : ∀ a b : Nat, (a &&& 1) ^^^ (b &&& 1) < 2 ^ 1 := fun a b =>
    Nat.xor_lt_two_pow (and_one_lt a) (and_one_lt b)
  have hx2 : ∀ a b : Nat, (a &&& 1) ||| (b &&& 1) < 2 ^ 1 := fun a b =>
    Nat.or_lt_two_pow (and_one_lt a) (and_one_lt b)
  have hx3 : ∀ a b c d e : Nat, ((a &&& 1) ^^^ (b &&& 1) ^^^ (c &&& 1)) &&& ((d &&& 1) ^^^ (e &&& 1)) < 2 ^ 1 :=
    fun a b c d e => Nat.and_lt_two_pow _ (hx1 d e)
  simp only [descramblerShift, scrambleShift, DescramblerRegs.toNat, hand, hshr]
  rw [toNat_xor_bit _ (hx3 _ _ _ _ _), toNat_xor_bit _ (hx2 _ _), toNat_xor_bit _ (hx1 _ _)]
  rw [ScrambleRegs.mk.injEq]
  refine ⟨?_, ?_, ?_, ?_, ?_, rfl⟩
  · rw [UInt8.toNat_ofNat', Nat.mul_comm]
  · rw [UInt8.toNat_add]
    rfl
  · rw [hif, hxor, hshr]
    rfl
  · rw [hif, hif, hxor, hshr]
    rfl
  · rw [hif, hif, hxor, hshr]
    rfl

/-- The C loop is where the other one is. -/
structure DescramblerLoop.At (s : DescramblerLoop) (t : Keystream.Scan ScrambleRegs) : Prop where
  regs : s.regs.toNat = t.regs
  it : s.it.toNat = t.it
  data : s.data = t.data

/-- A pass of the C loop, short of the last index, is a pass of the other. -/
theorem descramblerBody_at {size : UInt32} {s : DescramblerLoop} {t : Keystream.Scan ScrambleRegs} (h : s.At t)
    (hlt : s.it < size) : (descramblerBody s).At (Keystream.pass scrambleNext t) := by
  obtain ⟨regs, it, buf⟩ := s
  obtain ⟨_, _, _⟩ := t
  obtain ⟨rfl, rfl, rfl⟩ := h
  have hit : (it + 1).toNat = it.toNat + 1 := by
    have hlt : it.toNat < size.toNat := UInt32.lt_iff_toNat_lt.mp hlt
    have := size.toNat_lt
    rw [UInt32.toNat_add]
    exact Nat.mod_eq_of_lt (show it.toNat + 1 < 2 ^ 32 by omega)
  have hdata : (fun b : UInt8 => b ^^^ (descramblerShift regs).acc) =
      (· ^^^ UInt8.ofNat (descramblerShift regs).toNat.acc) :=
    funext fun b => congrArg (b ^^^ ·) UInt8.ofNat_toNat.symm
  have hnacc : (descramblerShift regs).toNat.nacc = 8 ↔ (descramblerShift regs).nacc = 8 :=
    UInt8.toNat_inj (b := 8)
  rw [descramblerBody, Keystream.pass, scrambleNext, ← toNat_shift]
  by_cases h : (descramblerShift regs).nacc = 8
  · rw [if_pos h, if_pos (hnacc.mpr h)]
    exact ⟨rfl, hit, congrArg (buf.modify it.toNat) hdata⟩
  · rw [if_neg h, if_neg (mt hnacc.mp h)]
    exact ⟨rfl, rfl, rfl⟩

/-- It ends at `size`, and has masked the bytes up to there. -/
theorem descramblerLoop_eq (data : List UInt8) (size : UInt32) : (descramblerLoop data size).it = size ∧
    (descramblerLoop data size).data = Keystream.maskTo bs2Key size.toNat data := by
  have hsim : (descramblerLoop data size).At (Keystream.whileDo (fun s => decide (s.it < size.toNat))
      (Keystream.pass scrambleNext) (8 * size.toNat) ⟨scrambleStart, 0, data⟩) := by
    apply Keystream.whileDo_sim
    · intro s t hat
      rw [← hat.it]
      exact decide_eq_decide.mpr UInt32.lt_iff_toNat_lt
    · exact fun s t hat hlt => descramblerBody_at hat (of_decide_eq_true hlt)
    · exact ⟨rfl, rfl, rfl⟩
  rw [← Nat.add_zero (8 * size.toNat), Keystream.scan_eq scrambleNext_paced (by decide)] at hsim
  exact ⟨UInt32.toNat_inj.mp hsim.it, hsim.data⟩

/-- The first `size` bytes are scrambled. -/
theorem descrambler_eq (data : List UInt8) (size : UInt32) :
    descrambler data size = Picoboot.scramble (data.take size.toNat) ++ data.drop size.toNat := by
  rw [descrambler, (descramblerLoop_eq data size).2, Keystream.maskTo, scramble_eq]

/-- What comes after primed bytes is masked with the later keys. -/
theorem scramble_primed (n : Nat) (data : List UInt8) : (Picoboot.scramble (List.replicate n 0 ++ data)).drop n =
    Keystream.mask (fun i => bs2Key (n + i)) data := by
  rw [scramble_eq, Keystream.mask_drop, List.drop_left' List.length_replicate]

end Cubiboot

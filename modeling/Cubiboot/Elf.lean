import Cubiboot.Dol
import Cubiboot.FileLayer
import Cubiboot.Lib.Overlay

/-
  The patches' symbol table as cubeboot reads it (`elf.c`), and what it writes
  through it: big-endian words and C strings.

  A symbol is found by its name, and the last symbol of a name counts. What
  `getSymbolValue` returns is 0 both where there is none and where its value is 0.

  What is proved:
    1. `storeU32_lay`, `strcpyMem_lay` — each store is one write laid over memory.
    2. `readU32_eq_iff` — a word reads back as a value if its four bytes are the value's.

  Correspondence (C ↔ Lean):
    `Elf32_Sym` (`st_name`, `st_value`)      ↔ `ElfSym`
    `symshdr`, `syment` and `symstringdata`  ↔ `SymTab`
    `get_symbol_value`, `set_patch_value`    ↔ `SymTab.getSymbolValue`, `SymTab.setPatchValue`
    `strcpy` to an address                   ↔ `strcpyMem`
-/

set_option autoImplicit false

namespace Cubiboot

open Overlay

structure ElfSym where
  stName : UInt32
  stValue : UInt32
  deriving DecidableEq

structure SymTab where
  syms : List ElfSym
  strings : List UInt8

/-- `symstringdata + st_name`, up to its NUL. -/
def SymTab.nameOf (tab : SymTab) (s : ElfSym) : Path := (tab.strings.drop s.stName.toNat).takeWhile (· ≠ 0)

def SymTab.getSymbolValue (tab : SymTab) (symName : Path) : UInt32 :=
  tab.syms.foldl
    (fun value s => if s.stName = 0 then value else if tab.nameOf s = symName then s.stValue else value) 0

/-- The byte of a word at each distance from its address. -/
def beByte (v : UInt32) (k : Nat) : UInt8 := UInt8.ofNat (v.toNat / 256 ^ (3 - k))

def storeU32 (m : DolMem) (p v : UInt32) : DolMem := fun a =>
  if (a - p).toNat < 4 then beByte v (a - p).toNat else m a

def readU32 (m : DolMem) (p : UInt32) : UInt32 :=
  UInt32.ofNat ((((m p).toNat * 256 + (m (p + 1)).toNat) * 256 + (m (p + 2)).toNat) * 256 + (m (p + 3)).toNat)

def SymTab.setPatchValue (tab : SymTab) (m : DolMem) (symName : Path) (value : UInt32) : DolMem :=
  let ptr := tab.getSymbolValue symName
  if ptr ≠ 0 then storeU32 m ptr value else m

def zeroMem : DolMem := fun _ => 0

def strcpyMem (m : DolMem) (dst : UInt32) : Path → DolMem
  | [] => Function.update m dst 0
  | c :: s => strcpyMem (Function.update m dst c) (dst + 1) s

/-! ## As writes -/

/-- So many bytes from `p` on. -/
def spanWrite (p : UInt32) (n : Nat) (byte : Nat → UInt8) : UInt32 → Option UInt8 := fun a =>
  if (a - p).toNat < n then some (byte (a - p).toNat) else none

theorem spanWrite_eq_none {p a : UInt32} {n : Nat} {byte : Nat → UInt8} :
    spanWrite p n byte a = none ↔ ¬ (a - p).toNat < n := by
  rw [spanWrite]
  split <;> simp [*]

theorem spanWrite_of_lt {p a : UInt32} {n : Nat} {byte : Nat → UInt8} (h : (a - p).toNat < n) :
    spanWrite p n byte a = some (byte (a - p).toNat) :=
  if_pos h

theorem storeU32_lay (m : DolMem) (p v : UInt32) : storeU32 m p v = lay m (spanWrite p 4 (beByte v)) := by
  funext a
  rw [storeU32, lay, spanWrite]
  split <;> rfl

/-- The byte of a C string at each index, its NUL included. -/
def cbyte (s : Path) (i : Nat) : UInt8 := s.getD i 0

theorem strcpyMem_lay : ∀ (s : Path) (m : DolMem) (dst : UInt32), s.length < 4294967295 →
    strcpyMem m dst s = lay m (spanWrite dst (s.length + 1) (cbyte s))
  | [], m, dst, _ => by
    funext a
    rw [strcpyMem, lay, spanWrite]
    by_cases h : a = dst
    · rw [h, Function.update_self, if_pos (by rw [dist_zero.mpr rfl]; exact Nat.succ_pos _)]
      rfl
    · rw [Function.update_of_ne h, if_neg]
      · rfl
      · intro hlt
        exact h (dist_zero.mp (Nat.lt_one_iff.mp hlt))
  | c :: s, m, dst, hlen => by
    rw [List.length_cons] at hlen
    funext a
    rw [strcpyMem, strcpyMem_lay s _ _ (by omega), lay, lay, spanWrite, spanWrite, List.length_cons, dist_succ]
    by_cases h0 : (a - dst).toNat = 0
    · -- the character put in this round
      obtain rfl := dist_zero.mp h0
      rw [if_pos h0, if_neg (by omega), if_pos (by omega), h0, Option.getD_none, Function.update_self]
      rfl
    · have hne : a ≠ dst := fun he => h0 (dist_zero.mpr he)
      rw [if_neg h0, Function.update_of_ne hne]
      obtain ⟨k, hk⟩ : ∃ k, (a - dst).toNat = k + 1 := ⟨(a - dst).toNat - 1, by omega⟩
      rw [hk, Nat.add_sub_cancel]
      by_cases hlt : k < s.length + 1
      · rw [if_pos hlt, if_pos (by omega)]
        rfl
      · rw [if_neg hlt, if_neg (by omega)]

/-! ## Reading a word back -/

theorem dist_ofNat (p : UInt32) {k : Nat} (hk : k < 4294967296) : (p + UInt32.ofNat k - p).toNat = k := by
  rw [show p + UInt32.ofNat k - p = UInt32.ofNat k by grind, UInt32.toNat_ofNat']
  omega

theorem beByte_toNat (v : UInt32) (k : Nat) : (beByte v k).toNat = v.toNat / 256 ^ (3 - k) % 256 := by
  rw [beByte, UInt8.toNat_ofNat']

/-- The four addresses of a word. -/
theorem dist_lt_four {a p : UInt32} (h : (a - p).toNat < 4) :
    (a = p ∧ (a - p).toNat = 0) ∨ (a = p + 1 ∧ (a - p).toNat = 1) ∨
      (a = p + 2 ∧ (a - p).toNat = 2) ∨ (a = p + 3 ∧ (a - p).toNat = 3) := by
  have hback : a = p + UInt32.ofNat (a - p).toNat := by
    rw [UInt32.ofNat_toNat]
    grind
  generalize (a - p).toNat = k at h hback ⊢
  subst hback
  have hk : k = 0 ∨ k = 1 ∨ k = 2 ∨ k = 3 := by omega
  rcases hk with rfl | rfl | rfl | rfl
  · exact .inl ⟨UInt32.add_zero p, rfl⟩
  · exact .inr (.inl ⟨rfl, rfl⟩)
  · exact .inr (.inr (.inl ⟨rfl, rfl⟩))
  · exact .inr (.inr (.inr ⟨rfl, rfl⟩))

theorem readU32_eq_iff {m : DolMem} {p v : UInt32} :
    readU32 m p = v ↔ ∀ a, (a - p).toNat < 4 → m a = beByte v (a - p).toNat := by
  have hv := v.toNat_lt
  have h0 := (m p).toNat_lt
  have h1 := (m (p + 1)).toNat_lt
  have h2 := (m (p + 2)).toNat_lt
  have h3 := (m (p + 3)).toNat_lt
  rw [readU32, ← UInt32.toNat_inj, UInt32.toNat_ofNat']
  constructor
  · intro h a ha
    rw [← UInt8.toNat_inj, beByte_toNat]
    rcases dist_lt_four ha with ⟨rfl, hk⟩ | ⟨rfl, hk⟩ | ⟨rfl, hk⟩ | ⟨rfl, hk⟩ <;>
      simp only [hk, Nat.sub_zero, Nat.sub_self, Nat.reduceSub, Nat.reducePow, Nat.pow_zero, Nat.pow_one] <;> omega
  · intro h
    have hbyte : ∀ k, k < 4 → (m (p + UInt32.ofNat k)).toNat = v.toNat / 256 ^ (3 - k) % 256 := by
      intro k hk
      have hd := dist_ofNat p (show k < 4294967296 by omega)
      rw [h _ (by omega), hd, beByte_toNat]
    have e0 := hbyte 0 (by omega)
    have e1 : (m (p + 1)).toNat = _ := hbyte 1 (by omega)
    have e2 : (m (p + 2)).toNat = _ := hbyte 2 (by omega)
    have e3 : (m (p + 3)).toNat = _ := hbyte 3 (by omega)
    rw [show p + UInt32.ofNat 0 = p from UInt32.add_zero p] at e0
    rw [e0, e1, e2, e3]
    simp only [Nat.reduceSub, Nat.reducePow]
    omega

end Cubiboot

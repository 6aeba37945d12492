import Mathlib.Algebra.Ring.Nat
import Mathlib.Tactic.Common
import Mathlib.Data.List.Pairwise

/-
  The two DOL loaders: the entry stub's (`_main`, `entry/source/main.c`, with its
  `_memcpy` and the `_memset` of `start.S`) and the menu's (`load_dol`, `boot.c`).

  Memory is bytes at 32-bit addresses that wrap. The stub has the whole file in
  memory at `dolBuf`, right after itself; `load_dol` reads it section by section,
  and has the header in a buffer of its own.

  `_memset` stores words, `n / 4` of them, but at least one and then 2^32 of them
  as the count register wraps; and then bytes, `n % 8` of them, from the last word
  on. `memsetReach` says where that ends.

  What is proved:
    1. `stubMemcpy_eq`, `stubMemset_eq` — what the stub's loops write.
    2. `stubMain_eq`, `loadDol_eq` — what each loader leaves at every address.
    3. `dol_loaders_agree_iff` — both leave the image a DOL describes exactly when
       `BssHarmless`: the stub clears the BSS after it has copied the sections, and
       clears too little or too much.

  Correspondence (C ↔ Lean):
    `DOLHEADER`, one text or data section of it ↔ `DolHeader`, `DolSection`
    `_memcpy`, `_memset`                        ↔ `stubMemcpy`, `stubMemset`
    `_main` (from the header on)                ↔ `stubMain`
    `load_dol`, `dvd_read_data`                 ↔ `loadDol`, `dvdReadData`
-/

set_option autoImplicit false

namespace Cubiboot

abbrev DolMem := UInt32 → UInt8

structure DolSection where
  offset : UInt32
  address : UInt32
  length : UInt32
  deriving DecidableEq

structure DolHeader where
  text : Fin 7 → DolSection
  data : Fin 11 → DolSection
  bssAddress : UInt32
  bssLength : UInt32
  entryPoint : UInt32

/-- The sections in the order both loaders take them. -/
def DolHeader.sections (hdr : DolHeader) : List DolSection := List.ofFn hdr.text ++ List.ofFn hdr.data

/-! ## The entry stub -/

/-- `_memcpy`, `count` bytes. -/
def stubMemcpy (m : DolMem) (dst src : UInt32) : Nat → DolMem
  | 0 => m
  | count + 1 => stubMemcpy (Function.update m dst (m src)) (dst + 1) (src + 1) count

def storeWord (m : DolMem) (p : UInt32) : DolMem := fun a => if (a - p).toNat < 4 then 0 else m a

/-- `stwu r4,4(r3)` so many times, the word being 0. -/
def storeWords (m : DolMem) (r3 : UInt32) : Nat → DolMem × UInt32
  | 0 => (m, r3)
  | ctr + 1 => storeWords (storeWord m (r3 + 4)) (r3 + 4) ctr

/-- `stbu r4,1(r3)` so many times. -/
def storeBytes (m : DolMem) (r3 : UInt32) : Nat → DolMem
  | 0 => m
  | r6 + 1 => storeBytes (Function.update m (r3 + 1) 0) (r3 + 1) r6

/-- `_memset(s, 0, n)`. `bdnz` counts down before it tests, so a count of 0 is 2^32. -/
def stubMemset (m : DolMem) (s n : UInt32) : DolMem :=
  let r6 := n.toNat % 8
  let ctr := if n.toNat / 4 = 0 then 2 ^ 32 else n.toNat / 4
  let (m, r3) := storeWords m (s - 4) ctr
  storeBytes m r3 r6

def stubCopySection (dolBuf : UInt32) (m : DolMem) (s : DolSection) : DolMem :=
  if s.address ≠ 0 ∧ s.length ≠ 0 then stubMemcpy m s.address (dolBuf + s.offset) s.length.toNat else m

/-- The memory at the jump, and where it goes. -/
def stubMain (hdr : DolHeader) (dolBuf : UInt32) (m : DolMem) : DolMem × UInt32 :=
  (stubMemset (hdr.sections.foldl (stubCopySection dolBuf) m) hdr.bssAddress hdr.bssLength, hdr.entryPoint)

/-! ## The menu -/

/-- The bytes requested are delivered. -/
def dvdReadData (file : Nat → UInt8) (m : DolMem) (dst len : UInt32) (offset : Nat) : DolMem := fun a =>
  if (a - dst).toNat < len.toNat then file (offset + (a - dst).toNat) else m a

def memsetZero (m : DolMem) (dst len : UInt32) : DolMem := fun a =>
  if (a - dst).toNat < len.toNat then 0 else m a

def loadSection (file : Nat → UInt8) (m : DolMem) (s : DolSection) : DolMem :=
  if s.address ≠ 0 ∧ s.length ≠ 0 then dvdReadData file m s.address s.length s.offset.toNat else m

structure DolInfo where
  max : UInt32
  entryPoint : UInt32

/-- `DOLMax`. -/
def dolMax (hdr : DolHeader) : UInt32 :=
  let max := hdr.sections.foldl
    (fun max s => if s.address ≠ 0 ∧ s.length ≠ 0 ∧ max < s.address + s.length then s.address + s.length else max) 0
  if hdr.bssAddress ≠ 0 ∧ max < hdr.bssAddress + hdr.bssLength then hdr.bssAddress + hdr.bssLength else max

def loadDol (hdr : DolHeader) (file : Nat → UInt8) (m : DolMem) : DolMem × DolInfo :=
  let m := if hdr.bssAddress ≠ 0 ∧ hdr.bssLength ≠ 0 then memsetZero m hdr.bssAddress hdr.bssLength else m
  (hdr.sections.foldl (loadSection file) m, ⟨dolMax hdr, hdr.entryPoint⟩)

/-! ## The image a DOL describes -/

def DolSection.Covers (s : DolSection) (a : UInt32) : Prop :=
  s.address ≠ 0 ∧ s.length ≠ 0 ∧ (a - s.address).toNat < s.length.toNat

instance (s : DolSection) (a : UInt32) : Decidable (s.Covers a) := inferInstanceAs (Decidable (_ ∧ _))

def DolSection.byteAt (s : DolSection) (file : Nat → UInt8) (a : UInt32) : UInt8 :=
  file (s.offset.toNat + (a - s.address).toNat)

/-- The byte a section puts at `a`. -/
def DolHeader.sectionByte (hdr : DolHeader) (file : Nat → UInt8) (a : UInt32) : Option UInt8 :=
  (hdr.sections.find? fun s => decide (s.Covers a)).map fun s => s.byteAt file a

def DolHeader.InBss (hdr : DolHeader) (a : UInt32) : Prop := (a - hdr.bssAddress).toNat < hdr.bssLength.toNat

instance (hdr : DolHeader) (a : UInt32) : Decidable (hdr.InBss a) := inferInstanceAs (Decidable (_ < _))

/-- Every section's bytes at its address, zero in the BSS outside the sections,
and nothing else changed. -/
def dolImage (hdr : DolHeader) (file : Nat → UInt8) (m : DolMem) : DolMem := fun a =>
  match hdr.sectionByte file a with
  | some byte => byte
  | none => if hdr.InBss a then 0 else m a

/-! ## Distances -/

theorem sub_toNat (a p : UInt32) : (a - p).toNat = (4294967296 - p.toNat + a.toNat) % 4294967296 :=
  UInt32.toNat_sub a p

theorem add_toNat (p : UInt32) (k : Nat) : (p + UInt32.ofNat k).toNat = (p.toNat + k) % 4294967296 := by
  rw [UInt32.toNat_add, UInt32.toNat_ofNat']
  omega

/-- The distance from `p + k`, in terms of that from `p`. -/
theorem dist_add (a p : UInt32) (k : Nat) (hk : k ≤ 4294967296) :
    (a - (p + UInt32.ofNat k)).toNat =
      if (a - p).toNat < k then 4294967296 - k + (a - p).toNat else (a - p).toNat - k := by
  have ha := a.toNat_lt
  have hp := p.toNat_lt
  rw [sub_toNat, sub_toNat, add_toNat]
  split <;> omega

/-! ## What the stub's loops write -/

theorem dist_succ (a p : UInt32) : (a - (p + 1)).toNat =
    if (a - p).toNat = 0 then 4294967295 else (a - p).toNat - 1 := by
  have h : (a - (p + 1)).toNat = _ := dist_add a p 1 (by omega)
  rw [h]
  split <;> split <;> omega

theorem dist_zero {a p : UInt32} : (a - p).toNat = 0 ↔ a = p := by
  have ha := a.toNat_lt
  have hp := p.toNat_lt
  rw [sub_toNat, ← UInt32.toNat_inj]
  omega

/-- The bytes of the source, where it is clear of what is written. -/
theorem stubMemcpy_eq : ∀ (n : Nat) (m : DolMem) (dst src : UInt32), n ≤ 4294967295 →
    (∀ a, (a - src).toNat < n → ¬ (a - dst).toNat < n) → ∀ a,
      stubMemcpy m dst src n a = if (a - dst).toNat < n then m (src + (a - dst)) else m a
  | 0, m, dst, src, _, _, a => by
    rw [if_neg (Nat.not_lt_zero _)]
    rfl
  | n + 1, m, dst, src, hn, hclear, a => by
    have hclear' : ∀ b, (b - (src + 1)).toNat < n → ¬ (b - (dst + 1)).toNat < n := by
      intro b hb hb'
      rw [dist_succ] at hb hb'
      apply hclear b
      · split at hb <;> omega
      · split at hb' <;> omega
    rw [stubMemcpy, stubMemcpy_eq n _ _ _ (by omega) hclear', dist_succ]
    by_cases h0 : (a - dst).toNat = 0
    · -- the byte copied in this round
      obtain rfl := dist_zero.mp h0
      rw [if_pos h0, if_neg (by omega), if_pos (by omega), Function.update_self]
      congr 1
      grind
    · have hne : a ≠ dst := fun he => h0 (dist_zero.mpr he)
      rw [if_neg h0, Function.update_of_ne hne]
      by_cases hlt : (a - dst).toNat < n + 1
      · have hsrc : src + 1 + (a - (dst + 1)) = src + (a - dst) := by grind
        have hback : (src + (a - dst) - src).toNat < n + 1 := by
          rw [show src + (a - dst) - src = a - dst by grind]
          exact hlt
        have hother : src + (a - dst) ≠ dst := by
          intro he
          apply hclear _ hback
          rw [dist_zero.mpr he]
          exact Nat.succ_pos n
        rw [if_pos (by omega), if_pos hlt, hsrc, Function.update_of_ne hother]
      · rw [if_neg (by omega), if_neg hlt]

theorem storeWords_eq : ∀ (n : Nat) (m : DolMem) (r3 : UInt32),
    (storeWords m r3 n).2 = r3 + UInt32.ofNat (4 * n) ∧
      ∀ a, (storeWords m r3 n).1 a = if (a - (r3 + 4)).toNat < 4 * n then 0 else m a
  | 0, m, r3 => by
    refine ⟨(UInt32.add_zero r3).symm, fun a => ?_⟩
    rw [if_neg (Nat.not_lt_zero _)]
    rfl
  | n + 1, m, r3 => by
    obtain ⟨h1, h2⟩ := storeWords_eq n (storeWord m (r3 + 4)) (r3 + 4)
    rw [storeWords]
    refine ⟨?_, fun a => ?_⟩
    · rw [h1, Nat.mul_succ, UInt32.ofNat_add]
      grind
    · have hd : (a - (r3 + 4 + 4)).toNat = _ := dist_add a (r3 + 4) 4 (by omega)
      rw [h2 a, storeWord]
      by_cases hx : (a - (r3 + 4)).toNat < 4
      · rw [if_pos hx, ite_self, if_pos (by omega)]
      · rw [if_neg hx] at hd ⊢
        exact if_congr (by omega) rfl rfl

theorem storeBytes_eq : ∀ (n : Nat) (m : DolMem) (r3 : UInt32), n ≤ 4294967295 → ∀ a,
    storeBytes m r3 n a = if (a - (r3 + 1)).toNat < n then 0 else m a
  | 0, m, r3, _, a => by
    rw [if_neg (Nat.not_lt_zero _)]
    rfl
  | n + 1, m, r3, hn, a => by
    rw [storeBytes, storeBytes_eq n _ _ (by omega), dist_succ]
    by_cases h0 : (a - (r3 + 1)).toNat = 0
    · obtain rfl := dist_zero.mp h0
      rw [if_pos h0, if_neg (by omega), if_pos (by omega), Function.update_self]
    · have hne : a ≠ r3 + 1 := fun he => h0 (dist_zero.mpr he)
      rw [if_neg h0, Function.update_of_ne hne]
      exact if_congr (by omega) rfl rfl

/-- How many bytes from its start a `_memset` of `n` clears: the whole address space
if that is less than a word; up to the last whole word; or one byte too many, where
the number of words is odd. -/
def memsetReach (n : Nat) : Nat :=
  if n < 4 then 4294967296 else if n % 8 < 4 then n - n % 4 else n + 1

theorem stubMemset_eq (m : DolMem) (s n a : UInt32) :
    stubMemset m s n a = if (a - s).toNat < memsetReach n.toNat then 0 else m a := by
  have hn := n.toNat_lt
  have hdist := (a - s).toNat_lt
  simp only [stubMemset]
  generalize hctr : (if n.toNat / 4 = 0 then 2 ^ 32 else n.toNat / 4) = ctr
  obtain ⟨h1, h2⟩ := storeWords_eq ctr m (s - 4)
  have hs : s - 4 + 4 = s := by grind
  rw [storeBytes_eq _ _ _ (by omega), h1, h2, hs]
  by_cases hsmall : n.toNat / 4 = 0
  · -- the whole address space
    rw [if_pos hsmall] at hctr
    have hreach : memsetReach n.toNat = 4294967296 := if_pos (by omega)
    rw [if_pos (show (a - s).toNat < 4 * ctr by omega), ite_self, hreach, if_pos (by omega)]
  · -- the bytes start three before the end of the words
    rw [if_neg hsmall] at hctr
    obtain ⟨k, rfl⟩ : ∃ k, ctr = k + 1 := ⟨ctr - 1, by omega⟩
    have hr : s - 4 + UInt32.ofNat (4 * (k + 1)) + 1 = s + UInt32.ofNat (4 * k + 1) := by
      rw [Nat.mul_succ, UInt32.ofNat_add, UInt32.ofNat_add]
      have h4 : UInt32.ofNat 4 = 4 := rfl
      have h1 : UInt32.ofNat 1 = 1 := rfl
      rw [h4, h1]
      grind
    have hreach : memsetReach n.toNat = if n.toNat % 8 < 4 then n.toNat - n.toNat % 4 else n.toNat + 1 :=
      if_neg (by omega)
    rw [hr, dist_add a s (4 * k + 1) (by omega), hreach]
    generalize (a - s).toNat = x at hdist ⊢
    by_cases hx : x < 4 * (k + 1)
    · rw [if_pos hx, ite_self, if_pos]
      split <;> omega
    · rw [if_neg (show ¬ x < 4 * k + 1 by omega), if_neg hx]
      apply if_congr _ rfl rfl
      split <;> omega

/-! ## What each loader leaves -/

/-- What a DOL asks of its loaders: sections that do not overlap each other or the
file, their bytes in the file, and for the stub the file in memory. -/
structure Loadable (hdr : DolHeader) (file : Nat → UInt8) (size : Nat) (dolBuf : UInt32) (m : DolMem) : Prop where
  disjoint : hdr.sections.Pairwise fun s t => ∀ a, ¬ (s.Covers a ∧ t.Covers a)
  within : ∀ s ∈ hdr.sections, s.address ≠ 0 → s.length ≠ 0 → s.offset.toNat + s.length.toNat ≤ size
  clear : ∀ s ∈ hdr.sections, ∀ a, s.Covers a → ¬ (a - dolBuf).toNat < size
  input : ∀ a, (a - dolBuf).toNat < size → m a = file (a - dolBuf).toNat

variable {file : Nat → UInt8}

/-- The bytes of one section put into memory. -/
def DolSection.put (file : Nat → UInt8) (m : DolMem) (s : DolSection) : DolMem := fun a =>
  if s.Covers a then s.byteAt file a else m a

/-- Sections that do not overlap can be put in any order: each has its bytes. -/
theorem foldl_put (a : UInt32) : ∀ (ss : List DolSection) (m : DolMem),
    ss.Pairwise (fun s t => ∀ a, ¬ (s.Covers a ∧ t.Covers a)) →
      ss.foldl (DolSection.put file) m a =
        match ss.find? fun s => decide (s.Covers a) with
        | some s => s.byteAt file a
        | none => m a
  | [], m, _ => rfl
  | s :: ss, m, h => by
    obtain ⟨hs, hss⟩ := List.pairwise_cons.mp h
    rw [List.foldl_cons, foldl_put a ss _ hss, List.find?_cons]
    by_cases hc : s.Covers a
    · have hnone : ss.find? (fun s => decide (s.Covers a)) = none := by
        apply List.find?_eq_none.mpr
        intro t ht hta
        exact hs t ht a ⟨hc, of_decide_eq_true hta⟩
      rw [hnone, decide_eq_true hc]
      exact if_pos hc
    · rw [decide_eq_false hc]
      cases ss.find? fun s => decide (s.Covers a) with
      | some t => rfl
      | none => exact if_neg hc

theorem loadSection_put (m : DolMem) (s : DolSection) : loadSection file m s = s.put file m := by
  funext a
  rw [loadSection, DolSection.put]
  by_cases h : s.address ≠ 0 ∧ s.length ≠ 0
  · rw [if_pos h, dvdReadData]
    apply if_congr _ rfl rfl
    exact ⟨fun hlt => ⟨h.1, h.2, hlt⟩, fun hc => hc.2.2⟩
  · rw [if_neg h, if_neg]
    exact fun hc => h ⟨hc.1, hc.2.1⟩

theorem loadDol_eq {hdr : DolHeader} {size : Nat} {dolBuf : UInt32} {m : DolMem}
    (h : Loadable hdr file size dolBuf m) (a : UInt32) :
    (loadDol hdr file m).1 a = match hdr.sectionByte file a with
      | some byte => byte
      | none => if hdr.bssAddress ≠ 0 ∧ hdr.InBss a then 0 else m a := by
  have hput : loadSection file = DolSection.put file := funext fun m => funext (loadSection_put m)
  rw [loadDol, hput]
  dsimp only
  rw [foldl_put a _ _ h.disjoint, DolHeader.sectionByte]
  cases hdr.sections.find? fun s => decide (s.Covers a) with
  | some s => rfl
  | none =>
    show (if hdr.bssAddress ≠ 0 ∧ hdr.bssLength ≠ 0 then memsetZero m hdr.bssAddress hdr.bssLength else m) a = _
    by_cases h0 : hdr.bssAddress ≠ 0 ∧ hdr.bssLength ≠ 0
    · rw [if_pos h0]
      exact if_congr (and_iff_right h0.1).symm rfl rfl
    · rw [if_neg h0]
      refine (if_neg ?_).symm
      intro ⟨hne, hin⟩
      apply h0
      refine ⟨hne, fun hlen => ?_⟩
      rw [DolHeader.InBss, hlen] at hin
      exact absurd hin (Nat.not_lt_zero _)

/-- The file stays in memory while its sections are copied out of it. -/
theorem stubCopy_put {dolBuf : UInt32} {size : Nat} {m : DolMem} {s : DolSection}
    (hwithin : s.address ≠ 0 → s.length ≠ 0 → s.offset.toNat + s.length.toNat ≤ size)
    (hclear : ∀ a, s.Covers a → ¬ (a - dolBuf).toNat < size)
    (hinput : ∀ a, (a - dolBuf).toNat < size → m a = file (a - dolBuf).toNat) :
    stubCopySection dolBuf m s = s.put file m := by
  funext a
  rw [stubCopySection, DolSection.put]
  by_cases h : s.address ≠ 0 ∧ s.length ≠ 0
  · have hfits := hwithin h.1 h.2
    have hlen := s.length.toNat_lt
    have hsize : size ≤ 4294967295 := by
      have hself : (s.address - s.address).toNat < s.length.toNat := by
        rw [dist_zero.mpr rfl, Nat.pos_iff_ne_zero]
        exact fun h0 => h.2 (UInt32.toNat_inj.mp h0)
      have hout := hclear s.address ⟨h.1, h.2, hself⟩
      have hlt := (s.address - dolBuf).toNat_lt
      omega
    -- a source byte is a byte of the file
    have hsource : ∀ b, (b - (dolBuf + s.offset)).toNat < s.length.toNat →
        (b - dolBuf).toNat = s.offset.toNat + (b - (dolBuf + s.offset)).toNat := by
      intro b hb
      have hoff := s.offset.toNat_lt
      have hd := dist_add b dolBuf s.offset.toNat (by omega)
      rw [UInt32.ofNat_toNat] at hd
      split at hd <;> omega
    rw [if_pos h, stubMemcpy_eq _ _ _ _ (by omega)]
    · by_cases hc : (a - s.address).toNat < s.length.toNat
      · rw [if_pos hc, if_pos ⟨h.1, h.2, hc⟩]
        have hback : dolBuf + s.offset + (a - s.address) - (dolBuf + s.offset) = a - s.address := by grind
        have hfile := hsource (dolBuf + s.offset + (a - s.address)) (by rw [hback]; exact hc)
        rw [hback] at hfile
        rw [hinput _ (by omega), hfile]
        rfl
      · rw [if_neg hc, if_neg fun hcov => hc hcov.2.2]
    · intro b hb hb'
      apply hclear b ⟨h.1, h.2, hb'⟩
      have := hsource b hb
      omega
  · rw [if_neg h, if_neg]
    exact fun hc => h ⟨hc.1, hc.2.1⟩

theorem stubCopyAll_put {dolBuf : UInt32} {size : Nat} : ∀ (ss : List DolSection) (m : DolMem),
    (∀ s ∈ ss, s.address ≠ 0 → s.length ≠ 0 → s.offset.toNat + s.length.toNat ≤ size) →
    (∀ s ∈ ss, ∀ a, s.Covers a → ¬ (a - dolBuf).toNat < size) →
    (∀ a, (a - dolBuf).toNat < size → m a = file (a - dolBuf).toNat) →
      ss.foldl (stubCopySection dolBuf) m = ss.foldl (DolSection.put file) m
  | [], _, _, _, _ => rfl
  | s :: ss, m, hwithin, hclear, hinput => by
    have hs : s ∈ s :: ss := List.mem_cons_self
    rw [List.foldl_cons, List.foldl_cons, stubCopy_put (hwithin s hs) (hclear s hs) hinput]
    apply stubCopyAll_put ss
    · exact fun t ht => hwithin t (List.mem_cons_of_mem s ht)
    · exact fun t ht => hclear t (List.mem_cons_of_mem s ht)
    · intro a ha
      rw [DolSection.put, if_neg fun hc => hclear s hs a hc ha]
      exact hinput a ha

theorem stubMain_eq {hdr : DolHeader} {size : Nat} {dolBuf : UInt32} {m : DolMem}
    (h : Loadable hdr file size dolBuf m) (a : UInt32) :
    (stubMain hdr dolBuf m).1 a =
      if (a - hdr.bssAddress).toNat < memsetReach hdr.bssLength.toNat then 0
      else match hdr.sectionByte file a with
        | some byte => byte
        | none => m a := by
  rw [stubMain]
  dsimp only
  rw [stubMemset_eq, stubCopyAll_put _ _ h.within h.clear h.input, foldl_put a _ _ h.disjoint,
    DolHeader.sectionByte]
  apply if_congr Iff.rfl rfl
  cases hdr.sections.find? fun s => decide (s.Covers a) <;> rfl

/-! ## When they agree -/

/-- What the stub clears holds no section byte but zeros; outside the sections the
stub clears the BSS exactly, and it is not at address 0, unless memory is zero there
already. -/
structure BssHarmless (hdr : DolHeader) (file : Nat → UInt8) (m : DolMem) : Prop where
  sections : ∀ a byte, hdr.sectionByte file a = some byte →
    (a - hdr.bssAddress).toNat < memsetReach hdr.bssLength.toNat → byte = 0
  rest : ∀ a, hdr.sectionByte file a = none → m a ≠ 0 →
    (hdr.InBss a ↔ (a - hdr.bssAddress).toNat < memsetReach hdr.bssLength.toNat) ∧
      (hdr.InBss a → hdr.bssAddress ≠ 0)

/-- Both loaders leave the image the DOL describes if and only if the BSS is harmless. -/
theorem dol_loaders_agree_iff {hdr : DolHeader} {size : Nat} {dolBuf : UInt32} {m : DolMem}
    (h : Loadable hdr file size dolBuf m) :
    ((stubMain hdr dolBuf m).1 = dolImage hdr file m ∧ (loadDol hdr file m).1 = dolImage hdr file m) ↔
      BssHarmless hdr file m := by
  constructor
  · intro ⟨hstub, hload⟩
    constructor
    -- a byte of a section that is cleared after it is copied
    · intro a byte hbyte hreach
      have ha := congrFun hstub a
      rw [stubMain_eq h, if_pos hreach, dolImage, hbyte] at ha
      exact ha.symm
    -- a byte outside the sections that both have to treat alike
    · intro a hnone hm
      have ha := congrFun hstub a
      have hb := congrFun hload a
      rw [stubMain_eq h, dolImage, hnone] at ha
      rw [loadDol_eq h, dolImage, hnone] at hb
      dsimp only at ha hb
      by_cases hbss : hdr.InBss a
      · rw [if_pos hbss] at ha hb
        refine ⟨iff_of_true hbss ?_, fun _ h0 => ?_⟩
        · by_contra hreach
          rw [if_neg hreach] at ha
          exact hm ha
        · rw [if_neg fun hc => hc.1 h0] at hb
          exact hm hb
      · rw [if_neg hbss] at ha
        refine ⟨iff_of_false hbss fun hreach => ?_, fun hin => absurd hin hbss⟩
        rw [if_pos hreach] at ha
        exact hm ha.symm
  · intro ⟨hsections, hrest⟩
    constructor
    · funext a
      rw [stubMain_eq h, dolImage]
      cases hbyte : hdr.sectionByte file a with
      | some byte =>
        dsimp only
        split
        · rename_i hreach
          exact (hsections a byte hbyte hreach).symm
        · rfl
      | none =>
        dsimp only
        by_cases hm : m a = 0
        · rw [hm, ite_self, ite_self]
        · exact if_congr (hrest a hbyte hm).1.symm rfl rfl
    · funext a
      rw [loadDol_eq h, dolImage]
      cases hbyte : hdr.sectionByte file a with
      | some byte => rfl
      | none =>
        dsimp only
        by_cases hm : m a = 0
        · rw [hm, ite_self, ite_self]
        · exact if_congr (and_iff_right_of_imp (hrest a hbyte hm).2) rfl rfl

/-! ## Two DOLs -/

def noSection : DolSection := ⟨0, 0, 0⟩

/-- One data section of eight bytes at 0x80003100, with a BSS. -/
def oneSection (bssAddress bssLength : UInt32) : DolHeader where
  text := fun _ => noSection
  data := fun i => if i = 0 then ⟨0x100, 0x80003100, 8⟩ else noSection
  bssAddress := bssAddress
  bssLength := bssLength
  entryPoint := 0x80003100

/-- A file of ones, in memory that is zero elsewhere. -/
def onesFile : Nat → UInt8 := fun _ => 1

def onesMem : DolMem := fun a => if (a - 0x80700000).toNat < 0x108 then 1 else 0

theorem oneSection_sections (bssAddress bssLength : UInt32) : (oneSection bssAddress bssLength).sections =
    List.replicate 7 noSection ++ ⟨0x100, 0x80003100, 8⟩ :: List.replicate 10 noSection := by
  rfl

theorem oneSection_loadable (bssAddress bssLength : UInt32) :
    Loadable (oneSection bssAddress bssLength) onesFile 0x108 0x80700000 onesMem := by
  have hempty : ∀ a, ¬ noSection.Covers a := fun a hc => hc.1 rfl
  have hmem : ∀ s ∈ (oneSection bssAddress bssLength).sections, s = noSection ∨ s = ⟨0x100, 0x80003100, 8⟩ := by
    intro s hs
    rw [oneSection_sections] at hs
    simp only [List.mem_append, List.mem_cons, List.mem_replicate] at hs
    rcases hs with ⟨_, h⟩ | h | ⟨_, h⟩
    · exact .inl h
    · exact .inr h
    · exact .inl h
  have hdisjoint : ∀ s t, s = noSection ∨ t = noSection → ∀ a, ¬ (s.Covers a ∧ t.Covers a) := by
    rintro s t (rfl | rfl) a ⟨hs, ht⟩
    · exact hempty a hs
    · exact hempty a ht
  refine ⟨?_, ?_, ?_, fun a ha => if_pos ha⟩
  · rw [oneSection_sections, List.pairwise_append, List.pairwise_cons]
    refine ⟨?_, ⟨fun t ht => hdisjoint _ t (.inr (List.eq_of_mem_replicate ht)), ?_⟩,
      fun s hs t _ => hdisjoint s t (.inl (List.eq_of_mem_replicate hs))⟩
    · exact List.pairwise_of_forall_mem_list fun s hs t _ => hdisjoint s t (.inl (List.eq_of_mem_replicate hs))
    · exact List.pairwise_of_forall_mem_list fun s hs t _ => hdisjoint s t (.inl (List.eq_of_mem_replicate hs))
  · intro s hs h0 _
    rcases hmem s hs with rfl | rfl
    · exact absurd rfl h0
    · exact Nat.le_refl _
  · intro s hs a hc hin
    rcases hmem s hs with rfl | rfl
    · exact hempty a hc
    · have hlt : (a - 0x80003100).toNat < 8 := hc.2.2
      have h1 : (0x80003100 : UInt32).toNat = 2147496192 := rfl
      have h2 : (0x80700000 : UInt32).toNat = 2154823680 := rfl
      have ha := a.toNat_lt
      rw [sub_toNat] at hlt hin
      omega

/-- The BSS after the section, whole words and an even number of them. -/
theorem dol_loaders_agree_apart :
    ((stubMain (oneSection 0x80003200 8) 0x80700000 onesMem).1 = dolImage (oneSection 0x80003200 8) onesFile onesMem ∧
        (loadDol (oneSection 0x80003200 8) onesFile onesMem).1 = dolImage (oneSection 0x80003200 8) onesFile onesMem) ↔
      BssHarmless (oneSection 0x80003200 8) onesFile onesMem :=
  dol_loaders_agree_iff (oneSection_loadable 0x80003200 8)

/-- A BSS that spans the section: the stub clears what it has copied. -/
theorem spanning_bss_cleared :
    Loadable (oneSection 0x80003100 16) onesFile 0x108 0x80700000 onesMem ∧
      (stubMain (oneSection 0x80003100 16) 0x80700000 onesMem).1 0x80003100 = 0 ∧
      (loadDol (oneSection 0x80003100 16) onesFile onesMem).1 0x80003100 = 1 ∧
      dolImage (oneSection 0x80003100 16) onesFile onesMem 0x80003100 = 1 := by
  have h := oneSection_loadable 0x80003100 16
  have hbyte : (oneSection 0x80003100 16).sectionByte onesFile 0x80003100 = some 1 := by
    rw [DolHeader.sectionByte, oneSection_sections]
    rfl
  refine ⟨h, ?_, ?_, ?_⟩
  · rw [stubMain_eq h]
    exact if_pos (by decide)
  · rw [loadDol_eq h, hbyte]
  · rw [dolImage, hbyte]

end Cubiboot

import Mathlib.Tactic.Common
import Cubiboot.Dol

/-
  `dvd_read_data` (`flippy_sync.c`, the same text in the menu's tree and in the
  loader's): reads with no alignment asked of the caller.

  Where the buffer, the length or the offset is not aligned, the bytes come
  through a bounce buffer of 16 KiB: read from the aligned offset below, copied
  out from as many bytes in. `copies` records what each copy takes against what
  was fetched for it; `bounce` goes on behind the buffer's end with whatever lies
  there. `dvd_read` fills what it is given with the file's bytes, if it does not
  fail (`code i` is what its call number `i` returns).

  What is proved:
    1. `readLoop_spec` — while every chunk's fetch covers its copy, the loop puts
       the file's bytes down and nothing else.
    2. `readLoop_first` — a chunk whose fetch does not cover its copy stays on
       record.
    3. `read_data_exact_iff` — the bytes are exactly those requested, with no copy
       past what was fetched, exactly for `CoversOffset`; then the result is what
       `load_dol` takes for granted.
    4. `read_data_stale_byte` — 32 bytes from offset 1: one of them is stale.

  Correspondence (C ↔ Lean):
    `dvd_read` into memory, into the bounce buffer ↔ `dvdRead`, `ReadState.fetch`
    `FD_IPC_MAXRESP`                               ↔ `fdIpcMaxresp`
    `dvd_read_data`, its loop                      ↔ `Patches.dvdReadData`, `Loader.dvdReadData`, `readLoop`
-/

set_option autoImplicit false

namespace Cubiboot

def fdIpcMaxresp : Nat := 1024 * 16

/-- A copy out of the bounce buffer: where it starts, how long it is, and how much was
fetched for it. -/
structure BounceCopy where
  skip : Nat
  size : Nat
  fetched : Nat
  deriving DecidableEq, Repr

/-- `reads` counts the calls of `dvd_read`; `copies` is history. -/
structure ReadState where
  mem : DolMem
  bounce : Nat → UInt8
  reads : Nat
  copies : List BounceCopy

section
variable (file : Nat → UInt8) (code : Nat → Int)

/-- `dvd_read(dst, len, offset, fd)` on the caller's buffer, when it succeeds. -/
def dvdRead (m : DolMem) (dst : UInt32) (len offset : Nat) : DolMem := fun a =>
  if (a - dst).toNat < len then file (offset + (a - dst).toNat) else m a

/-- `dvd_read(aligned_buffer, len, offset, fd)`, when it succeeds. -/
def ReadState.fetch (s : ReadState) (len offset : Nat) : ReadState :=
  { s with bounce := fun i => if i < len then file (offset + i) else s.bounce i, reads := s.reads + 1 }

/-- `memcpy(dst, aligned_buffer + skip, size)`. -/
def ReadState.copyOut (s : ReadState) (dst : UInt32) (skip size fetched : Nat) : ReadState :=
  { s with
    mem := fun a => if (a - dst).toNat < size then s.bounce (skip + (a - dst).toNat) else s.mem a
    copies := s.copies ++ [⟨skip, size, fetched⟩] }

/-- Rounded up to 32 bytes. -/
def roundUp32 (n : Nat) : Nat := (n + 31) / 32 * 32

/-- `to_read` of a chunk. -/
def chunkRead (remaining adjustment : Nat) : Nat :=
  let toRead := if fdIpcMaxresp < remaining then fdIpcMaxresp else remaining
  roundUp32 (if fdIpcMaxresp < toRead + adjustment then fdIpcMaxresp - adjustment else toRead)

/-- `to_copy` of a chunk. -/
def chunkCopy (remaining : Nat) : Nat := if fdIpcMaxresp < remaining then fdIpcMaxresp else remaining

/-- The bounce loop; every round takes at least one of `fuel` bytes. -/
def readLoop (dst : UInt32) : Nat → Nat → Nat → Nat → ReadState → Int × ReadState
  | 0, _, _, _, s => (0, s)
  | fuel + 1, offset, total, remaining, s =>
    if remaining = 0 then (0, s)
    else
      let alignedOffset := offset / 4 * 4
      let adjustment := offset - alignedOffset
      let toRead := chunkRead remaining adjustment
      if code s.reads ≠ 0 then (code s.reads, s)
      else
        let toCopy := chunkCopy remaining
        let s := (s.fetch file toRead alignedOffset).copyOut (dst + UInt32.ofNat total) adjustment toCopy toRead
        readLoop dst fuel (offset + toCopy) (total + toCopy) (remaining - toCopy) s

def readData (dst len : UInt32) (offset : Nat) (s : ReadState) : Int × ReadState :=
  if dst.toNat % 32 ≠ 0 ∨ len.toNat % 32 ≠ 0 ∨ offset % 4 ≠ 0 then
    readLoop file code dst len.toNat offset 0 len.toNat s
  else if code s.reads ≠ 0 then (code s.reads, s)
  else (0, { s with mem := dvdRead file s.mem dst len.toNat offset, reads := s.reads + 1 })

/-- The menu's copy. -/
def Patches.dvdReadData (dst len : UInt32) (offset : Nat) (s : ReadState) : Int × ReadState :=
  readData file code dst len offset s

/-- The loader's copy. -/
def Loader.dvdReadData (dst len : UInt32) (offset : Nat) (s : ReadState) : Int × ReadState :=
  readData file code dst len offset s

end

/-- Memory and bounce buffer as the call finds them. -/
def ReadState.before (m : DolMem) (bounce : Nat → UInt8) : ReadState := ⟨m, bounce, 0, []⟩

/-- No byte is copied that was not fetched, or from behind the buffer. -/
def BounceCopy.Covered (c : BounceCopy) : Prop := c.skip + c.size ≤ c.fetched ∧ c.skip + c.size ≤ fdIpcMaxresp

/-- What the caller gets, if the call returns 0: the bytes requested, nothing outside
them, no copy beyond what was fetched; all as one aligned read would have it. -/
def ReadsExactly (file : Nat → UInt8) (m : DolMem) (dst len : UInt32) (offset : Nat) (r : Int × ReadState) : Prop :=
  r.1 = 0 →
    (∀ a, (a - dst).toNat < len.toNat → r.2.mem a = file (offset + (a - dst).toNat)) ∧
    (∀ a, ¬ (a - dst).toNat < len.toNat → r.2.mem a = m a) ∧
    (∀ c ∈ r.2.copies, c.Covered) ∧
    r.2.mem = dvdRead file m dst len.toNat offset

/-- The offset is aligned, nothing is asked for, or one chunk's fetch covers the bytes
in front of it too. -/
def CoversOffset (len offset : Nat) : Prop :=
  offset % 4 = 0 ∨ len = 0 ∨ (len < fdIpcMaxresp ∧ len + offset % 4 ≤ roundUp32 len)

instance (len offset : Nat) : Decidable (CoversOffset len offset) := inferInstanceAs (Decidable (_ ∨ _))

/-! ## One chunk -/

/-- A chunk's fetch covers its copy. -/
def ChunkCovers (remaining offset : Nat) : Prop :=
  BounceCopy.Covered ⟨offset % 4, chunkCopy remaining, chunkRead remaining (offset % 4)⟩

theorem adjustment_eq (offset : Nat) : offset - offset / 4 * 4 = offset % 4 := by omega

theorem fdIpcMaxresp_eq : fdIpcMaxresp = 16384 := rfl

theorem chunkCopy_eq (remaining : Nat) : chunkCopy remaining = min remaining 16384 := by
  have hmax := fdIpcMaxresp_eq
  rw [chunkCopy]
  split <;> omega

theorem chunkRead_eq (remaining adjustment : Nat) :
    chunkRead remaining adjustment =
      roundUp32 (if 16384 < min remaining 16384 + adjustment then 16384 - adjustment else min remaining 16384) := by
  have hcopy : chunkRead remaining adjustment =
      roundUp32 (if fdIpcMaxresp < chunkCopy remaining + adjustment then fdIpcMaxresp - adjustment
        else chunkCopy remaining) := rfl
  rw [hcopy, chunkCopy_eq, fdIpcMaxresp_eq]

theorem chunkCovers_iff {remaining : Nat} (h : remaining ≠ 0) (offset : Nat) :
    ChunkCovers remaining offset ↔ CoversOffset remaining offset := by
  rw [ChunkCovers, BounceCopy.Covered, CoversOffset, chunkCopy_eq, chunkRead_eq, fdIpcMaxresp_eq]
  simp only [roundUp32]
  split <;> omega

/-- What is left after a chunk of a read that is covered, is covered. -/
theorem coversOffset_next {remaining offset : Nat} (h : CoversOffset remaining offset) :
    CoversOffset (remaining - chunkCopy remaining) (offset + chunkCopy remaining) := by
  rw [CoversOffset, fdIpcMaxresp_eq] at h ⊢
  rw [chunkCopy_eq]
  omega

theorem chunkCopy_pos {remaining : Nat} (h : remaining ≠ 0) :
    0 < chunkCopy remaining ∧ chunkCopy remaining ≤ remaining := by
  rw [chunkCopy_eq]
  omega

/-! ## The loop -/

section
variable (file : Nat → UInt8) (code : Nat → Int)

/-- The bytes the loop has still to put down: `remaining` of them from distance `total` on. -/
def putFrom (m : DolMem) (dst : UInt32) (offset total remaining : Nat) : DolMem := fun a =>
  if total ≤ (a - dst).toNat ∧ (a - dst).toNat < total + remaining then file (offset + ((a - dst).toNat - total))
  else m a

theorem putFrom_zero (m : DolMem) (dst : UInt32) (offset total : Nat) : putFrom file m dst offset total 0 = m := by
  funext a
  exact if_neg (by omega)

/-- One stretch after another is one stretch. -/
theorem putFrom_putFrom (m : DolMem) (dst : UInt32) (offset total n k : Nat) :
    putFrom file (putFrom file m dst offset total n) dst (offset + n) (total + n) k =
      putFrom file m dst offset total (n + k) := by
  funext a
  simp only [putFrom]
  by_cases hfirst : total ≤ (a - dst).toNat ∧ (a - dst).toNat < total + n
  · rw [if_neg (by omega), if_pos hfirst, if_pos (by omega)]
  · by_cases hsecond : total + n ≤ (a - dst).toNat ∧ (a - dst).toNat < total + n + k
    · rw [if_pos hsecond, if_pos (by omega)]
      congr 1
      omega
    · rw [if_neg hsecond, if_neg hfirst, if_neg (by omega)]

/-- The state after one round. -/
def ReadState.round (dst : UInt32) (offset total remaining : Nat) (s : ReadState) : ReadState :=
  (s.fetch file (chunkRead remaining (offset % 4)) (offset / 4 * 4)).copyOut (dst + UInt32.ofNat total) (offset % 4)
    (chunkCopy remaining) (chunkRead remaining (offset % 4))

theorem readLoop_succ (dst : UInt32) (fuel offset total remaining : Nat) (s : ReadState) :
    readLoop file code dst (fuel + 1) offset total remaining s =
      if remaining = 0 then (0, s)
      else if code s.reads ≠ 0 then (code s.reads, s)
      else readLoop file code dst fuel (offset + chunkCopy remaining) (total + chunkCopy remaining)
        (remaining - chunkCopy remaining) (s.round file dst offset total remaining) := by
  rw [readLoop]
  simp only [adjustment_eq]
  rfl

/-- A covered round puts down the file's bytes. -/
theorem round_mem (dst : UInt32) {offset total remaining : Nat} (s : ReadState)
    (hc : ChunkCovers remaining offset) (hsmall : total + chunkCopy remaining < 4294967296) :
    (s.round file dst offset total remaining).mem = putFrom file s.mem dst offset total (chunkCopy remaining) := by
  funext a
  have hdist := dist_add a dst total (by omega)
  have hlt := (a - dst).toNat_lt
  show (if (a - (dst + UInt32.ofNat total)).toNat < chunkCopy remaining then _ else s.mem a) = _
  rw [putFrom]
  by_cases hin : total ≤ (a - dst).toNat ∧ (a - dst).toNat < total + chunkCopy remaining
  · rw [if_neg (by omega)] at hdist
    rw [if_pos hin, if_pos (by omega)]
    have hcover := hc.1
    dsimp only at hcover
    show (if offset % 4 + (a - (dst + UInt32.ofNat total)).toNat < chunkRead remaining (offset % 4) then
      file (offset / 4 * 4 + (offset % 4 + (a - (dst + UInt32.ofNat total)).toNat)) else _) = _
    rw [if_pos (by omega), hdist]
    congr 1
    omega
  · rw [if_neg hin, if_neg]
    intro hlt'
    apply hin
    split at hdist <;> omega

/-- While the fetches cover the copies: the file's bytes, and nothing else. -/
theorem readLoop_spec (dst : UInt32) : ∀ (fuel offset total remaining : Nat) (s : ReadState), remaining ≤ fuel →
    total + remaining < 4294967296 → CoversOffset remaining offset →
    (readLoop file code dst fuel offset total remaining s).1 = 0 →
    (readLoop file code dst fuel offset total remaining s).2.mem = putFrom file s.mem dst offset total remaining ∧
      ((∀ c ∈ s.copies, c.Covered) →
        ∀ c ∈ (readLoop file code dst fuel offset total remaining s).2.copies, c.Covered) := by
  intro fuel
  induction fuel with
  | zero =>
    intro offset total remaining s hfuel _ _ _
    obtain rfl := Nat.le_zero.mp hfuel
    exact ⟨(putFrom_zero file s.mem dst offset total).symm, id⟩
  | succ fuel ih =>
    intro offset total remaining s hfuel hsmall hcover hzero
    rw [readLoop_succ] at hzero ⊢
    by_cases hdone : remaining = 0
    · subst hdone
      rw [if_pos rfl]
      exact ⟨(putFrom_zero file s.mem dst offset total).symm, id⟩
    · obtain ⟨hpos, hle⟩ := chunkCopy_pos hdone
      have hchunk := (chunkCovers_iff hdone offset).mpr hcover
      rw [if_neg hdone] at hzero ⊢
      by_cases hcode : code s.reads ≠ 0
      · rw [if_pos hcode] at hzero
        exact absurd hzero hcode
      · rw [if_neg hcode] at hzero ⊢
        obtain ⟨hmem, hcopies⟩ := ih _ _ _ _ (by omega) (by omega) (coversOffset_next hcover) hzero
        refine ⟨?_, fun h => hcopies ?_⟩
        · rw [hmem, round_mem file dst s hchunk (by omega), putFrom_putFrom]
          congr 1
          omega
        · intro c hc
          obtain hc | hc := List.mem_append.mp hc
          · exact h c hc
          · obtain rfl := List.mem_singleton.mp hc
            exact hchunk

theorem readLoop_copies (dst : UInt32) : ∀ (fuel offset total remaining : Nat) (s : ReadState),
    ∀ c ∈ s.copies, c ∈ (readLoop file code dst fuel offset total remaining s).2.copies := by
  intro fuel
  induction fuel with
  | zero => exact fun _ _ _ _ _ hc => hc
  | succ fuel ih =>
    intro offset total remaining s c hc
    rw [readLoop_succ]
    split
    · exact hc
    · split
      · exact hc
      · exact ih _ _ _ _ c (List.mem_append_left _ hc)

theorem readLoop_succeeds (hcode : ∀ i, code i = 0) (dst : UInt32) :
    ∀ (fuel offset total remaining : Nat) (s : ReadState),
      (readLoop file code dst fuel offset total remaining s).1 = 0 := by
  intro fuel
  induction fuel with
  | zero => exact fun _ _ _ _ => rfl
  | succ fuel ih =>
    intro offset total remaining s
    rw [readLoop_succ]
    split
    · rfl
    · rw [if_neg (not_not.mpr (hcode s.reads))]
      exact ih _ _ _ _

/-- A first chunk whose fetch does not cover its copy stays on record. -/
theorem readLoop_first (hcode : ∀ i, code i = 0) (dst : UInt32) {len offset : Nat} (hcover : ¬ CoversOffset len offset)
    (s : ReadState) : ∃ c ∈ (readLoop file code dst len offset 0 len s).2.copies, ¬ c.Covered := by
  have hlen : len ≠ 0 := fun h => hcover (.inr (.inl h))
  obtain ⟨fuel, hfuel⟩ := Nat.exists_eq_succ_of_ne_zero hlen
  have hround : ∀ fuel, (readLoop file code dst (fuel + 1) offset 0 len s).2.copies =
      (readLoop file code dst fuel (offset + chunkCopy len) (0 + chunkCopy len) (len - chunkCopy len)
        (s.round file dst offset 0 len)).2.copies := by
    intro fuel
    rw [readLoop_succ, if_neg hlen, if_neg (not_not.mpr (hcode s.reads))]
  refine ⟨⟨offset % 4, chunkCopy len, chunkRead len (offset % 4)⟩, ?_, ?_⟩
  swap
  · exact fun h => hcover ((chunkCovers_iff hlen offset).mp h)
  have hmem := readLoop_copies file code dst fuel (offset + chunkCopy len) (0 + chunkCopy len) (len - chunkCopy len)
    (s.round file dst offset 0 len) ⟨offset % 4, chunkCopy len, chunkRead len (offset % 4)⟩
    (List.mem_append_right _ (List.mem_singleton.mpr rfl))
  have hall : fuel + 1 = len := hfuel.symm
  rwa [← hround, hall] at hmem

/-! ## The call -/

theorem readData_covers {dst len : UInt32} {offset : Nat} (h : CoversOffset len.toNat offset) (m : DolMem)
    (bounce : Nat → UInt8) :
    ReadsExactly file m dst len offset (readData file code dst len offset (.before m bounce)) := by
  have hlt := len.toNat_lt
  -- what is put down from distance 0 on is what one aligned read puts down
  have hread : putFrom file m dst offset 0 len.toNat = dvdRead file m dst len.toNat offset := by
    funext a
    simp only [putFrom, dvdRead, Nat.zero_le, true_and, Nat.zero_add, Nat.sub_zero]
  have hexact : ∀ r : Int × ReadState, r.2.mem = dvdRead file m dst len.toNat offset →
      (∀ c ∈ r.2.copies, c.Covered) → ReadsExactly file m dst len offset r := by
    intro r hmem hcopies _
    rw [hmem]
    exact ⟨fun a ha => if_pos ha, fun a ha => if_neg ha, hcopies, rfl⟩
  rw [readData]
  split
  · intro hzero
    obtain ⟨hmem, hcopies⟩ :=
      readLoop_spec file code dst len.toNat offset 0 len.toNat (.before m bounce) (Nat.le_refl _) (by omega) h hzero
    exact hexact _ (hmem.trans hread) (hcopies fun c hc => by cases hc) hzero
  · split
    · rename_i hcode
      exact fun hzero => absurd hzero hcode
    · exact hexact _ rfl fun c hc => by cases hc

theorem readData_uncovered {dst len : UInt32} {offset : Nat} (h : ¬ CoversOffset len.toNat offset) (m : DolMem)
    (bounce : Nat → UInt8) :
    ¬ ReadsExactly file m dst len offset (readData file (fun _ => 0) dst len offset (.before m bounce)) := by
  have hoffset : offset % 4 ≠ 0 := fun h0 => h (.inl h0)
  intro hexact
  rw [readData, if_pos (.inr (.inr hoffset))] at hexact
  obtain ⟨c, hc, hbad⟩ := readLoop_first file (fun _ => 0) (fun _ => rfl) dst h (.before m bounce)
  obtain ⟨-, -, hcopies, -⟩ := hexact (readLoop_succeeds file (fun _ => 0) (fun _ => rfl) dst _ _ _ _ _)
  exact hbad (hcopies c hc)

/-- For every destination, length and offset, whatever the memory, the bounce buffer and
the file hold: both copies deliver exactly the bytes requested, however `dvd_read`
answers, if and only if the offset is covered. -/
theorem read_data_exact_iff (dst len : UInt32) (offset : Nat) (m : DolMem) (bounce : Nat → UInt8) :
    ((∀ code, ReadsExactly file m dst len offset (Patches.dvdReadData file code dst len offset (.before m bounce))) ↔
      CoversOffset len.toNat offset) ∧
    ((∀ code, ReadsExactly file m dst len offset (Loader.dvdReadData file code dst len offset (.before m bounce))) ↔
      CoversOffset len.toNat offset) := by
  have hboth : (∀ code, ReadsExactly file m dst len offset (readData file code dst len offset (.before m bounce))) ↔
      CoversOffset len.toNat offset := by
    constructor
    · intro hexact
      by_contra hcover
      exact readData_uncovered file hcover m bounce (hexact fun _ => 0)
    · exact fun hcover code => readData_covers file code hcover m bounce
  exact ⟨hboth, hboth⟩

end

/-- 32 bytes from offset 1 of a file of ones, the bounce buffer zero: the last byte of
the destination is 0. -/
theorem read_data_stale_byte : ¬ ∀ (file : Nat → UInt8) (code : Nat → Int) (dst len : UInt32) (offset : Nat)
    (m : DolMem) (bounce : Nat → UInt8),
    ReadsExactly file m dst len offset (Patches.dvdReadData file code dst len offset (.before m bounce)) := by
  intro h
  have hread := h (fun _ => 1) (fun _ => 0) 0x80003100 32 1 (fun _ => 0) (fun _ => 0) (by decide +kernel)
  have hlast := hread.1 0x8000311F (by decide)
  revert hlast
  decide +kernel

end Cubiboot

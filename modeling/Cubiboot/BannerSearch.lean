import Mathlib.Algebra.Ring.Nat
import Mathlib.Tactic.Common
import Cubiboot.Classification
import Cubiboot.FstWalk

/-
  The search for a disc's banner, as `get_game_info` makes it on an image file and the disc
  screen over the drive: what the routines both are made of find in the bytes.

  A disc is its bytes (`Disc`), and every read brings all it asks for. A file is read at the
  position asked for, the drive at the word of it (`driveAt`): `place` says which. What is
  behind a read stays as the memory had it.

  What is proved:
    1. `run_getBannerOffsetFast`, `run_getBannerOffsetSlow` — the table of known offsets and
       the walk, run on the memory: `knownIn` and `tableBanner`.
    2. `run_getGameInfo` — `get_game_info` on an image file: the known position if there is a
       banner, else the position in the file system table if there is one (`fileBanner`).
    3. `tableBanner_eq` — a walk that stays in its table is the same in every memory.

  Correspondence (C ↔ Lean):
    `dvd_read` of a file (`f_lseek`, `f_read`) ↔ `discAnswer` at `UInt32.toNat`
    `dvd_read` in bypass (`normal_dvd_read`)   ↔ `discAnswer` at `driveAt`
    `get_game_info`                            ↔ `getGameInfo`
-/

set_option autoImplicit false

namespace Cubiboot

/-- The bytes by position, and the size a file of them has. -/
structure Disc where
  byte : Nat → UInt8
  size : UInt64

/-- Where the drive reads: the position goes to it as `offset >> 2`, in words. -/
def driveAt (offset : UInt32) : Nat := 4 * (offset.toNat / 4)

theorem driveAt_of_dvd {offset : UInt32} (h : 4 ∣ offset.toNat) : driveAt offset = offset.toNat :=
  Nat.mul_div_cancel' h

/-- The bytes of a read. -/
def Disc.bytesAt (disc : Disc) (k : Nat) (len : UInt32) : List UInt8 :=
  (List.range len.toNat).map fun i => disc.byte (k + i)

def discAnswer (disc : Disc) (place : UInt32 → Nat) : (q : FileReq) → Cells UInt8 → FileAns q × Cells UInt8
  | .openFile _, m => (0, m)
  | .status, m => (⟨0, disc.size⟩, m)
  | .read dst p len offset, m => (0, m.put dst p (disc.bytesAt (place offset) len))
  | .close, m => ((), m)
  | .clear a len, m => ((), m.put a 0 (List.replicate len.toNat 0))
  | .load a p, m => (m a p, m)

/-- An image file that opens and whose reads do not fail answers a read that ends in it as
the disc does. -/
theorem imageAnswer_read {f : Image} {disc : Disc} {s : CallState UInt8} {dst : Area} {p len offset : UInt32}
    (hok : f.outcome s.reads = none) (hbytes : ∀ k < f.bytes.length, f.bytes[k]? = some (disc.byte k))
    (hend : offset.toNat + len.toNat ≤ f.bytes.length) :
    imageAnswer f (.read dst p len offset) s =
      ((discAnswer disc UInt32.toNat (.read dst p len offset) s.mem).1,
        ⟨(discAnswer disc UInt32.toNat (.read dst p len offset) s.mem).2, s.reads + 1⟩) := by
  have hasked : (f.bytes.drop offset.toNat).take len.toNat = disc.bytesAt offset.toNat len := by
    apply List.ext_getElem?
    intro i
    rw [List.getElem?_take, List.getElem?_drop, Disc.bytesAt, List.getElem?_map]
    by_cases hi : i < len.toNat
    · rw [if_pos hi, List.getElem?_range hi, hbytes _ (by omega), Option.map_some]
    · rw [if_neg hi, List.getElem?_eq_none (by rw [List.length_range]; omega), Option.map_none]
  simp only [imageAnswer, discAnswer, Image.serve, hok, hasked, CallState.landed]

/-! ## What the routines find in memory -/

def sameName (m : Cells UInt8) (p : UInt32) : List UInt8 → Bool
  | [] => true
  | c :: s => myTolower (m .ram p) = myTolower c && sameName m (p + 1) s

/-- Entry `i` of the table in memory is a file called `opening.bnr`; the names begin at `names`. -/
def entryNamed (m : Cells UInt8) (names : UInt32) (i : Nat) : Bool :=
  let entry := fstBase + 12 * .ofNat i
  m .ram entry &&& 0x80 = 0 &&
    sameName m (names + be32 0 (m .ram (entry + 1)) (m .ram (entry + 2)) (m .ram (entry + 3))) (openingBnr ++ [0])

/-- Where the table in memory says `opening.bnr` is, or 0. -/
def tableBanner (m : Cells UInt8) : UInt32 :=
  let totalEntries := wordAt m .ram (fstBase + 8)
  let names := fstBase + 12 * totalEntries
  if names < fstBase ∨ fstLimit < names then 0
  else
    match (List.range' 1 (totalEntries.toNat - 1)).find? (entryNamed m names) with
    | some i => wordAt m .ram (fstBase + 12 * .ofNat i + 4)
    | none => 0

def headerHash (m : Cells UInt8) : UInt32 :=
  tinfCrc32 ((List.range sizeofDiskHeader.toNat).map fun i => m .header (.ofNat i))

/-- What the table of known offsets says of a header in memory, or 0. -/
def knownIn (bnrOffsets : List BnrOffset) (m : Cells UInt8) : UInt32 :=
  if wordAt m .header dolOffsetAt = 0 then 0
  else
    match bnrOffsets.find? (·.hash == headerHash m) with
    | some row => row.offset
    | none => 0

section
variable {disc : Disc} {place : UInt32 → Nat} (m : Cells UInt8)

@[simp] theorem disc_load (a : Area) (p : UInt32) : (load a p).run (discAnswer disc place) m = (m a p, m) := rfl

@[simp] theorem disc_loadU32 (a : Area) (p : UInt32) :
    (loadU32 a p).run (discAnswer disc place) m = (wordAt m a p, m) := rfl

@[simp] theorem disc_dvdThreadedRead (dst : Area) (p len offset : UInt32) :
    (dvdThreadedRead dst p len offset).run (discAnswer disc place) m =
      (0, m.put dst p (disc.bytesAt (place offset) len)) := rfl

@[simp] theorem disc_dvdCustomOpen (path : Path) : (dvdCustomOpen path).run (discAnswer disc place) m = (0, m) := rfl

@[simp] theorem disc_dvdCustomStatus : dvdCustomStatus.run (discAnswer disc place) m = (⟨0, disc.size⟩, m) := rfl

@[simp] theorem disc_dvdCustomClose : dvdCustomClose.run (discAnswer disc place) m = ((), m) := rfl

theorem disc_loadBytes (a : Area) (n : Nat) : ∀ k : Nat, (loadBytes a (.ofNat k) n).run (discAnswer disc place) m =
    ((List.range' k n).map fun i => m a (.ofNat i), m) := by
  induction n with
  | zero => exact fun k => rfl
  | succ n ih =>
    intro k
    have hnext : UInt32.ofNat k + 1 = UInt32.ofNat (k + 1) := (UInt32.ofNat_add k 1).symm
    simp only [loadBytes, Dialogue.run_bind, disc_load, hnext, ih, Dialogue.run_pure, List.range'_succ, List.map_cons]

theorem run_getBannerOffsetFast (bnrOffsets : List BnrOffset) :
    (getBannerOffsetFast bnrOffsets).run (discAnswer disc place) m = (knownIn bnrOffsets m, m) := by
  have hbytes : (loadBytes .header 0 sizeofDiskHeader.toNat).run (discAnswer disc place) m =
      ((List.range sizeofDiskHeader.toNat).map fun i => m .header (.ofNat i), m) := by
    rw [List.range_eq_range']
    exact disc_loadBytes m .header _ 0
  rw [getBannerOffsetFast, Dialogue.run_bind, disc_loadU32, knownIn]
  by_cases hdol : wordAt m .header dolOffsetAt = 0
  · rw [if_pos hdol, if_pos hdol, Dialogue.run_pure]
  · rw [if_neg hdol, if_neg hdol, Dialogue.run_bind, hbytes]
    dsimp only
    rw [← headerHash]
    cases bnrOffsets.find? (·.hash == headerHash m) <;> rfl

theorem run_strcasecmpAt (s : List UInt8) (p : UInt32) :
    (strcasecmpAt p s).run (discAnswer disc place) m = (sameName m p s, m) := by
  induction s generalizing p with
  | nil => rfl
  | cons c s ih =>
    rw [strcasecmpAt, Dialogue.run_bind, disc_load, sameName]
    by_cases hc : myTolower (m .ram p) = myTolower c
    · simp only [hc, if_true, ih, decide_true, Bool.true_and]
    · simp only [hc, if_false, Dialogue.run_pure, decide_false, Bool.false_and]

/-- One round. -/
theorem run_fstLook (names : UInt32) (i : Nat) :
    (fstLook names (.ofNat i)).run (discAnswer disc place) m =
      (if entryNamed m names i then
        some ⟨wordAt m .ram (fstBase + 12 * .ofNat i + 4), wordAt m .ram (fstBase + 12 * .ofNat i + 8)⟩
      else none, m) := by
  simp only [fstLook, Dialogue.run_bind, disc_load, entryNamed]
  by_cases hfile : m .ram (fstBase + 12 * .ofNat i) &&& 0x80 = 0
  · simp only [hfile, if_true, decide_true, Bool.true_and, Dialogue.run_bind, run_strcasecmpAt]
    split <;> rfl
  · simp only [hfile, decide_false, Bool.false_and, Dialogue.run_pure, Bool.false_eq_true, if_false]

theorem run_fstSearch (names : UInt32) (left i : Nat) :
    ((fstSearch names left (.ofNat i)).run (discAnswer disc place) m).2 = m ∧
      ((fstSearch names left (.ofNat i)).run (discAnswer disc place) m).1.offset =
        match (List.range' i left).find? (entryNamed m names) with
        | some j => wordAt m .ram (fstBase + 12 * .ofNat j + 4)
        | none => 0 := by
  induction left generalizing i with
  | zero => exact ⟨rfl, rfl⟩
  | succ left ih =>
    have hnext : UInt32.ofNat i + 1 = UInt32.ofNat (i + 1) := (UInt32.ofNat_add i 1).symm
    rw [fstSearch_succ, Dialogue.run_bind, run_fstLook, hnext, List.range'_succ]
    cases hnamed : entryNamed m names i with
    | true =>
      rw [List.find?_cons_of_pos hnamed]
      exact ⟨rfl, rfl⟩
    | false =>
      have hmiss : ¬ entryNamed m names i = true := by
        rw [hnamed]
        exact Bool.false_ne_true
      rw [List.find?_cons_of_neg hmiss]
      exact ih (i + 1)

/-- The memory as the walk finds it once its read is done. -/
def withTable (disc : Disc) (place : UInt32 → Nat) (m : Cells UInt8) : Cells UInt8 :=
  m.put .ram fstBase (disc.bytesAt (place (wordAt m .header fstOffsetAt)) (osRoundUp32B (wordAt m .header fstSizeAt)))

theorem run_getBannerOffsetSlow :
    (getBannerOffsetSlow.run (discAnswer disc place) m).2 = withTable disc place m ∧
      (getBannerOffsetSlow.run (discAnswer disc place) m).1.offset = tableBanner (withTable disc place m) := by
  simp only [getBannerOffsetSlow, Dialogue.run_bind, disc_loadU32, disc_dvdThreadedRead]
  rw [← withTable]
  simp only [tableBanner]
  have hone : (1 : UInt32) = .ofNat 1 := rfl
  by_cases hrefused : fstBase + 12 * wordAt (withTable disc place m) .ram (fstBase + 8) < fstBase ∨
      fstLimit < fstBase + 12 * wordAt (withTable disc place m) .ram (fstBase + 8)
  · simp only [hrefused, if_true]
    exact ⟨rfl, rfl⟩
  · simp only [hrefused, if_false, hone]
    exact run_fstSearch ..

end

/-! ## What a disc has where -/

namespace Disc
variable (disc : Disc)

def word (k : Nat) : UInt32 := be32 (disc.byte k) (disc.byte (k + 1)) (disc.byte (k + 2)) (disc.byte (k + 3))

/-- The banner's position by the table of known offsets, or 0. -/
def known (bnrOffsets : List BnrOffset) : UInt32 :=
  if disc.word 0x420 = 0 then 0
  else
    match bnrOffsets.find? (·.hash == tinfCrc32 (disc.bytesAt 0 sizeofDiskHeader)) with
    | some row => row.offset
    | none => 0

/-- What the read of the file system table brings. -/
def table (place : UInt32 → Nat) : List UInt8 :=
  disc.bytesAt (place (disc.word 0x424)) (osRoundUp32B (disc.word 0x428))

/-- The banner's position by the file system table, with memory `m` behind it, or 0. -/
def named (place : UInt32 → Nat) (m : Cells UInt8) : UInt32 :=
  if 0x100000 < disc.word 0x428 then 0 else tableBanner (m.put .ram fstBase (disc.table place))

/-- A position, if there is a banner. -/
def bannerAt (offset : UInt32) : Option UInt32 :=
  if offset ≠ 0 ∧ (disc.word offset.toNat = bannerMagic1 ∨ disc.word offset.toNat = bannerMagic2) then some offset
  else none

/-- Where an image file's banner is. -/
def fileBanner (bnrOffsets : List BnrOffset) (m : Cells UInt8) : Option UInt32 :=
  (disc.bannerAt (disc.known bnrOffsets)).or (disc.bannerAt (disc.named UInt32.toNat m))

theorem bannerAt_zero : disc.bannerAt 0 = none := if_neg fun h => h.1 rfl

theorem bannerAt_eq_some {offset o : UInt32} (h : disc.bannerAt offset = some o) : o = offset := by
  rw [bannerAt] at h
  split at h
  · exact (Option.some.inj h).symm
  · cases h

theorem bannerAt_eq_none {offset : UInt32} (hne : offset ≠ 0) : disc.bannerAt offset = none ↔
    disc.word offset.toNat ≠ bannerMagic1 ∧ disc.word offset.toNat ≠ bannerMagic2 := by
  rw [bannerAt, ite_eq_right_iff, ← not_or]
  exact ⟨fun h hmagic => Option.some_ne_none _ (h ⟨hne, hmagic⟩), fun h hmagic => absurd hmagic.2 h⟩

end Disc

/-- The header is in memory. -/
def HasHeader (disc : Disc) (m : Cells UInt8) : Prop :=
  ∀ k < 0x440, m .header (.ofNat k) = disc.byte k

theorem bytesAt_getD (disc : Disc) (k : Nat) {len : UInt32} {i : Nat} (hi : i < len.toNat) (b : UInt8) :
    (disc.bytesAt k len).getD i b = disc.byte (k + i) := by
  have hlen : i < (List.range len.toNat).length := by rwa [List.length_range]
  rw [Disc.bytesAt, List.getD_eq_getElem?_getD, List.getElem?_map, List.getElem?_range hi]
  rfl

/-- A read to the beginning of an area. -/
theorem put_bytesAt (disc : Disc) (m : Cells UInt8) (a : Area) (k : Nat) {len : UInt32} {i : Nat}
    (hi : i < len.toNat) : m.put a 0 (disc.bytesAt k len) a (.ofNat i) = disc.byte (k + i) := by
  have hsize : i < UInt32.size := Nat.lt_trans hi len.toNat_lt
  rw [Cells.put, Function.update_self, UInt32.sub_zero, UInt32.toNat_ofNat_of_lt' hsize, bytesAt_getD disc k hi]

/-- What was read is there. -/
theorem map_put_bytesAt (disc : Disc) (m : Cells UInt8) (a : Area) (k : Nat) (len : UInt32) :
    (List.range len.toNat).map (fun i => m.put a 0 (disc.bytesAt k len) a (.ofNat i)) = disc.bytesAt k len :=
  List.map_congr_left fun _ hi => put_bytesAt disc m a k (List.mem_range.mp hi)

theorem wordAt_ofNat (m : Cells UInt8) (a : Area) (k : Nat) : wordAt m a (.ofNat k) =
    be32 (m a (.ofNat k)) (m a (.ofNat (k + 1))) (m a (.ofNat (k + 2))) (m a (.ofNat (k + 3))) := by
  have h1 : UInt32.ofNat k + 1 = .ofNat (k + 1) := (UInt32.ofNat_add k 1).symm
  have h2 : UInt32.ofNat k + 2 = .ofNat (k + 2) := (UInt32.ofNat_add k 2).symm
  have h3 : UInt32.ofNat k + 3 = .ofNat (k + 3) := (UInt32.ofNat_add k 3).symm
  rw [wordAt, h1, h2, h3]

section
variable {disc : Disc} {m : Cells UInt8}

theorem hasHeader_read (disc : Disc) (m : Cells UInt8) :
    HasHeader disc (m.put .header 0 (disc.bytesAt 0 sizeofDiskHeader)) := by
  intro k hk
  rw [put_bytesAt disc m .header 0 hk, Nat.zero_add]

theorem HasHeader.put (h : HasHeader disc m) {a : Area} (ha : a ≠ .header) (p : UInt32) (xs : List UInt8) :
    HasHeader disc (m.put a p xs) := by
  intro k hk
  rw [put_other m ha.symm]
  exact h k hk

theorem HasHeader.word (h : HasHeader disc m) {k : Nat} (hk : k + 3 < 0x440) :
    wordAt m .header (.ofNat k) = disc.word k := by
  rw [wordAt_ofNat, h k (by omega), h (k + 1) (by omega), h (k + 2) (by omega), h (k + 3) hk, Disc.word]

theorem HasHeader.hash (h : HasHeader disc m) : headerHash m = tinfCrc32 (disc.bytesAt 0 sizeofDiskHeader) := by
  have hbytes : ((List.range sizeofDiskHeader.toNat).map fun i => m .header (.ofNat i)) =
      disc.bytesAt 0 sizeofDiskHeader := by
    refine List.map_congr_left fun i hi => ?_
    rw [h i (List.mem_range.mp hi), Nat.zero_add]
  rw [headerHash, hbytes]

theorem HasHeader.known (h : HasHeader disc m) (bnrOffsets : List BnrOffset) :
    knownIn bnrOffsets m = disc.known bnrOffsets := by
  have hdol : wordAt m .header dolOffsetAt = disc.word 0x420 := h.word (by decide)
  rw [knownIn, Disc.known, hdol, h.hash]

theorem HasHeader.withTable (h : HasHeader disc m) (place : UInt32 → Nat) :
    Cubiboot.withTable disc place m = m.put .ram fstBase (disc.table place) := by
  have hoffset : wordAt m .header fstOffsetAt = disc.word 0x424 := h.word (by decide)
  have hsize : wordAt m .header fstSizeAt = disc.word 0x428 := h.word (by decide)
  rw [Cubiboot.withTable, Disc.table, hoffset, hsize]

end

/-! ### The walk looks at one area -/

theorem sameName_congr {m m' : Cells UInt8} (h : m' .ram = m .ram) (s : List UInt8) (p : UInt32) :
    sameName m' p s = sameName m p s := by
  induction s generalizing p with
  | nil => rfl
  | cons c s ih => rw [sameName, sameName, h, ih]

theorem tableBanner_congr {m m' : Cells UInt8} (h : m' .ram = m .ram) : tableBanner m' = tableBanner m := by
  have hnamed : ∀ names, entryNamed m' names = entryNamed m names := by
    intro names
    funext i
    simp only [entryNamed, h, sameName_congr h]
  simp only [tableBanner, hnamed, wordAt_congr h]

theorem put_congr {m m' : Cells UInt8} {a : Area} (h : m' a = m a) (p : UInt32) (xs : List UInt8) :
    m'.put a p xs a = m.put a p xs a := by
  simp only [Cells.put, Function.update_self, h]

theorem Disc.named_congr (disc : Disc) (place : UInt32 → Nat) {m m' : Cells UInt8} (h : m' .ram = m .ram) :
    disc.named place m' = disc.named place m := by
  rw [Disc.named, Disc.named, tableBanner_congr (put_congr h _ _)]

/-! ## `get_game_info` -/

/-- Where the banner is, if the game is valid. -/
def GameInfo.banner (info : GameInfo) : Option UInt32 := if info.valid then some info.bnrOffset else none

theorem GameInfo.banner_eq_none {info : GameInfo} : info.banner = none ↔ info.valid = false := by
  rw [GameInfo.banner]
  cases info.valid <;> simp

theorem GameInfo.banner_eq_some {info : GameInfo} {offset : UInt32} :
    info.banner = some offset ↔ info.valid = true ∧ info.bnrOffset = offset := by
  rw [GameInfo.banner]
  cases info.valid <;> simp

section
variable {disc : Disc} {m : Cells UInt8}

theorem run_gameInfoAt (place : UInt32 → Nat) (m : Cells UInt8) (magic offset : UInt32) :
    ((gameInfoAt magic offset).run (discAnswer disc place) m).1.banner = some offset := by
  simp only [gameInfoAt, Dialogue.run_bind, Dialogue.run_pure, GameInfo.banner, if_true]

theorem wordAt_read (disc : Disc) (m : Cells UInt8) (a : Area) (k : Nat) {len : UInt32} {i : Nat}
    (hi : i + 3 < len.toNat) : wordAt (m.put a 0 (disc.bytesAt k len)) a (.ofNat i) = disc.word (k + i) := by
  have h0 : i < len.toNat := by omega
  have h1 : i + 1 < len.toNat := by omega
  have h2 : i + 2 < len.toNat := by omega
  rw [wordAt_ofNat, put_bytesAt disc m a k h0, put_bytesAt disc m a k h1, put_bytesAt disc m a k h2,
    put_bytesAt disc m a k hi]
  rfl

/-- The probe of a position that is not 0. -/
theorem run_probeBanner {offset : UInt32} (hne : offset ≠ 0) (m : Cells UInt8) :
    (∃ info, ((probeBanner offset).run (discAnswer disc UInt32.toNat) m).1 = some info ∧
      info.banner = some offset ∧ disc.bannerAt offset = some offset) ∨
    ((probeBanner offset).run (discAnswer disc UInt32.toNat) m =
      (none, m.put .smallBuf 0 (disc.bytesAt offset.toNat 32)) ∧ disc.bannerAt offset = none) := by
  have hmagic : wordAt (m.put .smallBuf 0 (disc.bytesAt offset.toNat 32)) .smallBuf 0 = disc.word offset.toNat :=
    wordAt_read disc m .smallBuf offset.toNat (i := 0) (by decide)
  simp only [probeBanner, Dialogue.run_bind, disc_dvdThreadedRead, disc_loadU32, hmagic, Disc.bannerAt]
  by_cases hfound : disc.word offset.toNat = bannerMagic1 ∨ disc.word offset.toNat = bannerMagic2
  · left
    simp only [if_pos hfound, if_pos (And.intro hne hfound)]
    exact ⟨_, rfl, run_gameInfoAt _ _ _ _, trivial⟩
  · right
    simp only [if_neg hfound, if_neg fun h : offset ≠ 0 ∧ _ => hfound h.2]
    exact ⟨rfl, trivial⟩

/-- From the header on, if the known position has not helped. -/
theorem run_getGameInfoSlow (h : HasHeader disc m) :
    (getGameInfoSlow.run (discAnswer disc UInt32.toNat) m).1.banner = disc.bannerAt (disc.named UInt32.toNat m) := by
  have hsize : wordAt m .header fstSizeAt = disc.word 0x428 := h.word (by decide)
  have hwalk : (getBannerOffsetSlow.run (discAnswer disc UInt32.toNat) m).1.offset = tableBanner _ :=
    (run_getBannerOffsetSlow m).2
  rw [h.withTable] at hwalk
  rw [getGameInfoSlow, Dialogue.run_bind, disc_loadU32, hsize, Disc.named]
  by_cases hlarge : 0x100000 < disc.word 0x428
  · rw [if_pos hlarge, if_pos hlarge]
    rfl
  · rw [if_neg hlarge, if_neg hlarge, Dialogue.run_bind, ← hwalk]
    generalize getBannerOffsetSlow.run (discAnswer disc UInt32.toNat) m = walked
    by_cases hnone : walked.1.offset = 0
    · simp only [hnone]
      rfl
    · simp only [ne_eq, hnone, not_false_eq_true, if_true, Dialogue.run_bind]
      obtain ⟨info, hrun, hbanner, hat⟩ | ⟨hrun, hat⟩ := run_probeBanner hnone walked.2
      · rw [hrun, hat]
        exact hbanner
      · rw [hrun, hat]
        rfl

/-- The banner `get_game_info` finds in an image file. -/
theorem run_getGameInfo (disc : Disc) (bnrOffsets : List BnrOffset) (path : Path) (m : Cells UInt8) :
    ((getGameInfo bnrOffsets path).run (discAnswer disc UInt32.toNat) m).1.banner = disc.fileBanner bnrOffsets m := by
  have hheader := hasHeader_read disc m
  have hknown := hheader.known bnrOffsets
  have hopen : (getGameInfo bnrOffsets path).run (discAnswer disc UInt32.toNat) m =
      (getGameInfoOpened bnrOffsets).run (discAnswer disc UInt32.toNat) m := by
    simp only [getGameInfo, Dialogue.run_bind, disc_dvdCustomOpen, disc_dvdCustomStatus, ne_eq, not_true_eq_false,
      if_false]
  rw [hopen, getGameInfoOpened, Dialogue.run_bind, disc_dvdThreadedRead, Dialogue.run_bind]
  simp only [run_getBannerOffsetFast, UInt32.toNat_zero, hknown]
  have hnamed : disc.named UInt32.toNat (m.put .header 0 (disc.bytesAt 0 sizeofDiskHeader)) =
      disc.named UInt32.toNat m := disc.named_congr _ (put_other m (by decide) _ _)
  rw [Disc.fileBanner, ← hnamed]
  generalize m.put .header 0 (disc.bytesAt 0 sizeofDiskHeader) = m₁ at hheader
  by_cases hzero : disc.known bnrOffsets = 0
  · simp only [hzero, ne_eq, not_true_eq_false, if_false, Dialogue.run_bind, Dialogue.run_pure, Disc.bannerAt_zero,
      Option.none_or]
    exact run_getGameInfoSlow hheader
  · simp only [ne_eq, hzero, not_false_eq_true, if_true, Dialogue.run_bind]
    obtain ⟨info, hrun, hbanner, hat⟩ | ⟨hrun, hat⟩ := run_probeBanner hzero m₁
    · rw [hrun, hat, Option.some_or]
      exact hbanner
    · -- the probe has left the header and the walk's area alone
      have hother : (.ram : Area) ≠ .smallBuf := by decide
      rw [hrun, hat, Option.none_or, ← disc.named_congr UInt32.toNat (put_other m₁ hother 0 _)]
      exact run_getGameInfoSlow (hheader.put (by decide) 0 _)

end

/-! ## A walk that stays in its table -/

/-- The same, where a cell holds a byte only if it was read. -/
def Disc.ownAnswer (disc : Disc) (place : UInt32 → Nat) : (q : FileReq) → Cells (Option UInt8) →
    Option (FileAns q × Cells (Option UInt8))
  | .openFile _, t => some (0, t)
  | .status, t => some (⟨0, disc.size⟩, t)
  | .read dst p len offset, t => some (0, t.put dst p ((disc.bytesAt (place offset) len).map some))
  | .close, t => some ((), t)
  | .clear a len, t => some ((), t.put a 0 (List.replicate len.toNat (some 0)))
  | .load a p, t => (t a p).map fun b => (b, t)

theorem disc_simulates_own (disc : Disc) (place : UInt32 → Nat) :
    Dialogue.Simulates (discAnswer disc place) (disc.ownAnswer place)
      fun (m : Cells UInt8) (t : Cells (Option UInt8)) => ∀ a i b, t a i = some b → m a i = b := by
  intro q m t r t' hR hq
  cases q with
  | openFile | status | close =>
    obtain ⟨hr, rfl⟩ := Prod.mk.inj (Option.some.inj hq)
    exact ⟨hr, hR⟩
  | read dst p len offset =>
    obtain ⟨hr, rfl⟩ := Prod.mk.inj (Option.some.inj hq)
    exact ⟨hr, put_known hR dst p _⟩
  | clear a len =>
    obtain ⟨hr, rfl⟩ := Prod.mk.inj (Option.some.inj hq)
    refine ⟨hr, ?_⟩
    have hput := put_known hR a 0 (List.replicate len.toNat 0)
    rwa [List.map_replicate] at hput
  | load a p =>
    obtain ⟨b, hb, heq⟩ := Option.map_eq_some_iff.mp hq
    obtain ⟨rfl, rfl⟩ := Prod.mk.inj heq
    exact ⟨hR a p b hb, hR⟩

/-- All that is known is the header. -/
def headerOnly (disc : Disc) : Cells (Option UInt8)
  | .header, p => if p.toNat < 0x440 then some (disc.byte p.toNat) else none
  | _, _ => none

theorem headerOnly_known {disc : Disc} {m : Cells UInt8} (h : HasHeader disc m) :
    ∀ a i b, headerOnly disc a i = some b → m a i = b := by
  intro a i b hb
  cases a with
  | header =>
    rw [headerOnly] at hb
    split at hb
    · rename_i hi
      have hcell := h i.toNat hi
      rw [UInt32.ofNat_toNat] at hcell
      exact hcell.trans (Option.some.inj hb)
    · cases hb
  | smallBuf | bannerBuffer | ram => cases hb

section
variable {disc : Disc} {place : UInt32 → Nat}

theorem table_length (h : disc.word 0x428 ≤ 0x100000) : (disc.table place).length ≤ 0x100000 := by
  rw [Disc.table, Disc.bytesAt, List.length_map, List.length_range]
  exact osRoundUp32B_le h

/-- What the walk comes to on the table alone, it comes to in every memory. -/
theorem tableBanner_eq {info : BnrInfo} {m : Cells UInt8} (hheader : HasHeader disc m)
    (hsize : disc.word 0x428 ≤ 0x100000) (h : walk (disc.table place) = some info) :
    tableBanner (m.put .ram fstBase (disc.table place)) = info.offset := by
  have hcells : ∀ p, (headerOnly disc).put .ram fstBase ((disc.table place).map some) .ram p =
      fstCell (disc.table place) p := by
    intro p
    rw [Cells.put, Function.update_self, List.getD_eq_getElem?_getD, List.getElem?_map, fstCell]
    cases (disc.table place)[(p - fstBase).toNat]? <;> rfl
  have htry : getBannerOffsetSlow.tryRun (disc.ownAnswer place) (headerOnly disc) =
      (walk (disc.table place)).map fun a => (a, (headerOnly disc).put .ram fstBase ((disc.table place).map some)) := by
    have hfields : Dialogue.Yields (disc.ownAnswer place) (headerOnly disc) (loadU32 .header fstSizeAt)
          (some (disc.word 0x428)) ∧
        Dialogue.Yields (disc.ownAnswer place) (headerOnly disc) (loadU32 .header fstOffsetAt)
          (some (disc.word 0x424)) := ⟨rfl, rfl⟩
    rw [getBannerOffsetSlow_eq, walk]
    refine slowWith_tryRun hfields.1 hfields.2 rfl (fun p => ?_) fun names left hnames => ?_
    · rw [Disc.ownAnswer, hcells]
    · exact fstSearch_yields (i := 1) (fun p => by rw [Disc.ownAnswer, hcells]) (table_length hsize) hnames left (by omega)
  rw [h, Option.map_some] at htry
  have hrun := (Dialogue.run_eq_of_tryRun (disc_simulates_own disc place) (headerOnly_known hheader) htry).1
  rw [← hheader.withTable, ← (run_getBannerOffsetSlow m).2, hrun]

end

end Cubiboot
